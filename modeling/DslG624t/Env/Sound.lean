import DslG624t.Env.Compact

/-!
# Logs that are maps

A name that is not in the table is compared with the first string of every record, and for a
predefined variable that is the value.
-/

namespace DslG624t.Env

open CString Function List Option Prod SplitFirst

variable {cfg : EnvConfig}

namespace Rec

variable {r : Rec cfg.table} {nm : CStr}

lemma matches_of_var (hl : r.live = true) (hv : r.var = Var.ofName cfg.table nm) :
    r.matches cfg nm = true := by
  rw [Rec.matches,hl,Bool.true_and]
  by_cases h : cfg.table.index nm = 0
  · rw [if_neg (not_not.mpr h),decide_eq_true_iff,key,hv,ofName_of_index_eq_zero h]
  · rw [if_pos h,decide_eq_true_iff,hv,Var.num_ofName]

lemma matches_self (hl : r.live = true) : r.matches cfg r.var.name = true :=
  matches_of_var hl (Var.ofName_name r.var).symm

lemma value_of_matches (h : r.matches cfg nm = true) (hv : r.var ≠ Var.ofName cfg.table nm) :
    cfg.table.index nm = 0 ∧ r.var.isDyn = false ∧ r.value = nm := by
  rw [Rec.matches,Bool.and_eq_true] at h
  by_cases hi : cfg.table.index nm = 0
  · have hkey : r.key = nm := by simpa [hi] using h.2
    rw [key] at hkey
    cases hr : r.var with
    | pre i hi' =>
      rw [hr] at hkey
      exact ⟨hi,rfl,hkey⟩
    | dyn nm' h' =>
      rw [hr] at hkey
      obtain rfl : nm' = nm := hkey
      exact absurd (hr.trans (ofName_of_index_eq_zero hi).symm) hv
  have hnum : r.var.num = cfg.table.index nm := by simpa [hi] using h.2
  cases hr : r.var with
  | pre i hi' =>
    rw [hr] at hnum
    obtain rfl : i = cfg.table.index nm := hnum
    exact absurd (hr.trans (ofName_of_index_ne_zero hi).symm) hv
  | dyn nm' h' =>
    rw [hr] at hnum
    exact absurd hnum.symm hi

lemma matches_name (r : Rec cfg.table) (nm : CStr) :
    r.matches cfg (Var.ofName cfg.table nm).name = r.matches cfg nm := by
  have hi : cfg.table.index (Var.ofName cfg.table nm).name = cfg.table.index nm := by
    rw [← Var.num_ofName,Var.ofName_name,Var.num_ofName]
  rw [Rec.matches,Rec.matches,hi]
  by_cases h : cfg.table.index nm = 0
  · rw [ofName_of_index_eq_zero h]
    rfl
  · rw [if_pos h,if_pos h]

lemma matches_kill (r : Rec cfg.table) (nm : CStr) : r.kill.matches cfg nm = false := rfl

end Rec

def Log.value {T : EnvTable} (rs : Log T) (v : Var T) : Option CStr :=
  (rs.find? fun r => r.live && decide (r.var = v)).map Rec.value

section value

variable {T : EnvTable} {v : Var T} {r : Rec T} {rs : Log T}

lemma value_cons_of_eq (rs : Log T) (hl : r.live = true) (hv : r.var = v) :
    Log.value (r :: rs) v = some r.value := by
  simp [Log.value,hl,hv]

lemma value_cons_of_ne (rs : Log T) (h : r.live = true → r.var ≠ v) :
    Log.value (r :: rs) v = Log.value rs v := by
  rw [Log.value,find?_cons_of_neg]
  · rfl
  · simpa using h

lemma value_append (a b : Log T) (v : Var T) :
    Log.value (a ++ b) v = (Log.value a v).or (Log.value b v) := by
  rw [Log.value,find?_append,Log.value,Log.value]
  cases a.find? fun r => r.live && decide (r.var = v) <;> rfl

lemma value_eq_none_iff : rs.value v = none ↔ ∀ r ∈ rs, r.live = true → r.var ≠ v := by
  simp [Log.value,find?_eq_none]

lemma value_eq_some {x : CStr} (h : rs.value v = some x) :
    ∃ r ∈ rs, r.live = true ∧ r.var = v ∧ r.value = x := by
  obtain ⟨r,hr,hx⟩ := map_eq_some_iff.mp h
  have hp := find?_some hr
  rw [Bool.and_eq_true,decide_eq_true_iff] at hp
  exact ⟨r,mem_of_find?_eq_some hr,hp.1,hp.2,hx⟩

end value

/-- Live records have the right checksum, and none stands before another under whose name it
would be found. -/
structure Log.Sound (rs : Log cfg.table) : Prop where
  good : rs.Good
  noClash : rs.Pairwise fun r x => x.live = true → r.matches cfg x.var.name = false

def Log.Own (rs : Log cfg.table) (nm : CStr) : Prop :=
  ∀ r ∈ rs, r.matches cfg nm = true → r.var = Var.ofName cfg.table nm

def Log.Writable (rs : Log cfg.table) (nm : CStr) : Prop :=
  ∀ r ∈ rs, r.matches cfg nm = true → r.perm = false

namespace Log.Sound

variable {rs a b : Log cfg.table} {r x : Rec cfg.table} {nm : CStr}

lemma nil : Log.Sound ([] : Log cfg.table) := ⟨Log.good_nil,.nil⟩

lemma live_var_ne (hlr : r.live = true) (hlx : x.live = true)
    (h : x.live = true → r.matches cfg x.var.name = false) : r.var ≠ x.var := by
  intro hv
  have hm := Rec.matches_of_var hlr (hv.trans (Var.ofName_name x.var).symm)
  rw [h hlx] at hm
  cases hm

lemma unique (h : Log.Sound (a ++ r :: b)) (hr : r.live = true) :
    ∀ x ∈ a ++ b, x.live = true → x.var ≠ r.var := by
  obtain ⟨-,hrb,hab⟩ := pairwise_append.mp h.noClash
  obtain ⟨hrb,-⟩ := pairwise_cons.mp hrb
  intro x hx hlx
  obtain hx | hx := mem_append.mp hx
  · exact live_var_ne hlx hr (hab x hx r mem_cons_self)
  · exact (live_var_ne hr hlx (hrb x hx)).symm

lemma find_self (h : Log.Sound rs) (hr : r ∈ rs) (hl : r.live = true) :
    ∃ a b, rs.find cfg r.var.name = some (a,r,b) := by
  obtain ⟨a,b,rfl⟩ := append_of_mem hr
  obtain ⟨-,-,hab⟩ := pairwise_append.mp h.noClash
  exact ⟨a,b,splitFirst_append_cons (Rec.matches_self hl) fun x hx =>
    hab x hx r mem_cons_self hl⟩

lemma kill (h : Log.Sound (a ++ r :: b)) : Log.Sound (a ++ r.kill :: b) := by
  obtain ⟨ha,hrb,hab⟩ := pairwise_append.mp h.noClash
  obtain ⟨hr,hb⟩ := pairwise_cons.mp hrb
  refine ⟨?_,pairwise_append.mpr ⟨ha,pairwise_cons.mpr ⟨?_,hb⟩,?_⟩⟩
  · exact h.good.kill
  · exact fun x _ _ => Rec.matches_kill r _
  · intro x hx y hy hly
    obtain rfl | hy := mem_cons.mp hy
    · cases hly
    · exact hab x hx y (mem_cons_of_mem _ hy) hly

lemma append (h : Log.Sound rs) (nm : CStr) (hg : r.good = true) (hv : r.var = Var.ofName cfg.table nm)
    (hrs : ∀ x ∈ rs, x.matches cfg nm = false) : Log.Sound (rs ++ [r]) := by
  refine ⟨?_,pairwise_append.mpr ⟨h.noClash,pairwise_singleton _ _,?_⟩⟩
  · intro x hx hlx
    obtain hx | hx := mem_append.mp hx
    · exact h.good x hx hlx
    · rw [mem_singleton.mp hx]
      exact hg
  · intro x hx y hy _
    rw [mem_singleton.mp hy,hv,Rec.matches_name]
    exact hrs x hx

lemma value_kill (h : Log.Sound (a ++ r :: b)) (hl : r.live = true) :
    Log.value (a ++ r.kill :: b) = update (Log.value (a ++ r :: b)) r.var none := by
  funext v
  by_cases hv : v = r.var
  · subst hv
    rw [update_self,value_eq_none_iff]
    intro x hx hlx
    obtain hx | hx := mem_append.mp hx
    · exact h.unique hl x (mem_append_left _ hx) hlx
    · obtain rfl | hx := mem_cons.mp hx
      · cases hlx
      · exact h.unique hl x (mem_append_right _ hx) hlx
  · have hkill : Log.value (r.kill :: b) v = Log.value b v := value_cons_of_ne b nofun
    have hr : Log.value (r :: b) v = Log.value b v := value_cons_of_ne b fun _ => Ne.symm hv
    rw [update_of_ne hv,value_append,value_append,hkill,hr]

end Log.Sound

variable {a b rs : Log cfg.table} {r : Rec cfg.table} {nm : CStr}

lemma value_append_singleton (hl : r.live = true) (hv : r.var = Var.ofName cfg.table nm)
    (hrs : ∀ x ∈ rs, x.matches cfg nm = false) :
    Log.value (rs ++ [r]) = update rs.value r.var (some r.value) := by
  funext v
  rw [value_append]
  by_cases h : v = r.var
  · subst h
    have hnone : rs.value r.var = none := value_eq_none_iff.mpr fun x hx hlx hvx => by
      have hm := Rec.matches_of_var hlx (hvx.trans hv)
      rw [hrs x hx] at hm
      cases hm
    rw [update_self,hnone,none_or,value_cons_of_eq [] hl rfl]
  · rw [update_of_ne h,value_cons_of_ne [] (fun _ => Ne.symm h)]
    exact or_none

lemma Log.Good.get (h : rs.Good) (hown : rs.Own nm) :
    rs.get cfg nm = (rs.value (Var.ofName cfg.table nm),rs) := by
  rw [Log.get]
  cases hf : rs.find cfg nm with
  | none =>
    have hnone : rs.value (Var.ofName cfg.table nm) = none :=
      value_eq_none_iff.mpr fun r hr hl hv => by
        have hm := Rec.matches_of_var hl hv
        rw [splitFirst_eq_none_iff.mp hf r hr] at hm
        cases hm
    rw [hnone]
  | some x =>
    obtain ⟨a,r,b⟩ := x
    obtain ⟨rfl,hr,ha⟩ := splitFirst_eq_some_iff.mp hf
    have hmem : r ∈ a ++ r :: b := mem_append_right _ mem_cons_self
    have hl := Rec.matches_live hr
    have hv := hown r hmem hr
    have hnone : Log.value a (Var.ofName cfg.table nm) = none :=
      value_eq_none_iff.mpr fun x hx hlx hvx => by
        have hm := Rec.matches_of_var hlx hvx
        rw [ha x hx] at hm
        cases hm
    simp only [h r hmem hl,if_true]
    rw [value_append,hnone,none_or,value_cons_of_eq b hl hv]

lemma Log.Sound.get (h : rs.Sound) (hown : rs.Own nm) :
    rs.get cfg nm = (rs.value (Var.ofName cfg.table nm),rs) :=
  h.good.get hown

lemma Log.Sound.value_of_find (h : rs.Sound) (hown : rs.Own nm)
    (hf : rs.find cfg nm = some (a,r,b)) :
    rs.value (Var.ofName cfg.table nm) = some r.value := by
  obtain ⟨hrs,hr,-⟩ := splitFirst_eq_some_iff.mp hf
  have hmem : r ∈ rs := hrs ▸ mem_append_right _ mem_cons_self
  have hget := h.get hown
  rw [Log.get,hf] at hget
  simp only [h.good r hmem (Rec.matches_live hr),if_true] at hget
  exact (congrArg fst hget).symm

lemma Log.Sound.value_of_mem (h : rs.Sound) (hr : r ∈ rs) (hl : r.live = true) :
    rs.value r.var = some r.value := by
  obtain ⟨a,b,rfl⟩ := append_of_mem hr
  have hnone : Log.value a r.var = none := value_eq_none_iff.mpr fun x hx =>
    h.unique hl x (mem_append_left _ hx)
  rw [value_append,hnone,none_or,value_cons_of_eq b hl rfl]

lemma Log.Sound.find_of_value {nm v : CStr} (h : rs.Sound)
    (hv : rs.value (Var.ofName cfg.table nm) = some v) :
    ∃ a r b, rs.find cfg nm = some (a,r,b) ∧ r.good = true ∧ r.var = Var.ofName cfg.table nm ∧
      r.value = v := by
  obtain ⟨r,hr,hl,hvar,hval⟩ := value_eq_some hv
  obtain ⟨a,b,hf⟩ := h.find_self hr hl
  have hname : Rec.matches cfg r.var.name = Rec.matches cfg nm := by
    funext x
    rw [hvar,Rec.matches_name]
  refine ⟨a,r,b,?_,h.good r hr hl,hvar,hval⟩
  rwa [Log.find,← hname]

lemma Log.Sound.kill_matches (h : Log.Sound (a ++ r :: b)) (hown : Log.Own (a ++ r :: b) nm)
    (hr : r.matches cfg nm = true) (ha : ∀ x ∈ a, x.matches cfg nm = false) :
    ∀ x ∈ a ++ r.kill :: b, x.matches cfg nm = false := by
  intro x hx
  obtain hx | hx := mem_append.mp hx
  · exact ha x hx
  obtain rfl | hx := mem_cons.mp hx
  · exact Rec.matches_kill r nm
  by_contra hm
  rw [Bool.not_eq_false] at hm
  have hvx := hown x (mem_append_right _ (mem_cons_of_mem _ hx)) hm
  have hvr := hown r (mem_append_right _ mem_cons_self) hr
  exact h.unique (Rec.matches_live hr) x (mem_append_right _ hx) (Rec.matches_live hm)
    (hvx.trans hvr.symm)

lemma mem_filter_fresh {x : Rec cfg.table} (h : x ∈ (rs.filter Rec.live).map Rec.fresh) :
    ∃ r ∈ rs, r.live = true ∧ x = r.fresh := by
  obtain ⟨r,hr,rfl⟩ := mem_map.mp h
  obtain ⟨hr,hl⟩ := mem_filter.mp hr
  exact ⟨r,hr,hl,rfl⟩

lemma value_filter_fresh (rs : Log cfg.table) :
    Log.value ((rs.filter Rec.live).map Rec.fresh) = rs.value := by
  funext v
  induction rs with
  | nil => rfl
  | cons r rs ih =>
    cases hl : r.live with
    | false =>
      rw [filter_cons_of_neg (by simp [hl]),ih,value_cons_of_ne rs (by simp [hl])]
    | true =>
      rw [filter_cons_of_pos hl,map_cons]
      by_cases hv : r.var = v
      · rw [value_cons_of_eq rs hl hv,value_cons_of_eq _ r.live_fresh (r.var_fresh.trans hv),
          Rec.value_fresh]
      · rw [value_cons_of_ne rs (fun _ => hv),value_cons_of_ne _ (fun _ => r.var_fresh ▸ hv),ih]

namespace Log.Sound

section
variable (h : rs.Sound)
include h

lemma pairwise_filter :
    (rs.filter Rec.live).Pairwise fun r x => r.matches cfg x.var.name = false := by
  refine (h.noClash.filter Rec.live).imp_of_mem ?_
  intro r x _ hx hrx
  exact hrx (mem_filter.mp hx).2

lemma compact_eq : rs.compact = (rs.filter Rec.live).map Rec.fresh := by
  have hs := saved_of_good h.good
  rw [compact_of_pairwise (by rw [hs]; exact h.pairwise_filter),hs]

lemma compact : rs.compact.Sound := by
  rw [h.compact_eq]
  constructor
  · intro x hx _
    obtain ⟨r,-,-,rfl⟩ := mem_filter_fresh hx
    exact r.good_fresh
  · refine pairwise_map.mpr (h.pairwise_filter.imp_of_mem ?_)
    intro r x hr _ hrx _
    rw [Rec.matches_fresh (mem_filter.mp hr).2,Rec.var_fresh]
    exact hrx

lemma value_compact : rs.compact.value = rs.value := by
  rw [h.compact_eq,value_filter_fresh]

lemma own_compact (hown : rs.Own nm) : rs.compact.Own nm := by
  intro x hx hm
  rw [h.compact_eq] at hx
  obtain ⟨r,hr,hl,rfl⟩ := mem_filter_fresh hx
  rw [Rec.matches_fresh hl] at hm
  rw [Rec.var_fresh]
  exact hown r hr hm

lemma writable_compact (hw : rs.Writable nm) : rs.compact.Writable nm := by
  intro x hx hm
  rw [h.compact_eq] at hx
  obtain ⟨r,hr,hl,rfl⟩ := mem_filter_fresh hx
  rw [Rec.matches_fresh hl] at hm
  rw [Rec.perm_fresh,hw r hr hm,Bool.and_false]

lemma settled : rs.Settled := by
  intro r hr hl
  obtain ⟨a,b,hf⟩ := h.find_self hr hl
  rw [Log.plan,hf]
  simp only [h.good r hr hl,if_true,true_or]

end

lemma defragWith {s s' : LogState cfg} {depth : ℕ} {st : Status} (h : s.log.Sound)
    (hs : s.log.off ≤ cfg.size) (hd : s.defragWith (LogState.setenv depth) = some (st,s')) :
    (st = .success ∧ s'.log = s.log.compact) ∨ (st = .erescrunch ∧ s'.log = s.log) :=
  h.settled.defragWith h.good hs hd

end Log.Sound

section Setting

variable {s s' : LogState cfg} {e : Setting cfg}

/-- Setting a variable keeps a log sound and changes that variable only, if the call says it was
successful. -/
structure SetSpec (s : LogState cfg) (e : Setting cfg) (st : Status) (s' : LogState cfg) :
    Prop where
  sound : s'.log.Sound
  value : s'.log.value =
    if st = .success then
      update s.log.value (Var.ofName cfg.table e.name) (some e.value)
    else s.log.value
  perm : (∀ r ∈ s.log, r.live = true → r.perm = false) → e.perm = false →
    ∀ r ∈ s'.log, r.live = true → r.perm = false

variable {st : Status}

lemma SetSpec.unchanged (h : s.log.Sound) (hst : st ≠ .success) (hlog : s'.log = s.log) :
    SetSpec s e st s' where
  sound := hlog.symm ▸ h
  value := by rw [hlog,if_neg hst]
  perm hp _ := hlog.symm ▸ hp

lemma SetSpec.append (rs : Log cfg.table) (h : rs.Sound)
    (hrs : ∀ x ∈ rs, x.matches cfg e.name = false)
    (hvalue : update rs.value (Var.ofName cfg.table e.name) (some e.value) =
      update s.log.value (Var.ofName cfg.table e.name) (some e.value))
    (hperm : (∀ r ∈ s.log, r.live = true → r.perm = false) →
      ∀ r ∈ rs, r.live = true → r.perm = false)
    (hlog : s'.log = rs ++ [e.toRec]) : SetSpec s e .success s' where
  sound := hlog ▸ h.append e.name (good_newRec e.cells_le) rfl hrs
  value := by rw [hlog,value_append_singleton rfl rfl hrs,if_pos rfl,← hvalue]; rfl
  perm hp he x hx hl := by
    rw [hlog] at hx
    obtain hx | hx := mem_append.mp hx
    · exact hperm hp x hx hl
    · rw [mem_singleton.mp hx]
      exact (congrArg (cfg.permanentVariables && ·) he).trans (Bool.and_false _)

lemma SetSpec.compacted {s1 : LogState cfg} (h : s.log.Sound) (hlog : s1.log = s.log.compact)
    (h1 : SetSpec s1 e st s') : SetSpec s e st s' where
  sound := h1.sound
  value := by rw [h1.value,hlog,h.value_compact]
  perm hp := by
    refine h1.perm fun x hx _ => ?_
    rw [hlog,h.compact_eq] at hx
    obtain ⟨r,hr,hl,rfl⟩ := mem_filter_fresh hx
    rw [Rec.perm_fresh,hp r hr hl,Bool.and_false]

lemma Log.Sound.setenv {depth : ℕ} (h : s.log.Sound) (hs : s.log.off ≤ cfg.size)
    (hown : s.log.Own e.name) (hw : s.log.Writable e.name) (hset : s.setenv depth e = some (st,s'))
    : SetSpec s e st s' := by
  induction depth generalizing s with
  | zero => cases hset
  | succ depth ih =>
    have hfull (hd : (s.defragWith (LogState.setenv depth)).bind (fun p =>
        if p.1 = .success then LogState.setenv depth p.2 e else some (.erescrunch,p.2)) =
          some (st,s')) : SetSpec s e st s' := by
      obtain ⟨⟨st1,s1⟩,hd,hrest⟩ := bind_eq_some_iff.mp hd
      obtain ⟨rfl,hlog⟩ | ⟨rfl,hlog⟩ := h.defragWith hs hd
      · exact .compacted h hlog (ih (hlog ▸ h.compact) (hlog ▸ off_compact_le hs)
          (hlog ▸ h.own_compact hown) (hlog ▸ h.writable_compact hw) hrest)
      · obtain ⟨rfl,rfl⟩ := mk.inj (some.inj hrest)
        exact .unchanged h (by simp) hlog
    obtain ⟨p,hp,hplan⟩ := setenv_planCase h.good e depth
    rw [hplan] at hset
    cases hp with
    | @answer a b r hf hr =>
      obtain ⟨rfl,rfl⟩ := mk.inj (some.inj hset)
      obtain ⟨hlog,hm,-⟩ := splitFirst_eq_some_iff.mp hf
      have hmem : r ∈ s.log := hlog ▸ mem_append_right _ mem_cons_self
      have hval : r.value = e.value := by simpa [hw r hmem hm] using hr
      have hsame := h.value_of_find hown hf
      rw [hval] at hsame
      refine ⟨h,?_,fun hp _ => hp⟩
      rw [if_pos rfl]
      exact (update_eq_self_iff.mpr hsame.symm).symm
    | append hf hfit =>
      obtain ⟨rfl,rfl⟩ := mk.inj (some.inj hset)
      exact .append s.log h (splitFirst_eq_none_iff.mp hf) rfl id rfl
    | @replace a b r hf hv hp hfit =>
      obtain ⟨rfl,rfl⟩ := mk.inj (some.inj hset)
      obtain ⟨hlog,hm,ha⟩ := splitFirst_eq_some_iff.mp hf
      have hmem : r ∈ s.log := hlog ▸ mem_append_right _ mem_cons_self
      have hsound : Log.Sound (a ++ r :: b) := hlog ▸ h
      refine .append (a ++ r.kill :: b) hsound.kill
        (hsound.kill_matches (hlog ▸ hown) hm ha) ?_ (fun hp x hx hlx => ?_)
        (by simp [LogState.put])
      · rw [hsound.value_kill (Rec.matches_live hm),hown r hmem hm,update_idem,hlog]
      · exact hp x (hlog ▸ mem_of_mem_kill hx hlx) hlx
    | giveUp hf hfit hgarbage =>
      obtain ⟨rfl,rfl⟩ := mk.inj (some.inj hset)
      exact .unchanged h nofun rfl
    | compact hstuck => exact hfull hset

structure UnsetSpec (s : LogState cfg) (nm : CStr) (st : Status) (s' : LogState cfg) : Prop where
  sound : s'.log.Sound
  value : s'.log.value =
    if st = .success then update s.log.value (Var.ofName cfg.table nm) none
    else s.log.value
  perm : (∀ r ∈ s.log, r.live = true → r.perm = false) →
    ∀ r ∈ s'.log, r.live = true → r.perm = false

lemma Log.Sound.unset (h : s.log.Sound) (hown : s.log.Own nm) :
    UnsetSpec s nm (s.unset nm).1 (s.unset nm).2 := by
  have hfail : UnsetSpec s nm .efailure s := ⟨h,rfl,id⟩
  rw [LogState.unset]
  split
  · exact hfail
  cases hf : s.log.find cfg nm with
  | none => exact hfail
  | some x =>
    obtain ⟨a,r,b⟩ := x
    obtain ⟨hlog,hr,ha⟩ := splitFirst_eq_some_iff.mp hf
    have hmem : r ∈ s.log := hlog ▸ mem_append_right _ mem_cons_self
    have hsound : Log.Sound (a ++ r :: b) := hlog ▸ h
    dsimp only
    split
    · exact hfail
    · refine ⟨hsound.kill,?_,fun hp x hx hlx => hp x (hlog ▸ mem_of_mem_kill hx hlx) hlx⟩
      rw [if_pos rfl,hsound.value_kill (Rec.matches_live hr),hown r hmem hr,hlog]

end Setting

end DslG624t.Env
