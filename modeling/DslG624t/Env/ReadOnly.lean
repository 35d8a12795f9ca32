import DslG624t.Env.Sound

/-!
# The read-only variables

`sys_setenv` of the kernel and `sys_unsetenv` refuse four names.
-/

namespace DslG624t.Env

open CString List SplitFirst

variable {cfg : EnvConfig}

/-- A property of logs that is kept where a setting with `A` writes its record. -/
structure Writes (P : Log cfg.table → Prop) (A : Setting cfg → Prop) : Prop where
  good : ∀ {rs}, P rs → rs.Good
  append : ∀ {rs e}, P rs → A e → rs.find cfg e.name = none → P (rs ++ [e.toRec])
  replace : ∀ {a r b e}, P (a ++ r :: b) → A e → r.matches cfg e.name = true →
    r.value ≠ e.value → P (a ++ r.kill :: (b ++ [e.toRec]))

section Writes

variable {P : Log cfg.table → Prop} {A : Setting cfg → Prop} {depth : ℕ} {st : Status}
  {rs saved : Log cfg.table} {s s' : LogState cfg}

lemma Writes.add (h : Writes P A) (hP : P rs) {r : Rec cfg.table} (hA : A (.ofRec r)) :
    P (rs.add r) := by
  rw [Log.add]
  cases hf : rs.find cfg r.var.name with
  | none => exact h.append hP hA hf
  | some x =>
    obtain ⟨a,x,b⟩ := x
    obtain ⟨rfl,hm,-⟩ := splitFirst_eq_some_iff.mp hf
    have hmem : x ∈ a ++ x :: b := mem_append_right a mem_cons_self
    simp only [h.good hP x hmem (Rec.matches_live hm),if_true]
    split
    · exact hP
    · next hv => exact h.replace hP hA hm fun heq => hv (.inl heq)

lemma Writes.foldl_add (h : Writes P A) (hP : P rs) (hA : ∀ r ∈ saved, A (.ofRec r)) :
    P (saved.foldl Log.add rs) := by
  induction saved generalizing rs with
  | nil => exact hP
  | cons r saved ih =>
    obtain ⟨hr,hA⟩ := forall_mem_cons.mp hA
    exact ih (h.add hP hr) hA

lemma off_setenv {e : Setting cfg} (hs : s.log.off ≤ cfg.size)
    (hset : s.setenv depth e = some (st,s')) :
    s'.log.off ≤ cfg.size :=
  ((setenv_refines (le_refl cfg.size) [] depth s e hs).eq_bytes hset).2

/-- What a call at some depth keeps. -/
def KeepsLog (P : Log cfg.table → Prop) (A : Setting cfg → Prop)
    (g : LogState cfg → Setting cfg → Option (Status × LogState cfg)) : Prop :=
  ∀ ⦃s e st s'⦄, s.log.off ≤ cfg.size → P s.log → A e → g s e = some (st,s') →
    s'.log.off ≤ cfg.size ∧ P s'.log

lemma KeepsLog.restore {g : LogState cfg → Setting cfg → Option (Status × LogState cfg)}
    (hg : KeepsLog P A g) (hs : s.log.off ≤ cfg.size) (hP : P s.log)
    (hA : ∀ r ∈ saved, A (.ofRec r)) (hr : LogState.restore g saved s = some s') :
    s'.log.off ≤ cfg.size ∧ P s'.log := by
  induction saved generalizing s with
  | nil =>
    cases hr
    exact ⟨hs,hP⟩
  | cons r saved ih =>
    obtain ⟨hA1,hA⟩ := forall_mem_cons.mp hA
    obtain ⟨⟨st,s1⟩,h1,hr⟩ := Option.bind_eq_some_iff.mp hr
    obtain ⟨hs1,hP1⟩ := hg hs hP hA1 h1
    exact ih hs1 hP1 hA hr

/-- The records of a log may be set again, and compacting it keeps the property. -/
structure Compacts (P : Log cfg.table → Prop) (A : Setting cfg → Prop) : Prop
    extends Writes P A where
  compact : ∀ {rs}, P rs → P rs.compact
  again : ∀ {rs r}, P rs → r ∈ rs → r.live = true → A (.ofRec r)

lemma Compacts.defragWith (h : Compacts P A) (hg : KeepsLog P A (LogState.setenv depth))
    (hs : s.log.off ≤ cfg.size) (hP : P s.log)
    (hd : s.defragWith (LogState.setenv depth) = some (st,s')) :
    s'.log.off ≤ cfg.size ∧ P s'.log := by
  obtain ⟨st',saved,rs,allocs,hp,heq⟩ := defragWith_prepared (not_wild_of_defragWith hd)
  rw [heq] at hd
  obtain ⟨t,hr,ht⟩ := Option.map_eq_some_iff.mp hd
  cases ht
  cases hp with
  | success =>
    rw [restore_saved_eq _ hs hr]
    exact ⟨off_compact_le hs,h.compact hP⟩
  | giveUp =>
    cases hr
    exact ⟨hs,hP⟩
  | abort al =>
    obtain ⟨hlog,hmem⟩ := save_of_good (h.good hP) al
    rw [hlog] at hr
    refine hg.restore (s := ⟨s.log,allocs⟩) hs hP (fun r hr' => ?_) hr
    exact h.again hP (hmem r hr').1 (hmem r hr').2

lemma Compacts.setenv (h : Compacts P A) (depth : ℕ) : KeepsLog P A (LogState.setenv depth) := by
  induction depth with
  | zero =>
    intro s e st s' _ _ _ hset
    cases hset
  | succ depth ih =>
    intro s e st s' hs hP hA hset
    refine ⟨off_setenv hs hset,?_⟩
    obtain ⟨p,hp,hplan⟩ := setenv_planCase (h.good hP) e depth
    rw [hplan] at hset
    cases hp with
    | answer hf hr =>
      cases hset
      exact hP
    | append hf hfit =>
      cases hset
      exact h.append hP hA hf
    | @replace a b r hf hv hp hfit =>
      cases hset
      obtain ⟨hlog,hm,-⟩ := splitFirst_eq_some_iff.mp hf
      exact h.replace (hlog ▸ hP) hA hm hv
    | giveUp hf hfit hgarbage =>
      cases hset
      exact hP
    | compact hstuck =>
      obtain ⟨⟨st1,s1⟩,hd,hrest⟩ := Option.bind_eq_some_iff.mp hset
      obtain ⟨hs1,hP1⟩ := h.defragWith ih hs hP hd
      dsimp only at hrest
      split at hrest
      · exact (ih hs1 hP1 hA hrest).2
      · cases hrest
        exact hP1

end Writes

def Log.valuesOf {T : EnvTable} (v : Var T) (rs : Log T) : List CStr :=
  (rs.filter fun r => r.live && decide (r.var = v)).map Rec.value

section valuesOf

variable {v : Var cfg.table} {a b rs : Log cfg.table} {r : Rec cfg.table} {e : Setting cfg}
  {nm : CStr}

lemma valuesOf_append (a b : Log cfg.table) (v : Var cfg.table) :
    Log.valuesOf v (a ++ b) = Log.valuesOf v a ++ Log.valuesOf v b := by
  rw [Log.valuesOf,filter_append,map_append]
  rfl

lemma valuesOf_cons_of_ne (rs : Log cfg.table) (h : r.live = true → r.var ≠ v) :
    Log.valuesOf v (r :: rs) = Log.valuesOf v rs := by
  rw [Log.valuesOf,filter_cons_of_neg (by simpa using h)]
  rfl

lemma valuesOf_cons_of_eq (rs : Log cfg.table) (hl : r.live = true) (hv : r.var = v) :
    Log.valuesOf v (r :: rs) = r.value :: Log.valuesOf v rs := by
  rw [Log.valuesOf,filter_cons_of_pos (by simp [hl,hv]),map_cons]
  rfl

lemma mem_valuesOf (hr : r ∈ rs) (hl : r.live = true) (hv : r.var = v) :
    r.value ∈ Log.valuesOf v rs :=
  mem_map_of_mem (mem_filter.mpr ⟨hr,by simp [hl,hv]⟩)

lemma valuesOf_eq_nil_iff : Log.valuesOf v rs = [] ↔ ∀ r ∈ rs, r.live = true → r.var ≠ v := by
  simp [Log.valuesOf,filter_eq_nil_iff]

lemma value_eq_head? (rs : Log cfg.table) (v : Var cfg.table) :
    rs.value v = (rs.valuesOf v).head? := by
  rw [Log.value,Log.valuesOf,head?_map,head?_filter]

lemma length_valuesOf_le (rs : Log cfg.table) (v : Var cfg.table) :
    (Log.valuesOf v rs).length ≤ rs.length := by
  rw [Log.valuesOf,length_map]
  exact length_filter_le _ _

lemma valuesOf_kill_cons (r : Rec cfg.table) (b : Log cfg.table) (v : Var cfg.table) :
    Log.valuesOf v (r.kill :: b) = Log.valuesOf v b := by
  refine valuesOf_cons_of_ne b fun hl => ?_
  cases hl

lemma valuesOf_kill (hv : r.var ≠ v) :
    Log.valuesOf v (a ++ r.kill :: b) = Log.valuesOf v (a ++ r :: b) := by
  rw [valuesOf_append,valuesOf_append,valuesOf_kill_cons,valuesOf_cons_of_ne b fun _ => hv]

lemma valuesOf_toRec (hv : Var.ofName cfg.table e.name ≠ v) :
    Log.valuesOf v (rs ++ [e.toRec]) = Log.valuesOf v rs := by
  rw [valuesOf_append,valuesOf_cons_of_ne [] fun _ => hv]
  exact append_nil _

lemma valuesOf_of_find_none (hf : rs.find cfg nm = none) (hv : Var.ofName cfg.table nm = v) :
    Log.valuesOf v rs = [] := by
  refine valuesOf_eq_nil_iff.mpr fun r hr hl hrv => ?_
  have hm := Rec.matches_of_var hl (hrv.trans hv.symm)
  rw [splitFirst_eq_none_iff.mp hf r hr] at hm
  cases hm

lemma var_of_matches (hm : r.matches cfg nm = true)
    (hpre : (Var.ofName cfg.table nm).isDyn = false) : r.var = Var.ofName cfg.table nm := by
  by_contra hv
  obtain ⟨hi,-,-⟩ := Rec.value_of_matches hm hv
  rw [ofName_of_index_eq_zero hi] at hpre
  cases hpre

end valuesOf

structure Log.Single (rs : Log cfg.table) : Prop where
  good : rs.Good
  length_le : ∀ v : Var cfg.table, v.isDyn = false → (rs.valuesOf v).length ≤ 1

lemma length_valuesOf_kill_le (a : Log cfg.table) (r : Rec cfg.table) (b : Log cfg.table)
    (v : Var cfg.table) :
    (Log.valuesOf v (a ++ r.kill :: b)).length ≤ (Log.valuesOf v (a ++ r :: b)).length := by
  rw [valuesOf_append,valuesOf_append,valuesOf_kill_cons,length_append,length_append]
  by_cases h : r.live = true ∧ r.var = v
  · rw [valuesOf_cons_of_eq b h.1 h.2,length_cons]
    omega
  · have hsame := valuesOf_cons_of_ne b fun hl hv => h ⟨hl,hv⟩
    exact le_of_eq (by rw [hsame])

lemma writes_single : Writes (Log.Single : Log cfg.table → Prop) fun _ => True where
  good h := h.good
  append {rs e} h _ hf := by
    refine ⟨h.good.append e,fun v hpre => ?_⟩
    by_cases hv : Var.ofName cfg.table e.name = v
    · rw [valuesOf_append,valuesOf_of_find_none hf hv,nil_append]
      exact length_valuesOf_le [e.toRec] v
    · rw [valuesOf_toRec hv]
      exact h.length_le v hpre
  replace {a r b e} h _ hm _ := by
    refine ⟨h.good.replace e,fun v hpre => ?_⟩
    have hle := h.length_le v hpre
    by_cases hv : Var.ofName cfg.table e.name = v
    · -- the record replaced was the one live record of the variable
      have hr : r.var = v := (var_of_matches hm (hv ▸ hpre)).trans hv
      have hnew := length_valuesOf_le [e.toRec] v
      rw [valuesOf_append,valuesOf_cons_of_eq b (Rec.matches_live hm) hr,length_append,
        length_cons] at hle
      rw [valuesOf_append,valuesOf_kill_cons,valuesOf_append,length_append,length_append]
      rw [length_singleton] at hnew
      omega
    have hkill := length_valuesOf_kill_le a r b v
    have happend : Log.valuesOf v ((a ++ r.kill :: b) ++ [e.toRec]) = _ := valuesOf_toRec hv
    rw [append_assoc,cons_append] at happend
    rw [happend]
    omega

lemma Log.single_nil : Log.Single ([] : Log cfg.table) :=
  ⟨Log.good_nil,fun _ _ => Nat.zero_le 1⟩

lemma compacts_single : Compacts (Log.Single : Log cfg.table → Prop) fun _ => True where
  toWrites := writes_single
  compact _ := writes_single.foldl_add Log.single_nil fun _ _ => trivial
  again _ _ _ := trivial

lemma Log.Single.kill {a b : Log cfg.table} {r : Rec cfg.table}
    (h : Log.Single (a ++ r :: b)) : Log.Single (a ++ r.kill :: b) :=
  ⟨h.good.kill,fun v hpre => le_trans (length_valuesOf_kill_le a r b v) (h.length_le v hpre)⟩

lemma LogStep.keeps {P : Log cfg.table → Prop} {A : Setting cfg → Prop} (h : Compacts P A)
    {s s' : LogState cfg} {c : Call} {ans : Answer} (hs : s.log.off ≤ cfg.size) (hP : P s.log)
    (hset : ∀ e : Setting cfg, c = .setenv (some e.name) (some e.value) →
      (!cfg.standalone && isReadOnlyVar e.name) = false → A e)
    (hunset : ∀ nm a r b, c = .unsetenv nm → isReadOnlyVar nm = false → s.log = a ++ r :: b →
      r.matches cfg nm = true → P (a ++ r.kill :: b))
    (hstep : LogStep s c ans s') : P s'.log := by
  cases hstep with
  | getenv nm => exact (get_snd_of_good (h.good hP) nm).symm ▸ hP
  | setenvNull _ => exact hP
  | setenvReadOnly _ _ _ => exact hP
  | @setenv e depth st s' hp hro hcall => exact (h.setenv depth hs hP (hset e rfl hro) hcall).2
  | unsetenv nm =>
    rw [LogState.unset]
    split
    · exact hP
    next hro =>
    cases hf : s.log.find cfg nm with
    | none => exact hP
    | some x =>
      obtain ⟨a,r,b⟩ := x
      obtain ⟨hlog,hm,-⟩ := splitFirst_eq_some_iff.mp hf
      dsimp only
      split
      · exact hP
      · exact hunset nm a r b rfl (by simpa using hro) hlog hm
  | @defragenv depth st s' hd => exact (h.defragWith (h.setenv depth) hs hP hd).2

lemma EnvReach.single {t : EnvState} (h : EnvReach cfg t) :
    ∃ (s : LogState cfg) (after : Bytes), t = s.bytes after ∧ s.log.off ≤ cfg.size ∧
      s.log.Single := by
  refine h.invariant (fun _ => Log.single_nil) fun hoff hstep hsingle => ?_
  refine hstep.keeps compacts_single hoff hsingle (fun _ _ _ => trivial) ?_
  intro nm a r b _ _ hlog _
  exact Log.Single.kill (hlog ▸ hsingle)

/-- The region holds the log, within its bounds and with the right checksums. -/
structure Holds (t : EnvState) (s : LogState cfg) (after : Bytes) : Prop where
  bytes : t = s.bytes after
  off_le : s.log.off ≤ cfg.size
  good : s.log.Good

lemma EnvReach.holds {t : EnvState} (h : EnvReach cfg t) :
    ∃ (s : LogState cfg) (after : Bytes), Holds t s after := by
  obtain ⟨s,after,hbytes,hoff,hsingle⟩ := h.single
  exact ⟨s,after,hbytes,hoff,hsingle.good⟩

/-- The live records of `v` have the values `vs`, and no live record is that of a dynamic variable
named `x`. -/
structure Log.Kept (v : Var cfg.table) (vs : List CStr) (x : Option CStr) (rs : Log cfg.table) :
    Prop where
  good : rs.Good
  values : rs.valuesOf v = vs
  free : ∀ r ∈ rs, r.live = true → r.var.isDyn = true → x ≠ some r.var.name

/-- A name that leads to other variables than `v`. -/
structure Avoids (v : Var cfg.table) (x : Option CStr) (nm : CStr) : Prop where
  ne : Var.ofName cfg.table nm ≠ v
  free : cfg.table.index nm = 0 → x ≠ some nm

section Kept

variable {v : Var cfg.table} {vs : List CStr} {x : Option CStr} {a b rs : Log cfg.table}
  {r : Rec cfg.table} {e : Setting cfg} {nm : CStr}

lemma Avoids.var_ne (h : Avoids v x nm) (hvs : ∀ y ∈ vs, x = some y) (hrs : rs.Kept v vs x)
    (hr : r ∈ rs) (hm : r.matches cfg nm = true) : r.var ≠ v := by
  intro hv
  obtain ⟨hi,-,hval⟩ := Rec.value_of_matches hm fun heq => h.ne (heq.symm.trans hv)
  have hmem := mem_valuesOf hr (Rec.matches_live hm) hv
  rw [hrs.values,hval] at hmem
  exact h.free hi (hvs nm hmem)

lemma Log.Kept.kill (h : Log.Kept v vs x (a ++ r :: b)) (hv : r.var ≠ v) :
    Log.Kept v vs x (a ++ r.kill :: b) where
  good := h.good.kill
  values := (valuesOf_kill hv).trans h.values
  free y hy hl := h.free y (mem_of_mem_kill hy hl) hl

lemma index_of_isDyn (hdyn : (Var.ofName cfg.table nm).isDyn = true) : cfg.table.index nm = 0 := by
  by_contra hi
  rw [ofName_of_index_ne_zero hi] at hdyn
  cases hdyn

lemma Log.Kept.append (h : rs.Kept v vs x) (he : Avoids v x e.name) :
    Log.Kept v vs x (rs ++ [e.toRec]) where
  good := h.good.append e
  values := (valuesOf_toRec he.ne).trans h.values
  free y hy hl hdyn := by
    obtain hy | hy := mem_append.mp hy
    · exact h.free y hy hl hdyn
    rw [mem_singleton.mp hy] at hdyn ⊢
    have hi : cfg.table.index e.name = 0 := index_of_isDyn hdyn
    have hname : e.toRec.var.name = e.name := name_ofName_of_index_eq_zero hi
    rw [hname]
    exact he.free hi

def Spares (v : Var cfg.table) (vs : List CStr) (x : Option CStr) (e : Setting cfg) : Prop :=
  (Var.ofName cfg.table e.name = v ∧ vs = [e.value]) ∨ Avoids v x e.name

lemma writes_kept (hpre : v.isDyn = false) (hvs : ∀ y ∈ vs, x = some y) :
    Writes (Log.Kept v vs x) (Spares v vs x) where
  good h := h.good
  append {rs e} h he hf := by
    obtain ⟨hv,heq⟩ | he := he
    · have hnil := valuesOf_of_find_none hf hv
      rw [h.values,heq] at hnil
      cases hnil
    · exact h.append he
  replace {a r b e} h he hm hne := by
    have hmem : r ∈ a ++ r :: b := mem_append_right a mem_cons_self
    obtain ⟨hv,heq⟩ | he := he
    · have hr : r.var = v := (var_of_matches hm (hv ▸ hpre)).trans hv
      have hval := mem_valuesOf hmem (Rec.matches_live hm) hr
      rw [h.values,heq,mem_singleton] at hval
      exact absurd hval hne
    · have hkept := (h.kill (he.var_ne hvs h hmem hm)).append he
      rwa [append_assoc,cons_append] at hkept

lemma Log.kept_nil : Log.Kept v [] x [] := ⟨Log.good_nil,rfl,nofun⟩

lemma Log.Kept.avoids (h : rs.Kept v vs x) (hr : r ∈ rs) (hl : r.live = true) (hv : r.var ≠ v) :
    Avoids v x r.var.name := by
  refine ⟨by rwa [Var.ofName_name],fun hi => h.free r hr hl ?_⟩
  rw [← Var.ofName_name r.var,ofName_of_index_eq_zero hi]
  rfl

lemma Log.Kept.add_self (h : rs.Kept v [] x) (hpre : v.isDyn = false) (hv : r.var = v) :
    Log.Kept v [r.value] x (rs.add r) := by
  have hname : Var.ofName cfg.table r.var.name = v := (Var.ofName_name r.var).trans hv
  have hnone : rs.find cfg r.var.name = none := by
    refine splitFirst_eq_none_iff.mpr fun y hy => ?_
    by_contra hm
    rw [Bool.not_eq_false] at hm
    have hyv : y.var = v := (var_of_matches hm (hname ▸ hpre)).trans hname
    exact valuesOf_eq_nil_iff.mp h.values y hy (Rec.matches_live hm) hyv
  have hadd : rs.add r = rs ++ [r.fresh] := by rw [Log.add,hnone]
  have hfresh : r.fresh.var = v := r.var_fresh.trans hv
  rw [hadd]
  refine ⟨h.good.append (.ofRec r),?_,fun y hy hl hdyn => ?_⟩
  · rw [valuesOf_append,h.values,valuesOf_cons_of_eq [] r.live_fresh hfresh]
    rfl
  · obtain hy | hy := mem_append.mp hy
    · exact h.free y hy hl hdyn
    · rw [mem_singleton.mp hy,hfresh,hpre] at hdyn
      cases hdyn

lemma valuesOf_filter_live (rs : Log cfg.table) (v : Var cfg.table) :
    Log.valuesOf v (rs.filter Rec.live) = Log.valuesOf v rs := by
  rw [Log.valuesOf,filter_filter,Log.valuesOf]
  congr 2
  funext r
  cases r.live <;> simp

lemma Log.Kept.compact (hpre : v.isDyn = false) (hvs : ∀ y ∈ vs, x = some y)
    (hlen : vs.length ≤ 1) (h : rs.Kept v vs x) : rs.compact.Kept v vs x := by
  have hsaved := saved_of_good h.good
  have hvalues : Log.valuesOf v (Log.saved false rs) = vs := by
    rw [hsaved,valuesOf_filter_live,h.values]
  have havoids : ∀ r ∈ Log.saved false rs, r.var ≠ v → Avoids v x (Setting.ofRec r).name :=
    fun r hr => h.avoids (mem_saved hr).1 (mem_saved hr).2.1
  have hlive : ∀ r ∈ Log.saved false rs, r.live = true := fun r hr => (mem_saved hr).2.1
  rw [Log.compact]
  generalize Log.saved false rs = saved at hvalues havoids hlive
  by_cases hex : ∃ r ∈ saved, r.var = v
  · obtain ⟨r,hr,hrv⟩ := hex
    obtain ⟨a,b,rfl⟩ := append_of_mem hr
    -- no other record of the variable was saved
    rw [valuesOf_append,valuesOf_cons_of_eq b (hlive r hr) hrv] at hvalues
    have hnil : Log.valuesOf v a = [] ∧ Log.valuesOf v b = [] := by
      rw [← hvalues,length_append,length_cons] at hlen
      exact ⟨length_eq_zero_iff.mp (by omega),length_eq_zero_iff.mp (by omega)⟩
    have hvs' : vs = [r.value] := by rw [← hvalues,hnil.1,hnil.2]; rfl
    subst hvs'
    rw [foldl_append,foldl_cons]
    have ha : Log.Kept v [] x (a.foldl Log.add []) := by
      refine (writes_kept hpre (by simp)).foldl_add Log.kept_nil fun y hy => .inr ?_
      have hy' := mem_append_left (r :: b) hy
      exact havoids y hy' (valuesOf_eq_nil_iff.mp hnil.1 y hy (hlive y hy'))
    refine (writes_kept hpre hvs).foldl_add (ha.add_self hpre hrv) fun y hy => .inr ?_
    have hy' := mem_append_right a (mem_cons_of_mem r hy)
    exact havoids y hy' (valuesOf_eq_nil_iff.mp hnil.2 y hy (hlive y hy'))
  have hne : ∀ r ∈ saved, r.var ≠ v := fun r hr hrv => hex ⟨r,hr,hrv⟩
  obtain rfl : vs = [] := by
    rw [← hvalues]
    exact valuesOf_eq_nil_iff.mpr fun r hr _ => hne r hr
  exact (writes_kept hpre hvs).foldl_add Log.kept_nil fun r hr => .inr (havoids r hr (hne r hr))

lemma compacts_kept (hpre : v.isDyn = false) (hvs : ∀ y ∈ vs, x = some y)
    (hlen : vs.length ≤ 1) : Compacts (Log.Kept v vs x) (Spares v vs x) where
  toWrites := writes_kept hpre hvs
  compact h := h.compact hpre hvs hlen
  again {rs r} h hr hl := by
    by_cases hv : r.var = v
    · left
      refine ⟨(Var.ofName_name r.var).trans hv,?_⟩
      have hmem := mem_valuesOf hr hl hv
      rw [h.values] at hmem
      obtain ⟨y,rfl⟩ := length_eq_one_iff.mp
        (le_antisymm hlen (length_pos_of_mem hmem))
      rw [← mem_singleton.mp hmem]
      rfl
    · exact .inr (h.avoids hr hl hv)

end Kept

def EnvConfig.boot (cfg : EnvConfig) : EnvConfig := { cfg with standalone := true }

def Call.changes : Call → Option CStr
  | .setenv (some nm) (some _) => some nm
  | .unsetenv nm => some nm
  | _ => none

/-- A call that is refused, or names a variable that is not read-only and is not named like the
value of one that is. -/
def Call.Guarded (cfg : EnvConfig) (s : EnvState) (c : Call) : Prop :=
  ∀ nm ∈ c.changes, isReadOnlyVar nm = false → ∀ ro : CStr, isReadOnlyVar ro = true →
    cfg.table.index nm ≠ cfg.table.index ro ∧
      (cfg.table.index nm = 0 → ¬ Reads cfg s ro (some nm))

/-- The states reached from `s₀` by such calls, with records whose cells can be counted. -/
inductive KernelRun (cfg : EnvConfig) (s₀ : EnvState) : EnvState → Prop where
  | start : KernelRun cfg s₀ s₀
  | call {s t : EnvState} {c : Call} {ans : Answer} (hs : KernelRun cfg s₀ s)
    (hc : c.Counted cfg) (hg : c.Guarded cfg s)
    (h : Returns (fun fuel depth => c.run fuel depth cfg s) (ans,t)) : KernelRun cfg s₀ t

/-- No variable is named like the value of a read-only one. -/
def Unshadowed (cfg : EnvConfig) (s : EnvState) : Prop :=
  ∀ ro x : CStr, isReadOnlyVar ro = true → Reads cfg s ro (some x) → cfg.table.index x = 0 →
    ∀ i, ¬ Returns (fun fuel _ => sysGetivar fuel cfg s.mem i) (some x.1,s.mem)

def EnvTable.HasReadOnly (T : EnvTable) : Prop :=
  ∀ ro : CStr, isReadOnlyVar ro = true → T.index ro ≠ 0

section Run

variable {s : LogState cfg} {v : Var cfg.table} {o : Option CStr} {after : Bytes} {nm : CStr}
  {ro : CStr}

lemma Log.Good.reads_iff (h : s.log.Good) (hs : s.log.off ≤ cfg.size) (hpre : v.isDyn = false)
    (hv : Var.ofName cfg.table nm = v) {w : Option CStr} :
    Reads cfg (s.bytes after) nm w ↔ s.log.value v = w := by
  have hown : s.log.Own nm := fun r _ hm => var_of_matches hm (hv ▸ hpre)
  rw [Env.reads_iff hs,h.get hown,hv]

lemma Log.Kept.value (h : s.log.Kept v o.toList o) : s.log.value v = o := by
  rw [value_eq_head?,h.values]
  cases o <;> rfl

lemma isDyn_ofName (h : cfg.table.index nm ≠ 0) : (Var.ofName cfg.table nm).isDyn = false := by
  rw [ofName_of_index_ne_zero h]
  rfl

lemma Log.Kept.step (hk : cfg.standalone = false)
    (h : s.log.Kept (Var.ofName cfg.table ro) o.toList o) (hs : s.log.off ≤ cfg.size)
    (hro : isReadOnlyVar ro = true) (hpre : cfg.table.index ro ≠ 0) {c : Call}
    (hg : c.Guarded cfg (s.bytes after)) {ans : Answer} {s' : LogState cfg}
    (hstep : LogStep s c ans s') : s'.log.Kept (Var.ofName cfg.table ro) o.toList o := by
  have hdyn := isDyn_ofName hpre
  have hvs : ∀ y ∈ o.toList, o = some y := by simp
  have havoids {nm : CStr} (hc : nm ∈ c.changes) (hnm : isReadOnlyVar nm = false) :
      Avoids (Var.ofName cfg.table ro) o nm := by
    obtain ⟨hne,hvalue⟩ := hg nm hc hnm ro hro
    refine ⟨fun heq => hne ?_,fun hi hx => hvalue hi ?_⟩
    · rw [← Var.num_ofName,heq,Var.num_ofName]
    · exact (h.good.reads_iff hs hdyn rfl).mpr (h.value.trans hx)
  refine hstep.keeps (compacts_kept hdyn hvs (by cases o <;> simp)) hs h ?_ ?_
  · intro e hc hro'
    rw [hk] at hro'
    exact .inr (havoids (hc ▸ rfl) hro')
  · intro nm a r b hc hnm hlog hm
    have hkept : Log.Kept (Var.ofName cfg.table ro) o.toList o (a ++ r :: b) := hlog ▸ h
    exact hkept.kill ((havoids (hc ▸ rfl) hnm).var_ne hvs hkept
      (mem_append_right a mem_cons_self) hm)

lemma KernelRun.kept {t : EnvState} (hk : cfg.standalone = false)
    (h : s.log.Kept (Var.ofName cfg.table ro) o.toList o) (hs : s.log.off ≤ cfg.size)
    (hro : isReadOnlyVar ro = true) (hpre : cfg.table.index ro ≠ 0)
    (hrun : KernelRun cfg (s.bytes after) t) :
    ∃ s' : LogState cfg, t = s'.bytes after ∧ s'.log.off ≤ cfg.size ∧
      s'.log.Kept (Var.ofName cfg.table ro) o.toList o := by
  induction hrun with
  | start => exact ⟨s,rfl,hs,h⟩
  | call _ hc hg hret ih =>
    obtain ⟨s1,rfl,hs1,h1⟩ := ih
    obtain ⟨fuel,depth,hfuel,hcall⟩ := hret.exists_fuel cfg.size
    obtain ⟨s',rfl,hs',hstep⟩ := Call.run_bytes hc hfuel hs1 hcall
    exact ⟨s',rfl,hs',h1.step hk hs1 hro hpre hg hstep⟩

lemma Log.Single.kept (h : s.log.Single) (hs : s.log.off ≤ cfg.size)
    (hro : isReadOnlyVar ro = true) (hpre : cfg.table.index ro ≠ 0)
    (hfree : Unshadowed cfg (s.bytes after)) :
    s.log.Kept (Var.ofName cfg.table ro) (s.log.value (Var.ofName cfg.table ro)).toList
      (s.log.value (Var.ofName cfg.table ro)) := by
  have hdyn := isDyn_ofName hpre
  refine ⟨h.good,?_,fun r hr hl hrdyn hx => ?_⟩
  · have hle := h.length_le _ hdyn
    rw [value_eq_head?]
    generalize s.log.valuesOf _ = vs at hle
    match vs, hle with
    | [], _ => rfl
    | [_], _ => rfl
  -- the dynamic variable would be listed under the value
  obtain ⟨a,b,hlog⟩ := append_of_mem hr
  have hi : cfg.table.index r.var.name = 0 := index_of_isDyn (by rwa [Var.ofName_name])
  refine hfree ro r.var.name hro ((h.good.reads_iff hs hdyn rfl).mpr hx) hi (Log.liveCount a) ?_
  refine ⟨cfg.size,fun fuel hfuel _ _ => ?_⟩
  have hmem : (s.bytes after).mem = image cfg s.log after := rfl
  rw [hmem,image,hlog]
  exact sysGetivar_found a r b _ (hlog ▸ hs) hfuel hl (h.good r hr hl)

end Run

theorem readOnly_kept (hk : cfg.standalone = false) (htable : cfg.table.HasReadOnly)
    {s₀ s : EnvState} (h₀ : EnvReach cfg.boot s₀) (hfree : Unshadowed cfg s₀)
    (hrun : KernelRun cfg s₀ s) {ro nm : CStr} (hro : isReadOnlyVar ro = true)
    (hnm : cfg.table.index nm = cfg.table.index ro) :
    ∃ w, Reads cfg s₀ nm w ∧ Reads cfg s nm w := by
  have hpre := htable ro hro
  have hdyn := isDyn_ofName hpre
  have hvar : Var.ofName cfg.table nm = Var.ofName cfg.table ro := by
    rw [ofName_of_index_ne_zero hpre,ofName_of_index_ne_zero (hnm.trans_ne hpre)]
    simp only [hnm]
  obtain ⟨t,after,rfl,hoff,hsingle⟩ := h₀.single
  -- the log of the boot loader as one of the kernel
  let s₁ : LogState cfg := ⟨t.log,t.allocs⟩
  have hsingle₁ : s₁.log.Single := ⟨hsingle.good,hsingle.length_le⟩
  have hkept := hsingle₁.kept hoff hro hpre hfree
  obtain ⟨s₂,rfl,hoff₂,hkept₂⟩ := KernelRun.kept hk hkept hoff hro hpre hrun
  refine ⟨s₁.log.value (Var.ofName cfg.table ro),?_,?_⟩
  · exact (hsingle₁.good.reads_iff hoff hdyn hvar).mpr rfl
  · exact (hkept₂.good.reads_iff hoff₂ hdyn hvar).mpr hkept₂.value

lemma readOnly_cases {ro : CStr} (h : isReadOnlyVar ro = true) : ro = lit "CPUFREQ" ∨
    ro = lit "SYSFREQ" ∨ ro = lit "BUILD_OPS" ∨ ro = lit "MIPSFREQ" := by
  have heq (nm : CStr) : strcmp nm.1 ro = 0 → ro = nm := by
    rw [strcmp_eq_zero_iff,cstr_eq_self nm.2,cstr_eq_self ro.2]
    exact fun hval => Subtype.ext hval.symm
  simp only [isReadOnlyVar,Bool.or_eq_true,decide_eq_true_eq,or_assoc] at h
  exact h.imp (heq (lit "CPUFREQ")) (.imp (heq (lit "SYSFREQ"))
    (.imp (heq (lit "BUILD_OPS")) (heq (lit "MIPSFREQ"))))

lemma hasReadOnly_ar7 : ar7Config.table.HasReadOnly := by
  intro ro hro
  obtain rfl | rfl | rfl | rfl := readOnly_cases hro <;> decide

def cpuFreq : Setting ar7Config := ⟨lit "CPUFREQ",lit "1" nulFree_one,false,by decide⟩

def booted : LogState ar7Config := ⟨[cpuFreq.toRec],[]⟩

lemma off_booted : booted.log.off ≤ ar7Config.size := by decide

lemma reach_booted : EnvReach ar7Config.boot (booted.bytes []) := by
  let e : Setting ar7Config.boot := ⟨lit "CPUFREQ",lit "1",false,by decide⟩
  have hset := returns_setenv (s := ⟨[],[]⟩) (e := e) (off_nil_le ar7Config.boot) rfl (by decide)
    (LogState.setenv_append rfl (by decide)) []
  have hcells : Call.Counted ar7Config.boot (.setenv (some e.name) (some e.value)) := e.cells_le
  have hformat : formatEnvBlock ar7Config.boot ⟨[],[]⟩ = (.success,_) := formatEnvBlock_ar7
  exact .call (.format hformat) hcells hset

lemma unshadowed_booted : Unshadowed ar7Config (booted.bytes []) := by
  rintro ro x - - hx i ⟨k,hk⟩
  have hfuel : ar7Config.size ≤ max k ar7Config.size := le_max_right ..
  have hcall : sysGetivar (max k ar7Config.size) ar7Config (image ar7Config booted.log []) i =
      some (some x.1,image ar7Config booted.log []) :=
    hk _ (le_max_left ..) k (le_refl k)
  cases i with
  | zero =>
    have hname : sysGetivar (max k ar7Config.size) ar7Config (image ar7Config booted.log []) 0 =
        some (some (ofString "CPUFREQ"),image ar7Config booted.log []) :=
      sysGetivar_found [] cpuFreq.toRec [] _ off_booted hfuel rfl (by decide)
    have heq := congrArg Prod.fst (Option.some.inj (hcall.symm.trans hname))
    rw [Option.some.inj heq] at hx
    exact absurd hx (by decide)
  | succ i =>
    have hend := getEnvBlockByNumber_end (logEnd_image off_booted []) hfuel
      (show booted.log.liveCount ≤ i+1 from Nat.le_add_left 1 i)
    rw [sysGetivar,image,hend] at hcall
    cases hcall

/-- The boot loader sets `CPUFREQ`, and the kernel another variable. -/
theorem readOnly_kept_prompt : ∃ s₀ s, EnvReach ar7Config.boot s₀ ∧
    Reads ar7Config s₀ (lit "CPUFREQ") (some (lit "1")) ∧ KernelRun ar7Config s₀ s ∧
    Reads ar7Config s (lit "cpufrequency") (some (lit "1")) := by
  let e : Setting ar7Config := ⟨lit "PROMPT",lit "x",false,by decide⟩
  have hset := returns_setenv (s := booted) (e := e) off_booted rfl (by decide)
    (LogState.setenv_append (by decide) (by decide)) []
  have hcells : Call.Counted ar7Config (.setenv (some e.name) (some e.value)) := e.cells_le
  have hguarded : Call.Guarded ar7Config (booted.bytes [])
      (.setenv (some e.name) (some e.value)) := by
    rintro nm ⟨⟩-ro hro
    refine ⟨?_,fun hi => absurd hi (by decide)⟩
    obtain rfl | rfl | rfl | rfl := readOnly_cases hro <;> decide
  have hrun : KernelRun ar7Config (booted.bytes []) _ := .call .start hcells hguarded hset
  obtain ⟨w,hw₀,hw⟩ := readOnly_kept rfl hasReadOnly_ar7 reach_booted unshadowed_booted hrun
    (show isReadOnlyVar (lit "CPUFREQ") = true by decide)
    (show ar7Config.table.index (lit "cpufrequency") = _ by decide)
  obtain rfl : w = some (lit "1") := hw₀.unique ((reads_iff off_booted).mpr (by decide))
  exact ⟨_,_,reach_booted,(reads_iff off_booted).mpr (by decide),hrun,hw⟩

/-- The kernel changes `CPUFREQ` under its alias, and loses it under the name that is its value. -/
theorem readOnly_kept_fails_alias : ∃ s t u, EnvReach ar7Config.boot s ∧
    Reads ar7Config s (lit "CPUFREQ") (some (lit "1")) ∧
    Answers ar7Config s (.setenv (some (lit "cpufrequency")) (some (lit "2")))
      (.status .success,t) ∧
    Reads ar7Config t (lit "CPUFREQ") (some (lit "2")) ∧
    Answers ar7Config s (.unsetenv (lit "1")) (.status .success,u) ∧
    Reads ar7Config u (lit "CPUFREQ") none := by
  let e : Setting ar7Config := ⟨lit "cpufrequency",lit "2",false,by decide⟩
  have hset := returns_setenv (s := booted) (e := e) off_booted rfl (by decide)
    (LogState.setenv_replace (a := []) (b := []) (r := cpuFreq.toRec) (by decide) (by decide)
      (by decide) rfl (by decide)) []
  have hunset := returns_unsetenv off_booted [] (lit "1")
  have hfind : booted.log.find ar7Config (lit "1") = some ([],cpuFreq.toRec,[]) := by decide
  have hkill : booted.unset (lit "1") = (.success,⟨[cpuFreq.toRec.kill],[]⟩) := by
    rw [LogState.unset,if_neg (by decide),hfind]
    rfl
  rw [hkill] at hunset
  refine ⟨_,_,_,reach_booted,(reads_iff off_booted).mpr (by decide),hset,
    (reads_iff ?_).mpr ?_,hunset,(reads_iff ?_).mpr ?_⟩ <;> decide

/-- No record is ever found bad, so reading does not write. -/
theorem sysGetenv_keeps {t : EnvState} (h : EnvReach cfg t) (nm : CStr) :
    ∃ v, ∀ fuel ≥ cfg.size, sysGetenv fuel cfg t.mem nm = some (v,t.mem) := by
  obtain ⟨s,after,rfl,hoff,hsingle⟩ := h.single
  refine ⟨(s.log.get cfg nm).1.map Subtype.val,fun fuel hfuel => ?_⟩
  have hget := sysGetenv_image hfuel hoff after nm
  rwa [get_snd_of_good hsingle.good] at hget

theorem sysGetenv_keeps_booted : ∃ t, EnvReach ar7Config.boot t ∧
    ∃ v, ∀ fuel ≥ ar7Config.size, sysGetenv fuel ar7Config.boot t.mem (lit "1") = some (v,t.mem) :=
  ⟨_,reach_booted,sysGetenv_keeps reach_booted _⟩

end DslG624t.Env
