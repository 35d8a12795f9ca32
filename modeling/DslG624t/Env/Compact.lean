import DslG624t.Env.Calls

/-!
# Compacting a log

`sys_defragenv` on a log is a function of the log alone as long as its allocations succeed: the
records that the save loop comes to are set again one by one in an empty region.
-/

namespace DslG624t.Env

open CString List Option SplitFirst

variable {cfg : EnvConfig}

def Log.Good {T : EnvTable} (rs : Log T) : Prop := ∀ r ∈ rs, r.live = true → r.good = true

variable {s s' : LogState cfg} {st : Status}
  {g : LogState cfg → Setting cfg → Option (Status × LogState cfg)} {rs : Log cfg.table}
  {r x : Rec cfg.table}

lemma Log.good_nil {T : EnvTable} : Log.Good ([] : Log T) := nofun

def Log.saved {T : EnvTable} (skip : Bool) : Log T → Log T
  | [] => []
  | r :: rs =>
    if !r.live then Log.saved skip rs
    else if skip then Log.saved false rs
    else if r.good then r :: Log.saved false rs
    else Log.saved true rs

lemma save_saved (skip : Bool) (rs : Log cfg.table) (allocs : List Bool)
    (h : (Log.save skip rs allocs).1 = true) :
    (Log.save skip rs allocs).2.2.2 = Log.saved skip rs := by
  induction rs generalizing skip allocs with
  | nil => rfl
  | cons r rs ih =>
    simp only [Log.save,Log.saved] at h ⊢
    split at h
    · next hl =>
      rw [if_pos hl,if_pos hl]
      exact ih skip allocs h
    next hl =>
    rw [if_neg hl,if_neg hl]
    split at h
    · next hs =>
      rw [if_pos hs,if_pos hs]
      exact ih false allocs h
    next hs =>
    rw [if_neg hs,if_neg hs]
    split at h
    · next hg =>
      rw [if_pos hg,if_pos hg]
      split at h
      · next hok =>
        rw [if_pos hok]
        exact congrArg (r :: ·) (ih false _ h)
      · cases h
    · next hg =>
      rw [if_neg hg,if_neg hg]
      exact ih true allocs h

lemma save_nil (skip : Bool) (rs : Log cfg.table) :
    (Log.save skip rs []).1 = true ∧ (Log.save skip rs []).2.2.1 = [] := by
  induction rs generalizing skip with
  | nil => exact ⟨rfl,rfl⟩
  | cons r rs ih =>
    simp only [Log.save,nextAlloc]
    split
    · exact ih skip
    split
    · exact ih false
    · split
      · exact ih false
      · exact ih true

lemma mem_saved {skip : Bool} (h : r ∈ Log.saved skip rs) :
    r ∈ rs ∧ r.live = true ∧ r.good = true := by
  induction rs generalizing skip with
  | nil => cases h
  | cons x rs ih =>
    rw [Log.saved] at h
    split at h
    · exact ⟨mem_cons_of_mem _ (ih h).1,(ih h).2⟩
    next hl =>
    split at h
    · exact ⟨mem_cons_of_mem _ (ih h).1,(ih h).2⟩
    split at h
    · next hg =>
      obtain rfl | h := mem_cons.mp h
      · exact ⟨mem_cons_self,by simpa using hl,hg⟩
      · exact ⟨mem_cons_of_mem _ (ih h).1,(ih h).2⟩
    · exact ⟨mem_cons_of_mem _ (ih h).1,(ih h).2⟩

lemma cells_saved_le (skip : Bool) (rs : Log cfg.table) :
    Log.cells (Log.saved skip rs) ≤ rs.cells := by
  induction rs generalizing skip with
  | nil => exact le_refl _
  | cons r rs ih =>
    have hf := ih false
    have ht := ih true
    have hs := ih skip
    rw [Log.saved,Log.cells_cons]
    split
    · omega
    split
    · omega
    · split
      · rw [Log.cells_cons]
        omega
      · omega

def Rec.fresh (r : Rec cfg.table) : Rec cfg.table := (Setting.ofRec r).toRec

namespace Rec

variable (r : Rec cfg.table)

@[simp] lemma var_fresh : r.fresh.var = r.var := Var.ofName_name r.var

@[simp] lemma value_fresh : r.fresh.value = r.value := rfl

@[simp] lemma live_fresh : r.fresh.live = true := rfl

@[simp] lemma perm_fresh : r.fresh.perm = (cfg.permanentVariables && r.perm) :=
  Bool.and_self_left _ _

lemma good_fresh : r.fresh.good = true := good_newRec (Setting.ofRec r).cells_le

lemma cells_ofRec : cellsNeeded cfg (Setting.ofRec r).name (Setting.ofRec r).value = r.cells := by
  rw [cellsNeeded_eq]
  exact congrArg (fun v => cellsFor (recText v r.value).length) (Var.ofName_name r.var)

@[simp] lemma cells_fresh : r.fresh.cells = r.cells :=
  (cells_newRec (Setting.ofRec r).cells_le).trans r.cells_ofRec

@[simp] lemma key_fresh : r.fresh.key = r.key := by
  rw [key,key,var_fresh,value_fresh]

variable {r}

lemma matches_fresh (h : r.live = true) (nm : CStr) :
    r.fresh.matches cfg nm = r.matches cfg nm := by
  rw [Rec.matches,Rec.matches,h,live_fresh,var_fresh,key_fresh]

end Rec

lemma mem_of_mem_kill {a b : Log cfg.table} (hx : x ∈ a ++ r.kill :: b) (hl : x.live = true) :
    x ∈ a ++ r :: b := by
  obtain hx | hx := mem_append.mp hx
  · exact mem_append_left _ hx
  · obtain rfl | hx := mem_cons.mp hx
    · cases hl
    · exact mem_append_right _ (mem_cons_of_mem _ hx)

def Log.add (rs : Log cfg.table) (r : Rec cfg.table) : Log cfg.table :=
  match rs.find cfg r.var.name with
  | none => rs ++ [r.fresh]
  | some (a,x,b) =>
    if x.good then
      if x.value = r.value ∨ x.perm = true then rs else a ++ x.kill :: (b ++ [r.fresh])
    else a ++ x.kill :: b ++ [r.fresh]

def Log.compact (rs : Log cfg.table) : Log cfg.table := (Log.saved false rs).foldl Log.add []

lemma cells_add_le (rs : Log cfg.table) (r : Rec cfg.table) :
    Log.cells (rs.add r) ≤ rs.cells+r.cells := by
  rw [Log.add]
  cases hf : rs.find cfg r.var.name with
  | none => simp
  | some x =>
    obtain ⟨a,x,b⟩ := x
    obtain ⟨rfl,-,-⟩ := splitFirst_eq_some_iff.mp hf
    dsimp only
    split
    · split
      · exact Nat.le_add_right _ _
      · simp only [Log.cells_append,Log.cells_cons,Log.cells_nil,Rec.cells_kill,Rec.cells_fresh]
        omega
    · simp only [Log.cells_append,Log.cells_cons,Log.cells_nil,Rec.cells_kill,Rec.cells_fresh]
      omega

lemma cells_foldl_add_le (saved rs : Log cfg.table) :
    Log.cells (saved.foldl Log.add rs) ≤ rs.cells+Log.cells saved := by
  induction saved generalizing rs with
  | nil => simp
  | cons r saved ih =>
    have h := ih (rs.add r)
    have hadd := cells_add_le rs r
    rw [foldl_cons,Log.cells_cons]
    omega

lemma cells_compact_le (rs : Log cfg.table) : Log.cells rs.compact ≤ rs.cells := by
  have h := cells_foldl_add_le (Log.saved false rs) []
  have hs := cells_saved_le false rs
  rw [Log.cells_nil] at h
  exact le_trans h (by omega)

lemma off_compact_le (h : rs.off ≤ cfg.size) : Log.off rs.compact ≤ cfg.size := by
  have hc := cells_compact_le rs
  simp only [Log.off,envCellSize] at h ⊢
  omega

lemma mem_add (hx : x ∈ rs.add r) (hl : x.live = true) : x ∈ rs ∨ x = r.fresh := by
  rw [Log.add] at hx
  cases hf : rs.find cfg r.var.name with
  | none =>
    rw [hf] at hx
    exact (mem_append.mp hx).imp_right mem_singleton.mp
  | some y =>
    obtain ⟨a,y,b⟩ := y
    obtain ⟨rfl,-,-⟩ := splitFirst_eq_some_iff.mp hf
    have hkill (hx : x ∈ a ++ y.kill :: b ++ [r.fresh]) : x ∈ a ++ y :: b ∨ x = r.fresh := by
      obtain hx | hx := mem_append.mp hx
      · exact .inl (mem_of_mem_kill hx hl)
      · exact .inr (mem_singleton.mp hx)
    simp only [hf] at hx
    split at hx
    · split at hx
      · exact .inl hx
      · rw [← cons_append,← append_assoc] at hx
        exact hkill hx
    · exact hkill hx

section Good

variable {a b : Log cfg.table}

lemma Log.Good.append (h : rs.Good) (e : Setting cfg) : Log.Good (rs ++ [e.toRec]) := by
  intro x hx hl
  obtain hx | hx := mem_append.mp hx
  · exact h x hx hl
  · rw [mem_singleton.mp hx]
    exact good_newRec e.cells_le

lemma Log.Good.kill (h : Log.Good (a ++ r :: b)) : Log.Good (a ++ r.kill :: b) :=
  fun x hx hl => h x (mem_of_mem_kill hx hl) hl

lemma Log.Good.replace (h : Log.Good (a ++ r :: b)) (e : Setting cfg) :
    Log.Good (a ++ r.kill :: (b ++ [e.toRec])) := by
  have hgood := h.kill.append e
  rwa [append_assoc,cons_append] at hgood

lemma good_add (h : rs.Good) (r : Rec cfg.table) : (rs.add r).Good := by
  rw [Log.add]
  cases hf : rs.find cfg r.var.name with
  | none => exact h.append (.ofRec r)
  | some y =>
    obtain ⟨a,y,b⟩ := y
    obtain ⟨rfl,-,-⟩ := splitFirst_eq_some_iff.mp hf
    dsimp only
    split
    · split
      · exact h
      · exact h.replace (.ofRec r)
    · exact h.kill.append (.ofRec r)

end Good

lemma good_compact (rs : Log cfg.table) : rs.compact.Good := by
  have hfold (saved rs : Log cfg.table) (h : rs.Good) :
      Log.Good (saved.foldl Log.add rs) := by
    induction saved generalizing rs with
    | nil => exact h
    | cons r saved ih => exact ih (rs.add r) (good_add h r)
  exact hfold _ [] Log.good_nil

variable (depth : ℕ)

lemma setenv_add (rs : Log cfg.table) (allocs : List Bool) (r : Rec cfg.table)
    (h : rs.off+r.cells*envCellSize ≤ cfg.size) :
    LogState.setenv (depth+1) ⟨rs,allocs⟩ (.ofRec r) =
      some (.success,⟨rs.add r,allocs⟩) := by
  have hneed : (newCells cfg (Setting.ofRec r).name (Setting.ofRec r).value).toNat = r.cells :=
    (toNat_newCells _).trans r.cells_ofRec
  have hfit {rs' : Log cfg.table} (hoff : rs'.off = rs.off) :
      rs'.fits cfg (Setting.ofRec r).name (Setting.ofRec r).value = true := by
    rw [Log.fits_iff,hneed,hoff]
    exact h
  rw [LogState.setenv,Log.plan,Log.add]
  have hname : (Setting.ofRec r).name = r.var.name := rfl
  have hvalue : (Setting.ofRec r).value = r.value := rfl
  rw [hname,hvalue] at hfit ⊢
  cases hf : rs.find cfg r.var.name with
  | none =>
    simp only [hfit rfl,if_true]
    rfl
  | some x =>
    obtain ⟨a,x,b⟩ := x
    obtain ⟨rfl,-,-⟩ := splitFirst_eq_some_iff.mp hf
    cases hg : x.good with
    | true =>
      simp only [hg,if_true,hfit rfl]
      by_cases hv : x.value = r.value ∨ x.perm = true
      · simp only [if_pos hv]
      · simp only [if_neg hv]
        rfl
    | false =>
      simp only [hg,Bool.false_eq_true,if_false,hfit (off_kill a x b),if_true]
      rfl

lemma restore_eq (saved rs : Log cfg.table) (allocs : List Bool)
    (h : rs.off+Log.cells saved*envCellSize ≤ cfg.size) :
    LogState.restore (LogState.setenv (depth+1)) saved ⟨rs,allocs⟩ =
      some ⟨saved.foldl Log.add rs,allocs⟩ := by
  induction saved generalizing rs with
  | nil => rfl
  | cons r saved ih =>
    have hadd := cells_add_le rs r
    simp only [Log.off,Log.cells_cons,envCellSize] at h
    rw [LogState.restore,setenv_add depth rs allocs r (by simp only [Log.off,envCellSize]; omega),
      bind_some,foldl_cons]
    exact ih (rs.add r) (by simp only [Log.off,envCellSize]; omega)

lemma restore_saved (h : rs.off ≤ cfg.size) (allocs : List Bool) :
    LogState.restore (LogState.setenv (depth+1)) (Log.saved false rs) ⟨[],allocs⟩ =
      some ⟨rs.compact,allocs⟩ := by
  have hs := cells_saved_le false rs
  refine restore_eq depth _ [] allocs ?_
  simp only [Log.off,Log.cells_nil,envCellSize] at h ⊢
  omega

lemma restore_saved_eq (h : rs.off ≤ cfg.size) {allocs : List Bool} {s : LogState cfg}
    (hr : LogState.restore (LogState.setenv depth) (Log.saved false rs) ⟨[],allocs⟩ = some s) :
    s = ⟨rs.compact,allocs⟩ := by
  cases depth with
  | succ depth =>
    rw [restore_saved depth h] at hr
    exact (some.inj hr).symm
  | zero =>
    rw [Log.compact]
    cases hsaved : Log.saved false rs with
    | nil =>
      rw [hsaved] at hr
      exact (some.inj hr).symm
    | cons r saved =>
      rw [hsaved] at hr
      cases hr

lemma format_nil (rs : Log cfg.table) : LogState.format ⟨rs,[]⟩ = (.success,⟨[],[]⟩) := by
  rw [LogState.format]
  split <;> rfl

lemma format_cases (s : LogState cfg) :
    ∃ allocs, s.format = (.success,⟨[],allocs⟩) ∨ s.format = (.efailure,⟨s.log,allocs⟩) := by
  rw [LogState.format]
  split
  · exact ⟨s.allocs,.inl rfl⟩
  · split
    · exact ⟨s.malloc.2.allocs,.inl rfl⟩
    · exact ⟨s.malloc.2.allocs,.inr rfl⟩

lemma defragWith_nil (g : LogState cfg → Setting cfg → Option (Status × LogState cfg))
    (rs : Log cfg.table) :
    LogState.defragWith g ⟨rs,[]⟩ =
      (LogState.restore g (Log.saved false rs) ⟨[],[]⟩).map fun s => (.success,s) := by
  have hmalloc : LogState.malloc (⟨rs,[]⟩ : LogState cfg) = (true,⟨rs,[]⟩) := rfl
  have hperm : (if cfg.permanentVariables then (true,(⟨rs,[]⟩ : LogState cfg))
      else (true,⟨rs,[]⟩)) = (true,⟨rs,[]⟩) := ite_self _
  obtain ⟨hok,hallocs⟩ := save_nil false rs
  have hsaved := save_saved false rs [] hok
  rw [LogState.defragWith]
  simp only [hmalloc,hperm,Bool.not_true,Bool.false_eq_true,if_false]
  rcases hsave : Log.save false rs [] with ⟨ok,log,allocs,saved⟩
  simp only [hsave] at hok hallocs hsaved
  subst hok hallocs hsaved
  simp only [if_true,format_nil]

/-- What compacting comes to before anything is set again: whether it will succeed, the records
saved, and the log they are set in. -/
inductive Prepared (rs : Log cfg.table) : Status → Log cfg.table → Log cfg.table → Prop where
  | success : Prepared rs .success (Log.saved false rs) []
  | giveUp : Prepared rs .erescrunch [] rs
  | abort (allocs : List Bool) :
    Prepared rs .erescrunch (Log.save false rs allocs).2.2.2 (Log.save false rs allocs).2.1

/-- The first allocation succeeds and the one for the permanent flags does not. -/
def LogState.Wild (s : LogState cfg) : Prop :=
  cfg.permanentVariables = true ∧ s.malloc.1 = true ∧ s.malloc.2.malloc.1 = false

lemma not_wild_of_defragWith {x : Status × LogState cfg} (h : s.defragWith g = some x) : ¬ s.Wild := by
  rintro ⟨hperm,hfirst,hsecond⟩
  simp [LogState.defragWith,hperm,hfirst,hsecond] at h

lemma defragWith_prepared (hw : ¬ s.Wild) :
    ∃ st saved rs allocs, Prepared s.log st saved rs ∧
      ∀ g, s.defragWith g = (LogState.restore g saved ⟨rs,allocs⟩).map fun s => (st,s) := by
  simp only [LogState.defragWith]
  split
  · exact ⟨_,_,_,_,.giveUp,fun g => rfl⟩
  next hfirst =>
  have hr : (if cfg.permanentVariables then s.malloc.2.malloc else (true,s.malloc.2)).2.log =
      s.log := by split <;> rfl
  have hsecond : (if cfg.permanentVariables then s.malloc.2.malloc else (true,s.malloc.2)).1 = true := by
    split
    · next hperm =>
      by_contra hsecond
      exact hw ⟨hperm,by simpa using hfirst,by simpa using hsecond⟩
    · rfl
  generalize (if cfg.permanentVariables then s.malloc.2.malloc else (true,s.malloc.2)) = r
    at hr hsecond ⊢
  simp only [hsecond,Bool.not_true,Bool.false_eq_true,if_false]
  have habort : Prepared s.log _ _ _ := .abort r.2.allocs
  have hsaved := save_saved false s.log r.2.allocs
  rw [hr]
  rcases hsave : Log.save false s.log r.2.allocs with ⟨ok,log,allocs,saved⟩
  rw [hsave] at hsaved habort
  cases ok with
  | false => exact ⟨_,_,_,allocs,habort,fun g => rfl⟩
  | true =>
    obtain ⟨al,hf | hf⟩ := format_cases (⟨log,allocs⟩ : LogState cfg)
    · simp only [if_true,hf]
      exact ⟨_,_,_,al,.success,fun g => by rw [← hsaved rfl]⟩
    · simp only [if_true,hf]
      exact ⟨_,_,_,al,habort,fun g => rfl⟩

lemma defragWith_of_zero (h : s.defragWith (LogState.setenv 0) = some (st,s'))
    (g : LogState cfg → Setting cfg → Option (Status × LogState cfg)) :
    s.defragWith g = some (st,s') := by
  obtain ⟨st1,saved,rs,allocs,-,heq⟩ := defragWith_prepared (not_wild_of_defragWith h)
  rw [heq] at h ⊢
  cases saved with
  | nil => exact h
  | cons r saved => cases h

lemma foldl_add_of_pairwise (saved rs : Log cfg.table) (hl : ∀ r ∈ saved, r.live = true)
    (hs : saved.Pairwise fun r x => r.matches cfg x.var.name = false)
    (hrs : ∀ r ∈ rs, ∀ x ∈ saved, r.matches cfg x.var.name = false) :
    saved.foldl Log.add rs = rs ++ saved.map Rec.fresh := by
  induction saved generalizing rs with
  | nil => simp
  | cons r saved ih =>
    obtain ⟨hr,hs⟩ := pairwise_cons.mp hs
    have hnone : rs.find cfg r.var.name = none :=
      splitFirst_eq_none_iff.mpr fun x hx => hrs x hx r mem_cons_self
    have hadd : rs.add r = rs ++ [r.fresh] := by rw [Log.add,hnone]
    rw [foldl_cons,hadd,ih (rs ++ [r.fresh]) (fun x hx => hl x (mem_cons_of_mem _ hx)) hs]
    · simp
    intro x hx y hy
    obtain hx | hx := mem_append.mp hx
    · exact hrs x hx y (mem_cons_of_mem _ hy)
    · rw [mem_singleton.mp hx,Rec.matches_fresh (hl r mem_cons_self)]
      exact hr y hy

lemma compact_of_pairwise
    (hs : (Log.saved false rs).Pairwise fun r x => r.matches cfg x.var.name = false) :
    rs.compact = (Log.saved false rs).map Rec.fresh := by
  rw [Log.compact,foldl_add_of_pairwise _ _ (fun r hr => (mem_saved hr).2.1) hs (by simp)]
  exact nil_append _

lemma get_snd_of_good (h : rs.Good) (nm : CStr) : (rs.get cfg nm).2 = rs := by
  rw [Log.get]
  cases hf : rs.find cfg nm with
  | none => rfl
  | some x =>
    obtain ⟨a,r,b⟩ := x
    obtain ⟨hrs,hr,-⟩ := splitFirst_eq_some_iff.mp hf
    have hmem : r ∈ rs := hrs ▸ mem_append_right _ mem_cons_self
    simp only [h r hmem (Rec.matches_live hr),if_true]

lemma saved_of_good (h : rs.Good) : Log.saved false rs = rs.filter Rec.live := by
  induction rs with
  | nil => rfl
  | cons r rs ih =>
    obtain ⟨hr,h⟩ := forall_mem_cons.mp h
    rw [Log.saved]
    cases hl : r.live with
    | false => simp [hl,ih h]
    | true => simp [hl,hr hl,ih h]

lemma save_of_good (h : rs.Good) (allocs : List Bool) :
    (Log.save false rs allocs).2.1 = rs ∧
      ∀ r ∈ (Log.save false rs allocs).2.2.2, r ∈ rs ∧ r.live = true := by
  induction rs generalizing allocs with
  | nil => exact ⟨rfl,by simp [Log.save]⟩
  | cons r rs ih =>
    obtain ⟨hr,h⟩ := forall_mem_cons.mp h
    simp only [Log.save]
    cases hl : r.live with
    | false =>
      obtain ⟨hlog,hmem⟩ := ih h allocs
      refine ⟨congrArg (r :: ·) hlog,fun x hx => ?_⟩
      exact ⟨mem_cons_of_mem _ (hmem x hx).1,(hmem x hx).2⟩
    | true =>
      simp only [Bool.not_true,Bool.false_eq_true,if_false,hr hl,if_true]
      obtain ⟨hlog,hmem⟩ := ih h (nextAlloc allocs).2
      split
      · refine ⟨congrArg (r :: ·) hlog,fun x hx => ?_⟩
        obtain rfl | hx := mem_cons.mp hx
        · exact ⟨mem_cons_self,hl⟩
        · exact ⟨mem_cons_of_mem _ (hmem x hx).1,(hmem x hx).2⟩
      · exact ⟨rfl,by simp⟩

/-- There is no room for the record, and the call takes something for garbage: a record that is,
or the one it would replace. -/
def Log.Stuck (rs : Log cfg.table) (nm val : CStr) : Prop :=
  rs.fits cfg nm val = false ∧
    match rs.find cfg nm with
    | none => rs.hasGarbage = true
    | some (_,r,_) => r.value ≠ val ∧ r.perm = false

inductive PlanCase (nm val : CStr) (rs : Log cfg.table) : LogPlan cfg.table → Prop where
  | answer {a b : Log cfg.table} {r : Rec cfg.table} (hf : rs.find cfg nm = some (a,r,b))
    (hr : r.value = val ∨ r.perm = true) : PlanCase nm val rs .answer
  | append (hf : rs.find cfg nm = none) (hfit : rs.fits cfg nm val = true) :
    PlanCase nm val rs (.append none)
  | replace {a b : Log cfg.table} {r : Rec cfg.table} (hf : rs.find cfg nm = some (a,r,b))
    (hv : r.value ≠ val) (hp : r.perm = false) (hfit : rs.fits cfg nm val = true) :
    PlanCase nm val rs (.append (some (a,r,b)))
  | giveUp (hf : rs.find cfg nm = none) (hfit : rs.fits cfg nm val = false)
    (hgarbage : rs.hasGarbage = false) : PlanCase nm val rs (.full false)
  | compact (h : rs.Stuck nm val) : PlanCase nm val rs (.full true)

lemma planCase (h : rs.Good) (nm val : CStr) :
    (rs.plan cfg nm val).1 = rs ∧ PlanCase nm val rs (rs.plan cfg nm val).2 := by
  rw [Log.plan]
  cases hf : rs.find cfg nm with
  | none =>
    refine ⟨rfl,?_⟩
    cases hfit : rs.fits cfg nm val with
    | true => exact .append hf hfit
    | false =>
      cases hgarbage : rs.hasGarbage with
      | true => exact .compact ⟨hfit,by rw [hf]; exact hgarbage⟩
      | false => exact .giveUp hf hfit hgarbage
  | some x =>
    obtain ⟨a,r,b⟩ := x
    obtain ⟨hrs,hr,-⟩ := splitFirst_eq_some_iff.mp hf
    have hmem : r ∈ rs := hrs ▸ mem_append_right _ mem_cons_self
    simp only [h r hmem (Rec.matches_live hr),if_true,true_and]
    by_cases hv : r.value = val ∨ r.perm = true
    · rw [if_pos hv]
      exact .answer hf hv
    rw [if_neg hv]
    rw [not_or,Bool.not_eq_true] at hv
    cases hfit : rs.fits cfg nm val with
    | true => exact .replace hf hv.1 hv.2 hfit
    | false => exact .compact ⟨hfit,by rw [hf]; exact hv⟩

lemma setenv_planCase (h : s.log.Good) (e : Setting cfg) (depth : ℕ) :
    ∃ p, PlanCase e.name e.value s.log p ∧ s.setenv (depth+1) e =
      match p with
      | .answer => some (.success,s)
      | .append old => some (.success,s.put e old)
      | .full garbage =>
        if garbage then
          (s.defragWith (LogState.setenv depth)).bind fun (status,s) =>
            if status = .success then LogState.setenv depth s e else some (.erescrunch,s)
        else some (.erescrunch,s) := by
  obtain ⟨hrs,hp⟩ := planCase h e.name e.value
  refine ⟨_,hp,?_⟩
  rw [LogState.setenv]
  rcases hplan : s.log.plan cfg e.name e.value with ⟨rs,p⟩
  rw [hplan] at hrs
  obtain rfl : rs = s.log := hrs
  cases p <;> rfl

lemma restore_answered {saved : Log cfg.table} (depth : ℕ) (allocs : List Bool)
    (h : ∀ r ∈ saved, rs.plan cfg r.var.name r.value = (rs,.answer)) :
    LogState.restore (LogState.setenv (depth+1)) saved ⟨rs,allocs⟩ = some ⟨rs,allocs⟩ := by
  induction saved with
  | nil => rfl
  | cons r saved ih =>
    obtain ⟨hr,h⟩ := forall_mem_cons.mp h
    have hset : LogState.setenv (depth+1) ⟨rs,allocs⟩ (.ofRec r) = some (.success,⟨rs,allocs⟩) := by
      have hplan : rs.plan cfg (Setting.ofRec r).name (Setting.ofRec r).value = (rs,.answer) := hr
      rw [LogState.setenv,hplan]
    rw [LogState.restore,hset,bind_some]
    exact ih h

/-- Each live record's variable can be set to its value again without a change. -/
def Log.Settled (rs : Log cfg.table) : Prop :=
  ∀ r ∈ rs, r.live = true → rs.plan cfg r.var.name r.value = (rs,.answer)

namespace Log.Settled

lemma defragWith_returns (h : s.log.Settled) (hg : s.log.Good) (hs : s.log.off ≤ cfg.size)
    (hw : ¬ s.Wild) :
    ∃ st s', ((st = .success ∧ s'.log = s.log.compact) ∨ (st = .erescrunch ∧ s'.log = s.log)) ∧
      ∀ depth, s.defragWith (LogState.setenv (depth+1)) = some (st,s') := by
  obtain ⟨st,saved,rs,allocs,hp,heq⟩ := defragWith_prepared hw
  cases hp with
  | success =>
    refine ⟨_,⟨s.log.compact,allocs⟩,.inl ⟨rfl,rfl⟩,fun depth => ?_⟩
    rw [heq,restore_saved depth hs,map_some]
  | giveUp => exact ⟨_,⟨s.log,allocs⟩,.inr ⟨rfl,rfl⟩,fun depth => heq _⟩
  | abort al =>
    obtain ⟨hlog,hmem⟩ := save_of_good hg al
    refine ⟨_,⟨s.log,allocs⟩,.inr ⟨rfl,rfl⟩,fun depth => ?_⟩
    rw [heq,hlog,restore_answered depth allocs fun r hr => h r (hmem r hr).1 (hmem r hr).2,map_some]

lemma defragWith {depth : ℕ} (h : s.log.Settled) (hg : s.log.Good) (hs : s.log.off ≤ cfg.size)
    (hd : s.defragWith (LogState.setenv depth) = some (st,s')) :
    (st = .success ∧ s'.log = s.log.compact) ∨ (st = .erescrunch ∧ s'.log = s.log) := by
  obtain ⟨st1,s1,hcases,heq⟩ := h.defragWith_returns hg hs (not_wild_of_defragWith hd)
  obtain ⟨d,hd⟩ : ∃ d, s.defragWith (LogState.setenv (d+1)) = some (st,s') := by
    cases depth with
    | zero => exact ⟨0,defragWith_of_zero hd _⟩
    | succ depth => exact ⟨depth,hd⟩
  rw [heq d] at hd
  cases hd
  exact hcases

end Log.Settled

end DslG624t.Env
