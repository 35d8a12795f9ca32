import DslG624t.Env.Refine

/-!
# Runs of calls

The calls a user of the environment makes, one after another, from a formatted region on.
-/

namespace DslG624t.Env

open CString Flash Option Prod SplitFirst

def Returns {α : Type} (call : ℕ → ℕ → Option α) (x : α) : Prop :=
  ∃ k, ∀ fuel ≥ k, ∀ depth ≥ k, call fuel depth = some x

section

variable {α : Type} {call call' : ℕ → ℕ → Option α} {x y : α}

lemma Returns.unique (hx : Returns call x) (hy : Returns call y) : x = y := by
  obtain ⟨k,hk⟩ := hx
  obtain ⟨l,hl⟩ := hy
  have hkl := hk (max k l) (le_max_left k l) (max k l) (le_max_left k l)
  rw [hl (max k l) (le_max_right k l) (max k l) (le_max_right k l)] at hkl
  exact (some.inj hkl).symm

lemma Returns.exists_fuel (h : Returns call x) (n : ℕ) :
    ∃ fuel depth, n ≤ fuel ∧ call fuel depth = some x := by
  obtain ⟨k,hk⟩ := h
  exact ⟨max n k,k,le_max_left n k,hk _ (le_max_right n k) k (le_refl k)⟩

lemma Returns.of_add {n d : ℕ} (h : ∀ fuel ≥ n, ∀ depth, call fuel (depth+d) = some x) :
    Returns call x := by
  refine ⟨n+d,fun fuel hfuel depth hdepth => ?_⟩
  have hcall := h fuel (by omega) (depth-d)
  rwa [Nat.sub_add_cancel (by omega)] at hcall

lemma Returns.of_step (h : Returns call' x) {n : ℕ}
    (hstep : ∀ fuel ≥ n, ∀ depth, call fuel (depth+2) = call' fuel (depth+1)) : Returns call x := by
  obtain ⟨k,hk⟩ := h
  refine .of_add (n := n+k) (d := k+2) fun fuel hfuel depth => ?_
  exact (hstep fuel (by omega) (depth+k)).trans (hk fuel (by omega) _ (by omega))

end

inductive Call where
  | getenv (nm : CStr)
  | setenv (nm val : Option CStr)
  | unsetenv (nm : CStr)
  | defragenv

inductive Answer where
  | value (v : Option Bytes)
  | status (st : Status)

def Call.run (fuel depth : ℕ) (cfg : EnvConfig) (s : EnvState) :
    Call → Option (Answer × EnvState)
  | .getenv nm =>
    (sysGetenv fuel cfg s.mem nm).map fun (v,m) => (.value v,{ s with mem := m })
  | .setenv nm val =>
    (sysSetenv fuel depth cfg s (nm.map Subtype.val) (val.map Subtype.val)).map fun (st,s) =>
      (.status st,s)
  | .unsetenv nm => (sysUnsetenv fuel cfg s nm).map fun (st,s) => (.status st,s)
  | .defragenv => (sysDefragenv fuel depth cfg s).map fun (st,s) => (.status st,s)

/-- The call ends with `x`, once it has enough fuel. -/
abbrev Answers (cfg : EnvConfig) (s : EnvState) (c : Call) (x : Answer × EnvState) : Prop :=
  Returns (fun fuel depth => Call.run fuel depth cfg s c) x

lemma Call.run_setenv {cfg : EnvConfig} {nm : CStr}
    (hro : (!cfg.standalone && isReadOnlyVar nm) = false) (fuel depth : ℕ) (s : EnvState)
    (val : CStr) :
    Call.run fuel depth cfg s (.setenv (some nm) (some val)) =
      (sysSetenvPerm fuel cfg depth s nm val false).map fun (st,s) => (.status st,s) := by
  simp only [Call.run,map_some,sysSetenv,hro,Bool.false_eq_true,if_false]

/-- The cells of the record to be written, if any, can be counted in a byte. -/
def Call.Counted (cfg : EnvConfig) : Call → Prop
  | .setenv (some nm) (some val) => cellsNeeded cfg nm val ≤ 255
  | _ => True

variable {cfg : EnvConfig}

inductive LogStep (s : LogState cfg) : Call → Answer → LogState cfg → Prop where
  | getenv (nm : CStr) :
    LogStep s (.getenv nm) (.value ((s.log.get cfg nm).1.map Subtype.val))
      { s with log := (s.log.get cfg nm).2 }
  | setenvNull {nm val : Option CStr} (h : nm = none ∨ val = none) :
    LogStep s (.setenv nm val) (.status .efailure) s
  | setenvReadOnly {nm : CStr} (val : CStr) (hk : cfg.standalone = false)
    (hro : isReadOnlyVar nm = true) :
    LogStep s (.setenv (some nm) (some val)) (.status .success) s
  | setenv {e : Setting cfg} {depth : ℕ} {st : Status} {s' : LogState cfg} (hp : e.perm = false)
    (hro : (!cfg.standalone && isReadOnlyVar e.name) = false)
    (h : s.setenv depth e = some (st,s')) :
    LogStep s (.setenv (some e.name) (some e.value)) (.status st) s'
  | unsetenv (nm : CStr) : LogStep s (.unsetenv nm) (.status (s.unset nm).1) (s.unset nm).2
  | defragenv {depth : ℕ} {st : Status} {s' : LogState cfg} (h : s.defrag depth = some (st,s')) :
    LogStep s .defragenv (.status st) s'

lemma Call.run_bytes {fuel depth : ℕ} {c : Call} (hc : c.Counted cfg) (hfuel : cfg.size ≤ fuel)
    {s : LogState cfg} (hs : s.log.off ≤ cfg.size) {after : Bytes} {ans : Answer} {t : EnvState}
    (h : c.run fuel depth cfg (s.bytes after) = some (ans,t)) :
    ∃ s', t = LogState.bytes s' after ∧ s'.log.off ≤ cfg.size ∧ LogStep s c ans s' := by
  cases c with
  | getenv nm =>
    have hget := sysGetenv_image hfuel hs after nm
    have hmem : (s.bytes after).mem = image cfg s.log after := rfl
    simp only [Call.run,hmem,hget,map_some,some.injEq,mk.injEq] at h
    obtain ⟨rfl,rfl⟩ := h
    exact ⟨{ s with log := (s.log.get cfg nm).2 },rfl,off_get nm s.log ▸ hs,.getenv nm⟩
  | unsetenv nm =>
    have hunset := sysUnsetenv_image hfuel hs after nm
    simp only [Call.run,hunset,map_some,some.injEq,mk.injEq] at h
    obtain ⟨rfl,rfl⟩ := h
    exact ⟨(s.unset nm).2,rfl,off_unset s nm ▸ hs,.unsetenv nm⟩
  | defragenv =>
    simp only [Call.run] at h
    obtain ⟨h1,-⟩ | ⟨st,s',h1,h2,hs'⟩ := defrag_refines hfuel after depth s hs
    · simp [h1] at h
    · simp only [h1,map_some,some.injEq,mk.injEq] at h
      obtain ⟨rfl,rfl⟩ := h
      exact ⟨s',rfl,hs',.defragenv h2⟩
  | setenv nm val =>
    cases nm with
    | none =>
      simp only [Call.run,map_none,sysSetenv,map_some,some.injEq,mk.injEq] at h
      obtain ⟨rfl,rfl⟩ := h
      exact ⟨s,rfl,hs,.setenvNull (.inl rfl)⟩
    | some nm =>
      cases val with
      | none =>
        simp only [Call.run,map_none,sysSetenv,map_some,some.injEq,mk.injEq] at h
        obtain ⟨rfl,rfl⟩ := h
        exact ⟨s,rfl,hs,.setenvNull (.inr rfl)⟩
      | some val =>
        cases hro : !cfg.standalone && isReadOnlyVar nm with
        | true =>
          simp only [Call.run,map_some,sysSetenv,hro,if_true] at h
          cases h
          obtain ⟨hk,hro⟩ := Bool.and_eq_true_iff.mp hro
          exact ⟨s,rfl,hs,.setenvReadOnly val (by simpa using hk) hro⟩
        | false =>
          let e : Setting cfg := ⟨nm,val,false,hc⟩
          rw [Call.run_setenv hro] at h
          obtain ⟨h1,-⟩ | ⟨st,s',h1,h2,hs'⟩ := setenv_refines hfuel after depth s e hs
          · simp [e,h1] at h
          · simp only [e] at h1
            simp only [h1,map_some,some.injEq,mk.injEq] at h
            obtain ⟨rfl,rfl⟩ := h
            exact ⟨s',rfl,hs',.setenv (e := e) rfl hro h2⟩

lemma returns_getenv {s : LogState cfg} (hs : s.log.off ≤ cfg.size) (after : Bytes) (nm : CStr) :
    Answers cfg (s.bytes after) (.getenv nm) (.value ((s.log.get cfg nm).1.map Subtype.val),
        LogState.bytes { s with log := (s.log.get cfg nm).2 } after) := by
  refine ⟨cfg.size,fun fuel hfuel depth _ => ?_⟩
  have hmem : (s.bytes after).mem = image cfg s.log after := rfl
  simp only [Call.run,hmem,sysGetenv_image hfuel hs after nm,map_some]
  rfl

lemma returns_unsetenv {s : LogState cfg} (hs : s.log.off ≤ cfg.size) (after : Bytes)
    (nm : CStr) :
    Answers cfg (s.bytes after) (.unsetenv nm)
      (.status (s.unset nm).1,(s.unset nm).2.bytes after) := by
  refine ⟨cfg.size,fun fuel hfuel depth _ => ?_⟩
  simp only [Call.run,sysUnsetenv_image hfuel hs after nm,map_some]

/-- `sys_getenv` returns `v`. -/
def Reads (cfg : EnvConfig) (s : EnvState) (nm : CStr) (v : Option CStr) : Prop :=
  ∃ t, Answers cfg s (.getenv nm) (.value (v.map Subtype.val),t)

lemma Reads.unique {s : EnvState} {nm : CStr} {v v' : Option CStr} (h : Reads cfg s nm v)
    (h' : Reads cfg s nm v') : v = v' := by
  obtain ⟨t,ht⟩ := h
  obtain ⟨t',ht'⟩ := h'
  have heq := congrArg fst (ht.unique ht')
  exact map_injective Subtype.val_injective (Answer.value.inj heq)

lemma reads_iff_of_sysGetenv {s : EnvState} {nm : CStr} {v : Option CStr} {v' : Option Bytes}
    {m : Bytes}
    (h : ∀ fuel, cfg.size ≤ fuel → sysGetenv fuel cfg s.mem nm = some (v',m)) :
    Reads cfg s nm v ↔ v.map Subtype.val = v' := by
  have hret : Answers cfg s (.getenv nm) (.value v',{ s with mem := m }) := by
    refine ⟨cfg.size,fun fuel hfuel depth _ => ?_⟩
    simp only [Call.run,h fuel hfuel,map_some]
  constructor
  · rintro ⟨t,hv⟩
    exact Answer.value.inj (congrArg fst (hv.unique hret))
  · rintro rfl
    exact ⟨_,hret⟩

lemma reads_iff {s : LogState cfg} (hs : s.log.off ≤ cfg.size) {after : Bytes} {nm : CStr}
    {v : Option CStr} : Reads cfg (s.bytes after) nm v ↔ (s.log.get cfg nm).1 = v := by
  rw [reads_iff_of_sysGetenv fun fuel hfuel => sysGetenv_image hfuel hs after nm,eq_comm,
    (map_injective Subtype.val_injective).eq_iff]

lemma returns_setenv {s s' : LogState cfg} {e : Setting cfg} {st : Status}
    (hs : s.log.off ≤ cfg.size) (hp : e.perm = false)
    (hro : (!cfg.standalone && isReadOnlyVar e.name) = false) {d : ℕ}
    (h : ∀ depth, s.setenv (depth+d) e = some (st,s')) (after : Bytes) :
    Answers cfg (s.bytes after) (.setenv (some e.name) (some e.value))
      (.status st,s'.bytes after) := by
  refine .of_add (n := cfg.size) (d := d) fun fuel hfuel depth => ?_
  obtain ⟨hset,-⟩ := (setenv_refines hfuel after (depth+d) s e hs).eq_bytes (h depth)
  rw [hp] at hset
  rw [Call.run_setenv hro,hset,map_some]

lemma returns_defragenv {s s' : LogState cfg} {st : Status} (hs : s.log.off ≤ cfg.size) {d : ℕ}
    (h : ∀ depth, s.defrag (depth+d) = some (st,s')) (after : Bytes) :
    Answers cfg (s.bytes after) .defragenv (.status st,s'.bytes after) := by
  refine .of_add (n := cfg.size) (d := d) fun fuel hfuel depth => ?_
  obtain ⟨hdefrag,-⟩ := (defrag_refines hfuel after (depth+d) s hs).eq_bytes (h depth)
  simp only [Call.run,hdefrag,map_some]

/-- The states reached from a formatted region, by calls whose records can be counted. -/
inductive EnvReach (cfg : EnvConfig) : EnvState → Prop where
  | format {s t : EnvState} (h : formatEnvBlock cfg s = (.success,t)) : EnvReach cfg t
  | call {s t : EnvState} {c : Call} {ans : Answer} (hs : EnvReach cfg s) (hc : c.Counted cfg)
    (h : Returns (fun fuel depth => c.run fuel depth cfg s) (ans,t)) : EnvReach cfg t

lemma EnvReach.invariant {P : LogState cfg → Prop} (hnil : ∀ allocs, P ⟨[],allocs⟩)
    (hstep : ∀ {s s' : LogState cfg} {c : Call} {ans : Answer}, s.log.off ≤ cfg.size →
      LogStep s c ans s' → P s → P s') {t : EnvState} (h : EnvReach cfg t) :
    ∃ (s : LogState cfg) (after : Bytes), t = s.bytes after ∧ s.log.off ≤ cfg.size ∧ P s := by
  induction h with
  | @format s t h =>
    obtain ⟨allocs,rfl⟩ := formatEnvBlock_success h
    exact ⟨⟨[],allocs⟩,s.mem.drop cfg.size,rfl,off_nil_le cfg,hnil allocs⟩
  | call hs hc h ih =>
    obtain ⟨s,after,rfl,hoff,hP⟩ := ih
    obtain ⟨fuel,depth,hfuel,hrun⟩ := h.exists_fuel cfg.size
    obtain ⟨s',rfl,hoff',hlog⟩ := Call.run_bytes hc hfuel hoff hrun
    exact ⟨s',after,rfl,hoff',hstep hoff hlog hP⟩

lemma EnvReach.bytes {t : EnvState} (h : EnvReach cfg t) :
    ∃ (s : LogState cfg) (after : Bytes), t = s.bytes after ∧ s.log.off ≤ cfg.size := by
  obtain ⟨s,after,ht,hoff,-⟩ := h.invariant (P := fun _ => True) (fun _ => trivial) fun _ _ => id
  exact ⟨s,after,ht,hoff⟩

lemma EnvReach.append {rs : Log cfg.table} {e : Setting cfg} {after : Bytes}
    (h : EnvReach cfg (LogState.bytes ⟨rs,[]⟩ after)) (hp : e.perm = false)
    (hro : (!cfg.standalone && isReadOnlyVar e.name) = false) (hoff : rs.off ≤ cfg.size)
    (hf : rs.find cfg e.name = none) (hfit : rs.fits cfg e.name e.value = true) :
    EnvReach cfg (LogState.bytes ⟨rs ++ [e.toRec],[]⟩ after) :=
  h.call (c := .setenv (some e.name) (some e.value)) e.cells_le
    (returns_setenv (s := ⟨rs,[]⟩) hoff hp hro (LogState.setenv_append hf hfit) after)

lemma EnvReach.replace {rs a b : Log cfg.table} {r : Rec cfg.table} {e : Setting cfg} {after : Bytes}
    (h : EnvReach cfg (LogState.bytes ⟨rs,[]⟩ after)) (hp : e.perm = false)
    (hro : (!cfg.standalone && isReadOnlyVar e.name) = false) (hoff : rs.off ≤ cfg.size)
    (hf : rs.find cfg e.name = some (a,r,b)) (hg : r.good = true) (hv : r.value ≠ e.value)
    (hperm : r.perm = false) (hfit : rs.fits cfg e.name e.value = true) :
    EnvReach cfg (LogState.bytes ⟨a ++ r.kill :: (b ++ [e.toRec]),[]⟩ after) :=
  h.call (c := .setenv (some e.name) (some e.value)) e.cells_le
    (returns_setenv (s := ⟨rs,[]⟩) hoff hp hro (LogState.setenv_replace hf hg hv hperm hfit) after)

end DslG624t.Env
