import DslG624t.Env.Map

/-!
# Power failures

`__sys_setenv` writes the new record of a variable byte by byte and makes the old one garbage
last.
-/

namespace DslG624t.Env

open CString Flash Function List Prod SplitFirst

variable {cfg : EnvConfig} {nm u w : CStr} {μ ν : EnvMap cfg.table} {after : Bytes}

/-- What a power failure must leave readable: the variable has the old or the new value, and the
others have theirs. -/
structure Readable (cfg : EnvConfig) (μ : EnvMap cfg.table) (nm u w : CStr) (t : EnvState) :
    Prop where
  own : Reads cfg t nm (some u) ∨ Reads cfg t nm (some w)
  others : ∀ (m v : CStr), μ (Var.ofName cfg.table m) = some v →
    Var.ofName cfg.table m ≠ Var.ofName cfg.table nm → Reads cfg t m (some v)

lemma Log.Sound.reads {rs : Log cfg.table} (h : rs.Sound) (hoff : rs.off ≤ cfg.size)
    (hv : rs.value (Var.ofName cfg.table nm) = some u) (rest : Bytes) (allocs : List Bool) :
    Reads cfg ⟨region rs rest,allocs⟩ nm (some u) := by
  obtain ⟨a,r,b,hf,hg,-,rfl⟩ := h.find_of_value hv
  obtain ⟨rfl,hr,ha⟩ := splitFirst_eq_some_iff.mp hf
  exact (reads_iff_of_sysGetenv fun fuel hfuel => sysGetenv_found hfuel hoff ha hr hg).mpr rfl

section Plan

variable {rs : Log cfg.table} {m : Bytes} {ws : List (ℕ × UInt8)} {k : ℕ}

end Plan

section Invariant

variable {s : LogState cfg}

end Invariant

end DslG624t.Env
