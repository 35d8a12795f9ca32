import DslG624t.Ticfg.Calls

/-!
# The lock of the configuration region

`ticfg_lock_region` waits until a flag is clear and sets it, so a call that asks for the lock
while it has it waits for itself.
-/

namespace DslG624t.Ticfg.Calls

open CString
open Script (Leaks Releases Quiet)
open Adam2 (decode flashEnvEntrySize maxEnvEntry)

/-- A read of an entry that did not give all of it. -/
def Short : Sigma Answer → Prop
  | ⟨.readEntry _,r⟩ => r.bytesRead ≠ flashEnvEntrySize
  | _ => False

lemma leaks_readEntry (i : ℕ) : Leaks Short (readEntry i) := by
  refine Leaks.acquire (Releases.query ?_ ?_)
  · intro r hr dev n
    rw [if_pos (show r.bytesRead ≠ flashEnvEntrySize from hr)]
    exact nofun
  · intro r hr
    rw [if_neg (show ¬ r.bytesRead ≠ flashEnvEntrySize from hr)]
    exact Releases.release (Leaks.pure _)

lemma leaks_getMtdDevice : Leaks Short getMtdDevice := Leaks.query fun _ => id

lemma quiet_kmalloc (size : ℕ) : Quiet Short (kmalloc size) := by
  rw [kmalloc]
  split
  · trivial
  · exact Quiet.query fun _ => id

lemma leaks_kmalloc (size : ℕ) : Leaks Short (kmalloc size) := by
  rw [kmalloc]
  split
  · exact Leaks.pure false
  · exact Leaks.query fun _ => id

lemma leaks_variableLoop (idx k i : ℕ) (last : Option Bytes) :
    Leaks Short (variableLoop idx k i last) := by
  induction k generalizing i last with
  | zero => exact Leaks.pure last
  | succ k ih =>
    refine Leaks.bind (leaks_readEntry i) fun slot? => ?_
    cases slot? with
    | none => exact Leaks.pure last
    | some slot =>
      dsimp only
      split
      · exact Leaks.pure last
      · exact ih _ _

lemma leaks_getVariable (idx : ℕ) : Leaks Short (adam2EnvGetVariable idx) := by
  refine Leaks.bind leaks_getMtdDevice fun ok => ?_
  split
  · exact Leaks.pure none
  refine Leaks.bind (leaks_variableLoop idx _ 0 none) fun last => ?_
  split
  · refine Leaks.bind (leaks_kmalloc _) fun ok => ?_
    split <;> exact Leaks.pure _
  · exact Leaks.pure none

variable (var : Bytes) (fuel : ℕ) (k i : ℕ)

lemma leaks_valueLoop (found : Option (ℕ × Bytes)) : Leaks Short (valueLoop var k i found) := by
  induction k generalizing i found with
  | zero => exact Leaks.pure found
  | succ k ih =>
    refine Leaks.bind (leaks_readEntry i) fun slot? => ?_
    cases slot? with
    | none => exact Leaks.pure found
    | some slot =>
      dsimp only
      cases decode slot with
      | free => exact Leaks.pure found
      | foreign => exact ih _ _
      | malformed => exact ih _ _
      | corrupt => exact Leaks.pure found
      | unset idx => exact ih _ _
      | set idx name val =>
        dsimp only
        split
        · refine Leaks.bind (leaks_kmalloc _) fun ok => ?_
          split
          · exact Leaks.pure none
          · exact ih _ _
        · exact ih _ _

lemma leaks_getValue : Leaks Short (adam2EnvGetValue var) := by
  refine Leaks.bind leaks_getMtdDevice fun ok => ?_
  split
  · exact Leaks.pure none
  · exact Leaks.bind (leaks_valueLoop var _ 0 none) fun found => Leaks.pure _

lemma leaks_getValueDirect : Leaks Short (adam2EnvGetValueDirect var) := by
  refine Leaks.bind (Leaks.query fun _ => id) fun ready => ?_
  split
  · exact Leaks.pure none
  refine Leaks.bind (leaks_getValue _) fun pval => ?_
  cases pval with
  | none => exact Leaks.pure none
  | some pval =>
    dsimp only
    cases adam2EnvAtox pval with
    | none => exact Leaks.pure none
    | some base =>
      refine Leaks.acquire (Releases.bind (Quiet.query fun _ => id) fun slots => ?_)
      exact Releases.release (Leaks.pure _)

lemma leaks_scanLoop (entry : Bytes) (st : Adam2.Scan) :
    Leaks Short (scanLoop var k i entry st) := by
  induction k generalizing i entry st with
  | zero => exact Leaks.pure _
  | succ k ih =>
    refine Leaks.bind (leaks_readEntry i) fun slot? => ?_
    cases slot? with
    | none => exact Leaks.pure none
    | some slot =>
      dsimp only
      cases decode slot with
      | set idx name val => exact ih _ _ _
      | unset idx => exact ih _ _ _
      | free => exact Leaks.pure _
      | foreign => exact Leaks.pure none
      | malformed => exact Leaks.pure none
      | corrupt => exact Leaks.pure none

lemma leaks_writeEntry (i : ℕ) (stop : Adam2.Stop) (var : Bytes) (val : Option Bytes) :
    Leaks Short (writeEntry i stop var val) := by
  rw [writeEntry]
  cases newEntry stop var val with
  | none => exact Leaks.pure 6
  | some entry =>
    refine Leaks.acquire (Releases.bind (Quiet.query fun _ => id) fun _ => ?_)
    exact Releases.release (Leaks.pure 0)

lemma leaks_setVariable (val : Option Bytes) : Leaks Short (adam2EnvSetVariable var val) := by
  refine Leaks.bind leaks_getMtdDevice fun ok => ?_
  split
  · exact Leaks.pure 1
  refine Leaks.bind (leaks_scanLoop var _ 0 [] _) fun stop? => ?_
  cases stop? with
  | none => exact Leaks.pure 1
  | some stop =>
    refine Leaks.bind (Leaks.query fun _ => id) fun stack => ?_
    dsimp only
    split
    · exact Leaks.pure 0
    · cases stop.emptyEntryIdx with
      | none => exact Leaks.pure _
      | some i => exact leaks_writeEntry i stop var val

lemma quiet_mtdRegion (dir : Dir) (fuel : ℕ) (offset : ℤ) (count done : ℕ) :
    Quiet Short (mtdRegion dir fuel offset count done) := by
  induction fuel generalizing offset count done with
  | zero =>
    rw [mtdRegion]
    split <;> trivial
  | succ fuel ih =>
    rw [mtdRegion]
    split
    · trivial
    · refine Quiet.bind (Quiet.query fun _ => id) fun t => ?_
      split
      · trivial
      · exact ih _ _ _

lemma quiet_eraseMtdRegion : Quiet Short ticfgEraseMtdRegion := by
  refine Quiet.bind (quiet_kmalloc _) fun ok => ?_
  split
  · trivial
  · exact Quiet.query fun _ => id

lemma leaks_eraseKeeping (fuel offset size : ℕ) : Leaks Short (eraseKeeping fuel offset size) := by
  refine Leaks.bind (leaks_kmalloc size) fun ok => ?_
  split
  · exact Leaks.pure _
  refine Leaks.acquire (Releases.bind (quiet_mtdRegion _ _ _ _ _) fun (ret,_) => ?_)
  dsimp only
  split
  · exact Releases.release (Leaks.pure ret)
  refine Releases.bind quiet_eraseMtdRegion fun ret => ?_
  split
  · exact Releases.release (Leaks.pure ret)
  · refine Releases.bind (quiet_mtdRegion _ _ _ _ _) fun (ret,_) => ?_
    exact Releases.release (Leaks.pure ret)

lemma leaks_ioctl (fuel cmd : ℕ) : Leaks Short (ticfgIoctl fuel cmd) := by
  rw [ticfgIoctl]
  split
  · exact leaks_eraseKeeping fuel _ _
  · exact Leaks.pure 0

lemma leaks_collect : Leaks Short (collect k i) := by
  induction k generalizing i with
  | zero => exact Leaks.pure []
  | succ k ih =>
    refine Leaks.bind (leaks_getVariable i) fun var => ?_
    cases var with
    | none => exact ih _
    | some var =>
      refine Leaks.bind (leaks_getValue var) fun val => ?_
      cases val with
      | some val => exact Leaks.bind (ih _) fun _ => Leaks.pure _
      | none =>
        dsimp only
        split
        · exact Leaks.fault
        · exact ih _

lemma leaks_restore (saved : List (Bytes × Bytes)) : Leaks Short (restore saved) := by
  induction saved with
  | nil => exact Leaks.pure ()
  | cons entry saved ih => exact Leaks.bind (leaks_setVariable _ _) fun _ => ih

lemma leaks_defrag : Leaks Short (adam2EnvDefrag fuel) := by
  refine Leaks.bind (leaks_collect _ 0) fun saved => ?_
  refine Leaks.bind leaks_getMtdDevice fun ok => ?_
  split
  · exact Leaks.pure _
  · refine Leaks.bind (leaks_eraseKeeping fuel _ _) fun ret => ?_
    split
    · exact Leaks.pure ret
    · exact Leaks.bind (leaks_restore saved) fun _ => Leaks.pure 0

lemma leaks_read (r : Request) : Leaks Short (ticfgRead fuel r) := by
  rw [ticfgRead]
  split
  · exact Leaks.pure _
  refine Leaks.bind (leaks_kmalloc _) fun ok => ?_
  split
  · exact Leaks.pure _
  refine Leaks.acquire (Releases.bind (quiet_mtdRegion _ _ _ _ _) fun p => ?_)
  dsimp only
  split
  · exact Releases.release (Leaks.pure _)
  · refine Releases.release (Leaks.bind (Leaks.query fun _ => id) fun ok => ?_)
    split <;> exact Leaks.pure _

lemma leaks_write (r : Request) : Leaks Short (ticfgWrite fuel r) := by
  rw [ticfgWrite]
  split
  · exact Leaks.pure _
  · refine Leaks.acquire (Releases.bind (quiet_mtdRegion _ _ _ _ _) fun p => ?_)
    dsimp only
    split <;> exact Releases.release (Leaks.pure _)

lemma leaks_pageLoop (limit : ℤ) (k i : ℕ) (text : Bytes) :
    Leaks Short (pageLoop limit k i text) := by
  induction k generalizing i text with
  | zero => exact Leaks.bind (leaks_getVariable i) fun _ => Leaks.pure _
  | succ k ih =>
    refine Leaks.bind (leaks_getVariable i) fun pvar => ?_
    cases pvar with
    | none => exact Leaks.pure _
    | some pvar =>
      refine Leaks.bind (leaks_getValue pvar) fun pval => ?_
      cases pval with
      | none => exact ih _ _
      | some pval =>
        dsimp only
        split
        · exact Leaks.pure _
        · exact ih _ _

lemma leaks_procReadEnv (lastIndex pos count : ℕ) :
    Leaks Short (ticfgProcReadEnv lastIndex pos count) :=
  Leaks.bind (leaks_pageLoop _ _ _ _) fun _ => Leaks.pure _

lemma leaks_procWriteEnv (buffer : Bytes) : Leaks Short (ticfgProcWriteEnv fuel buffer) := by
  rw [ticfgProcWriteEnv]
  split
  · exact Leaks.fault
  refine Leaks.bind (Leaks.query fun _ => id) fun ok => ?_
  split
  · exact Leaks.pure _
  split
  · refine Leaks.bind (leaks_setVariable _ _) fun ret => ?_
    split
    · refine Leaks.bind (leaks_defrag fuel) fun _ => ?_
      exact Leaks.bind (leaks_setVariable _ _) fun _ => Leaks.pure _
    · exact Leaks.pure _
  · exact Leaks.bind (leaks_setVariable _ _) fun _ => Leaks.pure _

inductive Op
  | getVariable (idx : ℕ)
  | getValue (var : Bytes)
  | getValueDirect (var : Bytes)
  | setVariable (var : Bytes) (val : Option Bytes)
  | unsetVariable (var : Bytes)
  | defrag
  | read (r : Request)
  | write (r : Request)
  | ioctl (cmd : ℕ)
  | procRead (lastIndex pos count : ℕ)
  | procWrite (buffer : Bytes)

/-- The call, without what it returns. -/
def Op.script (fuel : ℕ) : Op → Call Unit
  | .getVariable idx => do let _ ← adam2EnvGetVariable idx
  | .getValue var => do let _ ← adam2EnvGetValue var
  | .getValueDirect var => do let _ ← adam2EnvGetValueDirect var
  | .setVariable var val => do let _ ← adam2EnvSetVariable var val
  | .unsetVariable var => do let _ ← adam2EnvUnsetVariable var
  | .defrag => do let _ ← adam2EnvDefrag fuel
  | .read r => do let _ ← ticfgRead fuel r
  | .write r => do let _ ← ticfgWrite fuel r
  | .ioctl cmd => do let _ ← ticfgIoctl fuel cmd
  | .procRead lastIndex pos count => do let _ ← ticfgProcReadEnv lastIndex pos count
  | .procWrite buffer => do let _ ← ticfgProcWriteEnv fuel buffer

lemma Op.leaks (op : Op) : Leaks Short (op.script fuel) := by
  cases op with
  | getVariable idx => exact Leaks.bind (leaks_getVariable idx) fun _ => Leaks.pure ()
  | getValue var => exact Leaks.bind (leaks_getValue var) fun _ => Leaks.pure ()
  | getValueDirect var => exact Leaks.bind (leaks_getValueDirect var) fun _ => Leaks.pure ()
  | setVariable var val => exact Leaks.bind (leaks_setVariable var val) fun _ => Leaks.pure ()
  | unsetVariable var => exact Leaks.bind (leaks_setVariable var none) fun _ => Leaks.pure ()
  | defrag => exact Leaks.bind (leaks_defrag fuel) fun _ => Leaks.pure ()
  | read r => exact Leaks.bind (leaks_read fuel r) fun _ => Leaks.pure ()
  | write r => exact Leaks.bind (leaks_write fuel r) fun _ => Leaks.pure ()
  | ioctl cmd => exact Leaks.bind (leaks_ioctl fuel cmd) fun _ => Leaks.pure ()
  | procRead lastIndex pos count =>
    exact Leaks.bind (leaks_procReadEnv lastIndex pos count) fun _ => Leaks.pure ()
  | procWrite buffer => exact Leaks.bind (leaks_procWriteEnv fuel buffer) fun _ => Leaks.pure ()

def Op.run (fuel : ℕ) (op : Op) (dev : Script.Device Query Answer) : Script.Run Query Answer Unit :=
  Script.run dev false 0 (op.script fuel)

theorem regionLock_iff (fuel : ℕ) (op : Op) (dev : Script.Device Query Answer) :
    (op.run fuel dev).result.Clean ↔ ∀ x ∈ (op.run fuel dev).answers, ¬ Short x :=
  (op.leaks fuel).free dev 0

/-- The device of `willing` gives nothing of an entry. The first call keeps the lock, the second
asks for it again. -/
theorem regionLock_fails_short :
    (Op.run 0 (.getVariable 0) willing).result = .returned true () ∧
      (Op.run 0 (.procWrite (ofString "a b\n")) willing).result = .relocked := by
  constructor <;> rfl

end DslG624t.Ticfg.Calls
