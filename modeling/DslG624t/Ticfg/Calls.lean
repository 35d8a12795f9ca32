import DslG624t.Ticfg.Device
import DslG624t.Ticfg.ProcRead

/-!
# The calls that share the configuration region

The operations of `adam2_env.c` and `ticfg_dev.c` once more, now with what the flash, the
allocator and user space may answer, and with the lock of the region.
-/

namespace DslG624t.Ticfg.Calls

open CString List
open Script (Computes query acquire release)
open Adam2 (Decoded Scan Stop Region decode control index payload secondString fillEntry
  flashEnvEntrySize maxEnvEntry)

def eio : ℤ := 5

def getMtdDevice : Call Bool := query Query.getMtdDevice

/-- The head of the loops over the entries: `none` where the read was short, which the lock
outlives. -/
def readEntry (i : ℕ) : Call (Option Bytes) := do
  acquire
  let r ← query (Query.readEntry i)
  if r.bytesRead ≠ flashEnvEntrySize then pure none
  else
    release
    pure (some r.entry)

/-- The loop of `adam2_env_get_variable` over the entries from `i` on. -/
def variableLoop (idx : ℕ) : ℕ → ℕ → Option Bytes → Call (Option Bytes)
  | 0, _, last => pure last
  | k+1, i, last => do
    match ← readEntry i with
    | none => pure last
    | some slot =>
      if control slot = 0xff then pure last
      else
        let hit := index slot = idx ∧ control slot = 0x42
        variableLoop idx k (i+1) (if hit then some slot else last)

def adam2EnvGetVariable (idx : ℕ) : Call (Option Bytes) := do
  if !(← getMtdDevice) then pure none
  else match (← variableLoop idx maxEnvEntry 0 none).map decode with
    | some (.set _ var _) => do
      if !(← kmalloc (var.length+1)) then pure none else pure (some var)
    | _ => pure none

/-- The loop of `adam2_env_get_value`. -/
def valueLoop (var : Bytes) : ℕ → ℕ → Option (ℕ × Bytes) → Call (Option (ℕ × Bytes))
  | 0, _, found => pure found
  | k+1, i, found => do
    match ← readEntry i with
    | none => pure found
    | some slot =>
      match decode slot with
      | .free => pure found
      | .foreign => valueLoop var k (i+1) found
      | .malformed => valueLoop var k (i+1) found
      | .corrupt => pure found
      | .set idx name val => do
        if name = var then
          if !(← kmalloc (val.length+1)) then pure none
          else valueLoop var k (i+1) (some (idx,val))
        else valueLoop var k (i+1) found
      | .unset idx =>
        valueLoop var k (i+1) (if found.map Prod.fst = some idx then none else found)

def adam2EnvGetValue (var : Bytes) : Call (Option Bytes) := do
  if !(← getMtdDevice) then pure none
  else return (← valueLoop var maxEnvEntry 0 none).map Prod.snd

def isxdigit (c : UInt8) : Bool :=
  (0x30 ≤ c && c ≤ 0x39) || (0x41 ≤ c && c ≤ 0x46) || (0x61 ≤ c && c ≤ 0x66)

def xdigit (c : UInt8) : ℕ :=
  if c ≤ 0x39 then c.toNat-0x30 else (c &&& 0x5f).toNat-0x41+10

def atoxLoop : ℕ → Bytes → Option ℕ
  | tmp, [] => some tmp
  | tmp, c :: str =>
    if isxdigit c then atoxLoop ((tmp*16+xdigit c) % 0x100000000) str
    else if c = 0x2c then some tmp
    else none

def adam2EnvAtox : Bytes → Option ℕ
  | 0x30 :: 0x78 :: str => atoxLoop 0 str
  | _ => none

def adam2EnvGetValueDirect (var : Bytes) : Call (Option Bytes) := do
  if !(← query Query.mtdReady) then pure none
  else match ← adam2EnvGetValue (ofString "mtd3") with
    | none => pure none
    | some pval =>
      match adam2EnvAtox pval with
      | none => pure none
      | some base => do
        acquire
        let slots ← query (Query.flash base)
        release
        pure ((Adam2.valueLoop var none (slots.take maxEnvEntry)).map Prod.snd)

/-- The loop of `adam2_env_set_variable`, `none` where the function returns 1. -/
def scanLoop (var : Bytes) : ℕ → ℕ → Bytes → Scan → Call (Option Stop)
  | 0, _, entry, st => pure (some ⟨none,st,entry⟩)
  | k+1, i, _, st => do
    match ← readEntry i with
    | none => pure none
    | some slot =>
      match decode slot with
      | .free => pure (some ⟨some i,st,slot⟩)
      | .set idx name _ => scanLoop var k (i+1) slot (st.set var idx name)
      | .unset idx => scanLoop var k (i+1) slot (st.unset idx)
      | _ => pure none

def newEntry (stop : Stop) (var : Bytes) (val : Option Bytes) : Option Bytes :=
  let idx := stop.scan.newIndex
  match val with
  | none => some (fillEntry stop.entry 0 idx 0 [] [])
  | some v =>
    let size := var.length+v.length+2
    if flashEnvEntrySize-4 < size then none
    else some (fillEntry stop.entry (var.sum+v.sum) idx (UInt8.ofNat size) var v)

/-- The end of `adam2_env_set_variable`, with the lock around the write only. -/
def writeEntry (i : ℕ) (stop : Stop) (var : Bytes) (val : Option Bytes) : Call ℕ :=
  match newEntry stop var val with
  | none => pure 6
  | some entry => do
    acquire
    let _ ← query (Query.writeEntry i entry)
    release
    pure 0

def adam2EnvSetVariable (var : Bytes) (val : Option Bytes) : Call ℕ := do
  if !(← getMtdDevice) then pure 1
  else match ← scanLoop var maxEnvEntry 0 [] ⟨0,none⟩ with
    | none => pure 1
    | some stop => do
      let stack ← query Query.behindEntry
      let same := val = some (secondString (payload stop.entry ++ stack))
      if stop.scan.variableIndex.isSome ∧ same then pure 0
      else match stop.emptyEntryIdx with
        | none => pure (if val.isSome then 4 else 5)
        | some i => writeEntry i stop var val

def adam2EnvUnsetVariable (var : Bytes) : Call ℕ := adam2EnvSetVariable var none

def sizeofEraseInfo : ℕ := 44

def ticfgEraseMtdRegion : Call ℤ := do
  if !(← kmalloc sizeofEraseInfo) then pure (-enomem) else query Query.erase

/-- The region is erased as a whole, and one of its two parts read before and written back. -/
def eraseKeeping (fuel offset size : ℕ) : Call ℤ := do
  if !(← kmalloc size) then pure (-enomem)
  else
    acquire
    let (ret,_) ← ticfgReadMtdRegion fuel offset size
    if ret ≠ 0 then
      release
      pure ret
    else
      let ret ← ticfgEraseMtdRegion
      if ret ≠ 0 then
        release
        pure ret
      else
        let (ret,_) ← ticfgWriteMtdRegion fuel offset size
        release
        pure ret

def ticfgEraseCfgman (fuel : ℕ) : Call ℤ := eraseKeeping fuel 0 envVarMtdSize

def ticfgEraseEnvVars (fuel : ℕ) : Call ℤ := eraseKeeping fuel cfgmanMtdOffset cfgmanMtdSize

def ticfgIoctlErase : ℕ := 0

def ticfgIoctl (fuel cmd : ℕ) : Call ℤ :=
  if cmd = ticfgIoctlErase then ticfgEraseCfgman fuel else pure 0

/-- The first pass of `adam2_env_defrag` over the indices from `i` on. A name that is kept without
a value makes it copy from the null pointer. -/
def collect : ℕ → ℕ → Call (List (Bytes × Bytes))
  | 0, _ => pure []
  | k+1, i => do
    match ← adam2EnvGetVariable i with
    | none => collect k (i+1)
    | some var =>
      match ← adam2EnvGetValue var with
      | some val => return (var,val) :: (← collect k (i+1))
      | none => if Adam2.special var then .fault else collect k (i+1)

def restore : List (Bytes × Bytes) → Call Unit
  | [] => pure ()
  | (var,val) :: saved => do
    let _ ← adam2EnvSetVariable var (some val)
    restore saved

def adam2EnvDefrag (fuel : ℕ) : Call ℤ := do
  let saved ← collect maxEnvEntry 0
  if !(← getMtdDevice) then pure (-eio)
  else
    let ret ← ticfgEraseEnvVars fuel
    if ret ≠ 0 then pure ret
    else
      restore saved
      pure 0

/-- The loop of `ticfg_proc_read_env`. The index of an entry is a byte, so there is no variable
from 256 on. -/
def pageLoop (limit : ℤ) : ℕ → ℕ → Bytes → Call Page
  | 0, i, text => do
    let _ ← adam2EnvGetVariable i
    pure ⟨i,text,false⟩
  | k+1, i, text => do
    match ← adam2EnvGetVariable i with
    | none => pure ⟨i,text,false⟩
    | some pvar =>
      match ← adam2EnvGetValue pvar with
      | none => pageLoop limit k (i+1) text
      | some pval =>
        let tmplen := pval.length+pvar.length+2
        if ((text.length+tmplen : ℕ) : ℤ) > limit then pure ⟨i,text,true⟩
        else pageLoop limit k (i+1) (text ++ formatLine pvar pval)

/-- What the call replies, and the static `last_index` it leaves. -/
def ticfgProcReadEnv (lastIndex pos count : ℕ) : Call (Reply × ℕ) := do
  let limit : ℤ := count-80
  let start := if pos = 0 then 0 else lastIndex
  let page ← pageLoop limit (256-start) start []
  let len : ℤ := page.text.length
  pure (⟨if len > limit then limit else len,page.text,!page.breakFlag⟩,page.lastIndex)

def maxEnvDataLen : ℕ := flashEnvEntrySize

def blank (c : UInt8) : Bool := c = 0x20 || c = 0x09

def parseLine (buffer : Bytes) : Bytes × Option Bytes :=
  let envdata := cstr buffer.dropLast
  let pval := envdata.dropWhile (!blank ·)
  (envdata.takeWhile (!blank ·),if pval = [] then none else some pval.tail)

/-- `ticfg_proc_write_env`. A line longer than `envdata` is copied over the frame. -/
def ticfgProcWriteEnv (fuel : ℕ) (buffer : Bytes) : Call ℤ := do
  if maxEnvDataLen < buffer.length then .fault
  else if !(← query (Query.copyFromUser buffer.length)) then pure (-efault)
  else match parseLine buffer with
    | (pvar,some pval) => do
      if (← adam2EnvSetVariable pvar (some pval)) ≠ 0 then
        let _ ← adam2EnvDefrag fuel
        let _ ← adam2EnvSetVariable pvar (some pval)
        pure buffer.length
      else pure buffer.length
    | (pvar,none) => do
      let _ ← adam2EnvUnsetVariable pvar
      pure buffer.length

/-- A device that gives the slots of `r`, with `stack` behind the scan buffer, and does not fail. -/
structure Serves (dev : Script.Device Query Answer) (r : Region) (stack : Bytes) : Prop where
  length : r.length = maxEnvEntry
  device : ∀ n, dev n .getMtdDevice = true
  alloc : ∀ n size, dev n (.kmalloc size) = true
  entry : ∀ n (i : ℕ) slot, r[i]? = some slot → dev n (.readEntry i) = ⟨flashEnvEntrySize,slot⟩
  behind : ∀ n, dev n .behindEntry = stack

lemma lengths_of_decode {slot var val : Bytes} {idx : ℕ} (h : decode slot = .set idx var val) :
    var.length+1 ≤ kmallocMax ∧ val.length+1 ≤ kmallocMax := by
  unfold decode at h
  dsimp only at h
  split_ifs at h
  obtain ⟨-,rfl,rfl⟩ := Decoded.set.inj h
  have h128 : flashEnvEntrySize = 128 := rfl
  have hmax : kmallocMax = 131072 := rfl
  omega

lemma slot_of_drop {r : Region} {i : ℕ} {slot : Bytes} {slots : List Bytes}
    (h : r.drop i = slot :: slots) : r[i]? = some slot ∧ r.drop (i+1) = slots := by
  constructor
  · rw [← add_zero i,← getElem?_drop,h]
    rfl
  · rw [← drop_drop,h]
    rfl

lemma computes_writeEntry (dev : Script.Device Query Answer) (r : Region) (i : ℕ) (stop : Stop)
    (var : Bytes) (val : Option Bytes) :
    Computes dev (writeEntry i stop var val) (Adam2.writeEntry r i stop var val).ret := by
  cases val with
  | none => exact fun _ => rfl
  | some v =>
    by_cases hsize : flashEnvEntrySize-4 < var.length+v.length+2
    · simp only [writeEntry,newEntry,Adam2.writeEntry,if_pos hsize]
      exact .pure dev 6
    · simp only [writeEntry,newEntry,Adam2.writeEntry,if_neg hsize]
      exact fun _ => rfl

namespace Serves

variable {dev : Script.Device Query Answer} {r : Region} {stack : Bytes} (h : Serves dev r stack)
  {i : ℕ} {slots : List Bytes}

include h

lemma kmalloc {size : ℕ} (hs : size ≤ kmallocMax) : Computes dev (kmalloc size) true := by
  rw [Ticfg.kmalloc,if_neg (not_lt.mpr hs)]
  exact .query fun n => h.alloc n size

lemma readEntry {slot : Bytes} (hi : r[i]? = some slot) : Computes dev (readEntry i) (some slot) := by
  intro n
  rw [Calls.readEntry,Script.run_acquire_bind,Script.run_query_bind,h.entry n i slot hi]
  rfl

lemma variableLoop (idx : ℕ) (last : Option Bytes) (hr : r.drop i = slots) :
    Computes dev (variableLoop idx slots.length i last) (Adam2.lastWith idx last slots) := by
  induction slots generalizing i last with
  | nil => exact .pure dev last
  | cons slot slots ih =>
    obtain ⟨hi,hr⟩ := slot_of_drop hr
    refine (h.readEntry hi).bind ?_
    dsimp only
    rw [Adam2.lastWith]
    split
    · exact .pure dev last
    · exact ih _ hr

lemma getVariable (idx : ℕ) :
    Computes dev (adam2EnvGetVariable idx) (Adam2.adam2EnvGetVariable r idx) := by
  have hloop := h.variableLoop idx none (drop_zero (l := r))
  rw [h.length] at hloop
  refine .bind (.query h.device) (hloop.bind ?_)
  rw [Adam2.adam2EnvGetVariable]
  cases hlast : (Adam2.lastWith idx none r).map decode with
  | none => exact .pure dev none
  | some d =>
    cases d with
    | set i var val =>
      obtain ⟨slot,-,hd⟩ := Option.map_eq_some_iff.mp hlast
      exact (h.kmalloc (lengths_of_decode hd).1).bind (.pure dev _)
    | _ => exact .pure dev none

lemma valueLoop (var : Bytes) (found : Option (ℕ × Bytes)) (hr : r.drop i = slots) :
    Computes dev (valueLoop var slots.length i found) (Adam2.valueLoop var found slots) := by
  induction slots generalizing i found with
  | nil => exact .pure dev found
  | cons slot slots ih =>
    obtain ⟨hi,hr⟩ := slot_of_drop hr
    refine (h.readEntry hi).bind ?_
    dsimp only
    rw [Adam2.valueLoop]
    cases hd : decode slot with
    | free => exact .pure dev found
    | corrupt => exact .pure dev found
    | foreign => exact ih _ hr
    | malformed => exact ih _ hr
    | unset j => exact ih _ hr
    | set j name val =>
      dsimp only
      split
      · exact (h.kmalloc (lengths_of_decode hd).2).bind (ih _ hr)
      · exact ih _ hr

lemma getValue (var : Bytes) : Computes dev (adam2EnvGetValue var) (Adam2.adam2EnvGetValue r var) := by
  have hloop := h.valueLoop var none (drop_zero (l := r))
  rw [h.length] at hloop
  exact .bind (.query h.device) (hloop.bind (.pure dev _))

lemma scanLoop (var entry : Bytes) (st : Scan) (hr : r.drop i = slots) :
    Computes dev (scanLoop var slots.length i entry st) (Adam2.scanLoop var i entry st slots) := by
  induction slots generalizing i entry st with
  | nil => exact .pure dev _
  | cons slot slots ih =>
    obtain ⟨hi,hr⟩ := slot_of_drop hr
    refine (h.readEntry hi).bind ?_
    dsimp only
    rw [Adam2.scanLoop]
    cases decode slot with
    | set j name val => exact ih _ _ hr
    | unset j => exact ih _ _ hr
    | _ => exact .pure dev _

lemma setVariable (var : Bytes) (val : Option Bytes) : Computes dev (adam2EnvSetVariable var val)
    (Adam2.adam2EnvSetVariable stack r var val).ret := by
  have hloop := h.scanLoop var [] ⟨0,none⟩ (drop_zero (l := r))
  rw [h.length] at hloop
  refine .bind (.query h.device) (hloop.bind ?_)
  rw [Adam2.adam2EnvSetVariable]
  cases Adam2.scanLoop var 0 [] ⟨0,none⟩ r with
  | none => exact .pure dev 1
  | some stop =>
    refine .bind (.query h.behind) ?_
    dsimp only
    split
    · exact .pure dev 0
    cases stop.emptyEntryIdx with
    | none => exact .pure dev _
    | some i => exact computes_writeEntry dev r i stop var val

end Serves

/-- On a device that does not fail the calls return what the model of the store says. -/
theorem computes_of_serves {dev : Script.Device Query Answer} {r : Region} {stack : Bytes}
    (h : Serves dev r stack) :
    (∀ idx, Computes dev (adam2EnvGetVariable idx) (Adam2.adam2EnvGetVariable r idx)) ∧
    (∀ var, Computes dev (adam2EnvGetValue var) (Adam2.adam2EnvGetValue r var)) ∧
    ∀ var val, Computes dev (adam2EnvSetVariable var val)
      (Adam2.adam2EnvSetVariable stack r var val).ret :=
  ⟨h.getVariable,h.getValue,h.setVariable⟩

end DslG624t.Ticfg.Calls
