import DslG624t.Env.Table

/-!
# The environment store of the Adam2 boot loader

`adam2_env.c` keeps the environment in 80 slots of 128 bytes. All reads and writes of the flash
succeed and every allocation of the readers does. What the scan buffer of `adam2_env_set_variable`
is followed by in memory is an argument, since the function reads on behind it.
-/

namespace DslG624t.Adam2

open CString
open Env (CStr lit)

def flashEnvEntrySize : ℕ := 128
def maxEnvEntry : ℕ := 80

def erasedSlot : Bytes := List.replicate flashEnvEntrySize 0xff

abbrev Region := List Bytes

def erasedRegion : Region := List.replicate maxEnvEntry erasedSlot

def control (slot : Bytes) : UInt8 := slot.getD 0 0
def checksum (slot : Bytes) : UInt8 := slot.getD 1 0
def index (slot : Bytes) : ℕ := (slot.getD 2 0).toNat
def size (slot : Bytes) : ℕ := (slot.getD 3 0).toNat
def payload (slot : Bytes) : Bytes := slot.drop 4

/-- What a slot holds.  Readers differ in what they do about a `malformed` entry, whose strings
are too long, and a `corrupt` one, whose checksum or size is wrong. -/
inductive Decoded
  | free
  | foreign
  | unset (index : ℕ)
  | malformed
  | corrupt
  | set (index : ℕ) (var val : Bytes)
  deriving DecidableEq

def secondString (m : Bytes) : Bytes := cstr (m.drop (strlen m+1))

def decode (slot : Bytes) : Decoded :=
  if control slot = 0xff then .free
  else if control slot ≠ 0x42 then .foreign
  else if size slot = 0 then .unset (index slot)
  else if flashEnvEntrySize-4 < size slot then .malformed
  else
    let s1 := cstr (payload slot)
    let s2 := secondString (payload slot)
    if flashEnvEntrySize-5 < s1.length then .malformed
    else if flashEnvEntrySize-5 < s2.length then .malformed
    else if flashEnvEntrySize-6 < s2.length+s1.length then .malformed
    else if checksum slot ≠ ((payload slot).take (size slot)).sum then .corrupt
    else if size slot < s1.length+s2.length+2 ∨ s1.length+s2.length+2+3 < size slot then
      .corrupt
    else .set (index slot) s1 s2

def lastWith (idx : ℕ) : Option Bytes → List Bytes → Option Bytes
  | last, [] => last
  | last, slot :: slots =>
    if control slot = 0xff then last
    else lastWith idx (if index slot = idx ∧ control slot = 0x42 then some slot else last) slots

def adam2EnvGetVariable (r : Region) (idx : ℕ) : Option Bytes :=
  match (lastWith idx none r).map decode with
  | some (.set _ var _) => some var
  | _ => none

/-- The loop of `adam2_env_get_value`: `variable_index` and `p_value` are set and cleared
together. -/
def valueLoop (var : Bytes) : Option (ℕ × Bytes) → List Bytes → Option (ℕ × Bytes)
  | found, [] => found
  | found, slot :: slots =>
    match decode slot with
    | .free => found
    | .foreign => valueLoop var found slots
    | .malformed => valueLoop var found slots
    | .corrupt => found
    | .set idx name val => valueLoop var (if name = var then some (idx,val) else found) slots
    | .unset idx => valueLoop var (if found.map Prod.fst = some idx then none else found) slots

def adam2EnvGetValue (r : Region) (var : Bytes) : Option Bytes :=
  (valueLoop var none r).map Prod.snd

/-- `highest_index`, and `variable_index` where `found` is `TRUE`. -/
structure Scan where
  highest : ℤ
  variableIndex : Option ℕ
  deriving DecidableEq

/-- Where a scan ends: the free slot, what it found, and the bytes in the scan buffer. -/
structure Stop where
  emptyEntryIdx : Option ℕ
  scan : Scan
  entry : Bytes

def Scan.set (st : Scan) (var : Bytes) (idx : ℕ) (name : Bytes) : Scan :=
  ⟨max st.highest idx,if name = var then some idx else st.variableIndex⟩

def Scan.unset (st : Scan) (idx : ℕ) : Scan :=
  ⟨if (idx : ℤ) = st.highest then idx-1 else st.highest,
    if st.variableIndex = some idx then none else st.variableIndex⟩

/-- The loop of `adam2_env_set_variable`, `none` where it returns 1. -/
def scanLoop (var : Bytes) : ℕ → Bytes → Scan → List Bytes → Option Stop
  | _, entry, st, [] => some ⟨none,st,entry⟩
  | i, _, st, slot :: slots =>
    match decode slot with
    | .free => some ⟨some i,st,slot⟩
    | .set idx name _ => scanLoop var (i+1) slot (st.set var idx name) slots
    | .unset idx => scanLoop var (i+1) slot (st.unset idx) slots
    | _ => none

def fillEntry (entry : Bytes) (checksum index size : UInt8) (var val : Bytes) : Bytes :=
  let new := [0x42,checksum,index,size] ++ (var ++ 0 :: (val ++ [0]))
  new ++ entry.drop new.length

/-- What `adam2_env_set_variable` returns, leaves in flash and whether it wrote to it. -/
structure Result where
  ret : ℕ
  region : Region
  wrote : Bool

def Scan.newIndex (st : Scan) : UInt8 :=
  match st.variableIndex with
  | some k => UInt8.ofNat k
  | none => UInt8.ofInt (st.highest+1)

/-- The part of `adam2_env_set_variable` behind the search for a free slot. -/
def writeEntry (r : Region) (i : ℕ) (stop : Stop) (var : Bytes) (val : Option Bytes) : Result :=
  let idx := stop.scan.newIndex
  match val with
  | none => ⟨0,r.set i (fillEntry stop.entry 0 idx 0 [] []),true⟩
  | some v =>
    let size := var.length+v.length+2
    if flashEnvEntrySize-4 < size then ⟨6,r,false⟩
    else ⟨0,r.set i (fillEntry stop.entry (var.sum+v.sum) idx (UInt8.ofNat size) var v),true⟩

/-- `adam2_env_set_variable`, with the memory behind its scan buffer.  The value it compares with
the new one is not in `last_entry` but behind the name in the scan buffer. -/
def adam2EnvSetVariable (stack : Bytes) (r : Region) (var : Bytes) (val : Option Bytes) :
    Result :=
  match scanLoop var 0 [] ⟨0,none⟩ r with
  | none => ⟨1,r,false⟩
  | some stop =>
    if stop.scan.variableIndex.isSome ∧ val = some (secondString (payload stop.entry ++ stack)) then
      ⟨0,r,false⟩
    else match stop.emptyEntryIdx with
      | none => ⟨if val.isSome then 4 else 5,r,false⟩
      | some i => writeEntry r i stop var val

def adam2EnvUnsetVariable (stack : Bytes) (r : Region) (var : Bytes) : Result :=
  adam2EnvSetVariable stack r var none

/-- The flash section: the environment and the configuration manager's part behind it. -/
structure Mtd where
  env : Region
  cfgman : Bytes

def ticfgEraseEnvVars (mtd : Mtd) : Mtd :=
  let kbuf := mtd.cfgman
  let erased : Mtd := ⟨erasedRegion,List.replicate mtd.cfgman.length 0xff⟩
  { erased with cfgman := kbuf }

def special (var : Bytes) : Bool :=
  var = ofString "autoload" || var = ofString "dhcp" || var = ofString "crash"

/-- The first pass of `adam2_env_defrag` over the indices.  Such a name without a value makes it
copy from the null pointer. -/
def collect (r : Region) : List ℕ → Option (List (Bytes × Bytes))
  | [] => some []
  | i :: is =>
    match adam2EnvGetVariable r i with
    | none => collect r is
    | some var =>
      match adam2EnvGetValue r var with
      | some val => (collect r is).map ((var,val) :: ·)
      | none => if special var then none else collect r is

def restore (stack : ℕ → Bytes) : ℕ → Region → List (Bytes × Bytes) → Region
  | _, r, [] => r
  | j, r, (var,val) :: saved =>
    restore stack (j+1) (adam2EnvSetVariable (stack j) r var (some val)).region saved

def adam2EnvDefrag (stack : ℕ → Bytes) (mtd : Mtd) : Option Mtd := do
  let saved ← collect mtd.env (List.range maxEnvEntry)
  let mtd := ticfgEraseEnvVars mtd
  some { mtd with env := restore stack 0 mtd.env saved }

inductive Op
  | set (stack : Bytes) (var val : CStr)
  | unset (stack : Bytes) (var : CStr)

def Op.result (r : Region) : Op → Result
  | .set stack var val => adam2EnvSetVariable stack r var (some val)
  | .unset stack var => adam2EnvUnsetVariable stack r var

def run (r : Region) (ops : List Op) : Region := ops.foldl (fun r op => (op.result r).region) r

end DslG624t.Adam2
