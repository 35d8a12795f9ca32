import DslG624t.Env.Table
import DslG624t.Lib.Flash

/-!
# The environment store

The functions of `env.c` on the bytes of the environment region. Flash operations succeed,
allocations answer as the state says.
-/

namespace DslG624t.Env

open CString Flash

inductive Status where
  | success
  | efailure
  | erescrunch
  deriving DecidableEq

def envCellSize : ℕ := 16

def envRegionSize (envSize : ℕ) : Option ℕ → ℕ
  | none => envSize
  | some envSpaceSize => if envSize > envSpaceSize then envSpaceSize else envSize

/-- What the build and the boot loader fix. `envSpaceSize` is `ENV_SPACE_SIZE`, if defined. -/
structure EnvConfig where
  table : EnvTable
  envSize : ℕ
  envSpaceSize : Option ℕ
  standalone : Bool
  permanentVariables : Bool
  size_ge : envCellSize ≤ envRegionSize envSize envSpaceSize

namespace EnvConfig

variable (cfg : EnvConfig)

def size : ℕ := envRegionSize cfg.envSize cfg.envSpaceSize

def maxEnvVarsNum : ℕ := cfg.envSize / envCellSize-1

lemma size_le : cfg.size ≤ cfg.envSize := by
  unfold size envRegionSize
  split
  · exact le_refl _
  · split <;> omega

end EnvConfig

def ar7Config : EnvConfig := ⟨ar7Table,0x10000,some (10*1024),false,false,by decide⟩

/-- The flash from `env_base` on, and the answers of the next calls of `_malloc`; later calls
succeed. -/
structure EnvState where
  mem : Bytes
  allocs : List Bool

def nextAlloc : List Bool → Bool × List Bool
  | [] => (true,[])
  | ok :: allocs => (ok,allocs)

def malloc (s : EnvState) : Bool × EnvState :=
  ((nextAlloc s.allocs).1,{ s with allocs := (nextAlloc s.allocs).2 })

def varNum (x : Bytes) : UInt8 := x.getD 0 0

def ctrl (x : Bytes) : UInt8 := x.getD 1 0

def chksum (x : Bytes) : UInt16 := (x.getD 2 0).toUInt16+(x.getD 3 0).toUInt16*256

def numCells (x : Bytes) : UInt8 := x.getD 4 0

def data (x : Bytes) : Bytes := x.drop 5

def envGarbageBit : UInt8 := 0x01

def envDynamicBit : UInt8 := 0x02

def envPermBit : UInt8 := 0x04

def isEnvGarbage (c : UInt8) : Bool := c &&& envGarbageBit = 0

def isEnvDynamic (c : UInt8) : Bool := c &&& envDynamicBit = 0

def isEnvPerm (c : UInt8) : Bool := c &&& envPermBit = 0

def envGetNextBlock (m : Bytes) (p : ℕ) : ℕ :=
  p+(numCells (m.drop p)).toNat*envCellSize

def garbageWrite (m : Bytes) (p : ℕ) : ℕ × UInt8 :=
  (p+1,ctrl (m.drop p) &&& ~~~ envGarbageBit)

def envMakeGarbage (m : Bytes) (p : ℕ) : Bytes := programAll m [garbageWrite m p]

def byteSum (bs : Bytes) : UInt16 := (bs.map UInt8.toUInt16).sum

def blockLoop (cfg : EnvConfig) (m : Bytes) (index : ℕ) : ℕ → ℕ → ℕ → Option (Option ℕ)
  | 0, _, _ => none
  | fuel+1, p, count =>
    if p < cfg.size ∧ varNum (m.drop p) ≠ 0xFF then
      if isEnvGarbage (ctrl (m.drop p)) then
        blockLoop cfg m index fuel (envGetNextBlock m p) count
      else if count = index then some (some p)
      else blockLoop cfg m index fuel (envGetNextBlock m p) (count+1)
    else some none

def getEnvBlockByNumber (fuel : ℕ) (cfg : EnvConfig) (m : Bytes) (index : ℕ) :
    Option (Option ℕ) :=
  blockLoop cfg m index fuel envCellSize 0

/-- Name and value of a record, and memory after a record with a wrong checksum was turned into
garbage. -/
def getNameAndValueFromEnvVar (cfg : EnvConfig) (m : Bytes) (p : ℕ) :
    Option Bytes × Option Bytes × Bytes :=
  let x := m.drop p
  let dynamic := isEnvDynamic (ctrl x)
  let ppName :=
    if dynamic then some (cstr (data x)) else cfg.table.nameOf (varNum x).toNat
  let ppValue := if dynamic then cstr ((data x).drop (strlen (data x)+1)) else cstr (data x)
  let sum := (varNum x).toUInt16+(ctrl x).toUInt16+(numCells x).toUInt16+byteSum ppValue +
    (if dynamic then byteSum (cstr (data x)) else 0)+chksum x
  if ~~~ sum ≠ 0 then (none,none,envMakeGarbage m p) else (ppName,some ppValue,m)

def nameLoop (fuel : ℕ) (cfg : EnvConfig) (m : Bytes) (var : Bytes) : ℕ → ℕ → Option (Option ℕ)
  | 0, _ => some none
  | left+1, i =>
    (getEnvBlockByNumber fuel cfg m i).bind fun
      | none => some none
      | some p =>
        let index := cfg.table.index var
        if (if index ≠ 0 then (varNum (m.drop p)).toNat = index
          else strcmp var (data (m.drop p)) = 0) then some (some p)
        else nameLoop fuel cfg m var left (i+1)

def getEnvBlockByName (fuel : ℕ) (cfg : EnvConfig) (m : Bytes) (var : Bytes) :
    Option (Option ℕ) :=
  nameLoop fuel cfg m var cfg.maxEnvVarsNum 0

def sysGetenv (fuel : ℕ) (cfg : EnvConfig) (m : Bytes) (var : Bytes) :
    Option (Option Bytes × Bytes) :=
  (getEnvBlockByName fuel cfg m var).map fun
    | none => (none,m)
    | some p => (getNameAndValueFromEnvVar cfg m p).2

def sysGetivar (fuel : ℕ) (cfg : EnvConfig) (m : Bytes) (varNum : ℕ) :
    Option (Option Bytes × Bytes) :=
  (getEnvBlockByNumber fuel cfg m varNum).map fun
    | none => (none,m)
    | some pVar =>
      let (pName,_,m) := getNameAndValueFromEnvVar cfg m pVar
      (pName,m)

/-- The walk of `__sys_setenv` to the end of the log, with `IsGarbagePresent`. -/
def endLoop (cfg : EnvConfig) (m : Bytes) : ℕ → ℕ → Bool → Option (ℕ × Bool)
  | 0, _, _ => none
  | fuel+1, p, garbage =>
    if p < cfg.size ∧ varNum (m.drop p) ≠ 0xFF then
      endLoop cfg m fuel (envGetNextBlock m p) (garbage || isEnvGarbage (ctrl (m.drop p)))
    else some (p,garbage)

def newVarNum (cfg : EnvConfig) (nm : Bytes) : UInt8 := UInt8.ofNat (cfg.table.index nm)

def newCtrl (cfg : EnvConfig) (nm : Bytes) (perm : Bool) : UInt8 :=
  let c : UInt8 := if newVarNum cfg nm = 0 then 0xFF &&& ~~~ envDynamicBit else 0xFF
  if cfg.permanentVariables && perm then c &&& ~~~ envPermBit else c

def newText (cfg : EnvConfig) (nm val : Bytes) : Bytes :=
  (if newVarNum cfg nm = 0 then nm ++ [0] else []) ++ (val ++ [0])

def cellsNeeded (cfg : EnvConfig) (nm val : Bytes) : ℕ :=
  let newsize := 5+(newText cfg nm val).length
  newsize / envCellSize+(if newsize % envCellSize ≠ 0 then 1 else 0)

def newCells (cfg : EnvConfig) (nm val : Bytes) : UInt8 := UInt8.ofNat (cellsNeeded cfg nm val)

def newChksum (cfg : EnvConfig) (nm val : Bytes) (perm : Bool) : UInt16 :=
  ~~~ ((newVarNum cfg nm).toUInt16+(newCtrl cfg nm perm).toUInt16 +
    (if newVarNum cfg nm = 0 then byteSum nm else 0)+(newCells cfg nm val).toUInt16 +
    byteSum val)

def newHeader (cfg : EnvConfig) (nm val : Bytes) (perm : Bool) : Bytes :=
  [newVarNum cfg nm,newCtrl cfg nm perm,(newChksum cfg nm val perm).toUInt8,
    (newChksum cfg nm val perm >>> 8).toUInt8,newCells cfg nm val]

/-- What `__sys_setenv` does once it has looked through the log: answer at once, write, or find
the region full, with `IsGarbagePresent`. -/
inductive SetPlan where
  | answer
  | write (ws : List (ℕ × UInt8))
  | full (garbage : Bool)

/-- `__sys_setenv` up to its writes, and memory as looking up the old value left it. -/
def setenvPlan (fuel : ℕ) (cfg : EnvConfig) (m nm val : Bytes) (perm : Bool) :
    Option (Bytes × SetPlan) :=
  (sysGetenv fuel cfg m nm).bind fun (pTmp,m) =>
    if pTmp = some val then some (m,.answer)
    else
      (if pTmp.isSome then getEnvBlockByName fuel cfg m nm else some none).bind fun pOldEnv =>
        if pOldEnv.any fun p => isEnvPerm (ctrl (m.drop p)) then some (m,.answer)
        else
          (endLoop cfg m fuel envCellSize pTmp.isSome).map fun (pVar,garbage) =>
            if pVar+(newCells cfg nm val).toNat*envCellSize > cfg.size then (m,.full garbage)
            else
              (m,.write (writesAt pVar (newHeader cfg nm val perm ++ newText cfg nm val) ++
                (pOldEnv.map (garbageWrite m)).toList))

structure Saved where
  name : Bytes
  value : Bytes
  perm : Bool

def saveLoop (fuel : ℕ) (cfg : EnvConfig) :
    ℕ → ℕ → EnvState → List Saved → Option (Bool × EnvState × List Saved)
  | 0, _, s, saved => some (true,s,saved)
  | left+1, i, s, saved =>
    (getEnvBlockByNumber fuel cfg s.mem i).bind fun
      | none => some (true,s,saved)
      | some p =>
        match getNameAndValueFromEnvVar cfg s.mem p with
        | (some pName,some pValue,m) =>
          let s := { s with mem := m }
          if (malloc s).1 then
            saveLoop fuel cfg left (i+1) (malloc s).2
              (saved ++ [⟨pName,pValue,isEnvPerm (ctrl (m.drop p))⟩])
          else some (false,(malloc s).2,saved)
        | (_,_,m) => saveLoop fuel cfg left (i+1) { s with mem := m } saved

def envVersion : Bytes := ofString "TIENV0.8"

/-- Erase the region and write the version; what follows a region smaller than its flash
section is kept in RAM meanwhile. -/
def formatEnvBlock (cfg : EnvConfig) (s : EnvState) : Status × EnvState :=
  match cfg.envSpaceSize with
  | none =>
    (.success,{ s with
      mem := programAll (erase s.mem cfg.size) (writesAt 0 (envVersion ++ [0])) })
  | some envSpaceSize =>
    if (malloc s).1 then
      let extra := (s.mem.drop envSpaceSize).take (cfg.envSize-cfg.size)
      (.success,{ (malloc s).2 with
        mem := programAll (programAll (erase s.mem cfg.size) (writesAt 0 (envVersion ++ [0])))
          (writesAt envSpaceSize extra) })
    else (.efailure,(malloc s).2)

def restoreLoop (cfg : EnvConfig)
    (setenv : EnvState → Bytes → Bytes → Bool → Option (Status × EnvState)) :
    List Saved → EnvState → Option EnvState
  | [], s => some s
  | v :: saved, s =>
    (setenv s v.name v.value (cfg.permanentVariables && v.perm)).bind fun (_,s) =>
      restoreLoop cfg setenv saved s

/-- `sys_defragenv`, for a `__sys_setenv` to restore with. -/
def sysDefragenvWith (fuel : ℕ) (cfg : EnvConfig)
    (setenv : EnvState → Bytes → Bytes → Bool → Option (Status × EnvState)) (s : EnvState) :
    Option (Status × EnvState) :=
  if !(malloc s).1 then some (.erescrunch,(malloc s).2)
  else
    let r := if cfg.permanentVariables then malloc (malloc s).2 else (true,(malloc s).2)
    -- Without `IsPerm` the loop at the error label follows pointers that were never set.
    if !r.1 then none
    else
      (saveLoop fuel cfg cfg.maxEnvVarsNum 0 r.2 []).bind fun (ok,s,saved) =>
        let (status,s) := if ok then formatEnvBlock cfg s else (.efailure,s)
        (restoreLoop cfg setenv saved s).map fun s =>
          (if status = .success then .success else .erescrunch,s)

/-- `__sys_setenv`, with its `perm`. A full region with garbage in it is compacted and the call made again. -/
def sysSetenvPerm (fuel : ℕ) (cfg : EnvConfig) :
    ℕ → EnvState → Bytes → Bytes → Bool → Option (Status × EnvState)
  | 0, _, _, _, _ => none
  | depth+1, s, nm, val, perm =>
    (setenvPlan fuel cfg s.mem nm val perm).bind fun
      | (m,.answer) => some (.success,{ s with mem := m })
      | (m,.write ws) => some (.success,{ s with mem := programAll m ws })
      | (m,.full garbage) =>
        let s := { s with mem := m }
        if garbage then
          (sysDefragenvWith fuel cfg (sysSetenvPerm fuel cfg depth) s).bind fun (status,s) =>
            if status = .success then sysSetenvPerm fuel cfg depth s nm val perm
            else some (.erescrunch,s)
        else some (.erescrunch,s)

def sysDefragenv (fuel depth : ℕ) (cfg : EnvConfig) (s : EnvState) : Option (Status × EnvState) :=
  sysDefragenvWith fuel cfg (sysSetenvPerm fuel cfg depth) s

def sysSetenv (fuel depth : ℕ) (cfg : EnvConfig) (s : EnvState) (nm val : Option Bytes) :
    Option (Status × EnvState) :=
  match nm, val with
  | some nm, some val =>
    if !cfg.standalone && isReadOnlyVar nm then some (.success,s)
    else sysSetenvPerm fuel cfg depth s nm val false
  | _, _ => some (.efailure,s)

def sysUnsetenv (fuel : ℕ) (cfg : EnvConfig) (s : EnvState) (nm : Bytes) :
    Option (Status × EnvState) :=
  if isReadOnlyVar nm then some (.efailure,s)
  else
    (getEnvBlockByName fuel cfg s.mem nm).map fun
      | none => (.efailure,s)
      | some p =>
        if cfg.permanentVariables && isEnvPerm (ctrl (s.mem.drop p)) then (.efailure,s)
        else (.success,{ s with mem := envMakeGarbage s.mem p })

end DslG624t.Env
