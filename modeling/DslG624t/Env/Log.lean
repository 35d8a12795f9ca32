import DslG624t.Env.Walk

/-!
# The store as a log of records

The calls of `env.c` once more, on lists of records instead of bytes.
-/

namespace DslG624t.Env

open CString Flash SplitFirst

variable {cfg : EnvConfig} {fuel : ℕ}

def Log.fits (cfg : EnvConfig) (nm val : CStr) (rs : Log cfg.table) : Bool :=
  rs.off+(newCells cfg nm val).toNat*envCellSize ≤ cfg.size

variable {rs : Log cfg.table} {r : Rec cfg.table} {rest : Bytes}

lemma Log.fits_iff {nm val : CStr} : rs.fits cfg nm val = true ↔
    rs.off+(newCells cfg nm val).toNat*envCellSize ≤ cfg.size := decide_eq_true_iff

/-- `SetPlan` on logs. A record that is replaced comes with those before and behind it. -/
inductive LogPlan (T : EnvTable) where
  | answer
  | append (old : Option (Log T × Rec T × Log T))
  | full (garbage : Bool)

def Log.plan (cfg : EnvConfig) (nm val : CStr) (rs : Log cfg.table) :
    Log cfg.table × LogPlan cfg.table :=
  match rs.find cfg nm with
  | none => (rs,if rs.fits cfg nm val then .append none else .full rs.hasGarbage)
  | some (a,r,b) =>
    if r.good then
      (rs,if r.value = val ∨ r.perm = true then .answer
        else if rs.fits cfg nm val then .append (some (a,r,b)) else .full true)
    else
      let rs := a ++ r.kill :: b
      (rs,if rs.fits cfg nm val then .append none else .full true)

def LogPlan.toBytes (nm val : CStr) (perm : Bool) (rs : Log cfg.table) (rest : Bytes) :
    LogPlan cfg.table → SetPlan
  | .answer => .answer
  | .append old =>
    .write (writesAt rs.off (newHeader cfg nm val perm ++ newText cfg nm val) ++
      (old.map fun s => garbageWrite (region rs rest) s.1.off).toList)
  | .full garbage => .full garbage

lemma off_kill (a : Log cfg.table) (r : Rec cfg.table) (b : Log cfg.table) :
    Log.off (a ++ r.kill :: b) = Log.off (a ++ r :: b) := by
  simp [Log.off]

lemma LogEnd.kill {a b : Log cfg.table} (h : LogEnd cfg (a ++ r :: b) rest) :
    LogEnd cfg (a ++ r.kill :: b) rest := by
  have hoff := off_kill a r b
  exact ⟨hoff ▸ h.le,hoff ▸ h.erased⟩

lemma Rec.matches_live {nm : CStr} (h : r.matches cfg nm = true) : r.live = true := by
  rw [Rec.matches,Bool.and_eq_true] at h
  exact h.1

lemma hasGarbage_kill (a : Log cfg.table) (r : Rec cfg.table) (b : Log cfg.table) :
    Log.hasGarbage (a ++ r.kill :: b) = true := by
  simp [Log.hasGarbage]

lemma roomCheck_region (nm val : CStr) (perm : Bool) (hfuel : cfg.size ≤ fuel)
    (hend : LogEnd cfg rs rest) (g : Bool)
    (old : Option (Log cfg.table × Rec cfg.table × Log cfg.table)) :
    ((endLoop cfg (region rs rest) fuel envCellSize g).map fun (pVar,garbage) =>
      if pVar+(newCells cfg nm val).toNat*envCellSize > cfg.size then
        (region rs rest,SetPlan.full garbage)
      else
        (region rs rest,.write (writesAt pVar (newHeader cfg nm val perm ++ newText cfg nm val) ++
            ((old.map fun s => s.1.off).map (garbageWrite (region rs rest))).toList))) =
      some (region rs rest,LogPlan.toBytes nm val perm rs rest
          (if rs.fits cfg nm val then .append old else .full (g || rs.hasGarbage))) := by
  rw [endLoop_region hfuel hend,Option.map_some]
  by_cases hfit : rs.fits cfg nm val = true
  · rw [if_pos hfit]
    simp only [if_neg (not_lt.mpr (Log.fits_iff.mp hfit)),LogPlan.toBytes,Option.map_map]
    rfl
  · rw [if_neg hfit]
    simp only [if_pos (not_le.mp (mt Log.fits_iff.mpr hfit)),LogPlan.toBytes]

lemma setenvPlan_region (nm val : CStr) (perm : Bool) (hfuel : cfg.size ≤ fuel)
    (hend : LogEnd cfg rs rest) :
    setenvPlan fuel cfg (region rs rest) nm val perm =
      some (region (rs.plan cfg nm val).1 rest,
        (rs.plan cfg nm val).2.toBytes nm val perm (rs.plan cfg nm val).1 rest) := by
  rw [setenvPlan,sysGetenv_region hfuel hend,Option.bind_some,Log.plan,Log.get]
  cases hf : rs.find cfg nm with
  | none =>
    simp only [Option.map_none,Option.isSome_none,Bool.false_eq_true,if_false,
      Option.bind_some,Option.any_none,reduceCtorEq]
    have hroom := roomCheck_region nm val perm hfuel hend false none
    rwa [Bool.false_or] at hroom
  | some s =>
    obtain ⟨a,r,b⟩ := s
    obtain ⟨rfl,hr,ha⟩ := splitFirst_eq_some_iff.mp hf
    cases hg : r.good with
    | false =>
      simp only [hg,Bool.false_eq_true,if_false,Option.map_none,Option.isSome_none,
        Option.bind_some,Option.any_none,reduceCtorEq]
      have hroom := roomCheck_region nm val perm hfuel hend.kill false none
      rwa [hasGarbage_kill] at hroom
    | true =>
      simp only [hg,if_true,Option.map_some,Option.isSome_some,Option.some.injEq]
      by_cases hv : r.value = val
      · simp only [hv,true_or,if_true]
        rfl
      have hv' : r.value.1 ≠ val.1 := fun h => hv (Subtype.ext h)
      rw [if_neg hv',getEnvBlockByName_found a r b hfuel hend.le ha hr,Option.bind_some]
      simp only [Option.any_some,isEnvPerm_region,hv,false_or]
      cases hp : r.perm with
      | true => rfl
      | false =>
        simp only [Bool.false_eq_true,if_false]
        exact roomCheck_region nm val perm hfuel hend true (some (a,r,b))

def image (cfg : EnvConfig) (rs : Log cfg.table) (after : Bytes) : Bytes :=
  region rs (List.replicate (cfg.size-rs.off) erased ++ after)

structure Setting (cfg : EnvConfig) where
  name : CStr
  value : CStr
  perm : Bool
  cells_le : cellsNeeded cfg name value ≤ 255

def Setting.toRec (e : Setting cfg) : Rec cfg.table := newRec cfg e.name e.value e.perm e.cells_le

def Setting.ofRec (r : Rec cfg.table) : Setting cfg where
  name := r.var.name
  value := r.value
  perm := cfg.permanentVariables && r.perm
  cells_le := by
    rw [cellsNeeded_eq,Var.ofName_name]
    exact r.cells_le

structure LogState (cfg : EnvConfig) where
  log : Log cfg.table
  allocs : List Bool

def LogState.malloc (s : LogState cfg) : Bool × LogState cfg :=
  ((nextAlloc s.allocs).1,{ s with allocs := (nextAlloc s.allocs).2 })

/-- The save loop on a log: whether all allocations succeeded, the log and the allocations left,
and the records saved. A record with a wrong checksum becomes garbage, which moves the
numbers of those behind it: the next live record is then left out (`skip`). -/
def Log.save (skip : Bool) : Log cfg.table → List Bool →
    Bool × Log cfg.table × List Bool × Log cfg.table
  | [], allocs => (true,[],allocs,[])
  | r :: rs, allocs =>
    if !r.live then
      let (ok,rs,allocs,saved) := Log.save skip rs allocs
      (ok, r :: rs, allocs, saved)
    else if skip then
      let (ok,rs,allocs,saved) := Log.save false rs allocs
      (ok, r :: rs, allocs, saved)
    else if r.good then
      let (ok,allocs) := nextAlloc allocs
      if ok then
        let (ok,rs,allocs,saved) := Log.save false rs allocs
        (ok, r :: rs, allocs, r :: saved)
      else (false, r :: rs, allocs, [])
    else
      let (ok,rs,allocs,saved) := Log.save true rs allocs
      (ok, r.kill :: rs, allocs, saved)

namespace LogState

def format (s : LogState cfg) : Status × LogState cfg :=
  match cfg.envSpaceSize with
  | none => (.success,{ s with log := [] })
  | some _ =>
    if s.malloc.1 then (.success,{ s.malloc.2 with log := [] }) else (.efailure,s.malloc.2)

def restore (setenv : LogState cfg → Setting cfg → Option (Status × LogState cfg)) :
    Log cfg.table → LogState cfg → Option (LogState cfg)
  | [], s => some s
  | r :: saved, s => (setenv s (.ofRec r)).bind fun (_,s) => restore setenv saved s

def defragWith (setenv : LogState cfg → Setting cfg → Option (Status × LogState cfg))
    (s : LogState cfg) : Option (Status × LogState cfg) :=
  if !s.malloc.1 then some (.erescrunch,s.malloc.2)
  else
    let r := if cfg.permanentVariables then s.malloc.2.malloc else (true,s.malloc.2)
    if !r.1 then none
    else
      let (ok,log,allocs,saved) := r.2.log.save false r.2.allocs
      let (status,s) := if ok then format ⟨log,allocs⟩ else (.efailure,⟨log,allocs⟩)
      (restore setenv saved s).map fun s =>
        (if status = .success then .success else .erescrunch,s)

def put (s : LogState cfg) (e : Setting cfg) :
    Option (Log cfg.table × Rec cfg.table × Log cfg.table) → LogState cfg
  | none => { s with log := s.log ++ [e.toRec] }
  | some (a,r,b) => { s with log := a ++ r.kill :: (b ++ [e.toRec]) }

def setenv : ℕ → LogState cfg → Setting cfg → Option (Status × LogState cfg)
  | 0, _, _ => none
  | depth+1, s, e =>
    match s.log.plan cfg e.name e.value with
    | (rs,.answer) => some (.success,{ s with log := rs })
    | (rs,.append old) => some (.success,put { s with log := rs } e old)
    | (rs,.full garbage) =>
      if garbage then
        (defragWith (setenv depth) { s with log := rs }).bind fun (status,s) =>
          if status = .success then setenv depth s e else some (.erescrunch,s)
      else some (.erescrunch,{ s with log := rs })

variable {s : LogState cfg} {e : Setting cfg}

lemma setenv_append (hf : s.log.find cfg e.name = none)
    (hfit : s.log.fits cfg e.name e.value = true) (depth : ℕ) :
    s.setenv (depth+1) e = some (.success,{ s with log := s.log ++ [e.toRec] }) := by
  simp only [setenv,Log.plan,hf,hfit,if_true]
  rfl

lemma setenv_replace {a b : Log cfg.table} (hf : s.log.find cfg e.name = some (a,r,b))
    (hg : r.good = true) (hv : r.value ≠ e.value) (hp : r.perm = false)
    (hfit : s.log.fits cfg e.name e.value = true) (depth : ℕ) :
    s.setenv (depth+1) e =
      some (.success,{ s with log := a ++ r.kill :: (b ++ [e.toRec]) }) := by
  simp only [setenv,Log.plan,hf,hg,if_true,hv,hp,Bool.false_eq_true,or_self,if_false,hfit]
  rfl

def defrag (depth : ℕ) (s : LogState cfg) : Option (Status × LogState cfg) :=
  defragWith (setenv depth) s

end LogState

end DslG624t.Env
