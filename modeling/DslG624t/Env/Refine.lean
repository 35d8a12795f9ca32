import DslG624t.Env.Log

/-!
# Bytes refine logs

Each call on the bytes of a log does what its counterpart does on the log, as long
as the log ends within the region, and the log it leaves does so too.
-/

namespace DslG624t.Env

open CString Flash List Option Prod SplitFirst

variable {cfg : EnvConfig} {fuel : ℕ}

variable {rs : Log cfg.table} {s : LogState cfg}

lemma logEnd_image (h : rs.off ≤ cfg.size) (after : Bytes) :
    LogEnd cfg rs (List.replicate (cfg.size-rs.off) erased ++ after) := by
  refine ⟨h,fun hlt => ?_⟩
  obtain ⟨n,hn⟩ : ∃ n, cfg.size-rs.off = n+1 := ⟨cfg.size-rs.off-1,by omega⟩
  rw [hn]
  rfl

lemma envMakeGarbage_image (a : Log cfg.table) (r : Rec cfg.table) (b : Log cfg.table)
    (after : Bytes) :
    envMakeGarbage (image cfg (a ++ r :: b) after) a.off = image cfg (a ++ r.kill :: b) after := by
  rw [image,image,envMakeGarbage_region,off_kill]

lemma toNat_newCells (e : Setting cfg) :
    (newCells cfg e.name e.value).toNat = cellsNeeded cfg e.name e.value := by
  have h := e.cells_le
  rw [newCells,UInt8.toNat_ofNat',Nat.mod_eq_of_lt (by omega)]

lemma off_append_toRec (rs : Log cfg.table) (e : Setting cfg) :
    Log.off (rs ++ [e.toRec]) = rs.off+cellsNeeded cfg e.name e.value*envCellSize := by
  rw [Log.off_append_cons,Setting.toRec,cells_newRec]

lemma programAll_image (s : LogState cfg) (e : Setting cfg) (after : Bytes)
    (hfit : s.log.fits cfg e.name e.value = true)
    (old : Option (Log cfg.table × Rec cfg.table × Log cfg.table))
    (hold : ∀ x ∈ old, s.log = x.1 ++ x.2.1 :: x.2.2) :
    programAll (image cfg s.log after)
      (writesAt s.log.off (newHeader cfg e.name e.value e.perm ++ newText cfg e.name e.value) ++
        (old.map fun x => garbageWrite (image cfg s.log after) x.1.off).toList) =
      image cfg (s.put e old).log after := by
  have hroom := Log.fits_iff.mp hfit
  rw [toNat_newCells] at hroom
  have happ := append_region e.perm s.log (cfg.size-s.log.off) after e.cells_le (by omega)
  have hfree : cfg.size-s.log.off-cellsNeeded cfg e.name e.value*envCellSize =
      cfg.size-Log.off (s.log ++ [e.toRec]) := by
    rw [off_append_toRec]
    omega
  rw [hfree] at happ
  rw [programAll_append,image,happ]
  cases old with
  | none => rfl
  | some x =>
    obtain ⟨a,r,b⟩ := x
    have hlog : s.log = a ++ r :: b := hold _ rfl
    have hctrl : garbageWrite (region s.log (replicate (cfg.size-s.log.off) erased ++ after))
        a.off = garbageWrite (image cfg (a ++ r :: (b ++ [e.toRec])) after) a.off := by
      rw [hlog,image,garbageWrite_region,garbageWrite_region]
    have hlog' : s.log ++ [e.toRec] = a ++ r :: (b ++ [e.toRec]) := by simp [hlog]
    have hkill := envMakeGarbage_image a r (b ++ [e.toRec]) after
    simp only [map_some,toList_some]
    rw [hctrl]
    exact (congrArg (fun l => programAll (image cfg l after) _) hlog').trans hkill

def Rec.toSaved (r : Rec cfg.table) : Saved := ⟨r.var.name,r.value,r.perm⟩

section Saving

variable {rest : Bytes}

lemma liveCount_append_singleton (a : Log cfg.table) (r : Rec cfg.table) :
    Log.liveCount (a ++ [r]) = a.liveCount+if r.live then 1 else 0 := by
  rw [Log.liveCount_append,Log.liveCount_cons]
  rfl

lemma saveLoop_end (hfuel : cfg.size ≤ fuel) (hend : LogEnd cfg rs rest) {i : ℕ}
    (hi : rs.liveCount ≤ i) (left : ℕ) (allocs : List Bool) (saved : List Saved) :
    saveLoop fuel cfg left i ⟨region rs rest,allocs⟩ saved =
      some (true,⟨region rs rest,allocs⟩,saved) := by
  cases left with
  | zero => rfl
  | succ left => rw [saveLoop,getEnvBlockByNumber_end hend hfuel hi]; rfl

lemma saveLoop_step (hfuel : cfg.size ≤ fuel) (a : Log cfg.table) (r : Rec cfg.table)
    (b : Log cfg.table) (hsize : Log.off (a ++ r :: b) ≤ cfg.size) (hlive : r.live = true)
    (left : ℕ) (allocs : List Bool) (saved : List Saved) :
    saveLoop fuel cfg (left+1) a.liveCount ⟨region (a ++ r :: b) rest,allocs⟩ saved =
      if r.good then
        if (nextAlloc allocs).1 then
          saveLoop fuel cfg left (a.liveCount+1)
            ⟨region (a ++ r :: b) rest,(nextAlloc allocs).2⟩ (saved ++ [r.toSaved])
        else some (false,⟨region (a ++ r :: b) rest,(nextAlloc allocs).2⟩,saved)
      else saveLoop fuel cfg left (a.liveCount+1) ⟨region (a ++ r.kill :: b) rest,allocs⟩
        saved := by
  rw [saveLoop,getEnvBlockByNumber_region a r b hsize hfuel hlive,bind_some]
  simp only [getNameAndValue_region]
  cases r.good with
  | false => rfl
  | true =>
    simp only [if_true,isEnvPerm_region]
    rfl

lemma saveLoop_region (hfuel : cfg.size ≤ fuel) (skip : Bool) (b a : Log cfg.table)
    (left : ℕ) (allocs : List Bool) (saved : List Saved) (hend : LogEnd cfg (a ++ b) rest)
    (hleft : b.liveCount ≤ left+if skip then 1 else 0) {ok : Bool} {b' sv : Log cfg.table}
    {allocs' : List Bool} (hs : b.save skip allocs = (ok,b',allocs',sv)) :
    saveLoop fuel cfg left (a.liveCount+if skip then 1 else 0) ⟨region (a ++ b) rest,allocs⟩
      saved =
      some (ok,⟨region (a ++ b') rest,allocs'⟩,saved ++ sv.map Rec.toSaved) := by
  induction b generalizing skip a left allocs saved ok b' sv allocs' with
  | nil =>
    simp only [Log.save,mk.injEq] at hs
    obtain ⟨rfl,rfl,rfl,rfl⟩ := hs
    rw [append_nil] at hend ⊢
    rw [saveLoop_end hfuel hend (Nat.le_add_right _ _),map_nil,append_nil]
  | cons r b ih =>
    have hnext (x : Rec cfg.table) := ih (a := a ++ [x])
    simp only [append_assoc,singleton_append] at hnext
    have hcount := liveCount_append_singleton a r
    rw [Log.liveCount_cons] at hleft
    rw [Log.save] at hs
    cases hl : r.live with
    | false =>
      rcases h1 : Log.save skip b allocs with ⟨ok1,b1,al1,sv1⟩
      simp only [hl,h1,Bool.not_false,if_true,mk.injEq] at hs
      obtain ⟨rfl,rfl,rfl,rfl⟩ := hs
      rw [hl,if_neg (by simp),add_zero] at hcount
      rw [hl,if_neg (by simp),zero_add] at hleft
      rw [← hcount]
      exact hnext r skip left allocs saved hend hleft h1
    | true =>
      rw [hl,if_pos rfl] at hcount hleft
      cases skip with
      | true =>
        rcases h1 : Log.save false b allocs with ⟨ok1,b1,al1,sv1⟩
        simp only [hl,h1,Bool.not_true,Bool.false_eq_true,if_false,if_true,mk.injEq] at hs
        obtain ⟨rfl,rfl,rfl,rfl⟩ := hs
        rw [if_pos rfl] at hleft ⊢
        rw [← hcount]
        exact hnext r false left allocs saved hend (by simp; omega) h1
      | false =>
        obtain ⟨left,rfl⟩ : ∃ k, left = k+1 := ⟨left-1,by simp at hleft; omega⟩
        have hlb : Log.liveCount b ≤ left := by simp at hleft; omega
        simp only [Bool.false_eq_true,if_false,add_zero]
        rw [saveLoop_step hfuel a r b hend.le hl]
        cases hg : r.good with
        | false =>
          rcases h1 : Log.save true b allocs with ⟨ok1,b1,al1,sv1⟩
          simp only [hl,hg,h1,Bool.not_true,Bool.false_eq_true,if_false,mk.injEq] at hs
          obtain ⟨rfl,rfl,rfl,rfl⟩ := hs
          have hkill := liveCount_append_singleton a r.kill
          rw [Rec.live_kill,if_neg (by simp),add_zero] at hkill
          rw [if_neg (by simp),← hkill]
          exact hnext r.kill true left allocs saved hend.kill (by omega) h1
        | true =>
          rw [if_pos rfl,← hcount]
          cases hok : (nextAlloc allocs).1 with
          | false =>
            simp only [hl,hg,hok,Bool.not_true,Bool.false_eq_true,if_false,if_true,mk.injEq] at hs
            obtain ⟨rfl,rfl,rfl,rfl⟩ := hs
            rw [if_neg (by simp),map_nil,append_nil]
          | true =>
            rcases h1 : Log.save false b (nextAlloc allocs).2 with ⟨ok1,b1,al1,sv1⟩
            simp only [hl,hg,hok,h1,Bool.not_true,Bool.false_eq_true,if_false,if_true,
              mk.injEq] at hs
            obtain ⟨rfl,rfl,rfl,rfl⟩ := hs
            have hrec := hnext r false left (nextAlloc allocs).2 (saved ++ [r.toSaved]) hend
              (by simpa using hlb) h1
            rw [if_pos rfl]
            simpa using hrec

end Saving

lemma cells_save (skip : Bool) (b : Log cfg.table) (allocs : List Bool) :
    Log.cells (Log.save skip b allocs).2.1 = b.cells := by
  induction b generalizing skip allocs with
  | nil => rfl
  | cons r b ih =>
    rw [Log.save]
    split
    · simp [ih]
    split
    · simp [ih]
    · split
      · dsimp only
        split <;> simp [ih]
      · simp [ih]

lemma off_nil_le (cfg : EnvConfig) : Log.off ([] : Log cfg.table) ≤ cfg.size := by
  rw [Log.off_nil]
  exact cfg.size_ge

lemma length_region_image (h : rs.off ≤ cfg.size) (after : Bytes) :
    ∃ pre, image cfg rs after = pre ++ after ∧ pre.length = cfg.size := by
  obtain ⟨pre,-,hlen,hpre⟩ := region_eq rs []
  refine ⟨pre ++ replicate (cfg.size-rs.off) erased,?_,?_⟩
  · rw [image,hpre,append_assoc]
  · rw [length_append,hlen,length_replicate]
    omega

lemma drop_image (h : rs.off ≤ cfg.size) (after : Bytes) :
    (image cfg rs after).drop cfg.size = after := by
  obtain ⟨pre,hpre,hlen⟩ := length_region_image h after
  rw [hpre,← hlen,drop_left]

lemma erase_version (m : Bytes) :
    programAll (erase m cfg.size) (writesAt 0 (envVersion ++ [0])) =
      image cfg [] (m.drop cfg.size) := by
  have hsize : 16 ≤ cfg.size := cfg.size_ge
  have hver : (envVersion ++ [0]).length = 9 := by decide
  have hcell : versionCell = (envVersion ++ [0]) ++ replicate 7 erased := by decide
  have hsplit : replicate cfg.size erased =
      replicate (envVersion ++ [0]).length erased ++
        (replicate 7 erased ++ replicate (cfg.size-16) erased) := by
    rw [hver,replicate_append_replicate,replicate_append_replicate]
    congr 1
    omega
  have hwrite := programAll_writesAt_erased []
    ((replicate 7 erased ++ replicate (cfg.size-16) erased) ++ m.drop cfg.size)
    (envVersion ++ [0])
  rw [erase,hsplit,append_assoc]
  refine hwrite.trans ?_
  simp [image,region,hcell,envCellSize]

lemma programAll_extra (m : Bytes) {k : ℕ} (hk : cfg.envSpaceSize = some k) :
    programAll (image cfg [] (m.drop cfg.size))
      (writesAt k ((m.drop k).take (cfg.envSize-cfg.size))) =
      image cfg [] (m.drop cfg.size) := by
  by_cases hlt : cfg.envSize > k
  · have hsize : cfg.size = k := by
      rw [EnvConfig.size,hk]
      exact if_pos hlt
    obtain ⟨pre,hpre,hlen⟩ := length_region_image (off_nil_le cfg) (m.drop cfg.size)
    have hself := programAll_writesAt_self pre ((m.drop cfg.size).take (cfg.envSize-cfg.size))
      ((m.drop cfg.size).drop (cfg.envSize-cfg.size))
    rw [take_append_drop,hlen,← hpre] at hself
    rwa [← hsize]
  have hsize : cfg.size = cfg.envSize := by
    rw [EnvConfig.size,hk]
    exact if_neg hlt
  rw [hsize,Nat.sub_self,take_zero]
  rfl

lemma formatEnvBlock_eq (s : EnvState) :
    formatEnvBlock cfg s =
      match cfg.envSpaceSize with
      | none => (.success,⟨image cfg [] (s.mem.drop cfg.size),s.allocs⟩)
      | some _ =>
        if (malloc s).1 then
          (.success,⟨image cfg [] (s.mem.drop cfg.size),(malloc s).2.allocs⟩)
        else (.efailure,(malloc s).2) := by
  rw [formatEnvBlock]
  cases hk : cfg.envSpaceSize with
  | none => simp only [erase_version]
  | some k => simp only [erase_version,programAll_extra s.mem hk]

def LogState.bytes (s : LogState cfg) (after : Bytes) : EnvState :=
  ⟨image cfg s.log after,s.allocs⟩

lemma formatEnvBlock_image (h : s.log.off ≤ cfg.size) (after : Bytes) :
    formatEnvBlock cfg (s.bytes after) = map id (LogState.bytes · after) s.format := by
  have hdrop : (s.bytes after).mem.drop cfg.size = after := drop_image h after
  have hok : (malloc (s.bytes after)).1 = s.malloc.1 := rfl
  rw [formatEnvBlock_eq,LogState.format,hdrop]
  cases cfg.envSpaceSize with
  | none => rfl
  | some k =>
    simp only [hok]
    cases s.malloc.1 <;> rfl

lemma formatEnvBlock_success {s t : EnvState} (h : formatEnvBlock cfg s = (.success,t)) :
    ∃ allocs, t = LogState.bytes (⟨[],allocs⟩ : LogState cfg) (s.mem.drop cfg.size) := by
  rw [formatEnvBlock_eq] at h
  cases hk : cfg.envSpaceSize with
  | none =>
    simp only [hk,mk.injEq,true_and] at h
    exact ⟨s.allocs,h.symm⟩
  | some k =>
    simp only [hk] at h
    split at h
    · exact ⟨(malloc s).2.allocs,(mk.inj h).2.symm⟩
    · cases (mk.inj h).1

lemma formatEnvBlock_ar7 : formatEnvBlock ar7Config ⟨[],[]⟩ =
    (.success,LogState.bytes (⟨[],[]⟩ : LogState ar7Config) []) := by
  rw [formatEnvBlock_eq]
  simp only [drop_nil]
  rfl

lemma off_format_le (h : s.log.off ≤ cfg.size) : s.format.2.log.off ≤ cfg.size := by
  rw [LogState.format]
  split
  · exact off_nil_le cfg
  · dsimp only
    split
    · exact off_nil_le cfg
    · exact h

/-- A call on bytes and one on logs answer alike, or neither answers; the log left ends within
the region. -/
def Refines (after : Bytes) (x : Option (Status × EnvState))
    (y : Option (Status × LogState cfg)) : Prop :=
  (x = none ∧ y = none) ∨
    ∃ st s, x = some (st,LogState.bytes s after) ∧ y = some (st,s) ∧ s.log.off ≤ cfg.size

section Calls

variable {after : Bytes} {old : Option (Log cfg.table × Rec cfg.table × Log cfg.table)}

lemma Refines.some {st : Status} (h : s.log.off ≤ cfg.size) :
    Refines after (some (st,s.bytes after)) (some (st,s)) := .inr ⟨st,s,rfl,rfl,h⟩

section

variable {x : Option (Status × EnvState)} {y : Option (Status × LogState cfg)}
  (h : Refines after x y)
include h

lemma Refines.eq_bytes {st : Status} (hy : y = Option.some (st,s)) :
    x = Option.some (st,s.bytes after) ∧ s.log.off ≤ cfg.size := by
  obtain ⟨-,hnone⟩ | ⟨st',s',hx,hsome,hs⟩ := h
  · rw [hnone] at hy
    cases hy
  · rw [hsome] at hy
    cases hy
    exact ⟨hx,hs⟩

lemma Refines.bind {f : Status × EnvState → Option (Status × EnvState)}
    {g : Status × LogState cfg → Option (Status × LogState cfg)}
    (hfg : ∀ st s, s.log.off ≤ cfg.size → Refines after (f (st,s.bytes after)) (g (st,s))) :
    Refines after (x.bind f) (y.bind g) := by
  obtain ⟨rfl,rfl⟩ | ⟨st,s,rfl,rfl,hs⟩ := h
  · exact .inl ⟨rfl,rfl⟩
  · exact hfg st s hs

end

/-- How a call of `__sys_setenv` on bytes refines one on logs. -/
def SetRefines (after : Bytes) (f : EnvState → Bytes → Bytes → Bool → Option (Status × EnvState))
    (g : LogState cfg → Setting cfg → Option (Status × LogState cfg)) : Prop :=
  ∀ s e, s.log.off ≤ cfg.size →
    Refines after (f (s.bytes after) e.name e.value e.perm) (g s e)

variable {f : EnvState → Bytes → Bytes → Bool → Option (Status × EnvState)}
  {g : LogState cfg → Setting cfg → Option (Status × LogState cfg)}

lemma restore_refines (hfg : SetRefines after f g) (st : Status) (saved : Log cfg.table)
    (s : LogState cfg) (hs : s.log.off ≤ cfg.size) :
    Refines after
      ((restoreLoop cfg f (saved.map Rec.toSaved) (s.bytes after)).map fun s => (st,s))
      ((LogState.restore g saved s).map fun s => (st,s)) := by
  induction saved generalizing s with
  | nil => exact Refines.some hs
  | cons r saved ih =>
    rw [map_cons,restoreLoop,LogState.restore,map_bind,map_bind]
    exact (hfg s (.ofRec r) hs).bind fun _ s hs => ih s hs

section

variable (hfuel : cfg.size ≤ fuel) (hfg : SetRefines after f g) (s : LogState cfg)
    (hs : s.log.off ≤ cfg.size)
include hfuel hfg hs

lemma defragRest_refines :
    Refines after
      ((saveLoop fuel cfg cfg.maxEnvVarsNum 0 (s.bytes after) []).bind fun (ok,s,saved) =>
        let (status,s) := if ok then formatEnvBlock cfg s else (.efailure,s)
        (restoreLoop cfg f saved s).map fun s =>
          (if status = .success then .success else .erescrunch,s))
      (let (ok,log,allocs,saved) := s.log.save false s.allocs
        let (status,s) := if ok then LogState.format ⟨log,allocs⟩
          else (.efailure,(⟨log,allocs⟩ : LogState cfg))
        (LogState.restore g saved s).map fun s =>
          (if status = .success then .success else .erescrunch,s)) := by
  rcases hsave : Log.save false s.log s.allocs with ⟨ok,log,allocs,saved⟩
  have hloop := saveLoop_region hfuel false s.log [] cfg.maxEnvVarsNum s.allocs []
    (logEnd_image hs after) (liveCount_le_maxEnvVarsNum hs) hsave
  have hoff : log.off = s.log.off := by
    have hc := cells_save false s.log s.allocs
    rw [hsave] at hc
    rw [Log.off,Log.off,hc]
  have hle : log.off ≤ cfg.size := hoff ▸ hs
  have hbytes : region ([] ++ log) (replicate (cfg.size-s.log.off) erased ++ after) =
      image cfg log after := by rw [image,hoff]; rfl
  rw [hbytes] at hloop
  have hstart : saveLoop fuel cfg cfg.maxEnvVarsNum 0 (s.bytes after) [] =
      some (ok,LogState.bytes ⟨log,allocs⟩ after,saved.map Rec.toSaved) := hloop
  rw [hstart,bind_some]
  cases ok with
  | false => exact restore_refines hfg _ saved ⟨log,allocs⟩ hle
  | true =>
    simp only [if_true]
    rw [formatEnvBlock_image (s := ⟨log,allocs⟩) hle after]
    exact restore_refines hfg _ saved _ (off_format_le (s := ⟨log,allocs⟩) hle)

lemma defragWith_refines :
    Refines after (sysDefragenvWith fuel cfg f (s.bytes after)) (LogState.defragWith g s) := by
  have hmalloc (s : LogState cfg) :
      malloc (s.bytes after) = (s.malloc.1,s.malloc.2.bytes after) := rfl
  -- The second allocation is made in builds with permanent variables only.
  have hperm (s : LogState cfg) :
      (if cfg.permanentVariables then malloc (s.bytes after) else (true,s.bytes after)) =
        map id (LogState.bytes · after)
          (if cfg.permanentVariables then s.malloc else (true,s)) := by
    split <;> rfl
  have hlog (s : LogState cfg) :
      (if cfg.permanentVariables then s.malloc else (true,s)).2.log = s.log := by
    split <;> rfl
  rw [sysDefragenvWith,LogState.defragWith,hmalloc]
  dsimp only
  cases s.malloc.1 with
  | false => exact Refines.some (s := s.malloc.2) hs
  | true =>
    simp only [Bool.not_true,Bool.false_eq_true,if_false]
    rw [hperm]
    have hs' := (hlog s.malloc.2).symm ▸ hs
    generalize (if cfg.permanentVariables then s.malloc.2.malloc else (true,s.malloc.2)) = s'
      at hs' ⊢
    obtain ⟨ok,s'⟩ := s'
    cases ok with
    | false => exact .inl ⟨rfl,rfl⟩
    | true => exact defragRest_refines hfuel hfg s' hs'

end

lemma off_kill_of_find {nm : CStr} {rs a b : Log cfg.table} {r : Rec cfg.table}
    (hf : rs.find cfg nm = some (a,r,b)) : Log.off (a ++ r.kill :: b) = rs.off := by
  obtain ⟨rfl,-,-⟩ := splitFirst_eq_some_iff.mp hf
  exact off_kill a r b

lemma off_plan (nm val : CStr) (rs : Log cfg.table) : (rs.plan cfg nm val).1.off = rs.off := by
  rw [Log.plan]
  cases hf : rs.find cfg nm with
  | none => rfl
  | some x =>
    dsimp only
    split
    · rfl
    · exact off_kill_of_find hf

lemma plan_append {nm val : CStr} (h : (rs.plan cfg nm val).2 = .append old) :
    (rs.plan cfg nm val).1.fits cfg nm val = true ∧
      ∀ x ∈ old, (rs.plan cfg nm val).1 = x.1 ++ x.2.1 :: x.2.2 := by
  rw [Log.plan] at h ⊢
  cases hf : rs.find cfg nm with
  | none =>
    simp only [hf] at h ⊢
    split at h
    · next hfit =>
      obtain rfl := LogPlan.append.inj h
      exact ⟨hfit,by simp⟩
    · cases h
  | some x =>
    obtain ⟨a,r,b⟩ := x
    obtain ⟨rfl,-,-⟩ := splitFirst_eq_some_iff.mp hf
    simp only [hf] at h ⊢
    cases hg : r.good with
    | true =>
      simp only [hg,if_true] at h ⊢
      split at h
      · cases h
      split at h
      · next hfit =>
        obtain rfl := LogPlan.append.inj h
        exact ⟨hfit,by simp⟩
      · cases h
    | false =>
      simp only [hg,Bool.false_eq_true,if_false] at h ⊢
      split at h
      · next hfit =>
        obtain rfl := LogPlan.append.inj h
        exact ⟨hfit,by simp⟩
      · cases h

lemma off_put_le {e : Setting cfg} (hfit : s.log.fits cfg e.name e.value = true)
    (hold : ∀ x ∈ old, s.log = x.1 ++ x.2.1 :: x.2.2) : (s.put e old).log.off ≤ cfg.size := by
  have hroom := Log.fits_iff.mp hfit
  rw [toNat_newCells,← off_append_toRec] at hroom
  cases old with
  | none => exact hroom
  | some x =>
    obtain ⟨a,r,b⟩ := x
    rw [hold _ rfl,append_assoc,cons_append] at hroom
    exact (off_kill a r _).symm ▸ hroom

lemma setenv_refines (hfuel : cfg.size ≤ fuel) (after : Bytes) (depth : ℕ) :
    SetRefines after (sysSetenvPerm fuel cfg depth) (@LogState.setenv cfg depth) := by
  induction depth with
  | zero => exact fun s e hs => .inl ⟨rfl,rfl⟩
  | succ depth ih =>
    intro s e hs
    have hplan := setenvPlan_region e.name e.value e.perm hfuel (logEnd_image hs after)
    have hoff := off_plan e.name e.value s.log
    have happ {old} := @plan_append cfg s.log old e.name e.value
    rcases hp : s.log.plan cfg e.name e.value with ⟨rs,p⟩
    rw [hp] at hoff happ hplan
    have hmem : (s.bytes after).mem =
        region s.log (replicate (cfg.size-s.log.off) erased ++ after) := rfl
    have himage : region rs (replicate (cfg.size-s.log.off) erased ++ after) =
        image cfg rs after := by rw [image,hoff]
    have hrs : rs.off ≤ cfg.size := hoff.symm ▸ hs
    rw [sysSetenvPerm,LogState.setenv,hmem,hplan,bind_some,hp]
    simp only [himage]
    cases p with
    | answer => exact Refines.some (s := ⟨rs,s.allocs⟩) hrs
    | append old =>
      obtain ⟨hfit,hold⟩ := happ rfl
      have hbytes := programAll_image ⟨rs,s.allocs⟩ e after hfit old hold
      simp only [LogPlan.toBytes,himage,hbytes]
      have hput := off_put_le (s := ⟨rs,s.allocs⟩) hfit hold
      cases old <;> exact Refines.some hput
    | full garbage =>
      cases garbage with
      | false => exact Refines.some (s := ⟨rs,s.allocs⟩) hrs
      | true =>
        refine (defragWith_refines hfuel ih ⟨rs,s.allocs⟩ hrs).bind fun st s hs => ?_
        dsimp only
        split
        · exact ih s e hs
        · exact Refines.some hs

lemma defrag_refines (hfuel : cfg.size ≤ fuel) (after : Bytes) (depth : ℕ) (s : LogState cfg)
    (hs : s.log.off ≤ cfg.size) :
    Refines after (sysDefragenv fuel depth cfg (s.bytes after)) (s.defrag depth) :=
  defragWith_refines hfuel (setenv_refines hfuel after depth) s hs

lemma off_get (nm : CStr) (rs : Log cfg.table) : (rs.get cfg nm).2.off = rs.off := by
  rw [Log.get]
  cases hf : rs.find cfg nm with
  | none => rfl
  | some x =>
    dsimp only
    split
    · rfl
    · exact off_kill_of_find hf

lemma sysGetenv_image (hfuel : cfg.size ≤ fuel) (h : rs.off ≤ cfg.size) (after : Bytes)
    (nm : CStr) :
    sysGetenv fuel cfg (image cfg rs after) nm =
      some ((rs.get cfg nm).1.map Subtype.val,image cfg (rs.get cfg nm).2 after) := by
  rw [image,sysGetenv_region hfuel (logEnd_image h after),image,off_get]

/-- `sys_unsetenv` on a log. -/
def LogState.unset (s : LogState cfg) (nm : CStr) : Status × LogState cfg :=
  if isReadOnlyVar nm then (.efailure,s)
  else
    match s.log.find cfg nm with
    | none => (.efailure,s)
    | some (a,r,b) =>
      if cfg.permanentVariables && r.perm then (.efailure,s)
      else (.success,{ s with log := a ++ r.kill :: b })

lemma off_unset (s : LogState cfg) (nm : CStr) : (s.unset nm).2.log.off = s.log.off := by
  rw [LogState.unset]
  split
  · rfl
  cases hf : s.log.find cfg nm with
  | none => rfl
  | some x =>
    obtain ⟨a,r,b⟩ := x
    obtain ⟨hlog,-,-⟩ := splitFirst_eq_some_iff.mp hf
    dsimp only
    split
    · rfl
    · exact (off_kill a r b).trans (congrArg Log.off hlog.symm)

lemma sysUnsetenv_image (hfuel : cfg.size ≤ fuel) (h : s.log.off ≤ cfg.size) (after : Bytes)
    (nm : CStr) :
    sysUnsetenv fuel cfg (s.bytes after) nm =
      some ((s.unset nm).1,(s.unset nm).2.bytes after) := by
  rw [sysUnsetenv,LogState.unset]
  split
  · rfl
  obtain ⟨rs,allocs⟩ := s
  have hfind : getEnvBlockByName fuel cfg (region rs _) nm = _ :=
    getEnvBlockByName_region hfuel (logEnd_image h after)
  have hmem : (LogState.bytes ⟨rs,allocs⟩ after).mem = image cfg rs after := rfl
  rw [hmem,image,hfind]
  cases hf : rs.find cfg nm with
  | none => rfl
  | some x =>
    obtain ⟨a,r,b⟩ := x
    obtain ⟨rfl,-,-⟩ := splitFirst_eq_some_iff.mp hf
    have hkill := envMakeGarbage_image a r b after
    rw [image] at hkill
    simp only [map_some,isEnvPerm_region,hkill]
    split <;> rfl

end Calls

end DslG624t.Env
