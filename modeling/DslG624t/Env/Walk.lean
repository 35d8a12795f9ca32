import DslG624t.Env.Record
import DslG624t.Lib.SplitFirst

/-!
# Walking a log

What the loops of `env.c` find in a region that holds a log.
-/

namespace DslG624t.Env

open CString Flash List Option SplitFirst

variable {cfg : EnvConfig} {fuel : ℕ}

/-- The log ends within the region: behind its last record the region does too, or is erased. -/
structure LogEnd (cfg : EnvConfig) (rs : Log cfg.table) (rest : Bytes) : Prop where
  le : rs.off ≤ cfg.size
  erased : rs.off < cfg.size → varNum rest = 0xFF

variable {rs : Log cfg.table} {r : Rec cfg.table} {rest : Bytes} {nm : CStr}

lemma length_lt_size (h : rs.off ≤ cfg.size) : rs.length < cfg.size := by
  have hl := rs.length_le_cells
  simp only [Log.off,envCellSize] at h
  omega

section Step

variable (a : Log cfg.table) (r : Rec cfg.table) (b : Log cfg.table) (rest : Bytes)

lemma envGetNextBlock_region :
    envGetNextBlock (region (a ++ r :: b) rest) a.off = Log.off (a ++ [r]) := by
  rw [envGetNextBlock,region_drop_rec,toNat_numCells_encode,Log.off_append_cons]

lemma varNum_region_ne : varNum ((region (a ++ r :: b) rest).drop a.off) ≠ 0xFF := by
  rw [region_drop_rec]
  exact varNum_encode_ne r _

lemma isEnvGarbage_region :
    isEnvGarbage (ctrl ((region (a ++ r :: b) rest).drop a.off)) = !r.live := by
  rw [region_drop_rec,ctrl_encode,Rec.ctrlOf,isEnvGarbage_ctrlByte]

lemma isEnvPerm_region : isEnvPerm (ctrl ((region (a ++ r :: b) rest).drop a.off)) = r.perm := by
  rw [region_drop_rec,ctrl_encode,Rec.ctrlOf,isEnvPerm_ctrlByte]

variable {a r b rest}

lemma off_lt_of_cons (h : Log.off (a ++ r :: b) ≤ cfg.size) : a.off < cfg.size := by
  have hr := r.cells_pos
  simp only [Log.off,Log.cells_append,Log.cells_cons,envCellSize] at h ⊢
  omega

end Step

lemma blockLoop_pass (fuel index : ℕ) (a b c : Log cfg.table) (rest : Bytes)
    (hsize : Log.off (a ++ b) ≤ cfg.size) (count : ℕ) (hcount : count+b.liveCount ≤ index) :
    blockLoop cfg (region (a ++ (b ++ c)) rest) index (fuel+b.length) a.off count =
      blockLoop cfg (region (a ++ (b ++ c)) rest) index fuel (Log.off (a ++ b))
        (count+b.liveCount) := by
  induction b generalizing a count with
  | nil => simp [Log.liveCount]
  | cons r b ih =>
    have hnext := ih (a ++ [r])
    simp only [append_assoc,singleton_append] at hnext
    have hlt : a.off < cfg.size := off_lt_of_cons hsize
    have hlen : fuel+(r :: b).length = (fuel+b.length)+1 := by simp [add_assoc]
    rw [Log.liveCount_cons] at hcount ⊢
    rw [hlen,blockLoop,cons_append,if_pos ⟨hlt,varNum_region_ne a r (b ++ c) rest⟩,
      isEnvGarbage_region,envGetNextBlock_region]
    cases hl : r.live with
    | false =>
      simp only [hl,Bool.false_eq_true,if_false,zero_add] at hcount ⊢
      rw [Bool.not_false,if_pos rfl]
      exact hnext hsize count hcount
    | true =>
      simp only [hl,if_true] at hcount ⊢
      rw [if_neg (by simp),if_neg (by omega),hnext hsize (count+1) (by omega)]
      congr 1
      omega

lemma blockLoop_found (a : Log cfg.table) (r : Rec cfg.table) (b : Log cfg.table)
    (rest : Bytes) (index : ℕ) (hsize : Log.off (a ++ r :: b) ≤ cfg.size)
    (hlive : r.live = true) :
    blockLoop cfg (region (a ++ r :: b) rest) index (fuel+1) a.off index = some (some a.off) := by
  rw [blockLoop,if_pos ⟨off_lt_of_cons hsize,varNum_region_ne a r b rest⟩,isEnvGarbage_region,
    hlive,if_neg (by simp),if_pos rfl]

section ByNumber

variable {index : ℕ}

lemma getEnvBlockByNumber_pass (rs : Log cfg.table) (hsize : rs.off ≤ cfg.size)
    (hfuel : cfg.size ≤ fuel) (hindex : rs.liveCount ≤ index) :
    getEnvBlockByNumber fuel cfg (region rs rest) index =
      blockLoop cfg (region rs rest) index (fuel-rs.length) rs.off rs.liveCount := by
  have hlen := length_lt_size hsize
  have hpass := blockLoop_pass (fuel-rs.length) index [] rs [] rest
    (by simpa using hsize) 0 (by simpa using hindex)
  have hf : fuel-rs.length+rs.length = fuel := by omega
  simpa [hf,getEnvBlockByNumber] using hpass

lemma getEnvBlockByNumber_region (a : Log cfg.table) (r : Rec cfg.table) (b : Log cfg.table)
    (hsize : Log.off (a ++ r :: b) ≤ cfg.size) (hfuel : cfg.size ≤ fuel)
    (hlive : r.live = true) :
    getEnvBlockByNumber fuel cfg (region (a ++ r :: b) rest) a.liveCount = some (some a.off) := by
  have hlen := length_lt_size hsize
  rw [length_append,length_cons] at hlen
  have hlt := off_lt_of_cons hsize
  have hpass := blockLoop_pass (fuel-a.length) a.liveCount [] a (r :: b) rest
    (by simpa using le_of_lt hlt) 0 (by simp)
  have hf : fuel-a.length+a.length = fuel := by omega
  have hf1 : fuel-a.length = (fuel-a.length-1)+1 := by omega
  simp only [nil_append,hf,Log.off_nil,zero_add] at hpass
  rw [getEnvBlockByNumber,hpass,hf1]
  exact blockLoop_found a r b rest a.liveCount hsize hlive

lemma getEnvBlockByNumber_end (hend : LogEnd cfg rs rest) (hfuel : cfg.size ≤ fuel)
    (hindex : rs.liveCount ≤ index) :
    getEnvBlockByNumber fuel cfg (region rs rest) index = some none := by
  have hlen := length_lt_size hend.le
  have hf : fuel-rs.length = (fuel-rs.length-1)+1 := by omega
  rw [getEnvBlockByNumber_pass rs hend.le hfuel hindex,hf,blockLoop,region_drop,if_neg]
  rintro ⟨hlt,hne⟩
  exact hne (hend.erased hlt)

end ByNumber

def Rec.matches (cfg : EnvConfig) (nm : CStr) (r : Rec cfg.table) : Bool :=
  r.live && (if cfg.table.index nm ≠ 0 then decide (r.var.num = cfg.table.index nm)
    else decide (r.key = nm))

def Log.find (cfg : EnvConfig) (nm : CStr) (rs : Log cfg.table) :
    Option (Log cfg.table × Rec cfg.table × Log cfg.table) :=
  splitFirst (Rec.matches cfg nm) rs

section ByName

/-- The test of `GetEnvBlockByName` at the bytes `x`. -/
abbrev BlockTest (cfg : EnvConfig) (nm : CStr) (x : Bytes) : Prop :=
  if cfg.table.index nm ≠ 0 then (varNum x).toNat = cfg.table.index nm
  else strcmp nm (data x) = 0

lemma blockTest_encode (nm : CStr) {r : Rec cfg.table} (hlive : r.live = true) (rest : Bytes) :
    BlockTest cfg nm (r.encode ++ rest) ↔ r.matches cfg nm = true := by
  rw [BlockTest,toNat_varNum_encode,strcmp_eq_zero_iff,cstr_data_encode,cstr_eq_self nm.2,
    Rec.matches,hlive,Bool.true_and]
  split
  · rw [decide_eq_true_iff]
  · rw [decide_eq_true_iff,eq_comm,Subtype.ext_iff]

lemma nameLoop_pass (rest : Bytes) (left : ℕ) (a b c : Log cfg.table) (hfuel : cfg.size ≤ fuel)
    (hsize : Log.off (a ++ (b ++ c)) ≤ cfg.size) (hb : ∀ r ∈ b, r.matches cfg nm = false) :
    nameLoop fuel cfg (region (a ++ (b ++ c)) rest) nm (left+b.liveCount) a.liveCount =
      nameLoop fuel cfg (region (a ++ (b ++ c)) rest) nm left (Log.liveCount (a ++ b)) := by
  induction b generalizing a with
  | nil => simp [Log.liveCount]
  | cons r b ih =>
    obtain ⟨hr,hb⟩ := forall_mem_cons.mp hb
    have hnext := ih (a ++ [r])
    simp only [append_assoc,singleton_append] at hnext
    cases hl : r.live with
    | false =>
      have hcount : Log.liveCount (a ++ [r]) = a.liveCount := by
        rw [Log.liveCount_append,Log.liveCount_cons,hl]
        rfl
      rw [Log.liveCount_cons,hl,if_neg (by simp),zero_add,← hcount]
      exact hnext hsize hb
    | true =>
      have hcount : Log.liveCount (a ++ [r]) = a.liveCount+1 := by
        rw [Log.liveCount_append,Log.liveCount_cons,hl]
        rfl
      have hleft : left+Log.liveCount (r :: b) = (left+Log.liveCount b)+1 := by
        rw [Log.liveCount_cons,hl,if_pos rfl]
        omega
      have htest := (blockTest_encode nm hl (Log.encode (b ++ c) ++ rest)).not.mpr (by simp [hr])
      rw [hleft,nameLoop,cons_append,getEnvBlockByNumber_region a r (b ++ c) hsize hfuel hl,
        bind_some]
      simp only [region_drop_rec]
      rw [if_neg htest,← hcount]
      exact hnext hsize hb

lemma nameLoop_found (left : ℕ) (a : Log cfg.table) (r : Rec cfg.table) (b : Log cfg.table)
    (hfuel : cfg.size ≤ fuel) (hsize : Log.off (a ++ r :: b) ≤ cfg.size)
    (hr : r.matches cfg nm = true) :
    nameLoop fuel cfg (region (a ++ r :: b) rest) nm (left+1) a.liveCount =
      some (some a.off) := by
  have hl : r.live = true := by
    rw [Rec.matches,Bool.and_eq_true] at hr
    exact hr.1
  rw [nameLoop,getEnvBlockByNumber_region a r b hsize hfuel hl,bind_some]
  simp only [region_drop_rec]
  rw [if_pos ((blockTest_encode nm hl (b.encode ++ rest)).mpr hr)]

lemma liveCount_le_maxEnvVarsNum (hsize : rs.off ≤ cfg.size) :
    rs.liveCount ≤ cfg.maxEnvVarsNum := by
  have hl : rs.liveCount ≤ rs.length := countP_le_length
  have hc := rs.length_le_cells
  have hs := cfg.size_le
  simp only [Log.off,EnvConfig.maxEnvVarsNum,envCellSize] at hsize ⊢
  omega

lemma getEnvBlockByName_found (a : Log cfg.table) (r : Rec cfg.table) (b : Log cfg.table)
    (hfuel : cfg.size ≤ fuel) (hsize : Log.off (a ++ r :: b) ≤ cfg.size)
    (ha : ∀ x ∈ a, x.matches cfg nm = false) (hr : r.matches cfg nm = true) :
    getEnvBlockByName fuel cfg (region (a ++ r :: b) rest) nm = some (some a.off) := by
  have hle := liveCount_le_maxEnvVarsNum hsize
  have hl : r.live = true := by
    rw [Rec.matches,Bool.and_eq_true] at hr
    exact hr.1
  have hcount : Log.liveCount (a ++ r :: b) = a.liveCount+(1+Log.liveCount b) := by
    rw [Log.liveCount_append,Log.liveCount_cons,hl,if_pos rfl]
  obtain ⟨left,hleft⟩ : ∃ left, cfg.maxEnvVarsNum = (left+1)+a.liveCount :=
    ⟨cfg.maxEnvVarsNum-a.liveCount-1,by omega⟩
  have hpass := nameLoop_pass rest (left+1) [] a (r :: b) hfuel hsize ha
  rw [getEnvBlockByName,hleft]
  exact hpass.trans (nameLoop_found left a r b hfuel hsize hr)

lemma getEnvBlockByName_region (hfuel : cfg.size ≤ fuel) (hend : LogEnd cfg rs rest) :
    getEnvBlockByName fuel cfg (region rs rest) nm =
      some ((rs.find cfg nm).map fun s => s.1.off) := by
  cases hf : rs.find cfg nm with
  | some s =>
    obtain ⟨a,r,b⟩ := s
    obtain ⟨rfl,hr,ha⟩ := splitFirst_eq_some_iff.mp hf
    exact getEnvBlockByName_found a r b hfuel hend.le ha hr
  | none =>
    have hall := splitFirst_eq_none_iff.mp hf
    have hle := liveCount_le_maxEnvVarsNum hend.le
    have hpass := nameLoop_pass rest (cfg.maxEnvVarsNum-rs.liveCount) [] rs [] hfuel (by simpa using hend.le) hall
    rw [Nat.sub_add_cancel hle] at hpass
    simp only [nil_append,append_nil] at hpass
    rw [getEnvBlockByName]
    refine hpass.trans ?_
    cases cfg.maxEnvVarsNum-rs.liveCount with
    | zero => rfl
    | succ left => rw [nameLoop,getEnvBlockByNumber_end hend hfuel (le_refl _)]; rfl

end ByName

lemma getNameAndValue_encode {m : Bytes} {p : ℕ} (h : m.drop p = r.encode ++ rest) :
    getNameAndValueFromEnvVar cfg m p =
      if r.good then (some r.var.name.1,some r.value.1,m)
      else (none,none,envMakeGarbage m p) := by
  -- The strings are those of the record, whichever kind of variable it is.
  have hval : (if r.var.isDyn then
      cstr ((data (r.encode ++ rest)).drop (strlen (data (r.encode ++ rest))+1))
      else r.key.1) = r.value.1 := by
    cases hv : r.var with
    | pre i h =>
      rw [if_neg (by simp [Var.isDyn])]
      simp only [Rec.key,hv]
    | dyn nm h => exact (if_pos rfl).trans (cstr_value_encode r _ hv)
  have hname : (if r.var.isDyn then some r.key.1 else cfg.table.nameOf r.var.num) =
      some r.var.name.1 := by
    rw [Rec.key]
    cases hv : r.var with
    | pre i h => exact (some_get h).symm
    | dyn nm h => rfl
  have hdyn : isEnvDynamic r.ctrlOf = r.var.isDyn := isEnvDynamic_ctrlByte _ _ _
  have hnum : (UInt8.ofNat r.var.num).toNat = r.var.num := toNat_varNum_encode r []
  have hsum : (UInt8.ofNat r.var.num).toUInt16+r.ctrlOf.toUInt16 +
      (UInt8.ofNat r.cells).toUInt16+byteSum r.value.1 +
      (if r.var.isDyn then byteSum r.key.1 else 0)+r.chk = r.sum := rfl
  rw [getNameAndValueFromEnvVar]
  simp only [h,ctrl_encode,hdyn,chksum_encode,varNum_encode,hnum,numCells_encode,
    cstr_data_encode,hval,hname,hsum]
  have hgood : r.good = true ↔ ~~~ r.sum = 0 := decide_eq_true_iff
  by_cases hg : r.good = true
  · rw [if_neg (not_not.mpr (hgood.mp hg)),if_pos hg]
  · rw [if_pos (mt hgood.mpr hg),if_neg hg]

section

variable (a : Log cfg.table) (r : Rec cfg.table) (b : Log cfg.table) (rest : Bytes)

lemma getNameAndValue_region :
    getNameAndValueFromEnvVar cfg (region (a ++ r :: b) rest) a.off =
      if r.good then (some r.var.name.1,some r.value.1,region (a ++ r :: b) rest)
      else (none,none,region (a ++ r.kill :: b) rest) := by
  rw [getNameAndValue_encode (region_drop_rec a r b rest),envMakeGarbage_region]

lemma sysGetivar_found (hsize : Log.off (a ++ r :: b) ≤ cfg.size) (hfuel : cfg.size ≤ fuel)
    (hl : r.live = true) (hg : r.good = true) :
    sysGetivar fuel cfg (region (a ++ r :: b) rest) a.liveCount =
      some (some r.var.name.1,region (a ++ r :: b) rest) := by
  rw [sysGetivar,getEnvBlockByNumber_region a r b hsize hfuel hl,map_some]
  simp only [getNameAndValue_region,hg,if_true]

end

def Log.get (cfg : EnvConfig) (nm : CStr) (rs : Log cfg.table) : Option CStr × Log cfg.table :=
  match rs.find cfg nm with
  | none => (none,rs)
  | some (a,r,b) => if r.good then (some r.value,rs) else (none, a ++ r.kill :: b)

lemma sysGetenv_region (hfuel : cfg.size ≤ fuel) (hend : LogEnd cfg rs rest) :
    sysGetenv fuel cfg (region rs rest) nm =
      some ((rs.get cfg nm).1.map Subtype.val,region (rs.get cfg nm).2 rest) := by
  rw [sysGetenv,getEnvBlockByName_region hfuel hend,Log.get]
  cases hf : rs.find cfg nm with
  | none => rfl
  | some s =>
    obtain ⟨a,r,b⟩ := s
    obtain ⟨rfl,-,-⟩ := splitFirst_eq_some_iff.mp hf
    simp only [map_some,getNameAndValue_region]
    cases r.good <;> rfl

lemma sysGetenv_found {a b : Log cfg.table} (hfuel : cfg.size ≤ fuel)
    (hsize : Log.off (a ++ r :: b) ≤ cfg.size) (ha : ∀ x ∈ a, x.matches cfg nm = false)
    (hr : r.matches cfg nm = true) (hg : r.good = true) :
    sysGetenv fuel cfg (region (a ++ r :: b) rest) nm =
      some (some r.value.1,region (a ++ r :: b) rest) := by
  rw [sysGetenv,getEnvBlockByName_found a r b hfuel hsize ha hr]
  simp only [map_some,getNameAndValue_region,hg,if_true]

def Log.hasGarbage {T : EnvTable} (rs : Log T) : Bool := rs.any fun r => !r.live

lemma endLoop_pass (fuel : ℕ) (a b c : Log cfg.table) (rest : Bytes)
    (hsize : Log.off (a ++ b) ≤ cfg.size) (g : Bool) :
    endLoop cfg (region (a ++ (b ++ c)) rest) (fuel+b.length) a.off g =
      endLoop cfg (region (a ++ (b ++ c)) rest) fuel (Log.off (a ++ b)) (g || b.hasGarbage) := by
  induction b generalizing a g with
  | nil => simp [Log.hasGarbage]
  | cons r b ih =>
    have hnext := ih (a ++ [r])
    simp only [append_assoc,singleton_append] at hnext
    have hlt : a.off < cfg.size := off_lt_of_cons hsize
    have hlen : fuel+(r :: b).length = (fuel+b.length)+1 := by simp [add_assoc]
    rw [hlen,endLoop,cons_append,if_pos ⟨hlt,varNum_region_ne a r (b ++ c) rest⟩,
      isEnvGarbage_region,envGetNextBlock_region,hnext hsize]
    simp [Log.hasGarbage,Bool.or_assoc]

lemma endLoop_region (hfuel : cfg.size ≤ fuel) (hend : LogEnd cfg rs rest) (g : Bool) :
    endLoop cfg (region rs rest) fuel envCellSize g = some (rs.off,g || rs.hasGarbage) := by
  have hlen := length_lt_size hend.le
  have hpass := endLoop_pass (fuel-rs.length) [] rs [] rest (by simpa using hend.le) g
  have hf : fuel-rs.length+rs.length = fuel := by omega
  have hf1 : fuel-rs.length = (fuel-rs.length-1)+1 := by omega
  simp only [nil_append,append_nil,hf,Log.off_nil] at hpass
  rw [hpass,hf1,endLoop,region_drop,if_neg]
  rintro ⟨hlt,hne⟩
  exact hne (hend.erased hlt)

end DslG624t.Env
