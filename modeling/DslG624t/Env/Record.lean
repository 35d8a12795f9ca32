import DslG624t.Env.Store

/-!
# Records and the bytes they are stored as

A `Rec` is a record that the walk over the log can step over: its strings are terminated within it
and its number of cells is that of its text and fits in the byte that stores it.
-/

namespace DslG624t.Env

open CString Flash List

variable {T : EnvTable}

def ctrlByte (dyn perm live : Bool) : UInt8 :=
  (if dyn then 0xFD else 0xFF) &&& (if perm then 0xFB else 0xFF) &&& (if live then 0xFF else 0xFE)

section ctrlByte

variable (dyn perm live : Bool)

@[simp] lemma isEnvGarbage_ctrlByte : isEnvGarbage (ctrlByte dyn perm live) = !live := by
  revert dyn perm live
  decide

@[simp] lemma isEnvDynamic_ctrlByte : isEnvDynamic (ctrlByte dyn perm live) = dyn := by
  revert dyn perm live
  decide

@[simp] lemma isEnvPerm_ctrlByte : isEnvPerm (ctrlByte dyn perm live) = perm := by
  revert dyn perm live
  decide

lemma ctrlByte_and_clear :
    ctrlByte dyn perm live &&& (ctrlByte dyn perm live &&& ~~~ envGarbageBit) =
      ctrlByte dyn perm false := by
  revert dyn perm live
  decide

end ctrlByte

def Var.stored : Var T → Bytes
  | .pre _ _ => []
  | .dyn nm _ => nm.1 ++ [0]

def recText (v : Var T) (val : Bytes) : Bytes := v.stored ++ (val ++ [0])

def cellsFor (len : ℕ) : ℕ :=
  (5+len) / envCellSize+(if (5+len) % envCellSize ≠ 0 then 1 else 0)

lemma cellsFor_spec (len : ℕ) :
    5+len ≤ cellsFor len*envCellSize ∧ cellsFor len*envCellSize < 5+len+envCellSize := by
  by_cases h : (5+len) % envCellSize = 0
  · simp only [cellsFor,h,ne_eq,not_true_eq_false,if_false]
    simp only [envCellSize] at h ⊢
    omega
  · simp only [cellsFor,h,ne_eq,not_false_eq_true,if_true]
    simp only [envCellSize] at h ⊢
    omega

lemma cellsFor_pos (len : ℕ) : 1 ≤ cellsFor len := by
  have h := (cellsFor_spec len).1
  simp only [envCellSize] at h
  omega

structure Rec (T : EnvTable) where
  var : Var T
  value : CStr
  perm : Bool
  live : Bool
  chk : UInt16
  pad : Bytes
  cells_le : cellsFor (recText var value.1).length ≤ 255
  pad_len : 5+(recText var value.1).length+pad.length =
    cellsFor (recText var value.1).length*envCellSize
  deriving DecidableEq

namespace Rec

def text (r : Rec T) : Bytes := recText r.var r.value

def cells (r : Rec T) : ℕ := cellsFor r.text.length

def ctrlOf (r : Rec T) : UInt8 := ctrlByte r.var.isDyn r.perm r.live

def encode (r : Rec T) : Bytes :=
  [UInt8.ofNat r.var.num,r.ctrlOf,r.chk.toUInt8,(r.chk >>> 8).toUInt8,UInt8.ofNat r.cells] ++
    (r.text ++ r.pad)

def key (r : Rec T) : CStr :=
  match r.var with
  | .pre _ _ => r.value
  | .dyn nm _ => nm

def sum (r : Rec T) : UInt16 :=
  (UInt8.ofNat r.var.num).toUInt16+r.ctrlOf.toUInt16+(UInt8.ofNat r.cells).toUInt16 +
    byteSum r.value.1+(if r.var.isDyn then byteSum r.key.1 else 0)+r.chk

def good (r : Rec T) : Bool := ~~~ r.sum = 0

def kill (r : Rec T) : Rec T := { r with live := false }

lemma cells_pos (r : Rec T) : 1 ≤ r.cells := cellsFor_pos _

lemma cells_lt (r : Rec T) : r.cells < 256 := Nat.lt_succ_of_le r.cells_le

@[simp] lemma length_encode (r : Rec T) : r.encode.length = r.cells*envCellSize := by
  have h := r.pad_len
  simp only [encode,cells,text,length_append,length_cons,length_nil]
  omega

@[simp] lemma cells_kill (r : Rec T) : r.kill.cells = r.cells := rfl

@[simp] lemma live_kill (r : Rec T) : r.kill.live = false := rfl

end Rec

section Reading

variable (r : Rec T) (rest : Bytes)

@[simp] lemma varNum_encode : varNum (r.encode ++ rest) = UInt8.ofNat r.var.num := rfl

@[simp] lemma ctrl_encode : ctrl (r.encode ++ rest) = r.ctrlOf := rfl

@[simp] lemma numCells_encode : numCells (r.encode ++ rest) = UInt8.ofNat r.cells := rfl

lemma data_encode : data (r.encode ++ rest) = r.text ++ (r.pad ++ rest) := by
  simp [data,Rec.encode]

lemma toUInt16_halves (c : UInt16) : c.toUInt8.toUInt16+(c >>> 8).toUInt8.toUInt16*256 = c := by
  refine UInt16.toNat_inj.mp ?_
  have hc := c.toNat_lt
  have h8 : 2 ^ ((8 : UInt16).toNat % 16) = 256 := rfl
  have h256 : (256 : UInt16).toNat = 256 := rfl
  simp only [UInt16.toNat_add,UInt16.toNat_mul,UInt8.toNat_toUInt16,UInt16.toNat_toUInt8,
    UInt16.toNat_shiftRight,h256,Nat.shiftRight_eq_div_pow,h8]
  omega

@[simp] lemma chksum_encode : chksum (r.encode ++ rest) = r.chk := toUInt16_halves r.chk

lemma varNum_encode_ne : varNum (r.encode ++ rest) ≠ 0xFF := by
  intro h
  have hlt := r.var.num_lt
  have hn := congrArg UInt8.toNat h
  rw [varNum_encode,UInt8.toNat_ofNat',Nat.mod_eq_of_lt (by omega)] at hn
  have h255 : (0xFF : UInt8).toNat = 255 := rfl
  omega

lemma toNat_varNum_encode : (varNum (r.encode ++ rest)).toNat = r.var.num := by
  have hlt := r.var.num_lt
  rw [varNum_encode,UInt8.toNat_ofNat',Nat.mod_eq_of_lt (by omega)]

lemma toNat_numCells_encode : (numCells (r.encode ++ rest)).toNat = r.cells := by
  rw [numCells_encode,UInt8.toNat_ofNat',Nat.mod_eq_of_lt r.cells_lt]

lemma cstr_data_encode : cstr (data (r.encode ++ rest)) = r.key.1 := by
  rw [data_encode,Rec.text,recText]
  cases hv : r.var with
  | pre i h =>
    have hkey : r.key = r.value := by simp only [Rec.key,hv]
    simp only [hkey,Var.stored,nil_append,append_assoc,singleton_append]
    exact cstr_append_nul r.value.2 _
  | dyn nm h =>
    have hkey : r.key = nm := by simp only [Rec.key,hv]
    simp only [hkey,Var.stored,append_assoc,singleton_append]
    exact cstr_append_nul nm.2 _

lemma cstr_value_encode {nm : CStr} {h : T.index nm = 0} (hv : r.var = .dyn nm h) :
    cstr ((data (r.encode ++ rest)).drop (strlen (data (r.encode ++ rest))+1)) =
      r.value.1 := by
  have hkey : r.key = nm := by simp only [Rec.key,hv]
  rw [strlen,cstr_data_encode,hkey,data_encode,Rec.text,recText,hv,Var.stored]
  have happ : nm.1 ++ [0] ++ (r.value.1 ++ [0]) ++ (r.pad ++ rest) =
      (nm.1 ++ [0]) ++ (r.value.1 ++ 0 :: (r.pad ++ rest)) := by simp
  have hlen : nm.1.length+1 = (nm.1 ++ [0]).length := by simp
  rw [happ,hlen,drop_left]
  exact cstr_append_nul r.value.2 _

end Reading

abbrev Log (T : EnvTable) := List (Rec T)

namespace Log

def cells (rs : Log T) : ℕ := (rs.map Rec.cells).sum

def encode (rs : Log T) : Bytes := rs.flatMap Rec.encode

def off (rs : Log T) : ℕ := envCellSize+cells rs*envCellSize

def liveCount (rs : Log T) : ℕ := rs.countP Rec.live

@[simp] lemma cells_nil : cells ([] : Log T) = 0 := rfl

variable (r : Rec T) (rs : Log T) (a b : Log T)

@[simp] lemma cells_cons : cells (r :: rs) = r.cells+cells rs := by
  simp [cells]

@[simp] lemma cells_append : cells (a ++ b) = cells a+cells b := by
  simp [cells]

@[simp] lemma encode_nil : encode ([] : Log T) = [] := rfl

@[simp] lemma encode_cons : encode (r :: rs) = r.encode ++ encode rs := rfl

@[simp] lemma encode_append : encode (a ++ b) = encode a ++ encode b := by
  simp [encode]

lemma length_encode : (encode rs).length = cells rs*envCellSize := by
  induction rs with
  | nil => simp
  | cons r rs ih => simp [ih,add_mul]

lemma length_le_cells : rs.length ≤ cells rs := by
  induction rs with
  | nil => simp
  | cons r rs ih =>
    have h := r.cells_pos
    simp only [length_cons,cells_cons]
    omega

@[simp] lemma off_nil : off ([] : Log T) = envCellSize := by simp [off]

lemma off_append_cons (a : Log T) (r : Rec T) : off (a ++ [r]) = off a+r.cells*envCellSize := by
  simp only [off,cells_append,cells_cons,cells_nil,add_zero,add_mul,add_assoc]

lemma liveCount_append : liveCount (a ++ b) = liveCount a+liveCount b :=
  countP_append

lemma liveCount_cons : liveCount (r :: rs) = (if r.live then 1 else 0)+liveCount rs := by
  rw [liveCount,countP_cons,add_comm]
  rfl

end Log

def versionCell : Bytes := envVersion ++ 0 :: List.replicate 7 erased

def region (rs : Log T) (rest : Bytes) : Bytes := versionCell ++ (Log.encode rs ++ rest)

lemma length_versionCell : versionCell.length = envCellSize := by decide

lemma region_append (a b : Log T) (rest : Bytes) :
    region (a ++ b) rest = region a (Log.encode b ++ rest) := by
  simp [region]

variable (a : Log T) (r : Rec T) (b : Log T) (rest : Bytes)

lemma region_eq :
    ∃ pre, region a rest = pre ++ rest ∧ pre.length = a.off ∧
      ∀ rest', region a rest' = pre ++ rest' := by
  refine ⟨versionCell ++ a.encode,by simp [region],?_,fun rest' => by simp [region]⟩
  rw [length_append,length_versionCell,Log.length_encode,Log.off]

lemma region_drop : (region a rest).drop a.off = rest := by
  obtain ⟨pre,hpre,hlen,-⟩ := region_eq a rest
  rw [hpre,← hlen,drop_left]

lemma region_drop_rec :
    (region (a ++ r :: b) rest).drop a.off = r.encode ++ (b.encode ++ rest) := by
  rw [region_append,region_drop,Log.encode_cons,append_assoc]

lemma garbageWrite_region :
    garbageWrite (region (a ++ r :: b) rest) a.off =
      (a.off+1,r.ctrlOf &&& ~~~ envGarbageBit) := by
  rw [garbageWrite,region_drop_rec,ctrl_encode]

lemma envMakeGarbage_region :
    envMakeGarbage (region (a ++ r :: b) rest) a.off = region (a ++ r.kill :: b) rest := by
  obtain ⟨pre,-,hlen,hpre⟩ := region_eq a []
  -- The control byte, with what stands before and behind it.
  have hsplit (c : UInt8) (tail : Bytes) :
      pre ++ (UInt8.ofNat r.var.num :: c :: tail) =
        (pre ++ [UInt8.ofNat r.var.num]) ++ c :: tail := by simp
  have hoff : a.off+1 = (pre ++ [UInt8.ofNat r.var.num]).length := by simp [hlen]
  rw [envMakeGarbage,programAll_cons,programAll_nil,garbageWrite_region,region_append,
    region_append,hpre,hpre,Log.encode_cons,Log.encode_cons,Rec.encode,Rec.encode]
  simp only [cons_append,nil_append,append_assoc]
  have hkill : r.ctrlOf &&& (r.ctrlOf &&& ~~~ envGarbageBit) = r.kill.ctrlOf :=
    ctrlByte_and_clear _ _ _
  rw [hsplit,hoff,program_append,hkill,← hsplit]
  rfl

section NewRecord

variable (cfg : EnvConfig) (nm val : CStr) (perm : Bool)

lemma newVarNum_eq : newVarNum cfg nm = UInt8.ofNat (Var.ofName cfg.table nm).num := by
  rw [newVarNum,Var.num_ofName]

lemma newVarNum_ne : newVarNum cfg nm ≠ 0xFF := by
  intro h
  have hlt := (Var.ofName cfg.table nm).num_lt
  have hn := congrArg UInt8.toNat h
  rw [newVarNum_eq,UInt8.toNat_ofNat',Nat.mod_eq_of_lt (by omega)] at hn
  have h255 : (0xFF : UInt8).toNat = 255 := rfl
  omega

lemma newVarNum_eq_zero_iff : newVarNum cfg nm = 0 ↔ (Var.ofName cfg.table nm).isDyn = true := by
  have hlt := (Var.ofName cfg.table nm).num_lt
  rw [newVarNum_eq,Var.isDyn_eq,decide_eq_true_iff,← UInt8.toNat_inj,UInt8.toNat_ofNat',
    Nat.mod_eq_of_lt (by omega)]
  rfl

lemma ofName_of_index_eq_zero {cfg : EnvConfig} {nm : CStr} (h : cfg.table.index nm = 0) :
    Var.ofName cfg.table nm = .dyn nm h := dif_pos h

lemma name_ofName_of_index_eq_zero {cfg : EnvConfig} {nm : CStr}
    (h : cfg.table.index nm = 0) : (Var.ofName cfg.table nm).name = nm := by
  rw [ofName_of_index_eq_zero h]
  rfl

lemma ofName_of_index_ne_zero {cfg : EnvConfig} {nm : CStr} (h : cfg.table.index nm ≠ 0) :
    Var.ofName cfg.table nm = .pre (cfg.table.index nm) (cfg.table.nameOf_index h) := dif_neg h

lemma newText_eq : newText cfg nm val = recText (Var.ofName cfg.table nm) val := by
  rw [newText,recText]
  by_cases h : cfg.table.index nm = 0
  · have hv := ofName_of_index_eq_zero h
    rw [if_pos ((newVarNum_eq_zero_iff cfg nm).mpr (by rw [hv]; rfl)),hv]
    rfl
  · have hv := ofName_of_index_ne_zero h
    rw [if_neg (mt (newVarNum_eq_zero_iff cfg nm).mp (by rw [hv]; simp [Var.isDyn])),hv]
    rfl

lemma cellsFor_newText : cellsFor (newText cfg nm val).length = cellsNeeded cfg nm val := rfl

lemma cellsNeeded_eq :
    cellsNeeded cfg nm val = cellsFor (recText (Var.ofName cfg.table nm) val).length := by
  rw [cellsNeeded,newText_eq]
  rfl

lemma newCtrl_eq : newCtrl cfg nm perm =
    ctrlByte (Var.ofName cfg.table nm).isDyn (cfg.permanentVariables && perm) true := by
  have h := newVarNum_eq_zero_iff cfg nm
  cases hd : (Var.ofName cfg.table nm).isDyn with
  | true =>
    have hz := h.mpr hd
    cases hp : cfg.permanentVariables && perm <;> simp [newCtrl,hz,hp] <;> decide
  | false =>
    have hz : newVarNum cfg nm ≠ 0 := fun hc => by simp [h.mp hc] at hd
    cases hp : cfg.permanentVariables && perm <;> simp [newCtrl,hz,hp] <;> decide

/-- The record that `__sys_setenv` writes. -/
def newRec (h : cellsNeeded cfg nm val ≤ 255) : Rec cfg.table where
  var := Var.ofName cfg.table nm
  value := val
  perm := cfg.permanentVariables && perm
  live := true
  chk := newChksum cfg nm val perm
  pad := List.replicate
    (cellsNeeded cfg nm val*envCellSize-(5+(newText cfg nm val).length)) erased
  cells_le := by rwa [cellsNeeded_eq] at h
  pad_len := by
    have hs := (cellsFor_spec (newText cfg nm val).length).1
    rw [length_replicate,cellsNeeded_eq,← newText_eq]
    omega

variable {cfg nm val perm}

lemma cells_newRec (h : cellsNeeded cfg nm val ≤ 255) :
    (newRec cfg nm val perm h).cells = cellsNeeded cfg nm val := (cellsNeeded_eq cfg nm val).symm

lemma encode_newRec (h : cellsNeeded cfg nm val ≤ 255) :
    (newRec cfg nm val perm h).encode =
      newHeader cfg nm val perm ++ newText cfg nm val ++ (newRec cfg nm val perm h).pad := by
  have hc : (newRec cfg nm val perm h).ctrlOf = newCtrl cfg nm perm := (newCtrl_eq cfg nm perm).symm
  have ht : (newRec cfg nm val perm h).text = newText cfg nm val := (newText_eq cfg nm val).symm
  have hn : UInt8.ofNat (newRec cfg nm val perm h).var.num = newVarNum cfg nm :=
    (newVarNum_eq cfg nm).symm
  rw [Rec.encode,hc,ht,cells_newRec,newHeader,hn,append_assoc]
  rfl

lemma key_of_isDyn {r : Rec cfg.table} (hr : r.var = Var.ofName cfg.table nm)
    (hd : r.var.isDyn = true) : r.key = nm := by
  by_cases h : cfg.table.index nm = 0
  · rw [ofName_of_index_eq_zero h] at hr
    simp only [Rec.key,hr]
  · rw [hr,ofName_of_index_ne_zero h] at hd
    cases hd

lemma good_newRec (h : cellsNeeded cfg nm val ≤ 255) : (newRec cfg nm val perm h).good = true := by
  have hadd (a b c d e : UInt16) : a+b+c+d+e+~~~ (a+b+e+c+d) = ~~~ 0 := by
    have hcomm : a+b+c+d+e = a+b+e+c+d := by ac_rfl
    rw [hcomm]
    exact UInt16.toBitVec_inj.mp (BitVec.add_not_self _)
  have hc : (newRec cfg nm val perm h).ctrlOf = newCtrl cfg nm perm := (newCtrl_eq cfg nm perm).symm
  have hn : UInt8.ofNat (newRec cfg nm val perm h).var.num = newVarNum cfg nm :=
    (newVarNum_eq cfg nm).symm
  have hkey : (if (newRec cfg nm val perm h).var.isDyn then
      byteSum (newRec cfg nm val perm h).key.1 else 0) =
        (if newVarNum cfg nm = 0 then byteSum nm.1 else 0) := by
    cases hd : (newRec cfg nm val perm h).var.isDyn with
    | true => rw [if_pos rfl,if_pos ((newVarNum_eq_zero_iff cfg nm).mpr hd),key_of_isDyn rfl hd]
    | false =>
      rw [if_neg (by simp),if_neg]
      intro hz
      have hd' : (newRec cfg nm val perm h).var.isDyn = true :=
        (newVarNum_eq_zero_iff cfg nm).mp hz
      simp [hd'] at hd
  have hsum : (newRec cfg nm val perm h).sum = ~~~ 0 := by
    rw [Rec.sum,hkey,hc,hn,cells_newRec]
    exact hadd _ _ _ _ _
  rw [Rec.good,hsum]
  decide

lemma programAll_newRec (perm : Bool) (pre : Bytes) (n : ℕ) (after : Bytes)
    (h : cellsNeeded cfg nm val ≤ 255) (hn : cellsNeeded cfg nm val*envCellSize ≤ n) :
    programAll (pre ++ (List.replicate n erased ++ after))
      (writesAt pre.length (newHeader cfg nm val perm ++ newText cfg nm val)) =
      pre ++ ((newRec cfg nm val perm h).encode ++
        (List.replicate (n-cellsNeeded cfg nm val*envCellSize) erased ++ after)) := by
  have hs := (cellsFor_spec (newText cfg nm val).length).1
  have hbytes : (newHeader cfg nm val perm ++ newText cfg nm val).length =
      5+(newText cfg nm val).length := length_append
  -- The erased bytes are those written, the rest of the last cell, and what stays free.
  have hfree : replicate n erased =
      replicate (newHeader cfg nm val perm ++ newText cfg nm val).length erased ++
        ((newRec cfg nm val perm h).pad ++
          replicate (n-cellsNeeded cfg nm val*envCellSize) erased) := by
    rw [cellsFor_newText] at hs
    rw [newRec,hbytes,replicate_append_replicate,replicate_append_replicate]
    congr 1
    omega
  rw [hfree,append_assoc,programAll_writesAt_erased,encode_newRec]
  simp

lemma append_region (perm : Bool) (rs : Log cfg.table) (n : ℕ) (after : Bytes)
    (h : cellsNeeded cfg nm val ≤ 255) (hn : cellsNeeded cfg nm val*envCellSize ≤ n) :
    programAll (region rs (List.replicate n erased ++ after))
      (writesAt rs.off (newHeader cfg nm val perm ++ newText cfg nm val)) =
      region (rs ++ [newRec cfg nm val perm h])
        (List.replicate (n-cellsNeeded cfg nm val*envCellSize) erased ++ after) := by
  obtain ⟨pre,-,hlen,hpre⟩ := region_eq rs []
  rw [hpre,← hlen,programAll_newRec perm pre n after h hn,region_append,hpre,Log.encode_cons,
    Log.encode_nil,append_nil]

end NewRecord

end DslG624t.Env
