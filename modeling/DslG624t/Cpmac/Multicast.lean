import DslG624t.Lib.Ethernet

/-!
# The multicast hash filter

`hashGet`, `hashAdd`, `hashDel`, `cpmacSingleMulti` and `cpmacAllMulti` of `ddc_cpmac.c`, and
`cpmac_dev_mcast_set` of `cpmacNetLx.c`, which programs the interface's multicast list through
them.
-/

namespace DslG624t.Cpmac

open Ethernet Function

/-- The `MacHash1`/`MacHash2` pair. The driver keeps one copy, the hardware the other. -/
structure HashRegs where
  macHash1 : BitVec 32
  macHash2 : BitVec 32
  deriving DecidableEq

def HashRegs.bit (r : HashRegs) (h : ℕ) : Bool :=
  if h < 32 then r.macHash1.getLsbD h else r.macHash2.getLsbD (h-32)

/-- The part of `CpmacRxConfig` that `cpmac_dev_mcast_set` changes. -/
structure RxConfig where
  promiscousEnable : Bool
  multicastEnable : Bool
  deriving DecidableEq

/-- `CpmacDDCObj`, as far as multicast filtering reads and writes it. -/
structure CpmacDDCObj where
  opened : Bool
  rxCfg : RxConfig
  hash : HashRegs
  regs : HashRegs
  multicastHashCnt : ℕ → BitVec 32

def CPMAC_NUM_MULTICAST_BITS : ℕ := 64

def CPMAC_INVALID_PARAM : ℤ := 0x34000080

def CPMAC_ALL_MULTI_REG_VALUE : BitVec 32 := 0xFFFFFFFF

def hashRound (hash : BitVec 32) (t0 t1 t2 : UInt8) : BitVec 32 :=
  let w (t : UInt8) : BitVec 32 := t.toBitVec.setWidth 32
  let hash := hash ^^^ ((w t0 >>> 2) ^^^ (w t0 <<< 4))
  let hash := hash ^^^ ((w t1 >>> 4) ^^^ (w t1 <<< 2))
  hash ^^^ ((w t2 >>> 6) ^^^ w t2)

def hashGet (addr : Mac) : ℕ :=
  let hash := hashRound 0 addr.b0 addr.b1 addr.b2
  let hash := hashRound hash addr.b3 addr.b4 addr.b5
  (hash &&& 0x3F).toNat

def HashRegs.setBit (r : HashRegs) (v : ℕ) : HashRegs :=
  if v < 32 then { r with macHash1 := r.macHash1 ||| ((1 : BitVec 32) <<< v) }
  else { r with macHash2 := r.macHash2 ||| ((1 : BitVec 32) <<< (v-32)) }

def HashRegs.clearBit (r : HashRegs) (v : ℕ) : HashRegs :=
  if v < 32 then { r with macHash1 := r.macHash1 &&& ~~~ ((1 : BitVec 32) <<< v) }
  else { r with macHash2 := r.macHash2 &&& ~~~ ((1 : BitVec 32) <<< (v-32)) }

def hashAdd (d : CpmacDDCObj) (macAddress : Mac) : ℤ × CpmacDDCObj :=
  let v := hashGet macAddress
  if v ≥ CPMAC_NUM_MULTICAST_BITS then (CPMAC_INVALID_PARAM,d)
  else
    let cnt := update d.multicastHashCnt v (d.multicastHashCnt v+1)
    if d.multicastHashCnt v = 0 then
      (1,{ d with hash := d.hash.setBit v, multicastHashCnt := cnt })
    else (0,{ d with multicastHashCnt := cnt })

def hashDel (d : CpmacDDCObj) (macAddress : Mac) : ℤ × CpmacDDCObj :=
  let v := hashGet macAddress
  let d := if 0 < d.multicastHashCnt v then
    { d with
      multicastHashCnt := update d.multicastHashCnt v (d.multicastHashCnt v-1) }
    else d
  if 0 < d.multicastHashCnt v then (0,d)
  else (1,{ d with hash := d.hash.clearBit v })

inductive SingleMultiOper where
  | add
  | del

inductive AllMultiOper where
  | set
  | clr

def cpmacSingleMulti (d : CpmacDDCObj) (oper : SingleMultiOper) (addr : Mac) : CpmacDDCObj :=
  let r := match oper with
    | .add => hashAdd d addr
    | .del => hashDel d addr
  -- The hardware copy follows only when a bit changed.
  if 0 < r.1 then { r.2 with regs := r.2.hash } else r.2

def cpmacAllMulti (d : CpmacDDCObj) (oper : AllMultiOper) : CpmacDDCObj :=
  let hash : HashRegs := match oper with
    | .set => ⟨CPMAC_ALL_MULTI_REG_VALUE,CPMAC_ALL_MULTI_REG_VALUE⟩
    | .clr => ⟨0,0⟩
  { d with hash := hash, regs := hash }

/-- The three requests `cpmac_dev_mcast_set` makes of `DDC_cpmacControl`. -/
inductive Ioctl where
  | setRxCfg (cfg : RxConfig)
  | multicastAddr (oper : SingleMultiOper) (addr : Mac)
  | allMulti (oper : AllMultiOper)

def ddcControl (d : CpmacDDCObj) : Ioctl → CpmacDDCObj
  | .setRxCfg cfg => { d with rxCfg := cfg }
  | .multicastAddr oper addr => if d.opened then cpmacSingleMulti d oper addr else d
  | .allMulti oper => if d.opened then cpmacAllMulti d oper else d

/-- `CpmacNetDevice`: the driver's own receive configuration and the controller below. -/
structure CpmacNetDevice where
  rxCfg : RxConfig
  hDDC : CpmacDDCObj

/-- What `p_dev` shows to one call: its flags and its multicast list. -/
structure NetDev where
  flags : BitVec 16
  mcList : List Mac

def IFF_PROMISC : BitVec 16 := 0x100
def IFF_ALLMULTI : BitVec 16 := 0x200
def CPMAC_DDA_DEFAULT_MAX_MULTICAST_ADDRESSES : ℕ := 64

def CpmacNetDevice.control (h : CpmacNetDevice) (c : Ioctl) : CpmacNetDevice :=
  { h with hDDC := ddcControl h.hDDC c }

def CpmacNetDevice.setRxCfg (h : CpmacNetDevice) (cfg : RxConfig) : CpmacNetDevice :=
  { h with rxCfg := cfg }.control (.setRxCfg cfg)

def cpmacDevMcastSet (h : CpmacNetDevice) (p : NetDev) : CpmacNetDevice :=
  if p.flags &&& IFF_PROMISC ≠ 0 then
    h.setRxCfg { h.rxCfg with promiscousEnable := true }
  else if p.flags &&& IFF_ALLMULTI ≠ 0 ∨
    p.mcList.length > CPMAC_DDA_DEFAULT_MAX_MULTICAST_ADDRESSES then
    (h.setRxCfg ⟨false,true⟩).control (.allMulti .set)
  else if p.mcList.length = 0 then
    (h.control (.allMulti .clr)).setRxCfg ⟨false,false⟩
  else
    p.mcList.foldl (fun h a => h.control (.multicastAddr .add a))
      ((h.control (.allMulti .clr)).setRxCfg ⟨false,true⟩)

def openedDevice (cfg : RxConfig) : CpmacNetDevice where
  rxCfg := cfg
  hDDC := ⟨true,cfg,⟨0,0⟩,⟨0,0⟩,fun _ => 0⟩

def run (h : CpmacNetDevice) (ps : List NetDev) : CpmacNetDevice := ps.foldl cpmacDevMcastSet h

variable {d : CpmacDDCObj} {h : CpmacNetDevice} {p : NetDev}

lemma hashGet_lt (a : Mac) : hashGet a < 64 := by
  have h := @Nat.and_le_right (hashRound (hashRound 0 a.b0 a.b1 a.b2) a.b3 a.b4 a.b5).toNat 0x3F
  have heq : hashGet a =
      (hashRound (hashRound 0 a.b0 a.b1 a.b2) a.b3 a.b4 a.b5).toNat &&& 0x3F := by
    simp [hashGet]
  omega

lemma getLsbD_one_shiftLeft (w i : ℕ) (hi : i < 32) :
    ((1 : BitVec 32) <<< w).getLsbD i = decide (i = w) := by
  have hone (k : ℕ) : (1 : BitVec 32).getLsbD k = decide (k = 0) := by
    rw [show (1 : BitVec 32) = 1#32 from rfl,BitVec.getLsbD_one]
    simp
  rw [BitVec.getLsbD_shiftLeft,hone,Bool.eq_iff_iff]
  simp only [hi,decide_true,Bool.true_and,Bool.and_eq_true,Bool.not_eq_true',
    decide_eq_false_iff_not,decide_eq_true_eq]
  omega

lemma bit_setBit (r : HashRegs) {v h : ℕ} (hv : v < 64) (hh : h < 64) :
    (r.setBit v).bit h = (decide (h = v) || r.bit h) := by
  unfold HashRegs.setBit HashRegs.bit
  by_cases hv' : v < 32 <;> by_cases hh' : h < 32
  · simp only [hv',hh',if_true,BitVec.getLsbD_or,getLsbD_one_shiftLeft v h hh',Bool.or_comm]
  · simp only [hv',hh',if_true,if_false,show h ≠ v by omega,decide_false,Bool.false_or]
  · simp only [hv',hh',if_true,if_false,show h ≠ v by omega,decide_false,Bool.false_or]
  · have hvh : h-32 = v-32 ↔ h = v := by omega
    simp only [hv',hh',if_false,BitVec.getLsbD_or,
      getLsbD_one_shiftLeft (v-32) (h-32) (by omega),hvh,Bool.or_comm]

lemma cpmacSingleMulti_add (d : CpmacDDCObj) (a : Mac) :
    cpmacSingleMulti d .add a =
      let cnt := update d.multicastHashCnt (hashGet a)
        (d.multicastHashCnt (hashGet a)+1)
      if d.multicastHashCnt (hashGet a) = 0 then
        { d with
          hash := d.hash.setBit (hashGet a)
          regs := d.hash.setBit (hashGet a)
          multicastHashCnt := cnt }
      else { d with multicastHashCnt := cnt } := by
  have hlt : ¬ hashGet a ≥ CPMAC_NUM_MULTICAST_BITS := by
    have := hashGet_lt a
    unfold CPMAC_NUM_MULTICAST_BITS
    omega
  by_cases h0 : d.multicastHashCnt (hashGet a) = 0
  · simp only [cpmacSingleMulti,hashAdd,if_neg hlt,if_pos h0,Int.one_pos,if_true]
  · simp only [cpmacSingleMulti,hashAdd,if_neg hlt,if_neg h0,Int.lt_irrefl,if_false]

def occ (l : List Mac) (h : ℕ) : ℕ := l.countP fun a => hashGet a = h

lemma occ_cons (a : Mac) (l : List Mac) (h : ℕ) :
    occ (a :: l) h = occ l h+if hashGet a = h then 1 else 0 := by
  simp [occ,List.countP_cons]

lemma occ_append (l l' : List Mac) (h : ℕ) : occ (l ++ l') h = occ l h+occ l' h := by
  simp [occ]

lemma occ_pos_iff {l : List Mac} {h : ℕ} : 0 < occ l h ↔ ∃ a ∈ l, hashGet a = h := by
  simp [occ,List.countP_pos_iff]

def addAll (d : CpmacDDCObj) (l : List Mac) : CpmacDDCObj :=
  l.foldl (fun d a => cpmacSingleMulti d .add a) d

lemma opened_cpmacSingleMulti_add (d : CpmacDDCObj) (a : Mac) :
    (cpmacSingleMulti d .add a).opened = d.opened := by
  rw [cpmacSingleMulti_add]
  dsimp only
  split <;> rfl

lemma cnt_cpmacSingleMulti_add (d : CpmacDDCObj) (a : Mac) (h : ℕ) :
    (cpmacSingleMulti d .add a).multicastHashCnt h =
      d.multicastHashCnt h+if hashGet a = h then 1 else 0 := by
  have hcnt : (cpmacSingleMulti d .add a).multicastHashCnt =
      update d.multicastHashCnt (hashGet a) (d.multicastHashCnt (hashGet a)+1) := by
    rw [cpmacSingleMulti_add]
    dsimp only
    split <;> rfl
  rw [hcnt]
  by_cases hh : hashGet a = h
  · subst hh
    simp
  · rw [update_of_ne (Ne.symm hh),if_neg hh]
    simp

lemma cnt_addAll (d : CpmacDDCObj) (l : List Mac) (h : ℕ) :
    (addAll d l).multicastHashCnt h = d.multicastHashCnt h+BitVec.ofNat 32 (occ l h) := by
  induction l generalizing d with
  | nil => simp [addAll,occ]
  | cons a l ih =>
    have hstep : addAll d (a :: l) = addAll (cpmacSingleMulti d .add a) l := rfl
    rw [hstep,ih,cnt_cpmacSingleMulti_add,occ_cons]
    by_cases hh : hashGet a = h
    · simp only [hh,if_true,BitVec.ofNat_add]
      rw [BitVec.add_assoc,BitVec.add_comm 1]
      rfl
    · simp [hh]

lemma sync_cpmacSingleMulti_add (hs : d.hash = d.regs) (a : Mac) :
    (cpmacSingleMulti d .add a).hash = (cpmacSingleMulti d .add a).regs := by
  rw [cpmacSingleMulti_add]
  dsimp only
  split
  · rfl
  · exact hs

lemma bit_cpmacSingleMulti_add (hs : d.hash = d.regs) (a : Mac) {h : ℕ} (hh : h < 64) :
    (cpmacSingleMulti d .add a).regs.bit h = true ↔
      d.regs.bit h = true ∨ (hashGet a = h ∧ d.multicastHashCnt h = 0) := by
  rw [cpmacSingleMulti_add]
  dsimp only
  by_cases h0 : d.multicastHashCnt (hashGet a) = 0
  · rw [if_pos h0]
    simp only [bit_setBit _ (hashGet_lt a) hh,hs,Bool.or_eq_true,decide_eq_true_eq]
    grind
  · rw [if_neg h0]
    grind

lemma bit_addAll (hs : d.hash = d.regs) (l : List Mac) {h : ℕ} (hh : h < 64) :
    (addAll d l).regs.bit h = true ↔
      d.regs.bit h = true ∨ ∃ j < occ l h, d.multicastHashCnt h+BitVec.ofNat 32 j = 0 := by
  induction l generalizing d with
  | nil => simp [addAll,occ]
  | cons a l ih =>
    have hstep : addAll d (a :: l) = addAll (cpmacSingleMulti d .add a) l := rfl
    rw [hstep,ih (sync_cpmacSingleMulti_add hs a),bit_cpmacSingleMulti_add hs a hh,
      cnt_cpmacSingleMulti_add,occ_cons]
    by_cases ha : hashGet a = h
    · -- The first address takes the count at `j = 0`; the others see it one higher.
      have hshift (j : ℕ) : d.multicastHashCnt h+1+BitVec.ofNat 32 j =
          d.multicastHashCnt h+BitVec.ofNat 32 (j+1) := by
        rw [BitVec.ofNat_add,BitVec.add_assoc,BitVec.add_comm (BitVec.ofNat 32 j)]
        rfl
      simp only [ha,if_true,true_and,Nat.exists_lt_succ_left,hshift,or_assoc]
      simp
    · simp [ha]

/-- The call goes through the address list. -/
def NetDev.Lists (p : NetDev) : Prop :=
  p.flags &&& IFF_PROMISC = 0 ∧ p.flags &&& IFF_ALLMULTI = 0 ∧ p.mcList ≠ [] ∧
    p.mcList.length ≤ CPMAC_DDA_DEFAULT_MAX_MULTICAST_ADDRESSES

instance (p : NetDev) : Decidable p.Lists := inferInstanceAs (Decidable (_ ∧ _))

def programmed (ps : List NetDev) : List Mac := (ps.filter (·.Lists)).flatMap (·.mcList)

def CpmacDDCObj.cleared (d : CpmacDDCObj) : CpmacDDCObj :=
  { d with rxCfg := ⟨false,true⟩, hash := ⟨0,0⟩, regs := ⟨0,0⟩ }

lemma foldl_control_add (ho : h.hDDC.opened = true) (l : List Mac) :
    (l.foldl (fun h a => h.control (.multicastAddr .add a)) h).hDDC = addAll h.hDDC l := by
  induction l generalizing h with
  | nil => rfl
  | cons a l ih =>
    have hstep : (h.control (.multicastAddr .add a)).hDDC = cpmacSingleMulti h.hDDC .add a := by
      simp [CpmacNetDevice.control,ddcControl,ho]
    rw [List.foldl_cons,ih (by rw [hstep,opened_cpmacSingleMulti_add,ho]),hstep]
    rfl

lemma mcastSet_lists (ho : h.hDDC.opened = true) (hp : p.Lists) :
    (cpmacDevMcastSet h p).hDDC = addAll h.hDDC.cleared p.mcList := by
  obtain ⟨hpr,hall,hne,hle⟩ := hp
  have hlen : p.mcList.length ≠ 0 := by simpa using hne
  have hmany : ¬ (p.flags &&& IFF_ALLMULTI ≠ 0 ∨
      p.mcList.length > CPMAC_DDA_DEFAULT_MAX_MULTICAST_ADDRESSES) := by
    rintro (hc | hc)
    · exact hc hall
    · omega
  unfold cpmacDevMcastSet
  rw [if_neg (not_not.mpr hpr),if_neg hmany,if_neg hlen,foldl_control_add]
  · simp [CpmacNetDevice.control,CpmacNetDevice.setRxCfg,ddcControl,ho,cpmacAllMulti,
      CpmacDDCObj.cleared]
  · simp [CpmacNetDevice.control,CpmacNetDevice.setRxCfg,ddcControl,ho,cpmacAllMulti]

lemma mcastSet_other (hp : ¬ p.Lists) :
    (cpmacDevMcastSet h p).hDDC.multicastHashCnt = h.hDDC.multicastHashCnt ∧
      (cpmacDevMcastSet h p).hDDC.opened = h.hDDC.opened := by
  have hctl (h : CpmacNetDevice) (o : AllMultiOper) :
      (h.control (.allMulti o)).hDDC.multicastHashCnt = h.hDDC.multicastHashCnt ∧
        (h.control (.allMulti o)).hDDC.opened = h.hDDC.opened := by
    by_cases ho : h.hDDC.opened <;> simp [CpmacNetDevice.control,ddcControl,ho,cpmacAllMulti]
  unfold cpmacDevMcastSet
  split
  · exact ⟨rfl,rfl⟩
  next hpr =>
  split
  · exact hctl _ _
  next hall =>
  split
  · exact hctl h .clr
  next hlen =>
  -- The remaining branch is the one through the list.
  refine absurd ⟨not_not.mp hpr,?_,by simpa using hlen,?_⟩ hp
  · exact not_not.mp fun hc => hall (.inl hc)
  · exact Nat.le_of_not_lt fun hc => hall (.inr hc)

lemma opened_addAll (d : CpmacDDCObj) (l : List Mac) : (addAll d l).opened = d.opened := by
  induction l generalizing d with
  | nil => rfl
  | cons a l ih => exact (ih _).trans (opened_cpmacSingleMulti_add d a)

lemma opened_mcastSet (ho : h.hDDC.opened = true) (p : NetDev) :
    (cpmacDevMcastSet h p).hDDC.opened = true := by
  by_cases hp : p.Lists
  · rw [mcastSet_lists ho hp,opened_addAll]
    exact ho
  · rw [(mcastSet_other hp).2,ho]

lemma cnt_mcastSet (ho : h.hDDC.opened = true) (p : NetDev) (b : ℕ) :
    (cpmacDevMcastSet h p).hDDC.multicastHashCnt b =
      h.hDDC.multicastHashCnt b+BitVec.ofNat 32 (occ (programmed [p]) b) := by
  by_cases hp : p.Lists
  · rw [mcastSet_lists ho hp,cnt_addAll]
    simp [programmed,hp,CpmacDDCObj.cleared]
  · rw [(mcastSet_other hp).1]
    simp [programmed,hp,occ]

lemma run_opened_cnt (ps : List NetDev) (ho : h.hDDC.opened = true) :
    (run h ps).hDDC.opened = true ∧ ∀ b, (run h ps).hDDC.multicastHashCnt b =
      h.hDDC.multicastHashCnt b+BitVec.ofNat 32 (occ (programmed ps) b) := by
  induction ps generalizing h with
  | nil => exact ⟨ho,fun b => by simp [run,programmed,occ]⟩
  | cons p ps ih =>
    obtain ⟨ho',hcnt⟩ := ih (opened_mcastSet ho p)
    refine ⟨ho',fun b => ?_⟩
    have hcons : programmed (p :: ps) = programmed [p] ++ programmed ps := by
      by_cases hp : p.Lists <;> simp [programmed,hp]
    rw [show run h (p :: ps) = run (cpmacDevMcastSet h p) ps from rfl,hcnt,cnt_mcastSet ho,
      hcons,occ_append,BitVec.ofNat_add,BitVec.add_assoc]

lemma cnt_run (cfg : RxConfig) (ps : List NetDev) (b : ℕ) :
    (run (openedDevice cfg) ps).hDDC.multicastHashCnt b =
      BitVec.ofNat 32 (occ (programmed ps) b) := by
  rw [(run_opened_cnt ps rfl).2]
  simp [openedDevice]

lemma bit_zero (b : ℕ) : (HashRegs.mk 0 0).bit b = false := by
  unfold HashRegs.bit
  split <;> simp

lemma bit_run_lists (cfg : RxConfig) (ps : List NetDev) (hp : p.Lists) {b : ℕ} (hb : b < 64) :
    (run (openedDevice cfg) (ps ++ [p])).hDDC.regs.bit b = true ↔
      ∃ j < occ p.mcList b, (occ (programmed ps) b+j) % 2 ^ 32 = 0 := by
  have hlast : run (openedDevice cfg) (ps ++ [p]) =
      cpmacDevMcastSet (run (openedDevice cfg) ps) p := by simp [run]
  have hmod (j : ℕ) : BitVec.ofNat 32 (occ (programmed ps) b)+BitVec.ofNat 32 j = 0 ↔
      (occ (programmed ps) b+j) % 2 ^ 32 = 0 := by
    rw [← BitVec.ofNat_add,← BitVec.toNat_inj]
    simp
  rw [hlast,mcastSet_lists (run_opened_cnt ps rfl).1 hp,bit_addAll rfl _ hb]
  simp only [CpmacDDCObj.cleared,bit_zero,Bool.false_eq_true,false_or,cnt_run,hmod]

/-- After any history, a list call leaves exactly the bits of its list set if and only if
each of its addresses finds its counter at zero, or wraps it to zero on the way. -/
theorem mcastSet_bits_iff (cfg : RxConfig) (ps : List NetDev) {p : NetDev} (hp : p.Lists) :
    (∀ b < 64, (run (openedDevice cfg) (ps ++ [p])).hDDC.regs.bit b = true ↔
      ∃ a ∈ p.mcList, hashGet a = b) ↔
      ∀ a ∈ p.mcList, ∃ j < occ p.mcList (hashGet a),
        (occ (programmed ps) (hashGet a)+j) % 2 ^ 32 = 0 := by
  constructor
  · intro h a ha
    exact (bit_run_lists cfg ps hp (hashGet_lt a)).mp ((h _ (hashGet_lt a)).mpr ⟨a,ha,rfl⟩)
  intro h b hb
  rw [bit_run_lists cfg ps hp hb]
  constructor
  · rintro ⟨j,hj,-⟩
    exact occ_pos_iff.mp (Nat.lt_of_le_of_lt (Nat.zero_le j) hj)
  · rintro ⟨a,ha,rfl⟩
    exact h a ha

private def oneGroup : NetDev := ⟨0,[⟨1,0,0x5e,0,0,1⟩]⟩

/-- Programming the same list a second time leaves its bit clear. -/
theorem mcastSet_second_list_lost :
    oneGroup.Lists ∧ ¬ (∀ b < 64,
      (run (openedDevice ⟨false,false⟩) ([oneGroup] ++ [oneGroup])).hDDC.regs.bit b = true ↔
        ∃ a ∈ oneGroup.mcList, hashGet a = b) := by
  refine ⟨by decide,fun h => ?_⟩
  have hset := (h _ (hashGet_lt ⟨1,0,0x5e,0,0,1⟩)).mpr ⟨_,by decide,rfl⟩
  exact absurd hset (by decide)

theorem mcastSet_first_list : oneGroup.Lists ∧
    ∀ b < 64, (run (openedDevice ⟨false,false⟩) ([] ++ [oneGroup])).hDDC.regs.bit b = true ↔
      ∃ a ∈ oneGroup.mcList, hashGet a = b :=
  ⟨by decide,(mcastSet_bits_iff ⟨false,false⟩ [] (by decide : oneGroup.Lists)).mpr (by decide)⟩

end DslG624t.Cpmac
