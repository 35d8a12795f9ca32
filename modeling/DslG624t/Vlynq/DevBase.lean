import DslG624t.Vlynq.Isr

/-!
# Addresses of devices behind VLYNQs

A VLYNQ maps up to four regions of its peer, one after the other, into a window of its own side.
-/

namespace DslG624t.Vlynq

open BitVec List Option

structure RxReg where
  size : BitVec 32
  offset : BitVec 32
  deriving DecidableEq

/-- What a VLYNQ's registers say of its window, and the devices known to it. -/
structure Window where
  txMap : BitVec 32
  rxSet : List RxReg
  devs : List ℕ
  deriving DecidableEq

def vlynqEndianSwap (val : BitVec 32) : BitVec 32 :=
  val <<< 24 ||| val >>> 24 ||| val >>> 8 &&& 0xff00 ||| val <<< 8 &&& 0xff0000

section Model

variable (bigEn : Bool)

def peerValue (val : BitVec 32) : BitVec 32 := if bigEn then vlynqEndianSwap val else val

def baseAddrFrom (txMap offset : BitVec 32) : List RxReg → BitVec 32 → Option (BitVec 32)
  | [], _ => none
  | r :: rs, size =>
    let offsetDiff := offset-peerValue bigEn r.offset
    if offsetDiff ≤ r.size then some (offsetDiff+size+txMap)
    else baseAddrFrom txMap offset rs (size+peerValue bigEn r.size)

def vlynqCalculateBaseAddr (v : Window) (offset : BitVec 32) : Option (BitVec 32) :=
  baseAddrFrom bigEn v.txMap offset v.rxSet 0#32

def devBaseFrom : List Window → BitVec 32 → BitVec 32 → BitVec 32
  | [], _, baseAddr => baseAddr
  | v :: prev, offset, baseAddr =>
    let baseAddr := (vlynqCalculateBaseAddr bigEn v offset).getD baseAddr
    devBaseFrom prev baseAddr baseAddr

/-- The VLYNQ is given with those before it; `[]` and `none` are null pointers. -/
def palVlynqGetDevBase (chain : List Window) (dev : Option ℕ) (offset baseAddr : BitVec 32) :
    PalResult × BitVec 32 :=
  match chain, dev with
  | [], _ => (.invalidParam,baseAddr)
  | _ :: _, none => (.invalidParam,baseAddr)
  | v :: prev, some dev =>
    if dev ∈ v.devs then (.ok,devBaseFrom bigEn (v :: prev) offset baseAddr)
    else (.internalError,baseAddr)

def decodeFrom : List RxReg → ℕ → Option (BitVec 32)
  | [], _ => none
  | r :: rs, pos =>
    if pos < (peerValue bigEn r.size).toNat then some (peerValue bigEn r.offset+BitVec.ofNat 32 pos)
    else decodeFrom rs (pos-(peerValue bigEn r.size).toNat)

def Window.decode (v : Window) (addr : BitVec 32) : Option (BitVec 32) :=
  decodeFrom bigEn v.rxSet (addr-v.txMap).toNat

def decodeChain : List Window → BitVec 32 → Option (BitVec 32)
  | [], addr => some addr
  | v :: prev, addr => (decodeChain prev addr).bind (v.decode bigEn)

/-- A success gives an address that leads to the offset; no success if none does. -/
structure Right (chain : List Window) (offset : BitVec 32) (res : PalResult × BitVec 32) : Prop where
  address : res.1 = .ok → decodeChain bigEn chain res.2 = some offset
  error : (∀ addr, decodeChain bigEn chain addr ≠ some offset) → res.1 ≠ .ok

def RxReg.diff (r : RxReg) (offset : BitVec 32) : BitVec 32 := offset-peerValue bigEn r.offset

def RxReg.trueSize (r : RxReg) : ℕ := (peerValue bigEn r.size).toNat

/-- The region is the first with a difference of at most the size kept by the peer. -/
structure Accepts (v : Window) (offset : BitVec 32) (before : List RxReg) (r : RxReg) : Prop where
  split : ∃ after, v.rxSet = before ++ r :: after
  before : ∀ q ∈ before, q.size < q.diff bigEn offset
  le : r.diff bigEn offset ≤ r.size

/-- The offset is inside the true size of a region, and the region that is accepted gives it the same
place in the window: it is this region, and nothing wraps, or what is behind it continues it. -/
def InRegion (v : Window) (offset addr : BitVec 32) : Prop :=
  ∃ before r, Accepts bigEn v offset before r ∧
    addr = r.diff bigEn offset+(before.map fun q => peerValue bigEn q.size).sum+v.txMap ∧
    ∃ pre q post, v.rxSet = pre ++ q :: post ∧ (q.diff bigEn offset).toNat < q.trueSize bigEn ∧
      (pre.map (RxReg.trueSize bigEn)).sum+(q.diff bigEn offset).toNat =
        ((before.map (RxReg.trueSize bigEn)).sum+(r.diff bigEn offset).toNat) % 2^32

/-- The same for every VLYNQ up to the root. -/
def InRegions : List Window → BitVec 32 → Prop
  | [], _ => True
  | v :: prev, offset => ∃ addr, InRegion bigEn v offset addr ∧ InRegions prev addr

def Refused (chain : List Window) (dev : Option ℕ) : Prop :=
  chain = [] ∨ dev = none ∨ ∃ v prev n, chain = v :: prev ∧ dev = some n ∧ n ∉ v.devs

end Model

variable {bigEn : Bool} {txMap offset addr size baseAddr : BitVec 32} {rs : List RxReg} {v : Window}
  {chain : List Window} {dev : Option ℕ}

lemma baseAddrFrom_eq_some_iff : baseAddrFrom bigEn txMap offset rs size = some addr ↔
    ∃ before r after, rs = before ++ r :: after ∧
      (∀ q ∈ before, q.size < q.diff bigEn offset) ∧ r.diff bigEn offset ≤ r.size ∧
      addr = r.diff bigEn offset +
        (size+(before.map fun q => peerValue bigEn q.size).sum)+txMap := by
  induction rs generalizing size with
  | nil => simp [baseAddrFrom]
  | cons r rs ih =>
    rw [baseAddrFrom]
    split
    · next hle =>
      constructor
      · intro h
        exact ⟨[],r,rs,rfl,by simp,hle,by simpa [RxReg.diff] using (some.inj h).symm⟩
      rintro ⟨before,r',after,hrs,hbefore,-,heq⟩
      cases before with
      | nil =>
        cases hrs
        simp [heq,RxReg.diff]
      | cons q before =>
        cases hrs
        exact absurd hle (BitVec.not_le.mpr (hbefore r mem_cons_self))
    next hgt =>
    rw [ih]
    constructor
    · rintro ⟨before,r',after,rfl,hbefore,hle,heq⟩
      refine ⟨r :: before,r',after,rfl,?_,hle,by rw [heq,map_cons,sum_cons,BitVec.add_assoc size]⟩
      exact forall_mem_cons.mpr ⟨BitVec.not_le.mp hgt,hbefore⟩
    rintro ⟨before,r',after,hrs,hbefore,hle,heq⟩
    cases before with
    | nil =>
      cases hrs
      exact absurd hle hgt
    | cons q before =>
      cases hrs
      exact ⟨before,r',after,rfl,(forall_mem_cons.mp hbefore).2,hle,
        by rw [heq,map_cons,sum_cons,BitVec.add_assoc size]⟩

lemma eq_diff_iff {r : RxReg} {pos : ℕ} (h : pos < 2^32) :
    peerValue bigEn r.offset+BitVec.ofNat 32 pos = offset ↔ (r.diff bigEn offset).toNat = pos := by
  rw [RxReg.diff]
  constructor
  · rintro rfl
    rw [add_sub_cancel_left,toNat_ofNat,Nat.mod_eq_of_lt h]
  · rintro rfl
    rw [ofNat_toNat,setWidth_eq]
    exact add_sub_cancel _ _

lemma decodeFrom_eq_some_iff {pos : ℕ} : decodeFrom bigEn rs pos = some offset ↔
    ∃ pre q post, rs = pre ++ q :: post ∧ (q.diff bigEn offset).toNat < q.trueSize bigEn ∧
      (pre.map (RxReg.trueSize bigEn)).sum+(q.diff bigEn offset).toNat = pos := by
  induction rs generalizing pos with
  | nil => simp [decodeFrom]
  | cons r rs ih =>
    rw [decodeFrom]
    by_cases hlt : pos < r.trueSize bigEn
    · rw [RxReg.trueSize] at hlt
      have hbound := (peerValue bigEn r.size).isLt
      rw [if_pos hlt,some_inj,eq_diff_iff (by omega)]
      constructor
      · rintro rfl
        exact ⟨[],r,rs,rfl,hlt,zero_add _⟩
      rintro ⟨pre,q,post,hrs,hq,hsum⟩
      cases pre with
      | nil =>
        cases hrs
        simpa using hsum
      | cons r' pre =>
        cases hrs
        rw [map_cons,sum_cons,RxReg.trueSize] at hsum
        omega
    · rw [RxReg.trueSize] at hlt
      rw [if_neg hlt,ih]
      constructor
      · rintro ⟨pre,q,post,rfl,hq,hsum⟩
        refine ⟨r :: pre,q,post,rfl,hq,?_⟩
        rw [map_cons,sum_cons,add_assoc,hsum,RxReg.trueSize]
        omega
      rintro ⟨pre,q,post,hrs,hq,hsum⟩
      cases pre with
      | nil =>
        cases hrs
        rw [RxReg.trueSize] at hq
        simp only [map_nil,sum_nil] at hsum
        omega
      | cons r' pre =>
        cases hrs
        refine ⟨pre,q,post,rfl,hq,?_⟩
        rw [map_cons,sum_cons,RxReg.trueSize] at hsum
        omega

lemma toNat_sum_sizes (l : List RxReg) : (l.map fun q => peerValue bigEn q.size).sum.toNat =
    (l.map (RxReg.trueSize bigEn)).sum % 2^32 := by
  induction l with
  | nil => rfl
  | cons r l ih =>
    simp only [map_cons,sum_cons,toNat_add,ih,RxReg.trueSize]
    omega

lemma inRegion_iff : InRegion bigEn v offset addr ↔
    vlynqCalculateBaseAddr bigEn v offset = some addr ∧ v.decode bigEn addr = some offset := by
  rw [vlynqCalculateBaseAddr,baseAddrFrom_eq_some_iff,InRegion]
  have hplace (before : List RxReg) (r : RxReg)
      (heq : addr = r.diff bigEn offset+(before.map fun q => peerValue bigEn q.size).sum+v.txMap) :
      (addr-v.txMap).toNat =
        ((before.map (RxReg.trueSize bigEn)).sum+(r.diff bigEn offset).toNat) % 2^32 := by
    rw [heq,BitVec.add_sub_cancel,toNat_add,toNat_sum_sizes]
    omega
  constructor
  · rintro ⟨before,r,⟨⟨after,hrs⟩,hbefore,hle⟩,heq,hpos⟩
    refine ⟨⟨before,r,after,hrs,hbefore,hle,heq.trans (by rw [BitVec.zero_add])⟩,?_⟩
    rw [Window.decode,decodeFrom_eq_some_iff,hplace before r heq]
    exact hpos
  · rintro ⟨⟨before,r,after,hrs,hbefore,hle,heq⟩,hdec⟩
    rw [BitVec.zero_add] at heq
    rw [Window.decode,decodeFrom_eq_some_iff,hplace before r heq] at hdec
    exact ⟨before,r,⟨⟨after,hrs⟩,hbefore,hle⟩,heq,hdec⟩

/-- The usual case: the offset is in the region that is accepted. -/
lemma InRegion.of_lt {a : List RxReg} {r : RxReg} (h : Accepts bigEn v offset a r)
    (hlt : (r.diff bigEn offset).toNat < r.trueSize bigEn)
    (hwrap : (a.map (RxReg.trueSize bigEn)).sum+(r.diff bigEn offset).toNat < 2^32)
    (haddr : addr = r.diff bigEn offset+(a.map fun q => peerValue bigEn q.size).sum+v.txMap) :
    InRegion bigEn v offset addr := by
  obtain ⟨after,hrs⟩ := h.split
  exact ⟨a,r,h,haddr,a,r,after,hrs,hlt,(Nat.mod_eq_of_lt hwrap).symm⟩

lemma decodeChain_devBaseFrom (h : InRegions bigEn chain offset) (hne : chain ≠ []) :
    decodeChain bigEn chain (devBaseFrom bigEn chain offset baseAddr) = some offset := by
  induction chain generalizing offset baseAddr with
  | nil => exact absurd rfl hne
  | cons v prev ih =>
    obtain ⟨addr,hin,hprev⟩ := h
    obtain ⟨hcalc,hdec⟩ := inRegion_iff.mp hin
    rw [devBaseFrom,decodeChain,hcalc]
    cases prev with
    | nil => exact hdec
    | cons v' prev => rw [getD_some,ih hprev nofun,bind_some,hdec]

lemma Right.of_address {res : PalResult × BitVec 32}
    (h : res.1 = .ok → decodeChain bigEn chain res.2 = some offset) :
    Right bigEn chain offset res :=
  ⟨h,fun hnone hok => hnone _ (h hok)⟩

theorem getDevBase_right (bigEn : Bool) (chain : List Window) (dev : Option ℕ)
    (offset baseAddr : BitVec 32) :
    (Refused chain dev ∨ InRegions bigEn chain offset →
      Right bigEn chain offset (palVlynqGetDevBase bigEn chain dev offset baseAddr)) ∧
    (∀ v, chain = [v] →
      Right bigEn chain offset (palVlynqGetDevBase bigEn chain dev offset baseAddr) →
      Refused chain dev ∨ InRegions bigEn chain offset ∨
        vlynqCalculateBaseAddr bigEn v offset = none ∧ v.decode bigEn baseAddr = some offset) := by
  cases chain with
  | nil => exact ⟨fun _ => .of_address nofun,nofun⟩
  | cons v prev =>
    cases dev with
    | none => exact ⟨fun _ => .of_address nofun,fun _ _ _ => .inl (.inr (.inl rfl))⟩
    | some n =>
      rw [palVlynqGetDevBase]
      split
      · next hmem =>
        refine ⟨fun h => .of_address fun _ => decodeChain_devBaseFrom (h.resolve_left ?_) nofun,?_⟩
        · rintro (h | h | ⟨_,_,_,h,h',hnot⟩)
          · cases h
          · cases h
          · cases h
            cases h'
            exact hnot hmem
        rintro v' heq h
        cases heq
        have hdec : v.decode bigEn ((vlynqCalculateBaseAddr bigEn v offset).getD baseAddr) =
            some offset := h.address rfl
        cases hcalc : vlynqCalculateBaseAddr bigEn v offset with
        | none => exact .inr (.inr ⟨rfl,by rwa [hcalc] at hdec⟩)
        | some addr =>
          rw [hcalc] at hdec
          exact .inr (.inl ⟨addr,inRegion_iff.mpr ⟨hcalc,hdec⟩,trivial⟩)
      · next hmem =>
        exact ⟨fun _ => .of_address nofun,fun _ _ _ => .inl (.inr (.inr ⟨v,prev,n,rfl,rfl,hmem⟩))⟩

def oneRegion : Window :=
  ⟨0xA4000000,[⟨0x100,0x1000⟩,⟨0,0⟩,⟨0,0⟩,⟨0,0⟩],[0]⟩

def rootRegion : Window := ⟨0x4000000,[⟨0,0⟩,⟨0x1000,0xA4000000⟩,⟨0,0⟩,⟨0,0⟩],[]⟩

/-- An offset behind two VLYNQs. -/
theorem getDevBase_twoHops :
    palVlynqGetDevBase false [oneRegion,rootRegion] (some 0) 0x1010 0 = (.ok,0x4000010) ∧
      Right false [oneRegion,rootRegion] 0x1010 (.ok,0x4000010) := by
  have hfar : InRegion false oneRegion 0x1010 0xA4000010 := by
    refine .of_lt (a := []) (r := ⟨0x100,0x1000⟩) ⟨⟨_,rfl⟩,nofun,?_⟩ ?_ ?_ ?_
    all_goals decide
  have hnear : InRegion false rootRegion 0xA4000010 0x4000010 := by
    refine .of_lt (a := [⟨0,0⟩]) (r := ⟨0x1000,0xA4000000⟩) ⟨⟨_,rfl⟩,?_,?_⟩ ?_ ?_ ?_
    all_goals decide
  refine ⟨by decide,?_⟩
  exact (getDevBase_right false [oneRegion,rootRegion] (some 0) 0x1010 0).1
    (.inr ⟨_,hfar,_,hnear,trivial⟩)

/-- An offset outside of the region: a success, with what `*base_addr` held before. -/
theorem getDevBase_unmapped :
    palVlynqGetDevBase false [oneRegion] (some 0) 0x5000 0 = (.ok,0) ∧
      (∀ addr, decodeChain false [oneRegion] addr ≠ some 0x5000) ∧
      ¬ Right false [oneRegion] 0x5000
        (palVlynqGetDevBase false [oneRegion] (some 0) 0x5000 0) := by
  have hnone : ∀ addr, decodeChain false [oneRegion] addr ≠ some 0x5000 := by
    intro addr h
    have hdec : decodeFrom false oneRegion.rxSet (addr-oneRegion.txMap).toNat = some 0x5000 := h
    generalize (addr-oneRegion.txMap).toNat = pos at hdec
    rw [oneRegion,decodeFrom] at hdec
    split at hdec
    · next hlt =>
      have hlt' : pos < 256 := hlt
      have heq := congrArg BitVec.toNat (some.inj hdec)
      rw [toNat_add,toNat_ofNat] at heq
      change (4096+pos % 4294967296) % 4294967296 = 20480 at heq
      omega
    · simp [decodeFrom,peerValue] at hdec
  exact ⟨by decide,hnone,fun h => h.error hnone (by decide)⟩

end DslG624t.Vlynq
