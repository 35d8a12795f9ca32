import DslG624t.Intc.Request

/-!
# Polarity and type of the interrupts

The registers `intpolr1`, `intpolr2` and `inttypr1`, `inttypr2` have a bit for each channel.
-/

namespace DslG624t.Intc

open BitVec

def avalancheIntEndPrimaryReg1 : ℕ := 32

structure RegPair where
  reg1 : BitVec 32
  reg2 : BitVec 32

def setBit (r : BitVec 32) (i : ℕ) (val : Bool) : BitVec 32 :=
  if val then r ||| 1#32 <<< i else r &&& ~~~(1#32 <<< i)

def getBit (r : BitVec 32) (i : ℕ) : ℤ := (r >>> i &&& 1#32).toNat

def RegPair.set (p : RegPair) (chan : ℕ) (val : Bool) : RegPair :=
  if chan < avalancheIntEndPrimaryReg1 then { p with reg1 := setBit p.reg1 chan val }
  else { p with reg2 := setBit p.reg2 (chan-avalancheIntEndPrimaryReg1) val }

def RegPair.get (p : RegPair) (chan : ℕ) : ℤ :=
  if chan < avalancheIntEndPrimaryReg1 then getBit p.reg1 chan
  else getBit p.reg2 (chan-avalancheIntEndPrimaryReg1)

/-- The state of the VLYNQs is left open, with the functions that they have installed. -/
structure IntrConfig (V : Type*) where
  ports : ℕ
  lineToChannel : Fin 40 → Fin 40
  setIrqPol : Option (ℕ → ℕ → V → V)
  getIrqPol : Option (ℕ → V → ℤ)
  setIrqType : Option (ℕ → ℕ → V → V)
  getIrqType : Option (ℕ → V → ℤ)

structure IntrRegs (V : Type*) where
  intpolr : RegPair
  inttypr : RegPair
  vlynq : V

def avIntNum32 (x : ℕ) : ℕ := (x+(0x100000000-mipsExceptionOffset)) % 0x100000000

variable {V : Type*} (c : IntrConfig V)

def channel (i : ℕ) : Option ℕ :=
  if i < 40 then some (c.lineToChannel (Fin.ofNat 40 i)) else none

/-- The check of the number, after which the functions panic. -/
def InvalidIrq (irq : ℕ) : Prop :=
  irq < mipsExceptionOffset ∨ avalancheIntEnd c.ports ≤ irq ∨
    avalancheIntEndPrimary ≤ irq ∧ irq < avalancheIntEndSecondary

instance (irq : ℕ) : Decidable (InvalidIrq c irq) := by
  unfold InvalidIrq
  infer_instance

def intrSet (fn : Option (ℕ → ℕ → V → V)) (line irq val : ℕ) (p : RegPair) (v : V) :
    Option (ℤ × RegPair × V) :=
  if InvalidIrq c irq then none
  else if 1 < val then some (-1,p,v)
  else if avalancheIntcEnd ≤ irq then some (0, p, fn.elim v fun f => f irq val v)
  else (channel c line).map fun chan => (0,p.set chan (val ≠ 0),v)

def intrGet (fn : Option (ℕ → V → ℤ)) (line irq : ℕ) (p : RegPair) (v : V) : Option ℤ :=
  if InvalidIrq c irq then none
  else if avalancheIntcEnd ≤ irq then some (fn.elim 0 fun f => f irq v)
  else (channel c line).map p.get

variable (irq val : ℕ) (s : IntrRegs V)

def avalancheIntrPolaritySet : Option (ℤ × IntrRegs V) :=
  (intrSet c c.setIrqPol (avIntNum32 irq) irq val s.intpolr s.vlynq).map fun (r,p,v) =>
    (r,{ s with intpolr := p, vlynq := v })

def avalancheIntrPolarityGet : Option ℤ :=
  intrGet c c.getIrqPol (avIntNum32 (avIntNum32 irq)) irq s.intpolr s.vlynq

def avalancheIntrTypeSet : Option (ℤ × IntrRegs V) :=
  (intrSet c c.setIrqType (avIntNum32 (avIntNum32 irq)) irq val s.inttypr s.vlynq).map
    fun (r,p,v) => (r,{ s with inttypr := p, vlynq := v })

def avalancheIntrTypeGet : Option ℤ :=
  intrGet c c.getIrqType (avIntNum32 (avIntNum32 irq)) irq s.inttypr s.vlynq

variable {c irq val s} {i j : ℕ} {b : Bool}

lemma getBit_eq (r : BitVec 32) (i : ℕ) : getBit r i = (r.getLsbD i).toNat := by
  rw [getBit,and_one_eq_setWidth_ofBool_getLsbD,getLsbD_ushiftRight,add_zero]
  cases r.getLsbD i <;> rfl

lemma getBit_setBit (r : BitVec 32) (hi : i < 32) (hj : j < 32) :
    getBit (setBit r i b) j = if j = i then (b.toNat : ℤ) else getBit r j := by
  have hbit : (1#32 <<< i).getLsbD j = decide (j = i) := by
    rw [← twoPow_eq,getLsbD_twoPow]
    simp [hi,eq_comm]
  rw [getBit_eq,getBit_eq,setBit]
  cases b with
  | false =>
    rw [if_neg Bool.false_ne_true,getLsbD_and,getLsbD_not,hbit]
    by_cases heq : j = i <;> simp [heq,hj]
  | true =>
    rw [if_pos rfl,getLsbD_or,hbit]
    by_cases heq : j = i <;> simp [heq]

lemma RegPair.get_set (p : RegPair) (hi : i < 40) (hj : j < 40) :
    (p.set i b).get j = if j = i then (b.toNat : ℤ) else p.get j := by
  unfold RegPair.set RegPair.get avalancheIntEndPrimaryReg1
  by_cases hi' : i < 32
  · by_cases hj' : j < 32
    · rw [if_pos hi',if_pos hj',if_pos hj',getBit_setBit _ hi' hj']
    · rw [if_pos hi',if_neg hj',if_neg hj',if_neg (by omega)]
  · by_cases hj' : j < 32
    · rw [if_neg hi',if_pos hj',if_pos hj',if_neg (by omega)]
    · rw [if_neg hi',if_neg hj',if_neg hj',getBit_setBit _ (by omega) (by omega)]
      simp only [show (j-32 = i-32) = (j = i) by grind]

def RegPair.line (c : IntrConfig V) (p : RegPair) (i : ℕ) : ℤ :=
  p.get (c.lineToChannel (Fin.ofNat 40 i))

lemma RegPair.line_set (hc : Function.Injective c.lineToChannel) (p : RegPair) (hi : i < 40)
    (hj : j < 40) : (p.set (c.lineToChannel (Fin.ofNat 40 i)) b).line c j =
      if j = i then (b.toNat : ℤ) else p.line c j := by
  have hinj : (c.lineToChannel (Fin.ofNat 40 j) : ℕ) = c.lineToChannel (Fin.ofNat 40 i) ↔ j = i := by
    rw [Fin.val_inj,hc.eq_iff,Fin.ext_iff,Fin.val_ofNat,Fin.val_ofNat,Nat.mod_eq_of_lt hi,
      Nat.mod_eq_of_lt hj]
  rw [line,get_set p (Fin.isLt _) (Fin.isLt _)]
  exact if_congr hinj rfl rfl

lemma RegPair.line_le (p : RegPair) (i : ℕ) : p.line c i ≤ 1 := by
  unfold line get
  split <;> (rw [getBit_eq]; exact_mod_cast Bool.toNat_le _)

variable {p : RegPair} {v : V}

lemma invalidIrq_iff (hirq : irq < 80) : InvalidIrq c irq ↔ ¬ (8 ≤ irq ∧ irq < 48) := by
  show irq < 8 ∨ 80+32*c.ports ≤ irq ∨ 48 ≤ irq ∧ irq < 80 ↔ _
  omega

lemma avIntNum32_twice (h : 16 ≤ irq) (hirq : irq < 48) : avIntNum32 (avIntNum32 irq) = irq-16 := by
  unfold avIntNum32 mipsExceptionOffset
  omega

lemma not_avIntNum32_twice_lt (h : 8 ≤ irq) (hirq : irq < 16) :
    ¬ avIntNum32 (avIntNum32 irq) < 40 := by
  unfold avIntNum32 mipsExceptionOffset
  omega

lemma intrGet_eq (fn : Option (ℕ → V → ℤ)) (p : RegPair) (v : V) (hirq : irq < 80) :
    intrGet c fn (avIntNum32 (avIntNum32 irq)) irq p v =
      if 16 ≤ irq ∧ irq < 48 then some (p.line c (irq-16)) else none := by
  rw [intrGet,if_neg (show ¬ avalancheIntcEnd ≤ irq from not_le.mpr hirq)]
  by_cases h : 8 ≤ irq ∧ irq < 48
  · rw [if_neg (fun hinv => (invalidIrq_iff hirq).mp hinv h),channel]
    by_cases h16 : 16 ≤ irq
    · rw [avIntNum32_twice h16 h.2,if_pos (by omega),if_pos ⟨h16,h.2⟩]
      rfl
    · rw [if_neg (not_avIntNum32_twice_lt h.1 (by omega)),if_neg (by omega)]
      rfl
  · rw [if_pos ((invalidIrq_iff hirq).mpr h),if_neg (by omega)]

lemma intrGet_set_of_ne (hc : Function.Injective c.lineToChannel) (fn : Option (ℕ → V → ℤ))
    (hi : i < 40) (hne : irq ≠ i+16) :
    intrGet c fn (avIntNum32 (avIntNum32 irq)) irq (p.set (c.lineToChannel (Fin.ofNat 40 i)) b) v =
      intrGet c fn (avIntNum32 (avIntNum32 irq)) irq p v := by
  by_cases hirq : irq < 80
  · rw [intrGet_eq _ _ _ hirq,intrGet_eq _ _ _ hirq]
    refine ite_congr rfl (fun h => ?_) fun _ => rfl
    rw [RegPair.line_set hc p hi (by omega),if_neg (by omega)]
  · have hend : avalancheIntcEnd ≤ irq := not_lt.mp hirq
    rw [intrGet,intrGet,if_pos hend,if_pos hend]

lemma intrSet_eq (fn : Option (ℕ → ℕ → V → V)) {line : ℕ} (hirq : irq < 80) :
    intrSet c fn line irq val p v =
      if 8 ≤ irq ∧ irq < 48 then
        if 1 < val then some (-1,p,v)
        else if line < 40 then
          some (0,p.set (c.lineToChannel (Fin.ofNat 40 line)) (val ≠ 0),v)
        else none
      else none := by
  rw [intrSet,if_neg (show ¬ avalancheIntcEnd ≤ irq from not_le.mpr hirq),channel]
  by_cases h : 8 ≤ irq ∧ irq < 48
  · rw [if_neg (fun hinv => (invalidIrq_iff hirq).mp hinv h),if_pos h]
    split
    · rfl
    · split <;> rfl
  · rw [if_pos ((invalidIrq_iff hirq).mpr h),if_neg h]

/-- After a call of a setter the getter returns the value, and for the other numbers both getters
return what they did before. -/
def Sets (c : IntrConfig V) (set : Option (ℤ × IntrRegs V))
    (get : ℕ → IntrRegs V → Option ℤ) (irq val : ℕ) (s : IntrRegs V) : Prop :=
  ∃ r s', set = some (r,s') ∧ get irq s' = some (val : ℤ) ∧ ∀ other ≠ irq,
    avalancheIntrPolarityGet c other s' = avalancheIntrPolarityGet c other s ∧
      avalancheIntrTypeGet c other s' = avalancheIntrTypeGet c other s

lemma le_one_of_intrGet {fn : Option (ℕ → V → ℤ)} (hirq : irq < 80)
    (h : intrGet c fn (avIntNum32 (avIntNum32 irq)) irq p v = some (val : ℤ)) :
    val ≤ 1 ∧ (16 ≤ irq ∧ irq < 48) ∧ p.line c (irq-16) = val := by
  rw [intrGet_eq _ _ _ hirq] at h
  split at h
  · next hrange =>
    have hle := p.line_le (c := c) (irq-16)
    rw [Option.some.inj h] at hle
    exact ⟨by exact_mod_cast hle,hrange,Option.some.inj h⟩
  · cases h

lemma toNat_ne_zero (hval : val ≤ 1) : ((decide (val ≠ 0)).toNat : ℤ) = val := by
  interval_cases val <;> rfl

lemma typeSet_iff (hc : Function.Injective c.lineToChannel) (hirq : irq < 80) :
    Sets c (avalancheIntrTypeSet c irq val s) (avalancheIntrTypeGet c) irq val s ↔
      val ≤ 1 ∧ 16 ≤ irq ∧ irq < 48 := by
  constructor
  · rintro ⟨r,s',-,hget,-⟩
    obtain ⟨hval,hrange,-⟩ := le_one_of_intrGet hirq hget
    exact ⟨hval,hrange⟩
  rintro ⟨hval,h⟩
  have hset : avalancheIntrTypeSet c irq val s = some (0,{ s with
      inttypr := s.inttypr.set (c.lineToChannel (Fin.ofNat 40 (irq-16))) (val ≠ 0) }) := by
    rw [avalancheIntrTypeSet,intrSet_eq _ hirq,if_pos ⟨by omega,h.2⟩,
      if_neg (not_lt.mpr hval),avIntNum32_twice h.1 h.2,if_pos (by omega)]
    rfl
  refine ⟨0,_,hset,?_,fun other hne => ⟨rfl,?_⟩⟩
  · rw [avalancheIntrTypeGet,intrGet_eq _ _ _ hirq,if_pos h,
      RegPair.line_set hc _ (by omega) (by omega),if_pos rfl,toNat_ne_zero hval]
  · exact intrGet_set_of_ne hc _ (by omega) (by omega)

lemma polaritySet_iff (hc : Function.Injective c.lineToChannel) (hirq : irq < 80) :
    Sets c (avalancheIntrPolaritySet c irq val s) (avalancheIntrPolarityGet c) irq val s ↔
      val ≤ 1 ∧ (16 ≤ irq ∧ irq < 48) ∧ s.intpolr.line c (irq-16) = val ∧
        (irq+8 < 48 → s.intpolr.line c (irq-8) = val) := by
  have hset (hval : val ≤ 1) (h : 16 ≤ irq ∧ irq < 48) : avalancheIntrPolaritySet c irq val s =
      some (0,{ s with
        intpolr := s.intpolr.set (c.lineToChannel (Fin.ofNat 40 (irq-8))) (val ≠ 0) }) := by
    have hline : avIntNum32 irq = irq-8 := by
      unfold avIntNum32 mipsExceptionOffset
      omega
    rw [avalancheIntrPolaritySet,intrSet_eq _ hirq,if_pos ⟨by omega,h.2⟩,
      if_neg (not_lt.mpr hval),hline,if_pos (by omega)]
    rfl
  have hnext {s' : IntrRegs V} (h : 16 ≤ irq) (hlt : irq+8 < 48) :
      avalancheIntrPolarityGet c (irq+8) s' = some (s'.intpolr.line c (irq-8)) := by
    rw [avalancheIntrPolarityGet,intrGet_eq _ _ _ (by omega),if_pos ⟨by omega,hlt⟩]
    congr 2
  constructor
  · rintro ⟨r,s',hs',hget,hother⟩
    obtain ⟨hval,h,hold⟩ := le_one_of_intrGet hirq hget
    rw [hset hval h] at hs'
    cases hs'
    rw [RegPair.line_set hc _ (by omega) (by omega),if_neg (by omega)] at hold
    refine ⟨hval,h,hold,fun hlt => ?_⟩
    have hsame := (hother (irq+8) (by omega)).1
    rw [hnext h.1 hlt,hnext h.1 hlt,RegPair.line_set hc _ (by omega) (by omega),if_pos rfl,
      toNat_ne_zero hval] at hsame
    exact (Option.some.inj hsame).symm
  rintro ⟨hval,h,hold,hlast⟩
  refine ⟨0,_,hset hval h,?_,fun other hne => ⟨?_,rfl⟩⟩
  · rw [avalancheIntrPolarityGet,intrGet_eq _ _ _ hirq,if_pos h,
      RegPair.line_set hc _ (by omega) (by omega),if_neg (by omega),hold]
  by_cases heq : other = irq+8
  · subst heq
    by_cases hlt : irq+8 < 48
    · rw [hnext h.1 hlt,hnext h.1 hlt,RegPair.line_set hc _ (by omega) (by omega),if_pos rfl,
        toNat_ne_zero hval,hlast hlt]
    · rw [avalancheIntrPolarityGet,avalancheIntrPolarityGet,intrGet_eq _ _ _ (by omega),
        intrGet_eq _ _ _ (by omega),if_neg (by omega),if_neg (by omega)]
  · exact intrGet_set_of_ne hc _ (by omega) (by omega)

theorem set_get_iff (hc : Function.Injective c.lineToChannel) (hirq : irq < 80) :
    (Sets c (avalancheIntrPolaritySet c irq val s) (avalancheIntrPolarityGet c) irq val s ↔
      val ≤ 1 ∧ (16 ≤ irq ∧ irq < 48) ∧ s.intpolr.line c (irq-16) = val ∧
        (irq+8 < 48 → s.intpolr.line c (irq-8) = val)) ∧
      (Sets c (avalancheIntrTypeSet c irq val s) (avalancheIntrTypeGet c) irq val s ↔
        val ≤ 1 ∧ 16 ≤ irq ∧ irq < 48) :=
  ⟨polaritySet_iff hc hirq,typeSet_iff hc hirq⟩

def initConfig : IntrConfig Unit := ⟨0,id,none,none,none,none⟩

def zeroRegs : IntrRegs Unit := ⟨⟨0,0⟩,⟨0,0⟩,()⟩

theorem set_get_init : Sets initConfig (avalancheIntrTypeSet initConfig 20 1 zeroRegs)
    (avalancheIntrTypeGet initConfig) 20 1 zeroRegs :=
  (set_get_iff Function.injective_id (by decide)).2.mpr (by decide)

/-- The polarity of number 20 is set to 1: it is still read as 0, and that of number 28 as 1. -/
theorem polaritySet_wrong :
    (avalancheIntrPolaritySet initConfig 20 1 zeroRegs).map (fun x =>
      (x.1,avalancheIntrPolarityGet initConfig 20 x.2,avalancheIntrPolarityGet initConfig 28 x.2)) =
        some (0,some 0,some 1) ∧
      avalancheIntrPolarityGet initConfig 28 zeroRegs = some 0 := by
  decide +kernel

end DslG624t.Intc
