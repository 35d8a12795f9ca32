import Mathlib

/-!
# Fields of a word

A word holds fields of several bits, each with its offset and width, and flags of one bit.
-/

namespace Packed

open BitVec

variable {n : ℕ}

def has (x m : BitVec n) : Bool := x &&& m != 0#n

variable {i k o : ℕ}

lemma and_bit (x : BitVec n) : x &&& 1#n <<< i = if x.getLsbD i then 1#n <<< i else 0#n := by
  rw [← twoPow_eq,and_twoPow]

lemma has_bit (hi : i < n) (x : BitVec n) : has x (1#n <<< i) = x.getLsbD i := by
  have hne : 1#n <<< i ≠ 0#n := by
    intro h
    have := congrArg (·.getLsbD i) h
    simp [hi] at this
  unfold has
  rw [and_bit]
  cases x.getLsbD i
  · simp
  · simpa using hne

lemma has_or (x a b : BitVec n) : has x (a ||| b) = (has x a || has x b) := by
  have h : x &&& (a ||| b) = 0#n ↔ x &&& a = 0#n ∧ x &&& b = 0#n := by
    rw [and_or_distrib_left,or_eq_zero_iff]
  unfold has
  rw [Bool.eq_iff_iff]
  simp only [bne_iff_ne,ne_eq,h,Bool.or_eq_true]
  tauto

lemma and_not_of_has_eq_false {x m : BitVec n} (h : has x m = false) : x &&& ~~~m = x := by
  have hand : x &&& m = 0#n := bne_eq_false_iff_eq.mp h
  calc x &&& ~~~m = x &&& ~~~m ||| x &&& m := by rw [hand,or_zero]
    _ = x := by rw [← and_or_distrib_left,not_or_self,and_allOnes]

/-- Clearing other bits does not matter to a test. -/
lemma has_and_not {m k : BitVec n} (h : k &&& ~~~m = k) (x : BitVec n) :
    has (x &&& ~~~m) k = has x k := by
  unfold has
  rw [BitVec.and_assoc,BitVec.and_comm (~~~m),h]

def mask (o k : ℕ) : BitVec n := (BitVec.allOnes k).setWidth n <<< o

lemma getLsbD_mask : (mask o k : BitVec n).getLsbD i = decide (i < n ∧ o ≤ i ∧ i < o+k) := by
  unfold mask
  simp only [getLsbD_shiftLeft,getLsbD_setWidth,getLsbD_allOnes]
  by_cases h : i < n ∧ o ≤ i ∧ i < o+k
  · simp [h]
    omega
  · simp [h]
    omega

def put (o : ℕ) {k : ℕ} (v : BitVec k) (w : BitVec n) : BitVec n :=
  w &&& ~~~mask o k ||| v.setWidth n <<< o

lemma getLsbD_put (v : BitVec k) (w : BitVec n) (hi : i < n) :
    (put o v w).getLsbD i = if o ≤ i ∧ i < o+k then v.getLsbD (i-o) else w.getLsbD i := by
  unfold put
  simp only [getLsbD_or,getLsbD_and,getLsbD_not,getLsbD_mask,getLsbD_shiftLeft,getLsbD_setWidth]
  by_cases ho : o ≤ i
  · by_cases hk : i < o+k
    · simp [ho,hk,hi,not_lt.mpr ho]
      omega
    · have hv : v.getLsbD (i-o) = false := getLsbD_of_ge _ _ (by omega)
      simp [ho,hk,hi,hv]
  · simp [ho,hi,Nat.lt_of_not_le ho]

lemma getLsbD_put_of_outside (v : BitVec k) (w : BitVec n) (h : i < o ∨ o+k ≤ i) :
    (put o v w).getLsbD i = w.getLsbD i := by
  by_cases hi : i < n
  · rw [getLsbD_put v w hi,if_neg (by omega)]
  · rw [getLsbD_of_ge _ _ (by omega),getLsbD_of_ge _ _ (by omega)]

lemma get_put (h : o+k ≤ n) (v : BitVec k) (w : BitVec n) : (put o v w).extractLsb' o k = v := by
  apply eq_of_getLsbD_eq
  intro i hi
  rw [getLsbD_extractLsb',getLsbD_put v w (by omega),if_pos (by omega),
    Nat.add_sub_cancel_left]
  simp [hi]

lemma get_put_of_disjoint {o k o' k' : ℕ} (v : BitVec k) (w : BitVec n)
    (h : o'+k' ≤ o ∨ o+k ≤ o') :
    (put o v w).extractLsb' o' k' = w.extractLsb' o' k' := by
  apply eq_of_getLsbD_eq
  intro i hi
  rw [getLsbD_extractLsb',getLsbD_extractLsb',getLsbD_put_of_outside]
  omega

lemma and_mask (o k : ℕ) (w : BitVec n) :
    w &&& mask o k = (w.extractLsb' o k).setWidth n <<< o := by
  apply eq_of_getLsbD_eq
  intro i hi
  simp only [getLsbD_and,getLsbD_mask,getLsbD_shiftLeft,getLsbD_setWidth,getLsbD_extractLsb']
  by_cases ho : o ≤ i
  · simp [ho,hi,not_lt.mpr ho]
    grind
  · simp [ho,Nat.lt_of_not_le ho]

lemma toNat_shiftLeft (h : o+k ≤ n) (v : BitVec k) :
    (v.setWidth n <<< o).toNat = v.toNat*2 ^ o := by
  have hlt : v.toNat*2 ^ o < 2 ^ n := by
    calc v.toNat*2 ^ o < 2 ^ k*2 ^ o := mul_lt_mul_of_pos_right v.isLt (Nat.two_pow_pos o)
      _ = 2 ^ (o+k) := by rw [pow_add,mul_comm]
      _ ≤ 2 ^ n := Nat.pow_le_pow_right two_pos h
  have hv : v.toNat < 2 ^ n := lt_of_le_of_lt (Nat.le_mul_of_pos_right _ (Nat.two_pow_pos o)) hlt
  rw [BitVec.toNat_shiftLeft,BitVec.toNat_setWidth,Nat.mod_eq_of_lt hv,Nat.shiftLeft_eq,
    Nat.mod_eq_of_lt hlt]

lemma has_mask (h : o+k ≤ n) (w : BitVec n) :
    has w (mask o k) = ((w.extractLsb' o k).toNat != 0) := by
  have hzero : w &&& mask o k = 0#n ↔ (w.extractLsb' o k).toNat = 0 := by
    rw [and_mask,← toNat_inj,toNat_shiftLeft h,toNat_zero,mul_eq_zero,
      or_iff_left (Nat.two_pow_pos o).ne']
  unfold has
  rw [Bool.eq_iff_iff,bne_iff_ne,bne_iff_ne,ne_eq,ne_eq,hzero]

/-- A field that is not 0 is counted down without a borrow. -/
lemma shiftLeft_sub_one (h : o+k ≤ n) {v : BitVec k} (hv : v ≠ 0#k) :
    v.setWidth n <<< o-1#n <<< o = (v-1#k).setWidth n <<< o := by
  have hpos : 1 ≤ v.toNat := pos_of_ne_zero fun h0 => hv (eq_of_toNat_eq h0)
  have hk : 0 < k := by
    rcases eq_zero_or_pos k with rfl | hk
    · exact absurd (eq_nil v) (by simpa using hv)
    · exact hk
  have hone : (1#n <<< o).toNat = 1*2 ^ o := by
    rw [← twoPow_eq,toNat_twoPow_of_lt (by omega),one_mul]
  have hone' : (1#k).toNat = 1 := by
    rw [toNat_ofNat,Nat.one_mod_two_pow hk]
  apply eq_of_toNat_eq
  rw [toNat_shiftLeft h,toNat_sub_of_le,toNat_sub_of_le,toNat_shiftLeft h,hone,hone',Nat.sub_mul]
  · rw [le_def,hone']
    exact hpos
  · rw [le_def,hone,toNat_shiftLeft h]
    exact Nat.mul_le_mul_right _ hpos

end Packed
