import Mathlib

/-!
# Masks and alignment
-/

namespace Masks

variable {x k n : ℕ}

lemma and_compl (hx : x < 2 ^ n) : x &&& (2 ^ n-1-(2 ^ k-1)) = x / 2 ^ k*2 ^ k := by
  apply Nat.eq_of_testBit_eq
  intro i
  by_cases hk : k ≤ n
  · have hpow : 2 ^ n-1-(2 ^ k-1) = 2 ^ n-((2 ^ k-1)+1) := by omega
    have hlt : 2 ^ k-1 < 2 ^ n :=
      (Nat.sub_lt (Nat.two_pow_pos k) Nat.one_pos).trans_le (Nat.pow_le_pow_right (by omega) hk)
    rw [Nat.testBit_and,hpow,Nat.testBit_two_pow_sub_succ hlt,Nat.testBit_two_pow_sub_one,
      Nat.testBit_mul_two_pow,Nat.testBit_div_two_pow]
    by_cases hi : k ≤ i
    · rw [Nat.sub_add_cancel hi]
      by_cases hn : i < n
      · simp [hi,hn,Nat.not_lt.mpr hi]
      · have := Nat.testBit_lt_two_pow (hx.trans_le (Nat.pow_le_pow_right (by omega) (not_lt.mp hn)))
        simp [this]
    · simp [hi,Nat.lt_of_not_le hi]
  · have hle : 2 ^ n ≤ 2 ^ k := Nat.pow_le_pow_right (by omega) (by omega)
    have hzero : 2 ^ n-1-(2 ^ k-1) = 0 := by omega
    rw [hzero,Nat.div_eq_of_lt (hx.trans_le hle)]
    simp

lemma or_mask (x k : ℕ) : x ||| (2 ^ k-1) = x / 2 ^ k*2 ^ k+(2 ^ k-1) := by
  have hlt : 2 ^ k-1 < 2 ^ k := Nat.sub_lt (Nat.two_pow_pos k) one_pos
  rw [← Nat.shiftLeft_eq,Nat.shiftLeft_add_eq_or_of_lt hlt,Nat.shiftLeft_eq]
  apply Nat.eq_of_testBit_eq
  intro i
  rw [Nat.testBit_or,Nat.testBit_or,Nat.testBit_two_pow_sub_one,Nat.testBit_mul_two_pow,
    Nat.testBit_div_two_pow]
  by_cases hi : k ≤ i
  · simp [hi,Nat.sub_add_cancel hi]
  · simp [Nat.lt_of_not_le hi]

lemma or_mul (h : x < 2 ^ k) (a : ℕ) : x ||| a*2 ^ k = a*2 ^ k+x := by
  rw [Nat.lor_comm,← Nat.shiftLeft_eq,Nat.shiftLeft_add_eq_or_of_lt h]

end Masks
