import Mathlib

/-!
# A scan around a table

A loop that goes through the slots of a table from some position on, wraps at the end, and stops
where it started unless it finds something before.
-/

namespace SlotScan

variable {n : ℕ}

def next (i : Fin (n+1)) : Fin (n+1) :=
  if h : i.val+1 < n+1 then ⟨i.val+1,h⟩ else 0

/-- The first slot from `i` on for which `p` holds, unless `limit` is reached before. -/
def scan (p : Fin (n+1) → Bool) (limit : Fin (n+1)) :
    ℕ → Fin (n+1) → Option (Option (Fin (n+1)))
  | 0, _ => none
  | fuel+1, i =>
    if p i then some (some i)
    else if next i = limit then some none
    else scan p limit fuel (next i)

def ahead (i : Fin (n+1)) (k : ℕ) : Fin (n+1) :=
  ⟨(i.val+k) % (n+1),Nat.mod_lt _ (Nat.succ_pos n)⟩

lemma ahead_zero (i : Fin (n+1)) : ahead i 0 = i := by
  apply Fin.ext
  exact Nat.mod_eq_of_lt i.isLt

lemma next_ahead (i : Fin (n+1)) (k : ℕ) : next (ahead i k) = ahead i (k+1) := by
  apply Fin.ext
  have hstep : (i.val+(k+1)) % (n+1) = ((i.val+k) % (n+1)+1) % (n+1) := by
    rw [← add_assoc,Nat.mod_add_mod]
  show (next (ahead i k)).val = (i.val+(k+1)) % (n+1)
  rw [hstep,next]
  split
  next h => exact (Nat.mod_eq_of_lt h).symm
  next h =>
    have hlast : (i.val+k) % (n+1)+1 = n+1 := by
      have := Nat.mod_lt (i.val+k) (show 0 < n+1 by omega)
      simp only [ahead] at h
      omega
    rw [hlast,Nat.mod_self]
    rfl

/-- Every slot is some steps ahead. -/
lemma exists_ahead (i j : Fin (n+1)) : ∃ k ≤ n, ahead i k = j := by
  by_cases h : i.val ≤ j.val
  · refine ⟨j.val-i.val,by omega,Fin.ext ?_⟩
    show (i.val+(j.val-i.val)) % (n+1) = j.val
    rw [Nat.add_sub_cancel' h,Nat.mod_eq_of_lt j.isLt]
  · refine ⟨j.val+(n+1)-i.val,by omega,Fin.ext ?_⟩
    show (i.val+(j.val+(n+1)-i.val)) % (n+1) = j.val
    rw [show i.val+(j.val+(n+1)-i.val) = j.val+(n+1) by omega,Nat.add_mod_right,
      Nat.mod_eq_of_lt j.isLt]

/-- The scan is back at its start after all slots, and not before. -/
lemma ahead_eq_self_iff (i : Fin (n+1)) {k : ℕ} (hk : k ≤ n) : ahead i (k+1) = i ↔ k = n := by
  rw [Fin.ext_iff]
  show (i.val+(k+1)) % (n+1) = i.val ↔ k = n
  have hi := i.isLt
  by_cases h : i.val+(k+1) < n+1
  · rw [Nat.mod_eq_of_lt h]
    omega
  · rw [Nat.mod_eq_sub_mod (by omega),Nat.mod_eq_of_lt (by omega)]
    omega

variable (p : Fin (n+1) → Bool) (limit : Fin (n+1))

lemma scan_ahead {k fuel : ℕ} (hk : k ≤ n) (hfuel : n+1 ≤ fuel+k) :
    (∃ j, scan p limit fuel (ahead limit k) = some (some j) ∧ p j = true) ∨
      scan p limit fuel (ahead limit k) = some none ∧
        ∀ m, k ≤ m → m ≤ n → p (ahead limit m) = false := by
  induction fuel generalizing k with
  | zero => omega
  | succ fuel ih =>
    rw [scan]
    by_cases hp : p (ahead limit k) = true
    · exact .inl ⟨_,if_pos hp,hp⟩
    rw [if_neg hp,next_ahead]
    rw [Bool.not_eq_true] at hp
    by_cases hlast : k = n
    · rw [if_pos ((ahead_eq_self_iff limit hk).mpr hlast)]
      refine .inr ⟨rfl,fun m hkm hmn => ?_⟩
      obtain rfl : m = k := by omega
      exact hp
    rw [if_neg (mt (ahead_eq_self_iff limit hk).mp hlast)]
    rcases ih (k := k+1) (by omega) (by omega) with hfound | ⟨hnone,hrest⟩
    · exact .inl hfound
    · refine .inr ⟨hnone,fun m hkm hmn => ?_⟩
      by_cases hm : m = k
      · exact hm ▸ hp
      · exact hrest m (by omega) hmn

lemma scan_spec {fuel : ℕ} (hfuel : n+1 ≤ fuel) :
    (∃ j, scan p limit fuel limit = some (some j) ∧ p j = true) ∨
      scan p limit fuel limit = some none ∧ ∀ j, p j = false := by
  have h := scan_ahead p limit (Nat.zero_le n) (show n+1 ≤ fuel+0 by omega)
  rw [ahead_zero] at h
  rcases h with hfound | ⟨hnone,hall⟩
  · exact .inl hfound
  · refine .inr ⟨hnone,fun j => ?_⟩
    obtain ⟨k,hk,rfl⟩ := exists_ahead limit j
    exact hall k (Nat.zero_le k) hk

end SlotScan
