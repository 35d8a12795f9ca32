import Mathlib

/-!
# Ring buffers

A window of a ring is a number of slots that follow each other, the first slot behind the last.
-/

namespace Ring

open List

variable {α : Type} {n : ℕ}

def window (n : ℕ) (buf : ℕ → α) (start len : ℕ) : List α :=
  (List.range len).map fun i => buf ((start+i) % n)

variable {k len : ℕ}

variable (buf : ℕ → α)

@[simp]
lemma length_window (start len : ℕ) : (window n buf start len).length = len := by
  simp [window]

lemma window_add (start a b : ℕ) :
    window n buf start (a+b) = window n buf start a ++ window n buf ((start+a) % n) b := by
  rw [window,range_add,map_append,map_map]
  congr 1
  apply map_congr_left
  intro i _
  show buf ((start+(a+i)) % n) = buf (((start+a) % n+i) % n)
  rw [Nat.mod_add_mod,add_assoc]

lemma take_window (start : ℕ) (h : k ≤ len) :
    (window n buf start len).take k = window n buf start k := by
  obtain ⟨m,rfl⟩ := Nat.exists_eq_add_of_le h
  rw [window_add,take_left' (length_window buf start k)]

lemma drop_window (start : ℕ) (h : k ≤ len) :
    (window n buf start len).drop k = window n buf ((start+k) % n) (len-k) := by
  obtain ⟨m,rfl⟩ := Nat.exists_eq_add_of_le h
  rw [window_add,drop_left' (length_window buf start k),Nat.add_sub_cancel_left]

/-- Up to the end of the ring. -/
lemma window_eq_slice {start len : ℕ} (h : start+len ≤ n) :
    window n buf start len = (List.range len).map fun i => buf (start+i) := by
  apply map_congr_left
  intro i hi
  have hlt : start+i < n := by
    have := mem_range.mp hi
    omega
  rw [Nat.mod_eq_of_lt hlt]

lemma window_push (start : ℕ) (h : len < n) (x : α) :
    window n (Function.update buf ((start+len) % n) x) start (len+1) =
      window n buf start len ++ [x] := by
  rw [window,range_succ,map_append]
  congr 1
  · apply map_congr_left
    intro i hi
    have hlt := mem_range.mp hi
    apply Function.update_of_ne
    intro heq
    have hsame : i ≡ len [MOD n] := Nat.ModEq.add_left_cancel' start heq
    exact absurd (hsame.eq_of_lt_of_lt (hlt.trans h) h) (ne_of_lt hlt)
  · simp

end Ring
