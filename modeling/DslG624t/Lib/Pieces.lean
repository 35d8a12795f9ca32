import Mathlib

/-!
# Moving a block in pieces

A block is handed to a call that takes at least one element of it or fails, and again with what is
left until nothing is.
-/

namespace Pieces

open List

variable {α σ : Type} (answers : ℕ → Option ℕ) (put : σ → List α → σ)

/-- The loop, whether it got to the end, and the number of calls so far. Call `n` fails, or takes
up to one more than `answers n`. There are never more calls than elements. -/
def drainLoop : ℕ → ℕ → List α → σ → Bool × ℕ × σ
  | 0, n, _, s => (true,n,s)
  | fuel+1, n, block, s =>
    if block.isEmpty then (true,n,s)
    else match answers n with
      | none => (false,n+1,s)
      | some k => drainLoop fuel (n+1) (block.drop (k+1)) (put s (block.take (k+1)))

def drain (n : ℕ) (block : List α) (s : σ) : Bool × ℕ × σ :=
  drainLoop answers put block.length n block s

/-- The pieces with the rest behind them make up the block. -/
def Cut (block : List α) (pieces : List (List α)) (rest : List α) : Prop :=
  pieces.flatten ++ rest = block

variable {answers put} {rest block : List α} {pieces : List (List α)}

lemma Cut.nil (block : List α) : Cut block [] block := rfl

lemma Cut.cons {k : ℕ} (h : Cut (block.drop (k+1)) pieces rest) :
    Cut block (block.take (k+1) :: pieces) rest := by
  rw [Cut,flatten_cons,append_assoc,h,take_append_drop]

lemma Cut.extend (h : Cut block pieces rest) (more : List α) :
    Cut (block ++ more) pieces (rest ++ more) := by
  rw [Cut,← append_assoc,h]

lemma Cut.append {block rest rest' : List α} {pieces pieces' : List (List α)}
    (h : Cut block pieces rest) (h' : Cut rest pieces' rest') :
    Cut block (pieces ++ pieces') rest' := by
  rw [Cut,flatten_append,append_assoc,h',h]

lemma drainLoop_pieces {fuel : ℕ} (h : block.length ≤ fuel) (n : ℕ) :
    ∃ pieces rest n', Cut block pieces rest ∧ ∀ (σ : Type) (put : σ → List α → σ) (s : σ),
      drainLoop answers put fuel n block s = (rest.isEmpty,n',pieces.foldl put s) := by
  induction fuel generalizing n block with
  | zero =>
    obtain rfl : block = [] := eq_nil_of_length_eq_zero (by omega)
    exact ⟨[],[],n,Cut.nil _,fun _ _ _ => rfl⟩
  | succ fuel ih =>
    by_cases hb : block = []
    · subst hb
      exact ⟨[],[],n,Cut.nil _,fun _ _ _ => rfl⟩
    simp only [drainLoop,List.isEmpty_iff,if_neg hb]
    cases answers n with
    | none => exact ⟨[],block,n+1,Cut.nil _,by simp [hb]⟩
    | some k =>
      have hlen : (block.drop (k+1)).length ≤ fuel := by
        rw [length_drop]
        omega
      obtain ⟨pieces,rest,n',hcut,heq⟩ := ih hlen (n+1)
      exact ⟨_,rest,n',hcut.cons,fun σ put s => heq σ put _⟩

variable (answers) in
/-- The block is cut in the same way whatever is done with the pieces. -/
lemma drain_pieces (n : ℕ) (block : List α) :
    ∃ pieces rest n', Cut block pieces rest ∧ ∀ (σ : Type) (put : σ → List α → σ) (s : σ),
      drain answers put n block s = (rest.isEmpty,n',pieces.foldl put s) :=
  drainLoop_pieces (le_refl _) n

lemma drainLoop_fst (h : ∀ n, answers n ≠ none) (fuel n : ℕ) (block : List α) (s : σ) :
    (drainLoop answers put fuel n block s).1 = true := by
  induction fuel generalizing n block s with
  | zero => rfl
  | succ fuel ih =>
    rw [drainLoop]
    split
    · rfl
    · cases ha : answers n with
      | none => exact absurd ha (h n)
      | some k => exact ih _ _ _

variable (put) in
/-- Where no call fails the loop gets to the end. -/
lemma drain_fst (h : ∀ n, answers n ≠ none) (n : ℕ) (block : List α) (s : σ) :
    (drain answers put n block s).1 = true := drainLoop_fst h _ _ _ _

end Pieces
