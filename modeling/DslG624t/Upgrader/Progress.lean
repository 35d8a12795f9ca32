import DslG624t.Lib.CString

/-!
# The progress bar of the upgrader

The copy routines of the upgrader show their progress in an array `P` of 33 characters, which they
fill with marks from the front and print as a string.
-/

namespace DslG624t.Upgrader

open CString List

def progressCount : ℕ := 32

structure Bar where
  p : Bytes
  c : ℕ
  inside : Bool
  deriving DecidableEq

def Bar.start : Bar := ⟨replicate progressCount 0x20 ++ [0],0,true⟩

def Bar.put (b : Bar) : Bar :=
  { b with p := b.p.set b.c 0x2a, inside := b.inside && decide (b.c < progressCount+1) }

def Bar.mark (b : Bar) : Bar := { b.put with c := b.c+1 }

def Bar.Shows (b : Bar) : Prop := b.inside = true ∧ (0 : UInt8) ∈ b.p

def Bar.after (c : ℕ) : Bar :=
  ⟨replicate c 0x2a ++ (replicate (progressCount-c) 0x20 ++ [0]),c,true⟩

lemma Bar.shows_after (c : ℕ) : (Bar.after c).Shows := ⟨rfl,by simp [Bar.after]⟩

lemma Bar.put_after {c : ℕ} (h : c < progressCount) :
    (Bar.after c).put = { Bar.after (c+1) with c := c } := by
  have hrest : progressCount-c = (progressCount-(c+1))+1 := by omega
  simp only [Bar.put,Bar.after,hrest,replicate_succ (n := progressCount-(c+1))]
  rw [set_append_right _ _ (by simp),replicate_succ' (n := c)]
  simp [Nat.lt_succ_of_lt h]

lemma Bar.mark_after {c : ℕ} (h : c < progressCount) : (Bar.after c).mark = Bar.after (c+1) := by
  rw [Bar.mark,Bar.put_after h]
  rfl

lemma Bar.shows_put_after {c : ℕ} (h : c < progressCount) : (Bar.after c).put.Shows := by
  rw [Bar.put_after h]
  exact Bar.shows_after (c+1)

lemma Bar.not_shows_put_full : ¬ (Bar.after progressCount).put.Shows := by
  rintro ⟨-,h⟩
  revert h
  decide

end DslG624t.Upgrader
