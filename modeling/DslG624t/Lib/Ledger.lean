import Mathlib

/-!
# A ledger of allocations

The blocks that an allocator hands out are numbered as they come.
-/

structure Ledger where
  issued : ℕ
  freed : List ℕ
  deriving DecidableEq

namespace Ledger

open List

variable {l l' l'' : Ledger} {b : ℕ}

def alloc (l : Ledger) (ok : Bool) : Option ℕ × Ledger :=
  if ok then (some l.issued,{ l with issued := l.issued+1 }) else (none,l)

def free (l : Ledger) (b : ℕ) : Ledger := { l with freed := l.freed ++ [b] }

def freePtr (l : Ledger) : Option ℕ → Ledger
  | none => l
  | some b => l.free b

def freeAll (l : Ledger) (bs : List ℕ) : Ledger := bs.foldl free l

@[simp] lemma alloc_true : l.alloc true = (some l.issued,{ l with issued := l.issued+1 }) :=
  rfl

@[simp] lemma alloc_false : l.alloc false = (none,l) := rfl

lemma freeAll_eq (bs : List ℕ) : l.freeAll bs = { l with freed := l.freed ++ bs } := by
  induction bs generalizing l with
  | nil => rw [append_nil]; rfl
  | cons b bs ih =>
    rw [freeAll,foldl_cons,← freeAll,ih]
    simp [free]

def Live (l : Ledger) (b : ℕ) : Prop := b < l.issued ∧ b ∉ l.freed

def Balances (l l' : Ledger) : Prop :=
  ∃ n bs, l'.issued = l.issued+n ∧ l'.freed = l.freed ++ bs ∧ bs.Perm (range' l.issued n)

lemma Balances.refl (l : Ledger) : l.Balances l :=
  ⟨0,[],rfl,(append_nil _).symm,.nil⟩

lemma balances_of_reverse {n : ℕ} (hissued : l'.issued = l.issued+n)
    (hfreed : l'.freed = l.freed ++ (range' l.issued n).reverse) : l.Balances l' :=
  ⟨n,_,hissued,hfreed,reverse_perm _⟩

lemma not_balances_of_leak {bs : List ℕ} (hlo : l.issued ≤ b) (hhi : b < l'.issued)
    (hfreed : l'.freed = l.freed ++ bs) (hb : b ∉ bs) : ¬l.Balances l' := by
  rintro ⟨n,bs',hn,hbs',hperm⟩
  obtain rfl : bs = bs' := append_cancel_left (hfreed.symm.trans hbs')
  apply hb
  rw [hperm.mem_iff,mem_range'_1]
  omega

end Ledger
