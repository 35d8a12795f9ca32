import Mathlib

/-!
# Linked lists in a heap

`Seg next p l q` says that following `next` from the pointer `p` visits the cells of `l` in order
and arrives at `q`.
-/

namespace HeapList

open Function List

variable {α : Type*}

def Seg (next : α → Option α) : Option α → List α → Option α → Prop
  | p, [], q => p = q
  | p, a :: l, q => p = some a ∧ Seg next (next a) l q

abbrev Chain (next : α → Option α) (p : Option α) (l : List α) : Prop := Seg next p l none

variable {next next' : α → Option α} {p q r : Option α} {l m : List α} {a t : α}

@[simp] lemma seg_nil : Seg next p [] q ↔ p = q := Iff.rfl

@[simp] lemma seg_cons : Seg next p (a :: l) q ↔ p = some a ∧ Seg next (next a) l q := Iff.rfl

lemma seg_append : Seg next p (l ++ m) r ↔ ∃ q, Seg next p l q ∧ Seg next q m r := by
  induction l generalizing p with
  | nil => simp
  | cons a l ih =>
    rw [cons_append,seg_cons,ih]
    constructor
    · rintro ⟨rfl,q,h1,h2⟩
      exact ⟨q,⟨rfl,h1⟩,h2⟩
    · rintro ⟨q,⟨rfl,h1⟩,h2⟩
      exact ⟨rfl,q,h1,h2⟩

lemma Seg.congr (h : Seg next p l q) (hn : ∀ a ∈ l, next' a = next a) : Seg next' p l q := by
  induction l generalizing p with
  | nil => exact h
  | cons a l ih =>
    obtain ⟨hn,hns⟩ := forall_mem_cons.mp hn
    obtain ⟨rfl,h⟩ := h
    refine ⟨rfl,?_⟩
    rw [hn]
    exact ih h hns

lemma Chain.head_eq (h : Chain next p l) : p = l.head? := by
  cases l with
  | nil => exact h
  | cons a l => exact h.1

lemma Seg.exists_head (h : Seg next p (l ++ [t]) q) : ∃ a, p = some a := by
  cases l with
  | nil => exact ⟨_,h.1⟩
  | cons a l => exact ⟨_,h.1⟩

/-- Writing the link of the last cell moves the end of the segment and nothing else. -/
lemma Seg.retarget [DecidableEq α] (h : Seg next p (l ++ [t]) q) (ht : t ∉ l) (r : Option α) :
    Seg (update next t r) p (l ++ [t]) r := by
  obtain ⟨s,h1,rfl,-⟩ := seg_append.mp h
  refine seg_append.mpr ⟨_,h1.congr fun a ha => ?_,rfl,by simp⟩
  exact update_of_ne (by rintro rfl; exact ht ha) _ _

/-- The link of a cell inside a list is the first cell behind it. -/
lemma Chain.next_eq (h : Chain next p (l ++ t :: m)) : next t = m.head? := by
  obtain ⟨s,-,-,h2⟩ := seg_append.mp h
  exact Chain.head_eq h2

/-- A loop with fuel follows the links of the records `l`: it ends at the null pointer, and from a
record it goes on behind it. -/
@[elab_as_elim]
lemma Chain.walk {β : Type*} {ptr : β → α} {Q : β → Prop}
    {motive : List β → ℕ → Option α → Prop} (nil : ∀ fuel, motive [] (fuel+1) none)
    (cons : ∀ b l fuel, Q b → motive l fuel (next (ptr b)) →
      motive (b :: l) (fuel+1) (some (ptr b)))
    {l : List β} {fuel : ℕ} (hc : Chain next p (l.map ptr)) (hQ : ∀ b ∈ l, Q b)
    (hf : l.length < fuel) : motive l fuel p := by
  induction l generalizing p fuel with
  | nil =>
    obtain ⟨fuel,rfl⟩ := Nat.exists_eq_add_of_lt hf
    obtain rfl : p = none := hc
    exact nil _
  | cons b l ih =>
    obtain ⟨fuel,rfl⟩ := Nat.exists_eq_add_of_lt (Nat.zero_lt_of_lt hf)
    obtain ⟨rfl,hc⟩ := hc
    obtain ⟨hb,hl⟩ := forall_mem_cons.mp hQ
    rw [zero_add]
    exact cons b l fuel hb (ih hc hl (by simpa using hf))

/-- A list is put behind another one by the link of its last cell. -/
lemma Chain.append [DecidableEq α] (h : Chain next p (l ++ [t])) (ht : t ∉ l)
    (hm : Chain next q m) (htm : t ∉ m) :
    Chain (update next t q) p (l ++ [t] ++ m) := by
  refine seg_append.mpr ⟨q,h.retarget ht _,hm.congr fun a ha => ?_⟩
  refine update_of_ne ?_ _ _
  rintro rfl
  exact htm ha

lemma Chain.append_cell [DecidableEq α] (h : Chain next p (l ++ [t])) (ht : t ∉ l)
    (ha : a ∉ l ++ [t]) (hn : next a = none) :
    Chain (update next t (some a)) p (l ++ [t] ++ [a]) := by
  have hta : t ∉ [a] := by
    intro hmem
    obtain rfl := mem_singleton.mp hmem
    simp at ha
  exact h.append ht ⟨rfl,hn⟩ hta

lemma Chain.unique (h : Chain next p l) (h' : Chain next p m) : l = m := by
  induction l generalizing p m with
  | nil =>
    cases m with
    | nil => rfl
    | cons b m => exact absurd (h.symm.trans h'.1) (by simp)
  | cons a l ih =>
    cases m with
    | nil => exact absurd (h.1.symm.trans h') (by simp)
    | cons b m =>
      obtain rfl : a = b := Option.some.inj (h.1.symm.trans h'.1)
      rw [ih h.2 h'.2]

/-- Taking out the cell behind a prefix, by the link of the last cell before it. -/
lemma Chain.remove_cell [DecidableEq α] (h : Chain next p (l ++ [t] ++ a :: m))
    (hn : (l ++ [t] ++ a :: m).Nodup) :
    Chain (update next t (next a)) p (l ++ [t] ++ m) := by
  obtain ⟨q,h1,rfl,h2⟩ := seg_append.mp h
  have hl := (nodup_append.mp hn).1
  have ht : t ∉ l := fun hm => (nodup_append.mp hl).2.2 t hm t (by simp) rfl
  refine seg_append.mpr ⟨next a,h1.retarget ht _,h2.congr fun x hx => ?_⟩
  refine update_of_ne ?_ _ _
  rintro rfl
  exact (nodup_append.mp hn).2.2 x (by simp) x (mem_cons_of_mem _ hx) rfl

/-- A list without repetition of numbers below `n` is no longer than `n`. -/
lemma length_le_of_nodup {l : List ℕ} {n : ℕ} (h : l.Nodup) (hl : ∀ x ∈ l, x < n) :
    l.length ≤ n := by
  have hsub : l ⊆ range n := fun x hx => mem_range.mpr (hl x hx)
  have hle := (subperm_of_subset h hsub).length_le
  rwa [length_range] at hle

end HeapList
