import Mathlib

/-!
# The first element with a property

`splitFirst p l` cuts a list at its first element that has the property `p`, and
keeps both sides, so that the element can be replaced in place.
-/

namespace SplitFirst

open List

variable {α : Type*} {p : α → Bool} {l a b : List α} {x : α}

def splitFirst (p : α → Bool) : List α → Option (List α × α × List α)
  | [] => none
  | x :: l => if p x then some ([],x,l) else (splitFirst p l).map fun (a,y,b) => (x :: a, y, b)

lemma splitFirst_eq_none_iff : splitFirst p l = none ↔ ∀ y ∈ l, p y = false := by
  induction l with
  | nil => simp [splitFirst]
  | cons x l ih =>
    cases hx : p x with
    | true => simp [splitFirst,hx]
    | false => simp [splitFirst,hx,ih]

lemma splitFirst_eq_some_iff :
    splitFirst p l = some (a,x,b) ↔ l = a ++ x :: b ∧ p x = true ∧ ∀ y ∈ a, p y = false := by
  induction l generalizing a with
  | nil => simp [splitFirst]
  | cons y l ih =>
    cases hy : p y with
    | true =>
      simp only [splitFirst,hy,if_true,Option.some.injEq,Prod.mk.injEq]
      constructor
      · rintro ⟨rfl,rfl,rfl⟩
        exact ⟨rfl,hy,by simp⟩
      rintro ⟨hl,hx,ha⟩
      cases a with
      | nil =>
        obtain ⟨rfl,rfl⟩ := cons.inj hl
        exact ⟨rfl,rfl,rfl⟩
      | cons z a =>
        obtain ⟨rfl,-⟩ := cons.inj hl
        simp [hy] at ha
    | false =>
      simp only [splitFirst,hy,Bool.false_eq_true,if_false,Option.map_eq_some_iff]
      constructor
      · rintro ⟨⟨a',x',b'⟩,hs,he⟩
        obtain ⟨rfl,rfl,rfl⟩ := by simpa using he
        obtain ⟨rfl,hx,ha⟩ := ih.mp hs
        exact ⟨rfl,hx,by simpa [hy] using ha⟩
      rintro ⟨hl,hx,ha⟩
      cases a with
      | nil =>
        obtain ⟨rfl,-⟩ := cons.inj hl
        simp [hy] at hx
      | cons z a =>
        obtain ⟨rfl,rfl⟩ := cons.inj hl
        exact ⟨(a,x,b),ih.mpr ⟨rfl,hx,fun w hw => ha w (by simp [hw])⟩,rfl⟩

lemma find?_eq_map_splitFirst (p : α → Bool) (l : List α) :
    l.find? p = (splitFirst p l).map fun s => s.2.1 := by
  induction l with
  | nil => rfl
  | cons x l ih =>
    cases hx : p x with
    | true => simp [splitFirst,hx]
    | false => simp [splitFirst,hx,ih,Function.comp_def]

lemma splitFirst_append_cons (hx : p x = true) (ha : ∀ y ∈ a, p y = false) :
    splitFirst p (a ++ x :: b) = some (a,x,b) :=
  splitFirst_eq_some_iff.mpr ⟨rfl,hx,ha⟩

end SplitFirst
