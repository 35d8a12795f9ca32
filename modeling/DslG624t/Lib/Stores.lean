import Mathlib

/-!
# Stores that only clear bits

A memory is a function of the address, and a list of stores is carried out from left to right.
-/

namespace Stores

open Function

variable {α : Type*}

def Below (f g : α → UInt8) : Prop := ∀ x, f x &&& g x = f x

lemma Below.refl (f : α → UInt8) : Below f f := fun _ => UInt8.and_self

lemma Below.trans {f g h : α → UInt8} (hfg : Below f g) (hgh : Below g h) : Below f h := by
  intro x
  calc f x &&& h x = f x &&& g x &&& h x := by rw [hfg x]
    _ = f x &&& (g x &&& h x) := UInt8.and_assoc _ _ _
    _ = f x := by rw [hgh x,hfg x]

variable [DecidableEq α]

def content (f : α → UInt8) (ws : List (α × UInt8)) : α → UInt8 :=
  ws.foldl (fun f w => update f w.1 w.2) f

@[simp] lemma content_nil (f : α → UInt8) : content f [] = f := rfl

@[simp]
lemma content_cons (f : α → UInt8) (w : α × UInt8) (ws : List (α × UInt8)) :
    content f (w :: ws) = content (update f w.1 w.2) ws := rfl

lemma content_append (f : α → UInt8) (ws ws' : List (α × UInt8)) :
    content f (ws ++ ws') = content (content f ws) ws' := List.foldl_append

lemma content_of_forall_ne {f : α → UInt8} {ws : List (α × UInt8)} {x : α}
    (h : ∀ w ∈ ws, w.1 ≠ x) : content f ws x = f x := by
  induction ws generalizing f with
  | nil => rfl
  | cons w ws ih =>
    rw [content_cons,ih fun w' hw' => h w' (List.mem_cons_of_mem w hw')]
    exact update_of_ne (h w List.mem_cons_self).symm _ _

lemma Below.update {f g : α → UInt8} (h : Below f g) (a : α) (v : UInt8) :
    Below (update f a v) (update g a v) := by
  intro x
  by_cases hx : x = a
  · subst hx
    simp
  · simp [update_of_ne hx,h x]

lemma below_update {f : α → UInt8} {a : α} {v : UInt8} (h : v &&& f a = v) :
    Below (update f a v) f := by
  intro x
  by_cases hx : x = a
  · subst hx
    simpa using h
  · simp [update_of_ne hx]

/-- Every store only clears bits of what the ones before it have left. -/
def OnlyClears : (α → UInt8) → List (α × UInt8) → Prop
  | _, [] => True
  | f, w :: ws => w.2 &&& f w.1 = w.2 ∧ OnlyClears (update f w.1 w.2) ws

lemma onlyClears_append {f : α → UInt8} {ws ws' : List (α × UInt8)} :
    OnlyClears f (ws ++ ws') ↔ OnlyClears f ws ∧ OnlyClears (content f ws) ws' := by
  induction ws generalizing f with
  | nil => simp [OnlyClears]
  | cons w ws ih => simp [OnlyClears,ih,and_assoc]

variable {f g : α → UInt8} {ws : List (α × UInt8)}

lemma OnlyClears.below_content (h : OnlyClears f ws) (hfg : Below f g) :
    Below (content f ws) (content g ws) := by
  induction ws generalizing f g with
  | nil => exact hfg
  | cons w ws ih => exact ih h.2 (hfg.update w.1 w.2)

/-- The stores only clear bits of any memory above the one that they are meant for. -/
lemma OnlyClears.content_below (h : OnlyClears f ws) (hfg : Below f g) :
    Below (content g ws) g := by
  induction ws generalizing f g with
  | nil => exact Below.refl g
  | cons w ws ih =>
    have hw : w.2 &&& g w.1 = w.2 := by
      have := (below_update h.1).trans hfg w.1
      rwa [update_self] at this
    exact (ih h.2 (hfg.update w.1 w.2)).trans (below_update hw)

end Stores
