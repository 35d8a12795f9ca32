import Mathlib

/-!
# Monitors over event traces

A monitor reads the events a program emits and stops at the first one that breaks its rule.
-/

namespace Monitor

open Function Option

variable {σ ε : Type}

def run (step : σ → ε → Option σ) (s : σ) (tr : List ε) : Option σ := tr.foldlM step s

lemma run_append (step : σ → ε → Option σ) (s : σ) (a b : List ε) :
    run step s (a ++ b) = (run step s a).bind fun s' => run step s' b := by
  simp [run,List.foldlM_append]

lemma run_concat (step : σ → ε → Option σ) (s : σ) (tr : List ε) (e : ε) :
    run step s (tr ++ [e]) = (run step s tr).bind fun s' => step s' e := by
  simp [run,List.foldlM_append]

inductive Life
  | unborn
  | live
  | gone
  deriving DecidableEq

inductive LifeEv
  | born (b : ℕ)
  | touch (b : ℕ)
  | drop (b : ℕ)
  deriving DecidableEq

def lifeStep (s : ℕ → Life) : LifeEv → Option (ℕ → Life)
  | .born b => if s b = .unborn then some (update s b .live) else none
  | .touch b => if s b = .live then some s else none
  | .drop b => if s b = .live then some (update s b .gone) else none

/-- The resources in `S` are the live ones, and those from `n` on have not been made. -/
structure Owns (n : ℕ) (S : Set ℕ) (s : ℕ → Life) : Prop where
  live : ∀ b, s b = .live ↔ b ∈ S
  fresh : ∀ b, n ≤ b → s b = .unborn

variable {n b : ℕ} {S : Set ℕ} {s : ℕ → Life}

section

variable (h : Owns n S s)
include h

lemma Owns.notMem (hb : n ≤ b) : b ∉ S := by
  rw [← h.live,h.fresh b hb]
  simp

lemma Owns.lt (hb : b ∈ S) : b < n := by
  by_contra hlt
  exact h.notMem (Nat.le_of_not_lt hlt) hb

lemma Owns.touch (hb : b ∈ S) : lifeStep s (.touch b) = some s := by
  simp [lifeStep,(h.live b).mpr hb]

lemma Owns.drop (hb : b ∈ S) :
    ∃ s', lifeStep s (.drop b) = some s' ∧ Owns n (S \ {b}) s' := by
  refine ⟨update s b .gone,by simp [lifeStep,(h.live b).mpr hb],fun x => ?_,
    fun x hx => ?_⟩
  · by_cases hx : x = b
    · simp [hx]
    · simp [hx,h.live x]
  have hne : x ≠ b := by
    rintro rfl
    exact h.notMem hx hb
  rw [update_of_ne hne]
  exact h.fresh x hx

lemma Owns.born :
    ∃ s', lifeStep s (.born n) = some s' ∧ Owns (n+1) (insert n S) s' := by
  refine ⟨update s n .live,by simp [lifeStep,h.fresh n (le_refl n)],fun x => ?_,
    fun x hx => ?_⟩
  · by_cases hx : x = n
    · simp [hx]
    · simp [hx,h.live x]
  · rw [update_of_ne (by omega)]
    exact h.fresh x (by omega)

lemma Owns.touch_none (hb : b ∉ S) : lifeStep s (.touch b) = none := by
  simp [lifeStep,h.live b,hb]

lemma Owns.drop_none (hb : b ∉ S) : lifeStep s (.drop b) = none := by
  simp [lifeStep,h.live b,hb]

end

def startLife : ℕ → Life := fun b => if b = 0 then .live else .unborn

def Consumed (tr : List LifeEv) : Prop := ∃ s, run lifeStep startLife tr = some s ∧ ∀ b, s b ≠ .live

def Held (tr : List LifeEv) (n : ℕ) (S : Set ℕ) : Prop :=
  ∃ s, run lifeStep startLife tr = some s ∧ Owns n S s

lemma held_nil : Held [] 1 {0} := by
  refine ⟨startLife,rfl,fun b => ?_,fun b hb => ?_⟩
  · by_cases hb : b = 0 <;> simp [startLife,hb]
  · simp [startLife,show b ≠ 0 by omega]

namespace Held

variable {tr : List LifeEv}

lemma touch (h : Held tr n S) (hb : b ∈ S) : Held (tr ++ [.touch b]) n S := by
  obtain ⟨s,hs,hown⟩ := h
  exact ⟨s,by rw [run_concat,hs,bind_some,hown.touch hb],hown⟩

lemma drop (h : Held tr n S) (hb : b ∈ S) : Held (tr ++ [.drop b]) n (S \ {b}) := by
  obtain ⟨s,hs,hown⟩ := h
  obtain ⟨s',hs',hown'⟩ := hown.drop hb
  exact ⟨s',by rw [run_concat,hs,bind_some,hs'],hown'⟩

lemma born (h : Held tr n S) : Held (tr ++ [.born n]) (n+1) (insert n S) := by
  obtain ⟨s,hs,hown⟩ := h
  obtain ⟨s',hs',hown'⟩ := hown.born
  exact ⟨s',by rw [run_concat,hs,bind_some,hs'],hown'⟩

lemma drop_only (h : Held tr n {b}) : Held (tr ++ [.drop b]) n ∅ := by
  have hempty : ({b} : Set ℕ) \ {b} = ∅ := by
    ext x
    simp
  rw [← hempty]
  exact h.drop rfl

lemma insert_diff (h : Held tr n S) : insert n S \ {n} = S := by
  obtain ⟨s,-,hown⟩ := h
  have hn := hown.notMem (le_refl n)
  ext x
  grind

/-- Something that is made and given away at once. -/
lemma born_drop (h : Held tr n S) : Held (tr ++ [.born n] ++ [.drop n]) (n+1) S := by
  rw [← h.insert_diff]
  exact h.born.drop (.inl rfl)

lemma consumed (h : Held tr n ∅) : Consumed tr := by
  obtain ⟨s,hs,hown⟩ := h
  exact ⟨s,hs,fun b hb => (hown.live b).mp hb⟩

/-- A use of something that is not there cannot be made good. -/
lemma not_consumed_touch (h : Held tr n S) (hb : b ∉ S) (tr' : List LifeEv) :
    ¬ Consumed (tr ++ .touch b :: tr') := by
  obtain ⟨s,hs,hown⟩ := h
  rintro ⟨s',hs',-⟩
  rw [List.append_cons,run_append,run_concat,hs,bind_some,hown.touch_none hb] at hs'
  cases hs'

end Held

inductive Side
  | read
  | write
  deriving DecidableEq

inductive LockEv (l : Type)
  | acquire (lock : l) (side : Side)
  | release (lock : l) (side : Side)
  deriving DecidableEq

variable {l : Type} [DecidableEq l]

def lockStep (held : List (l × Side)) : LockEv l → Option (List (l × Side))
  | .acquire lock side => if lock ∈ held.map Prod.fst then none else some ((lock,side) :: held)
  | .release lock side =>
    if (lock,side) ∈ held then some (held.erase (lock,side)) else none

lemma lockStep_acquire {held : List (l × Side)} {lock : l} (h : lock ∉ held.map Prod.fst)
    (side : Side) : lockStep held (.acquire lock side) = some ((lock,side) :: held) :=
  if_neg h

lemma lockStep_release (held : List (l × Side)) (lock : l) (side : Side) :
    lockStep ((lock,side) :: held) (.release lock side) = some held := by
  simp [lockStep]

end Monitor
