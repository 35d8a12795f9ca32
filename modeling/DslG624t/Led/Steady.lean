import DslG624t.Led.Hal

/-!
# A steady state after a blink

An LED that is turned on, or off by the last module that held it on, keeps the pattern of that
action.
-/

namespace DslG624t.Led.Hal

open BitVec

open Function (update update_self update_of_ne)

variable {b : Board} {l e : ℕ} {s : Hal} {m : BitVec 64} {o : Option (BitVec 64)}

def steady (b : Board) (e : ℕ) (s : Hal) : Option (BitVec 64) :=
  match (b.entry e).mode with
  | .on => some (b.entry e).map1
  | .off =>
    if s.moduleMap (b.entry e).led &&& ~~~(1#32 <<< (b.entry e).moduleId) = 0 then
      some (b.entry e).map1
    else none
  | _ => none

/-- The runs of actions on one LED and of timers, with the pattern of the last action, in which no
timer of a one-shot expires in its first phase after a steady action. -/
inductive SteadyRun (b : Board) (l : ℕ) : Hal → Option (BitVec 64) → Prop
  | start {s : Hal} (hpend : ∀ e, s.pending e = none) : SteadyRun b l s none
  | action {s : Hal} {o : Option (BitVec 64)} {e : ℕ} (h : SteadyRun b l s o)
    (he : (b.entry e).led = l) : SteadyRun b l (s.action b e) (steady b e s)
  | expire {s : Hal} {o : Option (BitVec 64)} {e : ℕ} (h : SteadyRun b l s o)
    (hphase : o ≠ none → s.pending e ≠ none →
      (b.entry e).mode = .oneshotOff ∨ (b.entry e).mode = .oneshotOn → s.timerRunning e ≠ 1) :
    SteadyRun b l (s.expire b e) o

def Shows (b : Board) (l : ℕ) (s : Hal) (m : BitVec 64) : Prop :=
  s.gpio &&& b.posMap l = m &&& b.posMap l

lemma shows_gpioSet (he : (b.entry e).led = l) (m : BitVec 64) : Shows b l (s.gpioSet b e m) m := by
  subst he
  apply eq_of_getLsbD_eq
  intro i hi
  simp only [gpioSet,getLsbD_and,getLsbD_or,getLsbD_not,hi,decide_true,
    Bool.true_and]
  cases (b.posMap (b.entry e).led).getLsbD i <;> simp

/-- Pending timers are those of the LED's entries, and an LED with a steady pattern does not flash. -/
structure Kept (b : Board) (l : ℕ) (s : Hal) (o : Option (BitVec 64)) : Prop where
  led : ∀ e, s.pending e ≠ none → (b.entry e).led = l
  shows : ∀ m, o = some m → s.ledState l ≠ .flash ∧ Shows b l s m

lemma Kept.of_update {s' : Hal} (h : Kept b l s o) (he : (b.entry e).led = l) {p : Option ℕ}
    (hp : s'.pending = update s.pending e p) : Kept b l s' none where
  led i hi := by
    by_cases hie : i = e
    · exact hie ▸ he
    · rw [hp,update_of_ne hie] at hi
      exact h.led i hi
  shows := nofun

lemma Kept.ledBlink (h : Kept b l s o) (he : (b.entry e).led = l) (mode : Mode) (ms : ℕ) :
    Kept b l (s.ledBlink b e mode ms) none := by
  rw [Hal.ledBlink]
  split
  · exact ⟨h.led,fun _ hm => by cases hm⟩
  · exact h.of_update he rfl

lemma Kept.oneshot (h : Kept b l s o) (he : (b.entry e).led = l) :
    Kept b l (s.ledOneshotTimerFunc b e) none := by
  rw [ledOneshotTimerFunc]
  split
  · exact h.of_update he rfl
  · exact ⟨h.led,fun _ hm => by cases hm⟩

lemma Kept.action (h : Kept b l s o) (he : (b.entry e).led = l) :
    Kept b l (s.action b e) (steady b e s) := by
  rw [Hal.action,steady]
  cases (b.entry e).mode with
  | off =>
    simp only [Hal.ledOff]
    split
    · refine ⟨h.led,fun m hm => ?_⟩
      cases hm
      exact ⟨by simp [gpioSet,setState,← he],shows_gpioSet he _⟩
    · exact ⟨h.led,fun _ hm => by cases hm⟩
  | on =>
    refine ⟨h.led,fun m hm => ?_⟩
    cases hm
    exact ⟨by simp [Hal.ledOn,gpioSet,setState,← he],shows_gpioSet he _⟩
  | oneshotOff => exact h.ledBlink he _ _
  | oneshotOn => exact h.ledBlink he _ _
  | flash => exact h.ledBlink he _ _

lemma Kept.expire (h : Kept b l s o) (hphase : o ≠ none → s.pending e ≠ none →
    (b.entry e).mode = .oneshotOff ∨ (b.entry e).mode = .oneshotOn → s.timerRunning e ≠ 1) :
    Kept b l (s.expire b e) o := by
  rw [Hal.expire]
  split
  · exact h
  next hpend =>
  have he := h.led e hpend
  have hcleared : Kept b l { s with pending := update s.pending e none } o :=
    ⟨(h.of_update he rfl).led,h.shows⟩
  cases o with
  | none =>
    cases (b.entry e).mode with
    | off => exact hcleared
    | on => exact hcleared
    | oneshotOff => exact hcleared.oneshot he
    | oneshotOn => exact hcleared.oneshot he
    | flash =>
      dsimp only
      rw [ledFlashTimerFunc]
      split
      · exact hcleared
      · split
        · exact hcleared.of_update he rfl
        · exact hcleared.of_update he rfl
  | some m =>
    have hflash := (h.shows m rfl).1
    cases hm : (b.entry e).mode with
    | off => exact hcleared
    | on => exact hcleared
    | oneshotOff =>
      dsimp only
      rw [ledOneshotTimerFunc,if_neg (hphase (by simp) hpend (.inl hm))]
      exact ⟨hcleared.led,h.shows⟩
    | oneshotOn =>
      dsimp only
      rw [ledOneshotTimerFunc,if_neg (hphase (by simp) hpend (.inr hm))]
      exact ⟨hcleared.led,h.shows⟩
    | flash =>
      dsimp only
      rw [ledFlashTimerFunc,if_pos (he ▸ hflash)]
      exact hcleared

lemma SteadyRun.kept (h : SteadyRun b l s o) : Kept b l s o := by
  induction h with
  | start hpend => exact ⟨fun e he => absurd (hpend e) he,nofun⟩
  | action _ he ih => exact ih.action he
  | expire _ hphase ih => exact ih.expire hphase

theorem shows_of_run (h : SteadyRun b l s (some m)) : Shows b l s m :=
  (h.kept.shows m rfl).2

theorem shows_flashAndOn :
    Shows flashAndOn 0 (((idle.action flashAndOn 0).action flashAndOn 1).expire flashAndOn 0) 1 :=
  shows_of_run (.expire (.action (.action (.start fun _ => rfl) rfl) rfl) (by decide))

/-- The LED is turned on during a one-shot, and the timer turns it off. -/
theorem oneshot_wins :
    let s := (idle.action oneshotAndOn 0).action oneshotAndOn 1
    steady oneshotAndOn 1 (idle.action oneshotAndOn 0) = some 1 ∧
      ¬ Shows oneshotAndOn 0 (s.expire oneshotAndOn 0) 1 :=
  ⟨by decide,by unfold Shows; decide⟩

end DslG624t.Led.Hal
