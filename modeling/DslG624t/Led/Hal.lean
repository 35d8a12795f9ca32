import Mathlib

/-!
# Actions and timers of the LEDs

`led_hal.c`.
-/

namespace DslG624t.Led

inductive Mode
  | off
  | on
  | oneshotOff
  | oneshotOn
  | flash
  deriving DecidableEq

def Mode.requiresTimer : Mode → Bool
  | .off | .on => false
  | .oneshotOff | .oneshotOn | .flash => true

structure StateEntry where
  mode : Mode
  led : ℕ
  map1 : BitVec 64
  map2 : BitVec 64
  param1 : ℕ
  param2 : ℕ
  moduleId : ℕ

structure Board where
  entry : ℕ → StateEntry
  posMap : ℕ → BitVec 64

/-- What the actions change. A pending timer is given with the milliseconds it was added for. -/
structure Hal where
  ledState : ℕ → Mode
  moduleMap : ℕ → BitVec 32
  timerRunning : ℕ → ℕ
  pending : ℕ → Option ℕ
  gpio : BitVec 64

namespace Hal

variable (b : Board) (e : ℕ) (s : Hal)

def gpioSet (map : BitVec 64) : Hal :=
  { s with gpio := s.gpio &&& ~~~b.posMap (b.entry e).led ||| map }

def setState (mode : Mode) : Hal :=
  { s with ledState := Function.update s.ledState (b.entry e).led mode }

def timerAdd (running ms : ℕ) : Hal :=
  { s with
    timerRunning := Function.update s.timerRunning e running
    pending := Function.update s.pending e (some ms) }

def ledOn : Hal :=
  let s := (s.setState b e .on).gpioSet b e (b.entry e).map1
  let led := (b.entry e).led
  let map := s.moduleMap led ||| 1#32 <<< (b.entry e).moduleId
  { s with moduleMap := Function.update s.moduleMap led map }

def ledOff : Hal :=
  let led := (b.entry e).led
  let map := s.moduleMap led &&& ~~~(1#32 <<< (b.entry e).moduleId)
  let s := { s with moduleMap := Function.update s.moduleMap led map }
  if map = 0 then (s.setState b e .off).gpioSet b e (b.entry e).map1 else s

def ledBlink (mode : Mode) (ms : ℕ) : Hal :=
  if s.timerRunning e ≠ 0 then s
  else ((s.setState b e mode).gpioSet b e (b.entry e).map1).timerAdd e 1 ms

def oneshotTime : ℕ := (b.entry e).param1*8 % 0x100000000 / 10

def ledOneshotOn : Hal := s.ledBlink b e .oneshotOn (oneshotTime b e)

def ledOneshotOff : Hal := s.ledBlink b e .oneshotOff (oneshotTime b e)

def ledFlash : Hal := s.ledBlink b e .flash (b.entry e).param1

/-- `avalanche_led_action` on an entry. -/
def action : Hal :=
  match (b.entry e).mode with
  | .off => s.ledOff b e
  | .on => s.ledOn b e
  | .oneshotOff => s.ledOneshotOff b e
  | .oneshotOn => s.ledOneshotOn b e
  | .flash => s.ledFlash b e

def ledOneshotTimerFunc : Hal :=
  if s.timerRunning e = 1 then
    (s.gpioSet b e (b.entry e).map2).timerAdd e 2 ((b.entry e).param1*2 % 0x100000000 / 10)
  else { s with timerRunning := Function.update s.timerRunning e 0 }

def ledFlashTimerFunc : Hal :=
  if s.ledState (b.entry e).led ≠ .flash then s
  else if s.timerRunning e = 1 then
    (s.gpioSet b e (b.entry e).map2).timerAdd e 2 (b.entry e).param2
  else (s.gpioSet b e (b.entry e).map1).timerAdd e 1 (b.entry e).param1

def expire : Hal :=
  if s.pending e = none then s
  else
    let s := { s with pending := Function.update s.pending e none }
    match (b.entry e).mode with
    | .off | .on => s
    | .oneshotOff | .oneshotOn => s.ledOneshotTimerFunc b e
    | .flash => s.ledFlashTimerFunc b e

variable {b e s}

def InSync (s : Hal) : Prop := ∀ e, s.timerRunning e ≠ 0 ↔ s.pending e ≠ none

lemma InSync.of_eq {s' : Hal} (h : s.InSync)
    (hother : ∀ i, i ≠ e → s'.timerRunning i = s.timerRunning i ∧ s'.pending i = s.pending i)
    (hown : s'.timerRunning e ≠ 0 ↔ s'.pending e ≠ none) : s'.InSync := by
  intro i
  by_cases hi : i = e
  · subst hi
    exact hown
  · rw [(hother i hi).1,(hother i hi).2]
    exact h i

lemma InSync.ledBlink (h : s.InSync) (mode : Mode) (ms : ℕ) : (s.ledBlink b e mode ms).InSync := by
  rw [Hal.ledBlink]
  split
  · exact h
  · refine h.of_eq (e := e) (fun i hi => ?_) ?_
    · simp [timerAdd,gpioSet,setState,hi]
    · simp [timerAdd]

lemma InSync.action (h : s.InSync) : (s.action b e).InSync := by
  rw [Hal.action]
  cases (b.entry e).mode with
  | off =>
    simp only [ledOff]
    split
    · exact h
    · exact h
  | on => exact h
  | oneshotOff => exact h.ledBlink _ _
  | oneshotOn => exact h.ledBlink _ _
  | flash => exact h.ledBlink _ _

lemma InSync.ledOneshotTimerFunc (h : s.InSync) :
    (({ s with pending := Function.update s.pending e none } : Hal).ledOneshotTimerFunc
      b e).InSync := by
  rw [Hal.ledOneshotTimerFunc]
  split
  · exact h.of_eq (e := e) (fun i hi => by simp [timerAdd,gpioSet,hi]) (by simp [timerAdd])
  · exact h.of_eq (e := e) (fun i hi => by simp [hi]) (by simp)

lemma InSync.expire (h : s.InSync) (ht : (b.entry e).mode.requiresTimer = true)
    (hflash : (b.entry e).mode = .flash → s.ledState (b.entry e).led = .flash) :
    (s.expire b e).InSync := by
  rw [Hal.expire]
  split
  · exact h
  cases hm : (b.entry e).mode with
  | off => simp [hm,Mode.requiresTimer] at ht
  | on => simp [hm,Mode.requiresTimer] at ht
  | oneshotOff => exact h.ledOneshotTimerFunc
  | oneshotOn => exact h.ledOneshotTimerFunc
  | flash =>
    dsimp only
    rw [ledFlashTimerFunc,if_neg (not_not_intro (hflash hm))]
    split
    · exact h.of_eq (e := e) (fun i hi => by simp [timerAdd,gpioSet,hi]) (by simp [timerAdd])
    · exact h.of_eq (e := e) (fun i hi => by simp [timerAdd,gpioSet,hi]) (by simp [timerAdd])

/-- The runs of actions and timers in which no timer of a flash expires after the LED was given
another state. -/
inductive Run (b : Board) : Hal → Prop
  | start {s : Hal} (hrun : ∀ e, s.timerRunning e = 0) (hpend : ∀ e, s.pending e = none) : Run b s
  | action {s : Hal} (e : ℕ) (h : Run b s) : Run b (s.action b e)
  | expire {s : Hal} {e : ℕ} (h : Run b s) (ht : (b.entry e).mode.requiresTimer = true)
    (hflash : (b.entry e).mode = .flash → s.ledState (b.entry e).led = .flash) :
    Run b (s.expire b e)

lemma Run.inSync (h : Run b s) : s.InSync := by
  induction h with
  | start hrun hpend =>
    intro e
    simp [hrun,hpend]
  | action e _ ih => exact ih.action
  | expire _ ht hflash ih => exact ih.expire ht hflash

structure Started (b : Board) (e : ℕ) (s s' : Hal) : Prop where
  timerRunning : s'.timerRunning e = 1
  pending : s'.pending e ≠ none
  ledState : s'.ledState (b.entry e).led = (b.entry e).mode
  gpio : s'.gpio = s.gpio &&& ~~~b.posMap (b.entry e).led ||| (b.entry e).map1

lemma started_ledBlink (h : s.timerRunning e = 0) {mode : Mode} (hm : (b.entry e).mode = mode)
    (ms : ℕ) : Started b e s (s.ledBlink b e mode ms) := by
  rw [ledBlink,if_neg (by simp [h])]
  constructor <;> simp [timerAdd,gpioSet,setState,hm]

lemma started_action (h : s.timerRunning e = 0) (ht : (b.entry e).mode.requiresTimer = true) :
    Started b e s (s.action b e) := by
  rw [action]
  split
  · next hm => simp [hm,Mode.requiresTimer] at ht
  · next hm => simp [hm,Mode.requiresTimer] at ht
  · next hm => exact started_ledBlink h hm _
  · next hm => exact started_ledBlink h hm _
  · next hm => exact started_ledBlink h hm _

theorem timer_of_run (h : Run b s) (ht : (b.entry e).mode.requiresTimer = true) :
    (s.timerRunning e ≠ 0 ↔ s.pending e ≠ none) ∧
      (s.pending e = none → Started b e s (s.action b e)) := by
  refine ⟨h.inSync e,fun hp => started_action ?_ ht⟩
  by_contra hrun
  exact (h.inSync e).mp hrun hp

def flashAndOn : Board where
  entry e := ⟨if e = 0 then .flash else .on,0,1,0,500,500,e⟩
  posMap _ := 1

def idle : Hal := ⟨fun _ => .off,fun _ => 0,fun _ => 0,fun _ => none,0⟩

def oneshotAndOn : Board where
  entry e := ⟨if e = 0 then .oneshotOn else .on,0,1,0,500,500,e⟩
  posMap _ := 1

/-- A one-shot is asked for again after both of its phases. -/
theorem timer_of_run_again :
    let s := ((idle.action oneshotAndOn 0).expire oneshotAndOn 0).expire oneshotAndOn 0
    s.timerRunning 0 = 0 ∧ Started oneshotAndOn 0 s (s.action oneshotAndOn 0) := by
  have hrun : Run oneshotAndOn (idle.action oneshotAndOn 0) :=
    .action 0 (.start (fun _ => rfl) fun _ => rfl)
  have hrun2 := (hrun.expire (e := 0) rfl (by decide)).expire (e := 0) rfl (by decide)
  exact ⟨by decide,(timer_of_run hrun2 rfl).2 (by decide)⟩

/-- The LED is turned on during a flash: the timer expires with its flag set, and the LED does not
flash again. -/
theorem flash_stops :
    let s := ((idle.action flashAndOn 0).action flashAndOn 1).expire flashAndOn 0
    s.timerRunning 0 ≠ 0 ∧ s.pending 0 = none ∧ ¬ Started flashAndOn 0 s (s.action flashAndOn 0) :=
  ⟨by decide,by decide,fun h => h.pending (by decide)⟩

end Hal

end DslG624t.Led
