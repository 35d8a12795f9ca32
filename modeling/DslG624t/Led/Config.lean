import DslG624t.Led.Hal
import DslG624t.Lib.Checked

/-!
# Configuring the LEDs

`avalanche_led_config_set`, `avalanche_led_register` and `avalanche_led_free_all` with their
failures.
-/

namespace DslG624t.Led

open Function (update update_self update_of_ne)
open Checked (Allows)

/-- What a call may run into: a null pointer, an index outside its array, or freed memory. -/
inductive Fault
  | nullPointer
  | outOfBounds
  | freed
  deriving DecidableEq

/-- `LED_CONFIG_T`; `inst` is the number of the module's instance. -/
structure LedConfig where
  name : List Char
  inst : ℕ
  state : ℕ
  gpio : Vector ℕ 2
  mode : Vector ℕ 2
  gpioNum : ℕ
  param1 : ℕ
  param2 : ℕ

open List Option

def maxModuleEntries : ℕ := 25

def maxModuleInstances : ℕ := 2

def maxStateEntries : ℕ := 25

def maxLedEntries : ℕ := 25

def numGpios : ℕ := 36

def modeOf : ℕ → Option Mode
  | 0 => some .off
  | 1 => some .on
  | 2 => some .oneshotOff
  | 3 => some .oneshotOn
  | 4 => some .flash
  | _ => none

def LedConfig.pins (c : LedConfig) (n : ℕ) : Except Fault (List (ℕ × ℕ)) :=
  (range n).mapM fun i =>
    match c.gpio[i]?, c.mode[i]? with
    | some g, some m => .ok (g,m)
    | _, _ => .error .outOfBounds

def ledGetMode (pins : List (ℕ × ℕ)) : ℤ :=
  pins.foldl (fun m p => max m (BitVec.ofNat 32 p.2).toInt) (-1)

structure Maps where
  pos : BitVec 64
  map1 : BitVec 64
  map2 : BitVec 64

def ledGetMap (off : BitVec 64) (timer : Bool) : List (ℕ × ℕ) → Maps → Option Maps
  | [], m => some m
  | (g,k) :: pins, m =>
    if numGpios ≤ g then none
    else
      (modeOf k).bind fun mode =>
        let bit := 1#64 <<< g
        let o := off.getLsbD g
        let first := match mode with
          | .off | .oneshotOff => o
          | .on | .oneshotOn | .flash => !o
        let second := match mode with
          | .off => timer && o
          | .on => timer && !o
          | .oneshotOff => !o
          | .oneshotOn | .flash => o
        ledGetMap off timer pins
          ⟨m.pos ||| bit,if first then m.map1 ||| bit else m.map1,if second then m.map2 ||| bit else m.map2⟩

/-- The mode and the maps; `none` if the configuration is rejected. The number of pins is an `int` in
the first loop, and the mode is then compared as an `unsigned int`. -/
def LedConfig.verdict (c : LedConfig) (off : BitVec 64) : Except Fault (Option (Mode × Maps)) := do
  let pins ← c.pins (if c.gpioNum < 2 ^ 31 then c.gpioNum else 0)
  match ledGetMode pins with
  | .negSucc _ => pure none
  | .ofNat n =>
    pure ((modeOf n).bind fun mode =>
      (ledGetMap off mode.requiresTimer pins ⟨0,0,0⟩).map fun maps => (mode,maps))

inductive TimerFunc
  | oneshot
  | flash
  deriving DecidableEq

def Mode.timerFunc : Mode → TimerFunc
  | .flash => .flash
  | _ => .oneshot

/-- `STATE_ENTRY_T`, as allocated. The handler is given by its mode. -/
structure Cell where
  handler : Option Mode := none
  led : Option ℕ := none
  map1 : BitVec 64 := 0
  map2 : BitVec 64 := 0
  osTimer : Option TimerFunc := none
  param1 : ℕ := 0
  param2 : ℕ := 0
  moduleId : ℕ := 0
  deriving DecidableEq

structure ModuleEntry where
  name : Option (List Char)
  inst : ℕ → Option ℕ

/-- `states` is the table of each instance of a module; instances are not freed. A timer is pending for
the entry that it was added with. -/
structure Layer where
  off : BitVec 64
  modules : ℕ → Option ModuleEntry
  states : ℕ → ℕ → Option ℕ
  nextInst : ℕ
  heap : ℕ → Option Cell
  nextEntry : ℕ
  leds : List (BitVec 64)
  hal : Hal

structure Alloc where
  entry : Bool
  name : Bool
  inst : Bool
  state : Bool
  led : Bool
  timer : Bool

def sameName (a b : List Char) : Bool := a.map Char.toLower == b.map Char.toLower

lemma Hal.pending_action {b : Board} {e i : ℕ} {s : Hal} (h : (s.action b e).pending i ≠ none) :
    s.pending i ≠ none ∨ i = e ∧ (b.entry e).mode.requiresTimer = true := by
  have hblink {mode : Mode} {ms : ℕ} (h : (s.ledBlink b e mode ms).pending i ≠ none) :
      s.pending i ≠ none ∨ i = e := by
    rw [ledBlink] at h
    split at h
    · exact .inl h
    · by_cases hi : i = e
      · exact .inr hi
      · simp only [timerAdd,gpioSet,setState,update_of_ne hi] at h
        exact .inl h
  rw [action] at h
  split at h
  · rw [ledOff] at h
    split at h
    · exact .inl h
    · exact .inl h
  · exact .inl h
  · next hm => exact (hblink h).imp_right fun hi => ⟨hi,hm ▸ rfl⟩
  · next hm => exact (hblink h).imp_right fun hi => ⟨hi,hm ▸ rfl⟩
  · next hm => exact (hblink h).imp_right fun hi => ⟨hi,hm ▸ rfl⟩

lemma Hal.pending_timerFunc {b : Board} {e i : ℕ} (hi : i ≠ e) (s : Hal) :
    (s.ledOneshotTimerFunc b e).pending i = s.pending i ∧
      (s.ledFlashTimerFunc b e).pending i = s.pending i := by
  constructor
  · rw [ledOneshotTimerFunc]
    split
    · exact update_of_ne hi _ _
    · rfl
  rw [ledFlashTimerFunc]
  split
  · rfl
  · split
    · exact update_of_ne hi _ _
    · exact update_of_ne hi _ _

namespace Layer

variable (s : Layer)

def findModule (name : List Char) : List ℕ → Except Fault (Option ℕ)
  | [] => .ok none
  | id :: ids =>
    match s.modules id with
    | none => findModule name ids
    | some m =>
      match m.name with
      | none => .error .nullPointer
      | some n => if sameName name n then .ok (some id) else findModule name ids

/-- The end of `get_module`. A number that is not one of an instance is negative here. -/
def getInstance (id k : ℕ) (a : Alloc) : Except Fault (Option (ℕ × ℕ) × Layer) :=
  match s.modules id with
  | none => .error .nullPointer
  | some m =>
    if maxModuleInstances ≤ k then .error .outOfBounds
    else
      match m.inst k with
      | some i => .ok (some (id,i),s)
      | none =>
        if a.inst then
          .ok (some (id,s.nextInst),{ s with
            modules := update s.modules id (some { m with inst := update m.inst k (some s.nextInst) })
            states := update s.states s.nextInst fun _ => none
            nextInst := s.nextInst+1 })
        else .ok (none,s)

/-- The number of the module and its instance. -/
def getModule (name : List Char) (k : ℕ) (a : Alloc) : Except Fault (Option (ℕ × ℕ) × Layer) := do
  if maxModuleInstances ≤ k ∧ k < 2 ^ 31 then pure (none,s)
  else
    match ← s.findModule name (range maxModuleEntries) with
    | some id => s.getInstance id k a
    | none =>
      match (range maxModuleEntries).find? fun id => (s.modules id).isNone with
      | none => pure (none,s)
      | some id =>
        if a.entry then
          let m : ModuleEntry := ⟨if a.name then some name else none,fun _ => none⟩
          let s := { s with modules := update s.modules id (some m) }
          if a.name then s.getInstance id k a else pure (none,s)
        else pure (none,s)

def getLed (pos : BitVec 64) (ok : Bool) : Option ℕ × Layer :=
  match s.leds.findIdx? (· == pos) with
  | some l => (some l,s)
  | none =>
    if s.leds.length < maxLedEntries ∧ ok then
      let l := s.leds.length
      (some l,{ s with
        leds := s.leds ++ [pos]
        hal.ledState := update s.hal.ledState l .off
        hal.moduleMap := update s.hal.moduleMap l 0 })
    else (none,s)

def deleteTimer (e : ℕ) (c : Cell) : Layer :=
  { s with hal.pending := if c.osTimer.isSome then update s.hal.pending e none else s.hal.pending }

def assignTimer (e : ℕ) (c : Cell) : Layer :=
  { s.deleteTimer e c with hal.timerRunning := update s.hal.timerRunning e 0 }

/-- `none` if the configuration is rejected. The pins are switched off at the end. -/
def configureState (e : ℕ) (c : Cell) (cfg : LedConfig) (a : Alloc) : Except Fault (Option (Cell × Layer)) := do
  match ← cfg.verdict s.off with
  | none => pure none
  | some (mode,maps) =>
    let (led,s) := s.getLed maps.pos a.led
    let new := { c with handler := some mode, map1 := maps.map1, map2 := maps.map2, led := led }
    let off (s : Layer) : Layer := { s with hal.gpio := s.hal.gpio &&& ~~~maps.pos ||| s.off &&& maps.pos }
    if mode.requiresTimer then
      if a.timer then
        pure (some ({ new with param1 := cfg.param1, param2 := cfg.param2, osTimer := some mode.timerFunc },
          off (s.assignTimer e c)))
      else .error .nullPointer
    else pure (some (new,off s))

/-- The entry of a state, allocated if there is none. -/
def entryFor (i j : ℕ) (ok : Bool) : Except Fault (Option (ℕ × Cell × Layer)) :=
  match s.states i j with
  | some e =>
    match s.heap e with
    | none => .error .freed
    | some c => .ok (some (e,c,s))
  | none =>
    if ok then
      .ok (some (s.nextEntry,{},{ s with
        nextEntry := s.nextEntry+1
        hal.timerRunning := update s.hal.timerRunning s.nextEntry 0 }))
    else .ok none

def install (i j e : ℕ) (c : Option Cell) : Layer :=
  { s with
    heap := update s.heap e c
    states := update s.states i (update (s.states i) j (c.map fun _ => e)) }

def avalancheLedConfigSet (cfg : LedConfig) (a : Alloc) : Except Fault (Bool × Layer) := do
  match ← s.getModule cfg.name cfg.inst a with
  | (none,s) => pure (false,s)
  | (some (id,i),s) =>
    if cfg.state < maxStateEntries then
      match ← s.entryFor i cfg.state a.state with
      | none => pure (false,s)
      | some (e,c,s) =>
        match ← s.configureState e { c with moduleId := id } cfg a with
        | none => pure (false,s.install i cfg.state e none)
        | some (c,s) => pure (true,s.install i cfg.state e (some c))
    else pure (false,s)

def avalancheLedRegister (name : List Char) (k : ℕ) (a : Alloc) : Except Fault (Option ℕ × Layer) := do
  let (r,s) ← s.getModule name k a
  pure (r.map Prod.snd,s)

def board : Board where
  entry e :=
    let c := (s.heap e).getD {}
    ⟨c.handler.getD .off,c.led.getD 0,c.map1,c.map2,c.param1,c.param2,c.moduleId⟩
  posMap l := s.leds[l]?.getD 0

def follow (e : ℕ) (f : Cell → Hal) : Except Fault Layer :=
  match s.heap e with
  | none => .error .freed
  | some c => if c.handler.isSome ∧ c.led.isSome then .ok { s with hal := f c } else .error .nullPointer

def avalancheLedAction (handle : Option ℕ) (stateId : ℤ) : Except Fault Layer :=
  match handle with
  | none => .ok s
  | some i =>
    if maxStateEntries ≤ stateId then .ok s
    else
      match stateId with
      | .negSucc _ => .error .outOfBounds
      | .ofNat j =>
        match s.states i j with
        | none => .ok s
        | some e => s.follow e fun _ => s.hal.action s.board e

def expire (e : ℕ) : Except Fault Layer :=
  if s.hal.pending e = none then .ok s
  else
    let hal := { s.hal with pending := update s.hal.pending e none }
    s.follow e fun c =>
      match c.osTimer with
      | some .flash => hal.ledFlashTimerFunc s.board e
      | _ => hal.ledOneshotTimerFunc s.board e

def freeState (i j : ℕ) : Except Fault Layer :=
  match s.states i j with
  | none => .ok s
  | some e =>
    match s.heap e with
    | none => .error .freed
    | some c => .ok ((s.deleteTimer e c).install i j e none)

def freeModule (id : ℕ) : Except Fault Layer := do
  match s.modules id with
  | none => pure s
  | some m =>
    let s ← (range maxModuleInstances).foldlM (fun s k =>
      match m.inst k with
      | none => .ok s
      | some i => (range maxStateEntries).foldlM (fun s j => s.freeState i j) s) s
    if m.name.isNone then .error .nullPointer else pure { s with modules := update s.modules id none }

def freeAllStates : Except Fault Layer := (range maxModuleEntries).foldlM freeModule s

variable {s} {s' : Layer} {a : Alloc} {cfg : LedConfig} {e : ℕ} {c : Cell}

/-- The entry can be used. -/
def Ready (leds : List (BitVec 64)) (c : Cell) : Prop :=
  (∃ mode, c.handler = some mode ∧ (mode.requiresTimer = true → c.osTimer ≠ none)) ∧
    ∃ l, c.led = some l ∧ l < leds.length

structure Inv (s : Layer) : Prop where
  installed : ∀ i j e, s.states i j = some e → ∃ c, s.heap e = some c ∧ Ready s.leds c
  inj : ∀ i j i' j' e, s.states i j = some e → s.states i' j' = some e → i = i' ∧ j = j'
  pending : ∀ e, s.hal.pending e ≠ none → ∃ c, s.heap e = some c ∧ c.osTimer ≠ none
  fresh : ∀ e, s.heap e ≠ none → e < s.nextEntry

lemma Inv.of_states (h : Inv s) {modules : ℕ → Option ModuleEntry} {states : ℕ → ℕ → Option ℕ} {n : ℕ}
    (hs : ∀ i j e, states i j = some e → s.states i j = some e) :
    Inv { s with modules := modules, states := states, nextInst := n } :=
  ⟨fun i j e he => h.installed i j e (hs i j e he),
    fun i j i' j' e he he' => h.inj i j i' j' e (hs i j e he) (hs i' j' e he'),h.pending,h.fresh⟩

lemma Inv.of_hal (h : Inv s) {hal : Hal}
    (hp : ∀ e, hal.pending e ≠ none →
      s.hal.pending e ≠ none ∨ ∃ c, s.heap e = some c ∧ c.osTimer ≠ none) :
    Inv { s with hal := hal } :=
  ⟨h.installed,h.inj,fun e he => (hp e he).elim (h.pending e) id,h.fresh⟩

lemma states_install {i j i' j' e' : ℕ} {c : Option Cell} (h : (s.install i j e c).states i' j' = some e') :
    (i' = i ∧ j' = j ∧ c.isSome ∧ e' = e) ∨ (¬ (i' = i ∧ j' = j) ∧ s.states i' j' = some e') := by
  simp only [install,Function.update_apply] at h
  split at h
  · next hi =>
    subst hi
    by_cases hj : j' = j
    · rw [hj,update_self] at h
      obtain ⟨d,rfl,rfl⟩ := map_eq_some_iff.mp h
      exact .inl ⟨rfl,hj,rfl,rfl⟩
    · rw [update_of_ne hj] at h
      exact .inr ⟨fun heq => hj heq.2,h⟩
  · next hi => exact .inr ⟨fun heq => hi heq.1,h⟩

lemma Inv.install (h : Inv s) {i j : ℕ} {c : Option Cell} (hc : ∀ d, c = some d → Ready s.leds d)
    (he : s.states i j = some e ∨ ∀ i j, s.states i j ≠ some e) (hlt : e < s.nextEntry)
    (hp : s.hal.pending e ≠ none → ∃ d, c = some d ∧ d.osTimer ≠ none) :
    Inv (s.install i j e c) := by
  have hne {i' j' e' : ℕ} (hij : ¬ (i' = i ∧ j' = j)) (h' : s.states i' j' = some e') : e' ≠ e := by
    rintro rfl
    obtain he | he := he
    · exact hij (h.inj i' j' i j e' h' he)
    · exact he i' j' h'
  have hheap {e' : ℕ} (hne : e' ≠ e) : (s.install i j e c).heap e' = s.heap e' := update_of_ne hne _ _
  have hself : (s.install i j e c).heap e = c := update_self _ _ _
  refine ⟨fun i' j' e' h' => ?_,fun i1 j1 i2 j2 e' h1 h2 => ?_,fun e' h' => ?_,fun e' h' => ?_⟩
  · obtain ⟨-,-,hsome,rfl⟩ | ⟨hij,h'⟩ := states_install h'
    · obtain ⟨d,rfl⟩ := isSome_iff_exists.mp hsome
      exact ⟨d,hself,hc d rfl⟩
    · rw [hheap (hne hij h')]
      exact h.installed i' j' e' h'
  · obtain ⟨rfl,rfl,-,he1⟩ | ⟨hij1,h1⟩ := states_install h1
    · obtain ⟨rfl,rfl,-⟩ | ⟨hij2,h2⟩ := states_install h2
      · exact ⟨rfl,rfl⟩
      · exact absurd he1 (hne hij2 h2)
    · obtain ⟨-,-,-,he2⟩ | ⟨hij2,h2⟩ := states_install h2
      · exact absurd he2 (hne hij1 h1)
      · exact h.inj i1 j1 i2 j2 e' h1 h2
  · by_cases heq : e' = e
    · subst heq
      rw [hself]
      exact hp h'
    · rw [hheap heq]
      exact h.pending e' h'
  by_cases heq : e' = e
  · rw [heq]
    exact hlt
  · rw [hheap heq] at h'
    exact h.fresh e' h'

/-- The modules may have changed; an instance with entries is one that the module had. -/
structure Looked (s : Layer) (name : List Char) (k : ℕ) (r : Option (ℕ × ℕ)) (s' : Layer) : Prop where
  eq : ∃ modules states n, s' = { s with modules := modules, states := states, nextInst := n }
  states : ∀ i j e, s'.states i j = some e → s.states i j = some e
  inst : ∀ id i, r = some (id,i) → ∀ j e, s'.states i j = some e →
    ∃ m ∈ s.modules id, ∃ n ∈ m.name, sameName name n = true ∧ i ∈ m.inst k

lemma findModule_allows (name : List Char) (ids : List ℕ) :
    Allows (· = .nullPointer) (s.findModule name ids) fun r =>
      ∀ id ∈ r, ∃ m ∈ s.modules id, ∃ n ∈ m.name, sameName name n = true := by
  induction ids with
  | nil => exact fun id hid => nomatch hid
  | cons id ids ih =>
    rw [findModule]
    split
    · exact ih
    next m hm =>
    split
    · rfl
    next n hn =>
    split
    · next hname =>
      rintro _ ⟨⟩
      exact ⟨m,hm,n,hn,hname⟩
    · exact ih

lemma getInstance_allows {modules : ℕ → Option ModuleEntry} {name : List Char} {id k : ℕ}
    (hid : ∀ m ∈ modules id, m.inst k = none ∨ m ∈ s.modules id ∧
      ∃ n ∈ m.name, sameName name n = true)
    (hk : k < maxModuleInstances) :
    Allows (· = .nullPointer) (({ s with modules := modules } : Layer).getInstance id k a) fun r =>
      Looked s name k r.1 r.2 := by
  rw [getInstance]
  split
  · rfl
  next m hm =>
  rw [if_neg (not_le.mpr hk)]
  split
  · next i hi =>
    refine ⟨⟨_,_,_,rfl⟩,fun _ _ _ he => he,fun id' i' heq j e _ => ?_⟩
    cases heq
    obtain hnone | ⟨hm0,n,hn,hname⟩ := hid m hm
    · cases hnone.symm.trans hi
    · exact ⟨m,hm0,n,hn,hname,hi⟩
  split
  · have hstates (i j e : ℕ) (he : update s.states s.nextInst (fun _ => none) i j = some e) :
        i ≠ s.nextInst ∧ s.states i j = some e := by
      by_cases hi : i = s.nextInst
      · rw [hi,update_self] at he
        cases he
      · rw [update_of_ne hi] at he
        exact ⟨hi,he⟩
    refine ⟨⟨_,_,_,rfl⟩,fun i j e he => (hstates i j e he).2,fun id' i' heq j e he => ?_⟩
    cases heq
    exact absurd rfl (hstates _ j e he).1
  · exact ⟨⟨_,_,_,rfl⟩,fun _ _ _ he => he,nofun⟩

lemma getModule_allows (name : List Char) {k : ℕ} (hk : k < 2 ^ 31) (a : Alloc) :
    Allows (· = .nullPointer) (s.getModule name k a) fun r => Looked s name k r.1 r.2 := by
  have hsame (modules : ℕ → Option ModuleEntry) : Looked s name k none { s with modules := modules } :=
    ⟨⟨_,_,_,rfl⟩,fun _ _ _ he => he,nofun⟩
  rw [getModule]
  split
  · exact hsame s.modules
  next hlt =>
  have hk2 : k < maxModuleInstances := by omega
  refine (findModule_allows name _).bind fun r hr => ?_
  cases r with
  | some id =>
    refine getInstance_allows (fun m hm => .inr ?_) hk2
    obtain ⟨m',hm',n,hn,hname⟩ := hr id rfl
    obtain rfl := some.inj (hm.symm.trans hm')
    exact ⟨hm,n,hn,hname⟩
  | none =>
    dsimp only
    split
    · exact hsame s.modules
    split
    · split
      · refine getInstance_allows (fun m hm => .inl ?_) hk2
        rw [update_self] at hm
        cases hm
        rfl
      · exact hsame _
    · exact hsame s.modules

/-- The configurations that the layer copes with, given what it holds and which allocations succeed. -/
structure Good (s : Layer) (cfg : LedConfig) (a : Alloc) : Prop where
  inst : cfg.inst < 2 ^ 31
  gpioNum : cfg.gpioNum ≤ 2 ∨ 2 ^ 31 ≤ cfg.gpioNum
  led : ∀ mode maps, cfg.verdict s.off = .ok (some (mode,maps)) →
    maps.pos ∈ s.leds ∨ s.leds.length < maxLedEntries ∧ a.led = true
  rejected : cfg.verdict s.off = .ok none → ∀ id, ∀ m ∈ s.modules id, ∀ n ∈ m.name, sameName cfg.name n = true →
    ∀ i ∈ m.inst cfg.inst, ∀ e ∈ s.states i cfg.state, s.hal.pending e = none

lemma verdict_ok (h : cfg.gpioNum ≤ 2 ∨ 2 ^ 31 ≤ cfg.gpioNum) (off : BitVec 64) :
    ∃ v, cfg.verdict off = .ok v := by
  have hpins : ∀ n ≤ 2, ∃ l, cfg.pins n = .ok l
    | 0, _ | 1, _ | 2, _ => ⟨_,rfl⟩
  obtain ⟨l,hl⟩ := hpins (if cfg.gpioNum < 2 ^ 31 then cfg.gpioNum else 0) (by split <;> omega)
  rw [LedConfig.verdict,hl]
  simp only [bind,Except.bind]
  split <;> exact ⟨_,rfl⟩

structure Grown (s s' : Layer) : Prop where
  eq : s' = { s with leds := s'.leds, hal := s'.hal }
  leds : s.leds.length ≤ s'.leds.length
  pending : ∀ e, s'.hal.pending e ≠ none → s.hal.pending e ≠ none

lemma Inv.grown (h : Inv s) (hg : Grown s s') : Inv s' := by
  rw [hg.eq]
  refine ⟨fun i j e he => ?_,h.inj,fun e he => h.pending e (hg.pending e he),h.fresh⟩
  obtain ⟨c,hc,hmode,l,hl,hlt⟩ := h.installed i j e he
  exact ⟨c,hc,hmode,l,hl,lt_of_lt_of_le hlt hg.leds⟩

lemma grown_getLed {pos : BitVec 64} {ok : Bool}
    (h : pos ∈ s.leds ∨ s.leds.length < maxLedEntries ∧ ok = true) :
    Grown s (s.getLed pos ok).2 ∧ ∃ l, (s.getLed pos ok).1 = some l ∧
      l < (s.getLed pos ok).2.leds.length := by
  rw [getLed]
  split
  · next l hl =>
    obtain ⟨hlt,-⟩ := findIdx?_eq_some_iff_getElem.mp hl
    exact ⟨⟨rfl,le_refl _,fun _ he => he⟩,l,rfl,hlt⟩
  next hnone =>
  have hnot : pos ∉ s.leds := fun hmem => by simpa using findIdx?_eq_none_iff.mp hnone pos hmem
  rw [if_pos (h.resolve_left hnot)]
  refine ⟨⟨rfl,?_,fun _ he => he⟩,s.leds.length,rfl,?_⟩
  · simp
  · simp

lemma pending_deleteTimer {e' : ℕ} (h : (s.deleteTimer e c).hal.pending e' ≠ none) :
    s.hal.pending e' ≠ none := by
  rw [deleteTimer] at h
  dsimp only at h
  split at h
  · by_cases heq : e' = e
    · rw [heq,update_self] at h
      exact absurd rfl h
    · rwa [update_of_ne heq] at h
  · exact h

lemma configureState_allows (hn : cfg.gpioNum ≤ 2 ∨ 2 ^ 31 ≤ cfg.gpioNum)
    (hled : ∀ mode maps, cfg.verdict s.off = .ok (some (mode,maps)) →
      maps.pos ∈ s.leds ∨ s.leds.length < maxLedEntries ∧ a.led = true)
    (hc : s.hal.pending e ≠ none → c.osTimer ≠ none) :
    Allows (· = .nullPointer) (s.configureState e c cfg a) fun
      | none => cfg.verdict s.off = .ok none
      | some (c',s') => Grown s s' ∧ Ready s'.leds c' ∧
        (s'.hal.pending e ≠ none → c'.osTimer ≠ none) := by
  obtain ⟨v,hv⟩ := verdict_ok hn s.off
  rw [configureState,hv]
  cases v with
  | none => rfl
  | some v =>
    obtain ⟨mode,maps⟩ := v
    have hled := grown_getLed (hled mode maps hv)
    simp only [bind,Except.bind]
    generalize s.getLed maps.pos a.led = x at hled ⊢
    obtain ⟨led,s1⟩ := x
    obtain ⟨hgrown,l,hl,hlt⟩ := hled
    dsimp only at hgrown hl hlt ⊢
    split
    · split
      · refine ⟨⟨?_,hgrown.leds,fun e' he' => hgrown.pending e' ?_⟩,⟨⟨mode,rfl,nofun⟩,l,hl,hlt⟩,nofun⟩
        · simp only [assignTimer,deleteTimer]
          rw [hgrown.eq]
        · exact pending_deleteTimer he'
      · rfl
    next htimer =>
    refine ⟨⟨?_,hgrown.leds,hgrown.pending⟩,⟨⟨mode,rfl,fun h => absurd h htimer⟩,l,hl,hlt⟩,fun he =>
      hc (hgrown.pending e he)⟩
    dsimp only
    rw [hgrown.eq]

lemma Inv.configure (h : Inv s) {i j : ℕ} (he : s.states i j = some e ∨ ∀ i j, s.states i j ≠ some e)
    (hlt : e < s.nextEntry) (hc : s.hal.pending e ≠ none → c.osTimer ≠ none)
    (hn : cfg.gpioNum ≤ 2 ∨ 2 ^ 31 ≤ cfg.gpioNum)
    (hled : ∀ mode maps, cfg.verdict s.off = .ok (some (mode,maps)) →
      maps.pos ∈ s.leds ∨ s.leds.length < maxLedEntries ∧ a.led = true)
    (hrej : cfg.verdict s.off = .ok none → s.hal.pending e = none) :
    Allows (· = .nullPointer) (s.configureState e c cfg a >>= fun
      | none => pure (false,s.install i j e none)
      | some (c,s) => pure (true,s.install i j e (some c))) fun r => Inv r.2 := by
  refine (configureState_allows hn hled hc).bind fun r hr => ?_
  cases r with
  | none => exact h.install nofun he hlt fun hp => absurd (hrej hr) hp
  | some r =>
    obtain ⟨hgrown,hready,htimer⟩ := hr
    refine (h.grown hgrown).install (fun d hd => ?_) ?_ ?_ fun hp => ⟨_,rfl,htimer hp⟩
    · cases hd
      exact hready
    · rw [hgrown.eq]
      exact he
    · rw [hgrown.eq]
      exact hlt

lemma Inv.configSet (h : Inv s) (hg : Good s cfg a) :
    Allows (· = .nullPointer) (s.avalancheLedConfigSet cfg a) fun r => Inv r.2 := by
  rw [avalancheLedConfigSet]
  refine (getModule_allows cfg.name hg.inst a).bind fun (r,s1) hr => ?_
  obtain ⟨⟨modules,states,n,rfl⟩,hstates,hinst⟩ := hr
  have hinv : Inv { s with modules := modules, states := states, nextInst := n } := h.of_states hstates
  cases r with
  | none => exact hinv
  | some r =>
    obtain ⟨id,i⟩ := r
    dsimp only at hinst ⊢
    split
    · rw [entryFor]
      cases hentry : states i cfg.state with
      | some e =>
        obtain ⟨c,hc,hready⟩ := hinv.installed i cfg.state e hentry
        dsimp only at hc ⊢
        rw [hentry]
        dsimp only
        rw [hc]
        refine hinv.configure (.inl hentry) (hinv.fresh e (by simp [hc])) (fun hp => ?_) hg.gpioNum hg.led fun hrej => ?_
        · obtain ⟨d,hd,htimer⟩ := hinv.pending e hp
          cases hc.symm.trans hd
          exact htimer
        · obtain ⟨m,hm,nm,hnm,hname,hi⟩ := hinst id i rfl cfg.state e hentry
          exact hg.rejected hrej id m hm nm hnm hname i hi e (hstates i cfg.state e hentry)
      | none =>
        dsimp only
        rw [hentry]
        dsimp only
        split
        · have hnew : s.heap s.nextEntry = none := by
            by_contra hheap
            exact lt_irrefl _ (h.fresh _ hheap)
          have hidle : s.hal.pending s.nextEntry = none := by
            by_contra hp
            obtain ⟨c,hc,-⟩ := h.pending _ hp
            cases hnew.symm.trans hc
          have hinv2 : Inv { s with
              modules := modules
              states := states
              nextInst := n
              nextEntry := s.nextEntry+1
              hal.timerRunning := update s.hal.timerRunning s.nextEntry 0 } :=
            ⟨hinv.installed,hinv.inj,hinv.pending,fun e he => Nat.lt_succ_of_lt (hinv.fresh e he)⟩
          refine hinv2.configure (.inr fun i j he => ?_) (Nat.lt_succ_self _) (fun hp => absurd hidle hp)
            hg.gpioNum hg.led fun _ => hidle
          obtain ⟨c,hc,-⟩ := hinv.installed i j _ he
          cases hnew.symm.trans hc
        · exact hinv
    · exact hinv

lemma Inv.register (h : Inv s) {name : List Char} {k : ℕ} (hk : k < 2 ^ 31) :
    Allows (· = .nullPointer) (s.avalancheLedRegister name k a) fun r => Inv r.2 := by
  refine (getModule_allows name hk a).bind fun (r,s1) hr => ?_
  obtain ⟨⟨modules,states,n,rfl⟩,hstates,-⟩ := hr
  exact h.of_states hstates

lemma follow_allows {f : Cell → Hal} (hc : ∃ c, s.heap e = some c)
    (hf : ∀ c, s.heap e = some c → Inv { s with hal := f c }) :
    Allows (· ≠ .freed) (s.follow e f) Inv := by
  obtain ⟨c,hc⟩ := hc
  rw [Layer.follow,hc]
  dsimp only
  split
  · exact hf c hc
  · exact nofun

lemma Inv.action (h : Inv s) (handle : Option ℕ) (stateId : ℤ) :
    Allows (· ≠ .freed) (s.avalancheLedAction handle stateId) Inv := by
  unfold avalancheLedAction
  split
  · exact h
  next i =>
  split
  · exact h
  split
  · exact nofun
  next j _ =>
  split
  · exact h
  next e he =>
  obtain ⟨c,hc,⟨mode,hmode,htimer⟩,-⟩ := h.installed i j e he
  refine follow_allows ⟨c,hc⟩ fun _ _ => h.of_hal fun e' hp => ?_
  obtain hp | ⟨rfl,hreq⟩ := Hal.pending_action hp
  · exact .inl hp
  · refine .inr ⟨c,hc,htimer ?_⟩
    simpa [board,hc,hmode] using hreq

lemma Inv.expire (h : Inv s) (e : ℕ) : Allows (· ≠ .freed) (s.expire e) Inv := by
  rw [Layer.expire]
  split
  · exact h
  next hp =>
  obtain ⟨c,hc,htimer⟩ := h.pending e hp
  refine follow_allows ⟨c,hc⟩ fun d hd => h.of_hal fun e' hp' => ?_
  by_cases heq : e' = e
  · subst heq
    exact .inr ⟨c,hc,htimer⟩
  have hsame := Hal.pending_timerFunc (b := s.board) heq { s.hal with pending := update s.hal.pending e none }
  rw [← update_of_ne heq none s.hal.pending]
  split at hp'
  · rw [hsame.2] at hp'
    exact .inl hp'
  · rw [hsame.1] at hp'
    exact .inl hp'

lemma Inv.freeState (h : Inv s) (i j : ℕ) : Allows (· ≠ .freed) (s.freeState i j) Inv := by
  rw [Layer.freeState]
  split
  · exact h
  next e he =>
  obtain ⟨c,hc,-⟩ := h.installed i j e he
  rw [hc]
  have hinv : Inv (s.deleteTimer e c) := h.of_hal fun e' hp => .inl (pending_deleteTimer hp)
  refine hinv.install (fun d hd => nomatch hd) (.inl he) (h.fresh e (by simp [hc])) fun hp => absurd ?_ hp
  rw [deleteTimer]
  dsimp only
  split
  · exact update_self _ _ _
  next hnone =>
  by_contra hp
  obtain ⟨d,hd,htimer⟩ := h.pending e hp
  cases hc.symm.trans hd
  exact hnone (isSome_iff_ne_none.mpr htimer)

lemma Inv.freeAll (h : Inv s) : Allows (· ≠ .freed) s.freeAllStates Inv := by
  refine Allows.foldlM (fun s id h => ?_) _ h
  rw [freeModule]
  split
  · exact h
  next m _ =>
  refine (Allows.foldlM (fun s k h => ?_) _ h).bind fun s h => ?_
  · split
    · exact h
    · next i _ => exact Allows.foldlM (fun s j h => h.freeState i j) _ h
  · split
    · exact nofun
    · exact h.of_states fun _ _ _ he => he

def start (off : BitVec 64) : Layer where
  off := off
  modules _ := none
  states _ _ := none
  nextInst := 0
  heap _ := none
  nextEntry := 0
  leds := []
  hal := .idle

/-- The runs in which every configuration is one that the layer copes with. -/
inductive Run : Layer → Prop
  | start (off : BitVec 64) : Run (start off)
  | configSet {s s' : Layer} {cfg : LedConfig} {a : Alloc} {r : Bool} (h : Run s) (hg : Good s cfg a)
    (hc : s.avalancheLedConfigSet cfg a = .ok (r,s')) : Run s'
  | register {s s' : Layer} {name : List Char} {k : ℕ} {a : Alloc} {r : Option ℕ} (h : Run s) (hk : k < 2 ^ 31)
    (hr : s.avalancheLedRegister name k a = .ok (r,s')) : Run s'
  | action {s s' : Layer} {handle : Option ℕ} {stateId : ℤ} (h : Run s)
    (ha : s.avalancheLedAction handle stateId = .ok s') : Run s'
  | expire {s s' : Layer} {e : ℕ} (h : Run s) (he : s.expire e = .ok s') : Run s'
  | freeAll {s s' : Layer} (h : Run s) (hf : s.freeAllStates = .ok s') : Run s'

lemma inv_of_run (h : Run s) : Inv s := by
  induction h with
  | start off => exact ⟨nofun,nofun,fun e he => absurd rfl he,fun e he => absurd rfl he⟩
  | configSet _ hg hc ih => exact (ih.configSet hg).of_ok hc
  | register _ hk hr ih => exact (ih.register hk).of_ok hr
  | action _ ha ih => exact (ih.action _ _).of_ok ha
  | expire _ he ih => exact (ih.expire _).of_ok he
  | freeAll _ hf ih => exact ih.freeAll.of_ok hf

/-- Timers are pending for entries that are allocated, and so is every entry that an instance points to;
it has a handler and an LED. No index is then outside its array, and no handle or timer leads to freed
memory. -/
theorem safe_of_run (h : Run s) :
    (∀ e, s.hal.pending e ≠ none → s.heap e ≠ none) ∧
    (∀ i j e, s.states i j = some e →
      ∃ c, s.heap e = some c ∧ c.handler ≠ none ∧ ∃ l, c.led = some l ∧ l < s.leds.length) ∧
    (∀ cfg a, Good s cfg a → s.avalancheLedConfigSet cfg a ≠ .error .outOfBounds) ∧
    (∀ handle stateId, s.avalancheLedAction handle stateId ≠ .error .freed) ∧
    ∀ e, s.expire e ≠ .error .freed := by
  have hinv := inv_of_run h
  refine ⟨fun e hp => ?_,fun i j e he => ?_,fun cfg a hg heq => ?_,fun handle stateId heq => ?_,fun e heq => ?_⟩
  · obtain ⟨c,hc,-⟩ := hinv.pending e hp
    simp [hc]
  · obtain ⟨c,hc,⟨mode,hmode,-⟩,hled⟩ := hinv.installed i j e he
    exact ⟨c,hc,by simp [hmode],hled⟩
  · have hset := hinv.configSet hg
    rw [heq] at hset
    cases hset
  · have hact := hinv.action handle stateId
    rw [heq] at hact
    exact hact rfl
  · have hexp := hinv.expire e
    rw [heq] at hexp
    exact hexp rfl

def flashConfig : LedConfig := ⟨['d','s','l'],0,1,#v[3,0],#v[4,0],1,500,500⟩

def allOk : Alloc := ⟨true,true,true,true,true,true⟩

theorem safe_flashConfig :
    ∃ s, Run s ∧ s.states 0 1 = some 0 ∧
      ∃ c, s.heap 0 = some c ∧ c.handler ≠ none ∧ ∃ l, c.led = some l ∧ l < s.leds.length := by
  have hgood : Good (start 0) flashConfig allOk :=
    ⟨by decide,.inl (by decide),fun _ _ _ => .inr ⟨by decide,rfl⟩,fun _ _ _ hm => nomatch hm⟩
  have hrun := Run.configSet (.start 0) hgood rfl
  exact ⟨_,hrun,rfl,(safe_of_run hrun).2.1 0 1 0 rfl⟩

def reconfigured : Except Fault Layer := do
  let (_,s) ← (start 0).avalancheLedConfigSet flashConfig allOk
  let (handle,s) ← s.avalancheLedRegister flashConfig.name 0 allOk
  let s ← s.avalancheLedAction handle 1
  let (_,s) ← s.avalancheLedConfigSet { flashConfig with gpio := #v[40,0] } allOk
  pure s

/-- The timer of a freed entry expires. Without memory for the LED, an entry without one is installed. -/
theorem expire_freed :
    (∃ s, reconfigured = .ok s ∧ s.hal.pending 0 = some 500 ∧ s.heap 0 = none ∧
      s.expire 0 = .error .freed) ∧
      ∃ s, (start 0).avalancheLedConfigSet flashConfig { allOk with led := false } = .ok (true,s) ∧
        s.states 0 1 = some 0 ∧ (s.heap 0).map Cell.led = some none :=
  ⟨⟨_,rfl,rfl,rfl,rfl⟩,_,rfl,rfl,rfl⟩

end Layer

end DslG624t.Led
