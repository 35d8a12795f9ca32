import DslG624t.Led.Config

/-!
# The file with the LED configuration

`read_config` of `ledcfg.c` and the states that a file describes.
-/

namespace DslG624t.Led.Ledcfg

open List Option

inductive Keyword
  | module
  | inst
  | state
  | gpio
  | mode
  | param1
  | param2
  | param
  deriving DecidableEq

def kwArr : List (String × Keyword) :=
  [("module",.module),("instance",.inst),("state",.state),("gpio",.gpio),("mode",.mode),
    ("param1",.param1),("param2",.param2),("param",.param)]

def maxKeywords : ℕ := 7

def pieces (full : ℕ → Bool) (buffer : List Char) : List Char → List (List Char)
  | [] => if buffer = [] then [] else [buffer]
  | c :: cs =>
    let buffer := buffer ++ [c]
    if c = '\n' ∨ full buffer.length then buffer :: pieces full [] cs else pieces full buffer cs

def fgets (file : List Char) : List (List Char) := pieces (fun n => n == 79) [] file

def lines (file : List Char) : List (List Char) := pieces (fun _ => false) [] file

def isSpace (c : Char) : Bool := c = ' ' || (9 ≤ c.toNat && c.toNat ≤ 13)

def words (buffer : List Char) : Option (List Char × List Char) :=
  let text := buffer.takeWhile fun c => c ≠ '\x00' ∧ c ≠ '\n' ∧ c ≠ '#'
  let token := text.dropWhile fun c => c = ' ' ∨ c = '\t'
  let line := token.dropWhile fun c => c ≠ ' ' ∧ c ≠ '\t' ∧ c ≠ '='
  if line = [] then none
  else
    some (token.takeWhile fun c => c ≠ ' ' ∧ c ≠ '\t' ∧ c ≠ '=',
      (line.tail.dropWhile fun c => c = ' ' ∨ c = '\t' ∨ c = '=').rdropWhile isSpace)

def keyword (n : ℕ) (token : List Char) : Option Keyword :=
  ((kwArr.take n).find? fun k => sameName token k.1.toList).map Prod.snd

def command (n : ℕ) (buffer : List Char) : Option (Keyword × List Char) :=
  (words buffer).bind fun w => (keyword n w.1).map fun k => (k,w.2)

def commands (file : List Char) : List (Keyword × List Char) := (lines file).filterMap (command kwArr.length)

def seen (file : List Char) : List (Keyword × List Char) := (fgets file).filterMap (command maxKeywords)

/-- As an `unsigned int`. -/
def atoi (line : List Char) : ℕ :=
  let line := line.dropWhile isSpace
  let digits (l : List Char) : ℕ := (l.takeWhile Char.isDigit).foldl (fun n c => 10*n+(c.toNat-48)) 0
  match line with
  | '-' :: l => (2 ^ 32-min (digits l) (2 ^ 31)) % 2 ^ 32
  | '+' :: l => min (digits l) (2 ^ 31-1)
  | l => min (digits l) (2 ^ 31-1)

structure StateDesc where
  name : List Char
  inst : ℕ
  state : ℕ
  pins : List (ℕ × ℕ)
  param1 : ℕ
  param2 : ℕ

structure Described where
  name : List Char := []
  inst : ℕ := 0
  opened : List StateDesc := []

namespace Described

def onRecent (d : Described) (f : StateDesc → Option StateDesc) : Option Described :=
  match d.opened with
  | [] => some d
  | c :: cs => (f c).map fun c => { d with opened := c :: cs }

/-- The effect of a line; `none` if its value is not valid. -/
def line (d : Described) : Keyword × List Char → Option Described
  | (.module,v) => some { d with name := v, inst := 0 }
  | (.inst,v) => if atoi v < maxModuleInstances then some { d with inst := atoi v } else none
  | (.state,v) =>
    if atoi v < maxStateEntries then
      some { d with opened := ⟨d.name,d.inst,atoi v,[],0,0⟩ :: d.opened }
    else none
  | (.gpio,v) =>
    if atoi v < 64 then
      d.onRecent fun c => if c.pins.length < 2 then some { c with pins := c.pins ++ [(atoi v,0)] } else none
    else none
  | (.mode,v) =>
    if atoi v < 5 then
      d.onRecent fun c =>
        some { c with pins := c.pins.modify (c.pins.length-1) fun p => (p.1,atoi v) }
    else none
  | (.param1,v) => d.onRecent fun c => some { c with param1 := atoi v }
  | (.param2,v) => d.onRecent fun c => some { c with param2 := atoi v }
  | (.param,v) => d.onRecent fun c => some { c with param1 := atoi v, param2 := atoi v }

end Described

def StateDesc.config (c : StateDesc) : LedConfig where
  name := c.name
  inst := c.inst
  state := c.state
  gpio := .ofFn fun i => (c.pins[i.val]?.getD (0,0)).1
  mode := .ofFn fun i => (c.pins[i.val]?.getD (0,0)).2
  gpioNum := c.pins.length
  param1 := c.param1
  param2 := c.param2

def describe (d : Described) (cmds : List (Keyword × List Char)) : Option (List LedConfig) :=
  (cmds.foldlM Described.line d).map fun d => d.opened.map StateDesc.config

def maxStates : ℕ := maxModuleEntries*maxStateEntries

/-- `opened` is `ptrArr` from its end on, so that `pTemp` is its first one. -/
structure Globals where
  curModule : List Char := []
  curInstance : ℕ := 0
  opened : List LedConfig := []

/-- A write through `pTemp`; `none` if the handler fails. -/
def writeTemp (g : Globals) (f : LedConfig → Option LedConfig) : Except Fault (Bool × Globals) :=
  match g.opened with
  | [] => .error .nullPointer
  | c :: cs =>
    match f c with
    | none => .ok (false,g)
    | some c => .ok (true,{ g with opened := c :: cs })

def readMod (g : Globals) (line : List Char) : Except Fault (Bool × Globals) :=
  .ok (true,{ g with curModule := line, curInstance := 0 })

def readInstance (g : Globals) (line : List Char) : Except Fault (Bool × Globals) :=
  if atoi line < maxModuleInstances then .ok (true,{ g with curInstance := atoi line }) else .ok (false,g)

def readState (g : Globals) (line : List Char) : Except Fault (Bool × Globals) :=
  if maxStates ≤ g.opened.length then .error .outOfBounds
  else
    let c : LedConfig := ⟨g.curModule,g.curInstance,0,.replicate 2 0,.replicate 2 0,0,0,0⟩
    if atoi line < maxStateEntries then
      .ok (true,{ g with opened := { c with state := atoi line } :: g.opened })
    else .ok (false,{ g with opened := c :: g.opened })

def readGpio (g : Globals) (line : List Char) : Except Fault (Bool × Globals) :=
  if atoi line < 64 then
    writeTemp g fun c =>
      if c.gpioNum < 2 then
        some { c with gpio := c.gpio.setIfInBounds c.gpioNum (atoi line), gpioNum := c.gpioNum+1 }
      else none
  else .ok (false,g)

def readMode (g : Globals) (line : List Char) : Except Fault (Bool × Globals) :=
  if 5 ≤ atoi line then .ok (false,g)
  else
    writeTemp g fun c =>
      some (if 1 ≤ c.gpioNum then { c with mode := c.mode.setIfInBounds (c.gpioNum-1) (atoi line) } else c)

def readParam1 (g : Globals) (line : List Char) : Except Fault (Bool × Globals) :=
  writeTemp g fun c => some { c with param1 := atoi line }

def readParam2 (g : Globals) (line : List Char) : Except Fault (Bool × Globals) :=
  writeTemp g fun c => some { c with param2 := atoi line }

def readParam (g : Globals) (line : List Char) : Except Fault (Bool × Globals) :=
  writeTemp g fun c => some { c with param1 := atoi line, param2 := atoi line }

def handler (g : Globals) : Keyword × List Char → Except Fault (Bool × Globals)
  | (.module,line) => readMod g line
  | (.inst,line) => readInstance g line
  | (.state,line) => readState g line
  | (.gpio,line) => readGpio g line
  | (.mode,line) => readMode g line
  | (.param1,line) => readParam1 g line
  | (.param2,line) => readParam2 g line
  | (.param,line) => readParam g line

def dispatch (g : Globals) : List (Keyword × List Char) → Except Fault (Bool × Globals)
  | [] => .ok (true,g)
  | c :: cs =>
    (handler g c).bind fun
      | (false,g) => .ok (false,g)
      | (true,g) => dispatch g cs

def readConfig (file : List Char) : Except Fault (Bool × Globals) := dispatch {} (seen file)

variable {g : Globals} {d : Described} {c : Keyword × List Char}

structure Matches (g : Globals) (d : Described) : Prop where
  name : g.curModule = d.name
  inst : g.curInstance = d.inst
  opened : g.opened = d.opened.map StateDesc.config
  pins : ∀ c ∈ d.opened, c.pins.length ≤ 2

/-- The line finds a state to write to, or a place for a new one. -/
def Safe (d : Described) : Keyword × List Char → Prop
  | (.module,_) | (.inst,_) => True
  | (.state,_) => d.opened.length < maxStates
  | (.gpio,v) => atoi v < 64 → d.opened ≠ []
  | (.mode,v) => atoi v < 5 → d.opened ≠ []
  | (.param1,_) | (.param2,_) | (.param,_) => d.opened ≠ []

/-- So do all lines, up to the first one that is rejected. -/
def SafeFrom (d : Described) : List (Keyword × List Char) → Prop
  | [] => True
  | c :: cs => Safe d c ∧ ∀ d', d.line c = some d' → SafeFrom d' cs

/-- A handler does what the line says, or stops where it is not safe. -/
def Follows (safe : Prop) (next : Option Described) (x : Except Fault (Bool × Globals)) : Prop :=
  (safe ∧ ∃ r g, x = .ok (r,g) ∧ (∀ d ∈ next, r = true ∧ Matches g d) ∧ (next = none → r = false)) ∨
    ¬ safe ∧ ∃ f, x = .error f

variable {safe : Prop}

lemma follows_done (hs : safe) (h : Matches g d) : Follows safe (some d) (.ok (true,g)) := by
  refine .inl ⟨hs,true,g,rfl,fun d' hd => ?_,nofun⟩
  cases hd
  exact ⟨rfl,h⟩

lemma follows_failed (hs : safe) (g : Globals) : Follows safe none (.ok (false,g)) :=
  .inl ⟨hs,false,g,rfl,nofun,fun _ => rfl⟩

lemma Follows.of_iff {p : Prop} {next : Option Described} {x : Except Fault (Bool × Globals)}
    (h : Follows p next x) (hp : p ↔ safe) : Follows safe next x := by
  unfold Follows at h ⊢
  rwa [hp] at h

lemma Matches.writeTemp (h : Matches g d) {f : LedConfig → Option LedConfig} {k : StateDesc → Option StateDesc}
    (hf : ∀ c, c.pins.length ≤ 2 → f c.config = (k c).map StateDesc.config ∧
      ∀ c' ∈ k c, c'.pins.length ≤ 2) :
    Follows (d.opened ≠ []) (d.onRecent k) (writeTemp g f) := by
  rw [Ledcfg.writeTemp,Described.onRecent,h.opened]
  have hpins := h.pins
  cases hd : d.opened with
  | nil => exact .inr ⟨not_not_intro rfl,_,rfl⟩
  | cons c cs =>
    rw [hd] at hpins
    obtain ⟨hconfig,hlen⟩ := hf c (hpins c mem_cons_self)
    rw [map_cons]
    dsimp only
    rw [hconfig]
    cases hk : k c with
    | none => exact follows_failed (cons_ne_nil c cs) g
    | some c' =>
      refine follows_done (cons_ne_nil c cs) ⟨h.name,h.inst,rfl,fun x hx => ?_⟩
      obtain rfl | hx := mem_cons.mp hx
      · exact hlen x hk
      · exact hpins x (mem_cons_of_mem c hx)

lemma Matches.writeParam (h : Matches g d) {f : LedConfig → LedConfig} {k : StateDesc → StateDesc}
    (hf : ∀ c, f c.config = (k c).config ∧ (k c).pins = c.pins) :
    Follows (d.opened ≠ []) (d.onRecent fun c => some (k c))
      (Ledcfg.writeTemp g fun c => some (f c)) := by
  refine h.writeTemp fun c hc => ⟨congrArg some (hf c).1,fun c' hc' => ?_⟩
  cases hc'
  rwa [(hf c).2]

lemma config_gpio {c : StateDesc} (hc : c.pins.length < 2) (i : ℕ) :
    ({ c.config with
        gpio := c.config.gpio.setIfInBounds c.pins.length i
        gpioNum := c.pins.length+1 } : LedConfig) =
      StateDesc.config { c with pins := c.pins ++ [(i,0)] } := by
  obtain ⟨name,inst,state,pins,p1,p2⟩ := c
  match pins, hc with
  | [], _ | [p], _ => rfl

lemma config_mode {c : StateDesc} (hc : c.pins.length ≤ 2) (i : ℕ) :
    (if 1 ≤ c.pins.length then
      ({ c.config with mode := c.config.mode.setIfInBounds (c.pins.length-1) i } : LedConfig)
      else c.config) =
      StateDesc.config { c with pins := c.pins.modify (c.pins.length-1) fun p => (p.1,i) } := by
  obtain ⟨name,inst,state,pins,p1,p2⟩ := c
  match pins, hc with
  | [], _ | [p], _ | [p,q], _ => rfl

lemma Matches.handler (h : Matches g d) (c : Keyword × List Char) :
    Follows (Safe d c) (d.line c) (handler g c) := by
  obtain ⟨kw,v⟩ := c
  cases kw with
  | module => exact follows_done trivial ⟨rfl,rfl,h.opened,h.pins⟩
  | inst =>
    simp only [Ledcfg.handler,readInstance,Described.line]
    split
    · exact follows_done trivial ⟨h.name,rfl,h.opened,h.pins⟩
    · exact follows_failed trivial g
  | state =>
    simp only [Ledcfg.handler,readState,Described.line,h.opened,length_map]
    by_cases hlt : d.opened.length < maxStates
    · rw [if_neg (not_le.mpr hlt)]
      split
      · refine follows_done hlt ⟨h.name,h.inst,?_,fun x hx => ?_⟩
        · rw [h.name,h.inst]
          rfl
        · obtain rfl | hx := mem_cons.mp hx
          · exact Nat.zero_le 2
          · exact h.pins x hx
      · exact follows_failed hlt _
    · rw [if_pos (not_lt.mp hlt)]
      exact .inr ⟨hlt,_,rfl⟩
  | gpio =>
    simp only [Ledcfg.handler,readGpio,Described.line]
    split
    · next hv =>
      refine Follows.of_iff (h.writeTemp fun c hc => ?_) ⟨fun hne _ => hne,fun hne => hne hv⟩
      by_cases hlt : c.pins.length < 2
      · rw [if_pos hlt,if_pos (show c.config.gpioNum < 2 from hlt)]
        refine ⟨congrArg some (config_gpio hlt (atoi v)),fun c' hc' => ?_⟩
        cases hc'
        simp only [length_append,length_singleton]
        omega
      · rw [if_neg hlt,if_neg (show ¬ c.config.gpioNum < 2 from hlt)]
        exact ⟨rfl,nofun⟩
    · next hv => exact follows_failed (fun hlt => absurd hlt hv) g
  | mode =>
    simp only [Ledcfg.handler,readMode,Described.line]
    by_cases hv : atoi v < 5
    · rw [if_neg (not_le.mpr hv),if_pos hv]
      refine Follows.of_iff (h.writeTemp fun c hc => ?_) ⟨fun hne _ => hne,fun hne => hne hv⟩
      refine ⟨congrArg some (config_mode hc (atoi v)),fun c' hc' => ?_⟩
      cases hc'
      rwa [length_modify]
    · rw [if_pos (not_lt.mp hv),if_neg hv]
      exact follows_failed (fun hlt => absurd hlt hv) g
  | param1 =>
    simp only [Ledcfg.handler,readParam1,Described.line]
    exact h.writeParam fun _ => ⟨rfl,rfl⟩
  | param2 =>
    simp only [Ledcfg.handler,readParam2,Described.line]
    exact h.writeParam fun _ => ⟨rfl,rfl⟩
  | param =>
    simp only [Ledcfg.handler,readParam,Described.line]
    exact h.writeParam fun _ => ⟨rfl,rfl⟩

lemma Matches.dispatch (h : Matches g d) (cmds : List (Keyword × List Char)) :
    (SafeFrom d cmds ∧ ∃ r g', dispatch g cmds = .ok (r,g') ∧
      (if r then some g'.opened else none) = describe d cmds) ∨
      ¬ SafeFrom d cmds ∧ ∃ f, dispatch g cmds = .error f := by
  induction cmds generalizing g d with
  | nil => exact .inl ⟨trivial,true,g,rfl,congrArg some h.opened⟩
  | cons c cs ih =>
    rw [Ledcfg.dispatch,SafeFrom,describe,foldlM_cons]
    obtain ⟨hsafe,r,g',hok,hnext,hnone⟩ | ⟨hnot,f,herr⟩ := h.handler c
    · rw [hok]
      cases hline : d.line c with
      | none =>
        rw [hnone hline]
        exact .inl ⟨⟨hsafe,nofun⟩,false,g',rfl,rfl⟩
      | some d' =>
        obtain ⟨rfl,hmatch⟩ := hnext d' hline
        have hall : (Safe d c ∧ ∀ d'', some d' = some d'' → SafeFrom d'' cs) ↔ SafeFrom d' cs :=
          ⟨fun hd => hd.2 d' rfl,fun hd => ⟨hsafe,fun d'' heq => some.inj heq ▸ hd⟩⟩
        rw [hall]
        exact ih hmatch
    · rw [herr]
      exact .inr ⟨fun hd => hnot hd.1,f,rfl⟩

def Right (file : List Char) : Prop :=
  ∃ r g, readConfig file = .ok (r,g) ∧ (if r then some g.opened else none) = describe {} (commands file)

lemma right_iff (file : List Char) :
    Right file ↔ SafeFrom {} (seen file) ∧
      describe {} (seen file) = describe {} (commands file) := by
  have hstart : Matches {} {} := ⟨rfl,rfl,rfl,nofun⟩
  obtain ⟨hsafe,r,g,hok,heq⟩ | ⟨hnot,f,herr⟩ := hstart.dispatch (seen file)
  · rw [and_iff_right hsafe,← heq]
    constructor
    · rintro ⟨r',g',hok',heq'⟩
      cases hok.symm.trans hok'
      exact heq'
    · exact fun heq' => ⟨r,g,hok,heq'⟩
  · refine iff_of_false ?_ fun hd => hnot hd.1
    rintro ⟨r,g,hok,-⟩
    cases herr.symm.trans hok

lemma exists_le_length (buffer cs : List Char) (h : buffer ≠ []) :
    ∃ l ∈ pieces (fun _ => false) buffer cs, buffer.length ≤ l.length := by
  induction cs generalizing buffer with
  | nil =>
    rw [pieces,if_neg h]
    exact ⟨buffer,mem_cons_self,le_refl _⟩
  | cons c cs ih =>
    have hlen : buffer.length ≤ (buffer ++ [c]).length := by simp
    rw [pieces]
    split
    · exact ⟨_,mem_cons_self,hlen⟩
    · obtain ⟨l,hl,hle⟩ := ih (buffer ++ [c]) (by simp)
      exact ⟨l,hl,le_trans hlen hle⟩

lemma pieces_eq {buffer cs : List Char} (h : ∀ l ∈ pieces (fun _ => false) buffer cs, l.length < 79) :
    pieces (fun n => n == 79) buffer cs = pieces (fun _ => false) buffer cs := by
  induction cs generalizing buffer with
  | nil => rfl
  | cons c cs ih =>
    rw [pieces] at h
    rw [pieces,pieces]
    by_cases hc : c = '\n'
    · rw [if_pos (.inl hc)] at h
      rw [if_pos (.inl hc),if_pos (.inl hc),ih fun l hl => h l (mem_cons_of_mem _ hl)]
    have hnot : ¬ (c = '\n' ∨ false = true) := by simp [hc]
    rw [if_neg hnot] at h ⊢
    obtain ⟨l,hl,hle⟩ := exists_le_length (buffer ++ [c]) cs (by simp)
    have hlt := lt_of_le_of_lt hle (h l hl)
    have hfull : ¬ (c = '\n' ∨ ((buffer ++ [c]).length == 79) = true) := by
      rw [beq_iff_eq]
      exact not_or_intro hc (ne_of_lt hlt)
    rw [if_neg hfull,ih h]

lemma keyword_eq {token : List Char} (h : keyword kwArr.length token ≠ some .param) :
    keyword maxKeywords token = keyword kwArr.length token := by
  have hall : kwArr.take kwArr.length = kwArr.take maxKeywords ++ [("param",.param)] := rfl
  rw [keyword,hall,find?_append] at h
  rw [keyword,keyword,hall,find?_append]
  cases hfound : (kwArr.take maxKeywords).find? fun k => sameName token k.1.toList with
  | some k => rfl
  | none =>
    rw [hfound,none_or,find?_singleton] at h
    rw [none_or,find?_singleton]
    split at h
    · exact absurd rfl h
    · next hkey => rw [if_neg hkey]

lemma command_eq {l : List Char} (h : ∀ v, command kwArr.length l ≠ some (.param,v)) :
    command maxKeywords l = command kwArr.length l := by
  unfold command at h ⊢
  cases hw : words l with
  | none => rfl
  | some w =>
    rw [hw] at h
    have hkey : keyword kwArr.length w.1 ≠ some .param := by
      intro heq
      apply h w.2
      rw [bind_some,heq,map_some]
    rw [bind_some,bind_some,keyword_eq hkey]

lemma seen_eq {file : List Char} (hshort : ∀ l ∈ lines file, l.length < 79)
    (hparam : ∀ v, (.param,v) ∉ commands file) : seen file = commands file := by
  rw [seen,fgets,pieces_eq hshort]
  refine filterMap_congr fun l hl => command_eq fun v hv => hparam v ?_
  exact mem_filterMap.mpr ⟨l,hl,hv⟩

/-- The reader is right about the files whose lines it can follow and that describe the same with what
it sees of them; these are the files it can follow where all lines are short and known to it. -/
theorem readConfig_right (file : List Char) :
    (Right file ↔ SafeFrom {} (seen file) ∧ describe {} (seen file) = describe {} (commands file)) ∧
      ((∀ l ∈ lines file, l.length < 79) → (∀ v, (.param,v) ∉ commands file) →
        (Right file ↔ SafeFrom {} (commands file))) := by
  refine ⟨right_iff file,fun hshort hparam => ?_⟩
  rw [right_iff,seen_eq hshort hparam]
  exact and_iff_left rfl

theorem readConfig_right_pin : Right "state = 2 # sync\ngpio = 33\n".toList := by
  have hcmds : commands "state = 2 # sync\ngpio = 33\n".toList = [(.state,['2']),(.gpio,['3','3'])] := by
    decide +kernel
  refine ((readConfig_right _).2 (by decide +kernel) fun v hv => ?_).mpr ?_
  · rw [hcmds] at hv
    simp at hv
  · rw [hcmds]
    refine ⟨show 0 < maxStates by decide,fun d hd => ⟨fun _ => ?_,fun _ _ => trivial⟩⟩
    cases some.inj hd
    exact cons_ne_nil _ _

/-- The eighth keyword is not found; and a pin before the first state is written through a null pointer. -/
theorem readConfig_param :
    ¬ Right "state = 2\nparam = 200\n".toList ∧
      readConfig "gpio = 33\n".toList = .error .nullPointer := by
  refine ⟨fun h => ?_,by rfl⟩
  have heq := congrArg (Option.map (map LedConfig.param1)) ((right_iff _).mp h).2
  revert heq
  decide +kernel

end DslG624t.Led.Ledcfg
