import DslG624t.Lib.CString
import DslG624t.Lib.Ring
import DslG624t.Lib.Word

/-!
# The event buffer of the keypad

`keypad_drv.c`: key events go into a ring of 256 slots, and `tikpad_read` copies them to the user.
-/

namespace DslG624t.Keypad

open CString List

def bufferSize : ℕ := 256

structure KeyEvent where
  row : BitVec 32
  column : BitVec 32
  keyPressTime : BitVec 32
  deriving DecidableEq

def KeyEvent.bytes (e : KeyEvent) : Bytes :=
  Endian.little.encode e.row.toNat ++ Endian.little.encode e.column.toNat ++
    Endian.little.encode e.keyPressTime.toNat

def sizeofKeyEvent : ℕ := 12

/-- Where a call of `tikpad_read` is: before the test for an empty buffer, behind it, with
`write_index` loaded, between the two copies, and before the position is moved. -/
inductive Phase
  | idle
  | called (count : ℕ) (buf : Bytes)
  | ready (count : ℕ) (buf : Bytes)
  | loaded (count writeIndex : ℕ) (buf : Bytes)
  | half (reqEvents numEvents : ℕ) (buf : Bytes)
  | copied (reqEvents : ℕ) (buf : Bytes)
  deriving DecidableEq

/-- The device and one open file. `added` and `returned` record the events since the file was
opened and the bytes that its reads have returned. -/
structure Kpad where
  buffer : ℕ → KeyEvent
  writeIndex : ℕ
  fPos : ℕ
  phase : Phase
  added : List KeyEvent
  returned : Bytes

def tikpadOpen (buffer : ℕ → KeyEvent) (writeIndex : ℕ) : Kpad :=
  ⟨buffer,writeIndex,writeIndex,.idle,[],[]⟩

def keyEvent (keyPressed keyPressTime : BitVec 32) : KeyEvent :=
  ⟨keyPressed &&& 0xff,(keyPressed &&& 0xff00) >>> 8,keyPressTime⟩

def kpadAddEvent (keyPressed keyPressTime : BitVec 32) (s : Kpad) : Kpad :=
  { s with
    buffer := Function.update s.buffer s.writeIndex (keyEvent keyPressed keyPressTime)
    writeIndex := (s.writeIndex+1) % bufferSize
    added := s.added ++ [keyEvent keyPressed keyPressTime] }

def eventBytes (buffer : ℕ → KeyEvent) (start num : ℕ) : Bytes :=
  ((List.range num).map fun i => buffer (start+i)).flatMap KeyEvent.bytes

def copyToUser (buf src : Bytes) : Bytes := src ++ buf.drop src.length

def atMost (reqEvents maxEvents : ℕ) : ℕ :=
  if reqEvents > maxEvents then maxEvents else reqEvents

/-- The first copy. -/
def firstCopy (buffer : ℕ → KeyEvent) (readIndex count writeIndex : ℕ) (buf : Bytes) : Phase :=
  let reqEvents := count / sizeofKeyEvent
  if writeIndex > readIndex then
    let reqEvents := atMost reqEvents (writeIndex-readIndex)
    .copied reqEvents (copyToUser buf (eventBytes buffer readIndex reqEvents))
  else
    let reqEvents := atMost reqEvents (bufferSize-readIndex+writeIndex)
    let numEvents :=
      if bufferSize-readIndex > reqEvents then reqEvents else bufferSize-readIndex
    let buf := copyToUser buf (eventBytes buffer readIndex numEvents)
    if reqEvents > numEvents then .half reqEvents numEvents buf else .copied reqEvents buf

def secondCopy (buffer : ℕ → KeyEvent) (reqEvents numEvents : ℕ) (buf : Bytes) : Phase :=
  .copied reqEvents (copyToUser buf (eventBytes buffer 0 (reqEvents-numEvents)))

def Kpad.unread (s : Kpad) : ℕ := s.added.length-s.returned.length / sizeofKeyEvent

/-- One step of the driver. Events are only added while there is room. `ok` is asked about the
position, `write_index` and the size of each read when it loads `write_index`. -/
inductive Step (ok : ℕ → ℕ → ℕ → Prop) : Kpad → Kpad → Prop
  | add (s : Kpad) (keyPressed keyPressTime : BitVec 32) : s.unread+1 < bufferSize →
    Step ok s (kpadAddEvent keyPressed keyPressTime s)
  | call (s : Kpad) (count : ℕ) (buf : Bytes) : s.phase = .idle → buf.length = count →
    Step ok s { s with phase := .called count buf }
  -- `-EAGAIN` or `-ERESTARTSYS`
  | empty (s : Kpad) (count : ℕ) (buf : Bytes) : s.phase = .called count buf →
    s.fPos = s.writeIndex → Step ok s { s with phase := .idle }
  | ready (s : Kpad) (count : ℕ) (buf : Bytes) : s.phase = .called count buf →
    s.fPos ≠ s.writeIndex → Step ok s { s with phase := .ready count buf }
  | load (s : Kpad) (count : ℕ) (buf : Bytes) : s.phase = .ready count buf →
    ok s.fPos s.writeIndex count →
    Step ok s { s with phase := .loaded count s.writeIndex buf }
  | copy (s : Kpad) (count writeIndex : ℕ) (buf : Bytes) :
    s.phase = .loaded count writeIndex buf →
    Step ok s { s with phase := firstCopy s.buffer s.fPos count writeIndex buf }
  | copyRest (s : Kpad) (reqEvents numEvents : ℕ) (buf : Bytes) :
    s.phase = .half reqEvents numEvents buf →
    Step ok s { s with phase := secondCopy s.buffer reqEvents numEvents buf }
  -- `-EFAULT`, from either copy
  | fault (s : Kpad) : (∃ count writeIndex buf, s.phase = .loaded count writeIndex buf) ∨
    (∃ reqEvents numEvents buf, s.phase = .half reqEvents numEvents buf) →
    Step ok s { s with phase := .idle }
  | finish (s : Kpad) (reqEvents : ℕ) (buf : Bytes) : s.phase = .copied reqEvents buf →
    Step ok s { s with
      phase := .idle
      fPos := (s.fPos+reqEvents) % bufferSize
      returned := s.returned ++ buf.take (reqEvents*sizeofKeyEvent) }

inductive Reached (ok : ℕ → ℕ → ℕ → Prop) : Kpad → Prop
  | opened (buffer : ℕ → KeyEvent) (writeIndex : ℕ) : writeIndex < bufferSize →
    Reached ok (tikpadOpen buffer writeIndex)
  | step {s s' : Kpad} : Reached ok s → Step ok s s' → Reached ok s'

/-- A whole call with no event in between, if there is something to read. -/
def tikpadRead (count : ℕ) (buf : Bytes) (s : Kpad) : Kpad :=
  let copies := match firstCopy s.buffer s.fPos count s.writeIndex buf with
    | .half reqEvents numEvents buf => secondCopy s.buffer reqEvents numEvents buf
    | phase => phase
  match copies with
  | .copied reqEvents buf =>
    { s with
      fPos := (s.fPos+reqEvents) % bufferSize
      returned := s.returned ++ buf.take (reqEvents*sizeofKeyEvent) }
  | _ => s

variable {ok : ℕ → ℕ → ℕ → Prop}

lemma Reached.tikpadRead {s : Kpad} (h : Reached ok s) (hidle : s.phase = .idle)
    (hne : s.fPos ≠ s.writeIndex) {count : ℕ} (hok : ok s.fPos s.writeIndex count) {buf : Bytes}
    (hbuf : buf.length = count) :
    Reached ok (tikpadRead count buf s) := by
  obtain ⟨buffer,writeIndex,fPos,phase,added,returned⟩ := s
  obtain rfl : phase = .idle := hidle
  have hcalled := h.step (.call _ count buf rfl hbuf)
  have hready := hcalled.step (.ready _ count buf rfl hne)
  have hloaded := hready.step (.load _ count buf rfl hok)
  have hcopied := hloaded.step (.copy _ count writeIndex buf rfl)
  unfold Keypad.tikpadRead
  cases hphase : firstCopy buffer fPos count writeIndex buf with
  | half reqEvents numEvents buf' =>
    exact (hcopied.step (.copyRest _ reqEvents numEvents buf' hphase)).step (.finish _ _ _ rfl)
  | copied reqEvents buf' => exact hcopied.step (.finish _ reqEvents buf' hphase)
  | idle => exact h
  | called count buf => exact h
  | ready count buf => exact h
  | loaded count writeIndex buf => exact h

/-- The reads have returned the first events, in order, and all of them if the file is at the
end. -/
structure Fifo (s : Kpad) : Prop where
  order : ∃ n, s.returned = (s.added.take n).flatMap KeyEvent.bytes
  all : s.fPos = s.writeIndex → s.returned = s.added.flatMap KeyEvent.bytes

def OneCopy (readIndex writeIndex count : ℕ) : Prop :=
  readIndex < writeIndex ∨ writeIndex = 0 ∨ count / sizeofKeyEvent ≤ bufferSize-readIndex

lemma length_bytes (e : KeyEvent) : e.bytes.length = sizeofKeyEvent := by
  simp [KeyEvent.bytes,sizeofKeyEvent]

lemma length_flatMap_bytes (l : List KeyEvent) :
    (l.flatMap KeyEvent.bytes).length = l.length*sizeofKeyEvent := by
  induction l with
  | nil => rw [flatMap_nil,length_nil,length_nil,zero_mul]
  | cons e l ih =>
    rw [flatMap_cons,length_append,length_bytes,ih,length_cons,Nat.succ_mul,add_comm]

/-- What a call knows about the events that are left: that there are some, how many there were
when it loaded `write_index`, and that its buffer starts with the first of them. -/
def PhaseInv (fPos : ℕ) (rest : List KeyEvent) : Phase → Prop
  | .idle => True
  | .called _ _ => True
  | .ready _ _ => rest ≠ []
  | .loaded count writeIndex _ =>
    OneCopy fPos writeIndex count ∧
      ∃ m, 0 < m ∧ m ≤ rest.length ∧ writeIndex = (fPos+m) % bufferSize
  | .half _ _ _ => False
  | .copied reqEvents buf =>
    reqEvents ≤ rest.length ∧
      buf.take (reqEvents*sizeofKeyEvent) = (rest.take reqEvents).flatMap KeyEvent.bytes

/-- The events are the returned ones and those in the ring from the position on. -/
structure Inv (s : Kpad) (rest : List KeyEvent) : Prop where
  split : ∃ done, s.added = done ++ rest ∧ s.returned = done.flatMap KeyEvent.bytes
  room : rest.length < bufferSize
  ring : Ring.window bufferSize s.buffer s.fPos rest.length = rest
  fPos_lt : s.fPos < bufferSize
  writeIndex_eq : s.writeIndex = (s.fPos+rest.length) % bufferSize
  phase : PhaseInv s.fPos rest s.phase

section Inv

variable {s : Kpad} {rest : List KeyEvent} {phase : Phase} {num : ℕ} {buf : Bytes}

lemma Inv.unread_eq (h : Inv s rest) : s.unread = rest.length := by
  obtain ⟨done,hadded,hreturned⟩ := h.split
  rw [Kpad.unread,hadded,hreturned,length_flatMap_bytes,length_append,
    Nat.mul_div_cancel _ (by decide),Nat.add_sub_cancel_left]

lemma Inv.fPos_eq_iff (h : Inv s rest) : s.fPos = s.writeIndex ↔ rest = [] := by
  have hpos := h.fPos_lt
  have hroom := h.room
  rw [h.writeIndex_eq,← length_eq_zero_iff]
  simp only [bufferSize] at hpos hroom ⊢
  omega

lemma Inv.toFifo (h : Inv s rest) : Fifo s := by
  obtain ⟨done,hadded,hreturned⟩ := h.split
  refine ⟨⟨done.length,?_⟩,fun heq => ?_⟩
  · rw [hadded,take_left' rfl,hreturned]
  · rw [hadded,h.fPos_eq_iff.mp heq,append_nil,hreturned]

lemma PhaseInv.append {fPos : ℕ} (h : PhaseInv fPos rest phase) (more : List KeyEvent) :
    PhaseInv fPos (rest ++ more) phase := by
  cases phase with
  | idle => exact trivial
  | called count buf => exact trivial
  | ready count buf => exact fun hnil => h (append_eq_nil_iff.mp hnil).1
  | loaded count writeIndex buf =>
    obtain ⟨hok,m,hpos,hle,hwi⟩ := h
    refine ⟨hok,m,hpos,?_,hwi⟩
    rw [length_append]
    omega
  | half reqEvents numEvents buf => exact h.elim
  | copied reqEvents buf =>
    obtain ⟨hle,hbuf⟩ := h
    refine ⟨?_,?_⟩
    · rw [length_append]
      omega
    · rw [hbuf,take_append_of_le_length hle]

lemma Inv.add (h : Inv s rest) (keyPressed keyPressTime : BitVec 32)
    (hroom : s.unread+1 < bufferSize) :
    Inv (kpadAddEvent keyPressed keyPressTime s) (rest ++ [keyEvent keyPressed keyPressTime]) := by
  rw [h.unread_eq] at hroom
  obtain ⟨done,hadded,hreturned⟩ := h.split
  refine ⟨⟨done,?_,hreturned⟩,?_,?_,h.fPos_lt,?_,h.phase.append _⟩
  · show s.added ++ _ = _
    rw [hadded,append_assoc]
  · rwa [length_append]
  · show Ring.window bufferSize (Function.update s.buffer s.writeIndex _) s.fPos _ = _
    rw [h.writeIndex_eq,length_append,length_singleton,Ring.window_push _ _ h.room,h.ring]
  · show (s.writeIndex+1) % bufferSize = _
    rw [h.writeIndex_eq,Nat.mod_add_mod,length_append,length_singleton,add_assoc]
    rfl

lemma Inv.setPhase (h : Inv s rest) (hphase : PhaseInv s.fPos rest phase) :
    Inv { s with phase } rest :=
  ⟨h.split,h.room,h.ring,h.fPos_lt,h.writeIndex_eq,hphase⟩

lemma eventBytes_eq (h : Inv s rest) (hle : num ≤ rest.length)
    (hend : s.fPos+num ≤ bufferSize) :
    eventBytes s.buffer s.fPos num = (rest.take num).flatMap KeyEvent.bytes := by
  rw [eventBytes,← Ring.window_eq_slice s.buffer hend,← Ring.take_window s.buffer s.fPos hle,h.ring]

lemma phaseInv_copied (h : Inv s rest) (hle : num ≤ rest.length)
    (hend : s.fPos+num ≤ bufferSize) (buf : Bytes) :
    PhaseInv s.fPos rest (.copied num (copyToUser buf (eventBytes s.buffer s.fPos num))) := by
  refine ⟨hle,?_⟩
  rw [eventBytes_eq h hle hend,copyToUser,take_left']
  rw [length_flatMap_bytes,length_take,min_eq_left hle]

lemma atMost_eq_min (a b : ℕ) : atMost a b = min a b := by
  rw [atMost]
  split <;> omega

lemma Inv.firstCopy (h : Inv s rest) {count writeIndex : ℕ}
    (hphase : PhaseInv s.fPos rest (.loaded count writeIndex buf)) :
    PhaseInv s.fPos rest (firstCopy s.buffer s.fPos count writeIndex buf) := by
  obtain ⟨hok,m,hpos,hle,hwi⟩ := hphase
  have hfPos := h.fPos_lt
  have hroom := h.room
  simp only [OneCopy,bufferSize] at hok hfPos hroom hwi
  rw [Keypad.firstCopy]
  dsimp only
  simp only [atMost_eq_min]
  generalize count / sizeofKeyEvent = req at hok ⊢
  split
  next hgt =>
    have hm : writeIndex-s.fPos = m := by omega
    rw [hm]
    apply phaseInv_copied h (by omega)
    rw [bufferSize]
    omega
  next hgt =>
    have hm : bufferSize-s.fPos+writeIndex = m := by
      rw [bufferSize]
      omega
    have hone : min req m ≤ bufferSize-s.fPos := by
      rw [bufferSize] at hm ⊢
      omega
    have hnum : (if bufferSize-s.fPos > min req m then min req m else bufferSize-s.fPos) =
        min req m := by
      split <;> omega
    rw [hm,hnum,if_neg (lt_irrefl _)]
    apply phaseInv_copied h (by omega)
    rw [bufferSize] at hone ⊢
    omega

lemma Inv.finish (h : Inv s rest) {reqEvents : ℕ}
    (hphase : PhaseInv s.fPos rest (.copied reqEvents buf)) :
    Inv { s with
      phase := .idle
      fPos := (s.fPos+reqEvents) % bufferSize
      returned := s.returned ++ buf.take (reqEvents*sizeofKeyEvent) } (rest.drop reqEvents) := by
  obtain ⟨hle,hbuf⟩ := hphase
  obtain ⟨done,hadded,hreturned⟩ := h.split
  refine ⟨⟨done ++ rest.take reqEvents,?_,?_⟩,?_,?_,Nat.mod_lt _ (by decide),?_,trivial⟩
  · show s.added = _
    rw [hadded,append_assoc,take_append_drop]
  · show s.returned ++ _ = _
    rw [hreturned,hbuf,flatMap_append]
  · have := h.room
    rw [length_drop]
    omega
  · show Ring.window bufferSize s.buffer ((s.fPos+reqEvents) % bufferSize) _ = _
    rw [length_drop,← Ring.drop_window s.buffer s.fPos hle,h.ring]
  · show s.writeIndex = ((s.fPos+reqEvents) % bufferSize+(rest.drop reqEvents).length) % _
    rw [h.writeIndex_eq,Nat.mod_add_mod,length_drop]
    congr 1
    omega

end Inv

lemma Inv.step {s s' : Kpad} {rest : List KeyEvent} (h : Inv s rest) (hstep : Step OneCopy s s') :
    ∃ rest', Inv s' rest' := by
  cases hstep with
  | add keyPressed keyPressTime hroom => exact ⟨_,h.add keyPressed keyPressTime hroom⟩
  | call count buf hp hbuf => exact ⟨rest,h.setPhase trivial⟩
  | empty count buf hp heq => exact ⟨rest,h.setPhase trivial⟩
  | ready count buf hp hne =>
    exact ⟨rest,h.setPhase fun hnil => hne (h.fPos_eq_iff.mpr hnil)⟩
  | load count buf hp hok =>
    have hne : rest ≠ [] := by
      have := h.phase
      rwa [hp] at this
    exact ⟨rest,h.setPhase ⟨hok,rest.length,length_pos_iff.mpr hne,le_refl _,h.writeIndex_eq⟩⟩
  | copy count writeIndex buf hp =>
    have hphase := h.phase
    rw [hp] at hphase
    exact ⟨rest,h.setPhase (h.firstCopy hphase)⟩
  | copyRest reqEvents numEvents buf hp =>
    have hphase := h.phase
    rw [hp] at hphase
    exact hphase.elim
  | fault hp => exact ⟨rest,h.setPhase trivial⟩
  | finish reqEvents buf hp =>
    have hphase := h.phase
    rw [hp] at hphase
    exact ⟨rest.drop reqEvents,h.finish hphase⟩

lemma Reached.inv {s : Kpad} (h : Reached OneCopy s) : ∃ rest, Inv s rest := by
  induction h with
  | opened buffer writeIndex hlt =>
    refine ⟨[],⟨[],rfl,rfl⟩,by decide,rfl,hlt,?_,trivial⟩
    exact (Nat.mod_eq_of_lt hlt).symm
  | step _ hstep ih =>
    obtain ⟨rest,hinv⟩ := ih
    exact hinv.step hstep

/-- As long as every read is served by one copy, the buffer is a FIFO. -/
theorem Reached.fifo {s : Kpad} (h : Reached OneCopy s) : Fifo s := by
  obtain ⟨rest,hinv⟩ := h.inv
  exact hinv.toFifo

def threeKeys (writeIndex : ℕ) : Kpad :=
  tikpadRead 36 (List.replicate 36 0) (kpadAddEvent 0x103 0 (kpadAddEvent 0x102 0 (kpadAddEvent 0x101 0
    (tikpadOpen (fun _ => ⟨0,0,0⟩) writeIndex))))

lemma reached_threeKeys {writeIndex : ℕ} (h : writeIndex < bufferSize)
    (hok : ok writeIndex ((((writeIndex+1) % bufferSize+1) % bufferSize+1) % bufferSize) 36) :
    Reached ok (threeKeys writeIndex) := by
  have hopen : Reached ok (tikpadOpen (fun _ => ⟨0,0,0⟩) writeIndex) := .opened _ _ h
  have h1 := hopen.step (.add _ 0x101 0 (by simp [Kpad.unread,tikpadOpen,bufferSize]))
  have h2 := h1.step (.add _ 0x102 0 (by simp [Kpad.unread,kpadAddEvent,tikpadOpen,bufferSize]))
  have h3 := h2.step (.add _ 0x103 0 (by simp [Kpad.unread,kpadAddEvent,tikpadOpen,bufferSize]))
  apply h3.tikpadRead rfl ?_ hok rfl
  show writeIndex ≠ _
  simp only [kpadAddEvent,tikpadOpen,bufferSize] at h ⊢
  omega

/-- Away from the end of the ring. -/
theorem fifo_threeKeys : Fifo (threeKeys 7) ∧ (threeKeys 7).returned.length = 36 :=
  ⟨(reached_threeKeys (by decide) (.inl (by decide)) : Reached OneCopy _).fifo,by decide⟩

/-- Over the end of the ring: the third key is returned in the place of the first, and nothing in
its own. -/
theorem fifo_fails_over_end :
    Reached (fun _ _ _ => True) (threeKeys 254) ∧ ¬ Fifo (threeKeys 254) := by
  refine ⟨reached_threeKeys (by decide) trivial,?_⟩
  intro h
  exact absurd (h.all (by decide)) (by decide)

end DslG624t.Keypad
