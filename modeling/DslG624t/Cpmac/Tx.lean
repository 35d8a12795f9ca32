import DslG624t.Cpmac.Dma

/-!
# The transmit channel

`cpmacInitTxChannel`, `DDC_cpmacSend`, `cpmacTxBDProc` and the closing of the
channel in `cpmacDisableChannel` and `cpmacWaitForTeardownComplete`, of the
single-fragment build with `CPMAC_MULTIPACKET_TX_COMPLETE_NOTIFY`, interleaved
with the transmit engine. Sends and completions run in a critical section, so
they do not interleave with each other; each access to memory the engine can see
is a step of its own. Closing takes no lock: the runs are those in which no other
call comes in between. The interrupt mask and completion pointer are left out.
-/

namespace DslG624t.Cpmac

open Function HeapList List Option

/-- Where a driver call stands, with its local variables. `nested` tells a `cpmacTxBDProc`
called at the end of `DDC_cpmacSend`, `done` is `pktsProcessed`, and `own`, `eoq` are the
two bits of `frameStatus`. -/
inductive TxPc where
  | idle
  | link (t c : ℕ)
  | inspect (t c : ℕ)
  | clearEoq (t c : ℕ) (own : Bool)
  | restart (c : ℕ)
  | sendExit
  | test (nested : Bool) (curr : Option ℕ) (own eoq : Bool) (done : ℕ)
  | checkEoq (nested : Bool) (c : ℕ) (eoq : Bool) (done : ℕ)
  | free (nested : Bool) (c done : ℕ)
  | reload (nested : Bool) (done : ℕ)
  | teardown
  | complete (curr : Option ℕ)
  | release
  | closed
  deriving DecidableEq

/-- The channel. `accepted` are the tokens of the packets taken by `DDC_cpmacSend`, `completed`
those handed to `ddaNettxCompleteCb`, and `batch` is the part of `txComplete` filled by a
call in progress. `torn` says that the engine has answered the teardown. -/
structure TxChan where
  hw : Hw
  head : Option ℕ
  tail : Option ℕ
  pool : Option ℕ
  queueActive : Bool
  txInterruptDisable : Bool
  threshold : ℤ
  accepted : List ℕ
  completed : List ℕ
  batch : List ℕ
  torn : Bool

structure TxState where
  ch : TxChan
  pc : TxPc

def initTxChain : ℕ → (ℕ → Desc) × Option ℕ
  | 0 => (fun _ => ⟨none,none,false,false,0⟩, none)
  | n+1 =>
    let r := initTxChain n
    (update r.1 n ((r.1 n).chainBefore r.2),some n)

def txInit (n serviceMax : ℕ) (txInterruptDisable : Bool) : TxState where
  pc := .idle
  ch :=
    { hw := Hw.writeHdp ⟨(initTxChain n).1,.halted,false⟩ none
      head := none
      tail := none
      pool := (initTxChain n).2
      queueActive := false
      txInterruptDisable := txInterruptDisable
      threshold := serviceMax
      accepted := []
      completed := []
      batch := []
      torn := false }

/-- `DDC_cpmacSend` up to the point where the engine can see the descriptor. -/
def cpmacSend (tok : ℕ) (s : TxChan) : Option TxState :=
  match s.pool with
  | none => some ⟨s,.sendExit⟩
  | some c =>
    let s := { s with
      pool := (s.hw.mem c).next
      hw := s.hw.modify c (Desc.fill tok)
      accepted := s.accepted ++ [tok] }
    match s.head, s.tail with
    | none, _ =>
      let s := { s with head := some c, tail := some c }
      if s.queueActive ≠ true then
        some ⟨{ s with hw := s.hw.writeHdp (some c), queueActive := true },.sendExit⟩
      else some ⟨s,.sendExit⟩
    | some _, some t =>
      some ⟨{ s with hw := s.hw.modify t (Desc.chainTo c), tail := some c },.link t c⟩
    | some _, none => none

/-- The end of `cpmacTxBDProc`, where the whole batch is handed over. -/
def procExit (serviceMax : ℕ) (nested : Bool) (s : TxChan) : TxState where
  pc := .idle
  ch := { s with
    completed := s.completed ++ s.batch
    batch := []
    threshold := if nested then serviceMax else s.threshold }

def procTest (nested : Bool) (done : ℕ) (s : TxChan) : TxState :=
  match s.head with
  | some c => ⟨s,.test nested (some c) (s.hw.mem c).own (s.hw.mem c).eoq done⟩
  | none => ⟨s,.test nested none false false done⟩

/-- One step of the driver within a call. There is no step where the source would follow a null
pointer, nor before the engine has answered a teardown. -/
def txDriver (serviceMax : ℕ) : TxState → Option TxState
  | ⟨_,.idle⟩ => none
  | ⟨s,.link t c⟩ => some ⟨{ s with hw := s.hw.modify t (Desc.link c) },.inspect t c⟩
  | ⟨s,.inspect t c⟩ =>
    if (s.hw.mem t).eoq then some ⟨s,.clearEoq t c (s.hw.mem t).own⟩ else some ⟨s,.sendExit⟩
  | ⟨s,.clearEoq t c own⟩ =>
    -- The mode word written back is the one read before, less the bit.
    some ⟨{ s with hw := s.hw.modify t fun d => { d with own := own, eoq := false } },.restart c⟩
  | ⟨s,.restart c⟩ => some ⟨{ s with hw := s.hw.writeHdp (some c) },.sendExit⟩
  | ⟨s,.sendExit⟩ =>
    if s.txInterruptDisable then
      let s := { s with threshold := s.threshold-1 }
      if s.threshold ≤ 0 then some (procTest true 0 s) else some ⟨s,.idle⟩
    else some ⟨s,.idle⟩
  | ⟨s,.test nested (some c) false eoq done⟩ =>
    if done < serviceMax then
      some ⟨{ s with head := (s.hw.mem c).next },.checkEoq nested c eoq done⟩
    else some (procExit serviceMax nested s)
  | ⟨s,.test nested _ _ _ _⟩ => some (procExit serviceMax nested s)
  | ⟨s,.checkEoq nested c eoq done⟩ =>
    if eoq then
      match (s.hw.mem c).next with
      | some _ => some ⟨{ s with hw := s.hw.writeHdp (s.hw.mem c).hNext },.free nested c done⟩
      | none => some ⟨{ s with queueActive := false },.free nested c done⟩
    else some ⟨s,.free nested c done⟩
  | ⟨s,.free nested c done⟩ =>
    some ⟨{ s with
      batch := s.batch ++ [(s.hw.mem c).tok]
      hw := s.hw.modify c (Desc.chainBefore s.pool)
      pool := some c },.reload nested (done+1)⟩
  | ⟨s,.reload nested done⟩ => some (procTest nested done s)
  | ⟨s,.teardown⟩ =>
    if s.torn then
      if s.queueActive then some ⟨s,.complete s.head⟩ else some ⟨s,.closed⟩
    else none
  | ⟨s,.complete (some c)⟩ =>
    let s := { s with completed := s.completed ++ [(s.hw.mem c).tok] }
    if some c ≠ s.tail then some ⟨s,.complete (s.hw.mem c).next⟩ else some ⟨s,.release⟩
  | ⟨s,.complete none⟩ => some ⟨s,.release⟩
  | ⟨s,.release⟩ => some ⟨{ s with pool := s.head, head := none, tail := none },.closed⟩
  | ⟨_,.closed⟩ => none

inductive TxStep (serviceMax : ℕ) : TxState → TxState → Prop where
  | hw {s : TxChan} {pc : TxPc} {h : Hw} (hs : HwStep s.hw h) :
    TxStep serviceMax ⟨s,pc⟩ ⟨{ s with hw := h },pc⟩
  | send {s : TxChan} {s' : TxState} (tok : ℕ) (hd : cpmacSend tok s = some s') :
    TxStep serviceMax ⟨s,.idle⟩ s'
  | proc {s : TxChan} : TxStep serviceMax ⟨s,.idle⟩ (procTest false 0 s)
  | driver {s s' : TxState} (hd : txDriver serviceMax s = some s') : TxStep serviceMax s s'
  /-- The engine answers a teardown wherever it stands. -/
  | torn {s : TxChan} : TxStep serviceMax ⟨s,.teardown⟩
    ⟨{ s with hw := { s.hw with eng := .halted }, torn := true },.teardown⟩

/-- The states of a channel opened with `n` descriptors. `q` is the channel as it was when
closing it began, if it did. -/
inductive TxReach (serviceMax n : ℕ) : Option TxChan → TxState → Prop where
  | init (txInterruptDisable : Bool) :
    TxReach serviceMax n none (txInit n serviceMax txInterruptDisable)
  | step {q : Option TxChan} {s s' : TxState} (h : TxReach serviceMax n q s)
    (hs : TxStep serviceMax s s') : TxReach serviceMax n q s'
  | close {s : TxChan} (h : TxReach serviceMax n none ⟨s,.idle⟩) :
    TxReach serviceMax n (some s) ⟨s,.teardown⟩

/-- The engine is halted with packets pending only behind a finished descriptor from which
`cpmacTxBDProc` will start it again. -/
def NotStranded (h : Hw) (A : List ℕ) : Prop :=
  h.eng = .halted → (∃ a ∈ A, (h.mem a).own = true) →
    ∃ a ∈ A, (h.mem a).own = false ∧ (h.mem a).eoq = true ∧ (h.mem a).next ≠ none

/-- Between two calls, the descriptors are split into the free list `P` and the active queue
`A`, the accepted packets are those completed followed by those on the queue, and none is
stranded. -/
structure TxSplit (n : ℕ) (s : TxChan) (P A : List ℕ) : Prop where
  free : Chain s.hw.nextOf s.pool P
  queue : Chain s.hw.nextOf s.head A
  last : A ≠ [] → s.tail = A.getLast?
  perm : (P ++ A).Perm (List.range n)
  tokens : s.accepted = s.completed ++ A.map fun a => (s.hw.mem a).tok
  notStranded : NotStranded s.hw A

/-- The engine is never started while busy, the lists are as they should be between calls, and
a closed channel has handed over every packet. -/
def TxSafe (n : ℕ) (s : TxState) : Prop :=
  s.ch.hw.clash = false ∧
    (s.pc = .idle ∨ s.pc = .closed → ∃ P A, TxSplit n s.ch P A) ∧
    (s.pc = .closed → s.ch.completed = s.ch.accepted)

/-- The driver's lists: the free list `P`, the active queue `A` and the descriptors `hand` that
are on neither. The tail pointer is left behind when the queue runs empty. -/
structure TxLists (n : ℕ) (s : TxChan) (hand P A : List ℕ) : Prop where
  chain : Chain s.hw.nextOf s.head A
  last : A ≠ [] → s.tail = A.getLast?
  free : Chain s.hw.nextOf s.pool P
  perm : (hand ++ (P ++ A)).Perm (List.range n)

def TxTokens (s : TxChan) (L : List ℕ) : Prop :=
  s.accepted = s.completed ++ s.batch ++ L.map fun a => (s.hw.mem a).tok

def TxActive (s : TxChan) (A : List ℕ) : Prop := s.queueActive = true ↔ A ≠ []

/-- The channel with no descriptor in hand, for the engine as `h` says. -/
structure TxQueue (n : ℕ) (s : TxChan) (h : Hw) (P D U : List ℕ) : Prop where
  hwQueue : HwQueue h D U
  lists : TxLists n s [] P (D ++ U)
  tokens : TxTokens s (D ++ U)
  active : TxActive s (D ++ U)

/-- The channel with the finished descriptor `c` taken off the queue. -/
structure TxTaken (n : ℕ) (s : TxChan) (h : Hw) (c : ℕ) (P D U : List ℕ) : Prop where
  hwQueue : HwQueue h D U
  lists : TxLists n s [c] P (D ++ U)
  tokens : TxTokens s (c :: (D ++ U))

/-- While the channel is being closed only the lists matter, and they are still as they were
when closing began. -/
structure TxClosing (n : ℕ) (q : Option TxChan) (s : TxChan) (P A : List ℕ) : Prop where
  lists : TxLists n s [] P A
  noClash : s.hw.clash = false
  quiet : s.batch = []
  start : ∃ c, q = some c ∧ c.head = s.head ∧ c.pool = s.pool

/-- What holds at each point of a call. -/
def TxInv (n : ℕ) (q : Option TxChan) : TxState → Prop
  | ⟨s,.idle⟩ | ⟨s,.sendExit⟩ => s.batch = [] ∧ ∃ P D U, TxQueue n s s.hw P D U
  | ⟨s,.reload _ _⟩ => ∃ P D U, TxQueue n s s.hw P D U
  | ⟨s,.link t c⟩ => s.batch = [] ∧ ∃ P D U W, HwQueue s.hw D U ∧ D ++ U = W ++ [t] ∧
    TxLists n s [] P (D ++ U ++ [c]) ∧ TxTokens s (D ++ U ++ [c]) ∧
    s.hw.mem c = ⟨none,none,true,false,(s.hw.mem c).tok⟩ ∧ s.queueActive = true
  | ⟨s,.inspect t c⟩ => s.batch = [] ∧ ∃ P D U W, TxQueue n s s.hw P D U ∧ D ++ U = W ++ [t,c]
  | ⟨s,.clearEoq t c own⟩ => s.hw.eng = .halted ∧ s.batch = [] ∧ own = false ∧
    ∃ P D, TxQueue n s s.hw P (D ++ [t]) [c]
  | ⟨s,.restart c⟩ => s.hw.eng = .halted ∧ s.batch = [] ∧
    ∃ P D U, TxQueue n s (s.hw.writeHdp (some c)) P D U
  | ⟨s,.test _ curr own eoq _⟩ => ∃ P D U, TxQueue n s s.hw P D U ∧ curr = s.head ∧
    (own = false → curr ≠ none → ∃ c D', D = c :: D' ∧ (s.hw.mem c).eoq = eoq)
  | ⟨s,.checkEoq _ c false _⟩ => ∃ P D U, TxTaken n s s.hw c P D U ∧ TxActive s (D ++ U)
  | ⟨s,.checkEoq _ c true _⟩ => s.hw.eng = .halted ∧ s.queueActive = true ∧
    (s.hw.mem c).next = s.head ∧ (s.hw.mem c).hNext = s.head ∧
    ∃ P U, TxTaken n s (s.hw.writeHdp (s.hw.mem c).hNext) c P [] U
  | ⟨s,.free _ c _⟩ => ∃ P D U, TxTaken n s s.hw c P D U ∧ TxActive s (D ++ U)
  | ⟨s,.teardown⟩ => ∃ P A, TxClosing n q s P A ∧ TxTokens s A ∧ TxActive s A
  | ⟨s,.complete curr⟩ => ∃ P B R, TxClosing n q s P (B ++ R) ∧ TxTokens s R ∧ R ≠ [] ∧
    curr = R.head?
  | ⟨s,.release⟩ => ∃ P A, TxClosing n q s P A ∧ TxTokens s [] ∧ A ≠ []
  | ⟨s,.closed⟩ => s.hw.clash = false ∧ s.batch = [] ∧ s.head = none ∧ TxTokens s [] ∧
    ∃ P c, Chain s.hw.nextOf s.pool P ∧ q = some c ∧
      (P.Perm (List.range n) ↔ c.head = none ∨ c.pool = none)

section EngineSteps

variable {n : ℕ} {q : Option TxChan} {s : TxChan} {h h' : Hw} {hand P A D U : List ℕ} {c : ℕ}

section
variable (hl : TxLists n s hand P A)
include hl

lemma TxLists.nodup : (hand ++ (P ++ A)).Nodup :=
  hl.perm.nodup_iff.mpr nodup_range

lemma TxLists.nodup_queue : A.Nodup :=
  (nodup_append'.mp (nodup_append'.mp hl.nodup).2.1).2.1

lemma TxLists.head_eq : s.head = A.head? := Chain.head_eq hl.chain

lemma TxLists.withHw (hn : h'.nextOf = s.hw.nextOf) : TxLists n { s with hw := h' } hand P A := by
  refine ⟨?_,hl.last,?_,hl.perm⟩
  · rw [hn]
    exact hl.chain
  · rw [hn]
    exact hl.free

end

lemma TxTokens.withHw {L : List ℕ} (ht : TxTokens s L)
    (hn : ∀ a, (h'.mem a).tok = (s.hw.mem a).tok) : TxTokens { s with hw := h' } L := by
  unfold TxTokens
  simp only [hn]
  exact ht

lemma TxQueue.hwStep (hq : TxQueue n s s.hw P D U) (hs : HwStep s.hw h') :
    ∃ E U', D ++ U = (D ++ E) ++ U' ∧ TxQueue n { s with hw := h' } h' P (D ++ E) U' ∧
      ∀ a ∉ U, h'.mem a = s.hw.mem a := by
  obtain ⟨E,U',happ,hq',hf⟩ := hq.hwQueue.hwStep hs
  refine ⟨E,U',happ,⟨hq',?_,?_,?_⟩,hf⟩ <;> rw [← happ]
  · exact hq.lists.withHw hs.nextOf_eq
  · exact hq.tokens.withHw hs.tok_eq
  · exact hq.active

lemma TxTaken.hwStep (hq : TxTaken n s s.hw c P D U) (ha : TxActive s (D ++ U))
    (hs : HwStep s.hw h') :
    ∃ P D U, TxTaken n { s with hw := h' } h' c P D U ∧
      TxActive { s with hw := h' } (D ++ U) := by
  obtain ⟨E,U',happ,hq',hf⟩ := hq.hwQueue.hwStep hs
  refine ⟨P,D ++ E,U',⟨hq',?_,?_⟩,?_⟩ <;> rw [← happ]
  · exact hq.lists.withHw hs.nextOf_eq
  · exact hq.tokens.withHw hs.tok_eq
  · exact ha

lemma TxClosing.withHw (hq : TxClosing n q s P A) (hn : h'.nextOf = s.hw.nextOf)
    (hc : h'.clash = s.hw.clash) : TxClosing n q { s with hw := h' } P A :=
  ⟨hq.lists.withHw hn,hc.trans hq.noClash,hq.quiet,hq.start⟩

end EngineSteps

variable {pc : TxPc} {s' : TxState} {serviceMax : ℕ} {n tok : ℕ} {q : Option TxChan} {s : TxChan}
  {D P U : List ℕ}

lemma txInv_hw {h' : Hw} (hi : TxInv n q ⟨s,pc⟩) (hs : HwStep s.hw h') :
    TxInv n q ⟨{ s with hw := h' },pc⟩ := by
  have hqueue (hi : ∃ P D U, TxQueue n s s.hw P D U) :
      ∃ P D U, TxQueue n { s with hw := h' } h' P D U := by
    obtain ⟨P,D,U,hq⟩ := hi
    obtain ⟨E,U',-,hq',-⟩ := hq.hwStep hs
    exact ⟨_,_,_,hq'⟩
  cases pc with
  | idle => exact ⟨hi.1,hqueue hi.2⟩
  | sendExit => exact ⟨hi.1,hqueue hi.2⟩
  | reload nested done => exact hqueue hi
  | link t c =>
    obtain ⟨hb,P,D,U,W,hq,hW,hl,ht,hm,ha⟩ := hi
    obtain ⟨E,U',happ,hq',hf⟩ := hq.hwStep hs
    have hc : c ∉ U := by
      intro hu
      exact (nodup_append'.mp hl.nodup_queue).2.2 (mem_append_right D hu) (by simp)
    refine ⟨hb,P,D ++ E,U',W,hq',by rw [← happ,hW],?_,?_,?_,ha⟩
    · rw [← happ]
      exact hl.withHw hs.nextOf_eq
    · rw [← happ]
      exact ht.withHw hs.tok_eq
    · rw [hf c hc]
      exact hm
  | inspect t c =>
    obtain ⟨hb,P,D,U,W,hq,hW⟩ := hi
    obtain ⟨E,U',happ,hq',-⟩ := hq.hwStep hs
    exact ⟨hb,_,_,_,W,hq',by rw [← happ,hW]⟩
  | clearEoq t c own => exact absurd hi.1 hs.not_halted
  | restart c => exact absurd hi.1 hs.not_halted
  | test nested curr own eoq done =>
    obtain ⟨P,D,U,hq,hc,ho⟩ := hi
    obtain ⟨E,U',-,hq',hf⟩ := hq.hwStep hs
    refine ⟨_,_,_,hq',hc,fun h1 h2 => ?_⟩
    obtain ⟨c,D',rfl,he⟩ := ho h1 h2
    refine ⟨c,D' ++ E,rfl,?_⟩
    rw [hf c fun hu => hq.hwQueue.not_mem_of_mem_pending hu (by simp)]
    exact he
  | checkEoq nested c eoq done =>
    cases eoq with
    | false =>
      obtain ⟨P,D,U,hq,ha⟩ := hi
      exact hq.hwStep ha hs
    | true => exact absurd hi.1 hs.not_halted
  | free nested c done =>
    obtain ⟨P,D,U,hq,ha⟩ := hi
    exact hq.hwStep ha hs
  | teardown =>
    obtain ⟨P,A,hq,htok,ha⟩ := hi
    exact ⟨P,A,hq.withHw hs.nextOf_eq hs.clash_eq,htok.withHw hs.tok_eq,ha⟩
  | complete curr =>
    obtain ⟨P,B,R,hq,htok,hR⟩ := hi
    exact ⟨P,B,R,hq.withHw hs.nextOf_eq hs.clash_eq,htok.withHw hs.tok_eq,hR⟩
  | release =>
    obtain ⟨P,A,hq,htok,ha⟩ := hi
    exact ⟨P,A,hq.withHw hs.nextOf_eq hs.clash_eq,htok.withHw hs.tok_eq,ha⟩
  | closed =>
    obtain ⟨hcl,hb,hh,htok,P,c,hP,hq⟩ := hi
    refine ⟨hs.clash_eq.trans hcl,hb,hh,htok.withHw hs.tok_eq,P,c,?_,hq⟩
    rw [hs.nextOf_eq]
    exact hP

section Sending

variable {A : List ℕ} {c : ℕ} {p : Option ℕ} {L : List ℕ} {h : Hw}

lemma TxLists.takeFree (hl : TxLists n s [] P A) (hc : s.pool = some c) :
    ∃ P', P = c :: P' ∧ Chain s.hw.nextOf (s.hw.mem c).next P' ∧ c ∉ P' ∧ c ∉ A ∧
      (P' ++ (A ++ [c])).Perm (List.range n) := by
  have hfree := hl.free
  have hnd := hl.nodup
  have hp := hl.perm
  cases P with
  | nil =>
    rw [hc] at hfree
    cases hfree
  | cons x P' =>
    rw [hc] at hfree
    obtain ⟨hx,htail⟩ := hfree
    cases hx
    have hcn : c ∉ P' ++ A := (nodup_cons.mp hnd).1
    refine ⟨P',rfl,htail,fun h => hcn (by simp [h]),fun h => hcn (by simp [h]),?_⟩
    refine List.Perm.trans ?_ hp
    rw [← append_assoc]
    exact perm_append_singleton c (P' ++ A)

lemma chain_hang {t x : ℕ} (hch : Chain h.nextOf p L) (ht : t ∉ L) (hx : x ∉ L) :
    Chain ((h.modify x (Desc.fill tok)).modify t (Desc.chainTo x)).nextOf p L := by
  refine hch.congr fun a ha => ?_
  rw [nextOf_modify,update_of_ne (ne_of_mem_of_not_mem ha ht),nextOf_modify,
    update_of_ne (ne_of_mem_of_not_mem ha hx)]

lemma chain_fill {x : ℕ} (hch : Chain h.nextOf p L) (hx : x ∉ L) :
    Chain (h.modify x (Desc.fill tok)).nextOf p L := by
  refine hch.congr fun a ha => ?_
  rw [nextOf_modify,update_of_ne (ne_of_mem_of_not_mem ha hx)]

lemma TxTokens.fill {s' : TxChan} (ht : TxTokens s A) (hc : c ∉ A)
    (ha : s'.accepted = s.accepted ++ [tok]) (hd : s'.completed = s.completed)
    (hb : s'.batch = s.batch) (hm : ∀ a, (s'.hw.mem a).tok =
      ((s.hw.modify c (Desc.fill tok)).mem a).tok) : TxTokens s' (A ++ [c]) := by
  have hmap : A.map (fun a => (s'.hw.mem a).tok) = A.map fun a => (s.hw.mem a).tok := by
    refine map_congr_left fun a hamem => ?_
    rw [hm,mem_modify_of_ne (ne_of_mem_of_not_mem hamem hc)]
  unfold TxTokens at ht ⊢
  rw [ha,hd,hb,map_append,hmap,ht,map_singleton,hm,mem_modify_self,append_assoc]
  rfl

end Sending

lemma txInv_send_empty {c : ℕ} (hq : TxQueue n s s.hw P [] []) (hc : s.pool = some c) :
    ∃ P', TxQueue n { s with
      pool := (s.hw.mem c).next
      hw := (s.hw.modify c (Desc.fill tok)).writeHdp (some c)
      accepted := s.accepted ++ [tok]
      head := some c
      tail := some c
      queueActive := true } ((s.hw.modify c (Desc.fill tok)).writeHdp (some c)) P' [] [c] := by
  obtain ⟨P',rfl,hfree,hcP,hcA,hp⟩ := hq.lists.takeFree hc
  have hw := hq.hwQueue.modify_of_not_mem hcA (Desc.fill tok)
  have hmem : (s.hw.modify c (Desc.fill tok)).mem c = ⟨none,none,true,false,tok⟩ :=
    mem_modify_self
  refine ⟨P',hw.start (by rw [hmem]) (by rw [hmem]) (by rw [hmem]),?_,?_,?_⟩
  · refine ⟨⟨rfl,?_⟩,fun _ => rfl,?_,hp⟩
    · rw [nextOf_writeHdp,nextOf_modify,update_self]
      rfl
    · rw [nextOf_writeHdp]
      exact chain_fill hfree hcP
  · refine hq.tokens.fill hcA rfl rfl rfl fun a => ?_
    rw [mem_writeHdp]
  · exact ⟨fun _ => by simp,fun _ => rfl⟩

lemma txInv_send_append (q : Option TxChan) (tok : ℕ) {P D U W : List ℕ} {c t : ℕ}
    (hb : s.batch = []) (hq : TxQueue n s s.hw P D U) (hc : s.pool = some c)
    (hW : D ++ U = W ++ [t]) :
    TxInv n q ⟨{ s with
      pool := (s.hw.mem c).next
      hw := (s.hw.modify c (Desc.fill tok)).modify t (Desc.chainTo c)
      accepted := s.accepted ++ [tok]
      tail := some c },.link t c⟩ := by
  obtain ⟨P',rfl,hfree,hcP,hcA,hp⟩ := hq.lists.takeFree hc
  have hnd := hq.lists.nodup_queue
  have ht : t ∈ D ++ U := by simp [hW]
  have hct : c ≠ t := (ne_of_mem_of_not_mem ht hcA).symm
  have hndPA : (c :: P' ++ (D ++ U)).Nodup := hq.lists.nodup
  have htP : t ∉ P' := fun h =>
    (nodup_append'.mp hndPA).2.2 (mem_cons_of_mem _ h) ht
  refine ⟨hb,P',D,U,W,hq.hwQueue.hang hcA tok,hW,⟨?_,?_,?_,hp⟩,?_,?_,?_⟩
  · have hsw : SwQueue s.hw s.head s.tail (D ++ U) := ⟨hq.lists.chain,hq.lists.last (by simp [hW])⟩
    rw [hW] at hsw hnd hcA ⊢
    exact (hsw.hang hnd hcA tok).chain
  · simp
  · exact chain_hang hfree htP hcP
  · refine hq.tokens.fill hcA rfl rfl rfl fun a => ?_
    exact proj_modify (f := Desc.chainTo c) Desc.tok (fun _ => rfl) a
  · rw [mem_modify_of_ne hct,mem_modify_self]
    rfl
  · exact hq.active.mpr (by simp [hW])

lemma txInv_send (hi : TxInv n q ⟨s,.idle⟩) (hd : cpmacSend tok s = some s') : TxInv n q s' := by
  obtain ⟨hb,P,D,U,hq⟩ := hi
  unfold cpmacSend at hd
  cases hpool : s.pool with
  | none =>
    simp only [hpool,some.injEq] at hd
    subst hd
    exact ⟨hb,P,D,U,hq⟩
  | some c =>
    simp only [hpool] at hd
    cases hA : D ++ U with
    | nil =>
      have hhead : s.head = none := by rw [hq.lists.head_eq,hA]; rfl
      have hact : s.queueActive ≠ true := fun h => hq.active.mp h hA
      simp only [hhead,if_pos hact,some.injEq] at hd
      subst hd
      obtain ⟨rfl,rfl⟩ := append_eq_nil_iff.mp hA
      obtain ⟨P',hq'⟩ := txInv_send_empty hq hpool
      exact ⟨hb,P',[],[c],hq'⟩
    | cons x L =>
      obtain ⟨W,t,hW⟩ : ∃ W t, D ++ U = W ++ [t] :=
        ⟨_,_,(dropLast_append_getLast (by simp [hA] : D ++ U ≠ [])).symm⟩
      have hhead : s.head = some x := by rw [hq.lists.head_eq,hA]; rfl
      have htail : s.tail = some t := by rw [hq.lists.last (by simp [hA]),hW]; simp
      simp only [hhead,htail,some.injEq] at hd
      subst hd
      have hinv := txInv_send_append q tok hb hq hpool hW
      rwa [hhead] at hinv

section Completion

variable {c : ℕ} {eoq : Bool}

lemma txInv_procTest (nested : Bool) (done : ℕ) (hq : TxQueue n s s.hw P D U) :
    TxInv n q (procTest nested done s) := by
  unfold procTest
  cases hh : s.head with
  | none => exact ⟨P,D,U,hq,hh.symm,fun _ hne => absurd rfl hne⟩
  | some c =>
    refine ⟨P,D,U,hq,hh.symm,fun ho _ => ?_⟩
    obtain ⟨D',hD'⟩ := hq.hwQueue.finished_head (hq.lists.head_eq.symm.trans hh) ho
    exact ⟨c,D',hD',rfl⟩

lemma txInv_procExit (serviceMax : ℕ) (nested : Bool) (hq : TxQueue n s s.hw P D U) :
    TxInv n q (procExit serviceMax nested s) := by
  refine ⟨rfl,P,D,U,hq.hwQueue,
    ⟨hq.lists.chain,hq.lists.last,hq.lists.free,hq.lists.perm⟩,?_,hq.active⟩
  have ht := hq.tokens
  unfold TxTokens at ht ⊢
  simpa [procExit] using ht

lemma TxLists.take {A : List ℕ} (hl : TxLists n s [] P (c :: A)) :
    TxLists n { s with head := (s.hw.mem c).next } [c] P A := by
  refine ⟨hl.chain.2,fun hne => ?_,hl.free,?_⟩
  · obtain ⟨y,L,rfl⟩ := exists_cons_of_ne_nil hne
    rw [← getLast?_cons_cons]
    exact hl.last (by simp)
  · have hp : (c :: (P ++ A)).Perm (P ++ c :: A) := perm_middle.symm
    exact hp.trans hl.perm

lemma txInv_take (nested : Bool) (done : ℕ) (hq : TxQueue n s s.hw P (c :: D) U)
    (he : (s.hw.mem c).eoq = eoq) :
    TxInv n q ⟨{ s with head := (s.hw.mem c).next },.checkEoq nested c eoq done⟩ := by
  have hact : s.queueActive = true := hq.active.mpr (by simp)
  have hl := TxLists.take (A := D ++ U) hq.lists
  cases eoq with
  | false =>
    refine ⟨P,D,U,⟨hq.hwQueue.pop he,hl,hq.tokens⟩,?_⟩
    exact ⟨fun _ => hq.hwQueue.rest_ne_nil he,fun _ => hact⟩
  | true =>
    obtain ⟨rfl,hh,hn,hq'⟩ := hq.hwQueue.popEoq he
    have hhead : (s.hw.mem c).next = U.head? := hl.head_eq
    exact ⟨hh,hact,rfl,hn.trans hhead.symm,P,U,⟨hq',hl,hq.tokens⟩⟩

lemma txInv_checkEoq {nested : Bool} {done : ℕ} (hi : TxInv n q ⟨s,.checkEoq nested c eoq done⟩)
    (hd : txDriver serviceMax ⟨s,.checkEoq nested c eoq done⟩ = some s') : TxInv n q s' := by
  cases eoq with
  | false =>
    cases hd
    exact hi
  | true =>
    obtain ⟨hh,hact,hnext,hlink,P,U,hq⟩ := hi
    have hhead : s.head = U.head? := hq.lists.head_eq
    cases hU : U with
    | nil =>
      subst hU
      simp only [txDriver,if_true,hnext.trans hhead,head?_nil,some.injEq] at hd
      subst hd
      have hw : s.hw.writeHdp (s.hw.mem c).hNext = s.hw := by
        simp [hlink,hhead,Hw.writeHdp,hh]
      rw [hw] at hq
      have hl := hq.lists
      exact ⟨P,[],[],⟨hq.hwQueue,⟨hl.chain,hl.last,hl.free,hl.perm⟩,hq.tokens⟩,by simp [TxActive]⟩
    | cons x U' =>
      have hnx : (s.hw.mem c).next = some x := by rw [hnext,hhead,hU]; rfl
      simp only [txDriver,if_true,hnx,some.injEq] at hd
      subst hd
      refine ⟨P,[],U,⟨hq.hwQueue,?_,?_⟩,?_⟩
      · exact hq.lists.withHw (nextOf_writeHdp _)
      · exact hq.tokens.withHw fun a => by rw [mem_writeHdp]
      · exact ⟨fun _ => by simp [hU],fun _ => hact⟩

lemma txInv_free (nested : Bool) (done : ℕ) (hq : TxTaken n s s.hw c P D U)
    (ha : TxActive s (D ++ U)) :
    TxInv n q ⟨{ s with
      batch := s.batch ++ [(s.hw.mem c).tok]
      hw := s.hw.modify c (Desc.chainBefore s.pool)
      pool := some c },.reload nested done⟩ := by
  have hnd : (c :: (P ++ (D ++ U))).Nodup := hq.lists.nodup
  have hc : c ∉ P ++ (D ++ U) := (nodup_cons.mp hnd).1
  have hcP : c ∉ P := fun h => hc (mem_append_left _ h)
  have hcA : c ∉ D ++ U := fun h => hc (mem_append_right _ h)
  have hother {L : List ℕ} (hL : c ∉ L) (a : ℕ) (haL : a ∈ L) :
      (s.hw.modify c (Desc.chainBefore s.pool)).nextOf a = s.hw.nextOf a := by
    rw [nextOf_modify,update_of_ne (ne_of_mem_of_not_mem haL hL)]
  refine ⟨c :: P,D,U,hq.hwQueue.modify_of_not_mem hcA _,⟨?_,hq.lists.last,⟨rfl,?_⟩,?_⟩,?_,ha⟩
  · exact hq.lists.chain.congr (hother hcA)
  · have hnew : (s.hw.modify c (Desc.chainBefore s.pool)).nextOf c = s.pool := by
      rw [nextOf_modify,update_self]
      rfl
    rw [hnew]
    exact hq.lists.free.congr (hother hcP)
  · exact hq.lists.perm
  have ht := hq.tokens
  have htok := proj_modify (h := s.hw) (i := c) (f := Desc.chainBefore s.pool) Desc.tok
    fun _ => rfl
  unfold TxTokens at ht ⊢
  simp only [htok]
  simpa using ht

end Completion

section Closing

lemma txInv_teardown (hi : TxInv n q ⟨s,.teardown⟩)
    (hd : txDriver serviceMax ⟨s,.teardown⟩ = some s') : TxInv n q s' := by
  obtain ⟨P,A,hq,ht,ha⟩ := hi
  simp only [txDriver] at hd
  split at hd
  · split at hd
    · next hact =>
      cases hd
      exact ⟨P,[],A,hq,ht,ha.mp hact,hq.lists.head_eq⟩
    next hact =>
    cases hd
    obtain rfl : A = [] := by
      by_contra hne
      exact hact (ha.mpr hne)
    have hhead : s.head = none := hq.lists.head_eq
    obtain ⟨c,hc,hch,-⟩ := hq.start
    refine ⟨hq.noClash,hq.quiet,hhead,ht,P,c,hq.lists.free,hc,?_⟩
    exact ⟨fun _ => .inl (hch.trans hhead),fun _ => by simpa using hq.lists.perm⟩
  · cases hd

lemma txInv_complete {curr : Option ℕ} (hi : TxInv n q ⟨s,.complete curr⟩)
    (hd : txDriver serviceMax ⟨s,.complete curr⟩ = some s') : TxInv n q s' := by
  obtain ⟨P,B,R,hq,ht,hR,rfl⟩ := hi
  obtain ⟨c,R,rfl⟩ := exists_cons_of_ne_nil hR
  have hlast : s.tail = (c :: R).getLast? := by
    rw [hq.lists.last (by simp),getLast?_append_of_ne_nil _ hR]
  have hnext : (s.hw.mem c).next = R.head? := Chain.next_eq hq.lists.chain
  -- The packets left are one fewer, whichever way the loop goes on.
  have htok : TxTokens { s with completed := s.completed ++ [(s.hw.mem c).tok] } R := by
    unfold TxTokens at ht ⊢
    simpa [hq.quiet] using ht
  have hcl : TxClosing n q { s with completed := s.completed ++ [(s.hw.mem c).tok] }
      P (B ++ c :: R) :=
    ⟨⟨hq.lists.chain,hq.lists.last,hq.lists.free,hq.lists.perm⟩,hq.noClash,hq.quiet,hq.start⟩
  simp only [txDriver,head?_cons] at hd
  cases R with
  | nil =>
    rw [if_neg (by simp [hlast])] at hd
    cases hd
    exact ⟨P,B ++ [c],hcl,htok,by simp⟩
  | cons y R =>
    have hnd := (nodup_append'.mp hq.lists.nodup_queue).2.1
    have hne : some c ≠ s.tail := by
      intro h
      rw [hlast,getLast?_cons_cons] at h
      exact (nodup_cons.mp hnd).1 (mem_of_getLast? h.symm)
    rw [if_pos hne] at hd
    cases hd
    refine ⟨P,B ++ [c],y :: R,?_,htok,by simp,hnext⟩
    rw [append_assoc]
    exact hcl

lemma txInv_release (hi : TxInv n q ⟨s,.release⟩) :
    TxInv n q ⟨{ s with pool := s.head, head := none, tail := none },.closed⟩ := by
  obtain ⟨P,A,hq,ht,hA⟩ := hi
  obtain ⟨c,hc,hch,hcp⟩ := hq.start
  refine ⟨hq.noClash,hq.quiet,rfl,ht,A,c,hq.lists.chain,hc,?_⟩
  have hp : (P ++ A).Perm (range n) := hq.lists.perm
  have hpool : c.pool = P.head? := hcp.trans (Chain.head_eq hq.lists.free)
  have hhead : c.head ≠ none := by
    rw [hch,hq.lists.head_eq]
    simpa using hA
  constructor
  · intro hAp
    have hlen := (hp.trans hAp.symm).length_eq
    rw [length_append] at hlen
    have hP : P = [] := length_eq_zero_iff.mp (by omega)
    exact .inr (by rw [hpool,hP]; rfl)
  rintro (h | h)
  · exact absurd h hhead
  · obtain rfl : P = [] := by
      rw [hpool] at h
      simpa using h
    exact hp

end Closing

section DriverSteps

variable {t c : ℕ}

lemma txInv_link (hi : TxInv n q ⟨s,.link t c⟩) :
    TxInv n q ⟨{ s with hw := s.hw.modify t (Desc.link c) },.inspect t c⟩ := by
  obtain ⟨hb,P,D,U,W,hq,hW,hl,ht,hm,ha⟩ := hi
  have hc : c ∉ D ++ U := fun h =>
    (nodup_append'.mp hl.nodup_queue).2.2 h (by simp)
  have hq' := hq.append hW hc (by rw [hm]) (by rw [hm]) (by rw [hm])
  have happ : D ++ (U ++ [c]) = D ++ U ++ [c] := by simp
  refine ⟨hb,P,D,U ++ [c],W,⟨hq',?_,?_,?_⟩,by rw [happ,hW]; simp⟩ <;> rw [happ]
  · exact hl.withHw (nextOf_link c)
  · exact ht.withHw (proj_modify (f := Desc.link c) Desc.tok fun _ => rfl)
  · exact ⟨fun _ => by simp,fun _ => ha⟩

lemma txInv_clearEoq {own : Bool} (hi : TxInv n q ⟨s,.clearEoq t c own⟩) :
    TxInv n q ⟨{ s with hw := s.hw.modify t fun d => { d with own := own, eoq := false } },
      .restart c⟩ := by
  obtain ⟨hh,hb,rfl,P,D,hq⟩ := hi
  rw [modify_clear_eq (hq.hwQueue.finished t (by simp))]
  refine ⟨hh,hb,P,D ++ [t],[c],⟨?_,hq.lists.withHw nextOf_clearEoq,?_,hq.active⟩⟩
  · rw [writeHdp_modify]
    exact hq.hwQueue.restart hh
  · exact hq.tokens.withHw (proj_modify (f := Desc.clearEoq) Desc.tok fun _ => rfl)

end DriverSteps

lemma txInv_driver {serviceMax n : ℕ} (hi : TxInv n q ⟨s,pc⟩)
    (hd : txDriver serviceMax ⟨s,pc⟩ = some s') :
    TxInv n q s' := by
  cases pc with
  | idle => cases hd
  | link t c =>
    cases hd
    exact txInv_link hi
  | inspect t c =>
    obtain ⟨hb,P,D,U,W,hq,hW⟩ := hi
    simp only [txDriver] at hd
    split at hd
    · next he =>
      cases hd
      obtain ⟨hh,rfl,rfl,ho⟩ := hq.hwQueue.halted_of_eoq_append hW he
      exact ⟨hh,hb,ho,P,W,hq⟩
    · cases hd
      exact ⟨hb,P,D,U,hq⟩
  | clearEoq t c own =>
    cases hd
    exact txInv_clearEoq hi
  | restart c =>
    obtain ⟨-,hb,P,D,U,hq⟩ := hi
    cases hd
    refine ⟨hb,P,D,U,hq.hwQueue,hq.lists.withHw (nextOf_writeHdp _),?_,hq.active⟩
    exact hq.tokens.withHw fun a => by rw [mem_writeHdp]
  | sendExit =>
    obtain ⟨hb,P,D,U,hq⟩ := hi
    have hl := hq.lists
    have hq' : TxQueue n { s with threshold := s.threshold-1 } s.hw P D U :=
      ⟨hq.hwQueue,⟨hl.chain,hl.last,hl.free,hl.perm⟩,hq.tokens,hq.active⟩
    simp only [txDriver] at hd
    split at hd
    · split at hd
      · cases hd
        exact txInv_procTest true 0 hq'
      · cases hd
        exact ⟨hb,P,D,U,hq'⟩
    · cases hd
      exact ⟨hb,P,D,U,hq⟩
  | test nested curr own eoq done =>
    obtain ⟨P,D,U,hq,hc,ho⟩ := hi
    cases curr with
    | none =>
      cases hd
      exact txInv_procExit serviceMax nested hq
    | some c =>
      cases own with
      | true =>
        cases hd
        exact txInv_procExit serviceMax nested hq
      | false =>
        simp only [txDriver] at hd
        split at hd
        · cases hd
          obtain ⟨c',D',rfl,he⟩ := ho rfl (by simp)
          have hcc : some c = some c' := hc.trans hq.lists.head_eq
          cases hcc
          exact txInv_take nested done hq he
        · cases hd
          exact txInv_procExit serviceMax nested hq
  | checkEoq nested c eoq done => exact txInv_checkEoq hi hd
  | free nested c done =>
    obtain ⟨P,D,U,hq,ha⟩ := hi
    cases hd
    exact txInv_free nested (done+1) hq ha
  | reload nested done =>
    obtain ⟨P,D,U,hq⟩ := hi
    cases hd
    exact txInv_procTest nested done hq
  | teardown => exact txInv_teardown hi hd
  | complete curr => exact txInv_complete hi hd
  | release =>
    cases hd
    exact txInv_release hi
  | closed => cases hd

lemma initTxChain_spec (n : ℕ) :
    Chain (fun i => ((initTxChain n).1 i).next) (initTxChain n).2 (List.range n).reverse := by
  induction n with
  | zero => rfl
  | succ n ih =>
    have hrange : (range (n+1)).reverse = n :: (range n).reverse := by
      simp [range_succ]
    rw [hrange]
    refine ⟨rfl,?_⟩
    have hnew : ((initTxChain (n+1)).1 n).next = (initTxChain n).2 := by
      simp [initTxChain,Desc.chainBefore]
    simp only [hnew]
    refine ih.congr fun a ha => congrArg Desc.next (update_of_ne ?_ _ _)
    have ha' : a < n := by simpa using ha
    omega

lemma txInv_init (n serviceMax : ℕ) (d : Bool) : TxInv n none (txInit n serviceMax d) := by
  refine ⟨rfl,(range n).reverse,[],[],?_,⟨rfl,by simp,?_,?_⟩,rfl,by simp [TxActive]⟩
  · exact ⟨by simp,rfl,by simp,by simp,.inl ⟨rfl,rfl⟩,rfl⟩
  · exact initTxChain_spec n
  · simp

lemma txInv_step {serviceMax n : ℕ} {s s' : TxState} (hi : TxInv n q s)
    (hs : TxStep serviceMax s s') : TxInv n q s' := by
  cases hs with
  | hw hs => exact txInv_hw hi hs
  | send tok hd => exact txInv_send hi hd
  | proc =>
    obtain ⟨-,P,D,U,hq⟩ := hi
    exact txInv_procTest false 0 hq
  | driver hd => exact txInv_driver hi hd
  | torn =>
    obtain ⟨P,A,hq,ht,ha⟩ := hi
    have hl := hq.lists
    exact ⟨P,A,⟨⟨hl.chain,hl.last,hl.free,hl.perm⟩,hq.noClash,hq.quiet,hq.start⟩,ht,ha⟩

lemma txInv_close (hi : TxInv n none ⟨s,.idle⟩) : TxInv n (some s) ⟨s,.teardown⟩ := by
  obtain ⟨hb,P,D,U,hq⟩ := hi
  refine ⟨P,D ++ U,⟨hq.lists,hq.hwQueue.noClash,hb,s,rfl,rfl,rfl⟩,hq.tokens,?_⟩
  exact hq.active

lemma txInv_reach {serviceMax n : ℕ} {s : TxState} (h : TxReach serviceMax n q s) :
    TxInv n q s := by
  induction h with
  | init d => exact txInv_init n serviceMax d
  | step _ hs ih => exact txInv_step ih hs
  | close _ ih => exact txInv_close ih

lemma TxQueue.notStranded (hq : TxQueue n s s.hw P D U) : NotStranded s.hw (D ++ U) := by
  rintro hh ⟨a,ha,hown⟩
  have haU : a ∈ U := by
    rcases mem_append.mp ha with h | h
    · simp [hq.hwQueue.finished a h] at hown
    · exact h
  have heng := hq.hwQueue.engine
  simp only [EngineAt,hh] at heng
  obtain ⟨-,rfl⟩ | ⟨D',e,rfl,he,-⟩ := heng
  · simp at haU
  refine ⟨e,by simp,hq.hwQueue.finished e (by simp),he,?_⟩
  -- Behind the descriptor where the engine halted the pending ones follow.
  have hch := hq.lists.chain
  rw [append_assoc] at hch
  have hn : (s.hw.mem e).next = U.head? := Chain.next_eq hch
  rw [hn]
  intro hnil
  rw [head?_eq_none_iff.mp hnil] at haU
  simp at haU

lemma TxQueue.split (hq : TxQueue n s s.hw P D U) (hb : s.batch = []) : TxSplit n s P (D ++ U) := by
  refine ⟨hq.lists.free,hq.lists.chain,hq.lists.last,hq.lists.perm,?_,hq.notStranded⟩
  have ht := hq.tokens
  unfold TxTokens at ht
  rwa [hb,append_nil] at ht

lemma clash_of_writeHdp {h : Hw} {p : Option ℕ} (hh : h.eng = .halted)
    (hq : HwQueue (h.writeHdp p) D U) : h.clash = false := by
  have hc := hq.noClash
  cases p with
  | none => simpa [Hw.writeHdp,hh] using hc
  | some b => simpa [Hw.writeHdp,hh] using hc

lemma txInv_noClash (hi : TxInv n q ⟨s,pc⟩) : s.hw.clash = false := by
  match pc,hi with
  | .idle,⟨_,_,_,_,hq⟩ | .sendExit,⟨_,_,_,_,hq⟩ | .reload ..,⟨_,_,_,hq⟩ | .test ..,⟨_,_,_,hq,_⟩
  | .inspect ..,⟨_,_,_,_,_,hq,_⟩ | .clearEoq ..,⟨_,_,_,_,_,hq⟩ | .checkEoq _ _ false _,⟨_,_,_,hq,_⟩
  | .free ..,⟨_,_,_,hq,_⟩ => exact hq.hwQueue.noClash
  | .restart _,⟨hh,_,_,_,_,hq⟩ | .checkEoq _ _ true _,⟨hh,_,_,_,_,_,hq⟩ =>
    exact clash_of_writeHdp hh hq.hwQueue
  | .link ..,⟨_,_,_,_,_,hq,_⟩ | .teardown,⟨_,_,hq,_⟩ | .complete _,⟨_,_,_,hq,_⟩
  | .release,⟨_,_,hq,_⟩ => exact hq.noClash
  | .closed,hi => exact hi.1

lemma txClosed_split_iff (hi : TxInv n q ⟨s,.closed⟩) :
    (∃ P A, TxSplit n s P A) ↔ ∀ c ∈ q, c.head = none ∨ c.pool = none := by
  obtain ⟨-,hb,hhead,ht,P,c,hP,rfl,hiff⟩ := hi
  have hq : (∀ d ∈ some c, d.head = none ∨ d.pool = none) ↔ (c.head = none ∨ c.pool = none) := by
    simp
  rw [hq,← hiff]
  constructor
  · rintro ⟨P',A,hs⟩
    obtain rfl := hs.free.unique hP
    obtain rfl : A = [] := by
      have hA := hs.queue
      rw [hhead] at hA
      exact hA.unique rfl
    simpa using hs.perm
  · intro hp
    refine ⟨P,[],hP,hhead,by simp,by simpa using hp,?_,by simp [NotStranded]⟩
    unfold TxTokens at ht
    simpa [hb] using ht

/-- In every state a transmit channel can reach, the engine is never started while busy; between
calls every descriptor is free or queued, the packets are completed in the order they were
sent and none is stranded; only closing the channel while it has both queued and free
descriptors loses the free ones. -/
theorem txSafe_iff {serviceMax n : ℕ} {q : Option TxChan} {s : TxState}
    (h : TxReach serviceMax n q s) :
    TxSafe n s ↔ (s.pc = .closed → ∀ c ∈ q, c.head = none ∨ c.pool = none) := by
  have hi := txInv_reach h
  obtain ⟨s,pc⟩ := s
  have hcl := txInv_noClash hi
  by_cases hc : pc = .closed
  · subst hc
    have hiff := txClosed_split_iff hi
    have htok : s.completed = s.accepted := by
      obtain ⟨-,hb,-,ht,-⟩ := hi
      unfold TxTokens at ht
      simpa [hb] using ht.symm
    constructor
    · intro hs _
      exact hiff.mp (hs.2.1 (.inr rfl))
    · intro hs
      exact ⟨hcl,fun _ => hiff.mpr (hs rfl),fun _ => htok⟩
  refine ⟨fun _ hc' => absurd hc' hc,fun _ => ⟨hcl,?_,fun hc' => absurd hc' hc⟩⟩
  rintro (hidle | hc')
  · obtain rfl : pc = .idle := hidle
    obtain ⟨hb,P,D,U,hq⟩ := hi
    exact ⟨P,D ++ U,hq.split hb⟩
  · exact absurd hc' hc

/-- One descriptor, one packet: nothing is free when the channel is closed. -/
theorem txSafe_one_sent : ∃ q s, TxReach 1 1 q s ∧ s.pc = .closed ∧ TxSafe 1 s := by
  have h1 : TxReach 1 1 none _ := .step (.init false) (.send 7 rfl)
  have h2 : TxReach 1 1 none _ := .step h1 (.driver rfl)
  have h3 := TxReach.close h2
  have h4 := TxReach.step h3 .torn
  have h5 : TxReach 1 1 _ _ := .step h4 (.driver rfl)
  have h6 : TxReach 1 1 _ _ := .step h5 (.driver rfl)
  have h7 : TxReach 1 1 _ _ := .step h6 (.driver rfl)
  refine ⟨_,_,h7,rfl,(txSafe_iff h7).mpr fun _ c hc => ?_⟩
  cases hc
  exact .inr rfl

/-- Two descriptors, one packet: the free one is lost when the channel is closed. -/
theorem txSafe_fails_free : ∃ q s, TxReach 1 2 q s ∧ ¬ TxSafe 2 s := by
  have h1 : TxReach 1 2 none _ := .step (.init false) (.send 7 rfl)
  have h2 : TxReach 1 2 none _ := .step h1 (.driver rfl)
  have h3 := TxReach.close h2
  have h4 := TxReach.step h3 .torn
  have h5 : TxReach 1 2 _ _ := .step h4 (.driver rfl)
  have h6 : TxReach 1 2 _ _ := .step h5 (.driver rfl)
  have h7 : TxReach 1 2 _ _ := .step h6 (.driver rfl)
  refine ⟨_,_,h7,fun hs => ?_⟩
  obtain ⟨P,A,hsp⟩ := hs.2.1 (.inr rfl)
  -- The free list is descriptor 1 alone, and nothing is queued.
  obtain rfl : P = [1] := hsp.free.unique ⟨rfl,rfl⟩
  obtain rfl : A = [] := hsp.queue.unique rfl
  exact absurd hsp.perm.length_eq (by decide)

end DslG624t.Cpmac
