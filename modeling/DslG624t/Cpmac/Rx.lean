import DslG624t.Cpmac.Dma

/-!
# The receive channel

`cpmacInitRxChannel`, `cpmacEnableChannel`, `CpmacRxBDProc` and `cpmacAddBDToRxQueue` of the
single-fragment build, interleaved with the receive engine.
-/

namespace DslG624t.Cpmac

open HeapList List Option

/-- Where a call of `CpmacRxBDProc` stands, with its local variables. `done` is
`pktsProcessed`, and `own`, `eoq` are the two bits of `frameStatus`. -/
inductive RxPc where
  | idle
  | test (curr : Option ℕ) (own eoq : Bool) (done : ℕ)
  | checkEoq (last : ℕ) (curr : Option ℕ) (eoq : Bool) (buf : ℕ) (recycle : Bool) (done : ℕ)
  | requeue (last : ℕ) (curr : Option ℕ) (buf : ℕ) (recycle : Bool) (done : ℕ)
  | link (t last : ℕ) (curr : Option ℕ) (done : ℕ)
  | inspect (t last : ℕ) (curr : Option ℕ) (done : ℕ)
  | restart (t last : ℕ) (own : Bool) (curr : Option ℕ) (done : ℕ)
  | clearEoq (t : ℕ) (own : Bool) (curr : Option ℕ) (done : ℕ)
  | reload (curr : Option ℕ) (done : ℕ)
  deriving DecidableEq

/-- The channel. `fresh` is the next buffer the allocator hands out, and `up` are the
buffers handed to the stack. -/
structure RxState where
  hw : Hw
  head : Option ℕ
  tail : Option ℕ
  queueActive : Bool
  pc : RxPc
  fresh : ℕ
  up : List ℕ

def initRxChain : ℕ → (ℕ → Desc) × Option ℕ
  | 0 => (fun _ => ⟨none,none,false,false,0⟩, none)
  | n+1 =>
    let r := initRxChain n
    (Function.update r.1 n ⟨r.2,r.2,true,false,n⟩,some n)

/-- The channel as `cpmacEnableChannel` leaves it, the engine started on the whole chain. -/
def rxInit (n : ℕ) : RxState where
  hw := Hw.writeHdp ⟨(initRxChain n).1,.halted,false⟩ (initRxChain n).2
  head := (initRxChain n).2
  tail := some 0
  queueActive := true
  pc := .idle
  fresh := n
  up := []

/-- `cpmacAddBDToRxQueue` up to the point where the engine can see the descriptor. -/
def addBD (s : RxState) (last : ℕ) (curr : Option ℕ) (buf done : ℕ) : Option RxState :=
  let s := { s with hw := s.hw.modify last (Desc.fill buf) }
  match s.head, s.tail with
  | none, _ =>
    let s := { s with head := some last, tail := some last, pc := .reload curr done }
    if s.queueActive ≠ false then
      some { s with hw := s.hw.writeHdp (some last), queueActive := true }
    else some s
  | some _, some t =>
    some { s with
      tail := some last
      hw := s.hw.modify t (Desc.chainTo last)
      pc := .link t last curr done }
  | some _, none => none

/-- One step of the driver, where `ok` says whether an allocation made in it succeeds. There
is no step where the source would follow a null pointer. -/
def rxDriver (serviceMax : ℕ) (ok : Bool) (s : RxState) : Option RxState :=
  match s.pc with
  | .idle => s.head.map fun c =>
    { s with pc := .test (some c) (s.hw.mem c).own (s.hw.mem c).eoq 0 }
  | .test (some c) false eoq done =>
    if done < serviceMax then
      let next := (s.hw.mem c).next
      -- Without a new buffer the packet is dropped and its own buffer used again.
      if ok then
        some { s with head := next, fresh := s.fresh+1,
                      pc := .checkEoq c next eoq s.fresh false done }
      else some { s with head := next, pc := .checkEoq c next eoq (s.hw.mem c).tok true done }
    else some { s with pc := .idle }
  | .test _ _ _ _ => some { s with pc := .idle }
  | .checkEoq last curr eoq buf recycle done =>
    let s := { s with pc := .requeue last curr buf recycle done }
    if eoq then
      match curr with
      | some _ => some { s with hw := s.hw.writeHdp (s.hw.mem last).hNext }
      | none => some { s with queueActive := false }
    else some s
  | .requeue last curr buf recycle done =>
    let s := if recycle then s else { s with up := s.up ++ [(s.hw.mem last).tok] }
    addBD s last curr buf (done+1)
  | .link t last curr done =>
    some { s with
      hw := s.hw.modify t (Desc.link last)
      pc := .inspect t last curr done }
  | .inspect t last curr done =>
    if (s.hw.mem t).eoq then some { s with pc := .restart t last (s.hw.mem t).own curr done }
    else some { s with pc := .reload curr done }
  | .restart t last own curr done =>
    some { s with hw := s.hw.writeHdp (some last), pc := .clearEoq t own curr done }
  | .clearEoq t own curr done =>
    -- The mode word written back is the one read by `inspect`, less the bit.
    some { s with
      hw := s.hw.modify t fun d => { d with own := own, eoq := false }
      pc := .reload curr done }
  | .reload (some c) done =>
    some { s with pc := .test (some c) (s.hw.mem c).own (s.hw.mem c).eoq done }
  | .reload none done => some { s with pc := .test none false false done }

inductive RxStep (serviceMax : ℕ) : RxState → RxState → Prop where
  | hw {s : RxState} {h : Hw} (hs : HwStep s.hw h) : RxStep serviceMax s { s with hw := h }
  | driver {s s' : RxState} (ok : Bool) (hd : rxDriver serviceMax ok s = some s') :
    RxStep serviceMax s s'

/-- The states of a channel opened with `n` descriptors. -/
inductive RxReach (serviceMax n : ℕ) : RxState → Prop where
  | init : RxReach serviceMax n (rxInit n)
  | step {s s' : RxState} (h : RxReach serviceMax n s) (hs : RxStep serviceMax s s') :
    RxReach serviceMax n s'

/-- Halted with nothing but empty descriptors queued, and no finished one left that would
make the driver start the engine again. -/
def Stalled (s : RxState) (A : List ℕ) : Prop :=
  s.hw.eng = .halted ∧ (∀ a ∈ A, (s.hw.mem a).own = true) ∧
    ¬ ∃ a ∈ A, (s.hw.mem a).own = false ∧ (s.hw.mem a).eoq = true ∧ (s.hw.mem a).next ≠ none

/-- Between two calls, all descriptors form one chain with a buffer of its own for each,
and the channel is not stalled. -/
def RxSafe (n : ℕ) (s : RxState) : Prop :=
  s.pc = .idle → ∃ A, Chain s.hw.nextOf s.head A ∧ s.tail = A.getLast? ∧
    A.Perm (List.range n) ∧ (A.map fun a => (s.hw.mem a).tok).Nodup ∧ ¬ Stalled s A

/-- The queue as a whole, with the descriptors `hand` taken off it. -/
structure RxQueue (n : ℕ) (h : Hw) (head tail : Option ℕ) (hand D U : List ℕ) : Prop where
  hwQueue : HwQueue h D U
  swQueue : SwQueue h head tail (D ++ U)
  perm : (hand ++ (D ++ U)).Perm (List.range n)

/-- What holds of the queue at each point of a call. -/
def RxQueueInv (n : ℕ) (s : RxState) : Prop :=
  match s.pc with
  | .idle => ∃ D U, RxQueue n s.hw s.head s.tail [] D U
  | .test curr own eoq _ => ∃ D U, RxQueue n s.hw s.head s.tail [] D U ∧ curr = s.head ∧
    (own = false → ∃ c D', D = c :: D' ∧ (s.hw.mem c).eoq = eoq)
  | .checkEoq last curr false _ _ _ => ∃ D U, RxQueue n s.hw s.head s.tail [last] D U ∧ curr = s.head
  | .checkEoq last curr true _ _ _ => s.hw.eng = .halted ∧ curr = s.head ∧
    ∃ U, RxQueue n (s.hw.writeHdp (s.hw.mem last).hNext) s.head s.tail [last] [] U
  | .requeue last curr _ _ _ => ∃ D U, RxQueue n s.hw s.head s.tail [last] D U ∧ curr = s.head
  | .link t last curr _ => ∃ D U W, HwQueue s.hw D U ∧ D ++ U = W ++ [t] ∧
    SwQueue s.hw s.head s.tail (D ++ U ++ [last]) ∧
    s.hw.mem last = ⟨none,none,true,false,(s.hw.mem last).tok⟩ ∧
    (D ++ U ++ [last]).Perm (List.range n) ∧ curr = s.head
  | .inspect t last curr _ => ∃ D U W, RxQueue n s.hw s.head s.tail [] D U ∧ D ++ U = W ++ [t,last] ∧
    curr = s.head
  | .restart t last own curr _ => s.hw.eng = .halted ∧ own = false ∧ curr = s.head ∧
    ∃ D, RxQueue n s.hw s.head s.tail [] (D ++ [t]) [last]
  | .clearEoq t own curr _ => own = false ∧ curr = s.head ∧
    ∃ D U, RxQueue n (s.hw.modify t Desc.clearEoq) s.head s.tail [] D U ∧ t ∈ D
  | .reload curr _ => ∃ D U, RxQueue n s.hw s.head s.tail [] D U ∧ curr = s.head

def RxPc.holding : RxPc → Option (ℕ × ℕ)
  | .checkEoq last _ _ buf _ _ => some (last,buf)
  | .requeue last _ buf _ _ => some (last,buf)
  | _ => none

/-- Every descriptor has a buffer of its own, also once the one in hand is attached. -/
structure RxBufInv (n : ℕ) (s : RxState) : Prop where
  inj : ∀ i < n, ∀ j < n, (s.hw.mem i).tok = (s.hw.mem j).tok → i = j
  lt : ∀ i < n, (s.hw.mem i).tok < s.fresh
  held : ∀ last buf, s.pc.holding = some (last,buf) →
    buf < s.fresh ∧ ∀ i < n, (s.hw.mem i).tok = buf → i = last

variable {s s' : RxState} {h' : Hw} {curr : Option ℕ} {buf done : ℕ} {ok : Bool}
  {c n last serviceMax : ℕ} {D U : List ℕ}

lemma RxQueue.hwStep {h h' : Hw} {head tail : Option ℕ} {hand D U : List ℕ}
    (hq : RxQueue n h head tail hand D U) (hs : HwStep h h') :
    ∃ E U', D ++ U = (D ++ E) ++ U' ∧ RxQueue n h' head tail hand (D ++ E) U' ∧
      ∀ a ∉ U, h'.mem a = h.mem a := by
  obtain ⟨E,U',happ,hq',hf⟩ := hq.hwQueue.hwStep hs
  refine ⟨E,U',happ,⟨hq',?_,?_⟩,hf⟩
  · rw [← happ]
    exact hq.swQueue.frame hs.nextOf_eq
  · rw [← happ]
    exact hq.perm

lemma rxQueueInv_hw (hi : RxQueueInv n s) (hs : HwStep s.hw h') :
    RxQueueInv n { s with hw := h' } := by
  have hkeep {hand : List ℕ} {p : Prop}
      (hi : ∃ D U, RxQueue n s.hw s.head s.tail hand D U ∧ p) :
      ∃ D U, RxQueue n h' s.head s.tail hand D U ∧ p := by
    obtain ⟨D,U,hq,hp⟩ := hi
    obtain ⟨E,U',-,hq',-⟩ := hq.hwStep hs
    exact ⟨_,_,hq',hp⟩
  obtain ⟨hw,head,tail,active,pc,fresh,up⟩ := s
  cases pc with
  | idle =>
    obtain ⟨D,U,hq⟩ := hi
    obtain ⟨E,U',-,hq',-⟩ := hq.hwStep hs
    exact ⟨_,_,hq'⟩
  | test curr own eoq done =>
    obtain ⟨D,U,hq,hc,ho⟩ := hi
    obtain ⟨E,U',-,hq',hf⟩ := hq.hwStep hs
    refine ⟨_,_,hq',hc,fun h => ?_⟩
    obtain ⟨c,D',rfl,he⟩ := ho h
    refine ⟨c,D' ++ E,rfl,?_⟩
    rw [hf c fun hu => hq.hwQueue.not_mem_of_mem_pending hu (by simp)]
    exact he
  | checkEoq last curr eoq buf recycle done =>
    cases eoq with
    | false => exact hkeep hi
    | true => exact absurd hi.1 hs.not_halted
  | requeue last curr buf recycle done => exact hkeep hi
  | link t last curr done =>
    obtain ⟨D,U,W,hq,hW,hsw,hm,hp,hc⟩ := hi
    obtain ⟨E,U',happ,hq',hf⟩ := hq.hwStep hs
    have hlast : last ∉ U := by
      intro hu
      have hnd := hp.nodup_iff.mpr nodup_range
      exact (nodup_append'.mp hnd).2.2 (mem_append_right D hu) (by simp)
    refine ⟨D ++ E,U',W,hq',by rw [← happ,hW],?_,?_,?_,hc⟩
    · rw [← happ]
      exact hsw.frame hs.nextOf_eq
    · rw [hf last hlast]
      exact hm
    · rw [← happ]
      exact hp
  | inspect t last curr done =>
    obtain ⟨D,U,W,hq,hW,hc⟩ := hi
    obtain ⟨E,U',happ,hq',-⟩ := hq.hwStep hs
    exact ⟨_,_,W,hq',by rw [← happ,hW],hc⟩
  | restart t last own curr done => exact absurd hi.1 hs.not_halted
  | clearEoq t own curr done =>
    obtain ⟨ho,hc,D,U,hq,ht⟩ := hi
    obtain ⟨E,U',-,hq',-⟩ := hq.hwStep (hs.clearEoq hq.hwQueue ht)
    exact ⟨ho,hc,D ++ E,U',hq',by simp [ht]⟩
  | reload curr done => exact hkeep hi

namespace RxQueue

variable {h : Hw} {head tail : Option ℕ} {hand : List ℕ} {t : ℕ}

section
variable (hq : RxQueue n h head tail hand D U)
include hq

lemma head_eq : head = (D ++ U).head? :=
  Chain.head_eq hq.swQueue.chain

lemma length_eq : hand.length+(D ++ U).length = n := by
  have hl := hq.perm.length_eq
  rwa [length_append,length_range] at hl

lemma head_lt (hc : head = some c) : c < n := by
  have hmem : c ∈ D ++ U := mem_of_mem_head? (hq.head_eq.symm.trans hc)
  exact mem_range.mp (hq.perm.mem_iff.mp (mem_append_right hand hmem))

end

lemma takeSw (hn : 2 ≤ n) (hq : RxQueue n h head tail [] (c :: D) U) :
    SwQueue h (h.mem c).next tail (D ++ U) ∧ ([c] ++ (D ++ U)).Perm (List.range n) := by
  refine ⟨⟨hq.swQueue.chain.2,?_⟩,hq.perm⟩
  have hl := hq.length_eq
  rw [hq.swQueue.last]
  cases hDU : D ++ U with
  | nil =>
    rw [cons_append,hDU] at hl
    simp at hl
    omega
  | cons y l => rw [cons_append,hDU,getLast?_cons_cons]

lemma exists_last (hn : 2 ≤ n) (hq : RxQueue n h head tail [last] D U) :
    ∃ c W t, head = some c ∧ tail = some t ∧ D ++ U = W ++ [t] := by
  have hl := hq.length_eq
  have hne : D ++ U ≠ [] := by
    intro hc
    rw [hc] at hl
    simp at hl
    omega
  obtain ⟨W,t,hW⟩ : ∃ W t, D ++ U = W ++ [t] :=
    ⟨(D ++ U).dropLast,(D ++ U).getLast hne,(dropLast_append_getLast hne).symm⟩
  obtain ⟨c,hc⟩ : ∃ c, (D ++ U).head? = some c := by
    cases hDU : D ++ U with
    | nil => exact absurd hDU hne
    | cons c l => exact ⟨c,rfl⟩
  refine ⟨c,W,t,hq.head_eq.trans hc,?_,hW⟩
  rw [hq.swQueue.last,hW]
  simp

lemma link {W : List ℕ} (hq : HwQueue h D U) (hW : D ++ U = W ++ [t])
    (hsw : SwQueue h head tail (D ++ U ++ [last]))
    (hm : h.mem last = ⟨none,none,true,false,(h.mem last).tok⟩)
    (hp : (D ++ U ++ [last]).Perm (List.range n)) :
    RxQueue n (h.modify t (Desc.link last)) head tail [] D (U ++ [last]) := by
  have hnd := hp.nodup_iff.mpr nodup_range
  have hlast : last ∉ D ++ U := fun hcl => (nodup_append'.mp hnd).2.2 hcl (by simp)
  refine ⟨hq.append hW hlast (by rw [hm]) (by rw [hm]) (by rw [hm]),?_,?_⟩
  · rw [← append_assoc]
    exact hsw.frame (nextOf_link last)
  · rw [nil_append,← append_assoc]
    exact hp

end RxQueue

lemma rxQueueInv_look (hq : RxQueue n s.hw s.head s.tail [] D U) (hc : s.head = some c)
    (done : ℕ) :
    RxQueueInv n { s with pc := .test (some c) (s.hw.mem c).own (s.hw.mem c).eoq done } := by
  refine ⟨D,U,hq,hc.symm,fun ho => ?_⟩
  rw [hc] at hq
  obtain ⟨D',hD'⟩ := hq.hwQueue.finished_head hq.head_eq.symm ho
  exact ⟨c,D',hD',rfl⟩

lemma rxQueueInv_take (hn : 2 ≤ n) {eoq : Bool} (hq : RxQueue n s.hw s.head s.tail [] (c :: D) U)
    (he : (s.hw.mem c).eoq = eoq) (buf fresh : ℕ) (recycle : Bool) (done : ℕ) :
    RxQueueInv n { s with
      head := (s.hw.mem c).next
      fresh := fresh
      pc := .checkEoq c (s.hw.mem c).next eoq buf recycle done } := by
  obtain ⟨hsw,hp⟩ := hq.takeSw hn
  unfold RxQueueInv
  cases eoq with
  | false => exact ⟨D,U,⟨hq.hwQueue.pop he,hsw,hp⟩,rfl⟩
  | true =>
    obtain ⟨rfl,hh,-,hq'⟩ := hq.hwQueue.popEoq he
    exact ⟨hh,rfl,U,hq',hsw.frame (nextOf_writeHdp _),hp⟩

section

variable (hi : RxBufInv n s)
include hi

lemma RxBufInv.of_tok_eq (ht : ∀ a, (s'.hw.mem a).tok = (s.hw.mem a).tok)
    (hf : s'.fresh = s.fresh) (hh : s'.pc.holding = none ∨ s'.pc.holding = s.pc.holding) :
    RxBufInv n s' := by
  refine ⟨fun i hin j hjn => ?_,fun i hin => ?_,fun last buf hl => ?_⟩
  · rw [ht,ht]
    exact hi.inj i hin j hjn
  · rw [ht,hf]
    exact hi.lt i hin
  rcases hh with hh | hh
  · simp [hh] at hl
  · obtain ⟨h1,h2⟩ := hi.held last buf (hh ▸ hl)
    refine ⟨hf ▸ h1,fun i hin => ?_⟩
    rw [ht]
    exact h2 i hin

lemma RxBufInv.hold (hw : s'.hw = s.hw) (hf : s.fresh ≤ s'.fresh)
    (hh : s'.pc.holding = some (c,buf)) (hlt : buf < s'.fresh)
    (hown : ∀ i < n, (s.hw.mem i).tok = buf → i = c) : RxBufInv n s' := by
  refine ⟨hw ▸ hi.inj,fun i hin => ?_,fun last b hl => ?_⟩
  · rw [hw]
    exact lt_of_lt_of_le (hi.lt i hin) hf
  · obtain ⟨rfl,rfl⟩ := Prod.mk.inj (some.inj (hh.symm.trans hl))
    exact ⟨hlt,fun i hin he => hown i hin (hw ▸ he)⟩

lemma RxBufInv.attach {last buf : ℕ} (hp : s.pc.holding = some (last,buf))
    (ht : ∀ a, (s'.hw.mem a).tok = if a = last then buf else (s.hw.mem a).tok)
    (hf : s'.fresh = s.fresh) (hh : s'.pc.holding = none) : RxBufInv n s' := by
  obtain ⟨hlt,hown⟩ := hi.held last buf hp
  refine ⟨fun i hin j hjn hij => ?_,fun i hin => ?_,fun l b hl => by simp [hh] at hl⟩
  · rw [ht,ht] at hij
    split at hij <;> split at hij
    · next h1 h2 => rw [h1,h2]
    · next h1 h2 => exact absurd (hown j hjn hij.symm) h2
    · next h1 h2 => exact absurd (hown i hin hij) h1
    · exact hi.inj i hin j hjn hij
  · rw [ht,hf]
    split
    · exact hlt
    · exact hi.lt i hin

end

lemma rxInv_addBD (hn : 2 ≤ n) (hq : RxQueue n s.hw s.head s.tail [last] D U) (hb : RxBufInv n s)
    (hp : s.pc.holding = some (last,buf)) (hc : curr = s.head)
    (h : addBD s last curr buf done = some s') : RxQueueInv n s' ∧ RxBufInv n s' := by
  obtain ⟨c,W,t,hhead,htail,hW⟩ := hq.exists_last hn
  have hnd := hq.perm.nodup_iff.mpr nodup_range
  have hlast : last ∉ D ++ U := (nodup_cons.mp hnd).1
  have htl : last ≠ t := fun hlt => hlast (by rw [hlt,hW]; simp)
  have hndq := hq.hwQueue.nodup
  have hsw := hq.swQueue
  unfold addBD at h
  simp only [hhead,htail,some.injEq] at h
  subst h
  constructor
  · unfold RxQueueInv
    refine ⟨D,U,W,hq.hwQueue.hang hlast buf,hW,?_,?_,?_,hc.trans hhead⟩
    · rw [hW] at hlast hndq hsw ⊢
      rw [← hhead]
      exact hsw.hang hndq hlast buf
    · rw [mem_modify_of_ne htl,mem_modify_self]
      rfl
    · exact (perm_append_comm).trans hq.perm
  refine hb.attach hp (fun a => ?_) rfl rfl
  rw [proj_modify (f := Desc.chainTo last) Desc.tok (fun _ => rfl)]
  split
  · next ha => rw [ha,mem_modify_self]; rfl
  · next ha => rw [mem_modify_of_ne ha]

lemma rxInv_driver (hn : 2 ≤ n) (hi : RxQueueInv n s) (hb : RxBufInv n s)
    (hd : rxDriver serviceMax ok s = some s') : RxQueueInv n s' ∧ RxBufInv n s' := by
  obtain ⟨hw,head,tail,active,pc,fresh,up⟩ := s
  have hbuf (pc : RxPc) (hpc : pc.holding = none) :
      RxBufInv n ⟨hw,head,tail,active,pc,fresh,up⟩ := hb.of_tok_eq (fun _ => rfl) rfl (.inl hpc)
  cases pc with
  | idle =>
    obtain ⟨D,U,hq⟩ := hi
    obtain ⟨c,hhead,rfl⟩ := map_eq_some_iff.mp hd
    exact ⟨rxQueueInv_look hq hhead 0,hbuf _ rfl⟩
  | test curr own eoq done =>
    obtain ⟨D,U,hq,hc,ho⟩ := hi
    have hidle : RxQueueInv n ⟨hw,head,tail,active,.idle,fresh,up⟩ ∧
        RxBufInv n ⟨hw,head,tail,active,.idle,fresh,up⟩ := ⟨⟨D,U,hq⟩,hbuf _ rfl⟩
    cases curr with
    | none => exact some.inj hd ▸ hidle
    | some c =>
      cases own with
      | true => exact some.inj hd ▸ hidle
      | false =>
        simp only [rxDriver] at hd
        split at hd
        · obtain ⟨c',D',rfl,he⟩ := ho rfl
          have hcc : some c = some c' := hc.trans hq.head_eq
          cases hcc
          split at hd
          · cases hd
            refine ⟨rxQueueInv_take hn hq he _ _ _ _,hb.hold rfl (Nat.le_succ _) rfl
              (Nat.lt_succ_self _) fun i hin he => absurd he (ne_of_lt (hb.lt i hin))⟩
          · cases hd
            have hcn := hq.head_lt hc.symm
            exact ⟨rxQueueInv_take hn hq he _ fresh _ _,
              hb.hold rfl (le_refl _) rfl (hb.lt c hcn) fun i hin => hb.inj i hin c hcn⟩
        · cases hd
          exact hidle
  | checkEoq last curr eoq buf recycle done =>
    cases eoq with
    | false =>
      cases hd
      exact ⟨hi,hb.of_tok_eq (fun _ => rfl) rfl (.inr rfl)⟩
    | true =>
      obtain ⟨-,hc,U,hq⟩ := hi
      obtain ⟨x,-,-,hhead,-⟩ := hq.exists_last hn
      cases curr with
      | none => exact absurd (hc.trans hhead) (by simp)
      | some y =>
        cases hd
        exact ⟨⟨[],U,hq,hc⟩,hb.of_tok_eq (fun a => by simp) rfl (.inr rfl)⟩
  | requeue last curr buf recycle done =>
    obtain ⟨D,U,hq,hc⟩ := hi
    cases recycle with
    | true => exact rxInv_addBD hn hq hb rfl hc hd
    | false =>
      exact rxInv_addBD (s := ⟨hw,head,tail,active,_,fresh,up ++ [(hw.mem last).tok]⟩) hn hq
        ⟨hb.inj,hb.lt,hb.held⟩ rfl hc hd
  | link t last curr done =>
    obtain ⟨D,U,W,hq,hW,hsw,hm,hp,hc⟩ := hi
    cases hd
    have happ : D ++ (U ++ [last]) = W ++ [t,last] := by
      rw [← append_assoc,hW,append_assoc]
      rfl
    refine ⟨⟨D,U ++ [last],W,RxQueue.link hq hW hsw hm hp,happ,hc⟩,hb.of_tok_eq ?_ rfl (.inl rfl)⟩
    exact proj_modify (f := Desc.link last) Desc.tok fun _ => rfl
  | inspect t last curr done =>
    obtain ⟨D,U,W,hq,hW,hc⟩ := hi
    simp only [rxDriver] at hd
    split at hd
    · next he =>
      cases hd
      obtain ⟨hh,rfl,rfl,ho⟩ := hq.hwQueue.halted_of_eoq_append hW he
      exact ⟨⟨hh,ho,hc,W,hq⟩,hbuf _ rfl⟩
    · cases hd
      exact ⟨⟨D,U,hq,hc⟩,hbuf _ rfl⟩
  | restart t last own curr done =>
    obtain ⟨hh,ho,hc,D,hq⟩ := hi
    cases hd
    refine ⟨⟨ho,hc,D ++ [t],[last],⟨hq.hwQueue.restart hh,?_,hq.perm⟩,by simp⟩,
      hb.of_tok_eq (fun a => by simp) rfl (.inl rfl)⟩
    exact hq.swQueue.frame (by simp)
  | clearEoq t own curr done =>
    obtain ⟨rfl,hc,D,U,hq,ht⟩ := hi
    cases hd
    have hto : (hw.mem t).own = false := by
      have hf := hq.hwQueue.finished t ht
      rwa [proj_modify (f := Desc.clearEoq) Desc.own (fun _ => rfl)] at hf
    rw [← modify_clear_eq hto] at hq
    refine ⟨⟨D,U,hq,hc⟩,hb.of_tok_eq ?_ rfl (.inl rfl)⟩
    exact proj_modify (f := fun d => { d with own := false, eoq := false }) Desc.tok fun _ => rfl
  | reload curr done =>
    obtain ⟨D,U,hq,hc⟩ := hi
    cases curr with
    | none =>
      have hl := hq.length_eq
      have hnil : D ++ U = [] := head?_eq_none_iff.mp (hq.head_eq.symm.trans hc.symm)
      simp [hnil] at hl
      omega
    | some c =>
      cases hd
      exact ⟨rxQueueInv_look hq hc.symm done,hbuf _ rfl⟩

lemma initRxChain_spec (n : ℕ) :
    Chain (fun i => ((initRxChain n).1 i).next) (initRxChain n).2 (List.range n).reverse ∧
      Chain (fun i => ((initRxChain n).1 i).hNext) (initRxChain n).2 (List.range n).reverse ∧
      ∀ i < n, ((initRxChain n).1 i).own = true ∧ ((initRxChain n).1 i).eoq = false ∧
        ((initRxChain n).1 i).tok = i := by
  induction n with
  | zero => exact ⟨rfl,rfl,by simp⟩
  | succ n ih =>
    obtain ⟨h1,h2,h3⟩ := ih
    have hold (i : ℕ) (hi : i < n) : (initRxChain (n+1)).1 i = (initRxChain n).1 i :=
      Function.update_of_ne (by omega) _ _
    have hnew : (initRxChain (n+1)).1 n =
        ⟨(initRxChain n).2,(initRxChain n).2,true,false,n⟩ := Function.update_self _ _ _
    have hrange : (range (n+1)).reverse = n :: (range n).reverse := by
      simp [range_succ]
    rw [hrange]
    refine ⟨⟨rfl,?_⟩,⟨rfl,?_⟩,fun i hi => ?_⟩
    · simp only [hnew]
      exact h1.congr fun a ha => congrArg Desc.next (hold a (by simpa using ha))
    · simp only [hnew]
      exact h2.congr fun a ha => congrArg Desc.hNext (hold a (by simpa using ha))
    by_cases hin : i = n
    · subst hin
      simp [hnew]
    · rw [hold i (by omega)]
      exact h3 i (by omega)

lemma rxInv_init (hn : 1 ≤ n) : RxQueueInv n (rxInit n) ∧ RxBufInv n (rxInit n) := by
  obtain ⟨h1,h2,h3⟩ := initRxChain_spec n
  obtain ⟨m,rfl⟩ : ∃ m, n = m+1 := ⟨n-1,by omega⟩
  have hmem (a : ℕ) : (rxInit (m+1)).hw.mem a = (initRxChain (m+1)).1 a := by simp [rxInit]
  have hhead : (range (m+1)).reverse.head? = some m := by simp [range_succ]
  constructor
  · refine ⟨[],(range (m+1)).reverse,⟨?_,⟨?_,?_⟩,?_⟩⟩
    · refine ⟨nodup_reverse.mpr nodup_range,?_,by simp,fun a ha => ?_,?_,rfl⟩
      · rw [nil_append,hhead]
        exact h2
      · rw [hmem]
        obtain ⟨ho,he,-⟩ := h3 a (by simpa using ha)
        exact ⟨ho,he⟩
      · exact ⟨hhead,by simp⟩
    · exact h1
    · change some 0 = (range (m+1)).reverse.getLast?
      simp [range_succ_eq_map]
    · exact reverse_perm _
  refine ⟨fun i hi j hj => ?_,fun i hi => ?_,fun last buf hl => by cases hl⟩
  · rw [hmem,hmem,(h3 i hi).2.2,(h3 j hj).2.2]
    exact id
  · rw [hmem,(h3 i hi).2.2]
    exact hi

lemma rxInv_reach (hn : 2 ≤ n) (h : RxReach serviceMax n s) : RxQueueInv n s ∧ RxBufInv n s := by
  induction h with
  | init => exact rxInv_init (by omega)
  | step _ hs ih =>
    obtain ⟨hq,hb⟩ := ih
    cases hs with
    | hw hs => exact ⟨rxQueueInv_hw hq hs,hb.of_tok_eq hs.tok_eq rfl (.inr rfl)⟩
    | driver ok hd => exact rxInv_driver hn hq hb hd

lemma rxSafe_of_inv (hn : 1 ≤ n) (hq : RxQueueInv n s) (hb : RxBufInv n s) : RxSafe n s := by
  intro hpc
  unfold RxQueueInv at hq
  simp only [hpc] at hq
  obtain ⟨D,U,hq⟩ := hq
  have hp : (D ++ U).Perm (range n) := hq.perm
  refine ⟨D ++ U,hq.swQueue.chain,hq.swQueue.last,hp,?_,?_⟩
  · refine hq.hwQueue.nodup.map_on fun i hi j hj hij => ?_
    exact hb.inj i (mem_range.mp (hp.mem_iff.mp hi)) j
      (mem_range.mp (hp.mem_iff.mp hj)) hij
  -- A halted engine has left a finished descriptor behind.
  rintro ⟨hh,hown,-⟩
  have heng := hq.hwQueue.engine
  simp only [EngineAt,hh] at heng
  obtain ⟨rfl,rfl⟩ | ⟨D',e,rfl,-,-⟩ := heng
  · have hl := hp.length_eq
    simp at hl
    omega
  · have h1 := hown e (by simp)
    have h2 := hq.hwQueue.finished e (by simp)
    simp [h1] at h2

lemma rxReach_stalled (hm : 1 ≤ serviceMax) :
    ∃ s, RxReach serviceMax 1 s ∧ s.pc = .idle ∧ s.hw.eng = .halted ∧
      s.hw.mem 0 = ⟨none,none,true,false,0⟩ := by
  have h1 : RxReach serviceMax 1 _ := .step .init (.hw (.fetch rfl))
  have h2 : RxReach serviceMax 1 _ := .step h1 (.hw (.halt rfl))
  have h3 : RxReach serviceMax 1 _ := .step h2 (.driver true rfl)
  have h4 : RxReach serviceMax 1 _ := .step h3 (.driver false (if_pos hm))
  have h5 : RxReach serviceMax 1 _ := .step h4 (.driver true rfl)
  have h6 : RxReach serviceMax 1 _ := .step h5 (.driver true rfl)
  have h7 : RxReach serviceMax 1 _ := .step h6 (.driver true rfl)
  have h8 : RxReach serviceMax 1 _ := .step h7 (.driver true rfl)
  exact ⟨_,h8,rfl,rfl,rfl⟩

lemma not_rxSafe_of_stalled (hpc : s.pc = .idle) (he : s.hw.eng = .halted)
    (hm : s.hw.mem 0 = ⟨none,none,true,false,0⟩) :
    ¬ RxSafe 1 s := by
  intro hs
  obtain ⟨A,-,-,hp,-,hst⟩ := hs hpc
  have hA : A = [0] := perm_singleton.mp hp
  subst hA
  refine hst ⟨he,?_,?_⟩
  · simp [hm]
  · simp [hm]

/-- The receive channel keeps its descriptors in one chain and never stalls, for every
interleaving and every pattern of allocation failures, exactly when it was opened with
two or more descriptors. -/
theorem rxSafe_iff {serviceMax n : ℕ} (hm : 1 ≤ serviceMax) (hn : 1 ≤ n) :
    (∀ s, RxReach serviceMax n s → RxSafe n s) ↔ 2 ≤ n := by
  constructor
  · intro h
    by_contra hlt
    obtain rfl : n = 1 := by omega
    obtain ⟨s,hs,hpc,he,hmem⟩ := rxReach_stalled hm
    exact not_rxSafe_of_stalled hpc he hmem (h s hs)
  · intro h2 s hs
    obtain ⟨hq,hb⟩ := rxInv_reach h2 hs
    exact rxSafe_of_inv hn hq hb

/-- One descriptor and one packet, with the smallest service limit. -/
theorem rxSafe_fails_one : ∃ s, RxReach 1 1 s ∧ ¬ RxSafe 1 s := by
  obtain ⟨s,hs,hpc,he,hmem⟩ := rxReach_stalled (le_refl 1)
  exact ⟨s,hs,not_rxSafe_of_stalled hpc he hmem⟩

theorem rxSafe_two : 1 ≤ 2 ∧ ∀ s, RxReach 1 2 s → RxSafe 2 s :=
  ⟨by decide,(rxSafe_iff (le_refl 1) (by decide)).mpr (le_refl 2)⟩

end DslG624t.Cpmac
