import DslG624t.Lib.Chain
import DslG624t.Lib.Packed

/-!
# Sending a packet in several fragments

`DDC_cpmacSend` in the build with multi-fragment support.
-/

namespace DslG624t.Cpmac.Send

open Function HeapList List
open Packed (has)

structure NetBuf where
  bufToken : ℕ
  dataPtr : ℕ
  length : ℤ
  deriving DecidableEq

structure NetPkt where
  bufList : List NetBuf
  pktLength : ℤ
  bufList_ne_nil : bufList ≠ []
  -- the buffers lie in the 512 MiB that a bus address reaches
  pktLength_lt : pktLength < 0x40000000

def NetPkt.padded (p : NetPkt) : NetPkt :=
  if p.pktLength < 60 then
    { bufList := p.bufList.modify (p.bufList.length-1)
        fun b => { b with length := b.length+(60-p.pktLength) }
      pktLength := 60
      bufList_ne_nil := by simpa using p.bufList_ne_nil
      pktLength_lt := by decide }
  else p

/-- The transmit descriptors, field by field. `buf` is what `bufToken`, `buffPtr` and `off_bLen`
hold. -/
structure TxBDs where
  hNext : ℕ → Option ℕ
  buf : ℕ → NetBuf
  mode : ℕ → BitVec 32
  next : ℕ → Option ℕ
  eopBD : ℕ → Option ℕ

def sopBit : BitVec 32 := 0x80000000
def eopBit : BitVec 32 := 0x40000000
def ownershipBit : BitVec 32 := 0x20000000
def eoqBit : BitVec 32 := 0x10000000
def passCrcBit : BitVec 32 := 0x4000000

structure TxCppiCh where
  bdPoolHead : Option ℕ
  activeQueueHead : Option ℕ
  activeQueueTail : Option ℕ
  queueActive : Bool
  deriving DecidableEq

structure Device where
  bds : TxBDs
  txCppi : ℕ → TxCppiCh
  txHdp : ℕ → Option ℕ
  opened : Bool
  phyLinked : Bool
  txIsOpen : ℕ → Bool

inductive Result
  | success
  | devNotOpen
  | txNoLink
  | txChInvalid
  | txChNotOpen
  | txOutOfBd
  deriving DecidableEq

/-- The loop over the buffers, at the descriptor `curr`. Where it reaches the end it gives the last
descriptor and the new head of the pool. -/
def fillBDs (sop : ℕ) :
    List NetBuf → BitVec 32 → ℕ → Option ℕ → TxBDs → TxBDs × Option (ℕ × Option ℕ)
  | [], _, curr, pool, m => (m,some (curr,pool))
  | b :: bufs, mode, curr, pool, m =>
    let m := { m with
      buf := update m.buf curr b
      mode := update m.mode curr mode }
    if bufs = [] then
      let pool := m.next curr
      let m := { m with
        mode := update m.mode curr (m.mode curr ||| eopBit)
        hNext := update m.hNext curr none
        next := update m.next curr none
        eopBD := update m.eopBD sop (some curr) }
      (m,some (curr,pool))
    else
      let m := { m with hNext := update m.hNext curr (m.next curr) }
      match m.next curr with
      | none => (m,none)
      | some curr' => fillBDs sop bufs ownershipBit curr' pool m

/-- The packet is put at the end of the active queue. -/
def enqueue (d : Device) (channel sop curr : ℕ) : Device :=
  let c := d.txCppi channel
  match c.activeQueueHead, c.activeQueueTail with
  | none, _ =>
    { d with
      txCppi := update d.txCppi channel
        { c with
          activeQueueHead := some sop
          activeQueueTail := some curr
          queueActive := true }
      txHdp := if c.queueActive then d.txHdp else update d.txHdp channel (some sop) }
  | some _, none => d
  | some _, some tail =>
    let m := { d.bds with
      next := update d.bds.next tail (some sop)
      hNext := update d.bds.hNext tail (some sop) }
    let d := { d with
      bds := m
      txCppi := update d.txCppi channel { c with activeQueueTail := some curr } }
    if has (m.mode tail) eoqBit then
      { d with
        bds := { m with mode := update m.mode tail (m.mode tail &&& ~~~eoqBit) }
        txHdp := update d.txHdp channel (some sop) }
    else d

def firstMode (pkt : NetPkt) (sendArgs : Bool) : BitVec 32 :=
  let mode := sopBit ||| ownershipBit ||| BitVec.ofInt 32 pkt.pktLength
  if sendArgs then mode ||| passCrcBit else mode

/-- What is returned, the packet, which may have become longer, and the device. -/
def ddcCpmacSend (d : Device) (pkt : NetPkt) (channel : ℕ) (sendArgs : Bool) :
    Result × NetPkt × Device :=
  if !d.opened then (.devNotOpen,pkt,d)
  else if !d.phyLinked then (.txNoLink,pkt,d)
  else if 8 < channel then (.txChInvalid,pkt,d)
  else if !d.txIsOpen channel then (.txChNotOpen,pkt,d)
  else
    let pkt := pkt.padded
    match (d.txCppi channel).bdPoolHead with
    | none => (.txOutOfBd,pkt,d)
    | some sop =>
      match fillBDs sop pkt.bufList (firstMode pkt sendArgs) sop (some sop) d.bds with
      | (m,none) => (.txOutOfBd,pkt,{ d with bds := m })
      | (m,some (curr,pool)) =>
        let d := { d with
          bds := m
          txCppi := update d.txCppi channel { d.txCppi channel with bdPoolHead := pool } }
        (.success,pkt,enqueue d channel sop curr)

def TxBDs.middle (m : TxBDs) (curr : ℕ) (b : NetBuf) (mode : BitVec 32) : TxBDs :=
  { m with
    buf := update m.buf curr b
    mode := update m.mode curr mode
    hNext := update m.hNext curr (m.next curr) }

def TxBDs.last (m : TxBDs) (sop curr : ℕ) (b : NetBuf) (mode : BitVec 32) : TxBDs :=
  { buf := update m.buf curr b
    mode := update m.mode curr (mode ||| eopBit)
    hNext := update m.hNext curr none
    next := update m.next curr none
    eopBD := update m.eopBD sop (some curr) }

variable {sop curr : ℕ} {b : NetBuf} {bufs : List NetBuf} {mode : BitVec 32} {pool q : Option ℕ}
  {m m' : TxBDs} {F P : List ℕ} {x : ℕ} {w : BitVec 32} {l channel : ℕ} {d : Device}

lemma fillBDs_singleton :
    fillBDs sop [b] mode curr pool m = (m.last sop curr b mode,some (curr,m.next curr)) := by
  simp [fillBDs,TxBDs.last]

lemma fillBDs_cons_of_null (hne : bufs ≠ []) (hnext : m.next curr = none) :
    fillBDs sop (b :: bufs) mode curr pool m = (m.middle curr b mode,none) := by
  simp [fillBDs,hne,hnext,TxBDs.middle]

lemma fillBDs_cons_of_next {c : ℕ} (hne : bufs ≠ []) (hnext : m.next curr = some c) :
    fillBDs sop (b :: bufs) mode curr pool m =
      fillBDs sop bufs ownershipBit c pool (m.middle curr b mode) := by
  simp [fillBDs,hne,hnext,TxBDs.middle]

def SameBD (m m' : TxBDs) (x : ℕ) : Prop :=
  m'.hNext x = m.hNext x ∧ m'.buf x = m.buf x ∧ m'.mode x = m.mode x

lemma SameBD.trans {m1 m2 m3 : TxBDs} (h : SameBD m1 m2 x) (h' : SameBD m2 m3 x) : SameBD m1 m3 x :=
  ⟨h'.1.trans h.1,h'.2.1.trans h.2.1,h'.2.2.trans h.2.2⟩

lemma sameBD_middle (hx : x ≠ curr) : SameBD m (m.middle curr b mode) x :=
  ⟨update_of_ne hx _ _,update_of_ne hx _ _,update_of_ne hx _ _⟩

lemma sameBD_last (hx : x ≠ curr) : SameBD m (m.last sop curr b mode) x :=
  ⟨update_of_ne hx _ _,update_of_ne hx _ _,update_of_ne hx _ _⟩

/-- No link and nothing outside the free descriptors `F` has changed. -/
structure OnlyFree (F : List ℕ) (m m' : TxBDs) : Prop where
  next : m'.next = m.next
  eopBD : m'.eopBD = m.eopBD
  same : ∀ x ∉ F, SameBD m m' x

lemma fillBDs_short (hchain : Chain m.next (some curr) (curr :: P))
    (hshort : P.length < bufs.length) :
    ∃ m', fillBDs sop (b :: bufs) mode curr pool m = (m',none) ∧ OnlyFree (curr :: P) m m' := by
  induction bufs generalizing b mode curr m P with
  | nil => exact absurd hshort (Nat.not_lt_zero _)
  | cons b' bufs ih =>
    have hne : b' :: bufs ≠ [] := cons_ne_nil b' bufs
    cases P with
    | nil =>
      refine ⟨_,fillBDs_cons_of_null hne hchain.2,rfl,rfl,?_⟩
      intro x hx
      exact sameBD_middle (ne_of_not_mem_cons hx)
    | cons c P =>
      obtain ⟨-,hnext,htail⟩ := hchain
      have hchain' : Chain (m.middle curr b mode).next (some c) (c :: P) := ⟨rfl,htail⟩
      obtain ⟨m',hm',hfree⟩ := ih hchain' (Nat.lt_of_succ_lt_succ hshort)
      refine ⟨m',(fillBDs_cons_of_next hne hnext).trans hm',hfree.next,hfree.eopBD,?_⟩
      intro x hx
      exact (sameBD_middle (ne_of_not_mem_cons hx)).trans
        (hfree.same x (not_mem_of_not_mem_cons hx))

def modes (mode : BitVec 32) : ℕ → List (BitVec 32)
  | 0 => [mode ||| eopBit]
  | k+1 => mode :: modes ownershipBit k

/-- The descriptors `F` and then `l` hold a packet. -/
structure Filled (sop : ℕ) (F : List ℕ) (l : ℕ) (bufs : List NetBuf) (ws : List (BitVec 32))
    (m m' : TxBDs) : Prop where
  next : m'.next = update m.next l none
  eopBD : m'.eopBD = update m.eopBD sop (some l)
  hNext : ∀ x ∈ F ++ [l], m'.hNext x = m'.next x
  buf : (F ++ [l]).map m'.buf = bufs
  mode : (F ++ [l]).map m'.mode = ws
  same : ∀ x ∉ F ++ [l], SameBD m m' x

lemma filled_last : Filled sop [] curr [b] [mode ||| eopBit] m (m.last sop curr b mode) where
  next := rfl
  eopBD := rfl
  hNext := by simp [TxBDs.last]
  buf := by simp [TxBDs.last]
  mode := by simp [TxBDs.last]
  same x hx := sameBD_last (by simpa using hx)

lemma Filled.cons {ws : List (BitVec 32)} (hc : curr ∉ F ++ [l])
    (h : Filled sop F l bufs ws (m.middle curr b mode) m') :
    Filled sop (curr :: F) l (b :: bufs) (mode :: ws) m m' := by
  obtain ⟨hhn,hb,hw⟩ := h.same curr hc
  have hl : curr ≠ l := fun hl => hc (by simp [hl])
  constructor
  · exact h.next
  · exact h.eopBD
  · intro x hx
    rcases mem_cons.mp hx with rfl | hx
    · rw [hhn,h.next,update_of_ne hl]
      exact update_self ..
    · exact h.hNext x hx
  · rw [cons_append,map_cons,h.buf,hb]
    exact congrArg (· :: bufs) (update_self ..)
  · rw [cons_append,map_cons,h.mode,hw]
    exact congrArg (· :: ws) (update_self ..)
  · intro x hx
    exact (sameBD_middle (ne_of_not_mem_cons hx)).trans
      (h.same x (not_mem_of_not_mem_cons hx))

lemma fillBDs_enough (hchain : Seg m.next (some curr) (F ++ [l]) q) (hnodup : (F ++ [l]).Nodup)
    (hlen : F.length = bufs.length) :
    ∃ m', fillBDs sop (b :: bufs) mode curr pool m = (m',some (l,q)) ∧
      Filled sop F l (b :: bufs) (modes mode bufs.length) m m' := by
  induction bufs generalizing b mode curr m F with
  | nil =>
    obtain rfl := length_eq_zero_iff.mp hlen
    obtain ⟨hcl,rfl⟩ := hchain
    cases hcl
    exact ⟨_,fillBDs_singleton,filled_last⟩
  | cons b' bufs ih =>
    obtain ⟨c,F,rfl⟩ := exists_cons_of_length_eq_add_one hlen
    obtain ⟨hcl,hchain⟩ := hchain
    cases hcl
    obtain ⟨hc,hnodup⟩ := nodup_cons.mp hnodup
    -- the next descriptor is the first of those that are left, and there is one
    obtain ⟨c',hc'⟩ := hchain.exists_head
    have hchain' : Seg (m.middle curr b mode).next (some c') (F ++ [l]) q := hc' ▸ hchain
    obtain ⟨m',hm',hfilled⟩ := ih hchain' hnodup (Nat.succ.inj hlen)
    exact ⟨m',(fillBDs_cons_of_next (cons_ne_nil b' bufs) hc').trans hm',hfilled.cons hc⟩

def isSop (w : BitVec 32) : Bool := has w sopBit
def isEop (w : BitVec 32) : Bool := has w eopBit

lemma modes_ownershipBit (k : ℕ) :
    modes ownershipBit k = List.replicate k ownershipBit ++ [ownershipBit ||| eopBit] := by
  induction k with
  | zero => rfl
  | succ k ih => rw [modes,ih,replicate_succ,cons_append]

lemma isSop_eq (w : BitVec 32) : isSop w = w.getLsbD 31 := by
  have hbit : sopBit = 1#32 <<< 31 := by decide
  rw [isSop,hbit,Packed.has_bit (by decide)]

lemma isEop_eq (w : BitVec 32) : isEop w = w.getLsbD 30 := by
  have hbit : eopBit = 1#32 <<< 30 := by decide
  rw [isEop,hbit,Packed.has_bit (by decide)]

lemma map_isSop_modes (hw : isSop w = true) (k : ℕ) :
    (modes w k).map isSop = true :: List.replicate k false := by
  cases k with
  | zero =>
    rw [isSop_eq] at hw
    simp [modes,isSop_eq,hw]
  | succ k =>
    have hown : isSop ownershipBit = false := by decide
    have hlast : isSop (ownershipBit ||| eopBit) = false := by decide
    simp [modes,modes_ownershipBit,hw,hown,hlast,replicate_succ']

lemma map_isEop_modes (hw : isEop w = false) (k : ℕ) :
    (modes w k).map isEop = List.replicate k false ++ [true] := by
  have hlast : ∀ w : BitVec 32, isEop (w ||| eopBit) = true := by
    intro w
    have : eopBit.getLsbD 30 = true := by decide
    rw [isEop_eq,BitVec.getLsbD_or,this,Bool.or_true]
  cases k with
  | zero => simp [modes,hlast]
  | succ k =>
    have hown : isEop ownershipBit = false := by decide
    simp [modes,modes_ownershipBit,hw,hown,hlast,replicate_succ]

variable (pkt : NetPkt)

lemma length_padded : pkt.padded.bufList.length = pkt.bufList.length := by
  unfold NetPkt.padded
  split
  · exact length_modify ..
  · rfl

lemma exists_bufList_padded :
    ∃ b bufs, pkt.padded.bufList = b :: bufs ∧ pkt.bufList.length = bufs.length+1 := by
  obtain ⟨b,bufs,hbufs⟩ := exists_cons_of_ne_nil pkt.padded.bufList_ne_nil
  refine ⟨b,bufs,hbufs,?_⟩
  rw [← length_padded,hbufs,length_cons]

lemma sixty_le_pktLength_padded : 60 ≤ pkt.padded.pktLength := by
  unfold NetPkt.padded
  split
  · exact le_refl _
  · omega

lemma getLsbD_pktLength : (BitVec.ofInt 32 pkt.padded.pktLength).getLsbD 30 = false := by
  have hlo := sixty_le_pktLength_padded pkt
  have hhi := pkt.padded.pktLength_lt
  lift pkt.padded.pktLength to ℕ using by omega with len
  rw [BitVec.ofInt_natCast,BitVec.getLsbD_ofNat]
  simp only [Nat.testBit_lt_two_pow (by omega : len < 2 ^ 30),Bool.and_false]

lemma isSop_firstMode (sendArgs : Bool) : isSop (firstMode pkt sendArgs) = true := by
  have hsop : sopBit.getLsbD 31 = true := by decide
  rw [isSop_eq]
  unfold firstMode
  split <;> simp [hsop]

lemma isEop_firstMode (sendArgs : Bool) : isEop (firstMode pkt.padded sendArgs) = false := by
  have hsop : sopBit.getLsbD 30 = false := by decide
  have hown : ownershipBit.getLsbD 30 = false := by decide
  have hcrc : passCrcBit.getLsbD 30 = false := by decide
  rw [isEop_eq]
  unfold firstMode
  split <;>
    simp only [BitVec.getLsbD_or,hsop,hown,hcrc,getLsbD_pktLength,Bool.or_false]

/-- The free descriptors of a channel are `P` and those of its active queue `A`. The queue is
linked for the hardware as it is for the driver. -/
structure Holds (d : Device) (channel : ℕ) (P A : List ℕ) : Prop where
  pool : Chain d.bds.next (d.txCppi channel).bdPoolHead P
  queue : Chain d.bds.next (d.txCppi channel).activeQueueHead A
  hardware : Chain d.bds.hNext (d.txCppi channel).activeQueueHead A
  tail : A ≠ [] → (d.txCppi channel).activeQueueTail = A.getLast?
  nodup : (P ++ A).Nodup

lemma Holds.empty_or_tail {A : List ℕ} (h : Holds d channel P A) :
    (A = [] ∧ (d.txCppi channel).activeQueueHead = none) ∨
      ∃ A' first t, A = A' ++ [t] ∧ (d.txCppi channel).activeQueueHead = some first ∧
        (d.txCppi channel).activeQueueTail = some t := by
  rcases eq_nil_or_concat A with rfl | ⟨A',t,rfl⟩
  · exact .inl ⟨rfl,h.queue⟩
  · rw [concat_eq_append] at *
    obtain ⟨first,hfirst⟩ := h.queue.exists_head
    refine .inr ⟨A',first,t,rfl,hfirst,?_⟩
    rw [h.tail (by simp),getLast?_concat]

def restarts (d : Device) (channel : ℕ) : Bool :=
  match (d.txCppi channel).activeQueueHead, (d.txCppi channel).activeQueueTail with
  | none, _ => !(d.txCppi channel).queueActive
  | some _, none => false
  | some _, some tail => has (d.bds.mode tail) eoqBit

lemma txHdp_enqueue (d : Device) (channel sop curr : ℕ) :
    (enqueue d channel sop curr).txHdp channel =
      if restarts d channel then some sop else d.txHdp channel := by
  unfold enqueue restarts
  dsimp only
  split
  · cases (d.txCppi channel).queueActive <;> simp
  · rfl
  · split <;> simp

lemma bds_enqueue (d : Device) (channel sop curr x : ℕ) :
    (enqueue d channel sop curr).bds.buf x = d.bds.buf x ∧
      (enqueue d channel sop curr).bds.mode x &&& ~~~eoqBit = d.bds.mode x &&& ~~~eoqBit := by
  unfold enqueue
  dsimp only
  split
  · exact ⟨rfl,rfl⟩
  · exact ⟨rfl,rfl⟩
  rename_i tail _ _
  split
  · refine ⟨rfl,?_⟩
    by_cases hx : x = tail
    · subst hx
      simp only [update_self,BitVec.and_assoc,BitVec.and_self]
    · simp only [update_of_ne hx]
  · exact ⟨rfl,rfl⟩

section Enqueue

variable {R A T : List ℕ}

lemma enqueue_of_empty (sop curr : ℕ)
    (hhead : (d.txCppi channel).activeQueueHead = none) :
    (enqueue d channel sop curr).bds = d.bds ∧
      (enqueue d channel sop curr).txCppi channel =
        { d.txCppi channel with
          activeQueueHead := some sop
          activeQueueTail := some curr
          queueActive := true } := by
  simp [enqueue,hhead]

lemma enqueue_of_tail (sop curr : ℕ) {first tail : ℕ}
    (hhead : (d.txCppi channel).activeQueueHead = some first)
    (htail : (d.txCppi channel).activeQueueTail = some tail) :
    (enqueue d channel sop curr).bds.next = update d.bds.next tail (some sop) ∧
      (enqueue d channel sop curr).bds.hNext = update d.bds.hNext tail (some sop) ∧
      (enqueue d channel sop curr).txCppi channel =
        { d.txCppi channel with activeQueueTail := some curr } := by
  simp only [enqueue,hhead,htail]
  split <;> simp

lemma holds_enqueue (h : Holds d channel R A) (hqueue : Chain d.bds.next (some sop) T)
    (hhw : Chain d.bds.hNext (some sop) T) (hlast : T.getLast? = some curr)
    (hnodup : (R ++ (A ++ T)).Nodup) :
    Holds (enqueue d channel sop curr) channel R (A ++ T) := by
  rcases h.empty_or_tail with ⟨rfl,hhead⟩ | ⟨A,first,t,rfl,hfirst,htail⟩
  · obtain ⟨hbds,hch⟩ := enqueue_of_empty sop curr hhead
    constructor
    · rw [hbds,hch]
      exact h.pool
    · rw [hbds,hch]
      exact hqueue
    · rw [hbds,hch]
      exact hhw
    · rw [hch]
      exact fun _ => hlast.symm
    · exact hnodup
  obtain ⟨hnext,hhNext,hch⟩ := enqueue_of_tail sop curr hfirst htail
  have htR : t ∉ R := by
    intro htR
    exact (nodup_append.mp hnodup).2.2 t htR t (by simp) rfl
  have hAT := (nodup_append.mp hnodup).2.1
  have htT : t ∉ T := by
    intro htT
    exact (nodup_append.mp hAT).2.2 t (by simp) t htT rfl
  have htA : t ∉ A := by
    intro htA
    exact (nodup_append.mp (nodup_append.mp hAT).1).2.2 t htA t (by simp) rfl
  constructor
  · rw [hnext,hch]
    refine h.pool.congr fun a ha => update_of_ne ?_ _ _
    rintro rfl
    exact htR ha
  · rw [hnext,hch]
    exact h.queue.append htA hqueue htT
  · rw [hhNext,hch]
    exact h.hardware.append htA hhw htT
  · rw [hch,getLast?_append,hlast]
    exact fun _ => rfl
  · exact hnodup

end Enqueue

def Device.accepts (d : Device) (channel : ℕ) : Bool :=
  d.opened && d.phyLinked && decide (channel ≤ 8) && d.txIsOpen channel

/-- The pool, the queue and the register are as they were. What the loop has written lies in
descriptors that are still free. -/
structure Untouched (d d' : Device) (channel : ℕ) (P A : List ℕ) : Prop where
  txCppi : d'.txCppi = d.txCppi
  txHdp : d'.txHdp = d.txHdp
  bds : OnlyFree P d.bds d'.bds
  holds : Holds d' channel P A

structure Sent (d d' : Device) (channel : ℕ) (pkt : NetPkt) (P A : List ℕ) : Prop where
  holds : Holds d' channel (P.drop pkt.bufList.length) (A ++ P.take pkt.bufList.length)
  bufs : (P.take pkt.bufList.length).map d'.bds.buf = pkt.bufList
  sops : (P.take pkt.bufList.length).map (fun x => isSop (d'.bds.mode x)) =
    true :: List.replicate (pkt.bufList.length-1) false
  eops : (P.take pkt.bufList.length).map (fun x => isEop (d'.bds.mode x)) =
    List.replicate (pkt.bufList.length-1) false ++ [true]
  queued : ∀ x ∈ A, d'.bds.buf x = d.bds.buf x ∧
    d'.bds.mode x &&& ~~~eoqBit = d.bds.mode x &&& ~~~eoqBit
  txHdp : d'.txHdp channel = if restarts d channel then P.head? else d.txHdp channel

lemma send_of_rejected (h : d.accepts channel = false) (pkt : NetPkt) (sendArgs : Bool) :
    ∃ e, e ≠ .success ∧ e ≠ .txOutOfBd ∧ ddcCpmacSend d pkt channel sendArgs = (e,pkt,d) := by
  unfold ddcCpmacSend
  by_cases hopened : d.opened = true
  · by_cases hlinked : d.phyLinked = true
    · by_cases hch : 8 < channel
      · exact ⟨.txChInvalid,by decide,by decide,by simp [hopened,hlinked,hch]⟩
      · have hopen : d.txIsOpen channel = false := by
          simpa [Device.accepts,hopened,hlinked,Nat.le_of_not_lt hch] using h
        exact ⟨.txChNotOpen,by decide,by decide,by simp [hopened,hlinked,hch,hopen]⟩
    · exact ⟨.txNoLink,by decide,by decide,by simp [hopened,hlinked]⟩
  · exact ⟨.devNotOpen,by decide,by decide,by simp [hopened]⟩

section Accepted

variable {A : List ℕ} {pkt : NetPkt} {sendArgs : Bool} {w' : BitVec 32}

lemma accepts_iff : d.accepts channel = true ↔
    d.opened = true ∧ d.phyLinked = true ∧ ¬8 < channel ∧ d.txIsOpen channel = true := by
  simp [Device.accepts,and_assoc]

def filled (d : Device) (channel : ℕ) (m : TxBDs) (pool : Option ℕ) : Device :=
  { d with
    bds := m
    txCppi := update d.txCppi channel { d.txCppi channel with bdPoolHead := pool } }

lemma send_of_accepts (hacc : d.accepts channel = true) :
    ddcCpmacSend d pkt channel sendArgs =
      match (d.txCppi channel).bdPoolHead with
      | none => (.txOutOfBd,pkt.padded,d)
      | some sop =>
        match fillBDs sop pkt.padded.bufList (firstMode pkt.padded sendArgs) sop
          (some sop) d.bds with
        | (m,none) => (.txOutOfBd,pkt.padded,{ d with bds := m })
        | (m,some (curr,pool)) =>
          (.success,pkt.padded,enqueue (filled d channel m pool) channel sop curr) := by
  obtain ⟨h1,h2,h3,h4⟩ := accepts_iff.mp hacc
  rw [ddcCpmacSend,if_neg (by simp [h1]),if_neg (by simp [h2]),if_neg h3,if_neg (by simp [h4])]
  rfl

lemma Holds.notMem_pool (h : Holds d channel P A) (hx : x ∈ A) : x ∉ P := by
  intro hxP
  exact (nodup_append.mp h.nodup).2.2 x hxP x hx rfl

lemma untouched_of_onlyFree (h : Holds d channel P A) (hfree : OnlyFree P d.bds m) :
    Untouched d { d with bds := m } channel P A where
  txCppi := rfl
  txHdp := rfl
  bds := hfree
  holds :=
    { pool := h.pool.congr fun x _ => congrFun hfree.next x
      queue := h.queue.congr fun x _ => congrFun hfree.next x
      hardware := h.hardware.congr fun x hx => (hfree.same x (h.notMem_pool hx)).1
      tail := h.tail
      nodup := h.nodup }

lemma send_short (h : Holds d channel P A) (hacc : d.accepts channel = true)
    (hshort : P.length < pkt.bufList.length) (sendArgs : Bool) :
    ∃ d', ddcCpmacSend d pkt channel sendArgs = (.txOutOfBd,pkt.padded,d') ∧
      Untouched d d' channel P A := by
  cases P with
  | nil =>
    refine ⟨d,by rw [send_of_accepts hacc,h.pool],untouched_of_onlyFree h ⟨rfl,rfl,?_⟩⟩
    exact fun x _ => ⟨rfl,rfl,rfl⟩
  | cons sop P =>
    obtain ⟨hpool,hrest⟩ := h.pool
    obtain ⟨b,bufs,hbufs,hlen⟩ := exists_bufList_padded pkt
    have hlt : P.length < bufs.length := by
      rw [length_cons] at hshort
      omega
    have hchain : Chain d.bds.next (some sop) (sop :: P) := ⟨rfl,hrest⟩
    obtain ⟨m,hfill,hfree⟩ : ∃ m, fillBDs sop pkt.padded.bufList (firstMode pkt.padded sendArgs)
      sop (some sop) d.bds = (m,none) ∧ OnlyFree (sop :: P) d.bds m := by
      rw [hbufs]
      exact fillBDs_short hchain hlt
    exact ⟨_,by rw [send_of_accepts hacc,hpool]; simp only [hfill],untouched_of_onlyFree h hfree⟩

lemma has_congr {bit : BitVec 32} (hbit : bit &&& ~~~eoqBit = bit)
    (h : w &&& ~~~eoqBit = w' &&& ~~~eoqBit) : has w bit = has w' bit := by
  rw [← Packed.has_and_not hbit,h,Packed.has_and_not hbit]

variable {R : List ℕ} {bs : List NetBuf} {ws : List (BitVec 32)}

lemma holds_filled (h : Holds d channel (F ++ [l] ++ R) A) (hq : Chain d.bds.next q R)
    (hfilled : Filled sop F l bs ws d.bds m) : Holds (filled d channel m q) channel R A := by
  have hlR : ∀ x ∈ R, x ≠ l := by
    rintro x hx rfl
    exact (nodup_append.mp (nodup_append.mp h.nodup).1).2.2 x (by simp) x hx rfl
  have hlA : ∀ x ∈ A, x ∉ F ++ [l] := by
    intro x hx hxF
    exact h.notMem_pool hx (mem_append_left R hxF)
  have hch : (filled d channel m q).txCppi channel = { d.txCppi channel with bdPoolHead := q } :=
    update_self ..
  constructor
  · rw [hch]
    refine hq.congr fun x hx => ?_
    exact (congrFun hfilled.next x).trans (update_of_ne (hlR x hx) _ _)
  · rw [hch]
    refine h.queue.congr fun x hx => ?_
    refine (congrFun hfilled.next x).trans (update_of_ne ?_ _ _)
    rintro rfl
    exact hlA x hx (by simp)
  · rw [hch]
    exact h.hardware.congr fun x hx => (hfilled.same x (hlA x hx)).1
  · rw [hch]
    exact h.tail
  · have hnodup := h.nodup
    rw [append_assoc] at hnodup
    exact (nodup_append.mp hnodup).2.1

lemma restarts_filled (h : Holds d channel P A) (hm : ∀ x ∈ A, m.mode x = d.bds.mode x) :
    restarts (filled d channel m q) channel = restarts d channel := by
  have hch : (filled d channel m q).txCppi channel = { d.txCppi channel with bdPoolHead := q } :=
    update_self ..
  unfold restarts
  rw [hch]
  dsimp only
  rcases h.empty_or_tail with ⟨-,hhead⟩ | ⟨A,first,t,rfl,hfirst,htail⟩
  · rw [hhead]
  · rw [hfirst,htail]
    exact congrArg (has · eoqBit) (hm t (by simp))

lemma sent_enqueue (h : Holds d channel (F ++ [l] ++ R) A)
    (hpool : (d.txCppi channel).bdPoolHead = some sop) (hnodup : (F ++ [l]).Nodup)
    (hseg : Seg d.bds.next (some sop) (F ++ [l]) q) (hq : Chain d.bds.next q R)
    (hlen : pkt.bufList.length = F.length+1) (hsop : isSop w = true) (heop : isEop w = false)
    (hfilled : Filled sop F l pkt.bufList (modes w F.length) d.bds m) :
    Sent d (enqueue (filled d channel m q) channel sop l) channel pkt (F ++ [l] ++ R) A := by
  have htake : (F ++ [l] ++ R).take pkt.bufList.length = F ++ [l] :=
    take_left' (by simp [hlen])
  have hdrop : (F ++ [l] ++ R).drop pkt.bufList.length = R :=
    drop_left' (by simp [hlen])
  have hmode := fun x => bds_enqueue (filled d channel m q) channel sop l x
  have hl : l ∉ F := by
    intro hlF
    exact (nodup_append.mp hnodup).2.2 l hlF l (by simp) rfl
  have hchain : Chain m.next (some sop) (F ++ [l]) := hfilled.next ▸ hseg.retarget hl none
  have hA : ∀ x ∈ A, SameBD d.bds m x := by
    intro x hx
    exact hfilled.same x fun hxF => h.notMem_pool hx (mem_append_left R hxF)
  constructor
  · rw [htake,hdrop]
    apply holds_enqueue (holds_filled h hq hfilled) hchain (hchain.congr hfilled.hNext)
    · exact getLast?_concat
    · have hperm : (F ++ [l] ++ R ++ A).Perm (R ++ (A ++ (F ++ [l]))) := by
        rw [append_assoc,← append_assoc R]
        exact perm_append_comm
      exact hperm.nodup_iff.mp h.nodup
  · rw [htake,← hfilled.buf]
    exact map_congr_left fun x _ => (hmode x).1
  · rw [htake,hlen,Nat.add_sub_cancel,← map_isSop_modes hsop,← hfilled.mode,map_map]
    exact map_congr_left fun x _ => has_congr (by decide) (hmode x).2
  · rw [htake,hlen,Nat.add_sub_cancel,← map_isEop_modes heop,← hfilled.mode,map_map]
    exact map_congr_left fun x _ => has_congr (by decide) (hmode x).2
  · intro x hx
    obtain ⟨-,hbuf,hw⟩ := hA x hx
    exact ⟨(hmode x).1.trans hbuf,hw ▸ (hmode x).2⟩
  · rw [txHdp_enqueue,restarts_filled h fun x hx => (hA x hx).2.2,← h.pool.head_eq,hpool]
    rfl

lemma send_enough (h : Holds d channel P A) (hacc : d.accepts channel = true)
    (henough : pkt.bufList.length ≤ P.length) (sendArgs : Bool) :
    ∃ d', ddcCpmacSend d pkt channel sendArgs = (.success,pkt.padded,d') ∧
      Sent d d' channel pkt.padded P A := by
  obtain ⟨b,bufs,hbufs,hlen⟩ := exists_bufList_padded pkt
  obtain ⟨T,R,rfl,hT⟩ : ∃ T R, P = T ++ R ∧ T.length = pkt.bufList.length :=
    ⟨_,_,(take_append_drop _ P).symm,length_take_of_le henough⟩
  have hne : T ≠ [] := ne_nil_of_length_eq_add_one (hT.trans hlen)
  obtain ⟨F,l,rfl⟩ : ∃ F l, T = F ++ [l] := ⟨_,_,(dropLast_append_getLast hne).symm⟩
  have hF : F.length = bufs.length := by
    rw [length_append,length_singleton] at hT
    omega
  obtain ⟨q,hseg,hq⟩ := seg_append.mp h.pool
  obtain ⟨sop,hpool⟩ := hseg.exists_head
  rw [hpool] at hseg
  have hnodup := (nodup_append.mp (nodup_append.mp h.nodup).1).1
  obtain ⟨m,hfill,hfilled⟩ : ∃ m, fillBDs sop pkt.padded.bufList (firstMode pkt.padded sendArgs)
    sop (some sop) d.bds = (m,some (l,q)) ∧ Filled sop F l pkt.padded.bufList
      (modes (firstMode pkt.padded sendArgs) F.length) d.bds m := by
    rw [hbufs,hF]
    exact fillBDs_enough hseg hnodup hF
  rw [send_of_accepts hacc,hpool]
  simp only [hfill]
  refine ⟨_,rfl,?_⟩
  refine sent_enqueue h hpool hnodup hseg hq ?_ (isSop_firstMode _ _) (isEop_firstMode _ _) hfilled
  rw [length_padded,hlen,hF]

end Accepted

/-- A packet is queued as a whole or not at all. -/
theorem send_all_or_nothing {d : Device} {channel : ℕ} {P A : List ℕ} (h : Holds d channel P A)
    (pkt : NetPkt) (sendArgs : Bool) :
    let r := ddcCpmacSend d pkt channel sendArgs
    (d.accepts channel = false ∧ r.1 ≠ .success ∧ r.1 ≠ .txOutOfBd ∧ r.2 = (pkt,d)) ∨
      (d.accepts channel = true ∧ P.length < pkt.bufList.length ∧ r.1 = .txOutOfBd ∧
        Untouched d r.2.2 channel P A) ∨
      (d.accepts channel = true ∧ pkt.bufList.length ≤ P.length ∧ r.1 = .success ∧
        r.2.1 = pkt.padded ∧ Sent d r.2.2 channel pkt.padded P A) := by
  intro r
  cases hacc : d.accepts channel with
  | false =>
    obtain ⟨e,he,he',hr⟩ := send_of_rejected hacc pkt sendArgs
    refine .inl ⟨rfl,?_⟩
    rw [show r = _ from hr]
    exact ⟨he,he',rfl⟩
  | true =>
    rcases lt_or_ge P.length pkt.bufList.length with hlt | hge
    · obtain ⟨d',hr,hd'⟩ := send_short h hacc hlt sendArgs
      refine .inr (.inl ⟨rfl,hlt,?_⟩)
      rw [show r = _ from hr]
      exact ⟨rfl,hd'⟩
    · obtain ⟨d',hr,hd'⟩ := send_enough h hacc hge sendArgs
      refine .inr (.inr ⟨rfl,hge,?_⟩)
      rw [show r = _ from hr]
      exact ⟨rfl,rfl,hd'⟩

/-- A channel with three free descriptors and one, marked as the end, in the queue. -/
def fourDescriptors : Device where
  bds :=
    { hNext := fun _ => none
      buf := fun _ => ⟨0,0,0⟩
      mode := fun x => if x = 4 then eoqBit else 0
      next := fun x => if x = 1 then some 2 else if x = 2 then some 3 else none
      eopBD := fun _ => none }
  txCppi := fun _ => ⟨some 1,some 4,some 4,true⟩
  txHdp := fun _ => none
  opened := true
  phyLinked := true
  txIsOpen := fun _ => true

def twoBuffers : NetPkt where
  bufList := [⟨10,0x1000,14⟩,⟨11,0x2000,20⟩]
  pktLength := 34
  bufList_ne_nil := by decide
  pktLength_lt := by decide

lemma holds_fourDescriptors : Holds fourDescriptors 0 [1,2,3] [4] where
  pool := by simp [fourDescriptors]
  queue := by simp [fourDescriptors]
  hardware := by simp [fourDescriptors]
  tail := by simp [fourDescriptors]
  nodup := by decide

theorem send_all_or_nothing_twoBuffers :
    ∃ d', ddcCpmacSend fourDescriptors twoBuffers 0 false = (.success,twoBuffers.padded,d') ∧
      Sent fourDescriptors d' 0 twoBuffers.padded [1,2,3] [4] := by
  rcases send_all_or_nothing holds_fourDescriptors twoBuffers false with
    ⟨hacc,-⟩ | ⟨-,hlt,-⟩ | ⟨-,-,hr,hpkt,hsent⟩
  · exact absurd hacc (by decide)
  · exact absurd hlt (by decide)
  · exact ⟨_,Prod.ext hr (Prod.ext hpkt rfl),hsent⟩

end DslG624t.Cpmac.Send
