import DslG624t.Lib.Chain

/-!
# Receiving on the VMAC

`vmac_rxirq` goes through the completed entries of the receive ring, passes copies of the frames
up, gives each descriptor a new buffer, and returns entries and descriptors to the hardware in
bursts.
-/

namespace DslG624t.Vmac

open Function HeapList List

structure Config where
  numRxComp : ℕ
  burstThreshold : ℕ
  cfgRxNumBufService : ℕ

/-- An entry of the ring, with the `size` that the hardware wrote into the descriptor and whether
the frame is for a group of stations. -/
structure RxCompring where
  valid : Bool
  errorInd : Bool
  frameLen : ℕ
  sofList : ℕ
  size : ℕ
  group : Bool
  deriving DecidableEq

/-- What an iteration finds: the entry, and whether there is memory for a copy and for a new
buffer. -/
structure Found extends RxCompring where
  copy : Bool
  alloc : Bool

/-- The descriptors, by address, and those queued for the hardware. Buffers are numbered in the
order of their allocation, and `BufPtr` points to the data of `skb`. `queue` is not a variable of
the driver: it records what was queued since the last burst. -/
structure Fbl where
  next : ℕ → Option ℕ
  skb : ℕ → ℕ
  freed : List ℕ := []
  rxBurstbufcount : ℕ := 0
  rxBurstbufstart : Option ℕ := none
  rxBurstbufstop : Option ℕ := none
  queue : List ℕ := []

/-- The counters, and the entries of the frames passed up. -/
structure Passed where
  frameError : ℕ := 0
  inDiscardPkts : ℕ := 0
  inUnicastPktsLow : ℕ := 0
  up : List RxCompring := []

/-- `cleared` has the positions of the entries whose first word was cleared, and `posts` the values
of `RCRENTINC` with what was added to the free buffer list. -/
structure Priv extends Fbl, Passed where
  allocated : ℕ
  rxcr : ℕ := 0
  rxBurstRCRcount : ℕ := 0
  cleared : List ℕ := []
  posts : List (ℕ × Fbl) := []

def Fbl.replace (f : Fbl) (d skb : ℕ) : Option Fbl :=
  let f := { f with
    freed := f.freed ++ [f.skb d]
    skb := update f.skb d skb
    rxBurstbufcount := f.rxBurstbufcount+1
    queue := f.queue ++ [d] }
  match f.rxBurstbufstart, f.rxBurstbufstop with
  | none, _ => some { f with rxBurstbufstart := some d, rxBurstbufstop := some d }
  | some _, some stop => some { f with next := update f.next stop (some d), rxBurstbufstop := some d }
  | some _, none => none

def Passed.frame (p : Passed) (f : Found) : Passed :=
  if !f.errorInd || f.size ≠ f.frameLen then
    if f.copy then { p with
      up := p.up ++ [f.toRxCompring]
      inUnicastPktsLow := p.inUnicastPktsLow+if f.group then 0 else 1 }
    else { p with inDiscardPkts := p.inDiscardPkts+1 }
  else { p with frameError := p.frameError+1 }

/-- An iteration of the loop. Without memory for the new buffer a null pointer is followed. -/
def rxEntry (c : Config) (s : Priv) (f : Found) : Option Priv :=
  (if f.valid then
    if f.alloc then (s.toFbl.replace f.sofList s.allocated).map fun fbl =>
      { s with toFbl := fbl, toPassed := s.toPassed.frame f, allocated := s.allocated+1 }
    else none
  else some s).map fun s' => { s' with
    cleared := s.cleared ++ [s.rxcr]
    rxBurstRCRcount := s.rxBurstRCRcount+1
    rxcr := if c.numRxComp ≤ s.rxcr+1 then 0 else s.rxcr+1 }

def post (c : Config) (s : Priv) : Priv :=
  if c.burstThreshold < s.rxBurstRCRcount then { s with
    posts := s.posts ++ [(s.rxBurstRCRcount,s.toFbl)]
    rxBurstRCRcount := 0
    rxBurstbufcount := 0
    rxBurstbufstart := none
    rxBurstbufstop := none
    queue := [] }
  else s

def numEntries (s : Priv) (rcrPendEnt : ℕ) : ℕ :=
  (BitVec.ofNat 32 rcrPendEnt-BitVec.ofNat 32 s.rxBurstRCRcount).toNat

def serviced (c : Config) (s : Priv) (rcrPendEnt : ℕ) (found : ℕ → Found) : List Found :=
  (range (min (numEntries s rcrPendEnt) c.cfgRxNumBufService)).map found

def vmacRxirq (c : Config) (s : Priv) (rcrPendEnt : ℕ) (found : ℕ → Found) : Option (Bool × Priv) :=
  ((serviced c s rcrPendEnt found).foldlM (rxEntry c) s).map fun s' =>
    (decide (c.cfgRxNumBufService < numEntries s rcrPendEnt),post c s')

structure Dev extends Priv where
  intMask : Bool := true
  scheduled : Bool := false

inductive Event where
  | handleRxInt
  | rxTasklet (rcrPendEnt : ℕ) (found : ℕ → Found)

def step (c : Config) (s : Dev) : Event → Option Dev
  | .handleRxInt => some (if s.intMask then { s with intMask := false, scheduled := true } else s)
  | .rxTasklet rcrPendEnt found =>
    if s.scheduled then (vmacRxirq c s.toPriv rcrPendEnt found).map fun (pending,p) =>
      ⟨p,s.intMask || !pending,pending⟩
    else some s

/-- A new buffer can be had, the descriptor is not in the burst yet, and a frame with an error has
the length that the descriptor says, or cannot be copied. -/
def Found.Fits (f : Found) (s : Priv) : Prop :=
  f.valid = true → f.alloc = true ∧ f.sofList ∉ s.queue ∧
    (f.errorInd = true → f.size = f.frameLen ∨ f.copy = false)

instance (f : Found) (s : Priv) : Decidable (f.Fits s) := inferInstanceAs (Decidable (_ → _))

def loopFits (c : Config) : Priv → List Found → Bool
  | s, [] => decide (c.burstThreshold < s.rxBurstRCRcount → s.queue ≠ [])
  | s, f :: fs => decide (f.Fits s) && (rxEntry c s f).all fun s => loopFits c s fs

def Event.fits (c : Config) (s : Dev) : Event → Bool
  | .handleRxInt => true
  | .rxTasklet rcrPendEnt found =>
    !s.scheduled || loopFits c s.toPriv (serviced c s.toPriv rcrPendEnt found)

/-- All iterations fit, and no burst is without a descriptor. -/
def runFits (c : Config) : Dev → List Event → Bool
  | _, [] => true
  | s, e :: es => e.fits c s && (step c s e).all fun s => runFits c s es

/-- The descriptors of the queue are linked from the first to the last one and counted, and each has
a buffer that has not been freed and that no other descriptor has. -/
structure Fbl.Linked (f : Fbl) : Prop where
  count : f.rxBurstbufcount = f.queue.length
  nodup : f.queue.Nodup
  chain : ∃ q, Seg f.next f.rxBurstbufstart f.queue q ∧ (f.queue = [] → q = none)
  stop : f.rxBurstbufstop = f.queue.getLast?
  own : ∀ d ∈ f.queue, f.skb d ∉ f.freed ∧ ∀ e, e ≠ d → f.skb e ≠ f.skb d

/-- The entries are cleared in the order of the ring and returned by their number, at once or with
the next burst; what is posted is linked; and no frame with an error was passed up. -/
structure Good (c : Config) (s : Priv) : Prop where
  returned : (s.posts.map Prod.fst).sum+s.rxBurstRCRcount = s.cleared.length
  order : s.cleared = (range s.cleared.length).map (· % c.numRxComp)
  posts : ∀ p ∈ s.posts, p.2.Linked ∧ p.2.queue ≠ []
  up : ∀ e ∈ s.up, e.errorInd = false

structure Inv (c : Config) (s : Priv) : Prop extends Good c s where
  linked : s.Linked
  rxcr : s.rxcr = s.cleared.length % c.numRxComp
  fresh : (∀ d, s.skb d < s.allocated) ∧ ∀ b ∈ s.freed, b < s.allocated

variable {c : Config} {s : Priv} {f : Fbl} {d n : ℕ}

lemma Fbl.Linked.replace (h : f.Linked) (hd : d ∉ f.queue) (hskb : ∀ e, f.skb e < n)
    (hfreed : ∀ b ∈ f.freed, b < n) :
    ∃ f', f.replace d n = some f' ∧ f'.Linked ∧ f'.skb = update f.skb d n ∧
      f'.freed = f.freed ++ [f.skb d] := by
  have hown : ∀ x ∈ f.queue ++ [d], update f.skb d n x ∉ f.freed ++ [f.skb d] ∧
      ∀ e, e ≠ x → update f.skb d n e ≠ update f.skb d n x := by
    have := h.own
    simp only [update_apply]
    grind
  have hnodup : (f.queue ++ [d]).Nodup := h.nodup.append (nodup_singleton d) (by simpa using hd)
  obtain ⟨q,hchain,hq⟩ := h.chain
  obtain hnil | ⟨l,t,hl⟩ := eq_nil_or_concat' f.queue
  · rw [hnil] at hchain
    rw [Fbl.replace,show f.rxBurstbufstart = none from hchain.trans (hq hnil)]
    exact ⟨_,rfl,⟨by simp [h.count],hnodup,⟨f.next d,by simp [hnil],by simp⟩,by simp,hown⟩,rfl,rfl⟩
  rw [hl] at hchain
  obtain ⟨a,ha⟩ := hchain.exists_head
  have ht : t ∉ l := by
    have := h.nodup
    rw [hl] at this
    exact fun ht => (nodup_append.mp this).2.2 t ht t mem_cons_self rfl
  have hstop : f.rxBurstbufstop = some t := by rw [h.stop,hl,getLast?_concat]
  have hlink : Seg (update f.next t (some d)) f.rxBurstbufstart (f.queue ++ [d])
      (update f.next t (some d) d) := by
    rw [hl]
    exact seg_append.mpr ⟨_,hchain.retarget ht (some d),rfl,rfl⟩
  simp only [Fbl.replace,ha,hstop]
  exact ⟨_,rfl,⟨by simp [h.count],hnodup,⟨_,ha ▸ hlink,by simp⟩,by simp,hown⟩,rfl,rfl⟩

lemma Inv.rxEntry (h : Inv c s) (hc : 0 < c.numRxComp) {f : Found} (hf : f.Fits s) :
    ∃ s', rxEntry c s f = some s' ∧ Inv c s' := by
  have hrxcr : (if c.numRxComp ≤ s.rxcr+1 then 0 else s.rxcr+1) =
      (s.cleared ++ [s.rxcr]).length % c.numRxComp := by
    rw [length_append,length_singleton,← Nat.mod_add_mod,← h.rxcr]
    have hlt : s.rxcr < c.numRxComp := h.rxcr ▸ Nat.mod_lt _ hc
    split
    · rw [show s.rxcr+1 = c.numRxComp by omega,Nat.mod_self]
    · rw [Nat.mod_eq_of_lt (by omega)]
  have horder : s.cleared ++ [s.rxcr] =
      (range (s.cleared ++ [s.rxcr]).length).map (· % c.numRxComp) := by
    rw [length_append,length_singleton,range_succ,map_append,← h.order,map_singleton,← h.rxcr]
  have hreturned : (s.posts.map Prod.fst).sum+(s.rxBurstRCRcount+1) =
      (s.cleared ++ [s.rxcr]).length := by
    rw [length_append,length_singleton,← h.returned,add_assoc]
  unfold Vmac.rxEntry
  by_cases hv : f.valid = true
  · obtain ⟨halloc,hd,herr⟩ := hf hv
    obtain ⟨f',hf',hl,hskb,hfreed⟩ := h.linked.replace hd h.fresh.1 h.fresh.2
    have hup : ∀ e ∈ (s.toPassed.frame f).up, e.errorInd = false := by
      have := h.up
      unfold Passed.frame
      grind
    rw [if_pos hv,if_pos halloc,hf']
    refine ⟨_,rfl,⟨hreturned,horder,h.posts,hup⟩,hl,hrxcr,fun e => ?_,?_⟩
    · have := h.fresh.1 e
      simp only [hskb,update_apply]
      split <;> omega
    · simp only [hfreed,forall_mem_append,forall_mem_singleton]
      exact ⟨fun b hb => Nat.lt_succ_of_lt (h.fresh.2 b hb),Nat.lt_succ_of_lt (h.fresh.1 _)⟩
  · rw [if_neg hv]
    exact ⟨_,rfl,⟨hreturned,horder,h.posts,h.up⟩,h.linked,hrxcr,h.fresh⟩

lemma linked_nil (next : ℕ → Option ℕ) (skb : ℕ → ℕ) (freed : List ℕ) :
    Fbl.Linked { next := next, skb := skb, freed := freed } :=
  ⟨rfl,nodup_nil,⟨none,rfl,fun _ => rfl⟩,rfl,nofun⟩

lemma Inv.loop (h : Inv c s) (hc : 0 < c.numRxComp) {fs : List Found} (hf : loopFits c s fs = true) :
    ∃ s', fs.foldlM (Vmac.rxEntry c) s = some s' ∧ Inv c (post c s') := by
  induction fs generalizing s with
  | nil =>
    refine ⟨s,rfl,?_⟩
    have hne : c.burstThreshold < s.rxBurstRCRcount → s.queue ≠ [] := of_decide_eq_true hf
    unfold post
    split
    next hlt =>
      refine ⟨⟨by simp [h.returned],h.order,?_,h.up⟩,linked_nil _ _ _,h.rxcr,h.fresh⟩
      exact forall_mem_append.mpr ⟨h.posts,by simpa using ⟨h.linked,hne hlt⟩⟩
    · exact h
  | cons f fs ih =>
    rw [loopFits,Bool.and_eq_true] at hf
    obtain ⟨s',hs',h'⟩ := h.rxEntry hc (of_decide_eq_true hf.1)
    rw [hs'] at hf
    rw [foldlM_cons,hs']
    exact ih h' hf.2

lemma Inv.step {s : Dev} (h : Inv c s.toPriv) (hp : s.scheduled = !s.intMask) (hc : 0 < c.numRxComp)
    {e : Event} (he : e.fits c s = true) :
    ∃ s', step c s e = some s' ∧ Inv c s'.toPriv ∧ s'.scheduled = !s'.intMask := by
  cases e with
  | handleRxInt =>
    refine ⟨_,rfl,?_⟩
    split
    · exact ⟨h,rfl⟩
    · exact ⟨h,hp⟩
  | rxTasklet rcrPendEnt found =>
    rw [Vmac.step]
    by_cases hs : s.scheduled = true
    · have hfits : loopFits c s.toPriv (serviced c s.toPriv rcrPendEnt found) = true := by
        simpa [Event.fits,hs] using he
      obtain ⟨s',hs',h'⟩ := h.loop hc hfits
      rw [if_pos hs,vmacRxirq,hs']
      exact ⟨_,rfl,h',by simp [show s.intMask = false by simpa [hs] using hp]⟩
    · rw [if_neg hs]
      exact ⟨s,rfl,h,hp⟩

lemma Inv.run {s : Dev} (h : Inv c s.toPriv) (hp : s.scheduled = !s.intMask) (hc : 0 < c.numRxComp)
    {es : List Event} (hes : runFits c s es = true) :
    ∃ s', es.foldlM (Vmac.step c) s = some s' ∧ Inv c s'.toPriv ∧ s'.scheduled = !s'.intMask := by
  induction es generalizing s with
  | nil => exact ⟨s,rfl,h,hp⟩
  | cons e es ih =>
    rw [runFits,Bool.and_eq_true] at hes
    obtain ⟨s',hs',h',hp'⟩ := h.step hp hc hes.1
    rw [hs'] at hes
    rw [foldlM_cons,hs']
    exact ih h' hp' hes.2

/-- In a run that meets the condition the driver follows no null pointer, the states are good, and
either the interrupt is enabled or the tasklet is scheduled. -/
theorem good_of_run (c : Config) (hc : 0 < c.numRxComp) (next : ℕ → Option ℕ) {skb : ℕ → ℕ}
    {allocated : ℕ} (hskb : ∀ d, skb d < allocated) {es : List Event}
    (h : runFits c { next := next, skb := skb, allocated := allocated } es = true) :
    ∃ s, es.foldlM (step c) { next := next, skb := skb, allocated := allocated } = some s ∧
      Good c s.toPriv ∧ s.scheduled = !s.intMask := by
  have hinit : Inv c { next := next, skb := skb, allocated := allocated } :=
    ⟨⟨rfl,rfl,nofun,nofun⟩,linked_nil _ _ _,(Nat.zero_mod _).symm,hskb,nofun⟩
  obtain ⟨s,hs,hgood,hmask⟩ := Inv.run hinit rfl hc h
  exact ⟨s,hs,hgood.toGood,hmask⟩

def evm3 : Config := ⟨256,100,128⟩

def frameAt (d : ℕ) : Found := ⟨⟨true,false,64,d,64,false⟩,true,true⟩

/-- A burst of 101 frames is returned with its descriptors. -/
theorem good_of_run_burst : ∃ s,
    [.handleRxInt,.rxTasklet 101 frameAt].foldlM (step evm3)
      { next := fun _ => none, skb := fun d => d % 256, allocated := 256 } = some s ∧
      Good evm3 s.toPriv ∧ s.scheduled = !s.intMask :=
  good_of_run evm3 (by decide) _ (fun d => Nat.mod_lt d (by decide)) (by decide +kernel)

/-- A frame with an error is passed up if its descriptor has another length, the driver follows a
null pointer if there is no memory for a new buffer, and entries without a descriptor lead to a
burst of no descriptors at address 0. -/
theorem vmacRxirq_fails :
    let s : Priv := { next := fun _ => none, skb := fun d => d % 256, allocated := 256 }
    let bad : Found := ⟨⟨true,true,64,0,60,false⟩,true,true⟩
    (vmacRxirq evm3 s 1 fun _ => bad).map (fun r => r.2.up) = some [bad.toRxCompring] ∧
    (vmacRxirq evm3 s 1 fun d => { frameAt d with alloc := false }).isNone ∧
    (vmacRxirq evm3 s 101 fun d => { frameAt d with valid := false }).map
      (fun r => r.2.posts.map fun p => (p.1,p.2.rxBurstbufcount,p.2.rxBurstbufstart)) =
        some [(101,0,none)] := by
  decide +kernel

end DslG624t.Vmac
