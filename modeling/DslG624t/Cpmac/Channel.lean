import DslG624t.Lib.Ledger

/-!
# Opening and closing a channel

`DDC_cpmacChOpen` allocates what a channel needs and `DDC_cpmacChClose` gives it back.
The queues of a channel depend on two options of the build. An allocation that fails
ends the opening where it stands, and what has been obtained by then is rarely given
back.
-/

namespace DslG624t.Cpmac.Channel

open Function List

/-- The options `CPMAC_MULTIPACKET_TX_COMPLETE_NOTIFY` and
`CPMAC_MULTIPACKET_RX_COMPLETE_NOTIFY`. -/
structure Build where
  txNotify : Bool
  rxNotify : Bool

structure Allocs where
  cppi : Bool
  txComplete : Bool
  bdMem : Bool
  pktQueue : Bool
  bufQueue : Bool
  rxBuf : ℕ → Bool

inductive ChDir
  | tx
  | rx
  | bidirectional
  | undefined
  deriving DecidableEq

inductive ChState
  | uninitialized
  | initialized
  | opened
  | closeInProgress
  | closed
  deriving DecidableEq

structure ChInfo where
  chNum : ℕ
  chDir : ChDir
  chState : ChState
  numBD : ℕ

inductive Result
  | success
  | invalidParam
  | osError
  | txChInvalid
  | txChAlreadyInit
  | txChAlreadyClosed
  | rxChInvalid
  | rxChAlreadyInit
  | rxChAlreadyClosed
  | rxBufferAllocFail
  -- a null pointer is read
  | fault
  deriving DecidableEq

structure TxCppiCh where
  txComplete : Option ℕ
  bdMem : Option ℕ
  deriving DecidableEq

/-- `activeQueue` are the buffers of the descriptors from `activeQueueHead` on. -/
structure RxCppiCh where
  bdMem : Option ℕ
  pktQueue : Option ℕ
  bufQueue : Option ℕ
  activeQueue : List ℕ
  deriving DecidableEq

/-- Pointers are numbers of blocks. `txMem` and `rxMem` are what the control structures hold. -/
structure Device where
  mem : Ledger
  txMem : ℕ → TxCppiCh
  rxMem : ℕ → RxCppiCh
  txCppi : ℕ → Option ℕ
  rxCppi : ℕ → Option ℕ
  txIsCreated : ℕ → Bool
  rxIsCreated : ℕ → Bool
  txIsOpen : ℕ → Bool
  rxIsOpen : ℕ → Bool
  numTxChannels : ℕ
  numRxChannels : ℕ
  opened : Bool

/-- `cpmacInitTxChannel` from the pool of descriptors on. -/
def initTxPool (ok : Allocs) (d : Device) (chNum txCppi : ℕ) : Result × Device :=
  match d.mem.alloc ok.bdMem with
  | (none,mem) => (.osError,{ d with mem })
  | (some bdMem,mem) =>
    (.success,{ d with
      mem
      txMem := update d.txMem txCppi { d.txMem txCppi with bdMem := some bdMem }
      txIsCreated := update d.txIsCreated chNum true })

def cpmacInitTxChannel (b : Build) (ok : Allocs) (d : Device) (chInfo : ChInfo) :
    Result × Device :=
  match d.mem.alloc ok.cppi with
  | (none,mem) => (.osError,{ d with mem })
  | (some txCppi,mem) =>
    let d := { d with
      mem
      txMem := update d.txMem txCppi ⟨none,none⟩
      txCppi := update d.txCppi chInfo.chNum (some txCppi) }
    if b.txNotify then
      match d.mem.alloc ok.txComplete with
      | (none,mem) => (.osError,{ d with mem := mem.free txCppi })
      | (some txComplete,mem) =>
        let d := { d with
          mem
          txMem := update d.txMem txCppi
            { d.txMem txCppi with txComplete := some txComplete } }
        initTxPool ok d chInfo.chNum txCppi
    else initTxPool ok d chInfo.chNum txCppi

def cpmacUnInitTxChannel (b : Build) (d : Device) (channel : ℕ) : Result × Device :=
  if d.txIsCreated channel = false then (.txChAlreadyClosed,d)
  else
    match d.txCppi channel with
    | none => (.fault,d)
    | some txCppi =>
      let mem := d.mem.freePtr (d.txMem txCppi).bdMem
      let mem := if b.txNotify then mem.freePtr (d.txMem txCppi).txComplete else mem
      (.success,{ d with
        mem := mem.free txCppi
        txCppi := update d.txCppi channel none
        txIsCreated := update d.txIsCreated channel false })

/-- The loop over the descriptors of a receive channel, each of which gets a buffer. -/
def allocRxBufs (ok : Allocs) (rxCppi : ℕ) : ℕ → ℕ → Device → Bool × Device
  | 0, _, d => (true,d)
  | n+1, cnt, d =>
    match d.mem.alloc (ok.rxBuf cnt) with
    | (none,mem) => (false,{ d with mem })
    | (some dataPtr,mem) =>
      allocRxBufs ok rxCppi n (cnt+1) { d with
        mem
        rxMem := update d.rxMem rxCppi
          { d.rxMem rxCppi with activeQueue := dataPtr :: (d.rxMem rxCppi).activeQueue } }

def initRxBufs (ok : Allocs) (d : Device) (chInfo : ChInfo) (rxCppi : ℕ) : Result × Device :=
  match allocRxBufs ok rxCppi chInfo.numBD 0 d with
  | (false,d) => (.rxBufferAllocFail,d)
  | (true,d) =>
    (.success,{ d with rxIsCreated := update d.rxIsCreated chInfo.chNum true })

/-- `cpmacInitRxChannel` from the queues on. -/
def initRxQueues (b : Build) (ok : Allocs) (d : Device) (chInfo : ChInfo) (rxCppi : ℕ) :
    Result × Device :=
  if b.rxNotify then
    match d.mem.alloc ok.pktQueue with
    | (none,mem) => (.osError,{ d with mem := mem.free rxCppi })
    | (some pktQueue,mem) =>
      let d := { d with
        mem
        rxMem := update d.rxMem rxCppi
          { d.rxMem rxCppi with pktQueue := some pktQueue } }
      match d.mem.alloc ok.bufQueue with
      -- the packet queue is meant first, but the control structure is freed for it
      | (none,mem) => (.osError,{ d with mem := (mem.free rxCppi).free rxCppi })
      | (some bufQueue,mem) =>
        let d := { d with
          mem
          rxMem := update d.rxMem rxCppi
            { d.rxMem rxCppi with bufQueue := some bufQueue } }
        initRxBufs ok d chInfo rxCppi
  else initRxBufs ok d chInfo rxCppi

def cpmacInitRxChannel (b : Build) (ok : Allocs) (d : Device) (chInfo : ChInfo) :
    Result × Device :=
  match d.mem.alloc ok.cppi with
  | (none,mem) => (.osError,{ d with mem })
  | (some rxCppi,mem) =>
    let d := { d with
      mem
      rxMem := update d.rxMem rxCppi ⟨none,none,none,[]⟩
      rxCppi := update d.rxCppi chInfo.chNum (some rxCppi) }
    match d.mem.alloc ok.bdMem with
    | (none,mem) => (.osError,{ d with mem })
    | (some bdMem,mem) =>
      let d := { d with
        mem
        rxMem := update d.rxMem rxCppi { d.rxMem rxCppi with bdMem := some bdMem } }
      initRxQueues b ok d chInfo rxCppi

def cpmacUnInitRxChannel (d : Device) (channel : ℕ) : Result × Device :=
  if d.rxIsCreated channel = false then (.rxChAlreadyClosed,d)
  else
    match d.rxCppi channel with
    | none => (.fault,d)
    | some rxCppi =>
      let mem := d.mem.freeAll (d.rxMem rxCppi).activeQueue
      let mem := mem.freePtr (d.rxMem rxCppi).bdMem
      (.success,{ d with
        mem := mem.free rxCppi
        rxCppi := update d.rxCppi channel none
        rxIsCreated := update d.rxIsCreated channel false })

def cpmacEnableChannel (d : Device) (channel : ℕ) : ChDir → Result × Device
  | .tx =>
    if d.txCppi channel = none then (.txChInvalid,d)
    else (.success,{ d with txIsOpen := update d.txIsOpen channel true })
  | .rx =>
    if d.rxCppi channel = none then (.rxChInvalid,d)
    else (.success,{ d with rxIsOpen := update d.rxIsOpen channel true })
  | _ => (.success,d)

def cpmacDisableChannel (d : Device) (channel : ℕ) : ChDir → Device
  | .tx => { d with txIsOpen := update d.txIsOpen channel false }
  | .rx => { d with rxIsOpen := update d.rxIsOpen channel false }
  | _ => d

def enableIfOpened (d : Device) (chInfo : ChInfo) : Result × Device :=
  if d.opened then cpmacEnableChannel d chInfo.chNum chInfo.chDir else (.success,d)

def ddcCpmacChOpen (b : Build) (ok : Allocs) (d : Device) (chInfo : ChInfo) : Result × Device :=
  if chInfo.chState ≠ .uninitialized then (.invalidParam,d)
  else
    match chInfo.chDir with
    | .tx =>
      if d.numTxChannels ≤ chInfo.chNum then (.txChInvalid,d)
      else if d.txIsCreated chInfo.chNum then (.txChAlreadyInit,d)
      else
        let r := cpmacInitTxChannel b ok d chInfo
        if r.1 ≠ .success then r else enableIfOpened r.2 chInfo
    | .rx =>
      if d.numRxChannels ≤ chInfo.chNum then (.rxChInvalid,d)
      else if d.rxIsCreated chInfo.chNum then (.rxChAlreadyInit,d)
      else
        let r := cpmacInitRxChannel b ok d chInfo
        if r.1 ≠ .success then r else enableIfOpened r.2 chInfo
    | _ => enableIfOpened d chInfo

def ddcCpmacChClose (b : Build) (d : Device) (channel : ℕ) (direction : ChDir) :
    Result × Device :=
  let d := if d.opened then cpmacDisableChannel d channel direction else d
  match direction with
  | .tx => cpmacUnInitTxChannel b d channel
  | .rx => cpmacUnInitRxChannel d channel
  | _ => (.success,d)

variable {b : Build} {ok : Allocs} {d d' : Device} {chInfo : ChInfo}

/-- No allocation that the direction asks for fails. -/
def NoneFails (b : Build) (ok : Allocs) (chInfo : ChInfo) : Prop :=
  match chInfo.chDir with
  | .tx => ok.cppi = true ∧ (b.txNotify = true → ok.txComplete = true) ∧ ok.bdMem = true
  | .rx => ok.cppi = true ∧ ok.bdMem = true ∧
    (b.rxNotify = true → ok.pktQueue = true ∧ ok.bufQueue = true) ∧
    ∀ i < chInfo.numBD, ok.rxBuf i = true
  | _ => True

def PointersLive (d : Device) : Prop :=
  ∀ ch p, d.txCppi ch = some p ∨ d.rxCppi ch = some p → d.mem.Live p

variable {i n p ch cnt : ℕ} {r : Result × Device}

/-- The opening fails, and a block is lost or freed under the pointer of a channel. -/
def Spoils (d : Device) (r : Result × Device) : Prop :=
  r.1 ≠ .success ∧ ¬(d.mem.Balances r.2.mem ∧ PointersLive r.2)

lemma spoils_of_leak {bs : List ℕ} (hr : r.1 ≠ .success) (hlo : d.mem.issued ≤ p)
    (hhi : p < r.2.mem.issued) (hfreed : r.2.mem.freed = d.mem.freed ++ bs) (hp : p ∉ bs) :
    Spoils d r :=
  ⟨hr,fun h => Ledger.not_balances_of_leak hlo hhi hfreed hp h.1⟩

lemma initTx_of_fails (h : ok.cppi = true)
    (hfail : ¬((b.txNotify = true → ok.txComplete = true) ∧ ok.bdMem = true)) :
    Spoils d (cpmacInitTxChannel b ok d chInfo) := by
  by_cases hq : b.txNotify = true → ok.txComplete = true
  · -- the control structure and the queue stay behind
    have hbd : ok.bdMem = false := Bool.eq_false_iff.mpr fun hbd => hfail ⟨hq,hbd⟩
    refine @spoils_of_leak _ _ _ [] ?_ (le_refl d.mem.issued) ?_ ?_ not_mem_nil <;>
      cases hb : b.txNotify <;>
      simp_all [cpmacInitTxChannel,initTxPool,add_assoc]
  -- the channel points to the control structure, which is freed
  push Not at hq
  refine ⟨by simp [cpmacInitTxChannel,h,hq],fun hbal => ?_⟩
  refine (hbal.2 chInfo.chNum d.mem.issued (.inl ?_)).2 ?_ <;>
    simp [cpmacInitTxChannel,h,hq,Ledger.free]

lemma allocRxBufs_of_noneFails (h : ∀ i < n, ok.rxBuf (cnt+i) = true) :
    allocRxBufs ok p n cnt d = (true,{ d with
      mem := { d.mem with issued := d.mem.issued+n }
      rxMem := update d.rxMem p { d.rxMem p with
        activeQueue := (range' d.mem.issued n).reverse ++ (d.rxMem p).activeQueue } }) := by
  induction n generalizing cnt d with
  | zero => simp [allocRxBufs]
  | succ n ih =>
    have h0 : ok.rxBuf cnt = true := h 0 (Nat.succ_pos n)
    have hrest : ∀ i < n, ok.rxBuf (cnt+1+i) = true := by
      intro i hi
      rw [add_assoc,add_comm 1]
      exact h (i+1) (Nat.succ_lt_succ hi)
    simp only [allocRxBufs,h0,Ledger.alloc_true,ih hrest]
    simp [range'_succ,add_assoc,add_comm 1]

lemma allocRxBufs_of_fails (hi : i < n) (hfail : ok.rxBuf (cnt+i) = false) :
    ∃ d', allocRxBufs ok p n cnt d = (false,d') ∧ d.mem.issued ≤ d'.mem.issued ∧
      d'.mem.freed = d.mem.freed := by
  induction n generalizing cnt d i with
  | zero => exact absurd hi (Nat.not_lt_zero i)
  | succ n ih =>
    cases h0 : ok.rxBuf cnt with
    | false => exact ⟨d,by simp [allocRxBufs,h0],le_refl _,rfl⟩
    | true =>
      obtain ⟨i,rfl⟩ : ∃ j, i = j+1 := by
        refine Nat.exists_eq_succ_of_ne_zero ?_
        rintro rfl
        simp [h0] at hfail
      rw [add_comm i,← add_assoc] at hfail
      simp only [allocRxBufs,h0,Ledger.alloc_true]
      obtain ⟨d',hr,hle,hfreed⟩ := ih (Nat.lt_of_succ_lt_succ hi) hfail
      exact ⟨d',hr,le_trans (Nat.le_succ _) hle,hfreed⟩

/-- The opening fails, and since `m` nothing but `p` was freed. -/
def FreesOnly (p : ℕ) (m : Ledger) (r : Result × Device) : Prop :=
  r.1 ≠ .success ∧ m.issued ≤ r.2.mem.issued ∧
    ∃ bs, r.2.mem.freed = m.freed ++ bs ∧ ∀ x ∈ bs, x = p

lemma initRxBufs_of_fails {m : Ledger} (hle : m.issued ≤ d.mem.issued)
    (hfreed : d.mem.freed = m.freed) (hfail : ¬∀ i < chInfo.numBD, ok.rxBuf i = true) :
    FreesOnly p m (initRxBufs ok d chInfo p) := by
  push Not at hfail
  obtain ⟨i,hi,hok⟩ := hfail
  obtain ⟨d',hr,hle',hfreed'⟩ := @allocRxBufs_of_fails ok d _ _ p 0 hi
    (by simpa using hok)
  rw [initRxBufs,hr]
  refine ⟨nofun,hle.trans hle',[],?_,by simp⟩
  rw [hfreed',hfreed,append_nil]

lemma initRxQueues_of_fails
    (hfail : ¬((b.rxNotify = true → ok.pktQueue = true ∧ ok.bufQueue = true) ∧
      ∀ i < chInfo.numBD, ok.rxBuf i = true)) :
    FreesOnly p d.mem (initRxQueues b ok d chInfo p) := by
  unfold initRxQueues
  cases hb : b.rxNotify with
  | false => exact initRxBufs_of_fails (le_refl _) rfl (by simpa [hb] using hfail)
  | true =>
    cases hpkt : ok.pktQueue with
    | false => exact ⟨nofun,le_refl _,[p],rfl,by simp⟩
    | true =>
      cases hbuf : ok.bufQueue with
      | false =>
        refine ⟨nofun,Nat.le_succ _,[p,p],?_,by simp⟩
        exact append_assoc ..
      | true =>
        refine initRxBufs_of_fails (Nat.le_add_right _ 2) rfl ?_
        simpa [hpkt,hbuf] using hfail

lemma initRx_of_fails (h : ok.cppi = true)
    (hfail : ¬(ok.bdMem = true ∧ (b.rxNotify = true → ok.pktQueue = true ∧ ok.bufQueue = true) ∧
      ∀ i < chInfo.numBD, ok.rxBuf i = true)) :
    Spoils d (cpmacInitRxChannel b ok d chInfo) := by
  unfold cpmacInitRxChannel
  cases hbd : ok.bdMem with
  | false =>
    simp only [h,Ledger.alloc_true,Ledger.alloc_false]
    refine spoils_of_leak nofun (le_refl d.mem.issued) ?_ (append_nil _).symm not_mem_nil
    exact Nat.lt_succ_self _
  | true =>
    simp only [hbd,true_and] at hfail
    simp only [h,Ledger.alloc_true]
    obtain ⟨hr,hle,bs,hfreed,hbs⟩ := initRxQueues_of_fails hfail
    refine spoils_of_leak hr (Nat.le_succ d.mem.issued) ?_ hfreed ?_
    · exact lt_of_lt_of_le (Nat.lt_succ_self _) hle
    · intro hmem
      exact absurd (hbs _ hmem) (Nat.succ_ne_self _)

structure TxOpened (b : Build) (d d' : Device) (chNum : ℕ) : Prop where
  issued : d'.mem.issued = d.mem.issued+if b.txNotify then 3 else 2
  freed : d'.mem.freed = d.mem.freed
  blocks : d'.txMem d.mem.issued =
    if b.txNotify then ⟨some (d.mem.issued+1),some (d.mem.issued+2)⟩
    else ⟨none,some (d.mem.issued+1)⟩
  txCppi : d'.txCppi chNum = some d.mem.issued
  created : d'.txIsCreated chNum = true

structure RxOpened (b : Build) (d d' : Device) (chInfo : ChInfo) : Prop where
  issued : d'.mem.issued = d.mem.issued+(if b.rxNotify then 4 else 2)+chInfo.numBD
  freed : d'.mem.freed = d.mem.freed
  bdMem : (d'.rxMem d.mem.issued).bdMem = some (d.mem.issued+1)
  activeQueue : (d'.rxMem d.mem.issued).activeQueue =
    (range' (d.mem.issued+if b.rxNotify then 4 else 2) chInfo.numBD).reverse
  rxCppi : d'.rxCppi chInfo.chNum = some d.mem.issued
  created : d'.rxIsCreated chInfo.chNum = true

lemma initTx_of_noneFails (h : ok.cppi = true)
    (hq : b.txNotify = true → ok.txComplete = true) (hbd : ok.bdMem = true) :
    ∃ d', cpmacInitTxChannel b ok d chInfo = (.success,d') ∧ TxOpened b d d' chInfo.chNum := by
  refine ⟨(cpmacInitTxChannel b ok d chInfo).2,Prod.ext ?_ rfl,?_⟩
  · cases hb : b.txNotify <;> simp_all [cpmacInitTxChannel,initTxPool]
  · cases hb : b.txNotify <;> constructor <;> simp_all [cpmacInitTxChannel,initTxPool]

lemma initRx_of_noneFails (h : ok.cppi = true) (hbd : ok.bdMem = true)
    (hq : b.rxNotify = true → ok.pktQueue = true ∧ ok.bufQueue = true)
    (hbuf : ∀ i < chInfo.numBD, ok.rxBuf i = true) :
    ∃ d', cpmacInitRxChannel b ok d chInfo = (.success,d') ∧ RxOpened b d d' chInfo := by
  have hbufs {d1 : Device} {p : ℕ} : allocRxBufs ok p chInfo.numBD 0 d1 = _ :=
    allocRxBufs_of_noneFails (by simpa using hbuf)
  refine ⟨(cpmacInitRxChannel b ok d chInfo).2,Prod.ext ?_ rfl,?_⟩
  · cases hb : b.rxNotify <;> simp_all [cpmacInitRxChannel,initRxQueues,initRxBufs]
  · cases hb : b.rxNotify <;> constructor <;>
      simp_all [cpmacInitRxChannel,initRxQueues,initRxBufs]

lemma unInitTx_of_opened (h : TxOpened b d d' ch) :
    (cpmacUnInitTxChannel b d' ch).1 = .success ∧
      d.mem.Balances (cpmacUnInitTxChannel b d' ch).2.mem := by
  have hissued := h.issued
  have hblocks := h.blocks
  unfold cpmacUnInitTxChannel
  rw [if_neg (by simp [h.created]),h.txCppi]
  refine ⟨rfl,?_⟩
  dsimp only
  cases hb : b.txNotify with
  | false =>
    rw [hb] at hissued hblocks
    rw [hblocks]
    refine Ledger.balances_of_reverse (n := 2) (by exact hissued) ?_
    simp [Ledger.freePtr,Ledger.free,h.freed,range'_succ]
  | true =>
    rw [hb] at hissued hblocks
    rw [hblocks]
    refine Ledger.balances_of_reverse (n := 3) (by exact hissued) ?_
    simp [Ledger.freePtr,Ledger.free,h.freed,range'_succ]

lemma unInitRx_of_opened (h : RxOpened b d d' chInfo) :
    (cpmacUnInitRxChannel d' chInfo.chNum).1 = .success ∧
      (d.mem.Balances (cpmacUnInitRxChannel d' chInfo.chNum).2.mem ↔ b.rxNotify = false) := by
  have hissued := h.issued
  have hqueue := h.activeQueue
  unfold cpmacUnInitRxChannel
  rw [if_neg (by simp [h.created]),h.rxCppi]
  refine ⟨rfl,?_⟩
  simp only [h.bdMem,Ledger.freeAll_eq,Ledger.freePtr,Ledger.free,h.freed,hqueue,append_assoc]
  cases hb : b.rxNotify with
  | false =>
    rw [hb,if_neg (by decide)] at hissued
    refine iff_of_true (Ledger.balances_of_reverse (n := 2+chInfo.numBD) ?_ ?_) rfl
    · exact hissued.trans (add_assoc ..)
    · rw [add_comm 2]
      simp [range'_succ,add_assoc]
  | true =>
    rw [hb,if_pos rfl] at hissued
    refine iff_of_false ?_ (by decide)
    refine Ledger.not_balances_of_leak (b := d.mem.issued+2) (Nat.le_add_right _ 2) ?_ rfl ?_
    · exact hissued ▸ (by omega)
    · simp

/-- The checks that come before any allocation. -/
def Rejected (d : Device) (chInfo : ChInfo) : Prop :=
  chInfo.chState ≠ .uninitialized ∨
    match chInfo.chDir with
    | .tx => d.numTxChannels ≤ chInfo.chNum ∨ d.txIsCreated chInfo.chNum = true
    | .rx => d.numRxChannels ≤ chInfo.chNum ∨ d.rxIsCreated chInfo.chNum = true
    | _ => False

/-- An opening that fails has given back what it obtained, each block once, and leaves no channel
pointer to freed memory. An opening that succeeds is undone by the closing. -/
def KeepsBalance (b : Build) (ok : Allocs) (d : Device) (chInfo : ChInfo) : Prop :=
  let r := ddcCpmacChOpen b ok d chInfo
  (r.1 ≠ .success → d.mem.Balances r.2.mem ∧ PointersLive r.2) ∧
    (r.1 = .success → (ddcCpmacChClose b r.2 chInfo.chNum chInfo.chDir).1 = .success ∧
        d.mem.Balances (ddcCpmacChClose b r.2 chInfo.chNum chInfo.chDir).2.mem)

lemma open_of_rejected (h : Rejected d chInfo) :
    ∃ e, e ≠ .success ∧ ddcCpmacChOpen b ok d chInfo = (e,d) := by
  unfold ddcCpmacChOpen
  by_cases hstate : chInfo.chState = .uninitialized
  · have h := h.resolve_left (not_not_intro hstate)
    rw [if_neg (not_not_intro hstate)]
    cases hdir : chInfo.chDir with
    | tx =>
      rw [hdir] at h
      by_cases hnum : d.numTxChannels ≤ chInfo.chNum
      · exact ⟨.txChInvalid,by decide,by simp [hnum]⟩
      · exact ⟨.txChAlreadyInit,by decide,by simp [hnum,h.resolve_left hnum]⟩
    | rx =>
      rw [hdir] at h
      by_cases hnum : d.numRxChannels ≤ chInfo.chNum
      · exact ⟨.rxChInvalid,by decide,by simp [hnum]⟩
      · exact ⟨.rxChAlreadyInit,by decide,by simp [hnum,h.resolve_left hnum]⟩
    | bidirectional => rw [hdir] at h; exact h.elim
    | undefined => rw [hdir] at h; exact h.elim
  · exact ⟨.invalidParam,by decide,if_pos hstate⟩

def initChannel (b : Build) (ok : Allocs) (d : Device) (chInfo : ChInfo) : Result × Device :=
  match chInfo.chDir with
  | .tx => cpmacInitTxChannel b ok d chInfo
  | .rx => cpmacInitRxChannel b ok d chInfo
  | _ => (.success,d)

def unInitChannel (b : Build) (d : Device) (channel : ℕ) : ChDir → Result × Device
  | .tx => cpmacUnInitTxChannel b d channel
  | .rx => cpmacUnInitRxChannel d channel
  | _ => (.success,d)

lemma open_eq (h : ¬Rejected d chInfo) : ddcCpmacChOpen b ok d chInfo =
    if (initChannel b ok d chInfo).1 ≠ .success then initChannel b ok d chInfo
    else enableIfOpened (initChannel b ok d chInfo).2 chInfo := by
  unfold Rejected at h
  unfold ddcCpmacChOpen initChannel
  cases hdir : chInfo.chDir <;> simp_all

lemma keepsBalance_of_failed (hr : ddcCpmacChOpen b ok d chInfo = r) (hne : r.1 ≠ .success) :
    KeepsBalance b ok d chInfo ↔ d.mem.Balances r.2.mem ∧ PointersLive r.2 := by
  unfold KeepsBalance
  rw [hr]
  exact ⟨fun h => h.1 hne,fun h => ⟨fun _ => h,fun hs => absurd hs hne⟩⟩

lemma not_keepsBalance_of_spoils (h : ¬Rejected d chInfo)
    (hr : Spoils d (initChannel b ok d chInfo)) : ¬KeepsBalance b ok d chInfo := by
  have hopen := @open_eq b ok _ _ h
  rw [if_pos hr.1] at hopen
  exact fun hk => hr.2 ((keepsBalance_of_failed hopen hr.1).mp hk)

/-- Enabling and disabling write the two marks only. -/
def Device.marked (d : Device) (tx rx : ℕ → Bool) : Device :=
  { d with txIsOpen := tx, rxIsOpen := rx }

lemma keepsBalance_of_opened (h : ¬Rejected d chInfo)
    (hinit : initChannel b ok d chInfo = (.success,d'))
    (htx : chInfo.chDir = .tx → d'.txCppi chInfo.chNum ≠ none)
    (hrx : chInfo.chDir = .rx → d'.rxCppi chInfo.chNum ≠ none) :
    ∃ tx rx, KeepsBalance b ok d chInfo ↔
      (unInitChannel b (d'.marked tx rx) chInfo.chNum chInfo.chDir).1 = .success ∧
      d.mem.Balances (unInitChannel b (d'.marked tx rx) chInfo.chNum chInfo.chDir).2.mem := by
  have henable : ∃ tx rx, enableIfOpened d' chInfo = (.success,d'.marked tx rx) := by
    unfold enableIfOpened
    cases d'.opened with
    | false => exact ⟨_,_,rfl⟩
    | true =>
      cases hdir : chInfo.chDir with
      | tx => exact ⟨_,_,if_neg (htx hdir)⟩
      | rx => exact ⟨_,_,if_neg (hrx hdir)⟩
      | bidirectional => exact ⟨_,_,rfl⟩
      | undefined => exact ⟨_,_,rfl⟩
  obtain ⟨tx1,rx1,henable⟩ := henable
  have hclose : ∃ tx rx, ddcCpmacChClose b (d'.marked tx1 rx1) chInfo.chNum chInfo.chDir =
      unInitChannel b (d'.marked tx rx) chInfo.chNum chInfo.chDir := by
    unfold ddcCpmacChClose
    cases (d'.marked tx1 rx1).opened <;> cases chInfo.chDir <;> exact ⟨_,_,rfl⟩
  obtain ⟨tx,rx,hclose⟩ := hclose
  refine ⟨tx,rx,?_⟩
  have hopen := @open_eq b ok _ _ h
  rw [hinit,if_neg (not_not_intro rfl),henable] at hopen
  unfold KeepsBalance
  rw [hopen]
  dsimp only
  rw [hclose]
  exact ⟨fun h => h.2 rfl,fun h => ⟨fun hne => absurd rfl hne,fun _ => h⟩⟩

lemma keepsBalance_tx_iff (hrej : ¬Rejected d chInfo) (hdir : chInfo.chDir = .tx)
    (hcppi : ok.cppi = true) : KeepsBalance b ok d chInfo ↔ NoneFails b ok chInfo := by
  have hinit : initChannel b ok d chInfo = cpmacInitTxChannel b ok d chInfo := by
    rw [initChannel,hdir]
  simp only [NoneFails,hdir,hcppi,true_and]
  by_cases hok : (b.txNotify = true → ok.txComplete = true) ∧ ok.bdMem = true
  · refine iff_of_true ?_ hok
    obtain ⟨d',hd',hopened⟩ := @initTx_of_noneFails _ _ d chInfo hcppi hok.1 hok.2
    obtain ⟨tx,rx,hiff⟩ := keepsBalance_of_opened hrej (hinit.trans hd')
      (fun _ => by simp [hopened.txCppi]) (by simp [hdir])
    rw [hiff,hdir]
    exact unInitTx_of_opened ⟨hopened.1,hopened.2,hopened.3,hopened.4,hopened.5⟩
  · exact iff_of_false (not_keepsBalance_of_spoils hrej (hinit ▸ initTx_of_fails hcppi hok)) hok

lemma keepsBalance_rx_iff (hrej : ¬Rejected d chInfo) (hdir : chInfo.chDir = .rx)
    (hcppi : ok.cppi = true) :
    KeepsBalance b ok d chInfo ↔ NoneFails b ok chInfo ∧ b.rxNotify = false := by
  have hinit : initChannel b ok d chInfo = cpmacInitRxChannel b ok d chInfo := by
    rw [initChannel,hdir]
  simp only [NoneFails,hdir,hcppi,true_and]
  by_cases hok : ok.bdMem = true ∧
    (b.rxNotify = true → ok.pktQueue = true ∧ ok.bufQueue = true) ∧
    ∀ i < chInfo.numBD, ok.rxBuf i = true
  · rw [and_iff_right hok]
    obtain ⟨d',hd',hopened⟩ := initRx_of_noneFails (d := d) hcppi hok.1 hok.2.1 hok.2.2
    obtain ⟨tx,rx,hiff⟩ := keepsBalance_of_opened hrej (hinit.trans hd') (by simp [hdir])
      fun _ => by simp [hopened.rxCppi]
    have hclosed := @unInitRx_of_opened b d (d'.marked tx rx) _
      ⟨hopened.1,hopened.2,hopened.3,hopened.4,hopened.5,hopened.6⟩
    rw [hiff,hdir]
    exact (and_iff_right hclosed.1).trans hclosed.2
  · refine iff_of_false ?_ fun h => hok h.1
    exact not_keepsBalance_of_spoils hrej (hinit ▸ initRx_of_fails hcppi hok)

def Clean (b : Build) (ok : Allocs) (chInfo : ChInfo) : Prop :=
  ok.cppi = false ∨ (NoneFails b ok chInfo ∧ ¬(chInfo.chDir = .rx ∧ b.rxNotify = true))

/-- The openings after which the memory is in balance: those that are refused or get no control
structure, and those for which no allocation fails, except for a receive channel with queues of its
own, which the closing does not free. -/
theorem keepsBalance_iff (hd : PointersLive d) :
    KeepsBalance b ok d chInfo ↔ Rejected d chInfo ∨ Clean b ok chInfo := by
  by_cases hrej : Rejected d chInfo
  · obtain ⟨e,he,hopen⟩ : ∃ e, e ≠ .success ∧ ddcCpmacChOpen b ok d chInfo = (e,d) :=
      open_of_rejected hrej
    exact iff_of_true ((keepsBalance_of_failed hopen he).mpr ⟨.refl _,hd⟩) (.inl hrej)
  rw [or_iff_right hrej,Clean]
  have hrefused (hdir : chInfo.chDir = .tx ∨ chInfo.chDir = .rx) (hcppi : ok.cppi = false) :
      KeepsBalance b ok d chInfo := by
    have hopen := @open_eq b ok _ _ hrej
    have hinit : initChannel b ok d chInfo = (.osError,d) := by
      rcases hdir with hdir | hdir <;>
        simp [initChannel,hdir,cpmacInitTxChannel,cpmacInitRxChannel,hcppi]
    rw [hinit,if_pos nofun] at hopen
    exact (keepsBalance_of_failed hopen nofun).mpr ⟨.refl _,hd⟩
  have hother (htx : chInfo.chDir ≠ .tx) (hrx : chInfo.chDir ≠ .rx) :
      KeepsBalance b ok d chInfo ∧ NoneFails b ok chInfo := by
    have hinit : initChannel b ok d chInfo = (.success,d) := by
      cases hdir : chInfo.chDir <;> simp_all [initChannel]
    obtain ⟨tx,rx,hiff⟩ := keepsBalance_of_opened hrej hinit (absurd · htx) (absurd · hrx)
    rw [hiff]
    cases hdir : chInfo.chDir <;> simp_all [NoneFails,unInitChannel,Device.marked,Ledger.Balances.refl]
  cases hdir : chInfo.chDir with
  | tx =>
    cases hcppi : ok.cppi with
    | false => exact iff_of_true (hrefused (.inl hdir) hcppi) (.inl rfl)
    | true => simp [keepsBalance_tx_iff hrej hdir hcppi]
  | rx =>
    cases hcppi : ok.cppi with
    | false => exact iff_of_true (hrefused (.inr hdir) hcppi) (.inl rfl)
    | true => simp [keepsBalance_rx_iff hrej hdir hcppi]
  | bidirectional => simp [hother (by simp [hdir]) (by simp [hdir])]
  | undefined => simp [hother (by simp [hdir]) (by simp [hdir])]

/-- A device with no channel open yet. -/
def idle : Device where
  mem := ⟨0,[]⟩
  txMem := fun _ => ⟨none,none⟩
  rxMem := fun _ => ⟨none,none,none,[]⟩
  txCppi := fun _ => none
  rxCppi := fun _ => none
  txIsCreated := fun _ => false
  rxIsCreated := fun _ => false
  txIsOpen := fun _ => false
  rxIsOpen := fun _ => false
  numTxChannels := 1
  numRxChannels := 1
  opened := false

lemma pointersLive_idle : PointersLive idle := by
  rintro ch p (h | h)
  · exact absurd h nofun
  · exact absurd h nofun

theorem keepsBalance_iff_txOpened :
    KeepsBalance ⟨true,true⟩ ⟨true,true,true,true,true,fun _ => true⟩ idle
      ⟨0,.tx,.uninitialized,4⟩ :=
  (keepsBalance_iff pointersLive_idle).mpr (.inr (.inr ⟨⟨rfl,fun _ => rfl,rfl⟩,by decide⟩))

def rxInfo : ChInfo := ⟨0,.rx,.uninitialized,2⟩

def allocsWith (bufQueue : Bool) : Allocs := ⟨true,true,true,true,bufQueue,fun _ => true⟩

/-- Without memory for the buffer queue the control structure, block 0, is freed twice and the
channel still points to it, and the descriptors and the packet queue, blocks 1 and 2, are not
freed. When everything is there, the closing leaves the two queues, blocks 2 and 3. -/
theorem rx_queues_unbalanced :
    let failed := ddcCpmacChOpen ⟨true,true⟩ (allocsWith false) idle rxInfo
    let opened := ddcCpmacChOpen ⟨true,true⟩ (allocsWith true) idle rxInfo
    (failed.1 = .osError ∧ failed.2.mem = ⟨3,[0,0]⟩ ∧ failed.2.rxCppi 0 = some 0 ∧
      ¬KeepsBalance ⟨true,true⟩ (allocsWith false) idle rxInfo) ∧
    (opened.1 = .success ∧ (ddcCpmacChClose ⟨true,true⟩ opened.2 0 .rx).2.mem = ⟨6,[5,4,1,0]⟩ ∧
      ¬KeepsBalance ⟨true,true⟩ (allocsWith true) idle rxInfo) := by
  refine ⟨⟨by decide,by decide,by decide,?_⟩,by decide,by decide,?_⟩
  · intro h
    have hbal : Ledger.Balances ⟨0,[]⟩ ⟨3,[0,0]⟩ := (h.1 (by decide)).1
    exact Ledger.not_balances_of_leak (b := 1) (by decide) (by decide) rfl (by decide) hbal
  · intro h
    have hbal : Ledger.Balances ⟨0,[]⟩ ⟨6,[5,4,1,0]⟩ := (h.2 (by decide)).2
    exact Ledger.not_balances_of_leak (b := 2) (by decide) (by decide) rfl (by decide) hbal

end DslG624t.Cpmac.Channel
