import Mathlib

/-!
# I2C transfers

`i2c-algo.c` of the avalanche adapter, from `wait_for_bb` to `iic_xfer`.
-/

namespace DslG624t.I2c

open List

/-- What the controller shows while one byte is moved: the reads of `I2C_DATA_REGISTER` in the
waits before and after it, whether the interrupt comes too late, what is in the return register
when `wait_for_pin` ends without a `return`, and the register when a byte is taken from it. -/
structure Phase where
  before : ℕ → BitVec 16
  after : ℕ → BitVec 16
  late : Bool
  junk : ℤ
  data : BitVec 16

/-- A message of `buf.length` bytes. A message without bytes has only its `start`. -/
structure Msg where
  addr : BitVec 16
  ten : Bool
  rd : Bool
  buf : List (BitVec 8 × Phase)
  start : Phase

/-- A write to `I2C_DATA_REG_HIGH`, the message for a ten bit address, a write to
`I2C_DATA_REG_LOW` with how the byte went, a byte stored in the buffer, and `iic_stop`. -/
inductive Event
  | address (value : BitVec 16)
  | tenBit
  | byte (value : BitVec 16) (ok : Bool)
  | got (value : BitVec 8)
  | stop
  deriving DecidableEq

def busError (status : BitVec 16) : Bool := status &&& 0x8000 != 0

def writeAllowed (status : BitVec 16) : Bool := status &&& 0x2000 != 0

def maxRetryCount : ℕ := 100

/-- The loop of `wait_for_bb` with `timeout` at its test and `reads n` in `status`. -/
def bbLoop (reads : ℕ → BitVec 16) : ℕ → ℕ → ℤ
  | 0, _ => 1
  | timeout+1, n =>
    if writeAllowed (reads n) then
      if busError (reads (n+1)) then -1 else bbLoop reads timeout (n+1)
    else if timeout = 0 then 1 else 0

def waitForBb (reads : ℕ → BitVec 16) : ℤ := bbLoop reads maxRetryCount 0

/-- Neither a time-out nor an error in any status the wait has read. -/
def quiet (reads : ℕ → BitVec 16) : Bool := waitForBb reads = 0 && !busError (reads 0)

variable (irq : Bool)

def Phase.acked (p : Phase) : Bool := quiet p.after && !(irq && p.late)

def Phase.moved (p : Phase) : Bool := quiet p.before && p.acked irq

/-- The loops of `iic_sendbytes` and `iic_readbytes`. The result of the first wait is dropped. -/
def byteLoop (rd : Bool) : List (BitVec 8 × Phase) → ℕ → ℤ × List Event
  | [], count => (count,[])
  | (b,p) :: buf, count =>
    let e : Event := .byte (if rd then 0xff else b.signExtend 16) (p.moved irq)
    if waitForBb p.after ≠ 0 then (-1,[e])
    else
      let r := byteLoop rd buf (count+1)
      (r.1,e :: (if rd then [.got (p.data.setWidth 8)] else []) ++ r.2)

def iicSendbytes (m : Msg) : ℤ × List Event := byteLoop irq false m.buf 0

def iicReadbytes (m : Msg) : ℤ × List Event := byteLoop irq true m.buf 0

def iicDoAddress (m : Msg) : ℤ × List Event :=
  if m.ten then (0,[.tenBit])
  else if m.buf ≠ [] then (0,[.address (m.addr ||| if m.rd then 0x300 else 0x200)])
  else
    (if m.start.junk ≠ 0 then -1 else 0,
      [.address (m.addr ||| 0x300),.byte 0xff (m.start.acked irq),.stop])

def eio : ℤ := 5

def xferLoop : List Msg → ℤ → ℤ × List Event
  | [], ret => (ret,[.stop])
  | m :: msgs, ret =>
    let a := iicDoAddress irq m
    if a.1 ≠ 0 then (-eio,a.2)
    else
      let b := if m.rd then iicReadbytes irq m else iicSendbytes irq m
      if b.1 < 0 then (ret,a.2 ++ b.2 ++ [.stop])
      else
        let r := xferLoop msgs (if m.rd then ret+b.1 else ret)
        (r.1,a.2 ++ b.2 ++ r.2)

/-- `reads` are what the first wait sees. -/
def iicXfer (reads : ℕ → BitVec 16) (msgs : List Msg) : ℤ × List Event :=
  if waitForBb reads ≠ 0 then (-eio,[]) else xferLoop irq msgs 0

/-- An address that is not sent, or a byte that did not move. -/
def Event.failed : Event → Bool
  | .tenBit => true
  | .byte _ ok => !ok
  | _ => false

def Event.sent : Event → Option (BitVec 16)
  | .byte value true => some value
  | _ => none

def Msg.values (m : Msg) : List (BitVec 16) :=
  if m.buf = [] then [0xff] else m.buf.map fun x => if m.rd then 0xff else x.1.signExtend 16

def bytesRead (msgs : List Msg) : ℤ := (msgs.map fun m => if m.rd then (m.buf.length : ℤ) else 0).sum

/-- No failure is hidden, and a result that is not negative is the number of bytes read, with all
bytes moved. -/
def Honest (msgs : List Msg) (r : ℤ × List Event) : Prop :=
  (r.2.any Event.failed → r.1 < 0) ∧
  (0 ≤ r.1 → r.2.filterMap Event.sent = msgs.flatMap Msg.values ∧ r.1 = bytesRead msgs)

/-- The address and every byte of the message go well. -/
def Msg.good (m : Msg) : Bool :=
  !m.ten && if m.buf = [] then m.start.acked irq else m.buf.all fun x => x.2.moved irq

/-- `iic_doAddress` finds something in the return register. -/
def Msg.refused (m : Msg) : Bool := !m.ten && m.buf = [] && m.start.junk ≠ 0

/-- The status after some byte is an error. -/
def Msg.broken (m : Msg) : Bool := m.buf.any fun x => waitForBb x.2.after != 0

/-- A message is refused, and no byte before it breaks the loop. -/
def Refused : List Msg → Prop
  | [] => False
  | m :: msgs => m.refused ∨ m.broken = false ∧ Refused msgs

variable {irq} {rd : Bool} {buf : List (BitVec 8 × Phase)} {count : ℕ} {m : Msg} {msgs : List Msg}
  {ret : ℤ}

lemma Phase.after_eq_zero {p : Phase} (h : p.moved irq = true) : waitForBb p.after = 0 := by
  simp only [Phase.moved,Phase.acked,quiet,Bool.and_eq_true,decide_eq_true_eq] at h
  exact h.2.1.1

lemma byteLoop_status : (byteLoop irq rd buf count).1 =
    bif buf.any (fun x => waitForBb x.2.after != 0) then -1 else (count+buf.length : ℤ) := by
  induction buf generalizing count with
  | nil => simp [byteLoop]
  | cons x buf ih =>
    by_cases hx : waitForBb x.2.after = 0
    · simp [byteLoop,hx,ih,add_assoc,add_comm]
    · have hb : (waitForBb x.2.after != 0) = true := bne_iff_ne.mpr hx
      simp [byteLoop,hx,hb]

lemma any_failed_byteLoop :
    (byteLoop irq rd buf count).2.any Event.failed = !buf.all fun x => x.2.moved irq := by
  induction buf generalizing count with
  | nil => rfl
  | cons x buf ih =>
    by_cases hx : waitForBb x.2.after = 0
    · cases rd <;> simp [byteLoop,hx,ih,Event.failed]
    · have hmoved : x.2.moved irq = false := by
        by_contra h
        exact hx (Phase.after_eq_zero (by simpa using h))
      simp [byteLoop,hx,hmoved,Event.failed]

lemma sent_byteLoop (h : buf.all fun x => x.2.moved irq) :
    (byteLoop irq rd buf count).2.filterMap Event.sent =
      buf.map fun x => if rd then 0xff else x.1.signExtend 16 := by
  induction buf generalizing count with
  | nil => rfl
  | cons x buf ih =>
    rw [all_cons,Bool.and_eq_true] at h
    have hx := Phase.after_eq_zero h.1
    cases rd <;> simp [byteLoop,hx,h.1,ih h.2,Event.sent,filterMap_cons]

lemma bytes_eq : (if m.rd then iicReadbytes irq m else iicSendbytes irq m) =
    byteLoop irq m.rd m.buf 0 := by
  cases h : m.rd <;> simp [iicReadbytes,iicSendbytes]

lemma doAddress_ne_zero : (iicDoAddress irq m).1 ≠ 0 ↔ m.refused = true := by
  unfold iicDoAddress Msg.refused
  split
  · simp [*]
  split <;> simp_all

lemma any_failed_msg : ((iicDoAddress irq m).2 ++ (byteLoop irq m.rd m.buf 0).2).any
    Event.failed = !m.good irq := by
  rw [any_append,any_failed_byteLoop]
  unfold iicDoAddress Msg.good
  split
  · simp [*,Event.failed]
  split <;> simp_all [Event.failed]

lemma sent_msg (h : m.good irq = true) : ((iicDoAddress irq m).2 ++
    (byteLoop irq m.rd m.buf 0).2).filterMap Event.sent = m.values := by
  rw [filterMap_append]
  by_cases hbuf : m.buf = []
  · simp_all [Msg.good,iicDoAddress,Msg.values,byteLoop,Event.sent,filterMap_cons]
  · simp only [Msg.good,if_neg hbuf,Bool.and_eq_true] at h
    rw [sent_byteLoop h.2]
    simp_all [iicDoAddress,Msg.values,Event.sent,filterMap_cons]

/-- One message of the loop that is not refused. -/
lemma xferLoop_cons (h : m.refused = false) : xferLoop irq (m :: msgs) ret =
    let log := (iicDoAddress irq m).2 ++ (byteLoop irq m.rd m.buf 0).2
    if m.broken then (ret,log ++ [.stop])
    else
      let r := xferLoop irq msgs (if m.rd then ret+m.buf.length else ret)
      (r.1,log ++ r.2) := by
  have ha : ¬ (iicDoAddress irq m).1 ≠ 0 := fun hne => by simp [doAddress_ne_zero.mp hne] at h
  have hst : (byteLoop irq m.rd m.buf 0).1 = bif m.broken then -1 else (m.buf.length : ℤ) := by
    simp [byteLoop_status,Msg.broken]
  rw [xferLoop,if_neg ha]
  simp only [bytes_eq,hst]
  cases m.broken with
  | true => rfl
  | false => exact if_neg (Int.not_lt.mpr (Int.natCast_nonneg _))

lemma broken_of_good (h : m.good irq = true) : m.broken = false := by
  by_cases hbuf : m.buf = []
  · simp [Msg.broken,hbuf]
  · simp only [Msg.good,if_neg hbuf,Bool.and_eq_true,all_eq_true] at h
    simpa [Msg.broken] using fun b p hx => Phase.after_eq_zero (h.2 (b,p) hx)

lemma xferLoop_refused (irq : Bool) (ret : ℤ) (h : Refused msgs) : (xferLoop irq msgs ret).1 < 0 := by
  induction msgs generalizing ret with
  | nil => exact h.elim
  | cons m msgs ih =>
    cases hm : m.refused with
    | true =>
      rw [xferLoop,if_pos (doAddress_ne_zero.mpr hm)]
      simp [eio]
    | false =>
      obtain ⟨hb,hrest⟩ := h.resolve_left (by simp [hm])
      simp [xferLoop_cons hm,hb,ih _ hrest]

lemma xferLoop_failed (irq : Bool) (h : ¬ Refused msgs) (hret : 0 ≤ ret) : 0 ≤ (xferLoop irq msgs ret).1 ∧
    (xferLoop irq msgs ret).2.any Event.failed = !msgs.all fun m => m.good irq := by
  induction msgs generalizing ret with
  | nil => exact ⟨hret,rfl⟩
  | cons m msgs ih =>
    rw [Refused,not_or] at h
    rw [xferLoop_cons (by simpa using h.1)]
    cases hb : m.broken with
    | true =>
      have hgood : m.good irq = false := by
        by_contra h
        simp [broken_of_good (by simpa using h)] at hb
      refine ⟨hret,?_⟩
      simp only [if_true]
      rw [any_append,any_failed_msg,all_cons,hgood]
      rfl
    | false =>
      obtain ⟨hnext,hlog⟩ := @ih (if m.rd then ret+m.buf.length else ret)
        (fun hr => h.2 ⟨hb,hr⟩) (by split <;> omega)
      refine ⟨hnext,?_⟩
      simp only [Bool.false_eq_true,if_false]
      rw [any_append,any_failed_msg,hlog,all_cons,Bool.not_and]

lemma xferLoop_good (ret : ℤ) (h : ¬ Refused msgs) (hgood : ∀ m ∈ msgs, m.good irq = true) :
    (xferLoop irq msgs ret).1 = ret+bytesRead msgs ∧
    (xferLoop irq msgs ret).2.filterMap Event.sent = msgs.flatMap Msg.values := by
  induction msgs generalizing ret with
  | nil => simp [xferLoop,bytesRead,Event.sent,filterMap_cons]
  | cons m msgs ih =>
    rw [Refused,not_or] at h
    obtain ⟨hm,hmsgs⟩ := forall_mem_cons.mp hgood
    have hb := broken_of_good hm
    obtain ⟨hret,hsent⟩ := ih (if m.rd then ret+m.buf.length else ret)
      (fun hr => h.2 ⟨hb,hr⟩) hmsgs
    rw [xferLoop_cons (by simpa using h.1),hb]
    simp only [Bool.false_eq_true,if_false]
    constructor
    · rw [hret]
      cases hrd : m.rd <;> simp [bytesRead,hrd,add_assoc]
    · rw [filterMap_append,sent_msg hm,hsent,flatMap_cons]

/-- The driver is honest about a transfer exactly when it does not start, when a message is refused
before a byte breaks the loop, or when nothing goes wrong. -/
theorem iicXfer_honest_iff (irq : Bool) (reads : ℕ → BitVec 16) (msgs : List Msg) :
    Honest msgs (iicXfer irq reads msgs) ↔
      waitForBb reads ≠ 0 ∨ Refused msgs ∨ ∀ m ∈ msgs, m.good irq = true := by
  unfold iicXfer
  by_cases hbb : waitForBb reads = 0
  swap
  · simp [hbb,Honest,eio]
  simp only [hbb,ne_eq,not_true_eq_false,if_false,false_or]
  by_cases hr : Refused msgs
  · have hneg := xferLoop_refused irq 0 hr
    exact iff_of_true ⟨fun _ => hneg,fun h => absurd h (Int.not_le.mpr hneg)⟩ (.inl hr)
  obtain ⟨hret,hlog⟩ := xferLoop_failed irq hr (Int.le_refl 0)
  simp only [hr,false_or]
  constructor
  · intro h
    by_contra hbad
    refine Int.not_lt.mpr hret (h.1 ?_)
    simpa [hlog] using hbad
  · intro hgood
    obtain ⟨heq,hsent⟩ := xferLoop_good 0 hr hgood
    refine ⟨fun hfail => ?_,fun _ => ⟨hsent,by simpa using heq⟩⟩
    rw [hlog] at hfail
    simp [all_eq_true.mpr hgood] at hfail

/-- The only byte of a write is not acknowledged, and the transfer returns 0. -/
theorem iicXfer_hides_error : ¬ Honest
    [⟨0x50,false,false,[(7,⟨fun _ => 0,fun n => if n = 0 then 0x2000 else 0x8000,false,0,0⟩)],
      ⟨fun _ => 0,fun _ => 0,false,0,0⟩⟩]
    (iicXfer true (fun _ => 0)
      [⟨0x50,false,false,[(7,⟨fun _ => 0,fun n => if n = 0 then 0x2000 else 0x8000,false,0,0⟩)],
        ⟨fun _ => 0,fun _ => 0,false,0,0⟩⟩]) := by
  unfold Honest
  decide

end DslG624t.I2c
