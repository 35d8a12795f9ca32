import DslG624t.Lib.CString
import DslG624t.Lib.OnesSum

/-!
# Packets that IP receives

`ip_rcv` of `ipfastpath.c` beside the one of `ip_input.c` that it replaces.
-/

namespace DslG624t.Ip

open CString

inductive Summed
  | none
  | hw
  | unnecessary
  deriving DecidableEq

inductive PktType
  | host
  | broadcast
  | multicast
  | otherhost
  deriving DecidableEq

inductive Input
  | localDeliver
  | forward
  | discard
  deriving DecidableEq

/-- The part of `struct ip_options` that the code here reads. -/
structure IpOptions where
  optlen : ℕ
  srr : ℕ
  isStrictroute : Bool
  routerAlert : Bool
  deriving DecidableEq

/-- A linear buffer, with the options in its control block. The memory from the IP header on goes
beyond the data, far enough to read any header. -/
structure Skb where
  mem : Bytes
  len : ℕ
  ipSummed : Summed
  pktType : PktType
  dst : Option Input
  opt : IpOptions
  header_le : 60 ≤ mem.length
  len_le : len ≤ mem.length
  deriving DecidableEq

namespace Skb

def byte (skb : Skb) (i : ℕ) : ℕ := (skb.mem.getD i 0).toNat

def version (skb : Skb) : ℕ := skb.byte 0 / 16

def ihl (skb : Skb) : ℕ := skb.byte 0 % 16

def totLen (skb : Skb) : ℕ := 0x100*skb.byte 2+skb.byte 3

def fragOff (skb : Skb) : ℕ := 0x100*skb.byte 6+skb.byte 7

def ttl (skb : Skb) : ℕ := skb.byte 8

def protocol (skb : Skb) : ℕ := skb.byte 9

def trimmed (skb : Skb) : Skb :=
  if skb.totLen < skb.len then
    { skb with
      len := min skb.totLen skb.len
      ipSummed := if skb.ipSummed = .hw then .none else skb.ipSummed
      len_le := Nat.le_trans (Nat.min_le_right _ _) skb.len_le }
  else skb

lemma trimmed_mem (skb : Skb) : skb.trimmed.mem = skb.mem := by
  unfold trimmed
  split <;> rfl

lemma trimmed_len {skb : Skb} (h : skb.totLen ≤ skb.len) : skb.trimmed.len = skb.totLen := by
  unfold trimmed
  split
  · exact min_eq_left h
  · omega

variable {skb q : Skb}

lemma version_congr (h : q.mem = skb.mem) : q.version = skb.version := by
  rw [version,byte,h]
  rfl

lemma ihl_congr (h : q.mem = skb.mem) : q.ihl = skb.ihl := by
  rw [ihl,byte,h]
  rfl

lemma totLen_congr (h : q.mem = skb.mem) : q.totLen = skb.totLen := by
  rw [totLen,byte,byte,h]
  rfl

end Skb

def csumFold (sum : ℕ) : ℕ := 0xFFFF-OnesSum.add 0x10000 (sum / 0x10000) (sum % 0x10000)

def ipFastCsum (e : Endian) (iph : Bytes) (ihl : ℕ) : ℕ :=
  csumFold (OnesSum.sum 0x100000000 (OnesSum.words e ihl iph))

def Skb.Correct (skb : Skb) : Prop :=
  OnesSum.sum 0x10000 (OnesSum.halves (2*skb.ihl) skb.mem) = 0xFFFF

instance (skb : Skb) : Decidable skb.Correct := inferInstanceAs (Decidable (_ = _))

variable {skb : Skb}

def ipRcv (skb : Skb) : Option Skb :=
  if skb.version = 4 ∧ 20 ≤ skb.ihl <<< 2 ∧ skb.totLen ≤ skb.len then some skb.trimmed else none

/-- The function before it; `lost` says that a shared buffer could not be cloned, and `tests`
whether it is to make the two tests that were left out on purpose. -/
def ipRcvOriginal (e : Endian) (lost tests : Bool) (skb : Skb) : Option Skb :=
  if tests = true ∧ skb.pktType = .otherhost then none
  else if lost = true then none
  else if skb.len < 20 then none
  else if skb.ihl < 5 ∨ skb.version ≠ 4 then none
  else if skb.len < skb.ihl*4 then none
  else if tests = true ∧ ipFastCsum e skb.mem skb.ihl ≠ 0 then none
  else if skb.len < skb.totLen ∨ skb.totLen < skb.ihl <<< 2 then none
  else some skb.trimmed

structure WellFormed (skb : Skb) : Prop where
  version : skb.version = 4
  header : 20 ≤ 4*skb.ihl
  header_le : 4*skb.ihl ≤ skb.totLen
  total : skb.totLen = skb.len

def Agrees (e : Endian) (lost : Bool) (skb : Skb) : Prop :=
  ipRcv skb = ipRcvOriginal e lost false skb ∧ ∀ q, ipRcv skb = some q → WellFormed q

def Skb.Accepted (skb : Skb) : Prop :=
  skb.version = 4 ∧ 5 ≤ skb.ihl ∧ skb.totLen ≤ skb.len

lemma ipRcv_accepted (h : skb.Accepted) : ipRcv skb = some skb.trimmed := by
  obtain ⟨hv,hh,ht⟩ := h
  rw [ipRcv,Nat.shiftLeft_eq,if_pos ⟨hv,by omega,ht⟩]

lemma ipRcv_not_accepted (h : ¬ skb.Accepted) : ipRcv skb = none := by
  rw [ipRcv,Nat.shiftLeft_eq,if_neg]
  rintro ⟨hv,hh,ht⟩
  exact h ⟨hv,by omega,ht⟩

lemma ipRcvOriginal_accepted (e : Endian) (h : skb.Accepted) (hle : 4*skb.ihl ≤ skb.totLen) :
    ipRcvOriginal e false false skb = some skb.trimmed := by
  obtain ⟨hv,hh,ht⟩ := h
  simp only [ipRcvOriginal,Nat.shiftLeft_eq,Bool.false_eq_true,false_and,if_false]
  rw [if_neg (by omega),if_neg (by omega),if_neg (by omega),if_neg (by omega)]

lemma ipRcvOriginal_eq_none (e : Endian) {lost : Bool}
    (h : ¬ (skb.Accepted ∧ 4*skb.ihl ≤ skb.totLen ∧ lost = false)) :
    ipRcvOriginal e lost false skb = none := by
  simp only [ipRcvOriginal,Nat.shiftLeft_eq,Bool.false_eq_true,false_and,if_false]
  split_ifs with hlost hlen hheader hpull htotal
  · rfl
  · rfl
  · rfl
  · rfl
  · rfl
  · have hlost' : lost = false := by simpa using hlost
    exact absurd ⟨⟨by omega,by omega,by omega⟩,by omega,hlost'⟩ h

lemma wellFormed_trimmed (h : skb.Accepted) (hle : 4*skb.ihl ≤ skb.totLen) :
    WellFormed skb.trimmed := by
  obtain ⟨hv,hh,ht⟩ := h
  have hmem := skb.trimmed_mem
  refine ⟨?_,?_,?_,?_⟩
  · rw [Skb.version_congr hmem,hv]
  · rw [Skb.ihl_congr hmem]
    omega
  · rw [Skb.ihl_congr hmem,Skb.totLen_congr hmem]
    exact hle
  · rw [Skb.totLen_congr hmem,Skb.trimmed_len ht]

theorem ipRcv_agrees_iff (e : Endian) (lost : Bool) (skb : Skb) :
    Agrees e lost skb ↔
      (skb.version = 4 → 5 ≤ skb.ihl → skb.totLen ≤ skb.len →
        4*skb.ihl ≤ skb.totLen ∧ lost = false) := by
  constructor
  · rintro ⟨heq,-⟩ hv hh ht
    have hacc : skb.Accepted := ⟨hv,hh,ht⟩
    by_contra hc
    rw [ipRcv_accepted hacc,ipRcvOriginal_eq_none e (fun h => hc h.2)] at heq
    cases heq
  intro h
  by_cases hacc : skb.Accepted
  · obtain ⟨hle,rfl⟩ := h hacc.1 hacc.2.1 hacc.2.2
    refine ⟨?_,?_⟩
    · rw [ipRcv_accepted hacc,ipRcvOriginal_accepted e hacc hle]
    · intro q hq
      rw [ipRcv_accepted hacc] at hq
      cases hq
      exact wellFormed_trimmed hacc hle
  refine ⟨?_,?_⟩
  · rw [ipRcv_not_accepted hacc,ipRcvOriginal_eq_none e (fun h => hacc h.1)]
  · intro q hq
    rw [ipRcv_not_accepted hacc] at hq
    cases hq

/-- A padded frame whose header says that the packet has ten bytes. -/
def shortTotal : Skb where
  mem := [0x45,0,0,10] ++ List.replicate 56 0
  len := 46
  ipSummed := .none
  pktType := .host
  dst := none
  opt := ⟨0,0,false,false⟩
  header_le := by decide
  len_le := by decide

/-- It is cut inside its header and passed on. -/
theorem ipRcv_agrees_fails_short :
    (∃ q, ipRcv shortTotal = some q ∧ q.len = 10 ∧ q.ihl = 5) ∧
      ipRcvOriginal .little false false shortTotal = none ∧
      ¬ Agrees .little false shortTotal := by
  have hrcv : ipRcv shortTotal = some shortTotal.trimmed := by decide
  have horiginal : ipRcvOriginal .little false false shortTotal = none := by decide
  refine ⟨⟨_,hrcv,by decide,by decide⟩,horiginal,?_⟩
  rintro ⟨heq,-⟩
  rw [hrcv,horiginal] at heq
  cases heq

end DslG624t.Ip
