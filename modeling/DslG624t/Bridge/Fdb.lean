import DslG624t.Lib.CString
import DslG624t.Lib.Ethernet

/-!
# Bridge ports and the forwarding database

The part of `struct net_bridge` that `br_fdb_get` reads: the hash table of learned addresses and
the ageing parameters (`br_private.h`, `br_forward.c`).
-/

namespace DslG624t.Bridge

open CString Ethernet

/-- A network device. Its name fills at most `IFNAMSIZ - 1` bytes. -/
structure NetDevice where
  name : Bytes
  name_nulFree : NulFree name
  name_lt : name.length < 16
  deriving DecidableEq

/-- `struct net_bridge_port`, as far as lookups and the filter read it. -/
structure Port where
  dev : NetDevice
  portNo : ℕ
  deriving DecidableEq

/-- `struct net_bridge_fdb_entry`. -/
structure FdbEntry where
  addr : Mac
  dst : Port
  ageingTimer : BitVec 32
  isStatic : Bool
  deriving DecidableEq

structure Fdb where
  hash : Fin 256 → List FdbEntry
  jiffies : BitVec 32
  ageingTime : BitVec 32
  forwardDelay : BitVec 32
  topologyChange : Bool

def Fdb.timeout (fdb : Fdb) : BitVec 32 :=
  if fdb.topologyChange then fdb.jiffies-fdb.forwardDelay else fdb.jiffies-fdb.ageingTime

def timeBeforeEq (a b : BitVec 32) : Bool := decide (0 ≤ (b-a).toInt)

def Fdb.hasExpired (fdb : Fdb) (e : FdbEntry) : Bool :=
  !e.isStatic && timeBeforeEq e.ageingTimer fdb.timeout

/-- `br_mac_hash`: only the last three bytes take part. -/
instance neZeroHash : NeZero 256 := ⟨by decide⟩

def brMacHash (mac : Mac) : Fin 256 :=
  let x : BitVec 32 := mac.b3.toBitVec.setWidth 32
  let x := (x <<< 2) ^^^ mac.b4.toBitVec.setWidth 32
  let x := (x <<< 2) ^^^ mac.b5.toBitVec.setWidth 32
  let x := x ^^^ (x >>> 8)
  Fin.ofNat 256 x.toNat

def maccmp (a b : Mac) : ℕ :=
  if load16 a.b0 a.b1 = load16 b.b0 b.b1 ∧ load16 a.b2 a.b3 = load16 b.b2 b.b3 ∧
    load16 a.b4 a.b5 = load16 b.b4 b.b5 then 0 else 1

def brFdbGet (fdb : Fdb) (addr : Mac) : Option FdbEntry :=
  match (fdb.hash (brMacHash addr)).find? (fun e => maccmp e.addr addr == 0) with
  | some e => if fdb.hasExpired e then none else some e
  | none => none

lemma maccmp_eq_zero_iff (a b : Mac) : maccmp a b = 0 ↔ a = b := by
  cases a
  cases b
  simp [maccmp,load16_inj,and_assoc]

end DslG624t.Bridge
