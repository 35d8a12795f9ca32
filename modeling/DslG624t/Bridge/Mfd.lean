import DslG624t.Lib.HashChain

/-!
# The multicast forwarding database

`br_mfd.c` of the bridge: a hash table of group entries, each with a singly linked list of port
nodes, and an ageing timer inside every node. The frame a report travels in does not change the
database and is left out here.
-/

namespace DslG624t.Bridge.Mfd

open Function HashChain

def BR_HASH_SIZE : ℕ := 256

def IGMP_V1_MEMBERSHIP_REPORT : UInt8 := 0x12

def brAddrHash (addr : UInt32) : ℕ :=
  let b := addr.toNat % 256
  let x := ((b <<< 2 ^^^ b) <<< 2 ^^^ b) <<< 2 ^^^ b
  (x ^^^ x >>> 8) % BR_HASH_SIZE

lemma brAddrHash_lt (addr : UInt32) : brAddrHash addr < BR_HASH_SIZE :=
  Nat.mod_lt _ (by decide)

/-- `struct port_list`, `struct net_bridge_mfd_entry` and `br->mfd_hash`. `nodes` and
`ents` count the addresses given out; `pending` says whether the ageing timer of a
node is on the kernel's list. -/
structure State where
  nodes : ℕ
  nodeLive : ℕ → Bool
  next : ℕ → Option ℕ
  mfd : ℕ → ℕ
  dst : ℕ → ℕ
  vinfo : ℕ → Bool
  dontForwardReport : ℕ → Bool
  pending : ℕ → Bool
  ents : ℕ
  entLive : ℕ → Bool
  addr : ℕ → UInt32
  portCount : ℕ → ℤ
  plist : ℕ → Option ℕ
  links : Links ℕ ℕ

def State.init : State where
  nodes := 0
  nodeLive _ := false
  next _ := none
  mfd _ := 0
  dst _ := 0
  vinfo _ := false
  dontForwardReport _ := false
  pending _ := false
  ents := 0
  entLive _ := false
  addr _ := 0
  portCount _ := 0
  plist _ := none
  links := ⟨fun _ => none,fun _ => none,fun _ => none⟩

def State.slotLive (s : State) : Slot ℕ ℕ → Bool
  | .head _ => true
  | .next e => s.entLive e

/-- `__mfd_hash_unlink`, which writes to the neighbours of `ent`. -/
def mfdHashUnlink (s : State) (ent : ℕ) : Option State := do
  let pprev ← s.links.pprev ent
  if s.slotLive pprev && (s.links.next ent).all s.entLive then
    let links ← s.links.unlink ent
    some { s with links }
  else none

/-- What the three removal loops do with the node `tnode` of entry `f`: close the list
behind `prev_pnode`, free the node and, with the last one, the entry. The flag says
that the entry is gone. -/
def removeNode (s : State) (f tnode : ℕ) (prevPnode : Option ℕ) : Option (State × Bool) := do
  let pnode := s.next tnode
  let s ← match prevPnode with
    | some q =>
      if s.nodeLive q then some { s with next := update s.next q pnode } else none
    | none => some { s with plist := update s.plist f pnode }
  let s := { s with
    nodeLive := update s.nodeLive tnode false
    portCount := update s.portCount f (s.portCount f-1) }
  if s.portCount f = 0 then
    let s ← mfdHashUnlink s f
    some ({ s with entLive := update s.entLive f false },true)
  else some (s,false)

/-- The inner loop of `br_mfd_delete_port` and `br_mfd_delete_port_from_group`. -/
def dropPort (p f : ℕ) : ℕ → State → Option ℕ → Option ℕ → Option (State × Option ℕ)
  | 0, _, _, _ => none
  | _+1, s, none, prevPnode => some (s,prevPnode)
  | fuel+1, s, some pnode, prevPnode =>
    if s.nodeLive pnode then
      if s.dst pnode = p then
        (removeNode s f pnode prevPnode).map fun r => (r.1,prevPnode)
      else dropPort p f fuel s (s.next pnode) (some pnode)
    else none

/-- The inner loop of `br_mfd_delete_v1_ports`. -/
def dropV1 (f : ℕ) : ℕ → State → Option ℕ → Option ℕ → Option (State × Option ℕ)
  | 0, _, _, _ => none
  | _+1, s, none, prevPnode => some (s,prevPnode)
  | fuel+1, s, some pnode, prevPnode =>
    if s.nodeLive pnode then
      if s.vinfo pnode then do
        let r ← removeNode s f pnode prevPnode
        if r.2 then some (r.1,prevPnode) else dropV1 f fuel r.1 (s.next pnode) prevPnode
      else dropV1 f fuel s (s.next pnode) (some pnode)
    else none

abbrev Visit := State → ℕ → Option ℕ → Option (State × Option ℕ × Bool)

/-- `while (f != NULL)` over one hash chain. -/
def overChain (visit : Visit) : ℕ → State → Option ℕ → Option ℕ → Option (State × Option ℕ)
  | 0, _, _, _ => none
  | _+1, s, none, prevPnode => some (s,prevPnode)
  | fuel+1, s, some f, prevPnode =>
    if s.entLive f then do
      let g := s.links.next f
      let r ← visit s f prevPnode
      if r.2.2 then some (r.1,r.2.1) else overChain visit fuel r.1 g r.2.1
    else none

def overTable (visit : Visit) (s : State) : Option State :=
  ((List.range BR_HASH_SIZE).foldlM (fun (r : State × Option ℕ) i =>
    overChain visit (r.1.ents+1) r.1 (r.1.links.head i) r.2) (s,none)).map Prod.fst

def deletePortVisit (p : ℕ) : Visit := fun s f prevPnode =>
  (dropPort p f (s.nodes+1) s (s.plist f) prevPnode).map fun r => (r.1,r.2,false)

def brMfdDeletePort (s : State) (p : ℕ) : Option State := overTable (deletePortVisit p) s

def deleteV1Visit : Visit := fun s f prevPnode =>
  (dropV1 f (s.nodes+1) s (s.plist f) prevPnode).map fun r => (r.1,r.2,false)

def brMfdDeleteV1Ports (s : State) : Option State := overTable deleteV1Visit s

def deletePortFromGroupVisit (p : ℕ) (group : UInt32) : Visit := fun s f prevPnode =>
  if s.addr f = group then
    (dropPort p f (s.nodes+1) s (s.plist f) prevPnode).map fun r => (r.1,r.2,true)
  else some (s,prevPnode,false)

def brMfdDeletePortFromGroup (s : State) (p : ℕ) (group : UInt32) : Option State :=
  overTable (deletePortFromGroupVisit p group) s

/-- The node of `source` in a port list. -/
def findPort (source : ℕ) : ℕ → State → Option ℕ → Option (Option ℕ)
  | 0, _, _ => none
  | _+1, _, none => some none
  | fuel+1, s, some p =>
    if s.nodeLive p then
      if s.dst p = source then some (some p) else findPort source fuel s (s.next p)
    else none

/-- The entry of `addr` in a hash chain. -/
def findEntry (addr : UInt32) : ℕ → State → Option ℕ → Option (Option ℕ)
  | 0, _, _ => none
  | _+1, _, none => some none
  | fuel+1, s, some mfd =>
    if s.entLive mfd then
      if s.addr mfd = addr then some (some mfd) else findEntry addr fuel s (s.links.next mfd)
    else none

def State.renew (s : State) (p : ℕ) (type : UInt8) : State :=
  { s with
    vinfo := update s.vinfo p (s.vinfo p || type == IGMP_V1_MEMBERSHIP_REPORT)
    pending := update s.pending p true
    dontForwardReport := update s.dontForwardReport p false }

/-- A new node in front of the list of `mfd`, with its timer running. -/
def State.addPort (s : State) (mfd source : ℕ) (type : UInt8) : State :=
  let p := s.nodes
  { s with
    nodes := s.nodes+1
    nodeLive := update s.nodeLive p true
    next := update s.next p (s.plist mfd)
    mfd := update s.mfd p mfd
    dst := update s.dst p source
    vinfo := update s.vinfo p (type == IGMP_V1_MEMBERSHIP_REPORT)
    dontForwardReport := update s.dontForwardReport p false
    pending := update s.pending p true
    plist := update s.plist mfd (some p)
    portCount := update s.portCount mfd (s.portCount mfd+1) }

def mfdInsertPort (s : State) (mfd source : ℕ) (type : UInt8) (alloc : Bool) : Option State :=
  (findPort source (s.nodes+1) s (s.plist mfd)).map fun
    | some p => s.renew p type
    | none => if alloc then s.addPort mfd source type else s

def State.addEntry (s : State) (addr : UInt32) : State :=
  let mfd := s.ents
  { s with
    ents := s.ents+1
    entLive := update s.entLive mfd true
    addr := update s.addr mfd addr
    plist := update s.plist mfd none
    portCount := update s.portCount mfd 0 }

def mfdHashLink (s : State) (ent hash : ℕ) : Option State :=
  if (s.links.head hash).all s.entLive then some { s with links := s.links.link hash ent }
  else none

/-- `br_mfd_insert`; the two flags are what the allocations of the entry and of the node
do, where they are reached. -/
def brMfdInsert (s : State) (source : ℕ) (addr : UInt32) (type : UInt8)
    (allocEntry allocPort : Bool) : Option State := do
  let hash := brAddrHash addr
  match ← findEntry addr (s.ents+1) s (s.links.head hash) with
  | some mfd => mfdInsertPort s mfd source type allocPort
  | none =>
    if allocEntry then
      let mfd := s.ents
      let s ← mfdInsertPort (s.addEntry addr) mfd source type allocPort
      mfdHashLink s mfd hash
    else some s

/-- The port list loop of `br_leave_report_received`, which restarts the timer. -/
def leaveVisit (p : ℕ) (group : UInt32) : Visit := fun s f prevPnode =>
  if s.addr f = group then
    (findPort p (s.nodes+1) s (s.plist f)).map fun
      | some pnode => ({ s with pending := update s.pending pnode true },prevPnode,true)
      | none => (s,prevPnode,true)
  else some (s,prevPnode,false)

def brLeaveReportReceived (s : State) (p : ℕ) (group : UInt32) : Option State :=
  overTable (leaveVisit p group) s

/-- A group with its counter and the ports of its list, each with its version bit. -/
structure Row where
  addr : UInt32
  portCount : ℤ
  ports : List (ℕ × Bool)
  deriving DecidableEq

def readPorts (s : State) : ℕ → Option ℕ → Option (List (ℕ × Bool))
  | 0, _ => none
  | _+1, none => some []
  | fuel+1, some n =>
    if s.nodeLive n then (readPorts s fuel (s.next n)).map ((s.dst n,s.vinfo n) :: ·) else none

def readChain (s : State) : ℕ → Option ℕ → Option (List Row)
  | 0, _ => none
  | _+1, none => some []
  | fuel+1, some f =>
    if s.entLive f then do
      let ports ← readPorts s (s.nodes+1) (s.plist f)
      let rows ← readChain s fuel (s.links.next f)
      some (⟨s.addr f,s.portCount f,ports⟩ :: rows)
    else none

def State.table (s : State) : Option (List Row) :=
  ((List.range BR_HASH_SIZE).mapM fun i => readChain s (s.ents+1) (s.links.head i)).map
    List.flatten

end DslG624t.Bridge.Mfd
