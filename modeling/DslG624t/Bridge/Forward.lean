import DslG624t.Bridge.Mfd
import DslG624t.Lib.Monitor

/-!
# The path of a frame through the bridge

`br_input.c`, `br_forward.c` and the frame handling of `br_mfd.c`, written as the trace of what
they do to socket buffers and to the locks of the bridge. Everything a frame is decided by is an
argument: the ports and their states, the filter, the two databases, the bytes of the frame, and
which allocations fail. `CONFIG_BRIDGE_CONF_MODE` is an argument too; the build at hand does not
define it.
-/

namespace DslG624t.Bridge.Forward

open Function Monitor
open Mfd (IGMP_V1_MEMBERSHIP_REPORT)

/-- `skb->dev`: the device of a port, the bridge's own device, or nothing yet. -/
inductive Dev
  | port (p : ℕ)
  | bridge
  | null
  deriving DecidableEq

inductive Lock
  | lock
  | hashLock
  | filterLock
  | mfdHashLock
  deriving DecidableEq

/-- What happens to a buffer. A `hard_start_xmit` is taken to keep the one that is queued; its result
is ignored by the source. -/
inductive Event
  | alloc (skb : ℕ)
  | clone (skb new : ℕ)
  | use (skb : ℕ)
  | queue (skb p : ℕ)
  | passUp (skb : ℕ)
  | free (skb : ℕ)
  | lock (ev : LockEv Lock)
  deriving DecidableEq

/-- `struct port_list`, as far as frames depend on it. -/
structure PNode where
  dst : ℕ
  dontForwardReport : Bool
  deriving DecidableEq

inductive Querier
  | notApplicable
  | nonQuerier
  | querier
  deriving DecidableEq

/-- `calls` counts the calls of `skb_clone`, `made` the buffers, the original included.
`mfd` gives the port list of a group that has an entry. -/
structure World where
  trace : List Event
  calls : ℕ
  made : ℕ
  dev : ℕ → Dev
  mfd : UInt32 → Option (List PNode)
  isQuerier : Querier

/-- What `br_fdb_get` finds for the destination. -/
structure FdbHit where
  isLocal : Bool
  dst : ℕ

/-- The bridge and the frame. `filterFrame p` is what `br_filter_frame` answers for the
frame on port `p`; `cloneFails k` says that call `k` of `skb_clone` returns null. -/
structure Br where
  portList : List ℕ
  state : ℕ → UInt8
  brFilterActive : Bool
  filterFrame : ℕ → Bool
  mcForwarding : Bool
  fdb : Option FdbHit
  data : ℕ → UInt8
  cloneFails : ℕ → Bool
  allocEntry : Bool
  allocPort : Bool

/-- The state of a bridge built with `CONFIG_BRIDGE_CONF_MODE`: its address, if it has
one, and how `br_send_igmp_query` fares with its route and its buffer. -/
structure ConfMode where
  bridgeOnly : Bool
  inDev : Option UInt32
  route : Bool
  rtSrc : Bool
  allocQuery : Bool

def World.start (dev : Dev) (mfd : UInt32 → Option (List PNode)) (isQuerier : Querier) : World :=
  ⟨[],0,1,fun _ => dev,mfd,isQuerier⟩

def World.emit (w : World) (e : Event) : World := { w with trace := w.trace ++ [e] }

def World.acquire (w : World) (l : Lock) (s : Side) : World := w.emit (.lock (.acquire l s))

def World.release (w : World) (l : Lock) (s : Side) : World := w.emit (.lock (.release l s))

def World.setDev (w : World) (skb : ℕ) (dev : Dev) : World :=
  { w with dev := update w.dev skb dev }

section Fields

variable (c : Br)

def Br.load32 (i : ℕ) : UInt32 :=
  (c.data i).toUInt32 ||| (c.data (i+1)).toUInt32 <<< 8 ||| (c.data (i+2)).toUInt32 <<< 16 |||
    (c.data (i+3)).toUInt32 <<< 24

def Br.group : Bool := c.data 0 &&& 1 ≠ 0

def Br.multicast : Bool := c.data 1 = 0 ∧ c.data 2 &&& 0x5e ≠ 0 ∧ c.mcForwarding

def Br.isIp : Bool := c.data 12 = 0x08 ∧ c.data 13 = 0x00

def Br.isIgmp : Bool := c.data 23 = 2

def Br.saddr : UInt32 := c.load32 26

def Br.daddr : UInt32 := c.load32 30

def Br.igmp : ℕ := 14+(c.data 14 &&& 0x0f).toNat*4

def Br.igmpType : UInt8 := c.data c.igmp

def Br.igmpGroup : UInt32 := c.load32 (c.igmp+4)

def floodMcast (x : UInt32) : Bool := x &&& 0x0000ffff = 0x000000e0

end Fields

def IGMP_MEMBERSHIP_QUERY : UInt8 := 0x11
def IGMP_V2_MEMBERSHIP_REPORT : UInt8 := 0x16
def IGMP_LEAVE_GROUP : UInt8 := 0x17

def MFD_PARSE_ERROR : UInt8 := 253
def MFD_MEMORY_ERROR : UInt8 := 252

def BR_STATE_LEARNING : UInt8 := 2
def BR_STATE_FORWARDING : UInt8 := 4

def brFdbGet (w : World) : World := (w.acquire .hashLock .read).release .hashLock .read

def brFdbInsert (w : World) : World := (w.acquire .hashLock .write).release .hashLock .write

def brFilterFrame (skb : ℕ) (w : World) : World := brFdbGet (w.emit (.use skb))

def skbClone (c : Br) (skb : ℕ) (w : World) : Option ℕ × World :=
  if c.cloneFails w.calls then (none,{ w.emit (.use skb) with calls := w.calls+1 })
  else (some w.made,{ w.emit (.clone skb w.made) with
    calls := w.calls+1
    made := w.made+1
    dev := update w.dev w.made (w.dev skb) })

def Br.forwarding (c : Br) (p : ℕ) : Bool := c.state p &&& BR_STATE_FORWARDING ≠ 0

def shouldDeliver (c : Br) (p : ℕ) (dev : Dev) : Bool := dev ≠ .port p && c.forwarding p

def brSendFrame (c : Br) (dst skb : ℕ) (w : World) : World :=
  let w := w.emit (.use skb)
  if shouldDeliver c dst (w.dev skb) then
    let w := w.setDev skb (.port dst)
    if c.brFilterActive then
      let w := brFilterFrame skb w
      if c.filterFrame dst then w.emit (.free skb) else w.emit (.queue skb dst)
    else w.emit (.queue skb dst)
  else w.emit (.free skb)

/-- The loop of `br_flood`. The last port gets the buffer itself. -/
def floodPorts (c : Br) (skb : ℕ) : List ℕ → Option ℕ → World → World
  | [], some prev, w => brSendFrame c prev skb w
  | [], none, w => w.emit (.free skb)
  | p :: ps, prev, w =>
    let w := w.emit (.use skb)
    if shouldDeliver c p (w.dev skb) then
      match prev with
      | none => floodPorts c skb ps (some p) w
      | some q =>
        match skbClone c skb w with
        | (none,w) => w.emit (.free skb)
        | (some skb2,w) => floodPorts c skb ps (some p) (brSendFrame c q skb2 w)
    else floodPorts c skb ps prev w

def brFlood (c : Br) (skb : ℕ) (clone : Bool) (w : World) : World :=
  if clone then
    match skbClone c skb w with
    | (none,w) => w.emit (.free skb)
    | (some skb2,w) => floodPorts c skb2 c.portList none w
  else floodPorts c skb c.portList none w

def suppressed (plist : List PNode) (p : ℕ) : Bool :=
  (plist.find? (·.dst = p)).any (·.dontForwardReport)

/-- The loop of `br_selective_flood`. -/
def selectivePorts (c : Br) (plist : List PNode) (skb : ℕ) : List ℕ → World → World
  | [], w => w
  | p :: ps, w =>
    let w := w.emit (.use skb)
    if shouldDeliver c p (w.dev skb) && !suppressed plist p then
      match skbClone c skb w with
      | (none,w) => w.emit (.free skb)
      | (some skb2,w) => selectivePorts c plist skb ps (brSendFrame c p skb2 w)
    else selectivePorts c plist skb ps w

def brSelectiveFlood (c : Br) (plist : List PNode) (skb : ℕ) (w : World) : World :=
  selectivePorts c plist skb c.portList w

def brPassFrameUp (skb : ℕ) (w : World) : World :=
  ((w.emit (.use skb)).setDev skb .bridge).emit (.passUp skb)

def resetReport (source : ℕ) : List PNode → List PNode
  | [] => []
  | n :: ns =>
    if n.dst = source then { n with dontForwardReport := false } :: ns
    else n :: resetReport source ns

/-- `__mfd_insert_port`: the port list, and the report sent on. -/
def mfdInsertPort (c : Br) (plist : List PNode) (source skb : ℕ) (w : World) :
    List PNode × World :=
  if plist.any (·.dst = source) then
    let plist := resetReport source plist
    (plist,brSelectiveFlood c plist skb w)
  else if c.allocPort then
    let plist := ⟨source,false⟩ :: plist
    (plist,brSelectiveFlood c plist skb w)
  else (plist,w)

def brMfdInsert (c : Br) (source : ℕ) (addr : UInt32) (skb : ℕ) (w : World) : World :=
  let w := w.acquire .mfdHashLock .write
  match w.mfd addr with
  | some plist =>
    let r := mfdInsertPort c plist source skb w
    { r.2 with mfd := update r.2.mfd addr (some r.1) }.release .mfdHashLock .write
  | none =>
    if c.allocEntry then
      let r := mfdInsertPort c [] source skb w
      { r.2 with mfd := update r.2.mfd addr (some r.1) }.release .mfdHashLock .write
    else w.release .mfdHashLock .write

/-- `br_dont_forward_report`; group 0 stands for all of them. -/
def brDontForwardReport (group : UInt32) (excludeIf : Option ℕ) (w : World) : World :=
  let mark (plist : List PNode) := plist.map fun n =>
    if some n.dst = excludeIf then n else { n with dontForwardReport := true }
  let w := w.acquire .mfdHashLock .write
  let w :=
    if group = 0 then { w with mfd := fun a => (w.mfd a).map mark }
    else { w with mfd := update w.mfd group ((w.mfd group).map mark) }
  w.release .mfdHashLock .write

def brSendIgmpQuery (m : ConfMode) (c : Br) (group : UInt32) (w : World) : World :=
  let w := brDontForwardReport group none w
  if !m.route then w
  else if !m.rtSrc then w
  else if !m.allocQuery then w
  else
    let skb := w.made
    brFlood c skb false { w.emit (.alloc skb) with
      made := w.made+1
      dev := update w.dev skb .null }

/-- `br_leave_report_received`; the timer it restarts is not part of this model. -/
def brLeaveReportReceived (conf : Option ConfMode) (c : Br) (p : ℕ) (group : UInt32)
    (w : World) : World :=
  let w := w.acquire .mfdHashLock .write
  let w :=
    if ((w.mfd group).getD []).any (·.dst = p) then
      match conf with
      | some m =>
        if m.bridgeOnly && w.isQuerier = .querier then brSendIgmpQuery m c group w else w
      | none => w
    else w
  w.release .mfdHashLock .write

def brMcLearnAndFlood (conf : Option ConfMode) (c : Br) (source : ℕ) (type : UInt8)
    (group : UInt32) (skb : ℕ) (w : World) : World :=
  if type = IGMP_V1_MEMBERSHIP_REPORT then brMfdInsert c source group skb w
  else if type = IGMP_V2_MEMBERSHIP_REPORT then brMfdInsert c source group skb w
  else if type = IGMP_LEAVE_GROUP then
    brFlood c skb true (brLeaveReportReceived conf c source group w)
  else w

/-- `INPUT` with the port the frame came in on, or `FORWARD`. -/
inductive Mode
  | input (source : ℕ)
  | forward
  deriving DecidableEq

/-- A query that another router sent; `none` when the bridge has no address to compare. -/
def querierElection (conf : Option ConfMode) (c : Br) (w : World) : Option World :=
  match conf with
  | none => some w
  | some m =>
    if m.bridgeOnly && c.igmpType = IGMP_MEMBERSHIP_QUERY then
      m.inDev.map fun ifaAddress =>
        match w.isQuerier with
        | .querier =>
          if c.saddr < ifaAddress then { w with isQuerier := .nonQuerier } else w
        | .nonQuerier =>
          if c.saddr < ifaAddress then w
          else brSendIgmpQuery m c 0 { w with isQuerier := .querier }
        | .notApplicable => w
    else some w

/-- `switch(type)` of `br_handle_mc`. -/
def igmpSwitch (conf : Option ConfMode) (c : Br) (skb : ℕ) (mode : Mode) (w : World) : World :=
  let type := c.igmpType
  if type = IGMP_V1_MEMBERSHIP_REPORT ∨ type = IGMP_V2_MEMBERSHIP_REPORT ∨
    type = IGMP_LEAVE_GROUP then
    match mode with
    | .input source =>
      (brMcLearnAndFlood conf c source type c.igmpGroup skb w).emit (.free skb)
    | .forward => brFlood c skb false w
  else if type = IGMP_MEMBERSHIP_QUERY then
    let ifindex := match mode with
      | .input source => some source
      | .forward => none
    brFlood c skb false (brDontForwardReport c.igmpGroup ifindex w)
  else brFlood c skb false w

def dataPorts (c : Br) (skb : ℕ) : PNode → List PNode → World → UInt8 × World
  | pnode, [], w => (0,brSendFrame c pnode.dst skb w)
  | pnode, next :: rest, w =>
    match skbClone c skb w with
    | (none,w) => (MFD_MEMORY_ERROR,w)
    | (some skb2,w) => dataPorts c skb next rest (brSendFrame c pnode.dst skb2 w)

def brMfdGet (group : UInt32) (w : World) : Option (List PNode) × World :=
  (w.mfd group,(w.acquire .mfdHashLock .read).release .mfdHashLock .read)

def brHandleMc (conf : Option ConfMode) (c : Br) (skb : ℕ) (mode : Mode) (w : World) :
    UInt8 × World :=
  let w := w.emit (.use skb)
  if c.isIp then
    if c.isIgmp then
      match querierElection conf c w with
      | none => (MFD_PARSE_ERROR,w)
      | some w => (0,igmpSwitch conf c skb mode w)
    else
      match brMfdGet c.daddr w with
      | (some (pnode :: rest),w) => dataPorts c skb pnode rest w
      | (_,w) =>
        if mode = .forward ∧ floodMcast c.daddr then (0,brFlood c skb false w)
        else (0,w.emit (.free skb))
  else (0,brFlood c skb false w)

/-- The multicast and broadcast branch of `__br_handle_frame`. The result of `br_handle_mc`
is unsigned, so the test for an error never succeeds. -/
def handleGroupFrame (conf : Option ConfMode) (c : Br) (source skb : ℕ) (w : World) : World :=
  if c.multicast then
    match skbClone c skb w with
    | (none,w) => w.emit (.free skb)
    | (some skb2,w) =>
      let r := brHandleMc conf c skb2 (.input source) w
      if (r.1.toNat : ℤ) < 0 then (r.2.emit (.free skb2)).emit (.free skb)
      else brPassFrameUp skb r.2
  else brPassFrameUp skb (brFlood c skb true w)

/-- `__br_handle_frame` for a frame from port `source`. -/
def handleFrame (conf : Option ConfMode) (c : Br) (source skb : ℕ) (w : World) : World :=
  let w := w.emit (.use skb)
  if c.data 6 &&& 1 ≠ 0 then w.emit (.free skb)
  else
    let w := if c.state source &&& (BR_STATE_LEARNING ||| BR_STATE_FORWARDING) ≠ 0 then
      brFdbInsert w else w
    if c.forwarding source then
      if c.group then handleGroupFrame conf c source skb w
      else
        let w := brFdbGet w
        match c.fdb with
        | some hit => if hit.isLocal then brPassFrameUp skb w else brSendFrame c hit.dst skb w
        | none => brFlood c skb false w
    else w.emit (.free skb)

def brHandleFrame (conf : Option ConfMode) (c : Br) (source skb : ℕ) (w : World) : World :=
  (handleFrame conf c source skb (w.acquire .lock .read)).release .lock .read

/-- `br_dev_xmit`. The multicast branch returns before the lock is released. -/
def brDevXmit (conf : Option ConfMode) (c : Br) (skb : ℕ) (w : World) : World :=
  let w := (w.acquire .lock .read).emit (.use skb)
  if c.group then
    if c.multicast then
      let r := brHandleMc conf c skb .forward w
      if (r.1.toNat : ℤ) < 0 then r.2.emit (.free skb) else r.2
    else brFlood c skb false w
  else
    let w := brFdbGet w
    let w := match c.fdb with
      | some hit => brSendFrame c hit.dst skb w
      | none => brFlood c skb false w
    w.release .lock .read

end DslG624t.Bridge.Forward
