import DslG624t.Ip.Receive

/-!
# Packets that are delivered locally

The way from `ip_rcv` to the hook `NF_IP_LOCAL_IN`.
-/

namespace DslG624t.Ip

/-- The code around the path: whether the packet was tracked before (on the loopback device), a
reassembled buffer that cannot be made linear, what the rest of the hooks before routing makes of a
packet if it lets it pass, the route, a copy that fails, the options as they are compiled, whether
the device allows source routes, the next hop of one, and the reassembly of fragments. -/
structure Env where
  nfct : Bool
  linearizeFails : Bool
  preRouting : Skb → Option Skb
  routeInput : Skb → Option Input
  cowFails : Bool
  ipOptionsCompile : Skb → Option Skb
  sourceRoute : Option Bool
  ipOptionsRcvSrr : Skb → Option Skb
  ipDefrag : Skb → Option Skb

/-- Where a call of `ip_rcv` leaves the packet. -/
inductive Outcome
  | dropped
  | hooked
  | discarded
  | forwarded (skb : Skb)
  | queued
  | localIn (skb : Skb)

variable (e : Endian) (env : Env)

/-- `IP_MF|IP_OFFSET` marks a fragment. -/
def Skb.isFragment (skb : Skb) : Bool := skb.fragOff &&& 0x3FFF ≠ 0

/-- The end of `ip_local_deliver`. -/
def reassemble (skb : Skb) : Outcome :=
  if skb.isFragment then
    match env.ipDefrag skb with
    | none => .queued
    | some q => .localIn q
  else .localIn skb

def ipLocalDeliver (skb : Skb) : Outcome :=
  -- `&(IPCB(skb)->opt)` is an address inside the buffer
  let opt : Option IpOptions := some skb.opt
  match opt with
  | none => if ipFastCsum e skb.mem skb.ihl ≠ 0 then .dropped else reassemble env skb
  | some _ => reassemble env skb

/-- The packet after its options, if they are in order. -/
def ipProcessOption (skb : Skb) : Option Skb :=
  if ipFastCsum e skb.mem skb.ihl ≠ 0 then none
  else if env.cowFails then none
  else
    match env.ipOptionsCompile { skb with ipSummed := .none } with
    | none => none
    | some q =>
      if q.opt.srr ≠ 0 then
        match env.sourceRoute with
        | some false => none
        | _ => env.ipOptionsRcvSrr q
      else some q

def input (skb : Skb) : Outcome :=
  match skb.dst with
  | some .localDeliver => ipLocalDeliver e env skb
  | some .forward => .forwarded skb
  | _ => .discarded

def processed (skb : Skb) : Option Skb :=
  if 5 < skb.ihl then ipProcessOption e env skb else some skb

def ipRcvFinish (skb : Skb) : Outcome :=
  match skb.dst.or (env.routeInput skb) with
  | none => .dropped
  | some dst =>
    match processed e env { skb with dst := some dst } with
    | none => .dropped
    | some q => input e env q

def ipSendCheck (skb : Skb) : Skb :=
  let check := ipFastCsum e ((skb.mem.set 10 0).set 11 0) skb.ihl
  let low := UInt8.ofNat check
  let high := UInt8.ofNat (check / 0x100)
  { skb with
    mem := (skb.mem.set 10 (if e = .little then low else high)).set 11
      (if e = .little then high else low)
    header_le := by simpa using skb.header_le
    len_le := by simpa using skb.len_le }

def ipCtGatherFrags (skb : Skb) : Except Outcome Skb :=
  match env.ipDefrag skb with
  | none => .error .queued
  | some q =>
    if env.linearizeFails then .error .dropped
    else if q.version ≠ 4 then .error .dropped
    else .ok (ipSendCheck e q)

/-- The part of the hook that gathers fragments. -/
def ipConntrackIn (skb : Skb) : Except Outcome Skb :=
  if env.nfct then .ok skb
  else if skb.isFragment then ipCtGatherFrags e env skb
  else .ok skb

def receive (skb : Skb) : Outcome :=
  match ipRcv skb with
  | none => .dropped
  | some q =>
    match ipConntrackIn e env q with
    | .error o => o
    | .ok q =>
      match env.preRouting q with
      | none => .hooked
      | some q' => ipRcvFinish e env q'

variable {e env} {q skb : Skb}

end DslG624t.Ip
