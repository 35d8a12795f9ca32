import DslG624t.Lib.Packed

/-!
# The PHY state machine

`cpswhalcommon_miimdio.c` finds a PHY, negotiates with the link partner and watches the link.
Every call sees its own register contents; what is written to the PHY is left out.
-/

namespace DslG624t.Mii

open Packed (has)

@[simp] def phyDevMask : BitVec 32 := 0x1f

@[simp] def phyStateMask : BitVec 32 := 0x1f <<< 5
@[simp] def init : BitVec 32 := 1 <<< 5
@[simp] def finding : BitVec 32 := 2 <<< 5
@[simp] def found : BitVec 32 := 3 <<< 5
@[simp] def nwayStart : BitVec 32 := 4 <<< 5
@[simp] def nwayWait : BitVec 32 := 5 <<< 5
@[simp] def linkWait : BitVec 32 := 6 <<< 5
@[simp] def linked : BitVec 32 := 7 <<< 5
@[simp] def loopback : BitVec 32 := 8 <<< 5

@[simp] def phySpeedMask : BitVec 32 := 1 <<< 10
@[simp] def phyDuplexMask : BitVec 32 := 1 <<< 11

@[simp] def phyTimMask : BitVec 32 := 0x3ff <<< 12
@[simp] def phyFindTo : BitVec 32 := 2 <<< 12
@[simp] def phyReckTo : BitVec 32 := 200 <<< 12
@[simp] def phyLinkTo : BitVec 32 := 500 <<< 12
@[simp] def phyNwstTo : BitVec 32 := 500 <<< 12
@[simp] def phyNwdnTo : BitVec 32 := 800 <<< 12
@[simp] def phyMdixTo : BitVec 32 := 274 <<< 12

@[simp] def phySmodeMask : BitVec 32 := 0x3f <<< 22
@[simp] def smodeLpbk : BitVec 32 := 0x20 <<< 22
@[simp] def smodeAuto : BitVec 32 := 0x10 <<< 22
@[simp] def smodeFd100 : BitVec 32 := 0x08 <<< 22
@[simp] def smodeHd100 : BitVec 32 := 0x04 <<< 22
@[simp] def smodeFd10 : BitVec 32 := 0x02 <<< 22
@[simp] def smodeHd10 : BitVec 32 := 0x01 <<< 22

@[simp] def phyChange : BitVec 32 := 1 <<< 28
@[simp] def phyMdixSwitch : BitVec 32 := 1 <<< 29
@[simp] def phyMdix : BitVec 32 := 1 <<< 30

def miiPhy100 : BitVec 16 := 1 <<< 13
def miiRenegotiate : BitVec 16 := 1 <<< 9
def miiPhyFd : BitVec 16 := 1 <<< 8

def miiNwayComplete : BitVec 16 := 1 <<< 5
def miiNwayCapable : BitVec 16 := 1 <<< 3
def miiPhyLinked : BitVec 16 := 1 <<< 2

def miiNwayFd100 : BitVec 16 := 1 <<< 8
def miiNwayHd100 : BitVec 16 := 1 <<< 7
def miiNwayFd10 : BitVec 16 := 1 <<< 6
def miiNwayHd10 : BitVec 16 := 1 <<< 5
def miiNwaySel : BitVec 16 := 1 <<< 0

def nwayAutomdix : BitVec 32 := 1 <<< 16
def miimdioMdixflip : BitVec 32 := 1 <<< 28

/-- What the registers hold when a call reads them: the two of the MDIO module and the four of
the PHY. -/
structure Regs where
  mdioAlive : BitVec 32
  mdioLink : BitVec 32
  phyControl : BitVec 16
  phyStatus : BitVec 16
  nwayAdvertize : BitVec 16
  nwayRemadvertise : BitVec 16

structure Phy where
  phyState : BitVec 32
  mdixMask : BitVec 32
  phyMask : BitVec 32
  phyMode : BitVec 32
  -- a static variable of the file
  randomSeed : BitVec 32

def cpswHalCommonRandom (seed : BitVec 32) : ℕ × BitVec 32 :=
  let seed := seed*1103515245+12345
  ((seed / 65536).toNat % 0x10000,seed)

def cpswHalCommonRandomRange (min max : ℕ) (seed : BitVec 32) : ℕ × BitVec 32 :=
  let r := cpswHalCommonRandom seed
  (r.1 % (max-min+1)+min,r.2)

namespace Phy

def phyNum (p : Phy) : ℕ := (p.phyState &&& phyDevMask).toNat

def mdixSupported (p : Phy) : Bool :=
  has p.phyMode nwayAutomdix && has (1#32 <<< p.phyNum) p.mdixMask

def mdixDelay (p : Phy) : Phy :=
  if !p.mdixSupported then p
  else
    let r := cpswHalCommonRandomRange 80 200 p.randomSeed
    let delay := r.1 / 10+(phyMdixTo >>> 12).toNat
    { p with
      phyState := p.phyState &&& ~~~phyTimMask ||| BitVec.ofNat 32 delay <<< 12
      randomSeed := r.2 }

def phyTimeOut (p : Phy) : Phy :=
  if !p.mdixSupported then p
  else
    let s := p.phyState ||| phyMdixSwitch
    let s := if has s phyMdix then s &&& ~~~phyMdix else s ||| phyMdix
    { p with phyState := s &&& ~~~phyStateMask ||| found }

def initState (p : Phy) : Phy :=
  let s := p.phyState &&& ~~~phyTimMask ||| phyFindTo
  let s := s &&& ~~~phyStateMask ||| finding
  let s := s &&& ~~~phySpeedMask
  let s := s &&& ~~~phyDuplexMask
  { p with phyState := s ||| phyChange }

def tickDown (s : BitVec 32) : BitVec 32 :=
  s &&& ~~~phyTimMask ||| ((s &&& phyTimMask)-1#32 <<< 12)

def waitOn (p : Phy) : Phy :=
  if has p.phyState phyTimMask then { p with phyState := tickDown p.phyState } else p.phyTimeOut

def findingState (p : Phy) (r : Regs) : Phy :=
  if has p.phyState phyTimMask then { p with phyState := tickDown p.phyState }
  else
    let phyAcks := r.mdioAlive &&& p.phyMask
    match (List.range 32).find? fun i => has (1#32 <<< i) phyAcks with
    | some phyNum =>
      let s := p.phyState &&& ~~~phyDevMask ||| (BitVec.ofNat 32 phyNum &&& phyDevMask) <<< 0
      let s := s &&& ~~~phyStateMask ||| found
      { p with phyState := s ||| phyChange }
    | none => { p with phyState := p.phyState ||| phyReckTo }

def topBit (m : BitVec 16) : ℕ → BitVec 16 → BitVec 16
  | 0, j => j
  | i+1, j => if has j m then j else topBit m i (j >>> 1)

def nwayAdvertise (s : BitVec 32) : BitVec 16 :=
  let advertise := miiNwaySel
  let advertise := if has s smodeFd100 then advertise ||| miiNwayFd100 else advertise
  let advertise := if has s smodeHd100 then advertise ||| miiNwayHd100 else advertise
  let advertise := if has s smodeFd10 then advertise ||| miiNwayFd10 else advertise
  if has s smodeHd10 then advertise ||| miiNwayHd10 else advertise

def requested (advertise : BitVec 16) : BitVec 16 :=
  let m := topBit advertise 16 0x8000
  let fast := has m (miiNwayFd100 ||| miiNwayHd100)
  let j := if fast then miiPhy100 else 0
  let m := if fast then m &&& (miiNwayFd100 ||| miiNwayHd100) else m
  if has m (miiNwayFd100 ||| miiNwayFd10) then j ||| miiPhyFd else j

def foundState (p : Phy) (r : Regs) : Phy :=
  let s := p.phyState
  if !has s phySmodeMask then p
  else if has s smodeLpbk then
    { p with phyState := s &&& ~~~phyStateMask ||| loopback ||| phyChange }
  else
    let advertise := nwayAdvertise s
    let s := s &&& ~~~(phyTimMask ||| phyStateMask)
    if has r.phyStatus miiNwayCapable && has s smodeAuto then
      mdixDelay { p with phyState := s ||| (phyChange ||| phyNwstTo ||| nwayStart) }
    else
      let s := s &&& ~~~smodeAuto
      let j := requested advertise
      let s := s &&& ~~~phySpeedMask
      let s := if has j miiPhy100 then s ||| 1#32 <<< 10 else s
      let s := s &&& ~~~phyDuplexMask
      let s := if has j miiPhyFd then s ||| 1#32 <<< 11 else s
      mdixDelay { p with phyState := s ||| (phyChange ||| phyLinkTo ||| linkWait) }

def nwayStartState (p : Phy) (r : Regs) : Phy :=
  if !has r.phyControl miiRenegotiate then
    let s := p.phyState &&& ~~~(phyStateMask ||| phyTimMask)
    { p with phyState := s ||| (phyChange ||| nwayWait ||| phyNwdnTo) }
  else p.waitOn

def negMode (advertise readvertise : BitVec 16) : BitVec 16 :=
  let mode := advertise &&& readvertise
  let mode := mode &&& (miiNwayFd100 ||| miiNwayHd100 ||| miiNwayFd10 ||| miiNwayHd10)
  let mode := if mode = 0 then (miiNwayHd100 ||| miiNwayHd10) &&& advertise else mode
  topBit mode 16 0x8000

def nwayWaitState (p : Phy) (r : Regs) : Phy :=
  if has r.phyStatus miiNwayComplete then
    let s := p.phyState ||| phyChange
    let s := s &&& ~~~phySpeedMask
    let s := s &&& ~~~phyDuplexMask
    let mode := negMode r.nwayAdvertize r.nwayRemadvertise
    if mode ≠ 0 then
      let s := if has r.phyStatus miiPhyLinked then s &&& ~~~phyStateMask ||| linked
        else s &&& ~~~phyStateMask ||| linkWait
      let s := if has mode (miiNwayFd100 ||| miiNwayHd100)
        then s &&& ~~~phySpeedMask ||| 1#32 <<< 10 else s
      let s := if has mode (miiNwayFd100 ||| miiNwayFd10)
        then s &&& ~~~phyDuplexMask ||| 1#32 <<< 11 else s
      { p with phyState := s }
    else { p with phyState := s }
  else p.waitOn

def linkWaitState (p : Phy) (r : Regs) : Phy :=
  if has r.phyStatus miiPhyLinked then
    { p with phyState := p.phyState &&& ~~~phyStateMask ||| linked ||| phyChange }
  else p.waitOn

def linkedState (p : Phy) (r : Regs) : Phy :=
  if has r.mdioLink (1#32 <<< p.phyNum) then p
  else
    let s := p.phyState &&& ~~~(phyStateMask ||| phyTimMask)
    let s := if has s smodeAuto then s ||| (phyChange ||| nwayWait ||| phyNwdnTo)
      else s ||| (phyChange ||| phyLinkTo ||| linkWait)
    mdixDelay { p with phyState := s }

def defaultState (p : Phy) : Phy := { p with phyState := p.phyState ||| phyChange }

/-- The switch over the states. -/
def act (p : Phy) (r : Regs) : Phy :=
  let c := p.phyState &&& phyStateMask
  if c = init then p.initState
  else if c = finding then p.findingState r
  else if c = found then p.foundState r
  else if c = nwayStart then p.nwayStartState r
  else if c = nwayWait then p.nwayWaitState r
  else if c = linkWait then p.linkWaitState r
  else if c = linked then p.linkedState r
  else if c = loopback then p
  else p.defaultState

/-- `cpswHalCommonMiiMdioTic`: what it returns, and the device afterwards. -/
def tic (p : Phy) (r : Regs) : BitVec 32 × Phy :=
  let p := p.act r
  if has p.phyState phyMdixSwitch then
    let s := p.phyState &&& ~~~phyMdixSwitch
    let mdix : BitVec 32 := if has s phyMdix then 1 else 0
    (miimdioMdixflip ||| mdix,{ p with phyState := s })
  else if has p.phyState phyChange then
    (1,{ p with phyState := p.phyState &&& ~~~phyChange })
  else (0,p)

def run (p : Phy) (regs : ℕ → Regs) : ℕ → Phy
  | 0 => p
  | n+1 => ((p.run regs n).tic (regs n)).2

end Phy

end DslG624t.Mii
