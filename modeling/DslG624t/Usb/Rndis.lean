import DslG624t.Lib.Checked

/-!
# The RNDIS function of the USB slave driver

Models the receive side of `usb20_rndis.c`: the control messages of
`rndis_usb_control_receive` with the handlers it dispatches to, and the bulk
packets of `rndis_receive_bulk_data`. The layouts are those of `rndis.h`, the
build is the little-endian one of `usb20_config.h`. Nothing is assumed of the
memory around a buffer: an access that leaves the buffer it is meant for stops
the run with a `Fault`.
-/

namespace DslG624t.Usb

open CString Checked List

inductive Fault
  | receivedBuffer
  | mcastList
  | hostMacAddress
  | response
  deriving DecidableEq, Repr

abbrev Run := Except Fault

/-- The objects of `RNDIS_Supported_OID`. -/
inductive Oid
  | genRndisConfigParameter
  | genSupportedList
  | genHardwareStatus
  | genMediaSupported
  | genMediaInUse
  | genMaximumFrameSize
  | genLinkSpeed
  | genTransmitBufferSpace
  | genTransmitBlockSize
  | genReceiveBlockSize
  | genVendorId
  | genVendorDescription
  | genCurrentPacketFilter
  | genMaximumTotalSize
  | genMacOptions
  | genMediaConnectStatus
  | genVendorDriverVersion
  | genPhysicalMedium
  | genXmitOk
  | genRcvOk
  | genXmitError
  | genRcvError
  | genRcvNoBuffer
  | genDirectedBytesXmit
  | genDirectedFramesXmit
  | genMulticastBytesXmit
  | genMulticastFramesXmit
  | genBroadcastBytesXmit
  | genBroadcastFramesXmit
  | genDirectedBytesRcv
  | genDirectedFramesRcv
  | genMulticastBytesRcv
  | genMulticastFramesRcv
  | genBroadcastBytesRcv
  | genBroadcastFramesRcv
  | genRcvCrcError
  | genTransmitQueueLength
  | ethPermanentAddress
  | ethCurrentAddress
  | ethMulticastList
  | ethMaximumListSize
  | ethRcvErrorAlignment
  | ethXmitOneCollision
  | ethXmitMoreCollisions
  | ethXmitDeferred
  | ethXmitMaxCollisions
  | ethRcvOverrun
  | ethXmitUnderrun
  | ethXmitHeartbeatFailure
  | ethXmitTimesCrsLost
  | ethXmitLateCollisions
  deriving DecidableEq, Repr

namespace Oid

/-- The codes of `rndis.h` and `usb20_rndis.h`; `eth` stands for `802_3`. -/
def code : Oid → ℕ
  | genRndisConfigParameter => 0x0001021B
  | genSupportedList => 0x00010101
  | genHardwareStatus => 0x00010102
  | genMediaSupported => 0x00010103
  | genMediaInUse => 0x00010104
  | genMaximumFrameSize => 0x00010106
  | genLinkSpeed => 0x00010107
  | genTransmitBufferSpace => 0x00010108
  | genTransmitBlockSize => 0x0001010A
  | genReceiveBlockSize => 0x0001010B
  | genVendorId => 0x0001010C
  | genVendorDescription => 0x0001010D
  | genCurrentPacketFilter => 0x0001010E
  | genMaximumTotalSize => 0x00010111
  | genMacOptions => 0x00010113
  | genMediaConnectStatus => 0x00010114
  | genVendorDriverVersion => 0x00010116
  | genPhysicalMedium => 0x00010202
  | genXmitOk => 0x00020101
  | genRcvOk => 0x00020102
  | genXmitError => 0x00020103
  | genRcvError => 0x00020104
  | genRcvNoBuffer => 0x00020105
  | genDirectedBytesXmit => 0x00020201
  | genDirectedFramesXmit => 0x00020202
  | genMulticastBytesXmit => 0x00020203
  | genMulticastFramesXmit => 0x00020204
  | genBroadcastBytesXmit => 0x00020205
  | genBroadcastFramesXmit => 0x00020206
  | genDirectedBytesRcv => 0x00020207
  | genDirectedFramesRcv => 0x00020208
  | genMulticastBytesRcv => 0x00020209
  | genMulticastFramesRcv => 0x0002020A
  | genBroadcastBytesRcv => 0x0002020B
  | genBroadcastFramesRcv => 0x0002020C
  | genRcvCrcError => 0x0002020D
  | genTransmitQueueLength => 0x0002020E
  | ethPermanentAddress => 0x01010101
  | ethCurrentAddress => 0x01010102
  | ethMulticastList => 0x01010103
  | ethMaximumListSize => 0x01010104
  | ethRcvErrorAlignment => 0x01020101
  | ethXmitOneCollision => 0x01020102
  | ethXmitMoreCollisions => 0x01020103
  | ethXmitDeferred => 0x01020201
  | ethXmitMaxCollisions => 0x01020202
  | ethRcvOverrun => 0x01020203
  | ethXmitUnderrun => 0x01020204
  | ethXmitHeartbeatFailure => 0x01020205
  | ethXmitTimesCrsLost => 0x01020206
  | ethXmitLateCollisions => 0x01020207

end Oid

def rndisSupportedOid : List Oid :=
  [.genRndisConfigParameter,.genSupportedList,.genHardwareStatus,.genMediaSupported,
    .genMediaInUse,.genMaximumFrameSize,.genLinkSpeed,.genTransmitBufferSpace,
    .genTransmitBlockSize,.genReceiveBlockSize,.genVendorId,.genVendorDescription,
    .genCurrentPacketFilter,.genMaximumTotalSize,.genMacOptions,.genMediaConnectStatus,
    .genVendorDriverVersion,.genPhysicalMedium,.genXmitOk,.genRcvOk,.genXmitError,
    .genRcvError,.genRcvNoBuffer,.genDirectedBytesXmit,.genDirectedFramesXmit,
    .genMulticastBytesXmit,.genMulticastFramesXmit,.genBroadcastBytesXmit,
    .genBroadcastFramesXmit,.genDirectedBytesRcv,.genDirectedFramesRcv,
    .genMulticastBytesRcv,.genMulticastFramesRcv,.genBroadcastBytesRcv,
    .genBroadcastFramesRcv,.genRcvCrcError,.genTransmitQueueLength,.ethPermanentAddress,
    .ethCurrentAddress,.ethMulticastList,.ethMaximumListSize,.ethRcvErrorAlignment,
    .ethXmitOneCollision,.ethXmitMoreCollisions,.ethXmitDeferred,.ethXmitMaxCollisions,
    .ethRcvOverrun,.ethXmitUnderrun,.ethXmitHeartbeatFailure,.ethXmitTimesCrsLost,
    .ethXmitLateCollisions]

def Oid.ofCode? (n : ℕ) : Option Oid := rndisSupportedOid.find? fun o => o.code = n

inductive RndisState
  | uninitialized
  | initialized
  | dataInitialized
  deriving DecidableEq, Repr

def maxBufferSize : ℕ := 512

def mcastListBytes : ℕ := 32*6

structure Response where
  data : Fin maxBufferSize → UInt8
  len : ℕ

abbrev Mac := Fin 6 → UInt8

/-- `RNDIS_STATS`; the counters are taken modulo `2 ^ 32` when they are sent. -/
structure Stats where
  broadcastPktsTxed : ℕ
  broadcastBytesTxed : ℕ
  multicastPktsTxed : ℕ
  multicastBytesTxed : ℕ
  unicastPktsTxed : ℕ
  unicastBytesTxed : ℕ
  broadcastPktsRxed : ℕ
  broadcastBytesRxed : ℕ
  multicastPktsRxed : ℕ
  multicastBytesRxed : ℕ
  unicastPktsRxed : ℕ
  unicastBytesRxed : ℕ
  receivePacketsDropped : ℕ

structure Device where
  idVendor : ℕ
  speed : ℕ
  -- `usb20_config_get_manufacturer_string` refuses a string that does not fit 256 bytes
  manufacturer : Bytes
  manufacturer_lt : manufacturer.length < 256

structure Mcb where
  state : RndisState
  hostMacAddress : Mac
  permanentMacAddress : Mac
  packetFilter : ℕ
  freeList : List Response
  responseList : List Response
  -- the responses given to the control pipe and not yet reported as sent
  ctrlIn : List Response
  mcastList : Fin mcastListBytes → UInt8
  mcastListSize : ℕ
  mcastListSize_le : mcastListSize ≤ mcastListBytes
  stats : Stats
  -- the frames passed to the END driver: the address in their buffer and the length
  received : List (ℕ × ℕ)

def resetFilter : ℕ := 0x20 ||| 0x01 ||| 0x02 ||| 0x04 ||| 0x08

def Stats.zero : Stats := ⟨0,0,0,0,0,0,0,0,0,0,0,0,0⟩

def rndisUsbInit (mac : Mac) : Mcb where
  state := .uninitialized
  hostMacAddress := mac
  permanentMacAddress := mac
  packetFilter := resetFilter
  freeList := replicate 5 ⟨fun _ => 0,0⟩
  responseList := []
  ctrlIn := []
  mcastList := fun _ => 0
  mcastListSize := 0
  mcastListSize_le := Nat.zero_le _
  stats := .zero
  received := []

def rndisUsbReset (m : Mcb) : Mcb :=
  { m with
    packetFilter := resetFilter
    hostMacAddress := m.permanentMacAddress
    state := .uninitialized
    freeList := m.freeList ++ m.responseList
    responseList := []
    stats := .zero }

def Mcb.queue (m : Mcb) (free : List Response) (r : Response) : Mcb :=
  { m with freeList := free, responseList := m.responseList ++ [r] }

def loadL (b : Bytes) (p : ℕ) : Run ℕ := peekValue .receivedBuffer b p 4

def loadW (b : Bytes) (p : ℕ) : Run ℕ := peekValue .receivedBuffer b p 2

def wordBytes (ws : List ℕ) : Bytes := ws.flatMap Endian.little.encode

def storeL (data : Fin maxBufferSize → UInt8) (off : ℕ) (ws : List ℕ) :
    Run (Fin maxBufferSize → UInt8) :=
  poke .response data off (wordBytes ws)

def statusSuccess : ℕ := 0x00000000

def statusFailure : ℕ := 0xC0000001

def statusBadVersion : ℕ := 0xC0010004

def rndisMajorVersion : ℕ := 1

def rndisMinorVersion : ℕ := 0

/-! In each handler `p` is the address of the message, whose fields follow its type
and its length. A response is the same: `NdisMessageType`, `MessageLength` and
the fields of the completion from offset 8 on. -/

def hostIsOlder (b : Bytes) (p : ℕ) : Run Bool := do
  let major ← loadL b (p+12)
  if major < rndisMajorVersion then pure true
  else if major = rndisMajorVersion then do
    let minor ← loadL b (p+16)
    pure (decide (minor < rndisMinorVersion))
  else pure false

def rndisProcessInitializeMessage (m : Mcb) (b : Bytes) (p : ℕ) : Run Mcb :=
  match m.freeList with
  | [] => pure m
  | buffer :: free => do
    let requestId ← loadL b (p+8)
    let data ← storeL buffer.data 8
      [requestId,statusSuccess,rndisMajorVersion,rndisMinorVersion,1,0,1,2048,3,0,0]
    let data ← storeL data 0 [0x80000002,52]
    let older ← hostIsOlder b p
    if older then do
      let data ← storeL data 12 [statusBadVersion]
      pure (m.queue free ⟨data,52⟩)
    else pure ({ m with state := .initialized }.queue free ⟨data,52⟩)

def queryReply (d : Device) (m : Mcb) : Oid → Bytes
  | .genSupportedList => wordBytes (rndisSupportedOid.map Oid.code)
  | .genHardwareStatus => wordBytes [0]
  | .genMediaSupported => wordBytes [0]
  | .genMediaInUse => wordBytes [0]
  | .genMaximumFrameSize => wordBytes [1500]
  | .genLinkSpeed => wordBytes [d.speed / 100]
  | .genTransmitBlockSize => wordBytes [1514]
  | .genReceiveBlockSize => wordBytes [1514]
  | .genVendorId => wordBytes [d.idVendor]
  | .genVendorDescription => d.manufacturer ++ [0]
  | .genTransmitBufferSpace => wordBytes [1600]
  | .genCurrentPacketFilter => wordBytes [m.packetFilter]
  | .genMaximumTotalSize => wordBytes [1514]
  | .genMacOptions => wordBytes [0x00000008]
  -- the platform always reports a connected medium
  | .genMediaConnectStatus => wordBytes [0]
  | .genVendorDriverVersion => wordBytes [0x00000001]
  | .genPhysicalMedium => wordBytes [5]
  | .genXmitOk => wordBytes
    [m.stats.broadcastPktsTxed+m.stats.multicastPktsTxed+m.stats.unicastPktsTxed]
  | .genRcvOk => wordBytes
    [m.stats.broadcastPktsRxed+m.stats.multicastPktsRxed+m.stats.unicastPktsRxed]
  | .genXmitError => wordBytes [0]
  | .genRcvError => wordBytes [0]
  | .genRcvNoBuffer => wordBytes [0]
  | .genDirectedBytesXmit => wordBytes [m.stats.unicastBytesTxed]
  | .genDirectedFramesXmit => wordBytes [m.stats.unicastPktsTxed]
  | .genMulticastBytesXmit => wordBytes [m.stats.multicastBytesTxed]
  | .genMulticastFramesXmit => wordBytes [m.stats.multicastPktsTxed]
  | .genBroadcastBytesXmit => wordBytes [m.stats.broadcastBytesTxed]
  | .genBroadcastFramesXmit => wordBytes [m.stats.broadcastPktsTxed]
  | .genDirectedBytesRcv => wordBytes [m.stats.unicastBytesRxed]
  | .genDirectedFramesRcv => wordBytes [m.stats.unicastPktsRxed]
  | .genMulticastBytesRcv => wordBytes [m.stats.multicastBytesRxed]
  | .genMulticastFramesRcv => wordBytes [m.stats.multicastPktsRxed]
  | .genBroadcastBytesRcv => wordBytes [m.stats.broadcastBytesRxed]
  | .genBroadcastFramesRcv => wordBytes [m.stats.broadcastPktsRxed]
  | .genRcvCrcError => wordBytes [0]
  | .genTransmitQueueLength => wordBytes [0]
  | .ethPermanentAddress => ofFn m.permanentMacAddress
  | .ethCurrentAddress => ofFn m.hostMacAddress
  | .ethMulticastList =>
    ofFn fun i : Fin m.mcastListSize => m.mcastList (i.castLE m.mcastListSize_le)
  | .ethMaximumListSize => wordBytes [32]
  | .ethRcvErrorAlignment => wordBytes [0]
  | .ethXmitOneCollision => wordBytes [0]
  | .ethXmitMoreCollisions => wordBytes [0]
  | .ethXmitDeferred => wordBytes [0]
  | .ethXmitMaxCollisions => wordBytes [0]
  | .ethRcvOverrun => wordBytes [0]
  | .ethXmitUnderrun => wordBytes [0]
  | .ethXmitHeartbeatFailure => wordBytes [0]
  | .ethXmitTimesCrsLost => wordBytes [0]
  | .ethXmitLateCollisions => wordBytes [0]
  -- supported for setting only
  | .genRndisConfigParameter => []

def replyTo (d : Device) (m : Mcb) (oid : ℕ) : Bytes :=
  match Oid.ofCode? oid with
  | some oid => queryReply d m oid
  | none => []

def rndisProcessQueryMessage (d : Device) (m : Mcb) (b : Bytes) (p : ℕ) : Run Mcb :=
  match m.freeList with
  | [] => pure m
  | buffer :: free => do
    let oid ← loadL b (p+12)
    let reply := replyTo d m oid
    let data ← poke .response buffer.data 24 reply
    let requestId ← loadL b (p+8)
    let data ← storeL data 8 [requestId,statusSuccess,reply.length,16]
    let data ← storeL data 0 [0x80000004,24+reply.length]
    pure (m.queue free ⟨data,24+reply.length⟩)

def rndisProcessKeepAliveMessage (m : Mcb) (b : Bytes) (p : ℕ) : Run Mcb :=
  match m.freeList with
  | [] => pure m
  | buffer :: free => do
    let requestId ← loadL b (p+8)
    let data ← storeL buffer.data 8 [requestId,statusSuccess]
    let data ← storeL data 0 [0x80000008,16]
    pure (m.queue free ⟨data,16⟩)

def rndisProcessResetMessage (m : Mcb) : Run Mcb :=
  match m.freeList with
  | [] => pure m
  | buffer :: free => do
    let data ← storeL buffer.data 8 [statusSuccess,0]
    let data ← storeL data 0 [0x80000006,16]
    pure (m.queue free ⟨data,16⟩)

def rndisProcessHaltMessage (m : Mcb) : Run Mcb := pure (rndisUsbReset m)

/-- `memcpy` of the host's list over the multicast list, and its new size. -/
def storeMulticast (m : Mcb) (list : Bytes) : Run Mcb :=
  if h : list.length ≤ mcastListBytes then
    pure { m with
      mcastList := patch m.mcastList 0 list
      mcastListSize := list.length
      mcastListSize_le := h }
  else .error .mcastList

def setMulticastList (m : Mcb) (b : Bytes) (p info : ℕ) : Run Mcb := do
  let length ← loadL b (p+16)
  if length ≠ 0 then do
    let list ← peek .receivedBuffer b info length
    storeMulticast m list
  else
    pure { m with
      mcastList := fun _ => 0
      mcastListSize := 0
      mcastListSize_le := Nat.zero_le _ }

def setPacketFilter (m : Mcb) (b : Bytes) (info : ℕ) : Run Mcb := do
  let filter ← loadL b info
  if filter ≠ 0 then pure { m with packetFilter := filter, state := .dataInitialized }
  else pure m

def convertStringToUnicode (s : Bytes) : Bytes := s.flatMap fun c => [c,0]

def networkAddress : Bytes := convertStringToUnicode (ofString "NetworkAddress")

def nibble (value : ℕ) : Option ℕ :=
  if 0x30 ≤ value ∧ value ≤ 0x39 then some (value-0x30)
  else if 0x41 ≤ value ∧ value ≤ 0x46 then some (value-0x37)
  else if 0x61 ≤ value ∧ value ≤ 0x66 then some (value-0x57)
  else none

/-- Two hexadecimal digits, or nothing where one of them is none. -/
def loadHexByte (b : Bytes) (p : ℕ) : Run (Option UInt8) := do
  let value ← loadW b p
  match nibble value with
  | none => pure none
  | some first => do
    let value ← loadW b (p+2)
    match nibble value with
    | none => pure none
    | some second => pure (some (UInt8.ofNat (first <<< 4 ||| second)))

/-- The loop over the parameter's value: the slots are the bytes of the MAC address
from `index` on, and `length` is a `UINT16` that is tested before each byte only. -/
def storeNetworkAddress (b : Bytes) : List (Fin 6) → Mac → ℕ → ℕ → Run (Mac × ℕ)
  | [], mac, length, p =>
    if length = 0 then pure (mac,statusSuccess)
    else do
      let byte ← loadHexByte b p
      match byte with
      | none => pure (mac,statusFailure)
      | some _ => .error .hostMacAddress
  | i :: slots, mac, length, p =>
    if length = 0 then pure (mac,statusSuccess)
    else do
      let byte ← loadHexByte b p
      match byte with
      | none => pure (mac,statusFailure)
      | some value =>
        storeNetworkAddress b slots (Function.update mac i value)
          ((length+0xFFFC) % 0x10000) (p+4)

/-- The platform knows no further parameter. -/
def setConfigParameter (m : Mcb) (b : Bytes) (info : ℕ) : Run (Mcb × ℕ) := do
  let nameOffset ← loadL b info
  let nameLength ← loadL b (info+4)
  if nameLength = networkAddress.length then do
    let same ← memcmp .receivedBuffer b networkAddress (info+nameOffset)
    if same then do
      let valueLength ← loadL b (info+16)
      let valueOffset ← loadL b (info+12)
      let (mac,status) ← storeNetworkAddress b (finRange 6) m.hostMacAddress
        (valueLength % 0x10000) (info+valueOffset)
      pure ({ m with hostMacAddress := mac },status)
    else pure (m,statusFailure)
  else pure (m,statusFailure)

def setObject (m : Mcb) (b : Bytes) (p info : ℕ) : Option Oid → Run (Mcb × ℕ)
  | some .genCurrentPacketFilter => do
    let m ← setPacketFilter m b info
    pure (m,statusSuccess)
  | some .ethMulticastList => do
    let m ← setMulticastList m b p info
    pure (m,statusSuccess)
  | some .genRndisConfigParameter => setConfigParameter m b info
  | _ => pure (m,statusFailure)

def rndisProcessSetMessage (m : Mcb) (b : Bytes) (p : ℕ) : Run Mcb :=
  match m.freeList with
  | [] => pure m
  | buffer :: free => do
    let offset ← loadL b (p+20)
    let oid ← loadL b (p+12)
    let (m,status) ← setObject m b p (p+8+offset) (Oid.ofCode? oid)
    let requestId ← loadL b (p+8)
    let data ← storeL buffer.data 8 [requestId,status]
    let data ← storeL data 0 [0x80000005,16]
    pure (m.queue free ⟨data,16⟩)

inductive MessageType
  | initializeMsg
  | haltMsg
  | queryMsg
  | setMsg
  | resetMsg
  | keepAliveMsg
  deriving DecidableEq, Repr

def MessageType.ofCode? : ℕ → Option MessageType
  | 2 => some .initializeMsg
  | 3 => some .haltMsg
  | 4 => some .queryMsg
  | 5 => some .setMsg
  | 6 => some .resetMsg
  | 8 => some .keepAliveMsg
  | _ => none

def processMessage (d : Device) (m : Mcb) (b : Bytes) (p : ℕ) : Option MessageType → Run Mcb
  | some .initializeMsg => rndisProcessInitializeMessage m b p
  | some .haltMsg => rndisProcessHaltMessage m
  | some .queryMsg => rndisProcessQueryMessage d m b p
  | some .setMsg => rndisProcessSetMessage m b p
  | some .resetMsg => rndisProcessResetMessage m
  | some .keepAliveMsg => rndisProcessKeepAliveMessage m b p
  | none => pure m

def getEncapsulatedResponse (m : Mcb) : Mcb :=
  match m.responseList with
  | [] => m
  | r :: rs => { m with responseList := rs, ctrlIn := m.ctrlIn ++ [r] }

/-- The buffer starts with the eight bytes of the setup packet; `bRequest` is the
second, and the message of a `USB_SEND_ENCAPSULATED_CMD` follows. -/
def rndisUsbControlReceive (d : Device) (m : Mcb) (b : Bytes) : Run Mcb := do
  let bRequest ← peekValue .receivedBuffer b 1 1
  if bRequest = 0 then do
    let type ← loadL b 8
    processMessage d m b 8 (MessageType.ofCode? type)
  else if bRequest = 1 then pure (getEncapsulatedResponse m)
  else pure m

def Mcb.dropPacket (m : Mcb) : Mcb :=
  { m with stats :=
    { m.stats with receivePacketsDropped := m.stats.receivePacketsDropped+1 } }

def isBroadcast (b : Bytes) (data : ℕ) : Run Bool := do
  let w0 ← loadW b data
  if w0 = 0xFFFF then do
    let w1 ← loadW b (data+2)
    if w1 = 0xFFFF then do
      let w2 ← loadW b (data+4)
      pure (decide (w2 = 0xFFFF))
    else pure false
  else pure false

/-- A frame is counted by its destination. -/
def countFrame (s : Stats) (b : Bytes) (data len : ℕ) : Run Stats := do
  let first ← peekValue .receivedBuffer b data 1
  if first % 2 = 1 then do
    let broadcast ← isBroadcast b data
    if broadcast then
      pure { s with
        broadcastPktsRxed := s.broadcastPktsRxed+1
        broadcastBytesRxed := s.broadcastBytesRxed+len }
    else
      pure { s with
        multicastPktsRxed := s.multicastPktsRxed+1
        multicastBytesRxed := s.multicastBytesRxed+len }
  else
    pure { s with
      unicastPktsRxed := s.unicastPktsRxed+1
      unicastBytesRxed := s.unicastBytesRxed+len }

def passFrame (m : Mcb) (b : Bytes) (data len : ℕ) : Run Mcb := do
  let stats ← countFrame m.stats b data len
  pure { m with stats := stats, received := m.received ++ [(data % 2 ^ 32,len)] }

/-- The announced length is a `UINT16`; one zero byte of padding is tolerated. -/
def receivePayload (m : Mcb) (b : Bytes) : Run (Bool × Mcb) := do
  let dataLength ← loadL b 12
  let dataOffset ← loadL b 8
  let dataPayloadLen := dataLength % 0x10000
  let data := 8+dataOffset
  let payloadLength := (b.length-44) % 0x10000
  if payloadLength = dataPayloadLen then do
    let m ← passFrame m b data payloadLength
    pure (false,m)
  else if payloadLength = dataPayloadLen+1 then do
    let last ← peekValue .receivedBuffer b (data+payloadLength-1) 1
    if last = 0 then do
      let m ← passFrame m b data (payloadLength-1)
      pure (false,m)
    else pure (true,m)
  else pure (true,m)

/-- One buffer of a bulk transfer, with whether the transfer is given up there. -/
def receivePacket (m : Mcb) (b : Bytes) : Run (Bool × Mcb) := do
  let type ← loadL b 0
  if type ≠ 1 then pure (true,m.dropPacket)
  else do
    let reserved ← loadL b 40
    -- where `Reserved` alone fails the test, the log line reads the handle
    let vcHandle ← loadL b 36
    if reserved ≠ 0 ∨ vcHandle ≠ 0 then pure (true,m.dropPacket)
    else receivePayload m b

def rndisReceiveBulkData (m : Mcb) : List Bytes → Run (ℤ × Mcb)
  | [] => pure (0,m)
  | b :: bs => do
    let (givenUp,m) ← receivePacket m b
    if givenUp then pure (-1,m) else rndisReceiveBulkData m bs

inductive Transfer
  | control (data : Bytes)
  | bulk (bufs : List Bytes)

def receive (d : Device) (m : Mcb) : Transfer → Run Mcb
  | .control data => rndisUsbControlReceive d m data
  | .bulk bufs => do
    let (_,m) ← rndisReceiveBulkData m bufs
    pure m

def rndisUsbControlTxComplete (m : Mcb) : Mcb :=
  match m.ctrlIn with
  | [] => m
  | r :: rs => { m with freeList := m.freeList ++ [r], ctrlIn := rs }

inductive Event
  | transfer (t : Transfer)
  | txComplete
  | usbReset

def step (d : Device) (m : Mcb) : Event → Run Mcb
  | .transfer t => receive d m t
  | .txComplete => pure (rndisUsbControlTxComplete m)
  | .usbReset => pure (rndisUsbReset m)

def run (d : Device) (m : Mcb) (es : List Event) : Run Mcb := es.foldlM (step d) m

end DslG624t.Usb
