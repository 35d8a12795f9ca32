import DslG624t.Usb.Rndis

/-!
# Which transfers of the host keep the RNDIS function inside its buffers

The handlers check no length.
-/

namespace DslG624t.Usb

open CString Checked List

variable {m : Mcb} {b : Bytes}

def HexAt (b : Bytes) (p : ℕ) : Prop := Inside b p 2 ∧ (nibble (valueAt b p 2)).isSome

def StopAt (b : Bytes) (p : ℕ) : Prop := Inside b p 2 ∧ nibble (valueAt b p 2) = none

/-- After at most `room` pairs of digits the value is used up or a character stops it. -/
def AddressFits (b : Bytes) (room length p : ℕ) : Prop :=
  ∃ k ≤ room, (∀ j < 2*k, HexAt b (p+2*j)) ∧
    (length = 4*k ∨ StopAt b (p+4*k) ∨ HexAt b (p+4*k) ∧ StopAt b (p+4*k+2))

/-- The configuration parameter at `info`: its header, the name as far as it is compared
and, for a network address, the place of the value and the value itself. -/
def ConfigFits (b : Bytes) (info : ℕ) : Prop :=
  Inside b info 8 ∧
    (valueAt b (info+4) 4 = networkAddress.length →
      Comparable b networkAddress (info+valueAt b info 4) ∧
      (bytesAt b (info+valueAt b info 4) networkAddress.length = networkAddress →
        Inside b (info+12) 8 ∧
        AddressFits b 6 (valueAt b (info+16) 4 % 0x10000) (info+valueAt b (info+12) 4)))

def ObjectFits (b : Bytes) (info : ℕ) : Option Oid → Prop
  | some .genCurrentPacketFilter => Inside b info 4
  | some .ethMulticastList => Inside b info (valueAt b 24 4) ∧ valueAt b 24 4 ≤ mcastListBytes
  | some .genRndisConfigParameter => ConfigFits b info
  | _ => True

def MessageFits (b : Bytes) : Option MessageType → Prop
  | some .initializeMsg =>
    24 ≤ b.length ∧ (valueAt b 20 4 = rndisMajorVersion → 28 ≤ b.length)
  | some .queryMsg => 24 ≤ b.length
  | some .setMsg =>
    32 ≤ b.length ∧ ObjectFits b (16+valueAt b 28 4) (Oid.ofCode? (valueAt b 20 4))
  | some .keepAliveMsg => 20 ≤ b.length
  | _ => True

/-- A message is read past its type only when there is a buffer for its response. -/
def ControlFits (m : Mcb) (b : Bytes) : Prop :=
  2 ≤ b.length ∧
    (valueAt b 1 1 = 0 → 12 ≤ b.length ∧
      (m.freeList ≠ [] → MessageFits b (MessageType.ofCode? (valueAt b 8 4))))

/-- The destination address as far as it is compared with the broadcast address. -/
def DestinationFits (b : Bytes) (data : ℕ) : Prop :=
  Inside b data 1 ∧
    (valueAt b data 1 % 2 = 1 → Inside b data 2 ∧ (valueAt b data 2 = 0xFFFF → Inside b (data+2) 2 ∧
        (valueAt b (data+2) 2 = 0xFFFF → Inside b (data+4) 2)))

def payloadLength (b : Bytes) : ℕ := (b.length-44) % 0x10000

def dataLength (b : Bytes) : ℕ := valueAt b 12 4 % 0x10000

def IsPacket (b : Bytes) : Prop :=
  valueAt b 0 4 = 1 ∧ valueAt b 40 4 = 0 ∧ valueAt b 36 4 = 0

/-- The packet is as long as it announces, or one zero byte longer. -/
def IsWhole (b : Bytes) : Prop :=
  payloadLength b = dataLength b ∨
    payloadLength b = dataLength b+1 ∧ valueAt b (8+valueAt b 8 4+dataLength b) 1 = 0

def PacketFits (b : Bytes) : Prop :=
  4 ≤ b.length ∧ (valueAt b 0 4 = 1 → 44 ≤ b.length) ∧
    (IsPacket b → (payloadLength b = dataLength b+1 → Inside b (8+valueAt b 8 4+dataLength b) 1) ∧
      (IsWhole b → DestinationFits b (8+valueAt b 8 4)))

/-- A bulk transfer is given up at the first buffer that holds no whole packet. -/
def BulkFits : List Bytes → Prop
  | [] => True
  | b :: bs => PacketFits b ∧ (IsPacket b → IsWhole b → BulkFits bs)

def Transfer.Fits (m : Mcb) : Transfer → Prop
  | .control data => ControlFits m data
  | .bulk bufs => BulkFits bufs

variable (d : Device) (p : ℕ)

@[simp]
lemma ensures_loadL (post : ℕ → Prop) :
    Ensures (loadL b p) post ↔ Inside b p 4 ∧ post (valueAt b p 4) :=
  ensures_peekValue _ _ _ _ _

@[simp]
lemma ensures_loadW (post : ℕ → Prop) :
    Ensures (loadW b p) post ↔ Inside b p 2 ∧ post (valueAt b p 2) :=
  ensures_peekValue _ _ _ _ _

@[simp]
lemma length_wordBytes (ws : List ℕ) : (wordBytes ws).length = 4*ws.length := by
  induction ws with
  | nil => rfl
  | cons w ws ih =>
    rw [wordBytes,flatMap_cons,length_append,← wordBytes,ih,Endian.length_encode,length_cons]
    omega

@[simp]
lemma ensures_storeL (data : Fin maxBufferSize → UInt8) (off : ℕ) (ws : List ℕ)
    (post : (Fin maxBufferSize → UInt8) → Prop) :
    Ensures (storeL data off ws) post ↔
      off+4*ws.length ≤ 512 ∧ post (patch data off (wordBytes ws)) := by
  rw [storeL,ensures_poke,length_wordBytes]
  exact Iff.rfl

lemma hostIsOlder_inside_iff (b : Bytes) :
    Ensures (hostIsOlder b 8) (fun _ => True) ↔ MessageFits b (some .initializeMsg) := by
  simp (disch := decide) only [hostIsOlder,ensures_bind,ensures_loadL,ensures_ite,
    ensures_pure,inside_iff,MessageFits]
  by_cases hmajor : valueAt b 20 4 = rndisMajorVersion <;> simp [hmajor]

lemma initialize_inside_iff (hfree : m.freeList ≠ []) :
    Ensures (rndisProcessInitializeMessage m b 8) (fun _ => True) ↔
      MessageFits b (some .initializeMsg) := by
  obtain ⟨buffer,free,hm⟩ := exists_cons_of_ne_nil hfree
  have hstatus : ∀ (older : Bool) (m' : Mcb) (data : Fin maxBufferSize → UInt8),
      Ensures (if older then do
        let data ← storeL data 12 [statusBadVersion]
        pure (m.queue free ⟨data,52⟩)
        else pure m' : Run Mcb) fun _ => True := by
    intro older m' data
    cases older <;> simp
  simp (disch := decide) only [rndisProcessInitializeMessage,hm,ensures_bind,ensures_loadL,
    ensures_storeL,inside_iff,hstatus,hostIsOlder_inside_iff,MessageFits]
  simp
  omega

lemma keepAlive_inside_iff (hfree : m.freeList ≠ []) :
    Ensures (rndisProcessKeepAliveMessage m b 8) (fun _ => True) ↔
      MessageFits b (some .keepAliveMsg) := by
  obtain ⟨buffer,free,hm⟩ := exists_cons_of_ne_nil hfree
  simp (disch := decide) [rndisProcessKeepAliveMessage,hm,inside_iff,MessageFits]

lemma reset_inside (m : Mcb) : Ensures (rndisProcessResetMessage m) fun _ => True := by
  unfold rndisProcessResetMessage
  split <;> simp

lemma length_queryReply_le (m : Mcb) (oid : Oid) : (queryReply d m oid).length ≤ 256 := by
  have hm := d.manufacturer_lt
  have hl := m.mcastListSize_le
  have : mcastListBytes = 192 := rfl
  have : rndisSupportedOid.length = 51 := rfl
  cases oid <;> simp [queryReply] <;> omega

lemma length_replyTo_le (m : Mcb) (oid : ℕ) : 24+(replyTo d m oid).length ≤ maxBufferSize := by
  have hsize : maxBufferSize = 512 := rfl
  unfold replyTo
  split
  next oid _ =>
    have := length_queryReply_le d m oid
    omega
  · decide

lemma query_inside_iff (hfree : m.freeList ≠ []) :
    Ensures (rndisProcessQueryMessage d m b 8) (fun _ => True) ↔
      MessageFits b (some .queryMsg) := by
  obtain ⟨buffer,free,hm⟩ := exists_cons_of_ne_nil hfree
  simp (disch := decide) [rndisProcessQueryMessage,hm,inside_iff,MessageFits,length_replyTo_le]
  omega

def BadPair (b : Bytes) (p : ℕ) : Prop := StopAt b p ∨ HexAt b p ∧ StopAt b (p+2)

/-- The byte that two digits stand for. -/
def hexByte (b : Bytes) (p : ℕ) : UInt8 :=
  UInt8.ofNat ((nibble (valueAt b p 2)).getD 0 <<< 4 ||| (nibble (valueAt b (p+2) 2)).getD 0)

def storeBytes (b : Bytes) : List (Fin 6) → Mac → ℕ → Mac
  | [], mac, _ => mac
  | i :: slots, mac, p => storeBytes b slots (Function.update mac i (hexByte b p)) (p+4)

lemma ensures_loadHexByte (post : Option UInt8 → Prop) :
    Ensures (loadHexByte b p) post ↔
      BadPair b p ∧ post none ∨ HexAt b p ∧ HexAt b (p+2) ∧ post (some (hexByte b p)) := by
  unfold BadPair StopAt HexAt hexByte loadHexByte
  cases hfirst : nibble (valueAt b p 2) with
  | none => simp [hfirst]
  | some first =>
    cases hsecond : nibble (valueAt b (p+2) 2) with
    | none => simp [hfirst,hsecond,and_assoc]
    | some second => simp [hfirst,hsecond]

/-- After `k` pairs of digits the value is used up, or a character stops it. -/
lemma ensures_storeNetworkAddress (slots : List (Fin 6)) (mac : Mac) {length : ℕ}
    (hlength : length < 0x10000) (p : ℕ) (post : Mac × ℕ → Prop) :
    Ensures (storeNetworkAddress b slots mac length p) post ↔
      ∃ k < slots.length+1, (∀ j < 2*k, HexAt b (p+2*j)) ∧ (∀ j < k, length ≠ 4*j) ∧
        (length = 4*k ∧ post (storeBytes b (slots.take k) mac p,statusSuccess) ∨
          length ≠ 4*k ∧ BadPair b (p+4*k) ∧
            post (storeBytes b (slots.take k) mac p,statusFailure)) := by
  induction slots generalizing mac length p with
  | nil =>
    rw [storeNetworkAddress]
    split
    next h => simp [h,storeBytes]
    next h => simp [h,ensures_loadHexByte,storeBytes]
  | cons i slots ih =>
    rw [storeNetworkAddress,length_cons,Nat.exists_lt_succ_left]
    split
    next h => simp [h,storeBytes]
    next h =>
      have hnext (k : ℕ) : (length+0xFFFC) % 0x10000 = 4*k ↔ length = 4*(k+1) := by omega
      have hdigits (k : ℕ) : (∀ j < 2*(k+1), HexAt b (p+2*j)) ↔
          HexAt b p ∧ HexAt b (p+2) ∧ ∀ j < 2*k, HexAt b (p+4+2*j) := by
        rw [show 2*(k+1) = 2*k+1+1 by rfl,Nat.forall_lt_succ_left,Nat.forall_lt_succ_left]
        refine and_congr_right fun _ => and_congr_right fun _ => forall₂_congr fun j _ => ?_
        rw [show p+2*(j+1+1) = p+4+2*j by omega]
      have hplace (k : ℕ) : p+4*(k+1) = p+4+4*k := by omega
      simp only [ensures_bind,ensures_loadHexByte,ensures_pure,ne_eq,
        ih _ (Nat.mod_lt _ (by decide : 0 < 0x10000)),hnext,hdigits,hplace,Nat.forall_lt_succ_left]
      simp only [← exists_and_left]
      simp [h,storeBytes,and_assoc,and_left_comm]

lemma storeNetworkAddress_inside_iff (slots : List (Fin 6)) (mac : Mac) {length : ℕ}
    (hlength : length < 0x10000) (p : ℕ) :
    Ensures (storeNetworkAddress b slots mac length p) (fun _ => True) ↔
      AddressFits b slots.length length p := by
  rw [ensures_storeNetworkAddress slots mac hlength]
  constructor
  · rintro ⟨k,hk,hdigits,-,hend⟩
    exact ⟨k,Nat.le_of_lt_succ hk,hdigits,hend.imp And.left fun h => h.2.1⟩
  rintro ⟨k,hk,hdigits,hend⟩
  by_cases hall : ∀ j < k, length ≠ 4*j
  · by_cases hlen : length = 4*k
    · exact ⟨k,Nat.lt_succ_of_le hk,hdigits,hall,.inl ⟨hlen,trivial⟩⟩
    · exact ⟨k,Nat.lt_succ_of_le hk,hdigits,hall,.inr ⟨hlen,hend.resolve_left hlen,trivial⟩⟩
  · obtain ⟨j,hj,hlen⟩ : ∃ j < k, length = 4*j := by simpa using hall
    exact ⟨j,by omega,fun i hi => hdigits i (by omega),fun i hi => by omega,.inl ⟨hlen,trivial⟩⟩

lemma setConfigParameter_inside_iff (info : ℕ) :
    Ensures (setConfigParameter m b info) (fun _ => True) ↔ ConfigFits b info := by
  have haddress := fun p length =>
    storeNetworkAddress_inside_iff (b := b) (finRange 6) m.hostMacAddress
      (Nat.mod_lt length (by decide : 0 < 0x10000)) p
  have hheader := inside_add b info 4 4
  have hvalue := inside_add b (info+12) 4 4
  rw [setConfigParameter,ConfigFits,hheader,hvalue]
  simp only [ensures_bind,ensures_loadL,ensures_ite,ensures_memcmp,ensures_pure,haddress,
    length_finRange,decide_eq_true_eq,imp_true_iff,and_true,and_assoc]
  rw [and_left_comm (a := Inside b (info+16) 4)]

lemma ensures_storeMulticast (list : Bytes) :
    Ensures (storeMulticast m list) (fun _ => True) ↔ list.length ≤ mcastListBytes := by
  unfold storeMulticast
  split <;> simp [*]

lemma setMulticastList_inside_iff (p info : ℕ) :
    Ensures (setMulticastList m b p info) (fun _ => True) ↔
      Inside b (p+16) 4 ∧ Inside b info (valueAt b (p+16) 4) ∧
        valueAt b (p+16) 4 ≤ mcastListBytes := by
  simp only [setMulticastList,ensures_bind,ensures_loadL,ensures_ite,ensures_peek,
    ensures_pure,ensures_storeMulticast,length_bytesAt,imp_true_iff,and_true]
  refine and_congr_right fun _ => ⟨fun h => ?_,fun h _ => h⟩
  by_cases hzero : valueAt b (p+16) 4 = 0
  · rw [hzero]
    exact ⟨fun i hi => absurd hi (Nat.not_lt_zero i),Nat.zero_le _⟩
  · exact h hzero

lemma setObject_inside_iff (h : 32 ≤ b.length) (info : ℕ) (oid : Option Oid) :
    Ensures (setObject m b 8 info oid) (fun _ => True) ↔ ObjectFits b info oid := by
  have hlength : Inside b (8+16) 4 := (inside_iff (by decide) (by decide) b).mpr (by omega)
  unfold setObject ObjectFits
  split
  · simp [setPacketFilter,ensures_ite]
  · simp [setMulticastList_inside_iff,hlength]
  · exact setConfigParameter_inside_iff info
  · simp

lemma set_inside_iff (hfree : m.freeList ≠ []) :
    Ensures (rndisProcessSetMessage m b 8) (fun _ => True) ↔ MessageFits b (some .setMsg) := by
  obtain ⟨buffer,free,hm⟩ := exists_cons_of_ne_nil hfree
  simp (disch := decide) only [rndisProcessSetMessage,hm,ensures_bind,ensures_loadL,
    ensures_storeL,ensures_pure,inside_iff,MessageFits]
  refine and_congr_right fun h => ?_
  have h20 : 8+8+4 ≤ b.length := by omega
  have h24 : 8+12+4 ≤ b.length := by omega
  simp [h20,h24,setObject_inside_iff h]

lemma processMessage_inside_of_full (hfull : m.freeList = []) (d : Device)
    (type : Option MessageType) :
    Ensures (processMessage d m b 8 type) fun _ => True := by
  unfold processMessage
  split
  · simp [rndisProcessInitializeMessage,hfull]
  · exact (ensures_pure _).mpr trivial
  · simp [rndisProcessQueryMessage,hfull]
  · simp [rndisProcessSetMessage,hfull]
  · exact reset_inside m
  · simp [rndisProcessKeepAliveMessage,hfull]
  · exact (ensures_pure _).mpr trivial

lemma processMessage_inside_iff (type : Option MessageType) :
    Ensures (processMessage d m b 8 type) (fun _ => True) ↔
      (m.freeList ≠ [] → MessageFits b type) := by
  by_cases hfree : m.freeList = []
  · exact iff_of_true (processMessage_inside_of_full hfree d type) fun h => absurd hfree h
  rw [imp_iff_right hfree]
  match type with
  | some .initializeMsg => exact initialize_inside_iff hfree
  | some .haltMsg => exact ensures_pure _
  | some .queryMsg => exact query_inside_iff d hfree
  | some .setMsg => exact set_inside_iff hfree
  | some .resetMsg => exact iff_of_true (reset_inside m) trivial
  | some .keepAliveMsg => exact keepAlive_inside_iff hfree
  | none => exact ensures_pure _

lemma control_inside_iff (m : Mcb) (b : Bytes) :
    Ensures (rndisUsbControlReceive d m b) (fun _ => True) ↔ ControlFits m b := by
  simp (disch := decide) only [rndisUsbControlReceive,ensures_bind,ensures_peekValue,
    ensures_loadL,ensures_ite,ensures_pure,inside_iff,processMessage_inside_iff,
    ControlFits,imp_true_iff,and_true]

lemma isBroadcast_inside_iff (data : ℕ) :
    Ensures (isBroadcast b data) (fun _ => True) ↔
      Inside b data 2 ∧ (valueAt b data 2 = 0xFFFF → Inside b (data+2) 2 ∧
        (valueAt b (data+2) 2 = 0xFFFF → Inside b (data+4) 2)) := by
  simp only [isBroadcast,ensures_bind,ensures_loadW,ensures_ite,ensures_pure,imp_true_iff,and_true]

lemma passFrame_inside_iff (m : Mcb) (b : Bytes) (data len : ℕ) (rest : Prop) :
    Ensures (passFrame m b data len) (fun _ => rest) ↔ DestinationFits b data ∧ rest := by
  rw [ensures_const]
  simp only [passFrame,countFrame,ensures_bind,ensures_peekValue,ensures_ite,ensures_pure,
    imp_true_iff,and_true,and_self,isBroadcast_inside_iff,DestinationFits]

lemma receivePayload_inside_iff (m : Mcb) (h : 44 ≤ b.length) (rest : Prop) :
    Ensures (receivePayload m b) (fun r => r.1 = false → rest) ↔
      (payloadLength b = dataLength b+1 → Inside b (8+valueAt b 8 4+dataLength b) 1) ∧
      (IsWhole b → DestinationFits b (8+valueAt b 8 4) ∧ rest) := by
  have h12 : 8+4 ≤ b.length := by omega
  have h16 : 12+4 ≤ b.length := by omega
  simp (disch := decide) only [receivePayload,ensures_bind,ensures_loadL,inside_iff,h12,h16,
    true_and]
  rw [← payloadLength,← dataLength]
  unfold IsWhole
  split
  next heq => simp [heq,passFrame_inside_iff]
  next hne =>
    split
    next heq =>
      rw [heq,← Nat.add_assoc,Nat.add_sub_cancel]
      by_cases hlast : valueAt b (8+valueAt b 8 4+dataLength b) 1 = 0 <;>
        simp [hlast,passFrame_inside_iff]
    next hne' => simp [hne,hne']

lemma receivePacket_inside_iff (m : Mcb) (b : Bytes) (rest : Prop) :
    Ensures (receivePacket m b) (fun r => r.1 = false → rest) ↔
      PacketFits b ∧ (IsPacket b → IsWhole b → rest) := by
  have h0 : Inside b 0 4 ↔ 4 ≤ b.length := inside_iff (by decide) (by decide) b
  have h36 : Inside b 36 4 ↔ 40 ≤ b.length := inside_iff (by decide) (by decide) b
  have h40 : Inside b 40 4 ↔ 44 ≤ b.length := inside_iff (by decide) (by decide) b
  rw [receivePacket,ensures_bind,ensures_loadL,h0,PacketFits,IsPacket]
  by_cases htype : valueAt b 0 4 = 1
  case neg => simp [htype]
  rw [if_neg (not_not.mpr htype),ensures_bind,ensures_loadL,h40,ensures_bind,ensures_loadL,h36]
  by_cases hlen : 44 ≤ b.length
  case neg => simp [htype,hlen]
  have h4 : 4 ≤ b.length := by omega
  have hhandle40 : 40 ≤ b.length := by omega
  by_cases hvalid : valueAt b 40 4 = 0 ∧ valueAt b 36 4 = 0
  · obtain ⟨hreserved,hhandle⟩ := hvalid
    rw [if_neg (by simp [hreserved,hhandle]),receivePayload_inside_iff m hlen]
    simp only [htype,hreserved,hhandle,hlen,h4,hhandle40,true_and,forall_const,imp_and,and_self,
      and_assoc]
  · rw [if_pos (not_and_or.mp hvalid)]
    simp [hvalid,hlen,h4,hhandle40]

lemma bulk_inside_iff (m : Mcb) (bufs : List Bytes) :
    Ensures (rndisReceiveBulkData m bufs) (fun _ => True) ↔ BulkFits bufs := by
  induction bufs generalizing m with
  | nil => exact ensures_pure _
  | cons b bs ih =>
    rw [rndisReceiveBulkData,ensures_bind,BulkFits,← receivePacket_inside_iff m]
    apply exists_congr
    rintro ⟨givenUp,m'⟩
    cases givenUp <;> simp [ih]

lemma receive_ensures_iff (m : Mcb) (t : Transfer) :
    Ensures (receive d m t) (fun _ => True) ↔ t.Fits m := by
  cases t with
  | control data => exact control_inside_iff d m data
  | bulk bufs =>
    rw [receive,ensures_bind,Transfer.Fits,← bulk_inside_iff m]
    simp only [ensures_pure]

def Event.Fits (m : Mcb) : Event → Prop
  | .transfer t => t.Fits m
  | _ => True

lemma step_inside_iff (m : Mcb) (e : Event) : (∃ m', step d m e = .ok m') ↔ e.Fits m := by
  rw [← ensures_true_iff]
  cases e with
  | transfer t => exact receive_ensures_iff d m t
  | txComplete => exact ensures_pure _
  | usbReset => exact ensures_pure _

def RunFits (d : Device) : Mcb → List Event → Prop
  | _, [] => True
  | m, e :: es => e.Fits m ∧ ∀ m', step d m e = .ok m' → RunFits d m' es

lemma run_inside_iff (m : Mcb) (es : List Event) : (∃ m', run d m es = .ok m') ↔ RunFits d m es := by
  induction es generalizing m with
  | nil => exact iff_of_true ⟨m,rfl⟩ trivial
  | cons e es ih =>
    rw [run,foldlM_cons,RunFits,← step_inside_iff (d := d)]
    cases h : step d m e with
    | error x => exact iff_of_false nofun nofun
    | ok m₁ => exact (ih m₁).trans (by simp)

/-- Every access of the handlers stays in the buffer it is meant for exactly when the transfer
fits, and in a run exactly when each one does that it comes to. -/
theorem receive_inside_iff (d : Device) (m : Mcb) :
    (∀ t : Transfer, (∃ m', receive d m t = .ok m') ↔ t.Fits m) ∧
    ∀ es : List Event, (∃ m', run d m es = .ok m') ↔ RunFits d m es := by
  refine ⟨fun t => ?_,run_inside_iff d m⟩
  rw [← ensures_true_iff]
  exact receive_ensures_iff d m t

def multicastRequest (list : Bytes) : Bytes :=
  [0x21,0,0,0,0,0,UInt8.ofNat (24+list.length),UInt8.ofNat ((24+list.length) / 0x100)] ++
    wordBytes [5,24+list.length,1,Oid.ethMulticastList.code,list.length,16] ++ list

def fault? : Run Mcb → Option Fault
  | .ok _ => none
  | .error e => some e

/-- Thirty-three addresses in a control transfer of 230 bytes, the first one after the start. -/
theorem mcastList_overrun :
    fault? (receive ⟨0x0451,12000000,[],by decide⟩ (rndisUsbInit fun _ => 0)
      (.control (multicastRequest (List.replicate (33*6) 1)))) = some .mcastList := by
  decide +kernel

end DslG624t.Usb
