import DslG624t.Usb.RndisSafe

/-!
# Packets to the host

`rndis_usb_send_packet`, and what `rndis_receive_bulk_data` makes of its messages.
-/

namespace DslG624t.Usb

open CString Checked List

def inMulticastList (m : Mcb) (dst : Bytes) : Bool :=
  (range 32).any fun i =>
    decide (6*i < m.mcastListSize) && ((ofFn m.mcastList).drop (6*i)).take 6 == dst

/-- The packet filter, with the counters of the frames that pass it. -/
def countSent (m : Mcb) (frame : Bytes) : Option Stats :=
  let dst := frame.take 6
  let allowed (types : ℕ) : Bool := m.packetFilter &&& types != 0
  if (frame.headD 0).toNat % 2 = 1 then
    if dst = replicate 6 0xFF then
      if allowed (0x20 ||| 0x08) then
        some { m.stats with
          broadcastPktsTxed := m.stats.broadcastPktsTxed+1
          broadcastBytesTxed := m.stats.broadcastBytesTxed+frame.length }
      else none
    else if allowed 0x20 || allowed 0x04 || allowed 0x02 && inMulticastList m dst then
      some { m.stats with
        multicastPktsTxed := m.stats.multicastPktsTxed+1
        multicastBytesTxed := m.stats.multicastBytesTxed+frame.length }
    else none
  else if allowed 0x20 || allowed 0x01 && dst == ofFn m.hostMacAddress then
    some { m.stats with
      unicastPktsTxed := m.stats.unicastPktsTxed+1
      unicastBytesTxed := m.stats.unicastBytesTxed+frame.length }
  else none

/-- `RNDIS_PACKET` has 36 bytes. -/
def packetHeader (len : ℕ) : Bytes := wordBytes [1,len+36+2*4,36,len,0,0,0,0,0,0,0]

/-- What is given to the pipe, unless there is no `header` left. -/
def rndisUsbSendPacket (header : Bool) (m : Mcb) (frame : Bytes) : Option Bytes × Mcb :=
  if m.state = .uninitialized then (none,m)
  else
    match countSent m frame with
    | none => (none,m)
    | some stats =>
      (if header then some (packetHeader frame.length ++ frame) else none,{ m with stats := stats })

lemma eq_of_rndisUsbSendPacket {header : Bool} {m m' : Mcb} {frame msg : Bytes}
    (h : rndisUsbSendPacket header m frame = (some msg,m')) :
    msg = packetHeader frame.length ++ frame := by
  unfold rndisUsbSendPacket at h
  split at h
  · cases h
  split at h
  · cases h
  cases header with
  | false => cases h
  | true =>
    cases h
    rfl

lemma received_of_passFrame {m m' : Mcb} {b : Bytes} {data len : ℕ}
    (h : passFrame m b data len = .ok m') : m'.received = m.received ++ [(data % 2 ^ 32,len)] := by
  unfold passFrame at h
  cases hc : countFrame m.stats b data len with
  | error e =>
    rw [hc] at h
    cases h
  | ok stats =>
    rw [hc] at h
    cases h
    rfl

lemma ensures_passFrame {m : Mcb} {b : Bytes} {data len : ℕ} (hlen : data+6 ≤ b.length)
    (hdata : data+6 ≤ 2 ^ 32) :
    Ensures (passFrame m b data len) fun m' =>
      m'.received = m.received ++ [(data % 2 ^ 32,len)] := by
  have hin (p n : ℕ) (hn : 0 < n) (hp : p+n ≤ data+6) : Inside b p n :=
    (inside_iff hn (by omega) b).mpr (by omega)
  obtain ⟨m',hm',-⟩ := (passFrame_inside_iff m b data len True).mpr
    ⟨⟨hin data 1 (by decide) (by omega),fun _ => ⟨hin data 2 (by decide) (by omega),
      fun _ => ⟨hin _ 2 (by decide) (by omega),fun _ => hin _ 2 (by decide) (by omega)⟩⟩⟩,trivial⟩
  exact ⟨m',hm',received_of_passFrame hm'⟩

lemma ensures_receivePacket {m : Mcb} {b : Bytes} {len : ℕ} (hmin : 6 ≤ len) (hmax : len+1 < 0x10000)
    (hpacket : IsPacket b) (hoffset : valueAt b 8 4 = 36) (hdata : valueAt b 12 4 = len)
    (hend : b.length = 44+len ∨ b.length = 45+len ∧ valueAt b (44+len) 1 = 0) :
    Ensures (receivePacket m b) fun r => r.1 = false ∧ r.2.received = m.received ++ [(44,len)] := by
  obtain ⟨htype,hreserved,hhandle⟩ := hpacket
  have hlen : 44+len ≤ b.length := by omega
  have hin (p : ℕ) (hp : p+4 ≤ 44) : Inside b p 4 := (inside_iff (by decide) (by omega) b).mpr (by omega)
  have hpass := @ensures_passFrame m b 44 len (by omega) (by decide)
  have hmod : len % 0x10000 = len := Nat.mod_eq_of_lt (by omega)
  simp (disch := decide) only [receivePacket,receivePayload,ensures_bind,ensures_loadL,hin,htype,
    hreserved,hhandle,hoffset,hdata,hmod,ne_eq,not_true_eq_false,or_self,if_false,true_and]
  obtain hend | ⟨hend,hlast⟩ := hend
  · rw [show (b.length-44) % 0x10000 = len by omega,if_pos rfl,ensures_bind]
    simpa using hpass
  · rw [show (b.length-44) % 0x10000 = len+1 by omega,if_neg (by omega),if_pos rfl,ensures_bind,
      ensures_peekValue,show 8+36+(len+1)-1 = 44+len by omega,hlast]
    refine ⟨(inside_iff (by decide) (by omega) b).mpr (by omega),?_⟩
    simpa using hpass

/-- A frame that is sent comes back, with or without a byte of padding. -/
theorem receive_sent {m m' m₂ : Mcb} {header : Bool} {frame msg pad : Bytes}
    (hmin : 14 ≤ frame.length) (hmax : frame.length < 65536-44)
    (hsend : rndisUsbSendPacket header m frame = (some msg,m')) (hpad : pad = [] ∨ pad = [0]) :
    ∃ m₂', rndisReceiveBulkData m₂ [msg ++ pad] = .ok (0,m₂') ∧
      m₂'.received = m₂.received ++ [(44,frame.length)] ∧
      bytesAt (msg ++ pad) 44 frame.length = frame := by
  obtain rfl := eq_of_rndisUsbSendPacket hsend
  have hlen : (packetHeader frame.length).length = 44 := rfl
  have hbytes := bytesAt_append (packetHeader frame.length) frame pad (by omega)
  rw [← append_assoc,hlen] at hbytes
  have hend : (packetHeader frame.length ++ frame ++ pad).length = 44+frame.length ∨
      (packetHeader frame.length ++ frame ++ pad).length = 45+frame.length ∧
        valueAt (packetHeader frame.length ++ frame ++ pad) (44+frame.length) 1 = 0 := by
    obtain rfl | rfl := hpad
    · left
      simp [hlen]
    · right
      have hlast := bytesAt_append (packetHeader frame.length ++ frame) [0] [] (by simp; omega)
      rw [append_nil,length_append,hlen] at hlast
      refine ⟨by simp [hlen]; omega,?_⟩
      rw [valueAt]
      exact congrArg Endian.value hlast
  have hdata : valueAt (packetHeader frame.length ++ frame ++ pad) 12 4 = frame.length :=
    Endian.decode_encode .little (by omega) []
  obtain ⟨⟨givenUp,m₂'⟩,hok,rfl,hreceived⟩ := @ensures_receivePacket m₂ _ _ (by omega)
    (by omega) ⟨rfl,rfl,rfl⟩ rfl hdata hend
  refine ⟨m₂',?_,hreceived,hbytes⟩
  rw [rndisReceiveBulkData,hok]
  rfl

def sender : Mcb := { rndisUsbInit fun _ => 0 with state := .initialized }

theorem receive_sent_broadcast :
    ∃ msg m', rndisUsbSendPacket true sender (replicate 14 0xFF) = (some msg,m') ∧
      ∃ m₂', rndisReceiveBulkData sender [msg ++ [0]] = .ok (0,m₂') ∧ m₂'.received = [(44,14)] ∧
        bytesAt (msg ++ [0]) 44 14 = replicate 14 0xFF :=
  ⟨_,_,rfl,@receive_sent sender _ sender true (replicate 14 0xFF) _ [0] (by decide) (by decide) rfl
    (.inr rfl)⟩

end DslG624t.Usb
