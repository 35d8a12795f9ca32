import DslG624t.Usb.RndisSafe

/-!
# Setting the network address

The bytes of the address are stored while the characters behind them are still unread.
-/

namespace DslG624t.Usb

open CString Checked List

variable {m : Mcb} {b : Bytes}

def Response.status (r : Response) : ℕ :=
  Endian.value [r.data ⟨12,by decide⟩,r.data ⟨13,by decide⟩,r.data ⟨14,by decide⟩,
    r.data ⟨15,by decide⟩]

/-- Where the configuration parameter is. -/
def info (b : Bytes) : ℕ := 8+8+valueAt b (8+20) 4

def parameterValue (b : Bytes) : ℕ := info b+valueAt b (info b+12) 4

def valueLength (b : Bytes) : ℕ := valueAt b (info b+16) 4

structure SetsAddress (b : Bytes) : Prop where
  length : 32 ≤ b.length
  oid : valueAt b 20 4 = Oid.genRndisConfigParameter.code
  header : Inside b (info b) 20
  nameLength : valueAt b (info b+4) 4 = networkAddress.length
  inside : Inside b (info b+valueAt b (info b) 4) networkAddress.length
  name : bytesAt b (info b+valueAt b (info b) 4) networkAddress.length = networkAddress

/-- Twelve digits. -/
def IsAddress (b : Bytes) : Prop := valueLength b = 24 ∧ ∀ j < 12, HexAt b (parameterValue b+2*j)

/-- The reply tells whether the address is the new one or the old one. -/
def Exact (m : Mcb) (b : Bytes) (m' : Mcb) : Prop :=
  ∃ reply, m'.responseList = m.responseList ++ [reply] ∧
    (reply.status = statusSuccess → IsAddress b ∧
      ∀ i : Fin 6, m'.hostMacAddress i = hexByte b (parameterValue b+4*i)) ∧
    (reply.status ≠ statusSuccess → m'.hostMacAddress = m.hostMacAddress)

/-- What is stored before the character that stops the loop is there already. -/
def StoresNothing (m : Mcb) (b : Bytes) : Prop :=
  ∃ k < 7, (∀ j < 2*k, HexAt b (parameterValue b+2*j)) ∧
    (∀ j < k+1, valueLength b % 0x10000 ≠ 4*j) ∧ BadPair b (parameterValue b+4*k) ∧
      ∀ i : Fin 6, i < k → hexByte b (parameterValue b+4*i) = m.hostMacAddress i

lemma storeBytes_apply {k : ℕ} (hk : k < 7) (mac : Mac) (p : ℕ) (i : Fin 6) :
    storeBytes b ((finRange 6).take k) mac p i = if i < k then hexByte b (p+4*i) else mac i := by
  interval_cases k <;> match i with | 0 | 1 | 2 | 3 | 4 | 5 => rfl

def setReply (buffer : Response) (id status : ℕ) : Response :=
  ⟨patch (patch buffer.data 8 (wordBytes [id,status])) 0 (wordBytes [0x80000005,16]),16⟩

lemma status_setReply (buffer : Response) (id : ℕ) {status : ℕ} (h : status < 0x100000000) :
    (setReply buffer id status).status = status := by
  simp [setReply,Response.status,patch,wordBytes,Endian.encode,Endian.value]
  omega

lemma exact_queue_iff (mac : Mac) (free : List Response) (buffer : Response) (id : ℕ) {status : ℕ}
    (h : status < 0x100000000) :
    Exact m b ({ m with hostMacAddress := mac }.queue free (setReply buffer id status)) ↔
      (status = statusSuccess → IsAddress b ∧
        ∀ i : Fin 6, mac i = hexByte b (parameterValue b+4*i)) ∧
      (status ≠ statusSuccess → mac = m.hostMacAddress) := by
  unfold Exact
  simp [Mcb.queue,status_setReply _ _ h]

lemma ensures_setMessage {buffer : Response} {free : List Response}
    (hm : m.freeList = buffer :: free) (h : SetsAddress b) (post : Mcb → Prop) :
    Ensures (rndisProcessSetMessage m b 8) post ↔
      Ensures (storeNetworkAddress b (finRange 6) m.hostMacAddress (valueLength b % 0x10000)
        (parameterValue b)) fun r =>
          post ({ m with hostMacAddress := r.1 }.queue free
            (setReply buffer (valueAt b (8+8) 4) r.2)) := by
  have hoid : Oid.ofCode? (valueAt b (8+12) 4) = some .genRndisConfigParameter := by
    rw [h.oid]
    decide
  have hlength := h.length
  have h16 : 8+8+4 ≤ b.length := by omega
  have h20 : 8+12+4 ≤ b.length := by omega
  have hname : Comparable b networkAddress (info b+valueAt b (info b) 4) :=
    fun k hk _ => h.inside.part hk
  have hinfo : Inside b (info b) 4 := @Inside.part _ _ _ 4 0 h.header (by decide)
  have hpart (c : ℕ) (hc : c+4 ≤ 20) : Inside b (info b+c) 4 := h.header.part hc
  simp (disch := decide) only [rndisProcessSetMessage,hm,ensures_bind,ensures_loadL,
    ensures_storeL,ensures_pure,inside_iff,hoid,setObject,setConfigParameter,ensures_ite,
    ensures_memcmp]
  rw [show 8+8+valueAt b (8+20) 4 = info b from rfl,h.nameLength,h.name]
  simp (disch := decide) only [hlength,h16,h20,hname,hinfo,hpart,decide_true,true_and,
    not_true_eq_false,true_implies,false_implies,and_true]
  simp [setReply,valueLength,parameterValue]

/-- A message either is right, or stops before it has stored anything new. -/
theorem setAddress_exact_iff {m : Mcb} {b : Bytes} (hfree : m.freeList ≠ []) (h : SetsAddress b) :
    Ensures (rndisProcessSetMessage m b 8) (Exact m b) ↔ IsAddress b ∨ StoresNothing m b := by
  obtain ⟨buffer,free,hm⟩ := exists_cons_of_ne_nil hfree
  rw [ensures_setMessage hm h,
    ensures_storeNetworkAddress _ _ (Nat.mod_lt _ (by decide : 0 < 0x10000)),length_finRange]
  have hne : statusFailure ≠ statusSuccess := by decide
  simp (disch := decide) only [exact_queue_iff,hne,ne_eq,not_true_eq_false,not_false_eq_true,
    true_implies,false_implies,and_true,true_and]
  constructor
  · rintro ⟨k,hk,hdigits,hlen,⟨-,haddr,-⟩ | ⟨hne,hbad,hsame⟩⟩
    · exact .inl haddr
    · refine .inr ⟨k,hk,hdigits,Nat.forall_lt_succ_right.mpr ⟨hlen,hne⟩,hbad,fun i hi => ?_⟩
      rw [← congrFun hsame i,storeBytes_apply hk,if_pos hi]
  rintro (haddr | ⟨k,hk,hdigits,hlen,hbad,hsame⟩)
  · have hmod : valueLength b % 0x10000 = 24 := by rw [haddr.1]
    refine ⟨6,by decide,haddr.2,fun j hj => by omega,.inl ⟨hmod,haddr,fun i => ?_⟩⟩
    rw [storeBytes_apply (by decide),if_pos i.2]
  · obtain ⟨hlen,hne⟩ := Nat.forall_lt_succ_right.mp hlen
    refine ⟨k,hk,hdigits,hlen,.inr ⟨hne,hbad,funext fun i => ?_⟩⟩
    rw [storeBytes_apply hk]
    split
    next hi => exact hsame i hi
    next => rfl

def addressRequest (value : String) : Bytes :=
  replicate 8 0 ++ wordBytes [5,72+2*value.length,1,Oid.genRndisConfigParameter.code,
    48+2*value.length,16,20,28,2,48,2*value.length] ++ networkAddress ++
    convertStringToUnicode (ofString value)

theorem setAddress_exact_twelve :
    Ensures (rndisProcessSetMessage (rndisUsbInit fun _ => 0) (addressRequest "0123456789aB") 8)
      (Exact (rndisUsbInit fun _ => 0) (addressRequest "0123456789aB")) :=
  (setAddress_exact_iff (cons_ne_nil _ _) ⟨by decide +kernel,by decide +kernel,by decide +kernel,
    by decide +kernel,by decide +kernel,by decide +kernel⟩).mpr
    (.inl ⟨by decide +kernel,show ∀ j < 12, Inside _ _ _ ∧ _ = true by decide +kernel⟩)

/-- The third character is no digit. -/
theorem setAddress_stored_halfway :
    (rndisProcessSetMessage (rndisUsbInit fun _ => 0) (addressRequest "12G456789abc")
      8).toOption.map
      (fun m => (m.responseList.map Response.status,m.hostMacAddress 0)) =
        some ([statusFailure],0x12) := by
  decide +kernel

end DslG624t.Usb
