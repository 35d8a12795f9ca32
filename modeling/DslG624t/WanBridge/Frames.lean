import DslG624t.WanBridge.Invariant

/-!
# Frames through the WAN bridge

`wb_xmit_frame` puts the VLAN tag of a device into a frame and queues it on the source interface;
`wb_receive_frame` takes the tag out again and hands the frame to the device the tag names.
-/

namespace DslG624t.WanBridge

open Function List

abbrev Mem := ℕ → UInt8

def memmove (m : Mem) (dst src n : ℕ) : Mem := fun i =>
  if dst ≤ i ∧ i < dst+n then m (src+(i-dst)) else m i

def myMemcpy (m : Mem) (dest src : ℕ) : ℕ → Mem
  | 0 => m
  | num+1 => myMemcpy (update m (dest-1) (m (src-1))) (dest-1) (src-1) num

def get16 (m : Mem) (a : ℕ) : ℕ := (m a).toNat*256+(m (a+1)).toNat

def put16 (m : Mem) (a v : ℕ) : Mem :=
  update (update m a (UInt8.ofNat (v / 256))) (a+1) (UInt8.ofNat (v % 256))

variable {d k : ℕ} {outcome : Option (ℕ × Mem)} {br : Bridge} {s : Wb} {dev : Device}

variable (l : Links) (m : Mem)

lemma put16_of_ne {a i : ℕ} (v : ℕ) (h : i ≠ a) (h' : i ≠ a+1) : put16 m a v i = m i := by
  rw [put16,update_of_ne h',update_of_ne h]

lemma get16_put16_self (a : ℕ) {v : ℕ} (hv : v < 65536) : get16 (put16 m a v) a = v := by
  simp only [get16,put16,update_self,update_of_ne (Nat.lt_succ_self a).ne,UInt8.toNat_ofNat']
  omega

lemma get16_put16_of_lt {a c : ℕ} (v : ℕ) (h : c+2 ≤ a) : get16 (put16 m a v) c = get16 m c := by
  rw [get16,get16,put16_of_ne m v (by omega) (by omega),put16_of_ne m v (by omega) (by omega)]

lemma myMemcpy_apply {dest src num : ℕ} (hle : src ≤ dest) (hnum : num ≤ src)
    (i : ℕ) :
    myMemcpy m dest src num i =
      if dest-num ≤ i ∧ i < dest then m (i-(dest-src)) else m i := by
  induction num generalizing m dest src with
  | zero => rw [myMemcpy,if_neg (by omega)]
  | succ num ih =>
    rw [myMemcpy,ih _ (by omega) (by omega)]
    -- the byte just written lies above every byte still to be read
    by_cases hlow : dest-1-num ≤ i ∧ i < dest-1
    · rw [if_pos hlow,if_pos (by omega),update_of_ne (by omega)]
      congr 1
      omega
    rw [if_neg hlow]
    by_cases htop : i = dest-1
    · rw [if_pos (by omega),htop,update_self]
      congr 1
      omega
    · rw [if_neg (by omega),update_of_ne htop]

inductive PacketType
  | host
  | broadcast
  | multicast
  | otherHost
  deriving DecidableEq, Repr

/-- The fields of a socket buffer that the WAN bridge uses.  Addresses count from the start of
its memory, so that `data` is the headroom; `dev` is `none` for the source interface. -/
structure Skb where
  mem : Mem
  data : ℕ
  len : ℕ
  macRaw : ℕ
  dev : Option ℕ
  pktType : PacketType
  protocol : ℕ
  priority : ℕ

def Skb.frame (skb : Skb) (headerInData : Bool) : List UInt8 :=
  let start := if headerInData then skb.data else skb.macRaw
  (range (skb.data+skb.len-start)).map fun i => skb.mem (start+i)

/-- `skb_realloc_headroom`: the outcome gives how far the allocator went beyond the headroom that
was missing and what the new bytes hold, `none` where it fails. -/
def skbReallocHeadroom (skb : Skb) (headroom : ℕ) (outcome : Option (ℕ × Mem)) : Option Skb :=
  outcome.map fun (slack,pad) =>
    let nhead := headroom-skb.data+slack
    { skb with
      mem := fun i => if i < nhead then pad i else skb.mem (i-nhead)
      data := skb.data+nhead
      macRaw := skb.macRaw+nhead }

def tagHeadroom (outcome : Option (ℕ × Mem)) (skb : Skb) : Option Skb :=
  if skb.data < 4 then skbReallocHeadroom skb 4 outcome else some skb

def vlanType : ℕ := 0x8100

def vlanTci (dev : Device) : BitVec 16 :=
  BitVec.ofInt 16 dev.userPriority <<< 13 ||| BitVec.ofInt 16 dev.vlanKey

/-- The branch of `wb_xmit_frame` for a frame without a tag, behind the check of the headroom. -/
def insertTag (dev : Device) (skb : Skb) : Skb :=
  -- `skb_push`
  let data := skb.data-4
  let mem := memmove skb.mem data (data+4) 12
  let mem := put16 mem (data+12) vlanType
  { skb with
    mem := put16 mem (data+14) (vlanTci dev).toNat
    data := data
    len := skb.len+4 }

/-- `wb_xmit_frame`: the buffer queued on the source interface, `none` where it was dropped. -/
def wbXmitFrame (br : Bridge) (dev : Device) (outcome : Option (ℕ × Mem)) (skb : Skb) :
    Option Skb :=
  match br.mode with
  | .nonVlan => some { skb with dev := none }
  | .vlan =>
    if get16 skb.mem (skb.data+12) ≠ vlanType then do
      let skb ← tagHeadroom outcome skb
      some { insertTag dev skb with dev := none }
    else if (vlanTci dev).toNat ≠ get16 skb.mem (skb.data+14) then
      some { skb with mem := put16 skb.mem (skb.data+14) (vlanTci dev).toNat, dev := none }
    else some { skb with dev := none }

/-- What the frame path reads of the network devices: `wlan` says that the source interface is
the wireless port. -/
structure Links where
  up : ℕ → Bool
  bridged : ℕ → Bool
  devAddr : List UInt8
  wlan : Bool

def wbNetifRx (l : Links) (d : ℕ) (dev : Device) (skb : Skb) : List (ℕ × Skb) :=
  if l.up dev.netDevice then [(d,skb)] else []

def classOf (priority : ℕ) : ℕ :=
  if priority = 7 ∨ priority = 6 then 0xFFFF
  else if priority = 5 ∨ priority = 4 then 0xFAAD
  else if priority = 3 ∨ priority = 2 then 0xFADD
  else 0xFDDD

/-- `eth_type_trans`, for devices with a plain Ethernet header. -/
def ethTypeTrans (l : Links) (skb : Skb) : Skb :=
  let dest := (range 6).map fun i => skb.mem (skb.data+i)
  let pktType :=
    if (skb.mem skb.data).toNat % 2 = 1 then
      if dest = replicate 6 255 then .broadcast else .multicast
    else if dest ≠ l.devAddr then .otherHost
    else skb.pktType
  let proto := get16 skb.mem (skb.data+12)
  -- `skb_pull` leaves a buffer alone that is shorter than the header
  let pulled := if 14 ≤ skb.len then 14 else 0
  { skb with
    macRaw := skb.data
    data := skb.data+pulled
    len := skb.len-pulled
    pktType := pktType
    protocol :=
      if 1536 ≤ proto then proto
      else if get16 skb.mem (skb.data+pulled) = 0xFFFF then 1 else 4 }

def passUp (l : Links) (d : ℕ) (dev : Device) (skb : Skb) : List (ℕ × Skb) :=
  let skb := { skb with dev := some dev.netDevice, pktType := .host }
  wbNetifRx l d dev (if l.bridged dev.netDevice then skb else ethTypeTrans l skb)

/-- The clones for every device behind the first; `clone i` says whether the `i`th succeeds, and
the result whether all did. -/
def floodClones (s : Wb) (l : Links) (clone : ℕ → Bool) (skb : Skb) :
    ℕ → List ℕ → Option (Bool × List (ℕ × Skb))
  | _, [] => some (true,[])
  | i, d :: ds =>
    if clone i then do
      let dev ← s.device d
      let (all,rest) ← floodClones s l clone skb (i+1) ds
      some (all,passUp l d dev skb ++ rest)
    else some (false,[])

/-- The delivery of a tagged frame to the device its key names. -/
def stripTag (l : Links) (dev : Device) (skb : Skb) : Skb :=
  let encapsulated := get16 skb.mem (skb.data+16)
  let data := skb.data+16
  let mem := myMemcpy skb.mem data (data-4) 12
  if l.bridged dev.netDevice then
    { skb with mem := mem, data := data-12, dev := some dev.netDevice }
  else
    { skb with
      mem := mem
      macRaw := data-12
      data := data+2
      dev := some dev.netDevice
      pktType := .host
      protocol := encapsulated }

/-- `wb_receive_frame`: its return value and the buffers passed up, each with its device. -/
def wbReceiveFrame (s : Wb) (l : Links) (clone : ℕ → Bool) (br : Bridge) (skb : Skb) :
    Option (ℤ × List (ℕ × Skb)) :=
  match br.mode with
  | .vlan =>
    if get16 skb.mem (skb.data+12) ≠ vlanType then some (-1,[])
    else
      let tci := get16 skb.mem (skb.data+14)
      let skb := if l.wlan then { skb with priority := classOf ((tci &&& 0xE000) >>> 13) } else skb
      match br.bucket (tci &&& 0xFFF) with
      | none => some (0,[])
      | some d => do
        let dev ← s.device d
        some (0,wbNetifRx l d dev (stripTag l dev skb))
  | .nonVlan =>
    if !br.ready then some (0,[])
    else match br.deviceList with
      | [] => some (0,[])
      | first :: ds => do
        let (all,rest) ← floodClones s l clone skb 0 ds
        if all then do
          let dev ← s.device first
          some (0,rest ++ passUp l first dev skb)
        else some (-1,rest)

structure Device.Tagging (dev : Device) (k : ℕ) : Prop where
  key : dev.vlanKey = k
  key_pos : 1 ≤ k
  key_le : k ≤ 4094
  prio_nonneg : 0 ≤ dev.userPriority
  prio_le : dev.userPriority ≤ 7

variable {q skb : Skb}

lemma Device.Tagging.tci_eq (h : dev.Tagging k) :
    (vlanTci dev).toNat = dev.userPriority.toNat*8192+k := by
  obtain ⟨hkey,-,hle,hnonneg,hprio⟩ := h
  have hp : (dev.userPriority % 65536).toNat = dev.userPriority.toNat := by omega
  have hk : (dev.vlanKey % 65536).toNat = k := by omega
  have hshift : dev.userPriority.toNat <<< 13 = dev.userPriority.toNat*8192 :=
    Nat.shiftLeft_eq ..
  have hor := Nat.shiftLeft_add_eq_or_of_lt (show k < 2 ^ 13 by omega) dev.userPriority.toNat
  simp only [vlanTci,BitVec.toNat_or,BitVec.toNat_shiftLeft,BitVec.toNat_ofInt,
    Nat.reducePow,Nat.cast_ofNat,hp,hk]
  rw [Nat.mod_eq_of_lt (by omega),← hor,hshift]

lemma Device.Tagging.and_eq (h : dev.Tagging k) : (vlanTci dev).toNat &&& 0xFFF = k := by
  have hmod := Nat.and_two_pow_sub_one_eq_mod (vlanTci dev).toNat 12
  have := h.key_le
  rw [show 0xFFF = 2 ^ 12-1 from rfl,hmod,h.tci_eq]
  omega

def Skb.SameData (skb skb' : Skb) : Prop :=
  skb'.len = skb.len ∧ ∀ i, skb'.mem (skb'.data+i) = skb.mem (skb.data+i)

lemma tagHeadroom_sameData {skb skb' : Skb} (h : tagHeadroom outcome skb = some skb') :
    4 ≤ skb'.data ∧ skb.SameData skb' := by
  unfold tagHeadroom at h
  split at h
  · cases outcome with
    | none => cases h
    | some o =>
      cases h
      refine ⟨?_,rfl,fun i => ?_⟩
      · show 4 ≤ skb.data+(4-skb.data+o.1)
        omega
      · dsimp only
        rw [if_neg (by omega)]
        congr 1
        omega
  · cases h
    exact ⟨by omega,rfl,fun _ => rfl⟩

section Tag

variable (hroom : 4 ≤ skb.data)

include hroom

lemma insertTag_addresses {i : ℕ} (hi : i < 12) :
    (insertTag dev skb).mem (skb.data-4+i) = skb.mem (skb.data+i) := by
  dsimp only [insertTag]
  rw [put16_of_ne _ _ (by omega) (by omega),put16_of_ne _ _ (by omega) (by omega),memmove,
    if_pos (by omega)]
  congr 1
  omega

lemma insertTag_rest (i : ℕ) :
    (insertTag dev skb).mem (skb.data+12+i) = skb.mem (skb.data+12+i) := by
  dsimp only [insertTag]
  rw [put16_of_ne _ _ (by omega) (by omega),put16_of_ne _ _ (by omega) (by omega),memmove,
    if_neg (by omega)]

omit hroom in
lemma insertTag_type : get16 (insertTag dev skb).mem (skb.data-4+12) = vlanType := by
  rw [insertTag,get16_put16_of_lt _ _ (by omega),get16_put16_self _ _ (by decide)]

omit hroom in
lemma insertTag_tci : get16 (insertTag dev skb).mem (skb.data-4+14) = (vlanTci dev).toNat := by
  rw [insertTag,get16_put16_self _ _ (vlanTci dev).isLt]

end Tag

lemma stripTag_mem (i : ℕ) :
    (stripTag l dev skb).mem (skb.data+4+i) =
      if i < 12 then skb.mem (skb.data+i) else skb.mem (skb.data+4+i) := by
  have hmem : (stripTag l dev skb).mem = myMemcpy skb.mem (skb.data+16) (skb.data+12) 12 := by
    rw [stripTag]
    split <;> rfl
  rw [hmem,myMemcpy_apply _ (by omega) (by omega)]
  by_cases hi : i < 12
  · rw [if_pos hi,if_pos (by omega)]
    congr 1
    omega
  · rw [if_neg hi,if_neg (by omega)]

lemma stripTag_frame (dev : Device) (skb : Skb) :
    (stripTag l dev skb).frame (l.bridged dev.netDevice) =
      (range (skb.len+if l.bridged dev.netDevice then 0 else 14)).map
        fun i => (stripTag l dev skb).mem (skb.data+4+i) := by
  cases hb : l.bridged dev.netDevice with
  | true =>
    have hlen : skb.data+16-12+skb.len-(skb.data+16-12) = skb.len+0 := by omega
    simp only [Skb.frame,stripTag,hb,if_true,hlen]
    rfl
  | false =>
    have hlen : skb.data+16+2+skb.len-(skb.data+16-12) = skb.len+14 := by omega
    simp only [Skb.frame,stripTag,hb,Bool.false_eq_true,if_false,hlen]
    rfl

lemma stripTag_insertTag (hroom : 4 ≤ skb.data)
    (hmem : q.mem = (insertTag dev skb).mem) (hdata : q.data = skb.data-4) (i : ℕ) :
    (stripTag l dev q).mem (q.data+4+i) = skb.mem (skb.data+i) := by
  rw [stripTag_mem,hmem,hdata]
  by_cases hi : i < 12
  · rw [if_pos hi,insertTag_addresses hroom hi]
  · obtain ⟨j,rfl⟩ : ∃ j, i = 12+j := ⟨i-12,by omega⟩
    rw [if_neg hi,show skb.data-4+4+(12+j) = skb.data+12+j by omega,
      insertTag_rest hroom,add_assoc]

def Skb.Untagged (skb : Skb) : Prop := get16 skb.mem (skb.data+12) ≠ vlanType

lemma wbXmitFrame_untagged (dev : Device) (outcome : Option (ℕ × Mem)) (hmode : br.mode = .vlan)
    (hplain : skb.Untagged) :
    wbXmitFrame br dev outcome skb =
      (tagHeadroom outcome skb).map fun skb' => { insertTag dev skb' with dev := none } := by
  rw [wbXmitFrame,hmode]
  dsimp only
  rw [if_pos (show get16 skb.mem (skb.data+12) ≠ vlanType from hplain)]
  cases tagHeadroom outcome skb <;> rfl

lemma tagHeadroom_eq_none : tagHeadroom outcome skb = none ↔ skb.data < 4 ∧ outcome = none := by
  by_cases hroom : skb.data < 4 <;> simp [tagHeadroom,skbReallocHeadroom,hroom]

section

variable (clone : ℕ → Bool) (hmode : br.mode = .vlan) (hcons : br.Consistent s)
    (hd : d ∈ br.deviceList) (hdev : s.device d = some dev) (htag : dev.Tagging k)
    (hplain : skb.Untagged) (hq : wbXmitFrame br dev outcome skb = some q)
include hmode hcons hd hdev htag hplain hq

lemma receive_xmit :
    ∃ r, wbReceiveFrame s l clone br q = some (0,wbNetifRx l d dev r) ∧
      r.frame (l.bridged dev.netDevice) = skb.frame true ++
        (range (if l.bridged dev.netDevice then 4 else 18)).map
          fun i => skb.mem (skb.data+(skb.len+i)) := by
  rw [wbXmitFrame_untagged dev outcome hmode hplain] at hq
  obtain ⟨skb',hhead,rfl⟩ := Option.map_eq_some_iff.mp hq
  obtain ⟨hroom,hlen,hbytes⟩ := tagHeadroom_sameData hhead
  have hbucket : br.bucket k = some d := (hcons.bucket hmode k d).mpr ⟨hd,dev,hdev,htag.key⟩
  -- the traffic class is all that reception changes before the tag is taken out
  obtain ⟨q',hq',hrecv⟩ : ∃ q' : Skb, (q'.mem = (insertTag dev skb').mem ∧
    q'.data = skb'.data-4 ∧ q'.len = skb'.len+4) ∧
    wbReceiveFrame s l clone br { insertTag dev skb' with dev := none } =
      some (0,wbNetifRx l d dev (stripTag l dev q')) := by
    have htype : get16 (insertTag dev skb').mem ((insertTag dev skb').data+12) = vlanType :=
      insertTag_type
    have htci : get16 (insertTag dev skb').mem ((insertTag dev skb').data+14) =
        (vlanTci dev).toNat := insertTag_tci
    simp only [wbReceiveFrame,hmode,htype,htci,ne_eq,not_true,if_false,htag.and_eq,
      hbucket,hdev,Option.bind_eq_bind,Option.bind_some]
    refine ⟨_,?_,rfl⟩
    split <;> exact ⟨rfl,rfl,rfl⟩
  obtain ⟨hmem,hdata,hlen'⟩ := hq'
  refine ⟨_,hrecv,?_⟩
  have hframe : skb.frame true = (range skb.len).map fun i => skb.mem (skb.data+i) := by
    simp only [Skb.frame,if_true,Nat.add_sub_cancel_left]
  have hsum : q'.len+(if l.bridged dev.netDevice then 0 else 14) =
      skb.len+(if l.bridged dev.netDevice then 4 else 18) := by
    split <;> omega
  rw [stripTag_frame,hsum,range_add,map_append,map_map,hframe]
  simp only [stripTag_insertTag l hroom hmem hdata,hbytes,comp_def]

/-- What is queued of a frame is received as that frame, by its own device alone. -/
def RoundTrip (s : Wb) (l : Links) (clone : ℕ → Bool) (br : Bridge) (d : ℕ) (dev : Device)
    (outcome : Option (ℕ × Mem)) (skb : Skb) : Prop :=
  ∀ q, wbXmitFrame br dev outcome skb = some q → ∃ e r,
    wbReceiveFrame s l clone br q = some (e,[(d,r)]) ∧
      r.frame (l.bridged dev.netDevice) = skb.frame true

lemma not_roundTrip : ¬ RoundTrip s l clone br d dev outcome skb := by
  intro h
  obtain ⟨r,hr,hframe⟩ := receive_xmit l clone hmode hcons hd hdev htag hplain hq
  obtain ⟨e,r',hr',heq⟩ := h q hq
  rw [hr,wbNetifRx] at hr'
  cases hup : l.up dev.netDevice with
  | false =>
    rw [hup] at hr'
    cases hr'
  | true =>
    rw [hup] at hr'
    cases hr'
    have hlen := congrArg length (hframe.symm.trans heq)
    rw [length_append,length_map,length_range] at hlen
    split at hlen <;> omega

end

/-- The round trip loses the length of every frame that is queued at all. -/
theorem roundTrip_iff (s : Wb) (l : Links) (clone : ℕ → Bool) (br : Bridge) (d k : ℕ)
    (dev : Device) (hmode : br.mode = .vlan) (hcons : br.Consistent s) (hd : d ∈ br.deviceList)
    (hdev : s.device d = some dev) (htag : dev.Tagging k) (outcome : Option (ℕ × Mem))
    (skb : Skb) (hplain : skb.Untagged) :
    RoundTrip s l clone br d dev outcome skb ↔ skb.data < 4 ∧ outcome = none := by
  have hxmit := wbXmitFrame_untagged dev outcome hmode hplain
  rw [← tagHeadroom_eq_none]
  constructor
  · intro h
    cases hhead : tagHeadroom outcome skb with
    | none => rfl
    | some skb' =>
      rw [hhead] at hxmit
      exact absurd h (not_roundTrip l clone hmode hcons hd hdev htag hplain hxmit)
  · intro hnone q hq
    rw [hxmit,hnone] at hq
    cases hq

def sampleDevice : Device := ⟨0,5,3,0⟩

def sampleHeap : Wb :=
  { Wb.init with device := update (fun _ => none) 1 (some sampleDevice) }

def sampleBridge : Bridge :=
  ⟨[119],.vlan,true,[1],update (fun _ => none) 5 (some 1)⟩

def sampleLinks : Links := ⟨fun _ => true,fun _ => true,[],false⟩

def sampleFrame (headroom : ℕ) : Skb :=
  ⟨fun _ => 0,headroom,60,0,none,.host,0,0⟩

lemma sampleBridge_consistent : sampleBridge.Consistent sampleHeap := by
  have hdevice : sampleHeap.device = update Wb.init.device 1 (some sampleDevice) := rfl
  have hnew : Owned sampleHeap 0 sampleBridge :=
    (Owned.empty Wb.init 0 [119] .vlan).attach not_mem_nil rfl hdevice
      fun _ => ⟨by decide,by decide,rfl,rfl⟩
  exact hnew.consistent

lemma sampleDevice_tagging : sampleDevice.Tagging 5 :=
  ⟨rfl,by decide,by decide,by decide,by decide⟩

lemma sampleFrame_untagged (headroom : ℕ) : (sampleFrame headroom).Untagged := by
  show (0 : UInt8).toNat*256+(0 : UInt8).toNat ≠ vlanType
  decide

/-- Without memory for the headroom nothing is queued. -/
theorem roundTrip_iff_no_memory :
    RoundTrip sampleHeap sampleLinks (fun _ => true) sampleBridge 1 sampleDevice none
      (sampleFrame 0) :=
  (roundTrip_iff sampleHeap sampleLinks (fun _ => true) sampleBridge 1 5 sampleDevice rfl
    sampleBridge_consistent (mem_singleton_self 1) rfl sampleDevice_tagging none
    (sampleFrame 0) (sampleFrame_untagged 0)).mpr ⟨by decide,rfl⟩

/-- With sixteen bytes of headroom the sixty bytes come back as sixty-four. -/
theorem roundTrip_fails_headroom :
    ¬ RoundTrip sampleHeap sampleLinks (fun _ => true) sampleBridge 1 sampleDevice none
      (sampleFrame 16) := by
  have hplain := sampleFrame_untagged 16
  have hhead : tagHeadroom none (sampleFrame 16) = some (sampleFrame 16) := rfl
  have hq := wbXmitFrame_untagged sampleDevice none (show sampleBridge.mode = .vlan from rfl) hplain
  rw [hhead,Option.map_some] at hq
  exact not_roundTrip sampleLinks (fun _ => true) rfl sampleBridge_consistent
    (mem_singleton_self 1) rfl sampleDevice_tagging hplain hq

end DslG624t.WanBridge
