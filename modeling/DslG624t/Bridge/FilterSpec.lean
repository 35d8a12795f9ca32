import DslG624t.Bridge.Filter
import DslG624t.Lib.FirstMatch

/-!
# What the frame filter is for

A rule speaks about a frame through the fields it specifies, and the first rule all of whose
specified fields agree with the frame decides.
-/

namespace DslG624t.Bridge

open CString Ethernet FirstMatch

section Rule

variable (e : FilterEntry) (skb : Frame) (dst : FdbEntry)

def FilterEntry.HasSport : Prop := cstr e.sportMem ≠ ofString "0"

def FilterEntry.HasDport : Prop := cstr e.dportMem ≠ ofString "0"

def FilterEntry.HasProto : Prop := e.ethProto ≠ 0

def FilterEntry.HasSrcMac : Prop := e.srcMacAddr ≠ ⟨0,0,0,0,0,0⟩

def FilterEntry.HasDstMac : Prop := e.dstMacAddr ≠ ⟨0,0,0,0,0,0⟩

instance : Decidable e.HasSport := inferInstanceAs (Decidable (_ ≠ _))
instance : Decidable e.HasDport := inferInstanceAs (Decidable (_ ≠ _))
instance : Decidable e.HasProto := inferInstanceAs (Decidable (_ ≠ _))
instance : Decidable e.HasSrcMac := inferInstanceAs (Decidable (_ ≠ _))
instance : Decidable e.HasDstMac := inferInstanceAs (Decidable (_ ≠ _))

/-- Every field the rule specifies agrees with the frame: ports by full name, addresses
in all six bytes. The source port is the one the source address was learned on. -/
def FilterEntry.Matches : Prop :=
  (e.HasSport → cstr e.sportMem = dst.dst.dev.name) ∧
  (e.HasDport → cstr e.dportMem = skb.brPort.dev.name) ∧
  (e.HasProto → e.ethProto = skb.hProto) ∧
  (e.HasSrcMac → e.srcMacAddr = skb.hSource) ∧
  (e.HasDstMac → e.dstMacAddr = skb.hDest)

instance : Decidable (e.Matches skb dst) := inferInstanceAs (Decidable (_ ∧ _))

/-- The agreement the switch really tests. -/
def FilterEntry.LooselyMatches : Prop :=
  (e.HasSport → ¬ e.HasDport → cstr e.sportMem = dst.dst.dev.name) ∧
  (e.HasDport → cstr e.dportMem = skb.brPort.dev.name) ∧
  (e.HasProto → e.ethProto = skb.hProto) ∧
  (e.HasSrcMac → e.srcMacAddr.b0 = skb.hSource.b0 ∧ e.srcMacAddr.b4 = skb.hSource.b4) ∧
  (e.HasDstMac → e.dstMacAddr.b0 = skb.hDest.b0 ∧ e.dstMacAddr.b4 = skb.hDest.b4)

instance : Decidable (e.LooselyMatches skb dst) := inferInstanceAs (Decidable (_ ∧ _))

/-- A rule without any field whose `access_type` neither case tests for. -/
def FilterEntry.Silent : Prop :=
  ¬ e.HasSport ∧ ¬ e.HasDport ∧ ¬ e.HasProto ∧ ¬ e.HasSrcMac ∧ ¬ e.HasDstMac ∧
    e.accessType ≠ 0 ∧ e.accessType ≠ 1

instance : Decidable e.Silent := inferInstanceAs (Decidable (_ ∧ _))

def FilterEntry.Deviates : Prop :=
  e.Silent ∨ (e.LooselyMatches skb dst ∧ ¬ e.Matches skb dst)

def FilterEntry.verdict : ℤ := if e.accessType = 1 then 0 else 1

end Rule

/-- The outcome the first matching rule of the table asks for. -/
def MeetsPolicy (skb : Frame) (dst : FdbEntry) (br : NetBridge) (r : ℤ × NetBridge) : Prop :=
  Decides (fun e => e.Matches skb dst) FilterEntry.verdict FilterEntry.bump 0 br.blacklist
    (r.1,r.2.blacklist)

variable {e : FilterEntry} {skb : Frame} {dst : FdbEntry}

lemma macSpecified_iff (a : Mac) : macSpecified a = true ↔ a ≠ ⟨0,0,0,0,0,0⟩ := by
  cases a
  simp only [macSpecified,Mac.bytes,List.any_cons,List.any_nil,Bool.or_false,
    Bool.or_eq_true,decide_eq_true_eq,ne_eq,Mac.mk.injEq]
  tauto

lemma macTest_iff (a b : Mac) : macTest a b = true ↔ a.b0 = b.b0 ∧ a.b4 = b.b4 := by
  have hmask (x : UInt8) : x.toUInt32 &&& 0x0000ffff = x.toUInt32 := by
    apply UInt32.toNat_inj.mp
    have hx := x.toNat_lt
    rw [UInt32.toNat_and,UInt8.toNat_toUInt32]
    exact (Nat.and_two_pow_sub_one_eq_mod x.toNat 16).trans (Nat.mod_eq_of_lt (by omega))
  have hinj : a.b4.toUInt32 = b.b4.toUInt32 ↔ a.b4 = b.b4 := by
    rw [← UInt32.toNat_inj,UInt8.toNat_toUInt32,UInt8.toNat_toUInt32,UInt8.toNat_inj]
  simp only [macTest,hmask,Bool.and_eq_true,beq_iff_eq,hinj]

lemma strcmp_sport_ne_zero_iff (e : FilterEntry) :
    strcmp e.sportMem (ofString "0") ≠ 0 ↔ e.HasSport := by
  have h0 : cstr (ofString "0") = ofString "0" := by decide
  rw [ne_eq,strcmp_eq_zero_iff,h0,FilterEntry.HasSport]

lemma strcmp_dport_ne_zero_iff (e : FilterEntry) :
    strcmp e.dportMem (ofString "0") ≠ 0 ↔ e.HasDport := by
  have h0 : cstr (ofString "0") = ofString "0" := by decide
  rw [ne_eq,strcmp_eq_zero_iff,h0,FilterEntry.HasDport]

lemma recordMatch_eq (e : FilterEntry) :
    e.recordMatch =
      let r : UInt8 := 0
      let r := if e.HasDstMac then r ||| MATCH_DST_MAC else r
      let r := if e.HasSrcMac then r ||| MATCH_SRC_MAC else r
      let r := if e.HasProto then r ||| MATCH_PROTO else r
      let r := if e.HasSport then r ||| MATCH_SPORT else r
      if e.HasDport then r ||| MATCH_DPORT else r := by
  have hd : macSpecified e.dstMacAddr = true ↔ e.HasDstMac := macSpecified_iff _
  have hs : macSpecified e.srcMacAddr = true ↔ e.HasSrcMac := macSpecified_iff _
  have hp : e.ethProto ≠ 0 ↔ e.HasProto := Iff.rfl
  simp only [FilterEntry.recordMatch,hd,hs,hp,strcmp_sport_ne_zero_iff,strcmp_dport_ne_zero_iff]

lemma strcmp_name_iff (m : Bytes) (d : NetDevice) : strcmp m d.name = 0 ↔ cstr m = d.name := by
  rw [strcmp_eq_zero_iff,cstr_eq_self d.name_nulFree]

lemma filterSwitch_eq (he : e.Consistent) (skb : Frame) (dst : FdbEntry) :
    filterSwitch e skb dst =
      if e.LooselyMatches skb dst ∧ ¬ e.Silent then some (policyHit e.accessType) else none := by
  have hm : e.matchCheck = _ := he.trans (recordMatch_eq e)
  unfold filterSwitch FilterEntry.LooselyMatches FilterEntry.Silent
  rw [hm]
  -- One goal for each value of `match_check`.
  by_cases h1 : e.HasSport <;> by_cases h2 : e.HasDport <;> by_cases h3 : e.HasProto <;>
    by_cases h4 : e.HasSrcMac <;> by_cases h5 : e.HasDstMac <;>
    simp [h1,h2,h3,h4,h5,MATCH_PROTO,MATCH_SRC_MAC,MATCH_DST_MAC,MATCH_SPORT,
      MATCH_DPORT,strcmp_name_iff,macTest_iff,policyHit] <;> grind

lemma verdict_passthru (h : policyHit e.accessType = .passthru) : e.verdict = 0 := by
  by_cases ha : e.accessType = 1 <;> simp_all [policyHit,FilterEntry.verdict]

lemma verdict_freeOut (h : policyHit e.accessType = .freeOut) : e.verdict = 1 := by
  by_cases ha : e.accessType = 1 <;> simp_all [policyHit,FilterEntry.verdict]

lemma filterLoop_eq_scan {es : List FilterEntry} (h : ∀ e ∈ es, e.Consistent) :
    filterLoop skb dst es =
      scan (fun e => decide (e.LooselyMatches skb dst ∧ ¬ e.Silent)) FilterEntry.verdict
        FilterEntry.bump 0 es := by
  induction es with
  | nil => rfl
  | cons e es ih =>
    obtain ⟨he,hes⟩ := List.forall_mem_cons.mp h
    rw [filterLoop,filterSwitch_eq he]
    by_cases hc : e.LooselyMatches skb dst ∧ ¬ e.Silent
    · rw [if_pos hc,scan_cons_of_pos (by simpa using hc)]
      cases hp : policyHit e.accessType with
      | passthru => simp [verdict_passthru hp]
      | freeOut => simp [verdict_freeOut hp]
    · rw [if_neg hc,scan_cons_of_neg (by simpa using hc),ih hes]

lemma FilterEntry.Matches.loosely (h : e.Matches skb dst) : e.LooselyMatches skb dst := by
  obtain ⟨hsp,hdp,hp,hs,hd⟩ := h
  exact ⟨fun h _ => hsp h,hdp,hp,fun h => by simp [hs h],fun h => by simp [hd h]⟩

lemma FilterEntry.Silent.matches (h : e.Silent) (skb : Frame) (dst : FdbEntry) :
    e.Matches skb dst := by
  obtain ⟨hsp,hdp,hp,hs,hd,-⟩ := h
  exact ⟨fun h => absurd h hsp,fun h => absurd h hdp,fun h => absurd h hp,
    fun h => absurd h hs,fun h => absurd h hd⟩

lemma deviates_iff (e : FilterEntry) (skb : Frame) (dst : FdbEntry) :
    e.Deviates skb dst ↔
      decide (e.LooselyMatches skb dst ∧ ¬ e.Silent) ≠ decide (e.Matches skb dst) := by
  unfold FilterEntry.Deviates
  by_cases hs : e.Silent
  · simp [hs,hs.matches skb dst]
  · by_cases hm : e.Matches skb dst
    · simp [hs,hm,hm.loosely]
    · simp [hs,hm]

lemma bump_ne (e : FilterEntry) : e.bump ≠ e := by
  intro h
  have hc : e.framesMatched+1 = e.framesMatched := congrArg FilterEntry.framesMatched h
  simp at hc

lemma brFilterFrame_eq {br : NetBridge} (ha : br.brFilterActive = true)
    (hd : brFdbGet br.fdb skb.hSource = some dst) :
    brFilterFrame br skb =
      ((filterLoop skb dst br.blacklist).1,
        { br with blacklist := (filterLoop skb dst br.blacklist).2 }) := by
  simp [brFilterFrame,hd,ha]

/-- With filtering active and the source learned, the outcome is the one the first
matching rule asks for exactly when every rule that deviates on this frame stands
behind a rule that matches it. -/
theorem brFilterFrame_meetsPolicy_iff {br : NetBridge} {skb : Frame} {dst : FdbEntry}
    (hi : Installed br) (ha : br.brFilterActive = true)
    (hd : brFdbGet br.fdb skb.hSource = some dst) :
    MeetsPolicy skb dst br (brFilterFrame br skb) ↔
      Guarded (fun e => e.Deviates skb dst) (fun e => e.Matches skb dst) br.blacklist := by
  have hdec := @decides_iff _ _ (fun e : FilterEntry => decide (e.Matches skb dst))
    FilterEntry.verdict FilterEntry.bump (0 : ℤ) br.blacklist (filterLoop skb dst br.blacklist)
  have hscan := @scan_eq_scan_iff _ _
    (fun e : FilterEntry => decide (e.LooselyMatches skb dst ∧ ¬ e.Silent))
    (fun e => decide (e.Matches skb dst)) FilterEntry.verdict FilterEntry.bump (0 : ℤ) bump_ne
    br.blacklist
  rw [← filterLoop_eq_scan hi.consistent] at hscan
  simp only [decide_eq_true_eq] at hdec hscan
  simp only [← deviates_iff] at hscan
  rw [MeetsPolicy,brFilterFrame_eq ha hd]
  exact hdec.trans hscan

def portField (name : Bytes) (h : name.length ≤ 10) : PortField :=
  ⟨name ++ List.replicate (10-name.length) 0,by simp; omega⟩

private def port (name : Bytes) (h : NulFree name ∧ name.length < 16) : Port :=
  ⟨⟨name,h.1,h.2⟩,1⟩

/-- Drop what comes in on `eth0` and leaves through `usb0`. -/
private def eth0ToUsb0 : FilterInput where
  sport := portField (ofString "eth0") (by decide)
  dport := portField (ofString "usb0") (by decide)
  srcMacAddr := ⟨0,0,0,0,0,0⟩
  dstMacAddr := ⟨0,0,0,0,0,0⟩
  proto := 0
  accessType := 0

private def wlanStation : FdbEntry where
  addr := ⟨2,0,0,0,0,9⟩
  dst := port (ofString "wlan0") (by decide)
  ageingTimer := 0
  isStatic := true

private def emptyBridge : NetBridge where
  fdb := ⟨fun _ => [wlanStation],0,0,0,false⟩
  blacklist := []
  brFilterActive := true

private def twoPortBridge : NetBridge :=
  (brAddFilterEntry emptyBridge ⟨true,true,true⟩ eth0ToUsb0).2

private def wlanFrame : Frame where
  brPort := port (ofString "usb0") (by decide)
  hDest := ⟨2,0,0,0,0,7⟩
  hSource := ⟨2,0,0,0,0,9⟩
  hProto := 8

/-- The frame came in on `wlan0`, yet the rule for `eth0` drops it. -/
theorem brFilterFrame_ignores_sport :
    Installed twoPortBridge ∧ twoPortBridge.brFilterActive = true ∧
      brFdbGet twoPortBridge.fdb wlanFrame.hSource = some wlanStation ∧
      ¬ MeetsPolicy wlanFrame wlanStation twoPortBridge
        (brFilterFrame twoPortBridge wlanFrame) := by
  refine ⟨.add (.empty rfl) _ _,by decide,by decide,fun h => ?_⟩
  have hmiss := congrArg Prod.fst (h.miss (by decide))
  have hdrop : (brFilterFrame twoPortBridge wlanFrame).1 = 1 := by decide
  rw [hdrop] at hmiss
  exact absurd hmiss (by decide)

def noPort : PortField := portField (ofString "0") (by decide)

/-- A rule for `eth0` alone, and behind it one for `usb0` alone. -/
private def twoRules : NetBridge :=
  (brAddFilterEntry (brAddFilterEntry emptyBridge ⟨true,true,true⟩
    { eth0ToUsb0 with dport := noPort }).2 ⟨true,true,true⟩ { eth0ToUsb0 with sport := noPort }).2

/-- The first rule is passed over and the second drops the frame. -/
theorem brFilterFrame_meetsPolicy_second :
    twoRules.blacklist.map (fun e => decide (e.Matches wlanFrame wlanStation)) = [false,true] ∧
    (brFilterFrame twoRules wlanFrame).1 = 1 ∧
    MeetsPolicy wlanFrame wlanStation twoRules (brFilterFrame twoRules wlanFrame) := by
  refine ⟨by decide,by decide,?_⟩
  refine (brFilterFrame_meetsPolicy_iff (.add (.add (.empty rfl) _ _) _ _) (by decide)
    (by decide)).mpr ?_
  have hnone : ∀ e ∈ twoRules.blacklist,
      ¬ (e.Silent ∨ (e.LooselyMatches wlanFrame wlanStation ∧
        ¬ e.Matches wlanFrame wlanStation)) := by
    decide
  intro before e after heq hdev
  exact absurd hdev (hnone e (heq ▸ by simp))

end DslG624t.Bridge
