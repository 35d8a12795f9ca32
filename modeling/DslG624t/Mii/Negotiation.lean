import DslG624t.Mii.Fields

/-!
# What a negotiation records
-/

namespace DslG624t.Mii

open Packed (has)

variable {e : Setup} {r : Regs} {f : Fields}

namespace Fields

@[simp] lemma phase_tic : (f.tic e r).2.phase = (f.act e r).phase := by
  unfold tic
  dsimp only
  split_ifs <;> rfl

@[simp] lemma speed_tic : (f.tic e r).2.speed = (f.act e r).speed := by
  unfold tic
  dsimp only
  split_ifs <;> rfl

@[simp] lemma duplex_tic : (f.tic e r).2.duplex = (f.act e r).duplex := by
  unfold tic
  dsimp only
  split_ifs <;> rfl

lemma act_of_nwayStart (h : f.phase = .nwayStart) : f.act e r = f.nwayStartState e r := by
  unfold act
  rw [h]

lemma act_of_nwayWait (h : f.phase = .nwayWait) : f.act e r = f.nwayWaitState e r := by
  unfold act
  rw [h]

lemma act_of_linkWait (h : f.phase = .linkWait) : f.act e r = f.linkWaitState e r := by
  unfold act
  rw [h]

lemma waitOn_spec :
    ((f.waitOn e).phase = f.phase ∨ (f.waitOn e).phase = .found) ∧
      (f.waitOn e).speed = f.speed ∧ (f.waitOn e).duplex = f.duplex := by
  unfold waitOn phyTimeOut
  split_ifs <;> simp

lemma act_nwayWait (hph : f.phase = .nwayWait)
    (hnext : (f.act e r).phase = .linkWait ∨ (f.act e r).phase = .linked) :
    ∃ m, negotiated r.nwayAdvertize r.nwayRemadvertise = some m ∧
      (f.act e r).speed = m.fast ∧ (f.act e r).duplex = m.full := by
  rw [act_of_nwayWait hph] at hnext ⊢
  unfold nwayWaitState at hnext ⊢
  by_cases hcomplete : has r.phyStatus miiNwayComplete
  · rw [if_pos hcomplete] at hnext ⊢
    cases hneg : negotiated r.nwayAdvertize r.nwayRemadvertise with
    | none =>
      rw [hneg] at hnext
      simp [hph] at hnext
    | some m => exact ⟨m,rfl,rfl,rfl⟩
  · rw [if_neg hcomplete] at hnext
    rcases (waitOn_spec (f := f) (e := e)).1 with h | h <;> simp [h,hph] at hnext

lemma act_linkWait (hph : f.phase = .linkWait) :
    (f.act e r).speed = f.speed ∧ (f.act e r).duplex = f.duplex := by
  rw [act_of_linkWait hph]
  unfold linkWaitState
  split_ifs
  · exact ⟨rfl,rfl⟩
  · exact waitOn_spec.2

end Fields

lemma full_of_common_eq_none {advertise partner : BitVec 16} {m : Mode}
    (h : negotiated advertise partner = some m) (hnone : common advertise partner = none) :
    m.full = false := by
  unfold negotiated halfDuplex at h
  rw [hnone,Option.none_or] at h
  have hmem := List.mem_of_find?_eq_some h
  simp only [List.mem_cons,List.not_mem_nil,or_false] at hmem
  rcases hmem with rfl | rfl <;> rfl

def Defined (w : BitVec 32) : Prop := ∃ ph : Phase, w &&& phyStateMask = ph.word

lemma defined_iff {w : BitVec 32} : Defined w ↔ ∃ f, Packs w f := by
  constructor
  · rintro ⟨ph,h⟩
    have hcode : w.extractLsb' 5 5 = ph.code := by
      have := congrArg (·.extractLsb' 5 5) h
      cases ph <;> simpa [Phase.word,Phase.code] using this
    exact ⟨_,packs_ofWord hcode⟩
  · rintro ⟨f,h⟩
    exact ⟨f.phase,h.and_phyStateMask⟩

lemma Packs.phase_eq {w : BitVec 32} (h : Packs w f) {ph : Phase}
    (hw : w &&& phyStateMask = ph.word) : f.phase = ph := by
  rw [h.and_phyStateMask] at hw
  revert hw
  cases f.phase <;> cases ph <;> decide

variable {p : Phy} {regs : ℕ → Regs}

lemma run_negotiated {m n : ℕ} (hdef : Defined p.phyState) (hmn : m < n)
    (hwait : (p.run regs m).phyState &&& phyStateMask = nwayWait)
    (hlink : ∀ k, m < k → k < n → (p.run regs k).phyState &&& phyStateMask = linkWait)
    (hend : (p.run regs n).phyState &&& phyStateMask = linkWait ∨
      (p.run regs n).phyState &&& phyStateMask = linked) :
    ∃ mode, negotiated (regs m).nwayAdvertize (regs m).nwayRemadvertise = some mode ∧
      has (p.run regs n).phyState phySpeedMask = mode.fast ∧
      has (p.run regs n).phyState phyDuplexMask = mode.full := by
  obtain ⟨f0,hf0⟩ := defined_iff.mp hdef
  induction n, hmn using Nat.le_induction with
  | base =>
    obtain ⟨f,hf⟩ := exists_packs_run hf0 regs m
    have hph : f.phase = .nwayWait := hf.phase_eq hwait
    have hnext := packs_run_succ hf
    have hphase : (f.act (p.run regs m).setup (regs m)).phase = .linkWait ∨
        (f.act (p.run regs m).setup (regs m)).phase = .linked := by
      rw [← Fields.phase_tic]
      exact hend.imp hnext.phase_eq hnext.phase_eq
    obtain ⟨mode,hmode,hspeed,hduplex⟩ := Fields.act_nwayWait hph hphase
    refine ⟨mode,hmode,?_,?_⟩
    · rw [hnext.has_phySpeedMask,Fields.speed_tic,hspeed]
    · rw [hnext.has_phyDuplexMask,Fields.duplex_tic,hduplex]
  | succ n hmn ih =>
    have hn := hlink n hmn (Nat.lt_succ_self n)
    obtain ⟨mode,hmode,hspeed,hduplex⟩ :=
      ih (fun k hk hkn => hlink k hk (hkn.trans (Nat.lt_succ_self n))) (.inl hn)
    obtain ⟨f,hf⟩ := exists_packs_run hf0 regs n
    have hph : f.phase = .linkWait := hf.phase_eq hn
    have hnext := packs_run_succ hf
    obtain ⟨hs,hd⟩ := Fields.act_linkWait (e := (p.run regs n).setup) (r := regs n) hph
    refine ⟨mode,hmode,?_,?_⟩
    · rw [hnext.has_phySpeedMask,Fields.speed_tic,hs,← hf.has_phySpeedMask,hspeed]
    · rw [hnext.has_phyDuplexMask,Fields.duplex_tic,hd,← hf.has_phyDuplexMask,hduplex]

/-- Over any number of calls with any register contents: the state is a defined one; a call does
to every field what it does on the record of the fields; and a link that comes out of a
negotiation has the speed and duplex of the highest mode that both sides offered in it, or of a
half-duplex mode if they offered none in common. -/
theorem run_fields_and_negotiation {p : Phy} (hdef : Defined p.phyState) (regs : ℕ → Regs) :
    (∀ n, Defined (p.run regs n).phyState) ∧
    (∀ n f, Packs (p.run regs n).phyState f →
      Packs (p.run regs (n+1)).phyState (f.tic (p.run regs n).setup (regs n)).2) ∧
    ∀ m n, m < n → (p.run regs m).phyState &&& phyStateMask = nwayWait →
      (∀ k, m < k → k < n → (p.run regs k).phyState &&& phyStateMask = linkWait) →
      (p.run regs n).phyState &&& phyStateMask = linked →
      ∃ mode, negotiated (regs m).nwayAdvertize (regs m).nwayRemadvertise = some mode ∧
        has (p.run regs n).phyState phySpeedMask = mode.fast ∧
        has (p.run regs n).phyState phyDuplexMask = mode.full ∧
        (common (regs m).nwayAdvertize (regs m).nwayRemadvertise = none → mode.full = false) := by
  refine ⟨?_,?_,?_⟩
  · intro n
    obtain ⟨f,hf⟩ := defined_iff.mp hdef
    exact defined_iff.mpr (exists_packs_run hf regs n)
  · intro n f hf
    exact packs_run_succ hf
  · intro m n hmn hwait hlink hend
    obtain ⟨mode,hmode,hspeed,hduplex⟩ := run_negotiated hdef hmn hwait hlink (.inr hend)
    exact ⟨mode,hmode,hspeed,hduplex,full_of_common_eq_none hmode⟩

def completed : Regs := ⟨2,2,0,0x24,0x1e1,0xe1⟩

def negotiating : Phy := ⟨nwayWait ||| phyNwdnTo ||| 1,0,2,0,1⟩

theorem run_fields_and_negotiation_completed :
    ∃ mode, negotiated 0x1e1 0xe1 = some mode ∧
      has (negotiating.run (fun _ => completed) 1).phyState phySpeedMask = mode.fast ∧
      has (negotiating.run (fun _ => completed) 1).phyState phyDuplexMask = mode.full ∧
      (common 0x1e1 0xe1 = none → mode.full = false) :=
  (run_fields_and_negotiation (p := negotiating) ⟨.nwayWait,by decide⟩ fun _ => completed).2.2
    0 1 (by decide) (by decide) (fun k hk hk' => by omega) (by decide)

end DslG624t.Mii
