import DslG624t.Mii.Negotiation

/-!
# Auto-MDIX

A PHY without a link tries the other cabling after a while: the call returns a request to flip
between MDI and MDIX.
-/

namespace DslG624t.Mii

open Packed (has has_or)

def Phy.flipsAt (p : Phy) (regs : ℕ → Regs) (n : ℕ) : Prop :=
  has ((p.run regs n).tic (regs n)).1 miimdioMdixflip = true

/-- The machine waits for a negotiation to start, for its end or for the link. -/
def Phy.Waiting (p : Phy) : Prop :=
  p.phyState &&& phyStateMask = nwayStart ∨ p.phyState &&& phyStateMask = nwayWait ∨
    p.phyState &&& phyStateMask = linkWait

namespace Regs

def linkUp (r : Regs) : Bool := has r.phyStatus miiPhyLinked

def Stalls (r : Regs) : Prop :=
  has r.phyStatus miiNwayComplete = true ∧ negotiated r.nwayAdvertize r.nwayRemadvertise = none

end Regs

namespace Fields

variable {e : Setup} {r : Regs} {f : Fields}

def Waiting (f : Fields) : Prop :=
  f.phase = .nwayStart ∨ f.phase = .nwayWait ∨ f.phase = .linkWait

def bound (f : Fields) : ℕ :=
  match f.phase with
  | .nwayStart => f.tim+803
  | .nwayWait => f.tim+2
  | .linkWait => f.tim+1
  | _ => 0

lemma Waiting.bound_pos (h : f.Waiting) : 0 < f.bound := by
  unfold bound
  rcases h with h | h | h <;> simp [h]

@[simp] lemma phyNum_tic : (f.tic e r).2.phyNum = (f.act e r).phyNum := by
  unfold tic
  dsimp only
  split_ifs <;> rfl

@[simp] lemma bound_tic : (f.tic e r).2.bound = (f.act e r).bound := by
  unfold tic
  dsimp only
  split_ifs <;> rfl

lemma has_mdixflip_tic : has (f.tic e r).1 miimdioMdixflip = (f.act e r).switch := by
  unfold tic
  dsimp only
  by_cases hswitch : (f.act e r).switch
  · rw [if_pos hswitch,hswitch]
    dsimp only
    cases (f.act e r).mdix <;> decide
  rw [if_neg hswitch,Bool.eq_false_of_not_eq_true hswitch]
  split_ifs
  all_goals
    dsimp only
    decide

lemma waitOn_cases (hmdix : e.autoMdix f.phyNum = true) :
    (f.waitOn e).switch = true ∨
      0 < f.tim ∧ f.waitOn e = { f with tim := f.tim-1 } := by
  unfold waitOn phyTimeOut
  by_cases ht : f.tim = 0
  · rw [if_pos ht,if_pos hmdix]
    exact .inl rfl
  · rw [if_neg ht]
    exact .inr ⟨pos_of_ne_zero ht,rfl⟩

lemma act_waiting (hph : f.Waiting) (hmdix : e.autoMdix f.phyNum = true) (hdown : r.linkUp = false) (hstall : ¬ r.Stalls) :
    (f.act e r).switch = true ∨
      (f.act e r).Waiting ∧ (f.act e r).phyNum = f.phyNum ∧ (f.act e r).bound < f.bound := by
  have hdown' : has r.phyStatus miiPhyLinked = false := hdown
  rcases hph with hph | hph | hph
  · rw [act_of_nwayStart hph]
    unfold nwayStartState
    cases has r.phyControl miiRenegotiate with
    | true =>
      rcases waitOn_cases hmdix with h | ⟨hpos,h⟩
      · exact .inl h
      · right
        simp [h,hph,bound,Waiting]
        omega
    | false =>
      right
      simp [bound,hph,Waiting]
  · rw [act_of_nwayWait hph]
    unfold nwayWaitState
    by_cases hcomplete : has r.phyStatus miiNwayComplete
    · right
      cases hneg : negotiated r.nwayAdvertize r.nwayRemadvertise with
      | none => exact absurd ⟨hcomplete,hneg⟩ hstall
      | some m => simp [hcomplete,hdown',hph,bound,Waiting]
    rw [if_neg hcomplete]
    rcases waitOn_cases hmdix with h | ⟨hpos,h⟩
    · exact .inl h
    · right
      simp [h,hph,bound,Waiting]
      omega
  rw [act_of_linkWait hph]
  unfold linkWaitState
  rw [hdown']
  rcases waitOn_cases hmdix with h | ⟨hpos,h⟩
  · exact .inl h
  · right
    simp [h,hph,bound,Waiting]
    omega

lemma act_of_stalls (hph : f.phase = .nwayWait) (hstall : r.Stalls) :
    f.act e r = { f with speed := false, duplex := false, chng := true } := by
  rw [act_of_nwayWait hph]
  unfold nwayWaitState
  rw [if_pos hstall.1,hstall.2]

end Fields

def Phy.SameSetup (p q : Phy) : Prop :=
  p.phyMode = q.phyMode ∧ p.mdixMask = q.mdixMask

namespace Phy

variable (p : Phy) (r : Regs)

lemma sameSetup_mdixDelay : p.mdixDelay.SameSetup p := by
  unfold mdixDelay
  split_ifs <;> exact ⟨rfl,rfl⟩

lemma sameSetup_waitOn : p.waitOn.SameSetup p := by
  unfold waitOn phyTimeOut
  split_ifs <;> exact ⟨rfl,rfl⟩

lemma sameSetup_findingState : (p.findingState r).SameSetup p := by
  unfold findingState
  dsimp only
  split_ifs
  · exact ⟨rfl,rfl⟩
  · split <;> exact ⟨rfl,rfl⟩

lemma sameSetup_foundState : (p.foundState r).SameSetup p := by
  unfold foundState
  dsimp only
  split_ifs
  all_goals first | exact ⟨rfl,rfl⟩ | exact sameSetup_mdixDelay _

lemma sameSetup_act : (p.act r).SameSetup p := by
  unfold act
  dsimp only
  split_ifs
  · exact ⟨rfl,rfl⟩
  · exact sameSetup_findingState p r
  · exact sameSetup_foundState p r
  · unfold nwayStartState
    split_ifs
    · exact ⟨rfl,rfl⟩
    · exact sameSetup_waitOn p
  · unfold nwayWaitState
    dsimp only
    split_ifs <;> first | exact ⟨rfl,rfl⟩ | exact sameSetup_waitOn p
  · unfold linkWaitState
    split_ifs
    · exact ⟨rfl,rfl⟩
    · exact sameSetup_waitOn p
  · unfold linkedState
    dsimp only
    split_ifs <;> first | exact ⟨rfl,rfl⟩ | exact sameSetup_mdixDelay _
  · exact ⟨rfl,rfl⟩
  · exact ⟨rfl,rfl⟩

lemma sameSetup_run (regs : ℕ → Regs) (n : ℕ) : (p.run regs n).SameSetup p := by
  induction n with
  | zero => exact ⟨rfl,rfl⟩
  | succ n ih =>
    have hact := sameSetup_act (p.run regs n) (regs n)
    have htic : ((p.run regs n).tic (regs n)).2.SameSetup ((p.run regs n).act (regs n)) := by
      unfold tic
      dsimp only
      split_ifs <;> exact ⟨rfl,rfl⟩
    exact ⟨htic.1.trans (hact.1.trans ih.1),htic.2.trans (hact.2.trans ih.2)⟩

lemma autoMdix_run (regs : ℕ → Regs) (n : ℕ) :
    (p.run regs n).setup.autoMdix = p.setup.autoMdix := by
  obtain ⟨hmode,hmask⟩ := sameSetup_run p regs n
  unfold setup
  rw [hmode,hmask]

end Phy

variable {p : Phy} {f : Fields} {regs : ℕ → Regs}

lemma Phy.flipsAt_iff {n : ℕ} (h : Packs (p.run regs n).phyState f) :
    p.flipsAt regs n ↔ (f.act (p.run regs n).setup (regs n)).switch = true := by
  unfold Phy.flipsAt
  rw [(packs_tic h (regs n)).1,Fields.has_mdixflip_tic]

lemma Phy.flips_or_waiting (h : Packs p.phyState f) (hwait : f.Waiting)
    (hmdix : p.setup.autoMdix f.phyNum = true) (hdown : ∀ n, (regs n).linkUp = false)
    (hstall : ∀ n, ¬ (regs n).Stalls) (n : ℕ) :
    (∃ m < n, p.flipsAt regs m) ∨
      ∃ f', Packs (p.run regs n).phyState f' ∧ f'.Waiting ∧ f'.phyNum = f.phyNum ∧
        f'.bound+n ≤ f.bound := by
  induction n with
  | zero => exact .inr ⟨f,h,hwait,rfl,le_rfl⟩
  | succ n ih =>
    rcases ih with ⟨m,hm,hflip⟩ | ⟨f',h',hwait',hnum,hbound⟩
    · exact .inl ⟨m,hm.trans (Nat.lt_succ_self n),hflip⟩
    have hmdix' : (p.run regs n).setup.autoMdix f'.phyNum = true := by
      rw [Phy.autoMdix_run,hnum,hmdix]
    rcases Fields.act_waiting hwait' hmdix' (hdown n) (hstall n) with
      hflip | ⟨hnext,hnum',hless⟩
    · exact .inl ⟨n,Nat.lt_succ_self n,(Phy.flipsAt_iff h').mpr hflip⟩
    right
    refine ⟨_,packs_run_succ h',?_,?_,?_⟩
    · unfold Fields.Waiting
      rw [Fields.phase_tic]
      exact hnext
    · rw [Fields.phyNum_tic,hnum',hnum]
    · rw [Fields.bound_tic]
      omega

lemma Packs.bound_le {w : BitVec 32} (h : Packs w f) : f.bound ≤ 1826 := by
  have ht : f.tim < 1024 := by
    rw [h.tim_eq]
    exact (w.extractLsb' 12 10).isLt
  unfold Fields.bound
  split <;> omega

lemma Phy.flips_within (hwait : p.Waiting) (hmdix : p.mdixSupported = true)
    (hdown : ∀ n, (regs n).linkUp = false) (hstall : ∀ n, ¬ (regs n).Stalls) :
    ∃ n ≤ 1825, p.flipsAt regs n := by
  obtain ⟨f,h,hwait'⟩ : ∃ f, Packs p.phyState f ∧ f.Waiting := by
    rcases hwait with hw | hw | hw
    · obtain ⟨f,h⟩ := defined_iff.mp ⟨.nwayStart,hw⟩
      exact ⟨f,h,.inl (h.phase_eq hw)⟩
    · obtain ⟨f,h⟩ := defined_iff.mp ⟨.nwayWait,hw⟩
      exact ⟨f,h,.inr (.inl (h.phase_eq hw))⟩
    · obtain ⟨f,h⟩ := defined_iff.mp ⟨.linkWait,hw⟩
      exact ⟨f,h,.inr (.inr (h.phase_eq hw))⟩
  rw [mdixSupported_eq h] at hmdix
  rcases Phy.flips_or_waiting h hwait' hmdix hdown hstall f.bound with
    ⟨n,hn,hflip⟩ | ⟨f',-,hwait'',-,hbound⟩
  · exact ⟨n,by have := h.bound_le; omega,hflip⟩
  · have := hwait''.bound_pos
    omega

lemma Phy.not_flipsAt_of_stalls {r : Regs} (h : Packs p.phyState f) (hph : f.phase = .nwayWait)
    (hswitch : f.switch = false) (hstall : r.Stalls) (n : ℕ) :
    ¬ p.flipsAt (fun _ => r) n := by
  have hstay : ∃ f', Packs (p.run (fun _ => r) n).phyState f' ∧ f'.phase = .nwayWait ∧
      f'.switch = false := by
    induction n with
    | zero => exact ⟨f,h,hph,hswitch⟩
    | succ n ih =>
      obtain ⟨f',h',hph',hswitch'⟩ := ih
      refine ⟨_,packs_run_succ h',?_,?_⟩
      · rw [Fields.phase_tic,Fields.act_of_stalls hph' hstall]
        exact hph'
      · unfold Fields.tic
        rw [Fields.act_of_stalls hph' hstall]
        simp [hswitch']
  obtain ⟨f',h',hph',hswitch'⟩ := hstay
  rw [Phy.flipsAt_iff h',Fields.act_of_stalls hph' hstall]
  simp [hswitch']

def mdixWaiting : Phy :=
  ⟨nwayWait ||| phyNwdnTo ||| smodeAuto ||| smodeFd100 ||| smodeFd10,1,1,nwayAutomdix,1⟩

lemma packs_mdixWaiting :
    Packs mdixWaiting.phyState (Fields.ofWord .nwayWait mdixWaiting.phyState) :=
  packs_ofWord (by decide)

/-- The register contents that a PHY without a link can show decide: the request comes within a
bounded number of calls from every waiting state, unless some of them stall the machine. -/
theorem mdix_progress_iff (R : Set Regs) :
    (∃ B, ∀ p : Phy, p.Waiting → p.mdixSupported = true →
      ∀ regs : ℕ → Regs, (∀ n, regs n ∈ R ∧ (regs n).linkUp = false) → ∃ n ≤ B, p.flipsAt regs n) ↔
      ∀ r ∈ R, r.linkUp = false → ¬ r.Stalls := by
  constructor
  · rintro ⟨B,h⟩ r hr hdown hstall
    obtain ⟨n,-,hflip⟩ := h mdixWaiting (.inr (.inl (by decide))) (by decide) (fun _ => r)
      fun _ => ⟨hr,hdown⟩
    exact Phy.not_flipsAt_of_stalls packs_mdixWaiting rfl rfl hstall n hflip
  intro h
  refine ⟨1825,?_⟩
  intro p hwait hmdix regs hregs
  exact Phy.flips_within hwait hmdix (fun n => (hregs n).2) fun n =>
    h (regs n) (hregs n).1 (hregs n).2

def fullDuplexOnly : Regs := ⟨1,0,0,0x20,0x141,0⟩

theorem mdix_never_flips :
    mdixWaiting.Waiting ∧ mdixWaiting.mdixSupported = true ∧ fullDuplexOnly.linkUp = false ∧
      ¬ ∃ n, mdixWaiting.flipsAt (fun _ => fullDuplexOnly) n := by
  refine ⟨.inr (.inl (by decide)),by decide,by decide,?_⟩
  rintro ⟨n,hflip⟩
  exact Phy.not_flipsAt_of_stalls packs_mdixWaiting rfl rfl ⟨by decide,by decide⟩ n hflip

end DslG624t.Mii
