import DslG624t.Mii.Phy

/-!
# The PHY state machine on the fields of its word

The same machine on a record of the fields.
-/

namespace DslG624t.Mii

open BitVec Bool List

open Packed (has has_bit has_or)

inductive Phase
  | init
  | finding
  | found
  | nwayStart
  | nwayWait
  | linkWait
  | linked
  | loopback
  deriving DecidableEq

def Phase.code : Phase → BitVec 5
  | init => 1
  | finding => 2
  | found => 3
  | nwayStart => 4
  | nwayWait => 5
  | linkWait => 6
  | linked => 7
  | loopback => 8

structure Fields where
  phase : Phase
  phyNum : ℕ
  speed : Bool
  duplex : Bool
  tim : ℕ
  lpbk : Bool
  auto : Bool
  fd100 : Bool
  hd100 : Bool
  fd10 : Bool
  hd10 : Bool
  chng : Bool
  switch : Bool
  mdix : Bool
  deriving DecidableEq

/-- The fields of a word whose state is known. -/
def Fields.ofWord (ph : Phase) (w : BitVec 32) : Fields where
  phase := ph
  phyNum := (w.extractLsb' 0 5).toNat
  speed := w.getLsbD 10
  duplex := w.getLsbD 11
  tim := (w.extractLsb' 12 10).toNat
  lpbk := w.getLsbD 27
  auto := w.getLsbD 26
  fd100 := w.getLsbD 25
  hd100 := w.getLsbD 24
  fd10 := w.getLsbD 23
  hd10 := w.getLsbD 22
  chng := w.getLsbD 28
  switch := w.getLsbD 29
  mdix := w.getLsbD 30

def Packs (w : BitVec 32) (f : Fields) : Prop :=
  w.extractLsb' 5 5 = f.phase.code ∧ f = Fields.ofWord f.phase w

inductive Mode
  | fd100
  | hd100
  | fd10
  | hd10
  deriving DecidableEq

namespace Mode

def bit : Mode → BitVec 16
  | fd100 => miiNwayFd100
  | hd100 => miiNwayHd100
  | fd10 => miiNwayFd10
  | hd10 => miiNwayHd10

def fast : Mode → Bool
  | fd100 | hd100 => true
  | fd10 | hd10 => false

def full : Mode → Bool
  | fd100 | fd10 => true
  | hd100 | hd10 => false

def byPriority : List Mode := [fd100,hd100,fd10,hd10]

end Mode

def common (advertise partner : BitVec 16) : Option Mode :=
  Mode.byPriority.find? fun m => has advertise m.bit && has partner m.bit

def halfDuplex (advertise : BitVec 16) : Option Mode :=
  [Mode.hd100,Mode.hd10].find? fun m => has advertise m.bit

def negotiated (advertise partner : BitVec 16) : Option Mode :=
  (common advertise partner).or (halfDuplex advertise)

/-- What a call needs beside the fields and the registers: which PHYs are ours, for which of them
auto-MDIX is on, and the delay that the call draws if it needs one. -/
structure Setup where
  phyMask : BitVec 32
  autoMdix : ℕ → Bool
  delay : ℕ

def Phy.setup (p : Phy) : Setup where
  phyMask := p.phyMask
  autoMdix n := has p.phyMode nwayAutomdix && has (1#32 <<< n) p.mdixMask
  delay := (cpswHalCommonRandomRange 80 200 p.randomSeed).1 / 10+274

namespace Fields

variable (e : Setup) (r : Regs) (f : Fields)

def mdixDelay : Fields := if e.autoMdix f.phyNum then { f with tim := e.delay } else f

def phyTimeOut : Fields :=
  if e.autoMdix f.phyNum then { f with switch := true, mdix := !f.mdix, phase := .found } else f

def waitOn : Fields := if f.tim = 0 then f.phyTimeOut e else { f with tim := f.tim-1 }

def initState : Fields :=
  { f with tim := 2, phase := .finding, speed := false, duplex := false, chng := true }

def findingState : Fields :=
  if f.tim = 0 then
    match (range 32).find? fun i => has (1#32 <<< i) (r.mdioAlive &&& e.phyMask) with
    | some n => { f with phyNum := n, phase := .found, chng := true }
    | none => { f with tim := 200 }
  else { f with tim := f.tim-1 }

def foundState : Fields :=
  if !(f.lpbk || f.auto || f.fd100 || f.hd100 || f.fd10 || f.hd10) then f
  else if f.lpbk then { f with phase := .loopback, chng := true }
  else if has r.phyStatus miiNwayCapable && f.auto then
    mdixDelay e { f with tim := 500, phase := .nwayStart, chng := true }
  else
    mdixDelay e { f with
      auto := false
      speed := f.fd100 || f.hd100
      duplex := f.fd100 || !f.hd100 && f.fd10
      tim := 500
      phase := .linkWait
      chng := true }

def nwayStartState : Fields :=
  if !has r.phyControl miiRenegotiate then
    { f with phase := .nwayWait, tim := 800, chng := true }
  else f.waitOn e

def nwayWaitState : Fields :=
  if has r.phyStatus miiNwayComplete then
    match negotiated r.nwayAdvertize r.nwayRemadvertise with
    | some m =>
      { f with
        phase := if has r.phyStatus miiPhyLinked then .linked else .linkWait
        speed := m.fast
        duplex := m.full
        chng := true }
    | none => { f with speed := false, duplex := false, chng := true }
  else f.waitOn e

def linkWaitState : Fields :=
  if has r.phyStatus miiPhyLinked then { f with phase := .linked, chng := true }
  else f.waitOn e

def linkedState : Fields :=
  if has r.mdioLink (1#32 <<< f.phyNum) then f
  else if f.auto then mdixDelay e { f with phase := .nwayWait, tim := 800, chng := true }
  else mdixDelay e { f with phase := .linkWait, tim := 500, chng := true }

def act : Fields :=
  match f.phase with
  | .init => f.initState
  | .finding => f.findingState e r
  | .found => f.foundState e r
  | .nwayStart => f.nwayStartState e r
  | .nwayWait => f.nwayWaitState e r
  | .linkWait => f.linkWaitState e r
  | .linked => f.linkedState e r
  | .loopback => f

def tic : BitVec 32 × Fields :=
  let f := f.act e r
  if f.switch then (miimdioMdixflip ||| if f.mdix then 1 else 0,{ f with switch := false })
  else if f.chng then (1,{ f with chng := false })
  else (0,f)

end Fields

attribute [simp] BitVec.extractLsb'_and BitVec.extractLsb'_or

@[simp] lemma and_31 (x : BitVec 5) : x &&& 31#5 = x := and_allOnes

@[simp] lemma and_1023 (x : BitVec 10) : x &&& 1023#10 = x := and_allOnes

/-- The state in its place. -/
def Phase.word : Phase → BitVec 32
  | init => Mii.init
  | finding => Mii.finding
  | found => Mii.found
  | nwayStart => Mii.nwayStart
  | nwayWait => Mii.nwayWait
  | linkWait => Mii.linkWait
  | linked => Mii.linked
  | loopback => Mii.loopback

variable {w : BitVec 32} {f : Fields}

namespace Packs

section
variable (h : Packs w f)
include h

variable (ph : Phase) (v : BitVec 10)

lemma setPhase : Packs (w &&& ~~~phyStateMask ||| ph.word) { f with phase := ph } := by
  obtain ⟨-,h⟩ := h
  rw [h]
  constructor
  · cases ph <;> simp [Phase.word,Phase.code]
  · cases ph <;> simp [Phase.word,Fields.ofWord]

lemma map {w' : BitVec 32} (g : Fields → Fields)
    (hcode : w'.extractLsb' 5 5 = w.extractLsb' 5 5)
    (hg : ∀ ph, g (Fields.ofWord ph w) = Fields.ofWord ph w') : Packs w' (g f) := by
  obtain ⟨hph,h⟩ := h
  rw [h,hg]
  exact ⟨hcode.trans hph,rfl⟩

lemma setChng : Packs (w ||| phyChange) { f with chng := true } :=
  h.map (fun f => { f with chng := true }) (by simp) (by simp [Fields.ofWord])

lemma clearChng : Packs (w &&& ~~~phyChange) { f with chng := false } :=
  h.map (fun f => { f with chng := false }) (by simp) (by simp [Fields.ofWord])

lemma clearSpeed : Packs (w &&& ~~~phySpeedMask) { f with speed := false } :=
  h.map (fun f => { f with speed := false }) (by simp) (by simp [Fields.ofWord])

lemma clearDuplex : Packs (w &&& ~~~phyDuplexMask) { f with duplex := false } :=
  h.map (fun f => { f with duplex := false }) (by simp) (by simp [Fields.ofWord])

lemma setSpeed : Packs (w &&& ~~~phySpeedMask ||| 1#32 <<< 10) { f with speed := true } :=
  h.map (fun f => { f with speed := true }) (by simp) (by simp [Fields.ofWord])

lemma setDuplex : Packs (w &&& ~~~phyDuplexMask ||| 1#32 <<< 11) { f with duplex := true } :=
  h.map (fun f => { f with duplex := true }) (by simp) (by simp [Fields.ofWord])

lemma setSpeedIf (hclear : f.speed = false) (fast : Bool) :
    Packs (if fast then w &&& ~~~phySpeedMask ||| 1#32 <<< 10 else w) { f with speed := fast } := by
  cases fast with
  | true => exact h.setSpeed
  | false =>
    have hsame : { f with speed := false } = f := by
      rw [← hclear]
    rw [hsame]
    exact h

lemma setDuplexIf (hclear : f.duplex = false) (full : Bool) :
    Packs (if full then w &&& ~~~phyDuplexMask ||| 1#32 <<< 11 else w)
      { f with duplex := full } := by
  cases full with
  | true => exact h.setDuplex
  | false =>
    have hsame : { f with duplex := false } = f := by
      rw [← hclear]
    rw [hsame]
    exact h

lemma setTim : Packs (w &&& ~~~phyTimMask ||| v.setWidth 32 <<< 12) { f with tim := v.toNat } := by
  have hput : w &&& ~~~phyTimMask ||| v.setWidth 32 <<< 12 = Packed.put 12 v w := rfl
  rw [hput]
  refine h.map (fun f => { f with tim := v.toNat }) ?_ fun ph => ?_
  · exact Packed.get_put_of_disjoint _ _ (by omega)
  · simp (disch := omega) only [Fields.ofWord,Packed.get_put,Packed.get_put_of_disjoint,
      Packed.getLsbD_put_of_outside]

lemma setPhyNum (v : BitVec 5) :
    Packs (w &&& ~~~phyDevMask ||| v.setWidth 32 <<< 0) { f with phyNum := v.toNat } := by
  have hput : w &&& ~~~phyDevMask ||| v.setWidth 32 <<< 0 = Packed.put 0 v w := rfl
  rw [hput]
  refine h.map (fun f => { f with phyNum := v.toNat }) ?_ fun ph => ?_
  · exact Packed.get_put_of_disjoint _ _ (by omega)
  · simp (disch := omega) only [Fields.ofWord,Packed.get_put,Packed.get_put_of_disjoint,
      Packed.getLsbD_put_of_outside]

lemma restart :
    Packs (w &&& ~~~(phyStateMask ||| phyTimMask) |||
      (phyChange ||| ph.word ||| v.setWidth 32 <<< 12))
      { f with phase := ph, tim := v.toNat, chng := true } := by
  have hchain : w &&& ~~~(phyStateMask ||| phyTimMask) |||
      (phyChange ||| ph.word ||| v.setWidth 32 <<< 12) =
      (w &&& ~~~phyStateMask ||| ph.word) &&& ~~~phyTimMask ||| v.setWidth 32 <<< 12 |||
        phyChange := by
    have hph : ph.word &&& ~~~phyTimMask = ph.word := by cases ph <;> rfl
    rw [BitVec.not_or,← BitVec.and_assoc,BitVec.and_or_distrib_right,hph]
    ac_rfl
  rw [hchain]
  exact ((h.setPhase ph).setTim v).setChng

lemma clearSwitch : Packs (w &&& ~~~phyMdixSwitch) { f with switch := false } :=
  h.map (fun f => { f with switch := false }) (by simp) (by simp [Fields.ofWord])

lemma setSwitch : Packs (w ||| phyMdixSwitch) { f with switch := true } :=
  h.map (fun f => { f with switch := true }) (by simp) (by simp [Fields.ofWord])

lemma clearMdix : Packs (w &&& ~~~phyMdix) { f with mdix := false } :=
  h.map (fun f => { f with mdix := false }) (by simp) (by simp [Fields.ofWord])

lemma setMdix : Packs (w ||| phyMdix) { f with mdix := true } :=
  h.map (fun f => { f with mdix := true }) (by simp) (by simp [Fields.ofWord])

lemma restart_tim :
    Packs (w &&& ~~~(phyStateMask ||| phyTimMask) |||
      (phyChange ||| v.setWidth 32 <<< 12 ||| ph.word))
      { f with phase := ph, tim := v.toNat, chng := true } := by
  have hcomm : phyChange ||| v.setWidth 32 <<< 12 ||| ph.word =
      phyChange ||| ph.word ||| v.setWidth 32 <<< 12 := by ac_rfl
  rw [hcomm]
  exact h.restart ph v

lemma force (fast full : Bool) :
    Packs
      (let s := w &&& ~~~(phyTimMask ||| phyStateMask)
        let s := s &&& ~~~smodeAuto
        let s := s &&& ~~~phySpeedMask
        let s := if fast then s ||| 1#32 <<< 10 else s
        let s := s &&& ~~~phyDuplexMask
        let s := if full then s ||| 1#32 <<< 11 else s
        s ||| (phyChange ||| phyLinkTo ||| linkWait))
      { f with
        auto := false
        speed := fast
        duplex := full
        tim := 500
        phase := .linkWait
        chng := true } := by
  obtain ⟨-,h⟩ := h
  rw [h]
  cases fast <;> cases full
  all_goals
    constructor
    · simp [Phase.code]
    · simp [Fields.ofWord]

lemma and_phyStateMask : w &&& phyStateMask = f.phase.word := by
  have hmask : w &&& phyStateMask = (w.extractLsb' 5 5).setWidth 32 <<< 5 :=
    Packed.and_mask 5 5 w
  rw [hmask,h.1]
  cases f.phase <;> rfl

lemma tim_eq : f.tim = (w.extractLsb' 12 10).toNat := by
  rw [h.2]
  rfl

lemma phyNum_eq : f.phyNum = (w &&& phyDevMask).toNat := by
  have hmask : w &&& phyDevMask = (w.extractLsb' 0 5).setWidth 32 <<< 0 := Packed.and_mask 0 5 w
  rw [hmask,Packed.toNat_shiftLeft (by omega),pow_zero,mul_one,h.2]
  rfl

lemma has_phyTimMask : has w phyTimMask = (f.tim != 0) := by
  rw [h.tim_eq]
  exact Packed.has_mask (o := 12) (k := 10) (by omega) w

lemma tickDown (ht : f.tim ≠ 0) : Packs (Phy.tickDown w) { f with tim := f.tim-1 } := by
  have hne : w.extractLsb' 12 10 ≠ 0#10 := by
    intro h0
    rw [h.tim_eq,h0] at ht
    exact ht rfl
  have hword : Phy.tickDown w =
      w &&& ~~~phyTimMask ||| (w.extractLsb' 12 10-1#10).setWidth 32 <<< 12 := by
    rw [← Packed.shiftLeft_sub_one (by omega) hne,← Packed.and_mask]
    rfl
  have htim : f.tim-1 = (w.extractLsb' 12 10-1#10).toNat := by
    rw [h.tim_eq]
    bv_omega
  rw [hword,htim]
  exact h.setTim _

lemma has_phyMdix : has w phyMdix = f.mdix := by
  rw [h.2]
  exact has_bit (i := 30) (by omega) w

lemma has_phyMdixSwitch : has w phyMdixSwitch = f.switch := by
  rw [h.2]
  exact has_bit (i := 29) (by omega) w

lemma has_phySpeedMask : has w phySpeedMask = f.speed := by
  rw [h.2]
  exact has_bit (i := 10) (by omega) w

lemma has_phyDuplexMask : has w phyDuplexMask = f.duplex := by
  rw [h.2]
  exact has_bit (i := 11) (by omega) w

lemma has_phyChange : has w phyChange = f.chng := by
  rw [h.2]
  exact has_bit (i := 28) (by omega) w

lemma has_smodeLpbk : has w smodeLpbk = f.lpbk := by
  rw [h.2]
  exact has_bit (i := 27) (by omega) w

lemma has_smodeAuto : has w smodeAuto = f.auto := by
  rw [h.2]
  exact has_bit (i := 26) (by omega) w

lemma has_smodeFd100 : has w smodeFd100 = f.fd100 := by
  rw [h.2]
  exact has_bit (i := 25) (by omega) w

lemma has_smodeHd100 : has w smodeHd100 = f.hd100 := by
  rw [h.2]
  exact has_bit (i := 24) (by omega) w

lemma has_smodeFd10 : has w smodeFd10 = f.fd10 := by
  rw [h.2]
  exact has_bit (i := 23) (by omega) w

lemma has_smodeHd10 : has w smodeHd10 = f.hd10 := by
  rw [h.2]
  exact has_bit (i := 22) (by omega) w

lemma has_phySmodeMask :
    has w phySmodeMask = (f.lpbk || f.auto || f.fd100 || f.hd100 || f.fd10 || f.hd10) := by
  have hmask : phySmodeMask =
      smodeLpbk ||| smodeAuto ||| smodeFd100 ||| smodeHd100 ||| smodeFd10 ||| smodeHd10 := rfl
  rw [hmask,has_or,has_or,has_or,has_or,has_or,h.has_smodeLpbk,h.has_smodeAuto,
    h.has_smodeFd100,h.has_smodeHd100,h.has_smodeFd10,h.has_smodeHd10]

end

end Packs

variable {p : Phy}

lemma mdixSupported_eq (h : Packs p.phyState f) : p.mdixSupported = p.setup.autoMdix f.phyNum := by
  rw [h.phyNum_eq]
  rfl

lemma delay_lt (p : Phy) : p.setup.delay < 1024 := by
  have hlt : (cpswHalCommonRandom p.randomSeed).1 % 121 < 121 := Nat.mod_lt _ (by omega)
  show ((cpswHalCommonRandom p.randomSeed).1 % 121+80) / 10+274 < 1024
  omega

section
variable (h : Packs p.phyState f)
include h

lemma packs_mdixDelay : Packs p.mdixDelay.phyState (f.mdixDelay p.setup) := by
  unfold Phy.mdixDelay Fields.mdixDelay
  rw [mdixSupported_eq h]
  by_cases hmdix : p.setup.autoMdix f.phyNum
  · have hlt := delay_lt p
    have hval : (BitVec.ofNat 10 p.setup.delay).toNat = p.setup.delay := by
      rw [toNat_ofNat,Nat.mod_eq_of_lt hlt]
    have hword : (BitVec.ofNat 10 p.setup.delay).setWidth 32 = BitVec.ofNat 32 p.setup.delay := by
      apply eq_of_toNat_eq
      rw [toNat_setWidth,hval,toNat_ofNat]
    have hset := h.setTim (BitVec.ofNat 10 p.setup.delay)
    rw [hval,hword] at hset
    simp only [hmdix,Bool.not_true,Bool.false_eq_true,if_false,if_true]
    exact hset
  · simp only [hmdix,Bool.not_false,if_true,Bool.false_eq_true,if_false]
    exact h

lemma packs_phyTimeOut : Packs p.phyTimeOut.phyState (f.phyTimeOut p.setup) := by
  unfold Phy.phyTimeOut Fields.phyTimeOut
  rw [mdixSupported_eq h]
  by_cases hmdix : p.setup.autoMdix f.phyNum
  · have hswitch := h.setSwitch
    simp only [hmdix,Bool.not_true,Bool.false_eq_true,if_false,if_true,hswitch.has_phyMdix]
    cases hm : f.mdix with
    | true => exact hswitch.clearMdix.setPhase .found
    | false => exact hswitch.setMdix.setPhase .found
  · simp only [hmdix,Bool.not_false,if_true,Bool.false_eq_true,if_false]
    exact h

lemma packs_waitOn : Packs p.waitOn.phyState (f.waitOn p.setup) := by
  unfold Phy.waitOn Fields.waitOn
  rw [h.has_phyTimMask]
  by_cases ht : f.tim = 0
  · rw [if_pos ht,if_neg (by simpa using ht)]
    exact packs_phyTimeOut h
  · rw [if_neg ht,if_pos (by simpa using ht)]
    exact h.tickDown ht

lemma packs_initState : Packs p.initState.phyState f.initState :=
  ((((h.setTim 2).setPhase .finding).clearSpeed).clearDuplex).setChng

lemma packs_findingState (r : Regs) :
    Packs (p.findingState r).phyState (f.findingState p.setup r) := by
  unfold Phy.findingState Fields.findingState
  rw [h.has_phyTimMask]
  by_cases ht : f.tim = 0
  · rw [if_pos ht,if_neg (by simpa using ht)]
    have hmask : p.setup.phyMask = p.phyMask := rfl
    dsimp only
    rw [hmask]
    cases hfind : (range 32).find? fun i => has (1#32 <<< i) (r.mdioAlive &&& p.phyMask) with
    | some n =>
      have hn : n < 32 := mem_range.mp (mem_of_find?_eq_some hfind)
      have hval : (BitVec.ofNat 5 n).toNat = n := by
        rw [toNat_ofNat,Nat.mod_eq_of_lt hn]
      have hword : (BitVec.ofNat 5 n).setWidth 32 = BitVec.ofNat 32 n &&& phyDevMask := by
        apply eq_of_toNat_eq
        rw [toNat_setWidth,hval,toNat_and,toNat_ofNat]
        show n % 2 ^ 32 = n % 2 ^ 32 &&& (2 ^ 5-1)
        rw [Nat.and_two_pow_sub_one_eq_mod]
        omega
      have hset := h.setPhyNum (BitVec.ofNat 5 n)
      rw [hval,hword] at hset
      exact (hset.setPhase .found).setChng
    | none =>
      have hzero : p.phyState &&& ~~~phyTimMask = p.phyState := by
        apply Packed.and_not_of_has_eq_false
        rw [h.has_phyTimMask,ht]
        rfl
      have hset := h.setTim 200
      rw [hzero] at hset
      exact hset
  · rw [if_neg ht,if_pos (by simpa using ht)]
    exact h.tickDown ht

lemma packs_nwayStartState (r : Regs) :
    Packs (p.nwayStartState r).phyState (f.nwayStartState p.setup r) := by
  unfold Phy.nwayStartState Fields.nwayStartState
  cases has r.phyControl miiRenegotiate with
  | true => exact packs_waitOn h
  | false => exact h.restart .nwayWait 800

lemma packs_linkWaitState (r : Regs) :
    Packs (p.linkWaitState r).phyState (f.linkWaitState p.setup r) := by
  unfold Phy.linkWaitState Fields.linkWaitState
  cases has r.phyStatus miiPhyLinked with
  | true => exact (h.setPhase .linked).setChng
  | false => exact packs_waitOn h

lemma packs_linkedState (r : Regs) :
    Packs (p.linkedState r).phyState (f.linkedState p.setup r) := by
  unfold Phy.linkedState Fields.linkedState
  have hnum : p.phyNum = f.phyNum := h.phyNum_eq.symm
  rw [hnum]
  cases has r.mdioLink (1#32 <<< f.phyNum) with
  | true => exact h
  | false =>
    have hauto : has (p.phyState &&& ~~~(phyStateMask ||| phyTimMask)) smodeAuto = f.auto := by
      rw [Packed.has_and_not (by decide),h.has_smodeAuto]
    simp only [false_eq_true,if_false,hauto]
    by_cases ha : f.auto
    · rw [if_pos ha,if_pos ha]
      exact packs_mdixDelay (p := { p with phyState := _ }) (h.restart .nwayWait 800)
    · rw [if_neg ha,if_neg ha]
      exact packs_mdixDelay (p := { p with phyState := _ }) (h.restart_tim .linkWait 500)

end

lemma nwayAdvertise_eq (h : Packs w f) :
    Phy.nwayAdvertise w =
      (miiNwaySel ||| (if f.fd100 then miiNwayFd100 else 0) |||
        (if f.hd100 then miiNwayHd100 else 0) ||| (if f.fd10 then miiNwayFd10 else 0) |||
        (if f.hd10 then miiNwayHd10 else 0)) := by
  unfold Phy.nwayAdvertise
  rw [h.has_smodeFd100,h.has_smodeHd100,h.has_smodeFd10,h.has_smodeHd10]
  cases f.fd100 <;> cases f.hd100 <;> cases f.fd10 <;> cases f.hd10 <;> rfl

lemma requested_nwayAdvertise (h : Packs w f) :
    has (Phy.requested (Phy.nwayAdvertise w)) miiPhy100 = (f.fd100 || f.hd100) ∧
      has (Phy.requested (Phy.nwayAdvertise w)) miiPhyFd = (f.fd100 || !f.hd100 && f.fd10) := by
  rw [nwayAdvertise_eq h]
  cases f.fd100 <;> cases f.hd100 <;> cases f.fd10 <;> cases f.hd10 <;> decide

lemma packs_foundState (h : Packs p.phyState f) (r : Regs) :
    Packs (p.foundState r).phyState (f.foundState p.setup r) := by
  unfold Phy.foundState Fields.foundState
  dsimp only
  rw [h.has_phySmodeMask,h.has_smodeLpbk]
  by_cases hmode : f.lpbk || f.auto || f.fd100 || f.hd100 || f.fd10 || f.hd10
  · have hsome : ¬ (!(f.lpbk || f.auto || f.fd100 || f.hd100 || f.fd10 || f.hd10)) = true := by
      rw [hmode]
      decide
    rw [if_neg hsome,if_neg hsome]
    by_cases hlpbk : f.lpbk
    · rw [if_pos hlpbk,if_pos hlpbk]
      exact (h.setPhase .loopback).setChng
    rw [if_neg hlpbk,if_neg hlpbk]
    have hauto : has (p.phyState &&& ~~~(phyTimMask ||| phyStateMask)) smodeAuto = f.auto := by
      rw [Packed.has_and_not (by decide),h.has_smodeAuto]
    obtain ⟨hfast,hfull⟩ := requested_nwayAdvertise h
    rw [hauto,hfast,hfull]
    by_cases hnway : has r.phyStatus miiNwayCapable && f.auto
    · rw [if_pos hnway,if_pos hnway]
      have hrestart := h.restart_tim .nwayStart 500
      rw [or_comm phyStateMask] at hrestart
      exact packs_mdixDelay (p := { p with phyState := _ }) hrestart
    · rw [if_neg hnway,if_neg hnway]
      exact packs_mdixDelay (p := { p with phyState := _ }) (h.force _ _)
  have hnone : (!(f.lpbk || f.auto || f.fd100 || f.hd100 || f.fd10 || f.hd10)) = true := by
    rw [eq_false_of_not_eq_true hmode]
    decide
  rw [if_pos hnone,if_pos hnone]
  exact h

def modeBits (a b c d : Bool) : BitVec 16 :=
  (if a then miiNwayFd100 else 0) ||| (if b then miiNwayHd100 else 0) |||
    (if c then miiNwayFd10 else 0) ||| (if d then miiNwayHd10 else 0)

lemma topBit_modeBits (a b c d : Bool) :
    Phy.topBit (modeBits a b c d) 16 0x8000 =
      if a then miiNwayFd100 else if b then miiNwayHd100 else if c then miiNwayFd10
      else if d then miiNwayHd10 else 0 := by
  cases a <;> cases b <;> cases c <;> cases d <;> decide

lemma modeBits_eq_zero_iff (a b c d : Bool) :
    modeBits a b c d = 0 ↔ a = false ∧ b = false ∧ c = false ∧ d = false := by
  cases a <;> cases b <;> cases c <;> cases d <;> decide

lemma has_mode (x : BitVec 16) :
    has x miiNwayFd100 = x.getLsbD 8 ∧ has x miiNwayHd100 = x.getLsbD 7 ∧
      has x miiNwayFd10 = x.getLsbD 6 ∧ has x miiNwayHd10 = x.getLsbD 5 :=
  ⟨has_bit (i := 8) (by omega) x,has_bit (i := 7) (by omega) x,has_bit (i := 6) (by omega) x,
    has_bit (i := 5) (by omega) x⟩

lemma and_modes (x : BitVec 16) :
    x &&& (miiNwayFd100 ||| miiNwayHd100 ||| miiNwayFd10 ||| miiNwayHd10) =
      modeBits (x.getLsbD 8) (x.getLsbD 7) (x.getLsbD 6) (x.getLsbD 5) := by
  rw [BitVec.and_or_distrib_left,BitVec.and_or_distrib_left,BitVec.and_or_distrib_left]
  exact congrArg₂ _ (congrArg₂ _ (congrArg₂ _ (Packed.and_bit (i := 8) x)
    (Packed.and_bit (i := 7) x)) (Packed.and_bit (i := 6) x)) (Packed.and_bit (i := 5) x)

lemma and_halfDuplex (x : BitVec 16) :
    (miiNwayHd100 ||| miiNwayHd10) &&& x = modeBits false (x.getLsbD 7) false (x.getLsbD 5) := by
  have h7 : x &&& miiNwayHd100 = if x.getLsbD 7 then miiNwayHd100 else 0 := Packed.and_bit x
  have h5 : x &&& miiNwayHd10 = if x.getLsbD 5 then miiNwayHd10 else 0 := Packed.and_bit x
  rw [BitVec.and_comm,BitVec.and_or_distrib_left,h7,h5]
  cases x.getLsbD 7 <;> cases x.getLsbD 5 <;> rfl

lemma negMode_eq (advertise partner : BitVec 16) :
    Phy.negMode advertise partner =
      match negotiated advertise partner with
      | some m => m.bit
      | none => 0 := by
  unfold Phy.negMode negotiated common halfDuplex Mode.byPriority
  obtain ⟨h8,h7,h6,h5⟩ := has_mode advertise
  obtain ⟨k8,k7,k6,k5⟩ := has_mode partner
  simp only [and_modes,and_halfDuplex,getLsbD_and,find?_cons,find?_nil,
    Mode.bit,h8,h7,h6,h5,k8,k7,k6,k5]
  -- without a mode in common the offer alone decides
  generalize (advertise.getLsbD 8 && partner.getLsbD 8) = c8
  generalize (advertise.getLsbD 7 && partner.getLsbD 7) = c7
  generalize (advertise.getLsbD 6 && partner.getLsbD 6) = c6
  generalize (advertise.getLsbD 5 && partner.getLsbD 5) = c5
  by_cases hnone : c8 = false ∧ c7 = false ∧ c6 = false ∧ c5 = false
  · obtain ⟨rfl,rfl,rfl,rfl⟩ := hnone
    rw [if_pos (by rfl),topBit_modeBits]
    cases advertise.getLsbD 7 <;> cases advertise.getLsbD 5 <;> rfl
  · rw [if_neg (mt (modeBits_eq_zero_iff c8 c7 c6 c5).mp hnone),topBit_modeBits]
    cases c8 <;> cases c7 <;> cases c6 <;> cases c5 <;> first | rfl | simp at hnone

lemma has_bit_mode (m : Mode) :
    m.bit ≠ 0 ∧ has m.bit (miiNwayFd100 ||| miiNwayHd100) = m.fast ∧
      has m.bit (miiNwayFd100 ||| miiNwayFd10) = m.full := by
  cases m <;> decide

lemma packs_nwayWaitState (h : Packs p.phyState f) (r : Regs) :
    Packs (p.nwayWaitState r).phyState (f.nwayWaitState p.setup r) := by
  unfold Phy.nwayWaitState Fields.nwayWaitState
  by_cases hcomplete : has r.phyStatus miiNwayComplete
  · rw [if_pos hcomplete,if_pos hcomplete,negMode_eq]
    have hclear := (h.setChng.clearSpeed).clearDuplex
    cases negotiated r.nwayAdvertize r.nwayRemadvertise with
    | none => exact hclear
    | some m =>
      obtain ⟨hne,hfast,hfull⟩ := has_bit_mode m
      have hphase : Packs (if has r.phyStatus miiPhyLinked
          then ((p.phyState ||| phyChange) &&& ~~~phySpeedMask &&& ~~~phyDuplexMask) &&&
            ~~~phyStateMask ||| linked
          else ((p.phyState ||| phyChange) &&& ~~~phySpeedMask &&& ~~~phyDuplexMask) &&&
            ~~~phyStateMask ||| linkWait)
          { f with
            phase := if has r.phyStatus miiPhyLinked then .linked else .linkWait
            speed := false
            duplex := false
            chng := true } := by
        cases has r.phyStatus miiPhyLinked with
        | true => exact hclear.setPhase .linked
        | false => exact hclear.setPhase .linkWait
      dsimp only
      rw [if_pos hne,hfast,hfull]
      exact (hphase.setSpeedIf rfl m.fast).setDuplexIf rfl m.full
  · rw [if_neg hcomplete,if_neg hcomplete]
    exact packs_waitOn h

lemma packs_act (h : Packs p.phyState f) (r : Regs) :
    Packs (p.act r).phyState (f.act p.setup r) := by
  unfold Phy.act Fields.act
  rw [h.and_phyStateMask]
  cases hph : f.phase with
  | init => exact packs_initState h
  | finding => exact packs_findingState h r
  | found => exact packs_foundState h r
  | nwayStart => exact packs_nwayStartState h r
  | nwayWait => exact packs_nwayWaitState h r
  | linkWait => exact packs_linkWaitState h r
  | linked => exact packs_linkedState h r
  | loopback => exact h

lemma packs_tic (h : Packs p.phyState f) (r : Regs) :
    (p.tic r).1 = (f.tic p.setup r).1 ∧ Packs (p.tic r).2.phyState (f.tic p.setup r).2 := by
  have hact := packs_act h r
  unfold Phy.tic Fields.tic
  dsimp only
  rw [hact.has_phyMdixSwitch,hact.has_phyChange]
  by_cases hswitch : (f.act p.setup r).switch
  · rw [if_pos hswitch,if_pos hswitch]
    have hclear := hact.clearSwitch
    refine ⟨?_,hclear⟩
    dsimp only
    rw [hclear.has_phyMdix]
  rw [if_neg hswitch,if_neg hswitch]
  by_cases hchng : (f.act p.setup r).chng
  · rw [if_pos hchng,if_pos hchng]
    exact ⟨rfl,hact.clearChng⟩
  · rw [if_neg hchng,if_neg hchng]
    exact ⟨rfl,hact⟩

lemma packs_run_succ {regs : ℕ → Regs} {n : ℕ} (h : Packs (p.run regs n).phyState f) :
    Packs (p.run regs (n+1)).phyState (f.tic (p.run regs n).setup (regs n)).2 :=
  (packs_tic h (regs n)).2

lemma exists_packs_run (h : Packs p.phyState f) (regs : ℕ → Regs) (n : ℕ) :
    ∃ f', Packs (p.run regs n).phyState f' := by
  induction n with
  | zero => exact ⟨f,h⟩
  | succ n ih =>
    obtain ⟨f',h'⟩ := ih
    exact ⟨_,packs_run_succ h'⟩

lemma packs_ofWord {ph : Phase} (h : w.extractLsb' 5 5 = ph.code) :
    Packs w (Fields.ofWord ph w) := ⟨h,rfl⟩

end DslG624t.Mii
