import Mathlib

/-!
# Programming the clocks

`sangam_clk_cntl.c`.
-/

namespace DslG624t.Sys

open Option

inductive Fault
  | divByZero
  | unassigned
  deriving DecidableEq

def clkMhz (x : ℕ) : ℕ := x*1000000

def minPllInpFreq : ℕ := clkMhz 8

def maxPllInpFreq : ℕ := clkMhz 100

def pllMulMaxfactor : ℕ := 15

def maxDivValue : ℕ := 32

def w32 (x : ℕ) : ℕ := x % 0x100000000

def signed (x : ℕ) : ℤ := if x < 0x80000000 then x else x-0x100000000

def quotient (x y : ℕ) : ℕ := w32 (x+y / 2) / y

def findGcd (min max : ℕ) : Option ℕ :=
  if min = 0 then none
  else if max % min = 0 then some min
  else findGcd (max % min) min
termination_by min
decreasing_by exact Nat.mod_lt _ (Nat.pos_of_ne_zero ‹_›)

/-- The loop over the pre-dividers from `max` down to `min`. -/
def predivFrom (divider min : ℕ) : ℕ → ℕ
  | 0 => min
  | prediv+1 =>
    if prediv+1 < min then min
    else if divider % (prediv+1) = 0 then prediv+1
    else predivFrom divider min prediv

def computePrediv (divider min max : ℕ) : ℕ :=
  if min ≤ divider ∧ divider ≤ max then divider else predivFrom divider min max

def closeness (num1 denom1 tempNum tempDenom : ℕ) : ℤ :=
  let diff := w32 (num1*tempDenom+0x100000000-w32 (tempNum*denom1))
  let abs := if 0 < signed diff then diff else w32 (0x100000000-diff)
  signed (w32 (abs*quotient num1 tempNum))

/-- The loop of `find_approx` over the numerators, from the greatest down; `none` where it divides
by a denominator that is 0. -/
def approxFrom (num1 denom1 baseFreq presentMin presentMax : ℕ) :
    ℕ → ℤ → ℕ × ℕ → Option (ℕ × ℕ)
  | 0, _, best => some best
  | n+1, prevClosest, best =>
    let tempDenom := quotient (w32 ((n+1)*denom1)) num1
    if tempDenom = 0 then none
    else
      let outputFreq := w32 ((n+1)*baseFreq) / tempDenom
      let closest := closeness num1 denom1 (n+1) tempDenom
      if closest < prevClosest ∧ presentMin < outputFreq ∧ outputFreq < presentMax then
        approxFrom num1 denom1 baseFreq presentMin presentMax n closest (n+1,tempDenom)
      else approxFrom num1 denom1 baseFreq presentMin presentMax n prevClosest best

def findApprox (num denom baseFreq presentMin presentMax : ℕ) : Option (ℕ × ℕ) :=
  (approxFrom num denom baseFreq presentMin presentMax 15 0x7fffffff (num,denom)).bind
    fun x => (findGcd x.1 x.2).map fun gcd => (x.1 / gcd,x.2 / gcd)

/-- The multiplier and the divider. -/
def getVal (outputFreq baseFreq presentMin presentMax : ℕ) : Except Fault (ℕ × ℕ) :=
  match findGcd (min baseFreq outputFreq) (max baseFreq outputFreq) with
  | none => .error .divByZero
  | some gcd =>
    if gcd = 0 then .error .unassigned
    else
      let tempMul := outputFreq / gcd
      let tempDiv := baseFreq / gcd
      if pllMulMaxfactor < tempMul then
        if tempDiv = 0 then .error .divByZero
        else if pllMulMaxfactor < tempMul / tempDiv then .error .unassigned
        else
          match findApprox tempMul tempDiv baseFreq presentMin presentMax with
          | none => .error .divByZero
          | some x => .ok x
      else .ok (tempMul,tempDiv)

inductive ClkId
  | sys
  | usb
  | mips
  | vbus
  deriving DecidableEq

def ClkId.range : ClkId → Option (ℕ × ℕ)
  | .vbus => some (clkMhz 1,clkMhz 150 / 2)
  | .mips => some (clkMhz 1,clkMhz 150)
  | .usb => some (clkMhz 1,clkMhz 100)
  | .sys => none

def validateArg (pllBypass : Bool) (clkId : ClkId) (outputFreq : ℕ) : Option (ℕ × ℕ) :=
  if pllBypass then none
  else clkId.range.filter fun r => r.1 ≤ outputFreq ∧ outputFreq ≤ r.2

/-- What `set_pll_div` returns and writes. -/
structure Setting where
  ret : ℕ
  multiplier : ℕ
  prediv : ℕ
  postdiv : ℕ
  deriving DecidableEq

def minPrediv (baseFreq divider : ℕ) : ℕ :=
  max (baseFreq / maxPllInpFreq+1) (divider / maxDivValue+1)

def maxPrediv (baseFreq : ℕ) : ℕ := min (baseFreq / minPllInpFreq) maxDivValue

/-- The divider is not less than the least pre-divider; `none` if the multiplier gets too large. -/
def adjust (baseFreq multiplier divider : ℕ) : Option (ℕ × ℕ) :=
  let minPre := minPrediv baseFreq divider
  if divider < minPre then
    let temp := quotient minPre divider
    if pllMulMaxfactor < w32 (temp*multiplier) then none else some (w32 (temp*multiplier),minPre)
  else some (multiplier,divider)

def splitDivider (baseFreq outputFreq minPre multiplier divider : ℕ) : Option Setting :=
  let prediv := computePrediv divider minPre (maxPrediv baseFreq)
  let postdiv := quotient divider prediv
  if maxDivValue < postdiv then none
  else some ⟨if w32 (baseFreq*multiplier) ≠ w32 (w32 (outputFreq*prediv)*postdiv) then 1 else 0,
    multiplier,prediv,postdiv⟩

def program (baseFreq outputFreq multiplier divider : ℕ) : Option Setting :=
  if pllMulMaxfactor < multiplier ∨ multiplier = 0 ∨ divider = 0 then none
  else (adjust baseFreq multiplier divider).bind fun x =>
    splitDivider baseFreq outputFreq (minPrediv baseFreq divider) x.1 x.2

def setPllDiv (pllBypass : Bool) (clkId : ClkId) (baseFreq outputFreq : ℕ) :
    Except Fault (Option Setting) :=
  match validateArg pllBypass clkId outputFreq with
  | none => .ok none
  | some (presentMin,presentMax) =>
    if baseFreq < minPllInpFreq then .ok none
    else
      match getVal outputFreq baseFreq presentMin presentMax with
      | .error f => .error f
      | .ok (multiplier,divider) => .ok (program baseFreq outputFreq multiplier divider)

variable {baseFreq outputFreq num denom m d : ℕ}

lemma findGcd_eq (h : 0 < num) (denom : ℕ) : findGcd num denom = some (Nat.gcd num denom) := by
  induction num using Nat.strongRecOn generalizing denom with
  | _ num ih =>
    rw [findGcd,if_neg (ne_of_gt h)]
    split
    · next hdvd => rw [Nat.gcd_eq_left (Nat.dvd_of_mod_eq_zero hdvd)]
    · next hmod => rw [ih _ (Nat.mod_lt _ h) (pos_of_ne_zero hmod),← Nat.gcd_rec]

lemma quotient_eq {x y : ℕ} (h : x+y / 2 < 0x100000000) : quotient x y = (x+y / 2) / y := by
  rw [quotient,w32,Nat.mod_eq_of_lt h]

def Candidate (num denom : ℕ) (x : ℕ × ℕ) : Prop :=
  (1 ≤ x.1 ∧ x.1 ≤ 15) ∧ x.2 = quotient (w32 (x.1*denom)) num ∧ x.2 ≠ 0

section Approx

variable {presentMin presentMax n : ℕ} {prev : ℤ} {best x : ℕ × ℕ}

lemma isSome_approxFrom_iff :
    (approxFrom num denom baseFreq presentMin presentMax n prev best).isSome ↔
      ∀ k < n, quotient (w32 ((k+1)*denom)) num ≠ 0 := by
  induction n generalizing prev best with
  | zero => simp [approxFrom]
  | succ n ih =>
    rw [approxFrom,Nat.forall_lt_succ_right]
    dsimp only
    split
    · next hzero => simp [hzero]
    next hzero =>
    rw [and_iff_left hzero]
    split
    · exact ih
    · exact ih

lemma approxFrom_eq_some (hn : n ≤ 15)
    (h : approxFrom num denom baseFreq presentMin presentMax n prev best = some x) :
    x = best ∨ Candidate num denom x := by
  induction n generalizing prev best with
  | zero => exact .inl (some.inj h).symm
  | succ n ih =>
    rw [approxFrom] at h
    dsimp only at h
    split at h
    · cases h
    next hzero =>
    split at h
    · obtain rfl | hcand := ih (by omega) h
      · exact .inr ⟨⟨by omega,hn⟩,rfl,hzero⟩
      · exact .inr hcand
    · exact ih (by omega) h

end Approx

/-- What the multiplier and the divider are, for a ratio `num / denom` in lowest terms. -/
inductive Reduced (num denom : ℕ) : ℕ → ℕ → Prop
  | exact : Reduced num denom num denom
  | approx {n d : ℕ} (h : 15 < num) (hc : Candidate num denom (n,d)) :
    Reduced num denom (n / Nat.gcd n d) (d / Nat.gcd n d)

def Approximable (num denom : ℕ) : Prop := ∀ k < 15, quotient (w32 ((k+1)*denom)) num ≠ 0

lemma findApprox_spec (hnum : 15 < num) (hcop : Nat.gcd num denom = 1) (lo hi : ℕ) :
    (¬ Approximable num denom → findApprox num denom baseFreq lo hi = none) ∧
      (Approximable num denom → ∃ m d, findApprox num denom baseFreq lo hi = some (m,d) ∧
        Reduced num denom m d) := by
  unfold Approximable findApprox
  rw [← @isSome_approxFrom_iff baseFreq num denom lo hi 15 0x7fffffff (num,denom)]
  cases hx : approxFrom num denom baseFreq lo hi 15 0x7fffffff (num,denom) with
  | none => exact ⟨fun _ => rfl,nofun⟩
  | some x =>
    refine ⟨fun h => absurd rfl h,fun _ => ?_⟩
    obtain ⟨n,d⟩ := x
    rw [bind_some]
    obtain heq | hcand := approxFrom_eq_some le_rfl hx
    · cases heq
      rw [findGcd_eq (show 0 < num by omega),hcop,map_some,Nat.div_one,Nat.div_one]
      exact ⟨num,denom,rfl,.exact⟩
    · rw [findGcd_eq hcand.1.1,map_some]
      exact ⟨_,_,rfl,.approx hnum hcand⟩

def ratioNum (outputFreq baseFreq : ℕ) : ℕ := outputFreq / Nat.gcd outputFreq baseFreq

def ratioDenom (outputFreq baseFreq : ℕ) : ℕ := baseFreq / Nat.gcd outputFreq baseFreq

/-- The multiplier is small enough, or `find_approx` is called and divides by no 0. -/
def Assigned (outputFreq baseFreq : ℕ) : Prop :=
  15 < ratioNum outputFreq baseFreq →
    ratioNum outputFreq baseFreq / ratioDenom outputFreq baseFreq ≤ 15 ∧
      Approximable (ratioNum outputFreq baseFreq) (ratioDenom outputFreq baseFreq)

lemma getVal_eq (hout : 0 < outputFreq) (hbase : 0 < baseFreq) (lo hi : ℕ) :
    getVal outputFreq baseFreq lo hi =
      if 15 < ratioNum outputFreq baseFreq then
        if 15 < ratioNum outputFreq baseFreq / ratioDenom outputFreq baseFreq then
          .error .unassigned
        else
          match findApprox (ratioNum outputFreq baseFreq) (ratioDenom outputFreq baseFreq) baseFreq
            lo hi with
          | none => .error .divByZero
          | some x => .ok x
      else .ok (ratioNum outputFreq baseFreq,ratioDenom outputFreq baseFreq) := by
  have hpos : 0 < Nat.gcd outputFreq baseFreq := Nat.gcd_pos_of_pos_left _ hout
  have hgcd : findGcd (min baseFreq outputFreq) (max baseFreq outputFreq) =
      some (Nat.gcd outputFreq baseFreq) := by
    rw [findGcd_eq (by omega)]
    obtain hle | hle := Nat.le_total baseFreq outputFreq
    · rw [min_eq_left hle,max_eq_right hle,Nat.gcd_comm]
    · rw [min_eq_right hle,max_eq_left hle]
  have hdenom : baseFreq / Nat.gcd outputFreq baseFreq ≠ 0 :=
    (Nat.div_pos (Nat.gcd_le_right _ hbase) hpos).ne'
  rw [getVal,hgcd]
  dsimp only
  rw [if_neg hpos.ne',if_neg hdenom]
  rfl

lemma getVal_spec (hout : 0 < outputFreq) (hbase : 0 < baseFreq) (lo hi : ℕ) :
    (¬ Assigned outputFreq baseFreq → ∃ f, getVal outputFreq baseFreq lo hi = .error f) ∧
      (Assigned outputFreq baseFreq → ∃ m d, getVal outputFreq baseFreq lo hi = .ok (m,d) ∧
        Reduced (ratioNum outputFreq baseFreq) (ratioDenom outputFreq baseFreq) m d) := by
  have hcop : Nat.gcd (ratioNum outputFreq baseFreq) (ratioDenom outputFreq baseFreq) = 1 :=
    Nat.coprime_div_gcd_div_gcd (Nat.gcd_pos_of_pos_left _ hout)
  rw [getVal_eq hout hbase,Assigned]
  split
  · next hnum =>
    split
    · next hratio => exact ⟨fun _ => ⟨_,rfl⟩,fun h => absurd (h hnum).1 (not_le.mpr hratio)⟩
    next hratio =>
    obtain ⟨hnone,hsome⟩ := @findApprox_spec baseFreq _ _ hnum hcop lo hi
    constructor
    · intro h
      rw [hnone fun happrox => h fun _ => ⟨not_lt.mp hratio,happrox⟩]
      exact ⟨_,rfl⟩
    · intro h
      obtain ⟨m,d,heq,hred⟩ := hsome (h hnum).2
      rw [heq]
      exact ⟨m,d,rfl,hred⟩
  · next hnum => exact ⟨fun h => absurd (fun h' => absurd h' hnum) h,fun _ => ⟨_,_,rfl,.exact⟩⟩

lemma predivFrom_spec {min : ℕ} (n : ℕ) : predivFrom d min n = min ∨
    min ≤ predivFrom d min n ∧ predivFrom d min n ≤ n ∧ d % predivFrom d min n = 0 := by
  induction n with
  | zero => exact .inl rfl
  | succ n ih =>
    rw [predivFrom]
    split
    · exact .inl rfl
    next hle =>
    split
    · next hmod => exact .inr ⟨not_lt.mp hle,le_rfl,hmod⟩
    · obtain heq | ⟨h1,h2,h3⟩ := ih
      · exact .inl heq
      · exact .inr ⟨h1,Nat.le_succ_of_le h2,h3⟩

lemma computePrediv_spec {min max : ℕ} (hmin : 0 < min) (hd : min ≤ d) :
    (computePrediv d min max = min ∨ min ≤ computePrediv d min max ∧
      computePrediv d min max ≤ max) ∧
      computePrediv d min max ≤ d := by
  rw [computePrediv]
  split
  · next h => exact ⟨.inr h,le_rfl⟩
  · obtain heq | ⟨h1,h2,hmod⟩ := @predivFrom_spec d min max
    · rw [heq]
      exact ⟨.inl rfl,hd⟩
    · exact ⟨.inr ⟨h1,h2⟩,Nat.le_of_dvd (by omega) (Nat.dvd_of_mod_eq_zero hmod)⟩

/-- A multiplier and a divider that can be split, for the least pre-divider `minPre`. -/
structure Splittable (baseFreq minPre m d : ℕ) : Prop where
  mul : 1 ≤ m ∧ m ≤ 15
  inp : baseFreq / maxPllInpFreq < minPre
  div : minPre ≤ d ∧ d < 32*minPre
  small : d < 0x10000000

def Overscaled (baseFreq m d : ℕ) : Prop :=
  d < minPrediv baseFreq d ∧ 15 < quotient (minPrediv baseFreq d) d*m

lemma adjust_spec (hb : baseFreq < 0x100000000) (hm : 1 ≤ m ∧ m ≤ 15) (hd : 0 < d)
    (hsmall : d < 0x10000000) :
    (Overscaled baseFreq m d ∧ adjust baseFreq m d = none) ∨
    ¬ Overscaled baseFreq m d ∧ ∃ m' d', adjust baseFreq m d = some (m',d') ∧
      Splittable baseFreq (minPrediv baseFreq d) m' d' := by
  have hle : minPrediv baseFreq d ≤ 0x1000000 ∧ baseFreq / maxPllInpFreq < minPrediv baseFreq d ∧
      d < 32*minPrediv baseFreq d := by
    unfold minPrediv maxPllInpFreq maxDivValue clkMhz
    omega
  unfold adjust Overscaled pllMulMaxfactor
  dsimp only
  generalize minPrediv baseFreq d = p at *
  split
  · next hlt =>
    have hq : 1 ≤ quotient p d ∧ quotient p d ≤ 0x2000000 := by
      rw [quotient_eq (by omega)]
      exact ⟨Nat.div_pos (by omega) hd,Nat.le_trans (Nat.div_le_self _ _) (by omega)⟩
    have hw : w32 (quotient p d*m) = quotient p d*m := Nat.mod_eq_of_lt (by nlinarith)
    rw [hw]
    split
    · next h15 => exact .inl ⟨⟨hlt,h15⟩,rfl⟩
    next h15 =>
    refine .inr ⟨fun h => h15 h.2,_,_,rfl,⟨?_,Nat.not_lt.mp h15⟩,hle.2.1,⟨le_rfl,?_⟩,?_⟩
    · exact Nat.mul_pos hq.1 hm.1
    · omega
    · omega
  · next hge =>
    exact .inr ⟨fun h => hge h.1,_,_,rfl,hm,hle.2.1,⟨not_lt.mp hge,hle.2.2⟩,hsmall⟩

structure InRange (baseFreq : ℕ) (w : Setting) : Prop where
  multiplier : 1 ≤ w.multiplier ∧ w.multiplier ≤ 15
  prediv : 1 ≤ w.prediv ∧ w.prediv ≤ 32
  postdiv : 1 ≤ w.postdiv ∧ w.postdiv ≤ 32
  input : minPllInpFreq*w.prediv ≤ baseFreq ∧ baseFreq ≤ maxPllInpFreq*w.prediv

lemma Splittable.inRange_iff {minPre : ℕ} (h : Splittable baseFreq minPre m d) (outputFreq : ℕ) :
    (∀ w, splitDivider baseFreq outputFreq minPre m d = some w → InRange baseFreq w) ↔
      minPre ≤ maxPrediv baseFreq := by
  have hinp := h.inp
  have hdiv := h.div
  have hsmall := h.small
  obtain ⟨hp,hpd⟩ := @computePrediv_spec d minPre (maxPrediv baseFreq) (by omega) hdiv.1
  have hpos : 0 < computePrediv d minPre (maxPrediv baseFreq) := by omega
  unfold splitDivider
  dsimp only
  generalize computePrediv d minPre (maxPrediv baseFreq) = p at *
  rw [quotient_eq (by omega)]
  unfold maxPrediv maxDivValue minPllInpFreq maxPllInpFreq clkMhz at *
  constructor
  · intro hall
    by_contra hlt
    -- The range is empty: the least pre-divider is taken, and the post-divider is not too large.
    obtain rfl : p = minPre := by omega
    have hpost : (d+p / 2) / p ≤ 32 := by
      rw [Nat.div_le_iff_le_mul_add_pred hpos]
      omega
    rw [if_neg (not_lt.mpr hpost)] at hall
    obtain ⟨-,hpre,-,hin⟩ := hall _ rfl
    dsimp only [minPllInpFreq,clkMhz] at hpre hin
    omega
  intro hle w hw
  split at hw
  · cases hw
  next hpost =>
  cases hw
  refine ⟨h.mul,⟨hpos,?_⟩,⟨Nat.div_pos (by omega) hpos,Nat.not_lt.mp hpost⟩,?_⟩
  · dsimp only
    omega
  · dsimp only [minPllInpFreq,maxPllInpFreq,clkMhz]
    omega

lemma Reduced.pos (h : Reduced num denom m d) (hn : 0 < num) (hd : 0 < denom) : 0 < m ∧ 0 < d := by
  cases h with
  | exact => exact ⟨hn,hd⟩
  | @approx n d hnum hc =>
    obtain ⟨⟨h1,-⟩,-,h0⟩ := hc
    have hpos : 0 < Nat.gcd n d := Nat.gcd_pos_of_pos_left d h1
    exact ⟨Nat.div_pos (Nat.gcd_le_left _ h1) hpos,
      Nat.div_pos (Nat.gcd_le_right _ (Nat.pos_of_ne_zero h0)) hpos⟩

lemma Reduced.small (h : Reduced num denom m d) (hm : m ≤ 15)
    (hd : num ≤ 15 → denom < 0x10000000) : d < 0x10000000 := by
  cases h with
  | exact => exact hd hm
  | @approx n d hnum hc =>
    refine (Nat.div_le_self _ _).trans_lt ?_
    rw [show d = _ from hc.2.1,quotient,Nat.div_lt_iff_lt_mul (by omega)]
    exact (Nat.mod_lt _ (by decide)).trans_le (by omega)

lemma ratioDenom_lt (hb : baseFreq < 0x100000000) (hout : 1000000 ≤ outputFreq)
    (h : ratioNum outputFreq baseFreq ≤ 15) : ratioDenom outputFreq baseFreq < 0x10000000 := by
  unfold ratioNum ratioDenom at *
  have hmul : outputFreq / Nat.gcd outputFreq baseFreq*Nat.gcd outputFreq baseFreq = outputFreq :=
    Nat.div_mul_cancel (Nat.gcd_dvd_left _ _)
  rw [Nat.div_lt_iff_lt_mul (Nat.gcd_pos_of_pos_left _ (by omega))]
  nlinarith

lemma validateArg_range {pllBypass : Bool} {clkId : ClkId} {r : ℕ × ℕ}
    (h : validateArg pllBypass clkId outputFreq = some r) :
    1000000 ≤ outputFreq ∧ outputFreq ≤ 150000000 := by
  rw [validateArg] at h
  split at h
  · cases h
  rw [filter_eq_some_iff,decide_eq_true_eq] at h
  obtain ⟨hr,hle⟩ := h
  cases clkId with
  | sys => cases hr
  | usb | mips | vbus =>
    cases hr
    simp only [clkMhz] at hle
    omega

lemma program_inRange_iff (hb : baseFreq < 0x100000000) (hm : 0 < m) (hd : 0 < d)
    (hsmall : m ≤ 15 → d < 0x10000000) :
    (∀ w, program baseFreq outputFreq m d = some w → InRange baseFreq w) ↔
      (m ≤ 15 → Overscaled baseFreq m d ∨ minPrediv baseFreq d ≤ maxPrediv baseFreq) := by
  rw [program,pllMulMaxfactor]
  split
  · exact ⟨fun _ _ => by omega,fun _ _ h => nomatch h⟩
  have h15 : m ≤ 15 := by omega
  rw [imp_iff_right h15]
  obtain ⟨hover,hnone⟩ | ⟨hover,m',d',hsome,hsplit⟩ := adjust_spec hb ⟨hm,h15⟩ hd (hsmall h15)
  · rw [hnone]
    exact ⟨fun _ => .inl hover,fun _ _ h => nomatch h⟩
  · rw [hsome,or_iff_right hover]
    exact hsplit.inRange_iff outputFreq

/-- Nothing is divided by 0, nothing is used unassigned, and what is written is in range. -/
def Safe (baseFreq : ℕ) : Except Fault (Option Setting) → Prop
  | .error _ => False
  | .ok o => ∀ w, o = some w → InRange baseFreq w

theorem setPllDiv_safe_iff {pllBypass : Bool} {clkId : ClkId} {lo hi : ℕ} (hb : baseFreq < 0x100000000)
    (hvalid : validateArg pllBypass clkId outputFreq = some (lo,hi)) :
    Safe baseFreq (setPllDiv pllBypass clkId baseFreq outputFreq) ↔
      baseFreq < minPllInpFreq ∨ Assigned outputFreq baseFreq ∧
        ∀ m d, getVal outputFreq baseFreq lo hi = .ok (m,d) → m ≤ 15 →
          Overscaled baseFreq m d ∨ minPrediv baseFreq d ≤ maxPrediv baseFreq := by
  obtain ⟨hout,-⟩ := validateArg_range hvalid
  rw [setPllDiv,hvalid]
  dsimp only
  split
  · next hmin => simp [hmin,Safe]
  next hmin =>
  have hpos : 0 < baseFreq := by
    rw [minPllInpFreq,clkMhz] at hmin
    omega
  have hgcd := Nat.gcd_pos_of_pos_right outputFreq hpos
  rw [or_iff_right hmin]
  obtain ⟨herr,hok⟩ := getVal_spec (show 0 < outputFreq by omega) hpos lo hi
  by_cases hassigned : Assigned outputFreq baseFreq
  · obtain ⟨m,d,heq,hred⟩ := hok hassigned
    obtain ⟨hm,hd⟩ := hred.pos (Nat.div_pos (Nat.gcd_le_left _ (by omega)) hgcd)
      (Nat.div_pos (Nat.gcd_le_right _ hpos) hgcd)
    have hiff := @program_inRange_iff baseFreq outputFreq m d hb hm hd fun h15 =>
      hred.small h15 (ratioDenom_lt hb hout)
    rw [heq,and_iff_right hassigned]
    refine hiff.trans ⟨fun h m' d' heq' => ?_,fun h => h m d rfl⟩
    cases heq'
    exact h
  · obtain ⟨f,heq⟩ := herr hassigned
    rw [heq]
    exact ⟨False.elim,fun h => absurd h.1 hassigned⟩

/-- 150 MHz from a crystal of 25 MHz. -/
theorem setPllDiv_safe_crystal : Safe 25000000 (setPllDiv false .mips 25000000 150000000) := by
  refine (@setPllDiv_safe_iff 25000000 150000000 false .mips 1000000 150000000 (by decide) rfl).mpr (.inr ?_)
  refine ⟨fun h => absurd h (by decide +kernel),fun m d h _ => .inr ?_⟩
  have hval : getVal 150000000 25000000 1000000 150000000 = .ok (6,1) := by decide +kernel
  cases hval.symm.trans h
  decide

/-- One hertz less: the ratio is in lowest terms, and the denominator for the numerator 2 is rounded
down to 0. -/
theorem setPllDiv_divByZero :
    (validateArg false .mips 149999999).isSome ∧
      setPllDiv false .mips 25000000 149999999 = .error .divByZero ∧
      ¬ Safe 25000000 (setPllDiv false .mips 25000000 149999999) := by
  have heq : setPllDiv false .mips 25000000 149999999 = .error .divByZero := by decide +kernel
  exact ⟨rfl,heq,by rw [heq]; exact id⟩

end DslG624t.Sys
