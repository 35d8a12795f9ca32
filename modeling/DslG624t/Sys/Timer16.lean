import Mathlib

/-!
# The 16-bit timers

`pal_sysTimer16.c`.
-/

namespace DslG624t.Sys

def mhz : ℕ := 1000000

def timer16MaxLoadValue : ℕ := 0xFFFF

def timer16MaxClkDivisor : ℕ := timer16MaxLoadValue*8192

def timer16MinClkDivisor : ℕ := 1*2*2

def timer16CntrlOneshot : ℕ := 0

def timer16CntrlAutoload : ℕ := 2

structure Timer16 where
  loadReg : ℕ
  ctrlReg : ℕ
  deriving DecidableEq

def Timer16.prescale (t : Timer16) : ℕ := (t.ctrlReg &&& 0x3C) >>> 2

def palSysTimer16GetFreqRange (refclkFreq : ℕ) : Option (ℕ × ℕ) :=
  let refclkMhz := refclkFreq / mhz
  if refclkMhz = 0 then none
  else some (timer16MaxClkDivisor / refclkMhz,
    if refclkMhz < timer16MinClkDivisor then timer16MinClkDivisor / refclkMhz else 1)

def prescaleFrom : ℕ → ℕ → ℕ → ℕ × ℕ
  | 0, prescale, count => (prescale,count)
  | n+1, prescale, count =>
    if count / 2 ≤ timer16MaxLoadValue then (prescale,count / 2)
    else prescaleFrom n (prescale+1) (count / 2)

/-- `some none` is `ERROR`. -/
def palSysTimer16SetParams (baseAddress refclkFreq mode usec : ℕ) : Option (Option Timer16) :=
  let refclkMhz := refclkFreq / mhz
  if baseAddress = 0 ∨ usec = 0 then some none
  else if mode ≠ timer16CntrlOneshot ∧ mode ≠ timer16CntrlAutoload then some none
  else if refclkMhz = 0 then none
  else if timer16MaxClkDivisor / refclkMhz < usec then some none
  else
    let (prescale,count) := prescaleFrom 12 0 (refclkMhz*usec % 0x100000000)
    some (some ⟨count,mode ||| 0x8000 ||| prescale <<< 2⟩)

lemma div_two_div_two_pow (c n : ℕ) : c / 2 / 2 ^ n = c / 2 ^ (n+1) := by
  rw [Nat.div_div_eq_div_mul,pow_succ']

lemma prescaleFrom_of_le {n c : ℕ} (p : ℕ) (hn : 0 < n) (h : c / 2 ^ n ≤ timer16MaxLoadValue) :
    ∃ k < n, prescaleFrom n p c = (p+k,c / 2 ^ (k+1)) ∧
      c / 2 ^ (k+1) ≤ timer16MaxLoadValue ∧ (k = 0 ∨ timer16MaxLoadValue < c / 2 ^ k) := by
  induction n generalizing p c with
  | zero => exact absurd hn (lt_irrefl 0)
  | succ n ih =>
    by_cases hfit : c / 2 ≤ timer16MaxLoadValue
    · exact ⟨0,hn,by rw [prescaleFrom,if_pos hfit]; rfl,by simpa using hfit,.inl rfl⟩
    rw [← div_two_div_two_pow] at h
    have hpos : 0 < n := by
      apply pos_of_ne_zero
      rintro rfl
      exact hfit (by simpa using h)
    obtain ⟨k,hk,heq,hle,hlt⟩ := ih (p+1) hpos h
    rw [div_two_div_two_pow] at heq hle
    refine ⟨k+1,Nat.succ_lt_succ hk,?_,hle,.inr ?_⟩
    · rw [prescaleFrom,if_neg hfit,heq,add_right_comm,add_assoc]
    · rw [← div_two_div_two_pow]
      obtain rfl | hlt := hlt
      · simpa using hfit
      · exact hlt

lemma prescaleFrom_of_lt {n c : ℕ} (p : ℕ) (h : timer16MaxLoadValue < c / 2 ^ n) :
    prescaleFrom n p c = (p+n,c / 2 ^ n) := by
  induction n generalizing p c with
  | zero => simp [prescaleFrom]
  | succ n ih =>
    rw [← div_two_div_two_pow] at h ⊢
    have hfit : ¬ c / 2 ≤ timer16MaxLoadValue :=
      Nat.not_le.mpr (Nat.lt_of_lt_of_le h (Nat.div_le_self _ _))
    rw [prescaleFrom,if_neg hfit,ih (p+1) h,Nat.add_right_comm,Nat.add_assoc]

lemma prescale_mk {mode p : ℕ} (l : ℕ) (hp : p ≤ 12)
    (hmode : mode = timer16CntrlOneshot ∨ mode = timer16CntrlAutoload) :
    (⟨l,mode ||| 0x8000 ||| p <<< 2⟩ : Timer16).prescale = p := by
  have hall : ∀ p ≤ 12, ((0 ||| 0x8000 ||| p <<< 2) &&& 0x3C) >>> 2 = p ∧
      ((2 ||| 0x8000 ||| p <<< 2) &&& 0x3C) >>> 2 = p := by decide
  obtain rfl | rfl := hmode
  · exact (hall p hp).1
  · exact (hall p hp).2

/-- The timer runs for `ticks` ticks of the clock, rounded down to its resolution. -/
structure Timer16.Runs (t : Timer16) (ticks : ℕ) : Prop where
  load : 1 ≤ t.loadReg ∧ t.loadReg ≤ timer16MaxLoadValue
  period : t.loadReg*2 ^ (t.prescale+1) ≤ ticks ∧ ticks < (t.loadReg+1)*2 ^ (t.prescale+1)

lemma runs_prescaleFrom_iff {ticks mode : ℕ} (hticks : 2 ≤ ticks)
    (hmode : mode = timer16CntrlOneshot ∨ mode = timer16CntrlAutoload) :
    (⟨(prescaleFrom 12 0 ticks).2,mode ||| 0x8000 ||| (prescaleFrom 12 0 ticks).1 <<< 2⟩ :
      Timer16).Runs ticks ↔ ticks < 2 ^ 28 := by
  by_cases hfit : ticks / 2 ^ 12 ≤ timer16MaxLoadValue
  · obtain ⟨k,hk,heq,hload,hfirst⟩ := prescaleFrom_of_le 0 (by decide) hfit
    rw [heq,zero_add]
    refine iff_of_true ⟨⟨?_,hload⟩,?_⟩ ?_
    · obtain rfl | hfirst := hfirst
      · exact Nat.div_le_div_right (c := 2) hticks
      · have hhalf : ticks / 2 ^ (k+1) = ticks / 2 ^ k / 2 := by
          rw [Nat.div_div_eq_div_mul,pow_succ]
        rw [hhalf]
        exact le_trans (by decide) (Nat.div_le_div_right (c := 2) hfirst)
    · rw [prescale_mk _ (by omega) hmode]
      refine ⟨Nat.div_mul_le_self _ _,?_⟩
      rw [mul_comm]
      exact Nat.lt_mul_div_succ _ (Nat.two_pow_pos _)
    · have hlt : ticks / 2 ^ 12 < 2 ^ 16 := Nat.lt_succ_of_le hfit
      omega
  · rw [prescaleFrom_of_lt 0 (not_le.mp hfit)]
    refine iff_of_false (fun h => hfit h.load.2) fun hlt => hfit ?_
    exact Nat.le_of_lt_succ (show ticks / 2 ^ 12 < 2 ^ 16 by omega)

/-- A period in the range is programmed if its ticks fit the greatest factor of the loop, which is
half of the one that the range is computed with. -/
theorem setParams_runs_iff {refclkFreq max min usec : ℕ} (baseAddress mode : ℕ)
    (hclk : mhz ≤ refclkFreq) (hrange : palSysTimer16GetFreqRange refclkFreq = some (max,min))
    (hmin : min ≤ usec) (hmax : usec ≤ max) :
    (∃ t, palSysTimer16SetParams baseAddress refclkFreq mode usec = some (some t) ∧
      t.Runs (refclkFreq / mhz*usec)) ↔
      baseAddress ≠ 0 ∧ (mode = timer16CntrlOneshot ∨ mode = timer16CntrlAutoload) ∧
        refclkFreq / mhz*usec < 2 ^ 28 := by
  have hpos : 0 < refclkFreq / mhz := Nat.div_pos hclk (by decide)
  rw [palSysTimer16SetParams]
  rw [palSysTimer16GetFreqRange] at hrange
  generalize refclkFreq / mhz = m at *
  dsimp only at hrange ⊢
  rw [if_neg (ne_of_gt hpos)] at hrange ⊢
  cases hrange
  have hle : m*usec ≤ timer16MaxClkDivisor :=
    Nat.mul_comm usec m ▸ (Nat.le_div_iff_mul_le hpos).mp hmax
  -- At the lower end of the range there are two ticks, so that the load value is not 0.
  have hticks : 2 ≤ m*usec ∧ usec ≠ 0 := by
    unfold timer16MinClkDivisor at hmin
    split at hmin
    · obtain rfl | rfl | rfl : m = 1 ∨ m = 2 ∨ m = 3 := by omega
      all_goals omega
    · next hm => exact ⟨Nat.mul_le_mul (show 2 ≤ m by omega) hmin,Nat.ne_of_gt hmin⟩
  rw [Nat.mod_eq_of_lt (Nat.lt_of_le_of_lt hle (by decide))]
  by_cases hbase : baseAddress = 0
  · simp [hbase]
  · by_cases hmode : mode = timer16CntrlOneshot ∨ mode = timer16CntrlAutoload
    · rw [← runs_prescaleFrom_iff hticks.1 hmode]
      simp [hbase,hticks.2,not_lt.mpr hmax,hmode,not_or.symm]
    · simp [hbase,hticks.2,not_or.mp hmode]

/-- A clock of 62.5 MHz and a tick of 10 ms. -/
theorem setParams_runs_tick : ∃ t, palSysTimer16SetParams 0xA8610C00 62500000 2 10000 = some (some t) ∧
    t.Runs 620000 :=
  (setParams_runs_iff 0xA8610C00 2 (by decide) rfl (by decide) (by decide)).mpr
    ⟨by decide,.inr rfl,by decide⟩

/-- With a clock of 1 MHz, a period of 2^28 microseconds is in the range; the load value has 17 bits. -/
theorem setParams_not_runs :
    palSysTimer16GetFreqRange 1000000 = some (536862720,4) ∧
      palSysTimer16SetParams 0xA8610C00 1000000 0 268435456 = some (some ⟨65536,0x8030⟩) ∧
      ¬ (⟨65536,0x8030⟩ : Timer16).Runs (1*268435456) :=
  ⟨by decide,by decide,fun h => absurd h.load.2 (by decide)⟩

end DslG624t.Sys
