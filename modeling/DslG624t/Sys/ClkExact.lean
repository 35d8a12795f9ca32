import DslG624t.Sys.Clk

/-!
# Reading the clocks back

The frequency that `get_pll_div` computes from the registers, after `set_pll_div` has reported that it
could set the wanted one exactly.
-/

namespace DslG624t.Sys

variable {baseFreq outputFreq num denom m d : ℕ} {w : Setting}

lemma splitDivider_eq_some {minPre : ℕ}
    (h : splitDivider baseFreq outputFreq minPre m d = some w) :
    w.multiplier = m ∧ w.prediv = computePrediv d minPre (maxPrediv baseFreq) ∧
      w.postdiv = quotient d w.prediv ∧ w.postdiv ≤ 32 ∧
      (w.ret = 0 → w32 (baseFreq*m) = w32 (w32 (outputFreq*w.prediv)*w.postdiv)) := by
  rw [splitDivider] at h
  split at h
  · cases h
  next hpost =>
  cases h
  refine ⟨rfl,rfl,rfl,not_lt.mp hpost,fun hret => ?_⟩
  by_contra hne
  rw [if_pos hne] at hret
  cases hret

/-- A divider of 1 is doubled for a base frequency that is too high for the PLL. -/
inductive Programmed (m d : ℕ) (w : Setting) : Prop
  | doubled (hd : d = 1) (hm : w.multiplier = 2*m) (hp : w.prediv = 2) (hq : w.postdiv = 1)
  | split (hm : w.multiplier = m) (hp : 1 ≤ w.prediv ∧ w.prediv ≤ d)
    (hpre : w.prediv ≤ 18 ∨ w.prediv = d / 32+1) (hq : w.postdiv = (d+w.prediv / 2) / w.prediv)

lemma programmed (h8 : minPllInpFreq ≤ baseFreq) (h150 : baseFreq ≤ clkMhz 150)
    (hsmall : m ≤ 15 → d < 0x10000000) (h : program baseFreq outputFreq m d = some w) :
    Programmed m d w ∧ (1 ≤ w.multiplier ∧ w.multiplier ≤ 15) ∧ (1 ≤ w.postdiv ∧ w.postdiv ≤ 32) ∧
      (w.ret = 0 → w32 (baseFreq*w.multiplier) = w32 (w32 (outputFreq*w.prediv)*w.postdiv)) := by
  unfold minPllInpFreq clkMhz at *
  rw [program,pllMulMaxfactor] at h
  split at h
  · cases h
  next hne =>
  have hd := hsmall (by omega)
  obtain ⟨⟨m',d'⟩,hadj,hsplit⟩ := Option.bind_eq_some_iff.mp h
  obtain ⟨hm,hp,hq,h32,hret⟩ := splitDivider_eq_some hsplit
  unfold adjust at hadj
  dsimp only at hm hp hq h32 hret hadj
  have hmin : minPrediv baseFreq d = max (baseFreq / 100000000+1) (d / 32+1) := rfl
  have hmax : maxPrediv baseFreq = min (baseFreq / 8000000) 32 := rfl
  rw [← hm] at hret
  split at hadj
  · next hlt =>
    obtain rfl : d = 1 := by omega
    rw [show minPrediv baseFreq 1 = 2 by omega,show quotient 2 1 = 2 from rfl,w32,
      Nat.mod_eq_of_lt (by omega),pllMulMaxfactor] at hadj
    split at hadj
    · cases hadj
    · cases hadj
      rw [show minPrediv baseFreq 1 = 2 by omega,computePrediv,if_pos (by omega)] at hp
      rw [hp] at hq
      exact ⟨.doubled rfl hm hp hq,by omega,⟨hq.ge,h32⟩,hret⟩
  next hge =>
  cases hadj
  obtain ⟨hspec,hle⟩ := @computePrediv_spec d (minPrediv baseFreq d) (maxPrediv baseFreq) (by omega)
    (not_lt.mp hge)
  rw [← hp] at hspec hle
  have hpos : 1 ≤ w.prediv := by omega
  rw [quotient_eq (by omega)] at hq
  refine ⟨.split hm ⟨hpos,hle⟩ (by omega) hq,by omega,⟨?_,h32⟩,hret⟩
  rw [hq]
  exact Nat.div_pos (by omega) hpos

lemma Reduced.mul_le (h : Reduced num denom m d) (hlt : 15*denom+num / 2 < 0x100000000) :
    d*num ≤ m*denom+num / 2 := by
  cases h with
  | exact => rw [Nat.mul_comm]; exact Nat.le_add_right _ _
  | @approx n d hnum hc =>
    obtain ⟨⟨h1,h15⟩,heq,-⟩ := hc
    dsimp only at h1 h15 heq
    have hn : n*denom ≤ 15*denom := Nat.mul_le_mul_right _ h15
    rw [w32,Nat.mod_eq_of_lt (by omega),quotient_eq (by omega)] at heq
    have hmul : d*num ≤ n*denom+num / 2 := heq ▸ Nat.div_mul_le_self _ _
    have hpos : 0 < Nat.gcd n d := Nat.gcd_pos_of_pos_left d h1
    have hn' : n / Nat.gcd n d*Nat.gcd n d = n := Nat.div_mul_cancel (Nat.gcd_dvd_left n d)
    have hd' : d / Nat.gcd n d*Nat.gcd n d = d := Nat.div_mul_cancel (Nat.gcd_dvd_right n d)
    generalize n / Nat.gcd n d = a at *
    generalize d / Nat.gcd n d = b at *
    generalize Nat.gcd n d = g at *
    refine le_of_mul_le_mul_left ?_ hpos
    calc g*(b*num) = d*num := by rw [← hd',← mul_assoc,mul_comm g]
      _ ≤ n*denom+num / 2 := hmul
      _ ≤ g*(a*denom+num / 2) := by
        rw [← hn',Nat.mul_add,Nat.mul_comm a,Nat.mul_assoc]
        exact Nat.add_le_add_left (Nat.le_mul_of_pos_left _ hpos) _

lemma Programmed.product_lt (h : Programmed m d w) (hm : m ≤ 15) (hbase : baseFreq ≤ clkMhz 150)
    (hout : outputFreq ≤ 150000000) (hle : outputFreq*d ≤ m*baseFreq+outputFreq / 2) :
    outputFreq*(w.prediv*w.postdiv) < 0x100000000 := by
  unfold clkMhz at hbase
  cases h with
  | doubled _ _ hp hq =>
    rw [hp,hq]
    omega
  | split _ hp hpre hq =>
    have hpq : w.prediv*w.postdiv ≤ d+w.prediv / 2 := by
      rw [hq,mul_comm]
      exact Nat.div_mul_le_self _ _
    have hpre' : 32*w.prediv ≤ 576+d := by omega
    have hmb : m*baseFreq ≤ 15*150000000 := Nat.mul_le_mul hm hbase
    have htwice : 64*(w.prediv*w.postdiv) ≤ 65*d+576 := by omega
    have hmul := Nat.mul_le_mul_left outputFreq htwice
    have hout' : outputFreq*(65*d+576) = 65*(outputFreq*d)+576*outputFreq := by ring
    have hout'' : outputFreq*(64*(w.prediv*w.postdiv)) =
        64*(outputFreq*(w.prediv*w.postdiv)) := by ring
    omega

lemma Programmed.prediv_le (h : Programmed m d w) (hred : Reduced num denom m d) (hnum : 0 < num)
    (hcop : Nat.gcd num denom = 1) (hm : 1 ≤ w.multiplier ∧ w.multiplier ≤ 15) (hq : w.postdiv ≤ 32)
    (heq : denom*w.multiplier = num*(w.prediv*w.postdiv)) : 1 ≤ w.prediv ∧ w.prediv ≤ 32 := by
  have hdvd : num ∣ w.multiplier := Nat.Coprime.dvd_of_dvd_mul_left hcop (Dvd.intro _ heq.symm)
  have hle : num ≤ 15 := (Nat.le_of_dvd hm.1 hdvd).trans hm.2
  cases hred with
  | approx h15 => omega
  | exact =>
    cases h with
    | doubled _ _ hp => omega
    | split hmul hp hpre =>
      refine ⟨hp.1,?_⟩
      obtain hpre | hpre := hpre
      · omega
      -- `32 * prediv` is above the divider, so the post-divider is at most 31.
      rw [hmul,mul_comm] at heq
      have hd : denom = w.prediv*w.postdiv := Nat.eq_of_mul_eq_mul_left hnum heq
      have h31 : w.postdiv ≤ 31 := by
        by_contra hgt
        rw [show w.postdiv = 32 by omega] at hd
        omega
      have hle' : denom ≤ w.prediv*31 := hd ▸ Nat.mul_le_mul_left _ h31
      omega

lemma Programmed.exact {g : ℕ} (h : Programmed m d w) (hred : Reduced num denom m d)
    (hcop : Nat.gcd num denom = 1) (hnum : num*g = outputFreq) (hdenom : denom*g = baseFreq)
    (hbase : baseFreq ≤ clkMhz 150) (hout : 0 < outputFreq ∧ outputFreq ≤ 150000000)
    (hm : 1 ≤ w.multiplier ∧ w.multiplier ≤ 15) (hq : w.postdiv ≤ 32)
    (heq : w32 (baseFreq*w.multiplier) = w32 (w32 (outputFreq*w.prediv)*w.postdiv)) :
    (1 ≤ w.prediv ∧ w.prediv ≤ 32) ∧
      baseFreq*w.multiplier = outputFreq*(w.prediv*w.postdiv) := by
  have hg : 0 < g := pos_of_ne_zero fun h0 => by
    rw [h0,Nat.mul_zero] at hnum
    omega
  have hnum0 : 0 < num := pos_of_ne_zero fun h0 => by
    rw [h0,Nat.zero_mul] at hnum
    omega
  have hm15 : m ≤ 15 := by cases h <;> omega
  have hle : num ≤ outputFreq ∧ denom ≤ baseFreq :=
    ⟨hnum ▸ Nat.le_mul_of_pos_right _ hg,hdenom ▸ Nat.le_mul_of_pos_right _ hg⟩
  have hbase' : baseFreq ≤ 150000000 := hbase
  have hmul : 2*(d*num) ≤ 2*(m*denom)+num := by
    have := hred.mul_le (by omega)
    omega
  have hmulg := Nat.mul_le_mul_right g hmul
  have hlt : outputFreq*(w.prediv*w.postdiv) < 0x100000000 := by
    refine h.product_lt hm15 hbase hout.2 ?_
    have h1 : 2*(d*num)*g = 2*(outputFreq*d) := by rw [← hnum]; ring
    have h2 : (2*(m*denom)+num)*g = 2*(m*baseFreq)+outputFreq := by
      rw [← hnum,← hdenom]
      ring
    omega
  have hprod : baseFreq*w.multiplier = outputFreq*(w.prediv*w.postdiv) := by
    have hlt' : baseFreq*w.multiplier ≤ 150000000*15 := Nat.mul_le_mul hbase' hm.2
    unfold w32 at heq
    rwa [Nat.mod_mul_mod,mul_assoc,Nat.mod_eq_of_lt hlt,Nat.mod_eq_of_lt (by omega)] at heq
  refine ⟨h.prediv_le hred hnum0 hcop hm hq (Nat.eq_of_mul_eq_mul_left hg ?_),hprod⟩
  rw [← hnum,← hdenom] at hprod
  calc g*(denom*w.multiplier) = denom*g*w.multiplier := by ring
    _ = num*g*(w.prediv*w.postdiv) := hprod
    _ = g*(num*(w.prediv*w.postdiv)) := by ring

end DslG624t.Sys
