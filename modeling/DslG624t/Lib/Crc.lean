import Mathlib

/-!
# Cyclic redundancy checks

The remainder of a message by a polynomial, one bit at a time, with the highest power of the
remainder in the highest bit.
-/

namespace Crc

open BitVec Function List

variable {w : ℕ} {poly : BitVec w}

def shift (poly c : BitVec w) : BitVec w := c <<< 1 ^^^ if c.msb then poly else 0

def place (w : ℕ) (b : BitVec 8) : BitVec w := b.setWidth w <<< (w-8)

def step (poly c : BitVec w) (b : BitVec 8) : BitVec w := (shift poly)^[8] (c ^^^ place w b)

def feed (poly c : BitVec w) (bytes : List (BitVec 8)) : BitVec w := bytes.foldl (step poly) c

variable {c : BitVec w} {n : ℕ} {m m' : List Bool}

lemma shift_xor (a b : BitVec w) : shift poly (a ^^^ b) = shift poly a ^^^ shift poly b := by
  rw [shift,shift,shift,msb_xor,shiftLeft_xor_distrib]
  cases a.msb <;> cases b.msb <;> simp
  · ac_rfl
  · ac_rfl
  · calc a <<< 1 ^^^ b <<< 1 = a <<< 1 ^^^ b <<< 1 ^^^ (poly ^^^ poly) := by simp
      _ = a <<< 1 ^^^ poly ^^^ (b <<< 1 ^^^ poly) := by ac_rfl

/-- The lowest bit tells whether the polynomial was subtracted. -/
lemma getLsbD_shift_zero (h : poly.getLsbD 0 = true) (a : BitVec w) :
    (shift poly a).getLsbD 0 = a.msb := by
  rw [shift,getLsbD_xor,getLsbD_shiftLeft]
  cases a.msb <;> simp [h]

lemma shift_injective (h : poly.getLsbD 0 = true) : Function.Injective (shift poly) := by
  intro a b hab
  have hmsb : a.msb = b.msb := by
    rw [← getLsbD_shift_zero h,← getLsbD_shift_zero h,hab]
  have hlow : a <<< 1 = b <<< 1 := by
    rw [shift,shift,hmsb] at hab
    exact (xor_left_inj _).mp hab
  apply eq_of_getLsbD_eq
  intro i hi
  by_cases htop : i+1 < w
  · have hbit := congrArg (fun c => c.getLsbD (i+1)) hlow
    simpa [htop,hi] using hbit
  · obtain rfl : i = w-1 := by omega
    rwa [msb_eq_getLsbD_last,msb_eq_getLsbD_last] at hmsb

lemma iterate_shift_xor (n : ℕ) (a b : BitVec w) :
    (shift poly)^[n] (a ^^^ b) = (shift poly)^[n] a ^^^ (shift poly)^[n] b := by
  induction n generalizing a b with
  | zero => rfl
  | succ n ih => exact (congrArg _ (shift_xor a b)).trans (ih _ _)

/-- A remainder with leading zeros is not divided. -/
lemma iterate_shift_low {n k : ℕ} (hc : c.toNat < 2 ^ k) (hn : n+k ≤ w) :
    (shift poly)^[n] c = c <<< n := by
  induction n with
  | zero => simp
  | succ n ih =>
    have hlt : c.toNat*2 ^ n < 2 ^ k*2 ^ n := mul_lt_mul_of_pos_right hc (Nat.two_pow_pos n)
    have hle : 2 ^ k*2 ^ n*2 ≤ 2 ^ w := by
      rw [← pow_add,← pow_succ]
      exact Nat.pow_le_pow_right (by decide) (by omega)
    have hmsb : (c <<< n).msb = false := by
      rw [msb_eq_false_iff_two_mul_lt,toNat_shiftLeft,Nat.shiftLeft_eq]
      have := Nat.mod_le (c.toNat*2 ^ n) (2 ^ w)
      omega
    rw [iterate_succ_apply',ih (by omega),shift,hmsb]
    simp [shiftLeft_add]

lemma place_xor (b b' : BitVec 8) : place w (b ^^^ b') = place w b ^^^ place w b' := by
  rw [place,setWidth_xor,shiftLeft_xor_distrib]
  rfl

lemma step_xor (c c' : BitVec w) (b b' : BitVec 8) :
    step poly (c ^^^ c') (b ^^^ b') = step poly c b ^^^ step poly c' b' := by
  rw [step,step,step,place_xor,← iterate_shift_xor]
  congr 1
  ac_rfl

lemma step_injective (h : poly.getLsbD 0 = true) (b : BitVec 8) :
    Function.Injective fun c => step poly c b := by
  intro c c' hcc
  exact (xor_left_inj _).mp ((shift_injective h).iterate 8 hcc)

def top (c : BitVec w) : BitVec 8 := (c >>> (w-8)).setWidth 8

def low (c : BitVec w) : BitVec w := c <<< 8 >>> 8

lemma low_xor_top (h : 8 ≤ w) (c : BitVec w) : low c ^^^ place w (top c) = c := by
  apply eq_of_getLsbD_eq
  intro i hi
  by_cases htop : 8+i < w
  · simp [low,place,top,htop,hi,show i < w-8 by omega,show ¬ 8+i < 8 by omega]
  · simp [low,place,top,htop,hi,show ¬ i < w-8 by omega,show i-(w-8) < 8 by omega,
      show w-8+(i-(w-8)) = i by omega]

lemma low_lt (h : 8 ≤ w) (c : BitVec w) : (low c).toNat < 2 ^ (w-8) := by
  rw [low,toNat_ushiftRight,Nat.shiftRight_eq_div_pow]
  apply Nat.div_lt_of_lt_mul
  rw [← pow_add,Nat.add_sub_cancel' h]
  exact isLt _

lemma low_shift (c : BitVec w) : low c <<< 8 = c <<< 8 := by
  apply eq_of_getLsbD_eq
  intro i hi
  by_cases h8 : i < 8
  · simp [low,h8]
  · simp [low,h8,hi,show 8+(i-8) = i by omega]

lemma step_eq_table (h : 8 ≤ w) {table : BitVec 8 → BitVec w}
    (htable : ∀ i, table i = (shift poly)^[8] (place w i)) (c : BitVec w) (b : BitVec 8) :
    step poly c b = c <<< 8 ^^^ table (top c ^^^ b) := by
  have hsplit : c ^^^ place w b = low c ^^^ place w (top c ^^^ b) := by
    rw [place_xor,← xor_assoc,low_xor_top h]
  rw [step,hsplit,iterate_shift_xor,iterate_shift_low (low_lt h c) (by omega),low_shift,htable]

@[simp]
lemma feed_append (c : BitVec w) (bytes bytes' : List (BitVec 8)) :
    feed poly c (bytes ++ bytes') = feed poly (feed poly c bytes) bytes' :=
  foldl_append ..

lemma feed_injective (h : poly.getLsbD 0 = true) (bytes : List (BitVec 8)) :
    Function.Injective fun c => feed poly c bytes := by
  induction bytes with
  | nil => exact injective_id
  | cons b bytes ih => exact ih.comp (step_injective h b)

/-- A step that is additive in both arguments, along two messages. -/
lemma foldl_xor {α : Type} {f : BitVec w → α → BitVec w} {g : α → α → α}
    (hf : ∀ c c' a a', f (c ^^^ c') (g a a') = f c a ^^^ f c' a') {m m' : List α}
    (h : m.length = m'.length) (c c' : BitVec w) :
    (List.zipWith g m m').foldl f (c ^^^ c') = m.foldl f c ^^^ m'.foldl f c' := by
  induction m generalizing m' c c' with
  | nil =>
    cases eq_nil_of_length_eq_zero h.symm
    rfl
  | cons a m ih =>
    cases m' with
    | nil => cases h
    | cons a' m' => rw [zipWith_cons_cons,foldl_cons,hf,ih (Nat.succ.inj h)]; rfl

lemma feed_xor {bytes bytes' : List (BitVec 8)} (h : bytes.length = bytes'.length)
    (c c' : BitVec w) :
    feed poly (c ^^^ c') (List.zipWith (· ^^^ ·) bytes bytes') =
      feed poly c bytes ^^^ feed poly c' bytes' :=
  foldl_xor step_xor h c c'

/-- A common end of two messages counts like zeros for their difference. -/
lemma feed_xor_self (bytes : List (BitVec 8)) (c c' : BitVec w) :
    feed poly c bytes ^^^ feed poly c' bytes =
      feed poly (c ^^^ c') (List.replicate bytes.length 0) := by
  have hzero : List.zipWith (· ^^^ ·) bytes bytes = List.replicate bytes.length 0 := by
    simp [zipWith_self,map_const']
  rw [← feed_xor rfl,hzero]

def bitStep (poly c : BitVec w) (b : Bool) : BitVec w := c <<< 1 ^^^ if c.msb ^^ b then poly else 0

def feedBits (poly c : BitVec w) (m : List Bool) : BitVec w := m.foldl (bitStep poly) c

def msbs (n : ℕ) (v : BitVec w) : List Bool := (List.range n).map v.getMsbD

lemma bitStep_eq (c : BitVec w) (b : Bool) :
    bitStep poly c b = shift poly c ^^^ if b then poly else 0 := by
  cases hc : c.msb <;> cases b <;> simp [bitStep,shift,hc,xor_assoc]

lemma bitStep_xor (c c' : BitVec w) (b b' : Bool) :
    bitStep poly (c ^^^ c') (b ^^ b') = bitStep poly c b ^^^ bitStep poly c' b' := by
  have hb : (if b ^^ b' then poly else 0) = (if b then poly else 0) ^^^ if b' then poly else 0 := by
    cases b <;> cases b' <;> simp
  rw [bitStep_eq,bitStep_eq,bitStep_eq,shift_xor,hb]
  ac_rfl

/-- The bits of a word that is added to the remainder before the division. -/
lemma iterate_shift_msbs {v : BitVec w} (hv : v <<< n = 0) (c : BitVec w) :
    (shift poly)^[n] (c ^^^ v) = feedBits poly c (msbs n v) := by
  induction n generalizing c v with
  | zero =>
    rw [shiftLeft_zero] at hv
    simp [hv,feedBits,msbs]
  | succ n ih =>
    have hstep : shift poly (c ^^^ v) = bitStep poly c (v.getMsbD 0) ^^^ v <<< 1 := by
      rw [shift,bitStep,msb_xor,shiftLeft_xor_distrib]
      simp only [BitVec.msb]
      ac_rfl
    have htail : (range n).map (v.getMsbD ∘ Nat.succ) = msbs n (v <<< 1) := by
      simp [msbs,comp_def]
    have hmsbs : msbs (n+1) v = v.getMsbD 0 :: msbs n (v <<< 1) := by
      rw [msbs,range_succ_eq_map,map_cons,map_map,htail]
    rw [iterate_succ_apply,hstep,hmsbs,ih (by rwa [← shiftLeft_add,add_comm])]
    rfl

lemma step_eq_feedBits (h : 8 ≤ w) (c : BitVec w) (b : BitVec 8) :
    step poly c b = feedBits poly c (msbs 8 b) := by
  have hplace : place w b <<< 8 = 0 := by
    rw [place,← shiftLeft_add,Nat.sub_add_cancel h]
    exact shiftLeft_eq_zero (Nat.le_refl w)
  have hmsbs : msbs 8 (place w b) = msbs 8 b := by
    apply map_congr_left
    intro i hi
    have hi := mem_range.mp hi
    simp [place,getMsbD_setWidth,show w-8 ≤ i+(w-8) by omega,
      show i+(w-8)+8-w = i by omega]
  rw [step,iterate_shift_msbs hplace,hmsbs]

lemma feed_eq_feedBits (h : 8 ≤ w) (c : BitVec w) (bytes : List (BitVec 8)) :
    feed poly c bytes = feedBits poly c (bytes.flatMap (msbs 8)) := by
  rw [feed,feedBits,foldl_flatMap,funext₂ (step_eq_feedBits h)]
  rfl

lemma shiftLeft_ne_zero (hc : c.getLsbD 0 = true) (hn : n < w) : c <<< n ≠ 0 := by
  intro hzero
  have hbit : (c <<< n).getLsbD n = c.getLsbD 0 := by
    rw [getLsbD_shiftLeft]
    simp [hn]
  rw [hzero,hc] at hbit
  simp at hbit

/-- A remainder that vanishes within the message was low enough to be shifted out. -/
lemma shiftLeft_of_feedBits (h : poly.getLsbD 0 = true) (hm : m.length ≤ w)
    (hfeed : feedBits poly c m = 0) : c <<< m.length = 0 := by
  induction m generalizing c with
  | nil => simpa [feedBits] using hfeed
  | cons b m ih =>
    rw [length_cons] at hm
    have hstep : bitStep poly c b <<< m.length = 0 := ih (by omega) hfeed
    cases hb : c.msb ^^ b with
    | false =>
      have hshift : bitStep poly c b = c <<< 1 := by simp [bitStep,hb]
      rwa [hshift,← shiftLeft_add,add_comm] at hstep
    | true =>
      -- the polynomial leaves its lowest power
      have hlow : (bitStep poly c b).getLsbD 0 = true := by
        rw [bitStep,hb,if_pos rfl,getLsbD_xor,h]
        simp
      exact absurd hstep (shiftLeft_ne_zero hlow (by omega))

lemma feedBits_ne (h : poly.getLsbD 0 = true) (hlen : m.length = m'.length) (hm : m.length ≤ w)
    (hne : m ≠ m') (c : BitVec w) :
    feedBits poly c m ≠ feedBits poly c m' := by
  induction m generalizing m' c with
  | nil => exact absurd (eq_nil_of_length_eq_zero hlen.symm).symm hne
  | cons b m ih =>
    cases m' with
    | nil => cases hlen
    | cons b' m' =>
      have hlen' : m.length = m'.length := Nat.succ.inj hlen
      rw [length_cons] at hm
      by_cases hb : b = b'
      · subst hb
        exact ih hlen' (by omega) (fun hc => hne (congrArg _ hc)) _
      intro hfeed
      have hdiff : bitStep poly c b ^^^ bitStep poly c b' = poly := by
        have hxor : (b ^^ b') = true := by simpa using hb
        rw [← bitStep_xor,BitVec.xor_self,hxor]
        simp [bitStep]
      have hzero : feedBits poly poly (zipWith (· ^^ ·) m m') = 0 := by
        have hadd := foldl_xor (f := bitStep poly) bitStep_xor hlen' (bitStep poly c b)
          (bitStep poly c b')
        rw [hdiff] at hadd
        exact hadd.trans (BitVec.xor_eq_zero_iff.mpr hfeed)
      have hzip : (zipWith (· ^^ ·) m m').length = m.length := by simp [hlen']
      have hshift := shiftLeft_of_feedBits h (by omega) hzero
      exact shiftLeft_ne_zero h (by omega) hshift

lemma feedBits_append (c : BitVec w) (m m' : List Bool) :
    feedBits poly c (m ++ m') = feedBits poly (feedBits poly c m) m' :=
  foldl_append ..

lemma feedBits_injective (h : poly.getLsbD 0 = true) (m : List Bool) :
    Function.Injective fun c => feedBits poly c m := by
  induction m with
  | nil => exact injective_id
  | cons b m ih =>
    refine ih.comp (g := fun c => feedBits poly c m) fun c c' hcc => ?_
    rw [bitStep_eq,bitStep_eq] at hcc
    exact shift_injective h ((xor_left_inj _).mp hcc)

lemma feedBits_ne_of_burst (h : poly.getLsbD 0 = true) (hlen : m.length = m'.length)
    (hne : m ≠ m') {p : ℕ} (hburst : ∀ i, m[i]? ≠ m'[i]? → p ≤ i ∧ i < p+w) (c : BitVec w) :
    feedBits poly c m ≠ feedBits poly c m' := by
  have hbefore : m.take p = m'.take p := by
    apply ext_getElem?
    intro i
    by_cases hi : i < p
    · rw [List.getElem?_take_of_lt hi,List.getElem?_take_of_lt hi]
      by_contra hd
      have := hburst i hd
      omega
    · rw [List.getElem?_take_eq_none (by omega),List.getElem?_take_eq_none (by omega)]
  have hbehind : (m.drop p).drop w = (m'.drop p).drop w := by
    apply ext_getElem?
    intro i
    rw [drop_drop,drop_drop,List.getElem?_drop,List.getElem?_drop]
    by_contra hd
    have := hburst _ hd
    omega
  have hwindow : (m.drop p).take w ≠ (m'.drop p).take w := by
    intro hc
    apply hne
    rw [← take_append_drop p m,← take_append_drop w (m.drop p),hbefore,hc,hbehind,
      take_append_drop,take_append_drop]
  rw [← take_append_drop p m,← take_append_drop w (m.drop p),
    ← take_append_drop p m',← take_append_drop w (m'.drop p),hbefore,hbehind]
  simp only [feedBits_append]
  exact (feedBits_injective h _).ne (feedBits_ne h (by simp [hlen]) (length_take_le ..) hwindow _)

end Crc
