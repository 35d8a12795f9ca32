import Mathlib

/-!
# Scanning the keypad

`keypad_hal.c`: the interrupt routine finds the input line of a key, the scan its output line.
-/

namespace DslG624t.Keypad

open List
open BitVec (twoPow)

/-- `KPAD_HAL_OBJ_T`. The arrays `input_line` and `output_line` hold the lines of the maps. -/
structure Hal where
  inputMap : BitVec 16
  outputMap : BitVec 16
  prevInreg : BitVec 32
  pressedKeyMask : BitVec 32

/-- `MAX_INPUT` and `MAX_OUTPUT`. -/
def maxLines : ℕ := 8

/-- What the loops of `ti_kpad_hal_init` collect. -/
def linesOf (map : BitVec 16) : List ℕ := (range 16).filter map.getLsbD

/-- The inner `none` is NULL, the outer one a write behind an array. -/
def tiKpadHalInit (alloc : Bool) (inputMap outputMap : BitVec 32) : Option (Option Hal) :=
  let s : Hal := ⟨inputMap.setWidth 16,outputMap.setWidth 16,0,0⟩
  if inputMap &&& outputMap ≠ 0 then some none
  else if !alloc then some none
  else if maxLines < (linesOf s.outputMap).length ∨ maxLines < (linesOf s.inputMap).length then none
  else some (some s)

def tiKpadHalStart (s : Hal) : Hal :=
  { s with prevInreg := s.inputMap.setWidth 32, pressedKeyMask := 0 }

def tiKpadHalIsr (dataInReg : BitVec 32) (s : Hal) : ℤ × Hal :=
  let currentInreg := dataInReg &&& s.inputMap.setWidth 32
  let s' := { s with prevInreg := currentInreg }
  if s.prevInreg = currentInreg then (0,s')
  else if s.prevInreg ≠ s.inputMap.setWidth 32 then
    if s.pressedKeyMask = 0 ∨ s.pressedKeyMask &&& ~~~currentInreg ≠ 0 then (0,s')
    else (2,{ s' with pressedKeyMask := 0 })
  else
    let i := currentInreg ^^^ s.prevInreg
    if i &&& (i-1) ≠ 0 then (0,s') else (1,{ s' with pressedKeyMask := i })

/-- The loop of `ti_kpad_hal_key_scan` over the entries of `input_line` from `i` on. There is no
result where it reads behind the array or shifts by a negative number. -/
def inputLoop : List ℕ → BitVec 32 → ℕ → Option ℕ
  | line :: next :: lines, tempInput, i =>
    if tempInput = 1 then some i
    else if next < line then none
    else inputLoop (next :: lines) (tempInput >>> (next-line)) (i+1)
  | [_], tempInput, i => if tempInput = 1 then some i else none
  | [], _, _ => none

/-- `reads i` is what `data_in_reg` shows while output line `i` is driven. -/
def outputLoop (reads : ℕ → BitVec 32) (mask : BitVec 32) : ℕ → ℕ → ℕ
  | 0, i => i
  | left+1, i => if reads i &&& mask ≠ 0 then i else outputLoop reads mask left (i+1)

def tiKpadHalKeyScan (reads : ℕ → BitVec 32) (s : Hal) : Option ℤ :=
  if s.pressedKeyMask = 0 then some (-1)
  else do
    let lines := linesOf s.inputMap
    let lines := lines ++ replicate (maxLines-lines.length) 0
    let i ← inputLoop lines (s.pressedKeyMask >>> lines.headD 0) 0
    some (i <<< 8 ||| outputLoop reads s.pressedKeyMask (linesOf s.outputMap).length 0 : ℕ)

inductive Call
  | isr (dataInReg : BitVec 32)
  | scan (reads : ℕ → BitVec 32)

def Hal.step (s : Hal) : Call → Option (ℤ × Hal)
  | .isr dataInReg => some (tiKpadHalIsr dataInReg s)
  | .scan reads => (tiKpadHalKeyScan reads s).map (·,s)

/-- Each call with its result and the state it leaves. -/
def Hal.run (s : Hal) : List Call → Option (List (Call × ℤ × Hal))
  | [] => some []
  | c :: cs => do
    let (r,s') ← s.step c
    let rest ← s'.run cs
    some ((c,r,s') :: rest)

/-- The mask is zero or one bit of the input map. -/
def Hal.OneLine (s : Hal) : Prop :=
  s.pressedKeyMask = 0 ∨ ∃ b, s.inputMap.getLsbD b = true ∧ s.pressedKeyMask = twoPow 32 b

/-- What a scan should return. -/
def Hal.Names (s : Hal) (r : ℤ) : Prop :=
  r = -1 ∨ ∃ i b o, (linesOf s.inputMap)[i]? = some b ∧ s.pressedKeyMask = twoPow 32 b ∧
    o < (linesOf s.outputMap).length ∧ r = (i <<< 8 ||| o : ℕ)

/-- A press or release that was reported. -/
def report : Call × ℤ × Hal → Option ℤ
  | (.isr _,r,_) => if r = 0 then none else some r
  | (.scan _,_,_) => none

/-- Presses (1) and releases (2) in turn, the next one given. -/
def Alternates : ℤ → List ℤ → Prop
  | _, [] => True
  | next, r :: rs => r = next ∧ Alternates (3-next) rs

def Hal.Sound (s : Hal) (cs : List Call) : Prop :=
  ∃ t, s.run cs = some t ∧ (∀ x ∈ t, x.2.2.OneLine) ∧ Alternates 1 (t.filterMap report) ∧
    ∀ reads r s', (.scan reads,r,s') ∈ t → s'.Names r

/-- No key is pressed, or its line is seen when one of the output lines is driven. -/
def Hal.Sees (s : Hal) (reads : ℕ → BitVec 32) : Prop :=
  s.pressedKeyMask ≠ 0 → ∃ o < (linesOf s.outputMap).length, reads o &&& s.pressedKeyMask ≠ 0

/-- The line of the pressed key was low when last seen. -/
def Hal.Inv (s : Hal) : Prop := s.pressedKeyMask = 0 ∨ ∃ b, s.inputMap.getLsbD b = true ∧
  s.pressedKeyMask = twoPow 32 b ∧ s.prevInreg.getLsbD b = false

def Hal.next (s : Hal) : ℤ := if s.pressedKeyMask = 0 then 1 else 2

variable {s : Hal} {reads : ℕ → BitVec 32} {b : ℕ} {r : ℤ}

lemma outputLoop_spec (reads : ℕ → BitVec 32) (mask : BitVec 32) (left i : ℕ) :
    let o := outputLoop reads mask left i
    o < i+left ∧ reads o &&& mask ≠ 0 ∨
      o = i+left ∧ ∀ k, i ≤ k → k < i+left → reads k &&& mask = 0 := by
  induction left generalizing i with
  | zero => exact .inr ⟨rfl,by omega⟩
  | succ left ih =>
    rw [outputLoop]
    split
    next hi => exact .inl ⟨by omega,hi⟩
    next hi =>
      obtain ⟨hlt,hseen⟩ | ⟨heq,hnone⟩ := ih (i+1)
      · exact .inl ⟨by omega,hseen⟩
      · refine .inr ⟨by omega,fun k hk hlt => ?_⟩
        by_cases hki : k = i
        · simpa [hki] using hi
        · exact hnone k (by omega) (by omega)

lemma twoPow_shift : ∀ b < 16, ∀ c ≤ b, twoPow 32 b >>> c = twoPow 32 (b-c) := by
  decide

lemma twoPow_ne : ∀ b < 16, twoPow 32 b ≠ 0 ∧ (b ≠ 0 → twoPow 32 b ≠ 1) := by
  decide

lemma head_le {line : ℕ} {lines : List ℕ} (h : (line :: lines).Pairwise (· < ·))
    (hb : b ∈ line :: lines) : line ≤ b := by
  obtain rfl | hmem := mem_cons.mp hb
  · exact le_refl _
  · exact le_of_lt ((pairwise_cons.mp h).1 b hmem)

lemma inputLoop_eq {line i : ℕ} {lines : List ℕ} (hsorted : (line :: lines).Pairwise (· < ·))
    (hb : b < 16) (hi : (line :: lines)[i]? = some b) (pad : List ℕ) (n : ℕ) :
    inputLoop (line :: (lines ++ pad)) (twoPow 32 (b-line)) n = some (n+i) := by
  induction i generalizing line lines n with
  | zero =>
    obtain rfl : line = b := by simpa using hi
    cases lines ++ pad <;> simp [inputLoop,twoPow]
  | succ i ih =>
    cases lines with
    | nil => simp at hi
    | cons next lines =>
      obtain ⟨hfirst,hrest⟩ := pairwise_cons.mp hsorted
      have hline : line < next := hfirst next mem_cons_self
      have hnext : next ≤ b := head_le hrest (mem_of_getElem? hi)
      have hshift : twoPow 32 (b-line) >>> (next-line) = twoPow 32 (b-next) := by
        rw [twoPow_shift _ (by omega) _ (by omega)]
        congr 1
        omega
      rw [cons_append,inputLoop,if_neg ((twoPow_ne _ (by omega)).2 (by omega)),
        if_neg (by omega),hshift,ih hrest hi]
      congr 1
      omega

/-- The scan ends, and finds the input line. -/
lemma scan_eq (reads : ℕ → BitVec 32) (hb : s.inputMap.getLsbD b = true)
    (hm : s.pressedKeyMask = twoPow 32 b) : ∃ i, (linesOf s.inputMap)[i]? = some b ∧
    tiKpadHalKeyScan reads s = some
      (i <<< 8 ||| outputLoop reads s.pressedKeyMask (linesOf s.outputMap).length 0 : ℕ) := by
  have hlt : b < 16 := BitVec.lt_of_getLsbD hb
  have hmem : b ∈ linesOf s.inputMap := mem_filter.mpr ⟨mem_range.mpr hlt,hb⟩
  have hsorted : (linesOf s.inputMap).Pairwise (· < ·) := pairwise_lt_range.filter _
  obtain ⟨i,hi⟩ := getElem?_of_mem hmem
  refine ⟨i,hi,?_⟩
  rw [tiKpadHalKeyScan,if_neg (hm ▸ (twoPow_ne b hlt).1)]
  cases hline : linesOf s.inputMap with
  | nil => simp [hline] at hi
  | cons line lines =>
    rw [hline] at hi hsorted hmem
    simp only [cons_append,headD_cons]
    rw [hm,twoPow_shift b hlt line (head_le hsorted hmem),inputLoop_eq hsorted hlt hi]
    simp

lemma scan_names_iff (h : s.Inv) (hr : tiKpadHalKeyScan reads s = some r) :
    s.Names r ↔ s.Sees reads := by
  obtain h0 | ⟨b,hb,hm,-⟩ := h
  · rw [tiKpadHalKeyScan,if_pos h0] at hr
    cases hr
    exact iff_of_true (.inl rfl) fun hne => absurd h0 hne
  obtain ⟨i,hi,hscan⟩ := scan_eq reads hb hm
  obtain rfl := Option.some.inj (hscan.symm.trans hr)
  have hspec := outputLoop_spec reads s.pressedKeyMask (linesOf s.outputMap).length 0
  have hfew : (linesOf s.outputMap).length ≤ 16 := length_filter_le _ (range 16)
  unfold Hal.Names Hal.Sees
  generalize outputLoop reads s.pressedKeyMask (linesOf s.outputMap).length 0 = o at *
  have hcode (i : ℕ) {o : ℕ} (ho : o ≤ 16) : i <<< 8 ||| o = i*256+o := by
    rw [← Nat.shiftLeft_add_eq_or_of_lt (by omega),Nat.shiftLeft_eq]
  constructor
  · rintro (hneg | ⟨i',b',o',-,-,hlt,heq⟩) hne
    · omega
    · obtain ⟨hlt',hseen⟩ | ⟨hend,-⟩ := hspec
      · exact ⟨o,by omega,hseen⟩
      · rw [hcode i (by omega),hcode i' (by omega)] at heq
        omega
  · intro hseen
    obtain ⟨o',hlt,hread⟩ := hseen (hm ▸ (twoPow_ne b (BitVec.lt_of_getLsbD hb)).1)
    obtain ⟨hlt',-⟩ | ⟨-,hnone⟩ := hspec
    · exact .inr ⟨i,b,o,hi,hm,by omega,rfl⟩
    · exact absurd (hnone o' (by omega) (by omega)) hread

lemma exists_twoPow {x : BitVec 32} (h0 : x ≠ 0) (h : x &&& (x-1) = 0) :
    ∃ b < 32, x = twoPow 32 b := by
  have hn : x.toNat ≠ 0 := fun hn => h0 (BitVec.eq_of_toNat_eq hn)
  have hand : x.toNat &&& (x.toNat-1) = 0 := by
    have hsub : (x-1).toNat = x.toNat-1 := by bv_omega
    rw [← hsub,← BitVec.toNat_and,h]
    rfl
  have hpow : x.toNat.isPowerOfTwo := by
    apply Classical.byContradiction
    intro hp
    have hbit := Nat.and_sub_one_testBit_log2 hn hp
    simp [hand] at hbit
  obtain ⟨b,hb⟩ := hpow
  have hlt : b < 32 := (Nat.pow_lt_pow_iff_right (by decide)).mp (hb ▸ x.isLt)
  exact ⟨b,hlt,BitVec.eq_of_toNat_eq (by rw [hb,BitVec.toNat_twoPow_of_lt hlt])⟩

/-- The interrupt routine reports nothing, or what is next. -/
lemma isr_spec (h : s.Inv) (dataInReg : BitVec 32) : let r := tiKpadHalIsr dataInReg s
    r.2.Inv ∧ (r.1 = 0 ∧ r.2.next = s.next ∨ r.1 = s.next ∧ r.2.next = 3-s.next) := by
  dsimp only [tiKpadHalIsr]
  obtain h0 | ⟨b,hb,hm,hprev⟩ := h
  · have hnext : s.next = 1 := if_pos h0
    split
    · exact ⟨.inl h0,.inl ⟨rfl,rfl⟩⟩
    next hne =>
    split
    · rw [if_pos (.inl h0)]
      exact ⟨.inl h0,.inl ⟨rfl,rfl⟩⟩
    next hmap =>
    split
    · exact ⟨.inl h0,.inl ⟨rfl,rfl⟩⟩
    next hone =>
    obtain ⟨b,hlt,hb⟩ := exists_twoPow (fun h => hne (BitVec.xor_eq_zero_iff.mp h).symm)
      (Classical.not_not.mp hone)
    have hbit := congrArg (BitVec.getLsbD · b) hb
    rw [Classical.not_not.mp hmap] at hbit
    simp only [BitVec.getLsbD_xor,BitVec.getLsbD_and,BitVec.getLsbD_setWidth,
      BitVec.getLsbD_twoPow,hlt] at hbit
    have hin : s.inputMap.getLsbD b = true ∧ dataInReg.getLsbD b = false := by simpa using hbit
    have hmask : twoPow 32 b ≠ 0 := (twoPow_ne b (BitVec.lt_of_getLsbD hin.1)).1
    refine ⟨.inr ⟨b,hin.1,hb,by simp [hin.2]⟩,.inr ⟨hnext.symm,?_⟩⟩
    rw [hnext,Hal.next,hb,if_neg hmask]
    rfl
  · have hlt : b < 16 := BitVec.lt_of_getLsbD hb
    have hmask : s.pressedKeyMask ≠ 0 := hm ▸ (twoPow_ne b hlt).1
    have hnext : s.next = 2 := if_neg hmask
    have hmap : s.prevInreg ≠ s.inputMap.setWidth 32 := by
      intro h
      rw [h] at hprev
      simp [hb] at hprev
      omega
    split
    next heq => exact ⟨.inr ⟨b,hb,hm,heq ▸ hprev⟩,.inl ⟨rfl,rfl⟩⟩
    split
    next hlow =>
      refine ⟨.inr ⟨b,hb,hm,?_⟩,.inl ⟨rfl,rfl⟩⟩
      have hand := hlow.resolve_left hmask
      rw [hm,BitVec.twoPow_and] at hand
      have hbit := (ite_ne_right_iff.mp hand).1
      rw [BitVec.getLsbD_not,Bool.and_eq_true,Bool.not_eq_true'] at hbit
      exact hbit.2
    next => exact ⟨.inl rfl,.inr ⟨hnext.symm,by rw [hnext]; rfl⟩⟩

lemma run_spec (h : s.Inv) (cs : List Call) : ∃ t, s.run cs = some t ∧ (∀ x ∈ t, x.2.2.Inv) ∧
    Alternates s.next (t.filterMap report) ∧
    ∀ reads r s', (.scan reads,r,s') ∈ t → tiKpadHalKeyScan reads s' = some r := by
  induction cs generalizing s with
  | nil => exact ⟨[],rfl,by simp,trivial,by simp⟩
  | cons c cs ih =>
    cases c with
    | isr dataInReg =>
      obtain ⟨hinv,hr⟩ := isr_spec h dataInReg
      obtain ⟨t,ht,hall,halt,hscan⟩ := ih hinv
      refine ⟨(.isr dataInReg,tiKpadHalIsr dataInReg s) :: t,by simp [Hal.run,Hal.step,ht],
        forall_mem_cons.mpr ⟨hinv,hall⟩,?_,by simpa using hscan⟩
      obtain ⟨h0,hnext⟩ | ⟨hnow,hnext⟩ := hr
      · rw [hnext] at halt
        simpa [filterMap_cons,report,h0] using halt
      · have hne : s.next ≠ 0 := by
          unfold Hal.next
          split <;> decide
        rw [hnext] at halt
        simpa [filterMap_cons,report,hnow,hne] using ⟨rfl,halt⟩
    | scan reads =>
      obtain ⟨r,hr⟩ : ∃ r, tiKpadHalKeyScan reads s = some r := by
        obtain h0 | ⟨b,hb,hm,-⟩ := h
        · exact ⟨-1,if_pos h0⟩
        · obtain ⟨i,-,hscan⟩ := scan_eq reads hb hm
          exact ⟨_,hscan⟩
      obtain ⟨t,ht,hall,halt,hscan⟩ := ih h
      refine ⟨(.scan reads,r,s) :: t,by simp [Hal.run,Hal.step,hr,ht],
        forall_mem_cons.mpr ⟨h,hall⟩,halt,?_⟩
      rintro reads' r' s' (_ | ⟨_,hmem⟩)
      · exact hr
      · exact hscan reads' r' s' hmem

/-- The interrupt routine always keeps one line and reports in turn; a scan names a key exactly if
it sees its line, as long as there are not more output lines than the array holds. -/
theorem keypad_sound_iff {inputMap outputMap : BitVec 32} (hmaps : inputMap &&& outputMap = 0)
    (hin : (linesOf (inputMap.setWidth 16)).length ≤ maxLines) (cs : List Call) :
    (∃ s, tiKpadHalInit true inputMap outputMap = some (some s) ∧ (tiKpadHalStart s).Sound cs) ↔
      (linesOf (outputMap.setWidth 16)).length ≤ maxLines ∧
        ∀ s t, tiKpadHalInit true inputMap outputMap = some (some s) →
          (tiKpadHalStart s).run cs = some t →
          ∀ reads r s', (.scan reads,r,s') ∈ t → s'.Sees reads := by
  by_cases hout : (linesOf (outputMap.setWidth 16)).length ≤ maxLines
  swap
  · simp [tiKpadHalInit,hmaps,hout]
  have hinit : tiKpadHalInit true inputMap outputMap =
      some (some ⟨inputMap.setWidth 16,outputMap.setWidth 16,0,0⟩) := by
    simp [tiKpadHalInit,hmaps,hout,hin]
  simp only [hinit,hout,true_and,Option.some.injEq,exists_eq_left']
  obtain ⟨t,ht,hall,halt,hscan⟩ := run_spec
    (s := tiKpadHalStart ⟨inputMap.setWidth 16,outputMap.setWidth 16,0,0⟩) (.inl rfl) cs
  constructor
  · rintro ⟨t',ht',-,-,hnames⟩ _ t'' rfl ht'' reads r s' hmem
    cases ht.symm.trans ht'
    cases ht.symm.trans ht''
    exact (scan_names_iff (hall _ hmem) (hscan _ _ _ hmem)).mp (hnames _ _ _ hmem)
  · intro hseen
    refine ⟨t,ht,fun x hx => ?_,halt,fun reads r s' hmem => ?_⟩
    · exact (hall x hx).imp_right fun ⟨b,hb,hm,_⟩ => ⟨b,hb,hm⟩
    · exact (scan_names_iff (hall _ hmem) (hscan _ _ _ hmem)).mpr (hseen _ t rfl ht _ _ _ hmem)

/-- Two lines each way, and the key at the first input and the second output. -/
theorem keypad_sound_key : ∃ s, tiKpadHalInit true 0x300 3 = some (some s) ∧
    (tiKpadHalStart s).Sound [.isr 0x200,.scan fun i => if i = 1 then 0x100 else 0,.isr 0x300] := by
  refine (keypad_sound_iff (by decide) (by decide) _).mpr ⟨by decide,?_⟩
  rintro s t ⟨⟩ ⟨⟩ reads r s' (_ | ⟨_,_ | ⟨_,_ | ⟨_,⟨⟩⟩⟩⟩) -
  exact ⟨1,by decide,by decide⟩

/-- The key bounces: no output line shows it, and the scan names output line 2 of 0 and 1. -/
theorem keypad_sound_bounce : ¬ ∃ s, tiKpadHalInit true 0x300 3 = some (some s) ∧
    (tiKpadHalStart s).Sound [.isr 0x200,.scan fun _ => 0] := by
  rintro ⟨s,⟨⟩,t,⟨⟩,-,-,hnames⟩
  have hsees := (scan_names_iff (.inr ⟨8,by decide,by decide,by decide⟩) rfl).mp
    (hnames _ _ _ (mem_cons_of_mem _ mem_cons_self))
  obtain ⟨o,-,ho⟩ := hsees (by decide)
  simp at ho

end DslG624t.Keypad
