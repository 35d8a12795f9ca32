import DslG624t.Intc.Tables

/-!
# The unified secondary interrupt

`avalanche_unified_secondary_irq_handler` acknowledges every pending bit at once and then walks
through the bits.
-/

namespace DslG624t.Intc

open BitVec

/-- What the handler does: the write of `excr`, the tests of single bits, and the calls. -/
inductive SecEvent
  | clear (bits : BitVec 32)
  | look (irq : ℕ)
  | call (irq handler devId : ℕ)
  deriving DecidableEq

abbrev SecTable := ℕ → Option Irqaction

lemma toNat_shiftRight_one_lt {status : BitVec 32} (h : status ≠ 0) :
    (status >>> 1).toNat < status.toNat := by
  have hpos : status.toNat ≠ 0 := by
    intro h0
    exact h (eq_of_toNat_eq h0)
  rw [toNat_ushiftRight,Nat.shiftRight_eq_div_pow]
  omega

/-- `while(status)`. -/
def secondaryLoop (table : SecTable) (irq : ℕ) (status : BitVec 32) : List SecEvent :=
  if _h : status = 0 then []
  else if status &&& 1 ≠ 0 then
    match table (irq-avalancheIntEndPrimary) with
    | none => [.look irq]
    | some action =>
      .look irq :: .call irq action.handler action.devId ::
        secondaryLoop table (irq+1) (status >>> 1)
  else .look irq :: secondaryLoop table (irq+1) (status >>> 1)
termination_by status.toNat
decreasing_by all_goals exact toNat_shiftRight_one_lt _h

def avalancheUnifiedSecondaryIrqHandler (table : SecTable) (exsr : BitVec 32) : List SecEvent :=
  .clear exsr :: secondaryLoop table avalancheIntEndPrimary exsr

def SecEvent.isCall (irq : ℕ) : SecEvent → Bool
  | .call n _ _ => n = irq
  | _ => false

def Cleared (tr : List SecEvent) (i : ℕ) : Prop :=
  ∃ bits, SecEvent.clear bits ∈ tr ∧ bits.getLsbD i = true

/-- The handlers of the pending bits are called, each once and with its own argument, and only
bits that were looked at are cleared. -/
structure Serves (table : SecTable) (exsr : BitVec 32) (tr : List SecEvent) : Prop where
  calls : ∀ i action, exsr.getLsbD i = true → table i = some action →
    tr.filter (SecEvent.isCall (avalancheIntEndPrimary+i)) =
      [.call (avalancheIntEndPrimary+i) action.handler action.devId]
  clears : ∀ i, Cleared tr i → SecEvent.look (avalancheIntEndPrimary+i) ∈ tr

lemma and_one_ne_zero_iff (status : BitVec 32) : status &&& 1 ≠ 0 ↔ status.getLsbD 0 = true := by
  constructor
  · intro h
    rw [← Bool.not_eq_false]
    intro h0
    apply h
    apply eq_of_getLsbD_eq
    intro i hi
    rw [getLsbD_and]
    cases i with
    | zero =>
      rw [h0,Bool.false_and]
      rfl
    | succ i => simp
  intro h h0
  have hbit : (status &&& 1).getLsbD 0 = false := by
    rw [h0]
    rfl
  rw [getLsbD_and,h] at hbit
  exact absurd hbit (by decide)

def RegisteredBelow (table : SecTable) (n : ℕ) (status : BitVec 32) (i : ℕ) : Prop :=
  ∀ k < i, status.getLsbD k = true → (table (n+k)).isSome = true

lemma registeredBelow_zero (table : SecTable) (n : ℕ) (status : BitVec 32) :
    RegisteredBelow table n status 0 := by
  intro k hk
  exact absurd hk (Nat.not_lt_zero k)

lemma registeredBelow_succ_iff (table : SecTable) (n : ℕ) (status : BitVec 32) (i : ℕ) :
    RegisteredBelow table n status (i+1) ↔
      (status.getLsbD 0 = true → (table n).isSome = true) ∧
        RegisteredBelow table (n+1) (status >>> 1) i := by
  constructor
  · intro h
    refine ⟨h 0 (Nat.succ_pos i),?_⟩
    intro k hk hbit
    rw [getLsbD_ushiftRight] at hbit
    have := h (1+k) (by omega) hbit
    rwa [← add_assoc] at this
  rintro ⟨h0,h⟩ k hk hbit
  cases k with
  | zero => exact h0 hbit
  | succ k =>
    have := h k (by omega) (by rwa [getLsbD_ushiftRight,add_comm])
    rwa [add_assoc,add_comm 1 k] at this

section Walk

variable (table : SecTable) {n irq : ℕ} {status : BitVec 32} {action : Irqaction}

lemma secondaryLoop_zero (irq : ℕ) : secondaryLoop table irq 0#32 = [] := by
  rw [secondaryLoop]
  rfl

lemma secondaryLoop_clear (h : status ≠ 0) (hbit : status.getLsbD 0 = false) :
    secondaryLoop table irq status =
      .look irq :: secondaryLoop table (irq+1) (status >>> 1) := by
  rw [secondaryLoop,dif_neg h,if_neg]
  rw [and_one_ne_zero_iff,hbit]
  exact Bool.false_ne_true

lemma secondaryLoop_none (h : status ≠ 0) (hbit : status.getLsbD 0 = true) (hn : table n = none) :
    secondaryLoop table (avalancheIntEndPrimary+n) status =
      [.look (avalancheIntEndPrimary+n)] := by
  rw [secondaryLoop,dif_neg h,if_pos ((and_one_ne_zero_iff status).mpr hbit),
    Nat.add_sub_cancel_left,hn]

lemma secondaryLoop_some (h : status ≠ 0) (hbit : status.getLsbD 0 = true)
    (hn : table n = some action) :
    secondaryLoop table (avalancheIntEndPrimary+n) status =
      .look (avalancheIntEndPrimary+n) ::
        .call (avalancheIntEndPrimary+n) action.handler action.devId ::
          secondaryLoop table (avalancheIntEndPrimary+n+1) (status >>> 1) := by
  rw [secondaryLoop,dif_neg h,if_pos ((and_one_ne_zero_iff status).mpr hbit),
    Nat.add_sub_cancel_left,hn]

lemma filter_secondaryLoop_above (n : ℕ) (status : BitVec 32) {p : SecEvent → Bool}
    (hlook : p (.look (avalancheIntEndPrimary+n)) = false)
    (hcall : ∀ h d, p (.call (avalancheIntEndPrimary+n) h d) = false) :
    (secondaryLoop table (avalancheIntEndPrimary+n) status).filter p =
      if status.getLsbD 0 = true → (table n).isSome = true then
        (secondaryLoop table (avalancheIntEndPrimary+(n+1)) (status >>> 1)).filter p
      else [] := by
  by_cases h : status = 0
  · subst h
    simp [secondaryLoop_zero]
  cases hbit : status.getLsbD 0 with
  | false =>
    rw [secondaryLoop_clear table h hbit,if_pos (by simp),List.filter_cons_of_neg (by simp [hlook])]
    rfl
  | true =>
    cases hn : table n with
    | none =>
      rw [secondaryLoop_none table h hbit hn,if_neg (by simp)]
      simp [hlook]
    | some action =>
      rw [secondaryLoop_some table h hbit hn,if_pos (by simp),
        List.filter_cons_of_neg (by simp [hlook]),List.filter_cons_of_neg (by simp [hcall])]
      rfl

lemma exists_getLsbD_iff (status : BitVec 32) : (∃ j, status.getLsbD j = true) ↔ status ≠ 0 := by
  constructor
  · rintro ⟨j,hj⟩ rfl
    simp at hj
  intro h
  apply Classical.byContradiction
  intro hno
  apply h
  apply eq_of_getLsbD_eq
  intro i hi
  have hi' : status.getLsbD i ≠ true := fun hbit => hno ⟨i,hbit⟩
  simpa using hi'

lemma look_mem_secondaryLoop_iff (i n : ℕ) (status : BitVec 32) :
    SecEvent.look (avalancheIntEndPrimary+(n+i)) ∈
      secondaryLoop table (avalancheIntEndPrimary+n) status ↔
      (∃ j, status.getLsbD (i+j) = true) ∧ RegisteredBelow table n status i := by
  induction i generalizing n status with
  | zero =>
    have hreg := registeredBelow_zero table n status
    by_cases h : status = 0
    · subst h
      simp [secondaryLoop_zero]
    have hex := (exists_getLsbD_iff status).mpr h
    have hmem : SecEvent.look (avalancheIntEndPrimary+n) ∈
        secondaryLoop table (avalancheIntEndPrimary+n) status := by
      rw [secondaryLoop,dif_neg h]
      split
      · split <;> simp
      · simp
    simpa [hreg,hex] using hmem
  | succ i ih =>
    have hfilter := filter_secondaryLoop_above table n status
      (p := fun e => e = SecEvent.look (avalancheIntEndPrimary+(n+(i+1))))
      (by simp) (by simp)
    have hmem : ∀ l : List SecEvent, ∀ e, e ∈ l ↔ l.filter (fun x => x = e) ≠ [] := by
      intro l e
      simp
    have hstep : SecEvent.look (avalancheIntEndPrimary+(n+(i+1))) ∈
        secondaryLoop table (avalancheIntEndPrimary+n) status ↔
        (status.getLsbD 0 = true → (table n).isSome = true) ∧
          SecEvent.look (avalancheIntEndPrimary+(n+(i+1))) ∈
            secondaryLoop table (avalancheIntEndPrimary+(n+1)) (status >>> 1) := by
      rw [hmem,hmem,hfilter]
      split
      next h => exact (and_iff_right h).symm
      next h => exact iff_of_false (fun hne => hne rfl) (fun hand => h hand.1)
    have hbits : (∃ j, (status >>> 1).getLsbD (i+j) = true) ↔
        ∃ j, status.getLsbD (i+1+j) = true := by
      have : ∀ j, 1+(i+j) = i+1+j := by omega
      simp only [getLsbD_ushiftRight,this]
    have hrest := ih (n+1) (status >>> 1)
    rw [add_assoc n 1 i,add_comm 1 i,hbits] at hrest
    rw [hstep,hrest,registeredBelow_succ_iff,and_left_comm]

lemma filter_isCall_secondaryLoop_of_lt (status : BitVec 32) (h : n < irq) :
    (secondaryLoop table irq status).filter (SecEvent.isCall n) = [] := by
  fun_induction secondaryLoop table irq status with
  | case1 irq => rfl
  | case2 irq status h0 hbit hn => rfl
  | case3 irq status h0 hbit action hn ih =>
    have hne : irq ≠ n := ne_of_gt h
    simp [SecEvent.isCall,hne,ih (by omega)]
  | case4 irq status h0 hbit ih => simp [SecEvent.isCall,ih (by omega)]

lemma clear_notMem_secondaryLoop (bits : BitVec 32) (irq : ℕ) (status : BitVec 32) :
    SecEvent.clear bits ∉ secondaryLoop table irq status := by
  fun_induction secondaryLoop table irq status with
  | case1 irq => simp
  | case2 irq status h0 hbit hn => simp
  | case3 irq status h0 hbit action hn ih => simp [ih]
  | case4 irq status h0 hbit ih => simp [ih]

lemma filter_isCall_secondaryLoop_iff {i n : ℕ} (hbit : status.getLsbD i = true)
    (ha : table (n+i) = some action) :
    (secondaryLoop table (avalancheIntEndPrimary+n) status).filter
      (SecEvent.isCall (avalancheIntEndPrimary+(n+i))) =
      [.call (avalancheIntEndPrimary+(n+i)) action.handler action.devId] ↔
      RegisteredBelow table n status i := by
  induction i generalizing n status with
  | zero =>
    have h : status ≠ 0 := (exists_getLsbD_iff status).mp ⟨0,hbit⟩
    have hrest := filter_isCall_secondaryLoop_of_lt table (status >>> 1)
      (Nat.lt_succ_self (avalancheIntEndPrimary+n))
    rw [add_zero] at ha ⊢
    rw [secondaryLoop_some table h hbit ha]
    simp only [registeredBelow_zero,iff_true]
    simpa [SecEvent.isCall] using hrest
  | succ i ih =>
    have hstep := filter_secondaryLoop_above table n status
      (p := SecEvent.isCall (avalancheIntEndPrimary+(n+(i+1)))) rfl
      (by simp [SecEvent.isCall])
    have ha' : table (n+1+i) = some action := by rwa [add_assoc,add_comm 1 i]
    have hbit' : (status >>> 1).getLsbD i = true := by
      rwa [getLsbD_ushiftRight,add_comm]
    have hrest := ih hbit' ha'
    rw [add_assoc n 1 i,add_comm 1 i] at hrest
    rw [registeredBelow_succ_iff,hstep]
    split
    next h => exact hrest.trans (and_iff_right h).symm
    next h => exact iff_of_false (by simp) (fun hand => h hand.1)

end Walk

/-- A pending bit without a handler that has pending bits above it makes the handler return
before they are looked at, and they are cleared all the same. -/
theorem avalancheUnifiedSecondaryIrqHandler_serves_iff (table : SecTable) (exsr : BitVec 32) :
    Serves table exsr (avalancheUnifiedSecondaryIrqHandler table exsr) ↔
      ∀ i j, exsr.getLsbD i = true → table i = none → exsr.getLsbD j = true → j ≤ i := by
  have hlook : ∀ i, SecEvent.look (avalancheIntEndPrimary+i) ∈
      avalancheUnifiedSecondaryIrqHandler table exsr ↔
        (∃ j, exsr.getLsbD (i+j) = true) ∧ RegisteredBelow table 0 exsr i := by
    intro i
    have := look_mem_secondaryLoop_iff table i 0 exsr
    rw [zero_add] at this
    rw [← this]
    simp [avalancheUnifiedSecondaryIrqHandler]
  have hcleared : ∀ i, Cleared (avalancheUnifiedSecondaryIrqHandler table exsr) i ↔
      exsr.getLsbD i = true := by
    intro i
    simp [Cleared,avalancheUnifiedSecondaryIrqHandler,clear_notMem_secondaryLoop]
  constructor
  · intro h i j hi hn hj
    apply Nat.le_of_not_lt
    intro hlt
    have hreg := ((hlook j).mp (h.clears j ((hcleared j).mpr hj))).2 i hlt hi
    rw [zero_add,hn] at hreg
    exact Bool.false_ne_true hreg
  intro h
  have hreg : ∀ j, exsr.getLsbD j = true → RegisteredBelow table 0 exsr j := by
    intro j hj k hk hbit
    rw [zero_add,Option.isSome_iff_ne_none]
    intro hn
    have := h k j hbit hn hj
    omega
  refine ⟨?_,?_⟩
  · intro i action hbit ha
    have hcall := (filter_isCall_secondaryLoop_iff table hbit
      (by rwa [zero_add])).mpr (hreg i hbit)
    rw [zero_add] at hcall
    exact hcall
  · intro i hi
    have hbit := (hcleared i).mp hi
    exact (hlook i).mpr ⟨⟨0,hbit⟩,hreg i hbit⟩

/-- Bit 0 is pending and has no handler; the handler of bit 1, which is pending too, is not
called, and its bit is cleared. -/
theorem pending_secondary_lost :
    ¬ Serves (fun i => if i = 1 then some ⟨1,0,0,7⟩ else none) 3#32
      (avalancheUnifiedSecondaryIrqHandler (fun i => if i = 1 then some ⟨1,0,0,7⟩ else none)
        3#32) := by
  intro h
  have hcall := h.calls 1 ⟨1,0,0,7⟩ (by decide) rfl
  rw [avalancheUnifiedSecondaryIrqHandler,secondaryLoop] at hcall
  revert hcall
  decide

end DslG624t.Intc
