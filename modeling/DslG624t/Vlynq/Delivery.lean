import DslG624t.Vlynq.RootIsr

/-!
# Interrupts that are lost

Each acknowledgement of `PAL_vlynqRootIsr` clears all that is pending.
-/

namespace DslG624t.Vlynq

open List

variable {r : Root} {a : Arrivals}

section New

variable {entry : BitVec 32} {p : BitVec 32} {j m : ℕ} {c : ℕ → Prop}

lemma intPriority_of_eq_zero (h : p = 0#32) : intPriority p &&& 0x80000000#32 ≠ 0#32 := by
  rw [intPriority,if_pos h]
  decide

lemma intPriority_of_ne_zero (h : p ≠ 0#32) :
    intPriority p &&& 0x80000000#32 = 0#32 ∧
      (intPriority p &&& 0x1f#32).toNat = p.ctz.toNat := by
  have hlt : p.ctz < 32#32 := BitVec.ctz_lt_iff_ne_zero.mpr h
  have hall : ∀ k : Fin 32, BitVec.ofNat 32 k &&& 0x80000000#32 = 0#32 ∧
      (BitVec.ofNat 32 k &&& 0x1f#32).toNat = k := by decide
  have hk := hall ⟨p.ctz.toNat,hlt⟩
  rw [BitVec.ofNat_toNat,BitVec.setWidth_eq] at hk
  rwa [intPriority,if_neg h]

variable (hrev : 0x00010200#32 ≤ r.revision) {fuel n : ℕ} {map : BitVec 32}

include hrev

omit hrev in
lemma atStatus_eq (n : ℕ) : atStatus a entry n =
    carry a entry n ||| a.revision n ||| a.priority n ||| a.status n := rfl

omit hrev in
lemma getLsbD_atStatus_ctz (h : atPriority a entry m ≠ 0#32) :
    (atStatus a entry m).getLsbD (atPriority a entry m).ctz.toNat = true := by
  rw [atStatus,BitVec.getLsbD_or,BitVec.getLsbD_true_ctz_of_ne_zero h,Bool.true_or]

def Rounds (a : Arrivals) (entry : BitVec 32) (n m : ℕ) : Prop :=
  n ≤ m ∧ m < 32 ∧ ∀ k, n ≤ k → k ≤ m → atPriority a entry k ≠ 0#32

omit hrev in
lemma rounds_zero : Rounds a entry 0 m ↔ Round a entry m :=
  ⟨fun h => ⟨h.2.1,fun k => h.2.2 k (Nat.zero_le k)⟩,
    fun h => ⟨Nat.zero_le m,h.1,fun k _ => h.2 k⟩⟩

omit hrev in
lemma not_rounds_of_eq_zero (h : atPriority a entry n = 0#32) : ¬ Rounds a entry n m :=
  fun hm => hm.2.2 n (le_refl n) hm.1 h

omit hrev in
lemma rounds_succ (h : atPriority a entry n ≠ 0#32) (hn : n < 32) :
    Rounds a entry n m ↔ m = n ∨ Rounds a entry (n+1) m := by
  constructor
  · rintro ⟨hnm,hm,hk⟩
    obtain rfl | hlt := eq_or_lt_of_le hnm
    · exact .inl rfl
    · exact .inr ⟨hlt,hm,fun k hk' => hk k (Nat.le_of_succ_le hk')⟩
  rintro (rfl | ⟨hnm,hm,hk⟩)
  · refine ⟨le_refl m,hn,fun k hk hk' => ?_⟩
    rwa [le_antisymm hk' hk]
  · refine ⟨Nat.le_of_succ_le hnm,hm,fun k hk' hk'' => ?_⟩
    obtain rfl | hlt := eq_or_lt_of_le hk'
    · exact h
    · exact hk k hlt hk''

abbrev eventsFrom (r : Root) (a : Arrivals) (map entry : BitVec 32) (fuel n : ℕ) : List Event :=
  (rootIsrLoop r a fuel n map (carry a entry n)).1

lemma eventsFrom_stop (h : atPriority a entry n = 0#32) :
    eventsFrom r a map entry (fuel+1) n = [.arrive (a.revision n),.arrive (a.priority n)] := by
  rw [eventsFrom,rootIsrLoop,if_pos hrev]
  dsimp only
  rw [← atPriority,if_pos (intPriority_of_eq_zero h)]

lemma eventsFrom_take (h : atPriority a entry n ≠ 0#32) :
    eventsFrom r a map entry (fuel+1) n =
      .arrive (a.revision n) :: .arrive (a.priority n) :: .arrive (a.status n) ::
        .arrive (a.write n) :: .acknowledge (atStatus a entry n) ::
          .dispatch (r.line (atPriority a entry n).ctz.toNat) ::
            eventsFrom r a map entry fuel (n+1) := by
  obtain ⟨hbit,hirq⟩ := intPriority_of_ne_zero h
  rw [eventsFrom,rootIsrLoop,if_pos hrev]
  dsimp only
  rw [← atPriority,if_neg (by rw [hbit]; simp),hirq,serve]
  dsimp only
  rw [← atStatus,or_bit (getLsbD_atStatus_ctz h),writeIntStatus_or _ fun _ => id]
  rfl

lemma dispatched_new (hj : j < 32) (hn : n+fuel = 32) :
    .dispatch (r.line j) ∈ eventsFrom r a map entry fuel n ↔
      ∃ m, Rounds a entry n m ∧ (atPriority a entry m).ctz.toNat = j := by
  induction fuel generalizing n with
  | zero =>
    refine iff_of_false (not_mem_nil) ?_
    rintro ⟨m,⟨hnm,hm,-⟩,-⟩
    omega
  | succ fuel ih =>
    by_cases h : atPriority a entry n = 0#32
    · rw [eventsFrom_stop hrev h]
      refine iff_of_false (by simp) ?_
      rintro ⟨m,hm,-⟩
      exact not_rounds_of_eq_zero h hm
    have hlt : (atPriority a entry n).ctz.toNat < 32 := BitVec.ctz_lt_iff_ne_zero.mpr h
    rw [eventsFrom_take hrev h]
    simp only [mem_cons,reduceCtorEq,false_or,Event.dispatch.injEq]
    rw [ih (by omega)]
    constructor
    · rintro (heq | ⟨m,hm,hmj⟩)
      · exact ⟨n,(rounds_succ h (by omega)).mpr (.inl rfl),(line_inj hj hlt heq).symm⟩
      · exact ⟨m,(rounds_succ h (by omega)).mpr (.inr hm),hmj⟩
    · rintro ⟨m,hm,hmj⟩
      obtain rfl | hm := (rounds_succ h (by omega)).mp hm
      · exact .inl (by rw [hmj])
      · exact .inr ⟨m,hm,hmj⟩

/-- The interrupts `c` and those that arrive in round `n`, and in later rounds all that are
pending at the acknowledgement. -/
def DueFrom (a : Arrivals) (entry : BitVec 32) (n : ℕ) (c : ℕ → Prop) (m j : ℕ) : Prop :=
  (atStatus a entry m).getLsbD j = true ∧ (m = n → c j ∨
    (a.revision n ||| a.priority n ||| a.status n ||| a.write n).getLsbD j = true)

omit hrev in
lemma dueFrom_carry :
    DueFrom a entry n (fun j => (carry a entry n).getLsbD j = true) m j ↔
      (atStatus a entry m).getLsbD j = true := by
  refine and_iff_left_of_imp fun h hm => ?_
  subst hm
  rw [atStatus_eq] at h
  simp only [BitVec.getLsbD_or,Bool.or_eq_true] at h ⊢
  tauto

lemma keeps_round (hc : ∀ j, c j → (carry a entry n).getLsbD j = true)
    (h : atPriority a entry n ≠ 0#32) :
    Keeps r c (eventsFrom r a map entry (fuel+1) n) ↔
      (∀ j, DueFrom a entry n c n j → j = (atPriority a entry n).ctz.toNat ∨
        .dispatch (r.line j) ∈ eventsFrom r a map entry fuel (n+1)) ∧
      Keeps r (fun j => (carry a entry (n+1)).getLsbD j = true)
        (eventsFrom r a map entry fuel (n+1)) := by
  -- All that is pending in the round, and how it is divided by the acknowledgement.
  have hall : (fun j => (((c j ∨ (a.revision n).getLsbD j = true) ∨
      (a.priority n).getLsbD j = true) ∨ (a.status n).getLsbD j = true) ∨
      (a.write n).getLsbD j = true) = fun j => c j ∨
        (a.revision n ||| a.priority n ||| a.status n ||| a.write n).getLsbD j = true := by
    funext j
    simp only [BitVec.getLsbD_or,Bool.or_eq_true,or_assoc]
  have hcarry : (fun j => (c j ∨ (a.revision n ||| a.priority n ||| a.status n |||
      a.write n).getLsbD j = true) ∧ (atStatus a entry n).getLsbD j = false) =
      fun j => (carry a entry (n+1)).getLsbD j = true := by
    funext j
    have hcj := hc j
    rw [carry,← atStatus_eq,getLsbD_and_not,atStatus_eq]
    simp only [BitVec.getLsbD_or,Bool.or_eq_true,Bool.or_eq_false_iff,Bool.and_eq_true,
      Bool.not_eq_true',eq_iff_iff]
    grind
  rw [eventsFrom_take hrev h,keeps_arrive,keeps_arrive,keeps_arrive,keeps_arrive,hall,
    keeps_acknowledge ?_ (getLsbD_atStatus_ctz h),hcarry]
  · refine and_congr_left' (forall_congr' fun j => ?_)
    exact ⟨fun hj hd => hj (hd.2 rfl) hd.1,fun hj hs hv => hj ⟨hv,fun _ => hs⟩⟩
  · intro j hj
    exact hj.elim (fun hj => BitVec.lt_of_getLsbD (hc j hj)) BitVec.lt_of_getLsbD

lemma keeps_stop (h : atPriority a entry n = 0#32) (c : ℕ → Prop) :
    Keeps r c (eventsFrom r a map entry (fuel+1) n) := by
  rw [eventsFrom_stop hrev h,keeps_arrive,keeps_arrive]
  refine ⟨fun j _ => .inr ?_,trivial⟩
  rintro ⟨v,hv,-⟩
  cases hv

lemma keeps_new (hc : ∀ j, c j → (carry a entry n).getLsbD j = true) (hn : n+fuel = 32) :
    Keeps r c (eventsFrom r a map entry fuel n) ↔
      ∀ m, Rounds a entry n m → ∀ j, DueFrom a entry n c m j →
        ∃ m', m ≤ m' ∧ Rounds a entry n m' ∧ (atPriority a entry m').ctz.toNat = j := by
  induction fuel generalizing n c with
  | zero =>
    refine iff_of_true ⟨fun j _ => .inr ?_,trivial⟩ ?_
    · rintro ⟨v,hv,-⟩
      cases hv
    · rintro m ⟨hnm,hm,-⟩
      omega
  | succ fuel ih =>
    by_cases h : atPriority a entry n = 0#32
    · exact iff_of_true (keeps_stop hrev h c) fun m hm => absurd hm (not_rounds_of_eq_zero h)
    have hsucc (m : ℕ) := rounds_succ (m := m) h (show n < 32 by omega)
    have hdue {m j : ℕ} (hm : Rounds a entry (n+1) m) :
        DueFrom a entry (n+1) (fun j => (carry a entry (n+1)).getLsbD j = true) m j ↔
          DueFrom a entry n c m j := by
      rw [dueFrom_carry]
      exact ⟨fun hj => ⟨hj,fun heq => absurd hm.1 (by omega)⟩,And.left⟩
    have hlater {j : ℕ} (hj : j < 32) :
        .dispatch (r.line j) ∈ eventsFrom r a map entry fuel (n+1) ↔
          ∃ m, Rounds a entry (n+1) m ∧ (atPriority a entry m).ctz.toNat = j :=
      dispatched_new hrev hj (by omega)
    rw [keeps_round hrev hc h,ih (fun _ => id) (by omega)]
    constructor
    · rintro ⟨hnow,hrest⟩ m hm j hj
      obtain rfl | hm := (hsucc m).mp hm
      · obtain rfl | hd := hnow j hj
        · exact ⟨m,le_refl m,(hsucc m).mpr (.inl rfl),rfl⟩
        · obtain ⟨m',hm',heq⟩ := (hlater (BitVec.lt_of_getLsbD hj.1)).mp hd
          exact ⟨m',Nat.le_of_succ_le hm'.1,(hsucc m').mpr (.inr hm'),heq⟩
      · obtain ⟨m',hle,hm',heq⟩ := hrest m hm j ((hdue hm).mpr hj)
        exact ⟨m',hle,(hsucc m').mpr (.inr hm'),heq⟩
    intro hall
    refine ⟨fun j hj => ?_,fun m hm j hj => ?_⟩
    · obtain ⟨m',-,hm',heq⟩ := hall n ((hsucc n).mpr (.inl rfl)) j hj
      obtain rfl | hm' := (hsucc m').mp hm'
      · exact .inl heq.symm
      · exact .inr ((hlater (BitVec.lt_of_getLsbD hj.1)).mpr ⟨m',hm',heq⟩)
    · obtain ⟨m',hle,hm',heq⟩ := hall m ((hsucc m).mpr (.inr hm)) j ((hdue hm).mp hj)
      obtain rfl | hm' := (hsucc m').mp hm'
      · exact absurd hm.1 (by omega)
      · exact ⟨m',hle,hm',heq⟩

lemma once_new : Once r (eventsFrom r a map entry fuel n) ∧ ∀ j < 32,
    (carry a entry n).getLsbD j = false → NotBefore r j (eventsFrom r a map entry fuel n) := by
  induction fuel generalizing n with
  | zero => exact ⟨trivial,fun _ _ _ => trivial⟩
  | succ fuel ih =>
    by_cases hp : atPriority a entry n = 0#32
    · rw [eventsFrom_stop hrev hp]
      exact ⟨trivial,fun _ _ _ => .inr (.inr trivial)⟩
    obtain ⟨honce,hnot⟩ := @ih (n+1)
    have hline {j : ℕ} (hj : j < 32) := line_inj (r := r) (BitVec.ctz_lt_iff_ne_zero.mpr hp) hj
    rw [eventsFrom_take hrev hp]
    refine ⟨⟨fun j hj heq => hnot j hj ?_,honce⟩,fun j hj h => ?_⟩
    · have hlow := getLsbD_atStatus_ctz hp
      rw [hline hj heq] at hlow
      rw [carry,← atStatus_eq,getLsbD_and_not,hlow,Bool.not_true,Bool.and_false]
    cases hrv : (a.revision n).getLsbD j with
    | true => exact .inl hrv
    | false =>
    cases hpr : (a.priority n).getLsbD j with
    | true => exact .inr (.inl hpr)
    | false =>
    refine .inr (.inr ?_)
    cases hst : (a.status n).getLsbD j with
    | true => exact .inl hst
    | false =>
    refine .inr ?_
    cases hwr : (a.write n).getLsbD j with
    | true => exact .inl hwr
    | false =>
    refine .inr ⟨fun heq => ?_,hnot j hj ?_⟩
    · have hlow := BitVec.getLsbD_true_ctz_of_ne_zero hp
      rw [hline hj heq] at hlow
      simp [atPriority,h,hrv,hpr] at hlow
    · rw [carry,getLsbD_and_not,hwr,Bool.false_and]

lemma acked_entry (h : entry.getLsbD j = true) : Acked j (eventsFrom r a map entry 32 0) := by
  have hp : (atPriority a entry 0).getLsbD j = true := by
    simp [atPriority,carry,h]
  have hne : atPriority a entry 0 ≠ 0#32 := by
    intro heq
    rw [heq,BitVec.getLsbD_zero] at hp
    cases hp
  rw [eventsFrom_take hrev hne]
  refine ⟨atStatus a entry 0,by simp,?_⟩
  rw [atStatus,BitVec.getLsbD_or,hp,Bool.true_or]

omit hrev in
lemma due_iff : Due r a entry m j ↔ DueFrom a entry 0
    (fun j => entry.getLsbD j = true ∧ r.isrInfo (r.line j) ≠ []) m j := by
  refine and_congr_right fun hj => imp_congr_right fun hm => ?_
  subst hm
  constructor
  · rintro (hisr | harr)
    · rw [atStatus_eq,carry] at hj
      simp only [BitVec.getLsbD_or,Bool.or_eq_true] at hj ⊢
      tauto
    · exact .inr harr
  · exact Or.imp_left And.right

omit hrev in
lemma ReportedLast.exists_round (h : ReportedLast r a entry) (d : ℕ) (hd : 32 ≤ m+d)
    (hm : Round a entry m) (hj : Due r a entry m j) :
    ∃ m', m ≤ m' ∧ Round a entry m' ∧ (atPriority a entry m').ctz.toNat = j := by
  induction d generalizing m with
  | zero => exact absurd hm.1 (by omega)
  | succ d ih =>
    by_cases hlast : ∀ m', m < m' → Round a entry m' → (atStatus a entry m').getLsbD j = false
    · exact ⟨m,le_refl m,hm,h m j hm hj hlast⟩
    push Not at hlast
    obtain ⟨m1,hlt,hm1,hj1⟩ := hlast
    rw [ne_eq,Bool.not_eq_false] at hj1
    obtain ⟨m',hle,hm',heq⟩ := ih (by omega) hm1 ⟨hj1,fun h0 => absurd hlt (by omega)⟩
    exact ⟨m',by omega,hm',heq⟩

omit hrev in
lemma reportedLast_iff : ReportedLast r a entry ↔
    ∀ m, Rounds a entry 0 m → ∀ j, Due r a entry m j →
      ∃ m', m ≤ m' ∧ Rounds a entry 0 m' ∧ (atPriority a entry m').ctz.toNat = j := by
  simp only [rounds_zero]
  constructor
  · intro h m hm j hj
    exact h.exists_round 32 (by omega) hm hj
  intro h n j hn hj hlast
  obtain ⟨m,hle,hm,heq⟩ := h n hn j hj
  obtain rfl | hlt := eq_or_lt_of_le hle
  · exact heq
  · have hbit := getLsbD_atStatus_ctz (hm.2 m (le_refl m))
    rw [heq,hlast m hlt hm] at hbit
    cases hbit

omit hrev in
lemma palVlynqRootIsr_snd : (palVlynqRootIsr r a entry).2 =
    replay entry (palVlynqRootIsr r a entry).1 := rootIsrLoop_snd 32 0 entry entry

lemma delivers_new :
    Delivered r entry (palVlynqRootIsr r a entry).1 (palVlynqRootIsr r a entry).2 ↔
      ReportedLast r a entry := by
  have hentry : (∀ j, entry.getLsbD j = true → r.isrInfo (r.line j) ≠ [] →
      .dispatch (r.line j) ∈ eventsFrom r a entry entry 32 0) ↔
      Owed r (fun j => entry.getLsbD j = true ∧ r.isrInfo (r.line j) ≠ [])
        (eventsFrom r a entry entry 32 0) := by
    constructor
    · exact fun h j hj => .inl (h j hj.1 hj.2)
    · exact fun h j hj hisr => (h j ⟨hj,hisr⟩).resolve_right fun hn => hn (acked_entry hrev hj)
  have hkeeps : Keeps r (fun j => entry.getLsbD j = true ∧ r.isrInfo (r.line j) ≠ [])
      (eventsFrom r a entry entry 32 0) ↔ ∀ m, Rounds a entry 0 m → ∀ j, Due r a entry m j →
        ∃ m', m ≤ m' ∧ Rounds a entry 0 m' ∧ (atPriority a entry m').ctz.toNat = j := by
    simp only [due_iff]
    exact keeps_new hrev (fun j hj => hj.1) (zero_add 32)
  have honce : Once r (palVlynqRootIsr r a entry).1 := (once_new hrev).1
  rw [delivered_iff palVlynqRootIsr_snd honce,reportedLast_iff,← hkeeps]
  exact and_congr_left' hentry

end New

section Old

variable {entry : BitVec 32} {j : ℕ}

lemma shiftRight_and_one (entry : BitVec 32) (n : ℕ) :
    (entry >>> n) &&& 1#32 ≠ 0#32 ↔ entry.getLsbD n = true := by
  rw [BitVec.and_one_eq_setWidth_ofBool_getLsbD,BitVec.getLsbD_ushiftRight,add_zero]
  cases entry.getLsbD n <;> decide

variable (hrev : ¬ 0x00010200#32 ≤ r.revision) {fuel n : ℕ}

include hrev

abbrev eventsOld (r : Root) (a : Arrivals) (entry : BitVec 32) (fuel n : ℕ) : List Event :=
  (rootIsrLoop r a fuel n (entry >>> n) (carryOld a entry n)).1

lemma eventsOld_stop (h : entry >>> n = 0#32) :
    eventsOld r a entry (fuel+1) n = [.arrive (a.revision n)] := by
  rw [eventsOld,rootIsrLoop,if_neg hrev]
  dsimp only
  rw [if_pos h]

lemma eventsOld_skip (h : entry >>> n ≠ 0#32) (hn : entry.getLsbD n = false) :
    eventsOld r a entry (fuel+1) n = .arrive (a.revision n) :: eventsOld r a entry fuel (n+1) := by
  have hbit : ¬ (entry >>> n) &&& 1#32 ≠ 0#32 := by
    rw [shiftRight_and_one,hn]
    simp
  rw [eventsOld,eventsOld,rootIsrLoop,if_neg hrev]
  dsimp only
  rw [if_neg h,if_neg hbit,← BitVec.shiftRight_add,carryOld,hn]
  rfl

lemma eventsOld_take (hn : entry.getLsbD n = true) :
    eventsOld r a entry (fuel+1) n =
      .arrive (a.revision n) :: .arrive (a.status n) :: .arrive (a.write n) ::
        .acknowledge (atStatusOld a entry n ||| 1#32 <<< n) :: .dispatch (r.line n) ::
          eventsOld r a entry fuel (n+1) := by
  have hbit := (shiftRight_and_one entry n).mpr hn
  have hne : entry >>> n ≠ 0#32 := by
    intro h
    rw [h] at hbit
    exact hbit rfl
  rw [eventsOld,eventsOld,rootIsrLoop,if_neg hrev]
  dsimp only
  rw [if_neg hne,if_pos hbit,← BitVec.shiftRight_add,serve,carryOld,hn]
  dsimp only
  rw [writeIntStatus_or]
  · rfl
  · intro j hj
    rw [BitVec.getLsbD_or,hj,Bool.true_or]

omit hrev in
lemma getLsbD_of_shiftRight_eq_zero (h : entry >>> n = 0#32) {m : ℕ} (hm : n ≤ m) :
    entry.getLsbD m = false := by
  have hbit : (entry >>> n).getLsbD (m-n) = false := by rw [h,BitVec.getLsbD_zero]
  rwa [BitVec.getLsbD_ushiftRight,Nat.add_sub_cancel' hm] at hbit

lemma dispatched_old (hj : j < 32) (hn : n+fuel = 32) :
    .dispatch (r.line j) ∈ eventsOld r a entry fuel n ↔ n ≤ j ∧ entry.getLsbD j = true := by
  induction fuel generalizing n with
  | zero =>
    refine iff_of_false not_mem_nil ?_
    rintro ⟨hnj,-⟩
    omega
  | succ fuel ih =>
    have hsucc : n ≤ j ↔ j = n ∨ n+1 ≤ j := by omega
    by_cases h : entry >>> n = 0#32
    · rw [eventsOld_stop hrev h]
      refine iff_of_false (by simp) ?_
      rintro ⟨hnj,hbit⟩
      rw [getLsbD_of_shiftRight_eq_zero h hnj] at hbit
      cases hbit
    cases hbit : entry.getLsbD n with
    | false =>
      rw [eventsOld_skip hrev h hbit,mem_cons,ih (by omega),hsucc]
      constructor
      · rintro (hd | ⟨hle,hj⟩)
        · cases hd
        · exact ⟨.inr hle,hj⟩
      · rintro ⟨rfl | hle,hj⟩
        · rw [hbit] at hj
          cases hj
        · exact .inr ⟨hle,hj⟩
    | true =>
      have hline : r.line j = r.line n ↔ j = n := ⟨line_inj hj (by omega),fun h => h ▸ rfl⟩
      rw [eventsOld_take hrev hbit]
      simp only [mem_cons,reduceCtorEq,false_or,Event.dispatch.injEq]
      rw [ih (by omega),hline,hsucc]
      constructor
      · rintro (rfl | ⟨hle,hj⟩)
        · exact ⟨.inl rfl,hbit⟩
        · exact ⟨.inr hle,hj⟩
      · rintro ⟨rfl | hle,hj⟩
        · exact .inl rfl
        · exact .inr ⟨hle,hj⟩

lemma keeps_round_old (hbit : entry.getLsbD n = true) (hn : n+fuel = 31) :
    Keeps r (fun j => (carryOld a entry n).getLsbD j = true) (eventsOld r a entry (fuel+1) n) ↔
      (∀ j, (atStatusOld a entry n).getLsbD j = true → entry.getLsbD j = true ∧ n ≤ j) ∧
      Keeps r (fun j => (carryOld a entry (n+1)).getLsbD j = true)
        (eventsOld r a entry fuel (n+1)) := by
  have hset : (atStatusOld a entry n ||| 1#32 <<< n).getLsbD n = true := by
    rw [BitVec.getLsbD_or,getLsbD_bit n (by omega),decide_eq_true rfl,Bool.or_true]
  have hcarry : (fun j => ((((carryOld a entry n).getLsbD j = true ∨
      (a.revision n).getLsbD j = true) ∨ (a.status n).getLsbD j = true) ∨
      (a.write n).getLsbD j = true) ∧ (atStatusOld a entry n ||| 1#32 <<< n).getLsbD j = false) =
      fun j => (carryOld a entry (n+1)).getLsbD j = true := by
    funext j
    rw [carryOld,hbit,if_pos rfl,getLsbD_and_not,atStatusOld]
    simp only [BitVec.getLsbD_or,Bool.or_eq_false_iff,Bool.and_eq_true,Bool.not_eq_true',eq_iff_iff]
    grind
  rw [eventsOld_take hrev hbit,keeps_arrive,keeps_arrive,keeps_arrive,
    keeps_acknowledge ?_ hset,hcarry]
  · refine and_congr_left' ⟨fun h j hj => ?_,fun h j hs hv => ?_⟩
    · have hlt := BitVec.lt_of_getLsbD hj
      have hs := h j ?_ (by rw [BitVec.getLsbD_or,hj,Bool.true_or])
      · obtain rfl | hd := hs
        · exact ⟨hbit,le_refl j⟩
        · have hd := (dispatched_old hrev hlt (by omega)).mp hd
          exact ⟨hd.2,Nat.le_of_succ_le hd.1⟩
      · rw [atStatusOld] at hj
        simp only [BitVec.getLsbD_or,Bool.or_eq_true] at hj
        exact .inl hj
    have hlt := BitVec.lt_of_getLsbD hv
    rw [BitVec.getLsbD_or,getLsbD_bit n hlt,Bool.or_eq_true,decide_eq_true_iff] at hv
    obtain hv | rfl := hv
    · obtain ⟨hj,hle⟩ := h j hv
      obtain rfl | hgt := eq_or_lt_of_le hle
      · exact .inl rfl
      · exact .inr ((dispatched_old hrev hlt (by omega)).mpr ⟨hgt,hj⟩)
    · exact .inl rfl
  · intro j hj
    simp only [or_assoc] at hj
    obtain hj | hj | hj | hj := hj
    all_goals exact BitVec.lt_of_getLsbD hj

lemma keeps_old (hn : n+fuel = 32) :
    Keeps r (fun j => (carryOld a entry n).getLsbD j = true) (eventsOld r a entry fuel n) ↔
      ∀ m j, n ≤ m → entry.getLsbD m = true → (atStatusOld a entry m).getLsbD j = true →
        entry.getLsbD j = true ∧ m ≤ j := by
  induction fuel generalizing n with
  | zero =>
    refine iff_of_true ⟨fun j _ => .inr ?_,trivial⟩ ?_
    · rintro ⟨v,hv,-⟩
      cases hv
    · intro m j hnm hm
      exact absurd (BitVec.lt_of_getLsbD hm) (by omega)
  | succ fuel ih =>
    by_cases h : entry >>> n = 0#32
    · rw [eventsOld_stop hrev h,keeps_arrive]
      refine iff_of_true ⟨fun j _ => .inr ?_,trivial⟩ ?_
      · rintro ⟨v,hv,-⟩
        cases hv
      · intro m j hnm hm
        rw [getLsbD_of_shiftRight_eq_zero h hnm] at hm
        cases hm
    cases hbit : entry.getLsbD n with
    | false =>
      have hcarry : (fun j => (carryOld a entry n).getLsbD j = true ∨
          (a.revision n).getLsbD j = true) =
          fun j => (carryOld a entry (n+1)).getLsbD j = true := by
        funext j
        rw [carryOld,hbit,if_neg (by simp),BitVec.getLsbD_or,Bool.or_eq_true]
      rw [eventsOld_skip hrev h hbit,keeps_arrive,hcarry,ih (by omega)]
      constructor
      · intro hall m j hnm hm
        obtain rfl | hlt := eq_or_lt_of_le hnm
        · rw [hbit] at hm
          cases hm
        · exact hall m j hlt hm
      · exact fun hall m j hnm => hall m j (Nat.le_of_succ_le hnm)
    | true =>
      rw [keeps_round_old hrev hbit (by omega),ih (by omega)]
      constructor
      · rintro ⟨hnow,hrest⟩ m j hnm hm
        obtain rfl | hlt := eq_or_lt_of_le hnm
        · exact hnow j
        · exact hrest m j hlt hm
      · exact fun hall => ⟨fun j => hall n j (le_refl n) hbit,
          fun m j hnm => hall m j (Nat.le_of_succ_le hnm)⟩

lemma once_old (hn : n+fuel = 32) : Once r (eventsOld r a entry fuel n) ∧
    ∀ j < n, NotBefore r j (eventsOld r a entry fuel n) := by
  induction fuel generalizing n with
  | zero => exact ⟨trivial,fun _ _ => trivial⟩
  | succ fuel ih =>
    by_cases h : entry >>> n = 0#32
    · rw [eventsOld_stop hrev h]
      exact ⟨trivial,fun _ _ => .inr trivial⟩
    obtain ⟨honce,hnot⟩ := @ih (n+1) (by omega)
    cases hbit : entry.getLsbD n with
    | false =>
      rw [eventsOld_skip hrev h hbit]
      exact ⟨honce,fun j hj => .inr (hnot j (by omega))⟩
    | true =>
      have hline {j : ℕ} (hj : j < 32) (heq : r.line n = r.line j) : n = j :=
        line_inj (by omega) hj heq
      rw [eventsOld_take hrev hbit]
      refine ⟨⟨fun j hj heq => hnot j (hline hj heq ▸ Nat.lt_succ_self n),honce⟩,
        fun j hj => .inr (.inr (.inr ⟨fun heq => ?_,hnot j (by omega)⟩))⟩
      have hnj := hline (by omega) heq
      omega

lemma delivers_old :
    Delivered r entry (palVlynqRootIsr r a entry).1 (palVlynqRootIsr r a entry).2 ↔
      StillToCome a entry := by
  have hevents : (palVlynqRootIsr r a entry).1 = eventsOld r a entry 32 0 := by
    rw [palVlynqRootIsr,eventsOld,BitVec.ushiftRight_zero]
    rfl
  have hdisp (j : ℕ) (hj : entry.getLsbD j = true) :
      .dispatch (r.line j) ∈ eventsOld r a entry 32 0 :=
    (dispatched_old hrev (BitVec.lt_of_getLsbD hj) (Nat.zero_add 32)).mpr ⟨Nat.zero_le j,hj⟩
  have honce : Once r (palVlynqRootIsr r a entry).1 :=
    hevents ▸ (once_old hrev (zero_add 32)).1
  have hkeeps : Keeps r (fun j => entry.getLsbD j = true) (eventsOld r a entry 32 0) ↔
      ∀ m j, 0 ≤ m → entry.getLsbD m = true → (atStatusOld a entry m).getLsbD j = true →
        entry.getLsbD j = true ∧ m ≤ j := keeps_old hrev (zero_add 32)
  rw [delivered_iff palVlynqRootIsr_snd honce,hevents]
  constructor
  · rintro ⟨-,hkept⟩ n j
    exact hkeeps.mp ⟨fun j hj => .inl (hdisp j hj),hkept⟩ n j (Nat.zero_le n)
  · intro h
    refine ⟨fun j hj _ => hdisp j hj,(hkeeps.mpr fun n j _ => h n j).2⟩

end Old

/-- From revision 1.2 on an interrupt is lost unless it is the one reported by the priority register
at the last acknowledgement that clears it; before, unless it was pending at the start and its
turn is still to come. -/
theorem rootIsr_delivers_iff (r : Root) (a : Arrivals) (entry : BitVec 32) :
    Delivered r entry (palVlynqRootIsr r a entry).1 (palVlynqRootIsr r a entry).2 ↔
      if 0x00010200#32 ≤ r.revision then ReportedLast r a entry else StillToCome a entry := by
  split
  · next hrev => exact delivers_new hrev
  · next hrev => exact delivers_old hrev

/-- Interrupts 0 and 1 are pending, and nothing arrives. -/
theorem rootIsr_loses_second :
    palVlynqRootIsr ⟨0x00010200#32,false,fun _ => [0]⟩ ⟨0,0,0,0⟩ 3#32 =
      ([.arrive 0#32,.arrive 0#32,.arrive 0#32,.arrive 0#32,.acknowledge 3#32,.dispatch 0,
        .arrive 0#32,.arrive 0#32],0#32) ∧
    ¬ Delivered ⟨0x00010200#32,false,fun _ => [0]⟩ 3#32
      (palVlynqRootIsr ⟨0x00010200#32,false,fun _ => [0]⟩ ⟨0,0,0,0⟩ 3#32).1
      (palVlynqRootIsr ⟨0x00010200#32,false,fun _ => [0]⟩ ⟨0,0,0,0⟩ 3#32).2 := by
  have hrun : palVlynqRootIsr ⟨0x00010200#32,false,fun _ => [0]⟩ ⟨0,0,0,0⟩ 3#32 =
      ([.arrive 0#32,.arrive 0#32,.arrive 0#32,.arrive 0#32,.acknowledge 3#32,.dispatch 0,
        .arrive 0#32,.arrive 0#32],0#32) := by decide +kernel
  refine ⟨hrun,fun h => ?_⟩
  rw [hrun] at h
  have hd := h.entry 1 (by decide) (by simp)
  revert hd
  decide

end DslG624t.Vlynq
