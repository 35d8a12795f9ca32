import Mathlib

/-!
# The interrupt routine of a root VLYNQ

`PAL_vlynqRootIsr` takes the pending interrupts of a bridge one after the other.
-/

namespace DslG624t.Vlynq

open List

def intPriority (pending : BitVec 32) : BitVec 32 :=
  if pending = 0#32 then 0x80000000#32 else pending.ctz

def writeIntStatus (pending v : BitVec 32) : BitVec 32 := pending &&& ~~~v

/-- The interrupts that arrive in each round just before an access: the reads of the revision and
of the priority register, and the read and the write of the acknowledgement. -/
structure Arrivals where
  revision : ℕ → BitVec 32
  priority : ℕ → BitVec 32
  status : ℕ → BitVec 32
  write : ℕ → BitVec 32

inductive Event where
  | arrive (v : BitVec 32)
  | acknowledge (v : BitVec 32)
  | dispatch (irq : ℕ)
  deriving DecidableEq, Repr

/-- What the routine finds: the revision, the remote endian mode, and the routines installed for
each line. -/
structure Root where
  revision : BitVec 32
  bigEn : Bool
  isrInfo : ℕ → List ℕ

def irqValSwap : List ℕ :=
  [24,25,26,27,28,29,30,31,16,17,18,19,20,21,22,23,8,9,10,11,12,13,14,15,0,1,2,3,4,5,6,7]

def Root.line (r : Root) (irq : ℕ) : ℕ := if r.bigEn then irqValSwap.getD irq 0 else irq

variable (r : Root) (a : Arrivals)

def serve (count irq : ℕ) (pending : BitVec 32) : List Event × BitVec 32 :=
  let status := pending ||| a.status count
  let v := status ||| 1#32 <<< irq
  ([.arrive (a.status count),.arrive (a.write count),.acknowledge v,.dispatch (r.line irq)],
    writeIntStatus (status ||| a.write count) v)

/-- The loop of `PAL_vlynqRootIsr`, with what happened in it and what is left pending. Before
revision 1.2 it goes by the bits of the status register read at the start. -/
def rootIsrLoop : ℕ → ℕ → BitVec 32 → BitVec 32 → List Event × BitVec 32
  | 0, _, _, pending => ([],pending)
  | fuel+1, count, irqStatusMap, pending =>
    if 0x00010200#32 ≤ r.revision then
      let pending := pending ||| a.revision count ||| a.priority count
      let val := intPriority pending
      let irq := (val &&& 0x1f#32).toNat
      let before := [.arrive (a.revision count),.arrive (a.priority count)]
      if val &&& 0x80000000#32 ≠ 0#32 then (before,pending)
      else
        let served := serve r a count irq pending
        let rest := rootIsrLoop fuel (count+1) irqStatusMap served.2
        (before ++ served.1 ++ rest.1,rest.2)
    else
      let pending := pending ||| a.revision count
      let before := [.arrive (a.revision count)]
      let val := irqStatusMap &&& 1#32
      if irqStatusMap = 0#32 then (before,pending)
      else if val ≠ 0#32 then
        let served := serve r a count count pending
        let rest := rootIsrLoop fuel (count+1) (irqStatusMap >>> 1) served.2
        (before ++ served.1 ++ rest.1,rest.2)
      else
        let rest := rootIsrLoop fuel (count+1) (irqStatusMap >>> 1) pending
        (before ++ rest.1,rest.2)

def palVlynqRootIsr (pending : BitVec 32) : List Event × BitVec 32 :=
  rootIsrLoop r a 32 0 pending pending

def Acked (j : ℕ) (l : List Event) : Prop := ∃ v, .acknowledge v ∈ l ∧ v.getLsbD j = true

/-- No interrupt is lost and none dispatched twice: those pending at the start that have a routine
are dispatched, an interrupt is dispatched again only if it has arrived again, and one that
arrives is dispatched later or has been pending ever since. -/
structure Delivered (pending : BitVec 32) (l : List Event) (left : BitVec 32) : Prop where
  entry : ∀ j, pending.getLsbD j = true → r.isrInfo (r.line j) ≠ [] → .dispatch (r.line j) ∈ l
  once : ∀ j < 32, ∀ pre mid post,
    l = pre ++ .dispatch (r.line j) :: (mid ++ .dispatch (r.line j) :: post) →
    ∃ v, .arrive v ∈ mid ∧ v.getLsbD j = true
  arrival : ∀ pre v post, l = pre ++ .arrive v :: post → ∀ j, v.getLsbD j = true →
    .dispatch (r.line j) ∈ post ∨ ¬ Acked j post ∧ left.getLsbD j = true

/-! From revision 1.2 on each acknowledgement clears all that is pending when it reads the status
register, so that what is pending in a round depends on what arrives only. -/

section New

variable (entry : BitVec 32)

def carry : ℕ → BitVec 32
  | 0 => entry
  | n+1 => a.write n &&& ~~~(carry n ||| a.revision n ||| a.priority n ||| a.status n)

def atPriority (n : ℕ) : BitVec 32 := carry a entry n ||| a.revision n ||| a.priority n

def atStatus (n : ℕ) : BitVec 32 := atPriority a entry n ||| a.status n

def Round (n : ℕ) : Prop := n < 32 ∧ ∀ k ≤ n, atPriority a entry k ≠ 0#32

/-- The interrupt is pending at the acknowledgement of round `n` and must not be lost: all are but
those of the start that have no routine and do not arrive in round 0. -/
def Due (n j : ℕ) : Prop :=
  (atStatus a entry n).getLsbD j = true ∧ (n = 0 → r.isrInfo (r.line j) ≠ [] ∨
    (a.revision 0 ||| a.priority 0 ||| a.status 0 ||| a.write 0).getLsbD j = true)

/-- At the last acknowledgement at which an interrupt is pending, it is the one that the priority
register had reported. -/
def ReportedLast : Prop :=
  ∀ n j, Round a entry n → Due r a entry n j →
    (∀ m, n < m → Round a entry m → (atStatus a entry m).getLsbD j = false) →
    (atPriority a entry n).ctz.toNat = j

end New

section Old

variable (entry : BitVec 32)

def carryOld : ℕ → BitVec 32
  | 0 => entry
  | n+1 =>
    if entry.getLsbD n then
      a.write n &&& ~~~(carryOld n ||| a.revision n ||| a.status n ||| 1#32 <<< n)
    else carryOld n ||| a.revision n

def atStatusOld (n : ℕ) : BitVec 32 := carryOld a entry n ||| a.revision n ||| a.status n

/-- Whatever is pending at the acknowledgement of `n` was pending at the start, and is not
numbered below `n`. -/
def StillToCome : Prop :=
  ∀ n j, entry.getLsbD n = true → (atStatusOld a entry n).getLsbD j = true →
    entry.getLsbD j = true ∧ n ≤ j

end Old

variable {j : ℕ} {v : BitVec 32} {l : List Event} {s : ℕ → Prop}

lemma getLsbD_bit (i : ℕ) (hj : j < 32) : (1#32 <<< i).getLsbD j = decide (i = j) := by
  rw [BitVec.getLsbD_shiftLeft,BitVec.getLsbD_one,Bool.eq_iff_iff]
  simp [hj]
  omega

lemma or_bit {i : ℕ} (h : v.getLsbD i = true) : v ||| 1#32 <<< i = v := by
  apply BitVec.eq_of_getLsbD_eq
  intro j hj
  rw [BitVec.getLsbD_or,getLsbD_bit i hj]
  by_cases hij : i = j
  · rw [← hij,h,Bool.true_or]
  · rw [decide_eq_false hij,Bool.or_false]

lemma getLsbD_and_not (v w : BitVec 32) (j : ℕ) :
    (v &&& ~~~w).getLsbD j = (v.getLsbD j && !w.getLsbD j) := by
  rw [BitVec.getLsbD_and,BitVec.getLsbD_not]
  by_cases hj : j < 32
  · rw [decide_eq_true hj,Bool.true_and]
  · rw [BitVec.getLsbD_of_ge v j (by omega),Bool.false_and,Bool.false_and]

lemma writeIntStatus_or {u v : BitVec 32} (w : BitVec 32)
    (h : ∀ j, u.getLsbD j = true → v.getLsbD j = true) :
    writeIntStatus (u ||| w) v = w &&& ~~~v := by
  apply BitVec.eq_of_getLsbD_eq
  intro j _
  have hj := h j
  rw [writeIntStatus,getLsbD_and_not,getLsbD_and_not,BitVec.getLsbD_or]
  cases hu : u.getLsbD j with
  | false => rw [Bool.false_or]
  | true => simp [hj hu]

variable {r a}

lemma line_inj {j k : ℕ} (hj : j < 32) (hk : k < 32) (h : r.line j = r.line k) : j = k := by
  have hswap : ∀ j < 32, ∀ k < 32, irqValSwap.getD j 0 = irqValSwap.getD k 0 → j = k := by decide
  unfold Root.line at h
  split at h
  · exact hswap j hj k hk h
  · exact h

def replay (pending : BitVec 32) : List Event → BitVec 32
  | [] => pending
  | .arrive v :: l => replay (pending ||| v) l
  | .acknowledge v :: l => replay (writeIntStatus pending v) l
  | .dispatch _ :: l => replay pending l

lemma replay_append (pending : BitVec 32) (l l' : List Event) :
    replay pending (l ++ l') = replay (replay pending l) l' := by
  induction l generalizing pending with
  | nil => rfl
  | cons e l ih =>
    cases e with
    | arrive v => exact ih _
    | acknowledge v => exact ih _
    | dispatch irq => exact ih _

lemma replay_serve (count irq : ℕ) (pending : BitVec 32) :
    replay pending (serve r a count irq pending).1 = (serve r a count irq pending).2 := rfl

lemma rootIsrLoop_snd (fuel count : ℕ) (map pending : BitVec 32) :
    (rootIsrLoop r a fuel count map pending).2 =
      replay pending (rootIsrLoop r a fuel count map pending).1 := by
  induction fuel generalizing count map pending with
  | zero => rfl
  | succ fuel ih =>
    rw [rootIsrLoop]
    split
    · dsimp only
      split
      · rfl
      · rw [ih,replay_append,replay_append,← replay_serve]
        rfl
    dsimp only
    split
    · rfl
    split
    · rw [ih,replay_append,replay_append,← replay_serve]
      rfl
    · rw [ih,replay_append]
      rfl

lemma not_acked_cons {e : Event} (h : ¬ Acked j (e :: l)) : ¬ Acked j l := by
  rintro ⟨v,hv,hj⟩
  exact h ⟨v,mem_cons_of_mem _ hv,hj⟩

lemma getLsbD_replay {pending : BitVec 32} (h : pending.getLsbD j = true) (hl : ¬ Acked j l) :
    (replay pending l).getLsbD j = true := by
  induction l generalizing pending with
  | nil => exact h
  | cons e l ih =>
    cases e with
    | arrive v =>
      apply ih _ (not_acked_cons hl)
      rw [BitVec.getLsbD_or,h,Bool.true_or]
    | acknowledge v =>
      apply ih _ (not_acked_cons hl)
      have hv : v.getLsbD j = false := by
        rw [← Bool.not_eq_true]
        intro hv
        exact hl ⟨v,mem_cons_self,hv⟩
      have hj := BitVec.lt_of_getLsbD h
      rw [writeIntStatus,BitVec.getLsbD_and,h,BitVec.getLsbD_not,hv]
      simpa using hj
    | dispatch irq => exact ih h (not_acked_cons hl)

def Owed (r : Root) (s : ℕ → Prop) (l : List Event) : Prop :=
  ∀ j, s j → .dispatch (r.line j) ∈ l ∨ ¬ Acked j l

/-- Those that arrive are dispatched or not acknowledged from then on. -/
def Kept (r : Root) : List Event → Prop
  | [] => True
  | .arrive v :: l => Owed r (fun j => v.getLsbD j = true) l ∧ Kept r l
  | .acknowledge _ :: l => Kept r l
  | .dispatch _ :: l => Kept r l

lemma kept_iff : Kept r l ↔
    ∀ pre v post, l = pre ++ .arrive v :: post → Owed r (fun j => v.getLsbD j = true) post := by
  induction l with
  | nil => exact iff_of_true trivial fun pre v post h => by simp at h
  | cons e l ih =>
    have hcons : (∀ pre v post, e :: l = pre ++ .arrive v :: post →
        Owed r (fun j => v.getLsbD j = true) post) ↔
        (∀ v, e = .arrive v → Owed r (fun j => v.getLsbD j = true) l) ∧ Kept r l := by
      rw [ih]
      constructor
      · intro h
        exact ⟨fun v hv => h [] v l (by rw [hv]; rfl),
          fun pre v post hl => h (e :: pre) v post (by rw [hl]; rfl)⟩
      rintro ⟨he,hl⟩ pre v post heq
      cases pre with
      | nil =>
        obtain ⟨rfl,rfl⟩ := cons.inj heq
        exact he v rfl
      | cons x pre => exact hl pre v post (cons.inj heq).2
    rw [hcons]
    cases e with
    | arrive v =>
      refine and_congr_left' ⟨fun h w hw => ?_,fun h => h v rfl⟩
      obtain rfl := Event.arrive.inj hw
      exact h
    | acknowledge v => exact ⟨fun h => ⟨nofun,h⟩,fun h => h.2⟩
    | dispatch irq => exact ⟨fun h => ⟨nofun,h⟩,fun h => h.2⟩

/-- The interrupt is not dispatched before it arrives. -/
def NotBefore (r : Root) (j : ℕ) : List Event → Prop
  | [] => True
  | .arrive v :: l => v.getLsbD j = true ∨ NotBefore r j l
  | .acknowledge _ :: l => NotBefore r j l
  | .dispatch irq :: l => irq ≠ r.line j ∧ NotBefore r j l

/-- After each dispatch of an interrupt it is not dispatched before it arrives. -/
def Once (r : Root) : List Event → Prop
  | [] => True
  | .arrive _ :: l => Once r l
  | .acknowledge _ :: l => Once r l
  | .dispatch irq :: l => (∀ j < 32, irq = r.line j → NotBefore r j l) ∧ Once r l

lemma NotBefore.exists_arrive {mid post : List Event}
    (h : NotBefore r j (mid ++ .dispatch (r.line j) :: post)) :
    ∃ v, .arrive v ∈ mid ∧ v.getLsbD j = true := by
  induction mid with
  | nil => exact absurd rfl h.1
  | cons e mid ih =>
    have hcons (h : NotBefore r j (mid ++ .dispatch (r.line j) :: post)) :
        ∃ v, .arrive v ∈ e :: mid ∧ v.getLsbD j = true := by
      obtain ⟨v,hv,hj⟩ := ih h
      exact ⟨v,mem_cons_of_mem _ hv,hj⟩
    cases e with
    | arrive v =>
      obtain hj | h := h
      · exact ⟨v,mem_cons_self,hj⟩
      · exact hcons h
    | acknowledge v => exact hcons h
    | dispatch irq => exact hcons h.2

lemma Once.notBefore {pre post : List Event} (hj : j < 32)
    (h : Once r (pre ++ .dispatch (r.line j) :: post)) : NotBefore r j post := by
  induction pre with
  | nil => exact h.1 j hj rfl
  | cons e pre ih =>
    cases e with
    | arrive v => exact ih h
    | acknowledge v => exact ih h
    | dispatch irq => exact ih h.2

lemma delivered_iff {entry : BitVec 32} {left : BitVec 32} (hleft : left = replay entry l)
    (honce : Once r l) :
    Delivered r entry l left ↔
      (∀ j, entry.getLsbD j = true → r.isrInfo (r.line j) ≠ [] → .dispatch (r.line j) ∈ l) ∧
        Kept r l := by
  rw [kept_iff]
  constructor
  · intro h
    refine ⟨h.entry,fun pre v post heq j hj => ?_⟩
    exact (h.arrival pre v post heq j hj).imp_right And.left
  rintro ⟨hentry,hkept⟩
  refine ⟨hentry,fun j hj pre mid post heq => ?_,fun pre v post heq j hj => ?_⟩
  · exact ((heq ▸ honce).notBefore hj).exists_arrive
  · refine (hkept pre v post heq j hj).imp_right fun hack => ⟨hack,?_⟩
    rw [hleft,heq,replay_append]
    apply getLsbD_replay _ hack
    rw [BitVec.getLsbD_or,hj,Bool.or_true]

def Keeps (r : Root) (s : ℕ → Prop) (l : List Event) : Prop := Owed r s l ∧ Kept r l

lemma keeps_arrive :
    Keeps r s (.arrive v :: l) ↔ Keeps r (fun j => s j ∨ v.getLsbD j = true) l := by
  have hs : Owed r s (.arrive v :: l) ↔ Owed r s l := by simp [Owed,Acked]
  unfold Keeps
  rw [hs,Kept]
  constructor
  · rintro ⟨h,hv,hl⟩
    exact ⟨fun j hj => hj.elim (h j) (hv j),hl⟩
  · rintro ⟨h,hl⟩
    exact ⟨fun j hj => h j (.inl hj),fun j hj => h j (.inr hj),hl⟩

lemma keeps_acknowledge {irq : ℕ} (hs : ∀ j, s j → j < 32) (hirq : v.getLsbD irq = true) :
    Keeps r s (.acknowledge v :: .dispatch (r.line irq) :: l) ↔
      (∀ j, s j → v.getLsbD j = true → j = irq ∨ .dispatch (r.line j) ∈ l) ∧
        Keeps r (fun j => s j ∧ v.getLsbD j = false) l := by
  have hlt := BitVec.lt_of_getLsbD hirq
  have hline {j : ℕ} (hj : s j) : r.line j = r.line irq ↔ j = irq :=
    ⟨line_inj (hs j hj) hlt,fun h => h ▸ rfl⟩
  have hmem {j : ℕ} (hj : s j) :
      .dispatch (r.line j) ∈ Event.acknowledge v :: .dispatch (r.line irq) :: l ↔
        j = irq ∨ .dispatch (r.line j) ∈ l := by
    simp [hline hj]
  have hack {j : ℕ} : Acked j (.acknowledge v :: .dispatch (r.line irq) :: l) ↔
      v.getLsbD j = true ∨ Acked j l := by
    simp [Acked]
  unfold Keeps
  rw [← and_assoc]
  refine and_congr_left' ⟨fun h => ⟨?_,?_⟩,?_⟩
  · intro j hj hv
    obtain hd | hn := h j hj
    · exact (hmem hj).mp hd
    · exact absurd (hack.mpr (.inl hv)) hn
  · rintro j ⟨hj,hv⟩
    obtain hd | hn := h j hj
    · obtain rfl | hd := (hmem hj).mp hd
      · rw [hirq] at hv
        cases hv
      · exact .inl hd
    · exact .inr fun hl => hn (hack.mpr (.inr hl))
  rintro ⟨hin,hout⟩ j hj
  cases hv : v.getLsbD j with
  | true => exact .inl ((hmem hj).mpr (hin j hj hv))
  | false =>
    obtain hd | hn := hout j ⟨hj,hv⟩
    · exact .inl ((hmem hj).mpr (.inr hd))
    refine .inr fun hl => ?_
    obtain hv' | hl := hack.mp hl
    · rw [hv] at hv'
      cases hv'
    · exact hn hl

end DslG624t.Vlynq
