import DslG624t.Sched.PrioWrr

/-!
# Errors of `priowrr_tune`

The weights and the queue lengths are stored before the last checks.
-/

namespace DslG624t.PrioWrr

open Function List

variable {α : Type} {env : Env} {s : Sched α} {opt : QOpt} {band : Band}

def Child.limit : Child α → Option ℕ
  | .noop => none
  | .fifo limit _ => some limit

/-- The parameters of the scheduler and of its queues. -/
structure SameTuning (s t : Sched α) : Prop where
  position : t.wtedIdx = s.wtedIdx
  weights : t.weight2band = s.weight2band
  qlens : t.qlen2band = s.qlen2band
  table : t.schTable = s.schTable
  limits : ∀ band, (t.queues band).limit = (s.queues band).limit

def tenths (s : Sched α) (opt : QOpt) : ℕ :=
  (weights s opt).beq1.toNat*10 / 100+(weights s opt).beq2.toNat*10 / 100

/-- There is a queue, and no memory to tune it. -/
def stuck (env : Env) (s : Sched α) (band : Band) : Bool :=
  !env.alloc band && (s.queues band).limit.isSome

/-- The queues that are tuned before the first one that is stuck. -/
def tuned (env : Env) (s : Sched α) (bands : List Band) : List Band :=
  (bands.takeWhile fun band => !stuck env s band).filter env.alloc

/-- The scheduler has these parameters already, as far as the call comes. -/
def Repeats (env : Env) (s : Sched α) (opt : QOpt) : Prop :=
  s.wtedIdx = 0 ∧ s.weight2band = weights s opt ∧ s.qlen2band = tunedQlens env s opt ∧
    (tenths s opt ≤ 10 → s.schTable = slots ((weights s opt).beq1.toNat*10 / 100) ∧
      ∀ band ∈ tuned env s bands,
        (s.queues band).limit = some ((tunedQlens env s opt).get band).toNat)

lemma stuck_iff (limit : ℕ) :
    stuck env s band = true ↔ tuneChild (env.alloc band) limit (s.queues band) = none := by
  rw [stuck]
  cases s.queues band <;> cases env.alloc band <;> simp [tuneChild,Child.limit]

lemma limit_of_tuneChild {limit : ℕ} {child child' : Child α} {alloc : Bool}
    (h : tuneChild alloc limit child = some child') :
    child'.limit = if alloc then some limit else child.limit := by
  cases child <;> cases alloc <;> cases h <;> rfl

lemma tuneChildren_spec (env : Env) (bands : List Band) (s : Sched α) :
    ((tuneChildren env bands s).1 = 0 ↔ ∀ band ∈ bands, stuck env s band = false) ∧
      ∀ b, ((tuneChildren env bands s).2.queues b).limit =
        if b ∈ tuned env s bands then some (s.qlen2band.get b).toNat
        else (s.queues b).limit := by
  induction bands generalizing s with
  | nil => exact ⟨iff_of_true rfl (by simp),fun b => rfl⟩
  | cons band bands ih =>
    rw [tuneChildren,forall_mem_cons,tuned,takeWhile_cons]
    split
    next hnone =>
      rw [(stuck_iff _).mpr hnone]
      exact ⟨iff_of_false (show ¬ -EINVAL = 0 by decide) (fun h => by cases h.1),fun b => rfl⟩
    next child hchild =>
      have hfree : stuck env s band = false := by
        rw [← Bool.not_eq_true,stuck_iff,hchild]
        exact Option.some_ne_none child
      have hlimit (b : Band) : (update s.queues band child b).limit =
          if b = band ∧ env.alloc b = true then some (s.qlen2band.get b).toNat
          else (s.queues b).limit := by
        by_cases hb : b = band
        · subst hb
          rw [update_self,limit_of_tuneChild hchild]
          simp
        · rw [update_of_ne hb,if_neg fun h => hb h.1]
      -- Tuning one queue does not change which ones are stuck.
      have hsame : stuck env { s with queues := update s.queues band child } = stuck env s := by
        funext b
        rw [stuck,stuck]
        dsimp only
        rw [hlimit]
        cases env.alloc b <;> simp
      obtain ⟨hzero,hqueues⟩ := ih { s with queues := update s.queues band child }
      rw [hsame] at hzero
      refine ⟨hzero.trans (by simp [hfree]),fun b => ?_⟩
      rw [hqueues,tuned,hsame,hfree]
      dsimp only
      rw [hlimit,Bool.not_false,if_pos rfl]
      simp only [mem_filter,mem_cons]
      grind

/-- The scheduler when the queues are tuned. -/
def stored (env : Env) (s : Sched α) (opt : QOpt) : Sched α :=
  { s with
    wtedIdx := 0, weight2band := weights s opt, qlen2band := tunedQlens env s opt
    schTable := slots ((weights s opt).beq1.toNat*10 / 100) }

lemma applyMaps_eq (env : Env) (s : Sched α) (opt : QOpt) :
    applyMaps env (weights s opt) (tunedQlens env s opt) s =
      if 10 < tenths s opt then (-EINVAL,{ stored env s opt with schTable := s.schTable })
      else tuneChildren env bands (stored env s opt) :=
  rfl

lemma sameTuning_iff (hten : tenths s opt ≤ 10) :
    SameTuning s (tuneChildren env bands (stored env s opt)).2 ↔
      Repeats env s opt := by
  obtain ⟨queues,hframe⟩ := tuneChildren_frame env bands (stored env s opt)
  have hspec := (tuneChildren_spec env bands (stored env s opt)).2
  rw [hframe] at hspec ⊢
  constructor
  · rintro ⟨h1,h2,h3,h4,h5⟩
    refine ⟨h1.symm,h2.symm,h3.symm,fun _ => ⟨h4.symm,fun band hband => ?_⟩⟩
    rw [← h5 band,hspec band]
    exact if_pos hband
  rintro ⟨h1,h2,h3,hrest⟩
  obtain ⟨h4,h5⟩ := hrest hten
  refine ⟨h1.symm,h2.symm,h3.symm,h4.symm,fun band => ?_⟩
  rw [hspec band]
  split
  next hband => exact (h5 band hband).symm
  next => rfl

/-- After an error the parameters are as before only if the call was refused before it stored
them, or if they are the same. -/
theorem priowrrTune_error_iff {α : Type} (env : Env) (s : Sched α) (opt : QOpt) :
    ((priowrrTune env s opt).1 ≠ 0 → SameTuning s (priowrrTune env s opt).2) ↔
      (Passes env s opt → tenths s opt ≤ 10 ∧ (∀ band, stuck env s band = false) ∨
        Repeats env s opt) := by
  obtain ⟨hpass,htune⟩ | ⟨hpass,htune⟩ := priowrrTune_cases env s opt
  · rw [htune,applyMaps_eq]
    simp only [hpass,forall_const]
    by_cases hten : 10 < tenths s opt
    · rw [if_pos hten]
      constructor
      · intro h
        obtain ⟨h1,h2,h3,-,-⟩ := h (show -EINVAL ≠ 0 by decide)
        exact .inr ⟨h1.symm,h2.symm,h3.symm,fun hle => absurd hten (not_lt.mpr hle)⟩
      · rintro (⟨hle,-⟩ | ⟨h1,h2,h3,-⟩) -
        · exact absurd hten (not_lt.mpr hle)
        · exact ⟨h1.symm,h2.symm,h3.symm,rfl,fun _ => rfl⟩
    have hle := not_lt.mp hten
    have hall : (∀ band ∈ bands, stuck env s band = false) ↔
        ∀ band, stuck env s band = false :=
      ⟨fun h band => h band (by cases band <;> decide),fun h band _ => h band⟩
    rw [if_neg hten,sameTuning_iff hle,Ne,(tuneChildren_spec _ _ _).1,
      show stuck env (stored env s opt) = stuck env s from rfl,hall,or_iff_not_imp_left]
    simp only [hle,true_and]
  · rw [htune]
    exact iff_of_true (fun _ => ⟨rfl,rfl,rfl,rfl,fun _ => rfl⟩) fun h => absurd h hpass

/-- Weights of 100 for both best-effort queues. -/
theorem priowrrTune_fails_weights :
    (priowrrTune device fresh ⟨⟨0,100,100,100⟩,⟨15,20,30,35⟩⟩).1 = -EINVAL ∧
      ¬ SameTuning fresh (priowrrTune device fresh ⟨⟨0,100,100,100⟩,⟨15,20,30,35⟩⟩).2 :=
  ⟨rfl,fun h => absurd h.weights (by decide)⟩

end DslG624t.PrioWrr
