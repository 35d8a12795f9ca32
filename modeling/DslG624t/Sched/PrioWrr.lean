import DslG624t.Lib.SlotScan

/-!
# The priority and weighted round-robin scheduler

`sch_priowrr.c`: two queues with strict priority, and below them two best-effort queues that take
turns by a table of ten slots.
-/

namespace DslG624t.PrioWrr

inductive Band
  | efq1
  | efq2
  | beq1
  | beq2
  deriving DecidableEq

def bands : List Band := [.efq1,.efq2,.beq1,.beq2]

structure PerBand (α : Type) where
  efq1 : α
  efq2 : α
  beq1 : α
  beq2 : α
  deriving DecidableEq

namespace PerBand

variable {α : Type}

def get (m : PerBand α) : Band → α
  | .efq1 => m.efq1
  | .efq2 => m.efq2
  | .beq1 => m.beq1
  | .beq2 => m.beq2

def total (m : PerBand UInt8) : ℕ := m.efq1.toNat+m.efq2.toNat+m.beq1.toNat+m.beq2.toNat

end PerBand

inductive Child (α : Type)
  | noop
  | fifo (limit : ℕ) (pkts : List α)

def Child.pkts {α : Type} : Child α → List α
  | .noop => []
  | .fifo _ pkts => pkts

instance neZeroTen : NeZero 10 := ⟨by decide⟩

structure Sched (α : Type) where
  wtedIdx : Fin 10
  weight2band : PerBand UInt8
  qlen2band : PerBand UInt8
  queues : Band → Child α
  schTable : Fin 10 → Band
  qlen : ℤ

structure QOpt where
  weightmap : PerBand UInt8
  qlenmap : PerBand UInt8

/-- The length of the device's queue, whether the options are too short, and for which bands there
is memory. -/
structure Env where
  txQueueLen : UInt32
  short : Bool
  alloc : Band → Bool

variable {α : Type}

def EINVAL : ℤ := 22

def schDefaultPattern : List ℕ :=
  [0x3FF,0x3DF,0x37B,0x3F8,0x39C,0x155,0x63,0x7,0x84,0x20,0x0]

def slots (wtAfq : ℕ) (i : Fin 10) : Band :=
  if (schDefaultPattern.getD wtAfq 0 >>> (10-i.val-1)) &&& 1 = 0 then .beq1 else .beq2

def weights (s : Sched α) (opt : QOpt) : PerBand UInt8 :=
  if opt.weightmap.beq1 = 0 ∧ opt.weightmap.beq2 = 0 then s.weight2band else opt.weightmap

def qlens (s : Sched α) (opt : QOpt) : PerBand UInt8 :=
  if opt.qlenmap.efq1 = 0 ∨ opt.qlenmap.efq2 = 0 then s.qlen2band else opt.qlenmap

def shareQlens (env : Env) (weightmap qlenmap : PerBand UInt8) : PerBand UInt8 :=
  -- An `int`: the difference and the product wrap.
  let total := (env.txQueueLen-(qlenmap.efq1.toUInt32+qlenmap.efq2.toUInt32)).toInt32
  let beq1 :=
    if qlenmap.beq1 = 0 then (total*weightmap.beq1.toUInt32.toInt32/100).toUInt32.toUInt8
    else qlenmap.beq1
  let beq2 :=
    if qlenmap.beq2 = 0 then (total-beq1.toUInt32.toInt32).toUInt32.toUInt8 else qlenmap.beq2
  { qlenmap with beq1, beq2 }

def tuneChild (alloc : Bool) (limit : ℕ) : Child α → Option (Child α)
  | .noop => some (if alloc then .fifo limit [] else .noop)
  | .fifo _ pkts => if alloc then some (.fifo limit pkts) else none

def tuneChildren (env : Env) : List Band → Sched α → ℤ × Sched α
  | [], s => (0,s)
  | band :: bands, s =>
    match tuneChild (env.alloc band) (s.qlen2band.get band).toNat (s.queues band) with
    | none => (-EINVAL,s)
    | some child => tuneChildren env bands { s with queues := Function.update s.queues band child }

def applyMaps (env : Env) (weightmap qlenmap : PerBand UInt8) (s : Sched α) : ℤ × Sched α :=
  let s := { s with wtedIdx := 0, weight2band := weightmap, qlen2band := qlenmap }
  let wtAfq := s.weight2band.beq1.toNat*10 / 100
  let wtBfq := s.weight2band.beq2.toNat*10 / 100
  if 10 < wtAfq+wtBfq then (-EINVAL,s)
  else tuneChildren env bands { s with schTable := slots wtAfq }

def priowrrTune (env : Env) (s : Sched α) (opt : QOpt) : ℤ × Sched α :=
  if env.short then (-EINVAL,s)
  else
    let weightmap := weights s opt
    if 100 < weightmap.efq2 ∨ 100 < weightmap.beq1 ∨ 100 < weightmap.beq2 ∨
      300 < weightmap.total then (-EINVAL,s)
    else
      let qlenmap := shareQlens env weightmap (qlens s opt)
      if env.txQueueLen.toNat < qlenmap.total then (-EINVAL,s)
      else applyMaps env weightmap qlenmap s

def pop (band : Band) (s : Sched α) : Option (α × Sched α) :=
  match s.queues band with
  | .fifo limit (pkt :: pkts) =>
    some (pkt,
      { s with queues := Function.update s.queues band (.fifo limit pkts), qlen := s.qlen-1 })
  | _ => none

def wrrLoop (wtLimit : Fin 10) : ℕ → Sched α → Option (Option (Band × α) × Sched α)
  | 0, _ => none
  | fuel+1, s =>
    let prio := s.schTable s.wtedIdx
    let s := { s with wtedIdx := SlotScan.next s.wtedIdx }
    match pop prio s with
    | some (skb,s) => some (some (prio,skb),s)
    | none => if s.wtedIdx = wtLimit then some (none,s) else wrrLoop wtLimit fuel s

def priowrrDequeue (s : Sched α) (fuel : ℕ) : Option (Option (Band × α) × Sched α) :=
  match pop .efq1 s with
  | some (skb,s) => some (some (.efq1,skb),s)
  | none =>
    match pop .efq2 s with
    | some (skb,s) => some (some (.efq2,skb),s)
    | none => wrrLoop s.wtedIdx fuel s

variable {env : Env} {s s' : Sched α} {opt : QOpt}

def tunedQlens (env : Env) (s : Sched α) (opt : QOpt) : PerBand UInt8 :=
  shareQlens env (weights s opt) (qlens s opt)

/-- The checks before the parameters are stored. -/
def Passes (env : Env) (s : Sched α) (opt : QOpt) : Prop :=
  ¬ env.short = true ∧
    ¬ (100 < (weights s opt).efq2 ∨ 100 < (weights s opt).beq1 ∨ 100 < (weights s opt).beq2 ∨
      300 < (weights s opt).total) ∧
    ¬ env.txQueueLen.toNat < (tunedQlens env s opt).total

lemma priowrrTune_cases (env : Env) (s : Sched α) (opt : QOpt) :
    Passes env s opt ∧
      priowrrTune env s opt = applyMaps env (weights s opt) (tunedQlens env s opt) s ∨
      ¬ Passes env s opt ∧ priowrrTune env s opt = (-EINVAL,s) := by
  unfold priowrrTune
  split
  next hshort => exact .inr ⟨fun h => h.1 hshort,rfl⟩
  dsimp only
  split
  next hweights => exact .inr ⟨fun h => h.2.1 hweights,rfl⟩
  split
  next hqlens => exact .inr ⟨fun h => h.2.2 hqlens,rfl⟩
  exact .inl ⟨⟨‹_›,‹_›,‹_›⟩,rfl⟩

lemma tuneChildren_frame (env : Env) (bands : List Band) (s : Sched α) :
    ∃ queues, (tuneChildren env bands s).2 = { s with queues } := by
  induction bands generalizing s with
  | nil => exact ⟨s.queues,rfl⟩
  | cons band bands ih =>
    rw [tuneChildren]
    split
    · exact ⟨s.queues,rfl⟩
    · exact ih _

lemma priowrrTune_table (h : priowrrTune env s opt = (0,s')) :
    s'.schTable = slots ((weights s opt).beq1.toNat*10 / 100) ∧
      (weights s opt).beq1.toNat ≤ 100 := by
  obtain ⟨hpass,htune⟩ | ⟨-,htune⟩ := priowrrTune_cases env s opt
  · rw [htune,applyMaps] at h
    dsimp only at h
    split at h
    · cases congrArg Prod.fst h
    obtain ⟨queues,hframe⟩ := tuneChildren_frame env bands _
    refine ⟨?_,not_lt.mp fun hc => hpass.2.1 (.inr (.inl hc))⟩
    rw [← show _ = s' from congrArg Prod.snd h,hframe]
  · cases congrArg Prod.fst (htune.symm.trans h)

lemma slots_spec : ∀ wt ≤ 10,
    ((∃ i, slots wt i = .beq1) ↔ 1 ≤ wt) ∧ ((∃ i, slots wt i = .beq2) ↔ wt ≤ 9) ∧
      ∀ i, slots wt i = .beq1 ∨ slots wt i = .beq2 := by
  decide

def Sched.pkts (s : Sched α) (band : Band) : List α := (s.queues band).pkts

lemma pop_cases (band : Band) (s : Sched α) :
    pop band s = none ∧ s.pkts band = [] ∨
      ∃ skb s', pop band s = some (skb,s') ∧ s.pkts band ≠ [] := by
  rw [pop,Sched.pkts]
  cases s.queues band with
  | noop => exact .inl ⟨rfl,rfl⟩
  | fifo limit pkts =>
    cases pkts with
    | nil => exact .inl ⟨rfl,rfl⟩
    | cons pkt pkts => exact .inr ⟨_,_,rfl,List.cons_ne_nil _ _⟩

def Sched.polled (s : Sched α) (i : Fin 10) : Bool := !(s.pkts (s.schTable i)).isEmpty

lemma wrrLoop_scan (wtLimit : Fin 10) (fuel : ℕ) (s : Sched α) :
    (∀ j, SlotScan.scan s.polled wtLimit fuel s.wtedIdx = some (some j) →
      ∃ skb s', wrrLoop wtLimit fuel s = some (some (s.schTable j,skb),s')) ∧
    (SlotScan.scan s.polled wtLimit fuel s.wtedIdx = some none →
      ∃ s', wrrLoop wtLimit fuel s = some (none,s')) := by
  induction fuel generalizing s with
  | zero => exact ⟨fun _ h => (by cases h),fun h => (by cases h)⟩
  | succ fuel ih =>
    rw [wrrLoop,SlotScan.scan]
    rcases pop_cases (s.schTable s.wtedIdx) { s with wtedIdx := SlotScan.next s.wtedIdx } with
      ⟨hpop,hnil⟩ | ⟨skb,s',hpop,hne⟩
    · have hpolled : s.polled s.wtedIdx = false := by
        rw [Sched.polled,show s.pkts (s.schTable s.wtedIdx) = [] from hnil]
        rfl
      simp only [hpop,hpolled,Bool.false_eq_true,if_false]
      by_cases hlast : SlotScan.next s.wtedIdx = wtLimit
      · rw [if_pos hlast,if_pos hlast]
        exact ⟨fun _ h => (by cases h),fun _ => ⟨_,rfl⟩⟩
      · rw [if_neg hlast,if_neg hlast]
        exact ih { s with wtedIdx := SlotScan.next s.wtedIdx }
    have hpolled : s.polled s.wtedIdx = true := by
      rw [Sched.polled,Bool.not_eq_true',List.isEmpty_eq_false_iff]
      exact hne
    simp only [hpop,hpolled,if_true]
    refine ⟨fun j hj => ?_,fun h => by cases h⟩
    cases hj
    exact ⟨skb,s',rfl⟩

lemma wrrLoop_mono {wtLimit : Fin 10} {fuel fuel' : ℕ} (hle : fuel ≤ fuel')
    {r : Option (Band × α) × Sched α} (h : wrrLoop wtLimit fuel s = some r) :
    wrrLoop wtLimit fuel' s = some r := by
  induction fuel generalizing fuel' s with
  | zero => cases h
  | succ fuel ih =>
    obtain ⟨fuel',rfl⟩ : ∃ k, fuel' = k+1 := ⟨fuel'-1,by omega⟩
    rw [wrrLoop] at h ⊢
    dsimp only at h ⊢
    split
    next hpop => rwa [hpop] at h
    next hpop =>
      rw [hpop] at h
      dsimp only at h
      split
      next hlast => rwa [if_pos hlast] at h
      next hlast =>
        rw [if_neg hlast] at h
        exact ih (by omega) h

def Returns (s : Sched α) (r : Option (Band × α)) : Prop :=
  ∃ s', ∀ fuel, 10 ≤ fuel → priowrrDequeue s fuel = some (r,s')

lemma returns_efq1 (h : s.pkts .efq1 ≠ []) : ∃ skb, Returns s (some (.efq1,skb)) := by
  rcases pop_cases .efq1 s with ⟨-,hnil⟩ | ⟨skb,s',hpop,-⟩
  · exact absurd hnil h
  · exact ⟨skb,s',fun fuel _ => by rw [priowrrDequeue,hpop]⟩

lemma returns_efq2 (h1 : s.pkts .efq1 = []) (h2 : s.pkts .efq2 ≠ []) :
    ∃ skb, Returns s (some (.efq2,skb)) := by
  rcases pop_cases .efq1 s with ⟨hpop1,-⟩ | ⟨skb,s',-,hne⟩
  · rcases pop_cases .efq2 s with ⟨-,hnil⟩ | ⟨skb,s',hpop2,-⟩
    · exact absurd hnil h2
    · exact ⟨skb,s',fun fuel _ => by rw [priowrrDequeue,hpop1,hpop2]⟩
  · exact absurd h1 hne

lemma priowrrDequeue_wrr (h1 : s.pkts .efq1 = []) (h2 : s.pkts .efq2 = []) (fuel : ℕ) :
    priowrrDequeue s fuel = wrrLoop s.wtedIdx fuel s := by
  rcases pop_cases .efq1 s with ⟨hpop1,-⟩ | ⟨skb,s',-,hne⟩
  · rcases pop_cases .efq2 s with ⟨hpop2,-⟩ | ⟨skb,s',-,hne⟩
    · rw [priowrrDequeue,hpop1,hpop2]
    · exact absurd h2 hne
  · exact absurd h1 hne

lemma returns_wrr (h1 : s.pkts .efq1 = []) (h2 : s.pkts .efq2 = []) :
    (∃ j skb, s.pkts (s.schTable j) ≠ [] ∧ Returns s (some (s.schTable j,skb))) ∨
      (∀ j, s.pkts (s.schTable j) = []) ∧ Returns s none := by
  have hreturns {r : Option (Band × α)} {s' : Sched α}
      (h : wrrLoop s.wtedIdx 10 s = some (r,s')) : Returns s r :=
    ⟨s',fun fuel hfuel => by rw [priowrrDequeue_wrr h1 h2,wrrLoop_mono hfuel h]⟩
  obtain ⟨hfound,hnone⟩ := wrrLoop_scan s.wtedIdx 10 s
  rcases SlotScan.scan_spec s.polled s.wtedIdx (le_refl 10) with ⟨j,hj,hpolled⟩ | ⟨hscan,hall⟩
  · obtain ⟨skb,s',hrun⟩ := hfound j hj
    refine .inl ⟨j,skb,?_,hreturns hrun⟩
    rwa [Sched.polled,Bool.not_eq_true',List.isEmpty_eq_false_iff] at hpolled
  · obtain ⟨s',hrun⟩ := hnone hscan
    refine .inr ⟨fun j => ?_,hreturns hrun⟩
    have := hall j
    rwa [Sched.polled,Bool.not_eq_false',List.isEmpty_iff] at this

/-- A packet is returned if there is one, and none while one of higher priority waits. -/
structure Serves (s : Sched α) (r : Option (Band × α)) : Prop where
  conserving : r = none → ∀ band, s.pkts band = []
  second : ∀ skb, r = some (.efq2,skb) → s.pkts .efq1 = []
  bestEffort : ∀ band skb, r = some (band,skb) → band = .beq1 ∨ band = .beq2 →
    s.pkts .efq1 = [] ∧ s.pkts .efq2 = []

def WorkConserving (s : Sched α) : Prop := ∃ r, Returns s r ∧ Serves s r

lemma Returns.unique {r r' : Option (Band × α)} (h : Returns s r) (h' : Returns s r') : r = r' := by
  obtain ⟨t,ht⟩ := h
  obtain ⟨t',ht'⟩ := h'
  have := (ht 10 (le_refl 10)).symm.trans (ht' 10 (le_refl 10))
  injection this with this
  injection this

lemma workConserving_iff_polled (s : Sched α) :
    WorkConserving s ↔
      (s.pkts .efq1 = [] → s.pkts .efq2 = [] → (∀ j, s.pkts (s.schTable j) = []) →
        ∀ band, s.pkts band = []) := by
  constructor
  · rintro ⟨r,hr,hserves⟩ h1 h2 hall
    rcases returns_wrr h1 h2 with ⟨j,skb,hne,-⟩ | ⟨-,hnone⟩
    · exact absurd (hall j) hne
    · exact hserves.conserving (hr.unique hnone)
  intro h
  by_cases h1 : s.pkts .efq1 = []
  · by_cases h2 : s.pkts .efq2 = []
    · rcases returns_wrr h1 h2 with ⟨j,skb,-,hr⟩ | ⟨hall,hr⟩
      · exact ⟨_,hr,nofun,fun _ _ => h1,fun _ _ _ _ => ⟨h1,h2⟩⟩
      · exact ⟨_,hr,fun _ => h h1 h2 hall,nofun,nofun⟩
    · obtain ⟨skb,hr⟩ := returns_efq2 h1 h2
      refine ⟨_,hr,nofun,fun _ _ => h1,?_⟩
      rintro band skb' heq (rfl | rfl) <;> cases heq
  obtain ⟨skb,hr⟩ := returns_efq1 h1
  refine ⟨_,hr,nofun,?_,?_⟩
  · intro skb' heq
    cases heq
  · rintro band skb' heq (rfl | rfl) <;> cases heq

lemma slots_empty_iff {wt : ℕ} (hwt : wt ≤ 10) (empty : Band → Prop) :
    (∀ j, empty (slots wt j)) ↔ (1 ≤ wt → empty .beq1) ∧ (wt ≤ 9 → empty .beq2) := by
  obtain ⟨hbeq1,hbeq2,honly⟩ := slots_spec wt hwt
  constructor
  · intro h
    refine ⟨fun hle => ?_,fun hle => ?_⟩
    · obtain ⟨i,hi⟩ := hbeq1.mpr hle
      exact hi ▸ h i
    · obtain ⟨i,hi⟩ := hbeq2.mpr hle
      exact hi ▸ h i
  rintro ⟨h1,h2⟩ j
  rcases honly j with hj | hj
  · rw [hj]
    exact h1 (hbeq1.mp ⟨j,hj⟩)
  · rw [hj]
    exact h2 (hbeq2.mp ⟨j,hj⟩)

theorem workConserving_iff (h : priowrrTune env s opt = (0,s')) (wtedIdx : Fin 10)
    (queues : Band → Child α) :
    WorkConserving { s' with wtedIdx, queues } ↔
      ((queues .efq1).pkts = [] → (queues .efq2).pkts = [] →
        ((weights s opt).beq1.toNat < 10 → (queues .beq2).pkts = [] → (queues .beq1).pkts = []) ∧
        (100 ≤ (weights s opt).beq1.toNat → (queues .beq1).pkts = [] →
          (queues .beq2).pkts = [])) := by
  obtain ⟨htable,hle⟩ := priowrrTune_table h
  rw [workConserving_iff_polled]
  simp only [Sched.pkts,htable]
  rw [slots_empty_iff (by omega) fun band => (queues band).pkts = []]
  constructor
  · intro hall h1 h2
    refine ⟨fun hw hbeq2 => ?_,fun hw hbeq1 => ?_⟩
    · exact hall h1 h2 ⟨fun hwt => absurd hwt (by omega),fun _ => hbeq2⟩ .beq1
    · exact hall h1 h2 ⟨fun _ => hbeq1,fun hwt => absurd hwt (by omega)⟩ .beq2
  rintro hrest h1 h2 ⟨hbeq1,hbeq2⟩ band
  obtain ⟨hlow,hhigh⟩ := hrest h1 h2
  have hboth : (queues .beq1).pkts = [] ∧ (queues .beq2).pkts = [] := by
    by_cases hw : (weights s opt).beq1.toNat < 10
    · have h2' := hbeq2 (by omega)
      exact ⟨hlow hw h2',h2'⟩
    · have h1' := hbeq1 (by omega)
      by_cases hw' : 100 ≤ (weights s opt).beq1.toNat
      · exact ⟨h1',hhigh hw' h1'⟩
      · exact ⟨h1',hbeq2 (by omega)⟩
  cases band with
  | efq1 => exact h1
  | efq2 => exact h2
  | beq1 => exact hboth.1
  | beq2 => exact hboth.2

def fresh : Sched ℕ := ⟨0,⟨0,0,0,0⟩,⟨0,0,0,0⟩,fun _ => .noop,fun _ => .efq1,0⟩

def device : Env := ⟨100,false,fun _ => true⟩

def only (band : Band) : Band → Child ℕ := fun b => .fifo 10 (if b = band then [7] else [])

/-- The default weights. -/
theorem workConserving_default :
    WorkConserving
      { (priowrrTune device fresh ⟨⟨100,100,70,30⟩,⟨15,20,30,35⟩⟩).2 with
        wtedIdx := 3, queues := only .beq2 } := by
  have htune : priowrrTune device fresh ⟨⟨100,100,70,30⟩,⟨15,20,30,35⟩⟩ =
      (0,(priowrrTune device fresh ⟨⟨100,100,70,30⟩,⟨15,20,30,35⟩⟩).2) := rfl
  exact (workConserving_iff htune 3 (only .beq2)).mpr fun _ _ =>
    ⟨fun hw => absurd hw (by decide),fun hw => absurd hw (by decide)⟩

/-- With a weight of 5, a packet of the first best-effort queue is never sent. -/
theorem workConserving_fails_five :
    (priowrrTune device fresh ⟨⟨100,100,5,95⟩,⟨15,20,30,35⟩⟩).1 = 0 ∧
      ¬ WorkConserving
        { (priowrrTune device fresh ⟨⟨100,100,5,95⟩,⟨15,20,30,35⟩⟩).2 with
          wtedIdx := 0, queues := only .beq1 } := by
  refine ⟨rfl,?_⟩
  rw [workConserving_iff_polled]
  intro h
  exact absurd (h rfl rfl (by decide) .beq1) (by decide)

end DslG624t.PrioWrr
