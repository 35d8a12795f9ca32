import DslG624t.Sched.PrioWrr

/-!
# Taking a packet back

`priowrr_enqueue` classifies a packet and writes its band into the priority field, the bands of
the strict queues moved up by 7.
-/

namespace DslG624t.PrioWrr

open Function List

structure Skb where
  priority : UInt32
  cb47 : UInt8
  id : ℕ
  deriving DecidableEq

def TC_H_MAJ (h : UInt32) : UInt32 := h &&& 0xFFFF0000

def TC_H_MIN (h : UInt32) : UInt32 := h &&& 0x0000FFFF

def prio2band : List Band :=
  [.beq2,.beq2,.beq1,.beq2,.beq1,.beq2,.efq2,.efq2,.beq1,.beq1,.beq1,.beq1,.beq1,.beq1,.beq1,.beq1]

def Band.toUInt32 : Band → UInt32
  | .efq1 => 0
  | .efq2 => 1
  | .beq1 => 2
  | .beq2 => 3

/-- `band < q->bands ? band : prio2band[0]`. -/
def ofBand (band : UInt32) : Band :=
  if band = 0 then .efq1
  else if band = 1 then .efq2
  else if band = 2 then .beq1
  else if band = 3 then .beq2
  else prio2band.getD 0 .beq2

/-- `filters` is the list of filters, if there is one: the class that `tc_classify` finds, or
nothing if it fails. -/
def priowrrClassify (handle : UInt32) (filters : Option (Skb → Option UInt32)) (skb : Skb) :
    Band :=
  if skb.priority = 0xFFFF then .efq1
  else if skb.priority = 0xFAAD then .efq2
  else if skb.priority = 0xFADD then .beq1
  else if skb.priority = 0xFDDD then .beq2
  else if TC_H_MAJ skb.priority ≠ handle then
    match filters.bind (fun classify => classify skb) with
    | none =>
      let band := if TC_H_MAJ skb.priority ≠ 0 then 0 else skb.priority
      prio2band.getD (band &&& 15).toNat .beq2
    | some classid => ofBand (TC_H_MIN classid-1)
  else ofBand (TC_H_MIN skb.priority-1)

def mark (band : Band) (skb : Skb) : Skb :=
  { skb with
    cb47 := if band = .efq1 ∨ band = .efq2 then 1 else 3
    priority := if band = .efq1 ∨ band = .efq2 then band.toUInt32+7 else band.toUInt32 }

def NET_XMIT_DROP : ℤ := 1
def NET_XMIT_CN : ℤ := 2

section Child

variable {α : Type}

def Child.enqueue (pkt : α) : Child α → ℤ × Child α
  | .noop => (NET_XMIT_CN,.noop)
  | .fifo limit pkts =>
    if pkts.length < limit then (0,.fifo limit (pkts ++ [pkt]))
    else (NET_XMIT_DROP,.fifo limit pkts)

def Child.requeue (pkt : α) : Child α → ℤ × Child α
  | .noop => (NET_XMIT_CN,.noop)
  | .fifo limit pkts => (0,.fifo limit (pkt :: pkts))

def Child.drop : Child α → Option (Bool × Child α)
  | .noop => none
  | .fifo limit pkts => some (!pkts.isEmpty,.fifo limit pkts.dropLast)

def Child.reset : Child α → Child α
  | .noop => .noop
  | .fifo limit _ => .fifo limit []

end Child

def priowrrEnqueue (handle : UInt32) (filters : Option (Skb → Option UInt32)) (skb : Skb)
    (s : Sched Skb) : ℤ × Sched Skb :=
  let band := priowrrClassify handle filters skb
  let (ret,child) := (s.queues band).enqueue (mark band skb)
  if ret = 0 then
    (0,{ s with queues := update s.queues band child, qlen := s.qlen+1 })
  else (ret,s)

def priowrrRequeue (handle : UInt32) (filters : Option (Skb → Option UInt32)) (skb : Skb)
    (s : Sched Skb) : ℤ × Sched Skb :=
  let band := priowrrClassify handle filters skb
  let (ret,child) := (s.queues band).requeue skb
  if ret = 0 then
    (0,{ s with queues := update s.queues band child, qlen := s.qlen+1 })
  else (ret,s)

/-- The loop of `priowrr_drop`. -/
def dropBands {α : Type} : List Band → Sched α → Option (ℤ × Sched α)
  | [], s => some (0,s)
  | band :: bands, s =>
    match (s.queues band).drop with
    | none => none
    | some (true,child) =>
      some (1,{ s with queues := update s.queues band child, qlen := s.qlen-1 })
    | some (false,_) => dropBands bands s

def priowrrDrop {α : Type} (s : Sched α) : Option (ℤ × Sched α) :=
  dropBands [.beq2,.beq1,.efq2,.efq1] s

def priowrrReset {α : Type} (s : Sched α) : Sched α :=
  { s with queues := fun band => (s.queues band).reset, qlen := 0 }

/-- The result, the queue that was there, and the state; `arg-1` is unsigned. -/
def priowrrGraft {α : Type} (arg : UInt32) (new : Option (Child α)) (s : Sched α) :
    ℤ × Option (Child α) × Sched α :=
  match bands[(arg-1).toNat]? with
  | none => (-EINVAL,none,s)
  | some band =>
    (0,some (s.queues band).reset,{ s with queues := update s.queues band (new.getD .noop) })

def initial (α : Type) : Sched α :=
  ⟨0,⟨0,0,0,0⟩,⟨0,0,0,0⟩,fun _ => .noop,fun _ => .efq1,0⟩

/-- The states of a scheduler without filters whose packets all came through
`priowrr_enqueue`. -/
inductive Reached (handle : UInt32) : Sched Skb → Prop
  | init : Reached handle (initial Skb)
  | tune {s} (env : Env) (opt : QOpt) : Reached handle s →
    Reached handle (priowrrTune env s opt).2
  | enqueue {s} (skb : Skb) : Reached handle s →
    Reached handle (priowrrEnqueue handle none skb s).2
  | dequeue {s r s'} (fuel : ℕ) : Reached handle s → priowrrDequeue s fuel = some (r,s') →
    Reached handle s'
  | drop {s r s'} : Reached handle s → priowrrDrop s = some (r,s') → Reached handle s'
  | reset {s} : Reached handle s → Reached handle (priowrrReset s)
  | graft {s} (arg : UInt32) (new : Option (Child Skb)) : Reached handle s →
    (new.getD .noop).pkts = [] → Reached handle (priowrrGraft arg new s).2.2

section Steps

variable {α : Type} {s s' : Sched α}

def Within (s' s : Sched α) : Prop := ∀ band, ∀ pkt ∈ s'.pkts band, pkt ∈ s.pkts band

variable {band : Band} {fuel : ℕ} {r : Option (Band × α)}

lemma Within.refl (s : Sched α) : Within s s := fun _ _ h => h

lemma pkts_update (queues : Band → Child α) (band b : Band) (child : Child α) :
    (update queues band child b).pkts =
      if b = band then child.pkts else (queues b).pkts := by
  by_cases h : b = band
  · rw [h,update_self,if_pos rfl]
  · rw [update_of_ne h,if_neg h]

lemma within_of_update {child : Child α} (hq : s'.queues = update s.queues band child)
    (hc : ∀ pkt ∈ child.pkts, pkt ∈ s.pkts band) : Within s' s := by
  intro b pkt hpkt
  rw [Sched.pkts,hq,pkts_update] at hpkt
  split at hpkt
  next hb =>
    subst hb
    exact hc pkt hpkt
  next => exact hpkt

lemma tuneChild_pkts {alloc : Bool} {limit : ℕ} {child child' : Child α}
    (h : tuneChild alloc limit child = some child') : child'.pkts = child.pkts := by
  cases child with
  | noop =>
    cases h
    cases alloc <;> rfl
  | fifo l pkts =>
    cases alloc with
    | false => cases h
    | true =>
      cases h
      rfl

lemma tuneChildren_pkts (env : Env) (bands : List Band) (s : Sched α) :
    (tuneChildren env bands s).2.pkts = s.pkts := by
  induction bands generalizing s with
  | nil => rfl
  | cons band bands ih =>
    rw [tuneChildren]
    split
    next => rfl
    next child hchild =>
      rw [ih]
      funext b
      show (update s.queues band child b).pkts = (s.queues b).pkts
      rw [pkts_update,tuneChild_pkts hchild]
      split
      next hb => rw [hb]
      next => rfl

lemma priowrrTune_pkts (env : Env) (s : Sched α) (opt : QOpt) :
    (priowrrTune env s opt).2.pkts = s.pkts := by
  obtain ⟨-,htune⟩ | ⟨-,htune⟩ := priowrrTune_cases env s opt
  · rw [htune,applyMaps]
    dsimp only
    split
    · rfl
    · exact tuneChildren_pkts env _ _
  · rw [htune]

lemma pop_some {pkt : α} (h : pop band s = some (pkt,s')) :
    ∃ limit pkts, s.queues band = .fifo limit (pkt :: pkts) ∧
      s'.queues = update s.queues band (.fifo limit pkts) := by
  unfold pop at h
  split at h
  next limit p pkts hq =>
    cases h
    exact ⟨limit,pkts,hq,rfl⟩
  next => cases h

lemma pop_none (h : pop band s = none) : s.pkts band = [] := by
  rcases pop_cases band s with ⟨-,hnil⟩ | ⟨pkt,t,hpop,-⟩
  · exact hnil
  · rw [h] at hpop
    cases hpop

lemma wrrLoop_some {wtLimit : Fin 10} (h : wrrLoop wtLimit fuel s = some (r,s')) :
    ∃ i, r = none ∧ s' = { s with wtedIdx := i } ∨
      ∃ band pkt, r = some (band,pkt) ∧ pop band { s with wtedIdx := i } = some (pkt,s') := by
  induction fuel generalizing s with
  | zero => cases h
  | succ fuel ih =>
    rw [wrrLoop] at h
    dsimp only at h
    split at h
    next pkt t hpop =>
      cases h
      exact ⟨_,.inr ⟨_,pkt,rfl,hpop⟩⟩
    next =>
      split at h
      next =>
        cases h
        exact ⟨_,.inl ⟨rfl,rfl⟩⟩
      next =>
        have hrest := ih h
        exact hrest

/-- A dequeue takes a packet from a band or only moves the position. -/
lemma priowrrDequeue_some (h : priowrrDequeue s fuel = some (r,s')) :
    ∃ i, r = none ∧ s' = { s with wtedIdx := i } ∨
      ∃ band pkt, r = some (band,pkt) ∧ pop band { s with wtedIdx := i } = some (pkt,s') ∧
        (band = .beq1 ∨ band = .beq2 → s.pkts .efq1 = [] ∧ s.pkts .efq2 = []) := by
  unfold priowrrDequeue at h
  split at h
  next pkt t hpop =>
    cases h
    exact ⟨_,.inr ⟨_,pkt,rfl,hpop,by simp⟩⟩
  next hpop1 =>
    split at h
    next pkt t hpop =>
      cases h
      exact ⟨_,.inr ⟨_,pkt,rfl,hpop,by simp⟩⟩
    next hpop2 =>
      obtain ⟨i,hnone | ⟨band,pkt,hr,hpop⟩⟩ := wrrLoop_some h
      · exact ⟨i,.inl hnone⟩
      · exact ⟨i,.inr ⟨band,pkt,hr,hpop,fun _ => ⟨pop_none hpop1,pop_none hpop2⟩⟩⟩

lemma priowrrDequeue_within (h : priowrrDequeue s fuel = some (r,s')) : Within s' s := by
  obtain ⟨i,⟨-,rfl⟩ | ⟨band,pkt,-,hpop,-⟩⟩ := priowrrDequeue_some h
  · exact Within.refl s
  · obtain ⟨limit,pkts,hq,hq'⟩ := pop_some hpop
    apply within_of_update hq'
    intro p hp
    rw [Sched.pkts,show s.queues band = _ from hq]
    exact mem_cons_of_mem pkt hp

lemma dropBands_within {bands : List Band} {r : ℤ} (h : dropBands bands s = some (r,s')) :
    Within s' s := by
  induction bands with
  | nil =>
    cases h
    exact Within.refl s
  | cons band bands ih =>
    rw [dropBands] at h
    split at h
    next => cases h
    next child hdrop =>
      cases h
      apply within_of_update rfl
      intro pkt hpkt
      rw [Sched.pkts]
      cases hq : s.queues band with
      | noop =>
        rw [hq] at hdrop
        cases hdrop
      | fifo limit pkts =>
        rw [hq] at hdrop
        obtain rfl : Child.fifo limit pkts.dropLast = child :=
          congrArg Prod.snd (Option.some.inj hdrop)
        exact (dropLast_sublist pkts).subset hpkt
    next => exact ih h

lemma priowrrGraft_within {arg : UInt32} {new : Option (Child α)}
    (h : (new.getD .noop).pkts = []) : Within (priowrrGraft arg new s).2.2 s := by
  unfold priowrrGraft
  split
  next => exact Within.refl s
  next => exact within_of_update rfl (h ▸ fun _ hp => nomatch hp)

lemma priowrrReset_pkts (s : Sched α) (band : Band) : (priowrrReset s).pkts band = [] := by
  show (s.queues band).reset.pkts = []
  cases s.queues band <;> rfl

end Steps

def Marked (s : Sched Skb) : Prop := ∀ band, ∀ skb ∈ s.pkts band, mark band skb = skb

variable {handle : UInt32} {skb : Skb} {s s' : Sched Skb}

lemma Marked.within (h : Marked s) (hw : Within s' s) : Marked s' :=
  fun band skb hskb => h band skb (hw band skb hskb)

lemma mark_mark (band : Band) (skb : Skb) : mark band (mark band skb) = mark band skb := rfl

lemma marked_priowrrEnqueue (skb : Skb) (h : Marked s) :
    Marked (priowrrEnqueue handle none skb s).2 := by
  unfold priowrrEnqueue
  generalize priowrrClassify handle none skb = band
  dsimp only
  split
  next hret =>
    intro b p hp
    rw [Sched.pkts,pkts_update] at hp
    split at hp
    next hb =>
      subst hb
      cases hq : s.queues b with
      | noop =>
        rw [hq] at hp
        cases hp
      | fifo limit pkts =>
        have hold : ∀ p ∈ pkts, mark b p = p := by
          have := h b
          rwa [Sched.pkts,hq] at this
        rw [hq,Child.enqueue] at hp
        split at hp
        next =>
          rcases mem_append.mp hp with hp | hp
          · exact hold p hp
          · rw [mem_singleton.mp hp,mark_mark]
        next => exact hold p hp
    next => exact h b p hp
  next => exact h

lemma Reached.marked (h : Reached handle s) : Marked s := by
  induction h with
  | init => exact fun _ _ hp => nomatch hp
  | tune env opt _ ih =>
    intro band skb hskb
    rw [priowrrTune_pkts] at hskb
    exact ih band skb hskb
  | enqueue skb _ ih => exact marked_priowrrEnqueue skb ih
  | dequeue fuel _ hd ih => exact ih.within (priowrrDequeue_within hd)
  | drop _ hd ih => exact ih.within (dropBands_within hd)
  | reset _ _ =>
    intro band skb hskb
    rw [priowrrReset_pkts] at hskb
    cases hskb
  | graft arg new _ hnew ih => exact ih.within (priowrrGraft_within hnew)

def reclassified (handle : UInt32) : Band → Band
  | .efq1 => if handle = 0 then .beq2 else .efq2
  | .efq2 => if handle = 0 then .beq2 else .beq1
  | .beq1 => if handle = 0 then .efq2 else .beq1
  | .beq2 => if handle = 0 then .beq1 else .beq2

lemma priowrrClassify_plain (hqueue : skb.priority ∉ [0xFFFF,0xFAAD,0xFADD,0xFDDD])
    (hclass : TC_H_MAJ skb.priority = 0) :
    priowrrClassify handle none skb =
      if handle = 0 then ofBand (TC_H_MIN skb.priority-1)
      else prio2band.getD (skb.priority &&& 15).toNat .beq2 := by
  simp only [mem_cons,not_mem_nil,not_or,or_false] at hqueue
  obtain ⟨h1,h2,h3,h4⟩ := hqueue
  rw [priowrrClassify,if_neg h1,if_neg h2,if_neg h3,if_neg h4,hclass]
  by_cases h0 : handle = 0
  · rw [if_neg (fun h => h h0.symm),if_pos h0]
  · rw [if_pos (fun h => h0 h.symm),if_neg h0]
    rfl

lemma priowrrClassify_marked {band : Band} (h : mark band skb = skb) :
    priowrrClassify handle none skb = reclassified handle band := by
  have hp : skb.priority =
      if band = .efq1 ∨ band = .efq2 then band.toUInt32+7 else band.toUInt32 :=
    congrArg Skb.priority h.symm
  have hqueue : skb.priority ∉ [0xFFFF,0xFAAD,0xFADD,0xFDDD] := by
    rw [hp]
    cases band <;> decide
  have hclass : TC_H_MAJ skb.priority = 0 := by
    rw [hp]
    cases band <;> decide
  rw [priowrrClassify_plain hqueue hclass,hp]
  cases band <;> rfl

lemma reclassified_eq_iff (handle : UInt32) (band : Band) :
    reclassified handle band = band ↔ handle ≠ 0 ∧ (band = .beq1 ∨ band = .beq2) := by
  by_cases h0 : handle = 0 <;> cases band <;> simp [reclassified,h0]

lemma priowrrRequeue_ok {filters : Option (Skb → Option UInt32)}
    (h : priowrrRequeue handle filters skb s = (0,s')) (b : Band) :
    s'.pkts b = if b = priowrrClassify handle filters skb then skb :: s.pkts b
      else s.pkts b := by
  unfold priowrrRequeue at h
  generalize priowrrClassify handle filters skb = band at h ⊢
  dsimp only at h
  cases hq : s.queues band with
  | noop =>
    rw [hq] at h
    have hret : NET_XMIT_CN = 0 := congrArg Prod.fst h
    exact absurd hret (by decide)
  | fifo limit pkts =>
    rw [hq] at h
    obtain rfl := congrArg Prod.snd h
    show (update s.queues band (.fifo limit (skb :: pkts)) b).pkts = _
    rw [pkts_update]
    split
    next hb =>
      subst hb
      rw [Sched.pkts,hq]
      rfl
    next => rfl

/-- A packet that is taken back is where it was only if it came from a best-effort queue: the
field of packets from the strict queues names other bands. -/
theorem requeue_restores_iff {handle : UInt32} {s s₁ s₂ : Sched Skb} {fuel : ℕ} {band : Band}
    {skb : Skb} (hs : Reached handle s)
    (hd : priowrrDequeue s fuel = some (some (band,skb),s₁))
    (hr : priowrrRequeue handle none skb s₁ = (0,s₂)) :
    (∀ b, s₂.pkts b = s.pkts b) ↔ handle ≠ 0 ∧ s.pkts .efq1 = [] ∧ s.pkts .efq2 = [] := by
  obtain ⟨i,⟨hnone,-⟩ | ⟨b',p,hsome,hpop,hlow⟩⟩ := priowrrDequeue_some hd
  · cases hnone
  cases hsome
  obtain ⟨limit,pkts,hq,hq'⟩ := pop_some hpop
  have hpkts : s.pkts band = skb :: pkts := congrArg Child.pkts hq
  have hmark : mark band skb = skb := hs.marked band skb (by rw [hpkts]; exact mem_cons_self)
  have hs₁ : ∀ b, s₁.pkts b = if b = band then pkts else s.pkts b := by
    intro b
    rw [Sched.pkts,hq',pkts_update]
    rfl
  have hs₂ := priowrrRequeue_ok hr
  rw [priowrrClassify_marked hmark] at hs₂
  have hsame : (∀ b, s₂.pkts b = s.pkts b) ↔ reclassified handle band = band := by
    constructor
    · intro h
      apply Classical.byContradiction
      intro hne
      have hband := h band
      rw [hs₂,if_neg (fun heq => hne heq.symm),hs₁,if_pos rfl,hpkts] at hband
      exact cons_ne_self skb pkts hband.symm
    intro h b
    rw [hs₂,h,hs₁]
    split
    next hb => rw [hb,hpkts]
    next => rfl
  have hstrict : band = .beq1 ∨ band = .beq2 ↔ s.pkts .efq1 = [] ∧ s.pkts .efq2 = [] := by
    refine ⟨hlow,?_⟩
    rintro ⟨h1,h2⟩
    cases band with
    | efq1 => rw [hpkts] at h1; cases h1
    | efq2 => rw [hpkts] at h2; cases h2
    | beq1 => exact .inl rfl
    | beq2 => exact .inr rfl
  rw [hsame,reclassified_eq_iff,hstrict]

def holding (priority : UInt32) : Sched Skb :=
  (priowrrEnqueue 0x10000 none ⟨priority,0,1⟩
    (priowrrTune device (initial Skb) ⟨⟨100,100,70,30⟩,⟨15,20,30,35⟩⟩).2).2

lemma reached_holding (priority : UInt32) : Reached 0x10000 (holding priority) :=
  .enqueue _ (.tune _ _ .init)

/-- A packet of the first best-effort queue. -/
theorem requeue_restores_bulk : ∃ s₁ s₂ skb,
    priowrrDequeue (holding 4) 10 = some (some (.beq1,skb),s₁) ∧
      priowrrRequeue 0x10000 none skb s₁ = (0,s₂) ∧ ∀ b, s₂.pkts b = (holding 4).pkts b := by
  refine ⟨_,_,_,rfl,rfl,?_⟩
  exact (requeue_restores_iff (reached_holding 4)
    (show priowrrDequeue (holding 4) 10 = _ from rfl) rfl).mpr ⟨by decide,by decide,by decide⟩

/-- A packet of the first strict queue goes back into the second. -/
theorem requeue_demotes_voice : Reached 0x10000 (holding 0xFFFF) ∧ ∃ s₁ s₂ skb,
    priowrrDequeue (holding 0xFFFF) 10 = some (some (.efq1,skb),s₁) ∧
      priowrrRequeue 0x10000 none skb s₁ = (0,s₂) ∧ s₂.pkts .efq2 = [skb] ∧
      ¬ ∀ b, s₂.pkts b = (holding 0xFFFF).pkts b := by
  refine ⟨reached_holding _,_,_,_,rfl,rfl,rfl,?_⟩
  intro h
  exact absurd (h .efq1) (by decide)

end DslG624t.PrioWrr
