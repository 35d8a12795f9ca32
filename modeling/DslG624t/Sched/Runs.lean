import DslG624t.Sched.Requeue

/-!
# Runs of the scheduler

All operations of the scheduler, with `priowrr_graft`, in any order: what they leave of the table,
of the position in it and of the number of packets.
-/

namespace DslG624t.PrioWrr

open Function List

inductive Op
  | enqueue (filters : Option (Skb → Option UInt32)) (skb : Skb)
  | dequeue
  | requeue (filters : Option (Skb → Option UInt32)) (skb : Skb)
  | drop
  | reset
  | graft (arg : UInt32) (new : Option (Child Skb))
  | tune (env : Env) (opt : QOpt)

/-- The state after an operation, and for a dequeue the band that was served. -/
def exec (handle : UInt32) : Op → Sched Skb → Option (List (Option Band) × Sched Skb)
  | .enqueue filters skb, s => some ([],(priowrrEnqueue handle filters skb s).2)
  | .dequeue, s => (priowrrDequeue s 10).map fun x => ([x.1.map Prod.fst],x.2)
  | .requeue filters skb, s => some ([],(priowrrRequeue handle filters skb s).2)
  | .drop, s => (priowrrDrop s).map fun x => ([],x.2)
  | .reset, s => some ([],priowrrReset s)
  | .graft arg new, s => some ([],(priowrrGraft arg new s).2.2)
  | .tune env opt, s => some ([],(priowrrTune env s opt).2)

def run (handle : UInt32) : List Op → Sched Skb → Option (List (Option Band) × Sched Skb)
  | [], s => some ([],s)
  | op :: ops, s =>
    match exec handle op s with
    | none => none
    | some (out,t) => (run handle ops t).map fun x => (out ++ x.1,x.2)

/-- `P` holds of each operation and the state in which it begins. -/
def Along (handle : UInt32) (P : Op → Sched Skb → Prop) : List Op → Sched Skb → Prop
  | [], _ => True
  | op :: ops, s => P op s ∧ ∀ out t, exec handle op s = some (out,t) → Along handle P ops t

section Steps

variable {α : Type} {s t : Sched α} {band : Band} {child : Child α} {qlen : ℤ}

def Sched.total (s : Sched α) : ℤ := (bands.map fun band => ((s.pkts band).length : ℤ)).sum

/-- Only queues and the position are changed, and packets are counted. -/
structure Counted (s t : Sched α) : Prop where
  table : t.schTable = s.schTable
  count : t.qlen-t.total = s.qlen-s.total

structure Moved (s t : Sched α) : Prop extends Counted s t where
  position : t.wtedIdx = s.wtedIdx

lemma Moved.refl (s : Sched α) : Moved s s := ⟨⟨rfl,rfl⟩,rfl⟩

lemma total_update (s : Sched α) (band : Band) (child : Child α) :
    { s with queues := update s.queues band child }.total =
      s.total-(s.pkts band).length+child.pkts.length := by
  cases band <;> simp [Sched.total,Sched.pkts,bands] <;> omega

lemma moved_update (h : qlen-s.qlen = child.pkts.length-(s.pkts band).length) :
    Moved s { s with queues := update s.queues band child, qlen } := by
  refine ⟨⟨rfl,?_⟩,rfl⟩
  show qlen-{ s with queues := update s.queues band child }.total = _
  rw [total_update]
  omega

lemma moved_pop {pkt : α} (h : pop band s = some (pkt,t)) : Moved s t := by
  unfold pop at h
  split at h
  next limit p pkts hq =>
    cases h
    apply moved_update
    rw [Sched.pkts,hq,Child.pkts,Child.pkts,length_cons]
    omega
  next => cases h

lemma counted_dequeue {fuel : ℕ} {r : Option (Band × α)}
    (h : priowrrDequeue s fuel = some (r,t)) : Counted s t := by
  obtain ⟨i,⟨-,rfl⟩ | ⟨band,pkt,-,hpop,-⟩⟩ := priowrrDequeue_some h
  · exact ⟨rfl,rfl⟩
  · exact ⟨(moved_pop hpop).table,(moved_pop hpop).count⟩

lemma moved_drop {l : List Band} {r : ℤ} (h : dropBands l s = some (r,t)) : Moved s t := by
  induction l with
  | nil =>
    cases h
    exact .refl s
  | cons band l ih =>
    rw [dropBands] at h
    split at h
    next => cases h
    next child hdrop =>
      cases h
      apply moved_update
      rw [Sched.pkts]
      cases hq : s.queues band <;> grind [Child.drop,Child.pkts,isEmpty_iff_length_eq_zero]
    next => exact ih h

lemma length_enqueue (pkt : α) (child : Child α) (h : (child.enqueue pkt).1 = 0) :
    (child.enqueue pkt).2.pkts.length = child.pkts.length+1 := by
  cases child <;> grind [Child.enqueue,Child.pkts,NET_XMIT_CN,NET_XMIT_DROP]

lemma length_requeue (pkt : α) (child : Child α) (h : (child.requeue pkt).1 = 0) :
    (child.requeue pkt).2.pkts.length = child.pkts.length+1 := by
  cases child <;> grind [Child.requeue,Child.pkts,NET_XMIT_CN]

lemma count_tune (env : Env) (opt : QOpt) (s : Sched α) :
    (priowrrTune env s opt).2.qlen-(priowrrTune env s opt).2.total = s.qlen-s.total := by
  have hqlen : (priowrrTune env s opt).2.qlen = s.qlen := by
    obtain ⟨-,htune⟩ | ⟨-,htune⟩ := priowrrTune_cases env s opt
    · rw [htune,applyMaps]
      dsimp only
      split
      · rfl
      obtain ⟨queues,hframe⟩ := tuneChildren_frame env bands _
      rw [hframe]
    · rw [htune]
  rw [hqlen,Sched.total,priowrrTune_pkts]
  rfl

end Steps

variable {handle : UInt32} {op : Op} {ops : List Op} {s t : Sched Skb} {out : List (Option Band)}

/-- What `priowrr_enqueue` and `priowrr_requeue` do with the answer of the queue. -/
lemma moved_accept {r : ℤ × Child Skb} {band : Band}
    (h : r.1 = 0 → r.2.pkts.length = (s.pkts band).length+1) :
    Moved s (if r.1 = 0 then
      ((0 : ℤ),{ s with queues := update s.queues band r.2, qlen := s.qlen+1 })
      else (r.1,s)).2 := by
  split
  next hret =>
    apply moved_update
    rw [h hret]
    omega
  next => exact .refl s

lemma moved_enqueue (filters : Option (Skb → Option UInt32)) (skb : Skb) (s : Sched Skb) :
    Moved s (priowrrEnqueue handle filters skb s).2 :=
  moved_accept (length_enqueue _ (s.queues (priowrrClassify handle filters skb)))

lemma moved_requeue (filters : Option (Skb → Option UInt32)) (skb : Skb) (s : Sched Skb) :
    Moved s (priowrrRequeue handle filters skb s).2 :=
  moved_accept (length_requeue _ (s.queues (priowrrClassify handle filters skb)))

/-- A queue is replaced by one with as many packets. -/
def Level : Op → Sched Skb → Prop
  | .graft arg new, s => ∀ band, bands[(arg-1).toNat]? = some band →
    (new.getD .noop).pkts.length = (s.pkts band).length
  | _, _ => True

lemma moved_graft_iff (arg : UInt32) (new : Option (Child Skb)) (s : Sched Skb) :
    Moved s (priowrrGraft arg new s).2.2 ↔ Level (.graft arg new) s := by
  rw [priowrrGraft]
  show _ ↔ ∀ band, bands[(arg-1).toNat]? = some band → _
  cases bands[(arg-1).toNat]? with
  | none => exact iff_of_true (.refl s) fun _ h => nomatch h
  | some band =>
    constructor
    · rintro h _ ⟨⟩
      have hcount := h.count
      rw [total_update] at hcount
      dsimp only at hcount
      omega
    · intro h
      apply moved_update
      rw [h band rfl]
      omega

def NoTune (op : Op) : Prop := ∀ env opt, op ≠ .tune env opt

/-- What an operation does. -/
structure Steps (op : Op) (s : Sched Skb) (out : List (Option Band)) (t : Sched Skb) : Prop where
  count : Level op s → s.qlen = s.total → t.qlen = t.total
  table : NoTune op → t.schTable = s.schTable
  position : NoTune op → op ≠ .dequeue → out = [] ∧ t.wtedIdx = s.wtedIdx

lemma qlen_eq (h : t.qlen-t.total = s.qlen-s.total) (hs : s.qlen = s.total) : t.qlen = t.total := by
  omega

lemma Moved.steps (h : Moved s t) : Steps op s [] t :=
  ⟨fun _ => qlen_eq h.count,fun _ => h.table,fun _ _ => ⟨rfl,h.position⟩⟩

lemma exec_steps (h : exec handle op s = some (out,t)) : Steps op s out t := by
  cases op with
  | enqueue filters skb =>
    cases h
    exact (moved_enqueue filters skb s).steps
  | dequeue =>
    obtain ⟨x,hx,heq⟩ := Option.map_eq_some_iff.mp h
    cases heq
    exact ⟨fun _ => qlen_eq (counted_dequeue hx).count,fun _ => (counted_dequeue hx).table,
      fun _ hne => absurd rfl hne⟩
  | requeue filters skb =>
    cases h
    exact (moved_requeue filters skb s).steps
  | drop =>
    obtain ⟨x,hx,heq⟩ := Option.map_eq_some_iff.mp h
    cases heq
    exact (moved_drop hx).steps
  | reset =>
    cases h
    refine ⟨fun _ _ => ?_,fun _ => rfl,fun _ _ => ⟨rfl,rfl⟩⟩
    simp only [Sched.total,bands,priowrrReset_pkts]
    rfl
  | graft arg new =>
    cases h
    refine ⟨fun hlevel => qlen_eq ((moved_graft_iff arg new s).mpr hlevel).count,fun _ => ?_,
      fun _ _ => ⟨rfl,?_⟩⟩
    all_goals
      unfold priowrrGraft
      split <;> rfl
  | tune env opt =>
    cases h
    exact ⟨fun _ => qlen_eq (count_tune env opt s),fun hno => absurd rfl (hno env opt),
      fun hno => absurd rfl (hno env opt)⟩

lemma run_cons (h : run handle (op :: ops) s = some (out,t)) :
    ∃ o u outs, exec handle op s = some (o,u) ∧ run handle ops u = some (outs,t) ∧
      out = o ++ outs := by
  rw [run] at h
  split at h
  next => cases h
  next o u hexec =>
    obtain ⟨x,hx,heq⟩ := Option.map_eq_some_iff.mp h
    cases heq
    exact ⟨o,u,x.1,hexec,hx,rfl⟩

lemma run_level (hs : s.qlen = s.total) (h : run handle ops s = some (out,t))
    (hlevel : Along handle Level ops s) : t.qlen = t.total := by
  induction ops generalizing s out with
  | nil =>
    cases h
    exact hs
  | cons op ops ih =>
    obtain ⟨o,u,outs,hexec,hrun,-⟩ := run_cons h
    exact ih ((exec_steps hexec).count hlevel.1 hs) hrun (hlevel.2 o u hexec)

lemma along_cons {P : Op → Sched Skb → Prop} (hop : P op s)
    (hexec : exec handle op s = some (out,t)) (h : Along handle P ops t) :
    Along handle P (op :: ops) s := by
  refine ⟨hop,fun o u hu => ?_⟩
  cases hexec.symm.trans hu
  exact h

/-- The scheduler's own length is that of its queues as long as `priowrr_graft` replaces queues by
queues with as many packets. -/
theorem qlen_eq_total {handle : UInt32} {ops : List Op} {out : List (Option Band)} {s : Sched Skb}
    (h : run handle ops (initial Skb) = some (out,s))
    (hlevel : Along handle Level ops (initial Skb)) : s.qlen = s.total :=
  run_level rfl h hlevel

def defaults : Op := .tune device ⟨⟨100,100,70,30⟩,⟨15,20,30,35⟩⟩

/-- A queue with a packet is replaced by another one with a packet. -/
theorem qlen_eq_total_graft : ∃ out s,
    run 0x10000 [defaults,.enqueue none ⟨4,0,1⟩,.graft 3 (some (.fifo 10 [⟨4,3,2⟩]))]
      (initial Skb) = some (out,s) ∧ s.qlen = 1 ∧ s.qlen = s.total := by
  refine ⟨_,_,rfl,rfl,?_⟩
  refine @qlen_eq_total 0x10000 [defaults,.enqueue none ⟨4,0,1⟩,.graft 3 _] _ _ rfl ?_
  refine along_cons trivial rfl (along_cons trivial rfl (along_cons ?_ rfl trivial))
  rintro _ ⟨⟩
  rfl

/-- A queue with a packet is replaced by an empty one. -/
theorem qlen_eq_total_fails_graft : ∃ out s,
    run 0x10000 [defaults,.enqueue none ⟨4,0,1⟩,.graft 3 (some (.fifo 10 []))] (initial Skb) =
      some (out,s) ∧ s.qlen = 1 ∧ s.total = 0 :=
  ⟨_,_,rfl,rfl,rfl⟩

variable (handle) (b : Band) in
/-- The runs without `requeue`, `drop`, `reset` and `graft`, with the packets that band `b` took in
and those it handed out. -/
inductive Flow : List Skb → List Skb → Sched Skb → Prop
  | init : Flow [] [] (initial Skb)
  | tune {ins outs s} (env opt) (h : Flow ins outs s) : Flow ins outs (priowrrTune env s opt).2
  | enqueue {ins outs s ret t} (filters skb) (h : Flow ins outs s)
    (hs : priowrrEnqueue handle filters skb s = (ret,t)) :
    Flow (ins ++ if ret = 0 ∧ b = priowrrClassify handle filters skb then [mark b skb] else []) outs t
  | dequeue {ins outs s r t} (h : Flow ins outs s) (hs : priowrrDequeue s 10 = some (r,t)) :
    Flow ins (outs ++ (r.toList.filter (b = ·.1)).map Prod.snd) t

lemma pkts_enqueue {pkt : Skb} {c : Child Skb} (h : (c.enqueue pkt).1 = 0) :
    (c.enqueue pkt).2.pkts = c.pkts ++ [pkt] := by
  cases c <;> grind [Child.enqueue,Child.pkts,NET_XMIT_CN,NET_XMIT_DROP]

/-- Each band hands out what it took in, every packet once and in order, and holds the rest. -/
theorem flow_fifo {b : Band} {ins outs : List Skb} (h : Flow handle b ins outs s) :
    ins = outs ++ s.pkts b := by
  induction h with
  | init => rfl
  | tune env opt _ ih =>
    rw [priowrrTune_pkts]
    exact ih
  | enqueue filters skb _ hs ih =>
    rw [priowrrEnqueue] at hs
    generalize priowrrClassify handle filters skb = band at hs
    dsimp only at hs
    split at hs
    next hret =>
      cases hs
      rw [ih,Sched.pkts,Sched.pkts,pkts_update]
      by_cases hb : b = band
      · simp [← hb,pkts_enqueue (hb ▸ hret)]
      · simp [hb]
    next hret =>
      cases hs
      simp [hret,ih]
  | dequeue _ hs ih =>
    obtain ⟨i,⟨rfl,rfl⟩ | ⟨band,pkt,rfl,hpop,-⟩⟩ := priowrrDequeue_some hs
    · simp [ih,Sched.pkts]
    obtain ⟨limit,pkts,hq,hq'⟩ := pop_some hpop
    dsimp only at hq hq'
    rw [ih,Sched.pkts,Sched.pkts,hq',pkts_update]
    by_cases hb : b = band <;> simp [hb,hq,Child.pkts]

/-- Two packets, one of them sent. -/
theorem flow_fifo_two : ∃ p q s, p ≠ q ∧ Flow 0 .efq1 [p,q] [p] s ∧
    [p,q] = [p] ++ s.pkts .efq1 := by
  have h := (@Flow.init 0 .efq1).tune device ⟨⟨100,100,70,30⟩,⟨15,20,30,35⟩⟩
  have h := h.enqueue none ⟨0xFFFF,0,1⟩ rfl
  have h := (h.enqueue none ⟨0xFFFF,0,2⟩ rfl).dequeue rfl
  exact ⟨_,_,_,by decide,h,flow_fifo h⟩

end DslG624t.PrioWrr
