import DslG624t.Intc.Request

/-!
# Several registrations with the VLYNQs

Runs of `avalanche_vlynq_request_irq` and `avalanche_vlynq_free_irq`, with the registrations that
the calls add up to and the blocks of memory that they hold: two for each of them.
-/

namespace DslG624t.Intc

open Function HeapList List Option SplitFirst Vlynq

def requestBlocks (s s' : VlynqIntc) (ret : ℤ) : ℕ :=
  if s'.allocated = s.allocated then 0 else if ret = 0 then 2 else 1

def freeBlocks (s s' : VlynqIntc) : ℕ := if s'.isrList.length < s.isrList.length then 2 else 0

/-- `PAL_vlynqAddIsr` is not called, or there is a free object. -/
def RequestSound (s : VlynqIntc) (irq : ℕ) (k : Kmalloc) : Prop :=
  avalancheVlynqGetVlynq s.pal irq = some none ∨ k.isrParam = false ∨ k.isr = false ∨
    s.pal.head .free ≠ none

/-- There is no such registration, or the first entry with the `dev_id` is that of the number, and
neither this entry nor its routine is the first of several. -/
def FreeSound (s : VlynqIntc) (irq devId : ℕ) : Prop :=
  (∀ e ∈ s.isrList, e.devId = devId → (s.isrParam e.vlynqIsr).arg1 ≠ irq) ∨
    ∃ pre e post, splitFirst (fun e => e.devId = devId) s.isrList = some (pre,e,post) ∧
      (s.isrParam e.vlynqIsr).arg1 = irq ∧ (pre = [] → post = []) ∧ NotFirst s irq e.vlynqIsr

/-- The state, the registrations with the most recent first, and the blocks held. -/
inductive RegRun (start : VlynqIntc) : VlynqIntc → List Reg → ℕ → Prop
  | start : RegRun start start [] 0
  | request {s s' : VlynqIntc} {R : List Reg} {n irq handler devId : ℕ} {k : Kmalloc} {ret : ℤ}
    (h : RegRun start s R n) (hirq : avalancheIntcEnd ≤ irq) (hs : RequestSound s irq k)
    (hc : avalancheVlynqRequestIrq s irq handler devId k = some (ret,s')) :
    RegRun start s' (if ret = 0 then ⟨irq,handler,devId,s.allocated⟩ :: R else R)
      (n+requestBlocks s s' ret)
  | free {s s' : VlynqIntc} {R : List Reg} {n irq devId : ℕ} (h : RegRun start s R n)
    (hirq : avalancheIntcEnd ≤ irq) (hs : FreeSound s irq devId)
    (hc : avalancheVlynqFreeIrq s irq devId = some s') :
    RegRun start s' (R.eraseP fun x => x.irq = irq ∧ x.devId = devId) (n-freeBlocks s s')

variable {s₀ : Pal} {g₀ : Registry} {start s s' : VlynqIntc} {R : List Reg} {n irq handler devId : ℕ}
  {k : Kmalloc} {ret : ℤ}

/-- The list has the entries of all registrations, and two blocks are held for each. -/
structure Exact (s₀ : Pal) (g₀ : Registry) (s : VlynqIntc) (R : List Reg) (n : ℕ) : Prop
    extends Registered s₀ g₀ s R where
  list : s.isrList = R.map Reg.entry
  blocks : n = 2*R.length

lemma Exact.request (h : Exact s₀ g₀ s R n) (hirq : avalancheIntcEnd ≤ irq)
    (hs : RequestSound s irq k)
    (hc : avalancheVlynqRequestIrq s irq handler devId k = some (ret,s')) :
    Exact s₀ g₀ s' (if ret = 0 then ⟨irq,handler,devId,s.allocated⟩ :: R else R)
      (n+requestBlocks s s' ret) := by
  have hsame (heq : some ((-1 : ℤ),s) = some (ret,s')) :
      Exact s₀ g₀ s' (if ret = 0 then ⟨irq,handler,devId,s.allocated⟩ :: R else R)
        (n+requestBlocks s s' ret) := by
    cases heq
    rw [if_neg (by decide),requestBlocks,if_pos rfl]
    exact h
  have hcall := hc
  unfold avalancheVlynqRequestIrq at hc
  obtain ⟨v,hv,hc⟩ := bind_eq_some_iff.mp hc
  cases v with
  | none => exact hsame hc
  | some v =>
    dsimp only at hc
    split at hc
    · exact hsame hc
    next hparam =>
    split at hc
    · exact hsame hc
    next hisr =>
    obtain ⟨table,hm⟩ := mapped_of_getVlynq h.roots hv
    have hfree : s.pal.head .free ≠ none := by
      obtain hs | hs | hs | hs := hs
      · cases hv.symm.trans hs
      · simp [hs] at hparam
      · simp [hs] at hisr
      · exact hs
    have hcan : CanRequest s irq k := ⟨⟨v,table,hm⟩,hfree,by simpa using hparam,by simpa using hisr⟩
    obtain ⟨pal,heq,hreg⟩ := h.toRegistered.request hirq hcan handler devId
    cases hcall.symm.trans heq
    refine ⟨hreg,?_,?_⟩
    · exact congrArg (_ :: ·) h.list
    · have hb : requestBlocks s (s.installed pal irq devId) 0 = 2 := if_neg (Nat.succ_ne_self _)
      rw [hb,h.blocks,if_pos rfl,length_cons]
      rfl

lemma Registered.free_other (h : Registered s₀ g₀ s R) (hg : Internal g₀) {x : Reg} (hx : x ∈ R)
    (hirq : avalancheIntcEnd ≤ irq) (hne : x.irq ≠ irq) {pre post : List AvVlynqIsrInfo}
    (hsplit : splitFirst (fun e => e.devId = devId) s.isrList = some (pre,x.entry,post))
    (hc : avalancheVlynqFreeIrq s irq devId = some s') : s' = s := by
  obtain ⟨v,hv⟩ := isSome_iff_exists.mp (isSome_getVlynq h.roots irq)
  obtain ⟨t,ht⟩ := h.whole
  obtain ⟨⟨res,pal⟩,hrem⟩ := isSome_iff_exists.mp
    (h.roots.isSome_removeIsr ht.toInv v (adjIrq irq) (some (.param x.entry.vlynqIsr)))
  rw [free_eq hv hsplit hrem] at hc
  obtain ⟨hres,rfl⟩ | ⟨u,arg,table,a,m,b,rfl,harg,htable,hline,hm,-⟩ := removeIsr_cases ht.toInv hrem
  · rw [if_pos hres] at hc
    cases hc
    rfl
  obtain ⟨table',hmap⟩ := mapped_of_getVlynq h.roots hv
  rw [hmap.rootIrqInfo_eq h.roots] at htable
  cases htable
  cases harg
  have hcalled := ht.called table (adjIrq irq)
  have hmem : s.pal.called m ∈ lines s₀ g₀ R (table,adjIrq irq) := by
    rw [← hcalled,hline]
    exact mem_map_of_mem (mem_append_right a mem_cons_self)
  have htable0 := (h.setUp.mapped_iff irq).1.symm.trans hmap.lineTable_eq
  obtain hmem | hmem := mem_append.mp hmem
  · obtain ⟨y,hy,heq⟩ := mem_map.mp hmem
    obtain ⟨hyR,hyline⟩ := mem_filter.mp hy
    have hparam : y.param = x.param := by
      have harg := congrArg Called.arg heq
      rw [Pal.arg_called,hm] at harg
      exact Arg.param.inj harg
    obtain rfl := inj_on_of_nodup_map h.distinct hyR hx hparam
    exact absurd ((h.line_eq hx hirq htable0).mp (of_decide_eq_true hyline)) hne
  · obtain ⟨i,w,heq,hi⟩ := hg _ _ hmem
    have harg := congrArg Called.arg heq
    rw [Pal.arg_called,hm] at harg
    cases harg.trans hi

lemma Exact.free (h : Exact s₀ g₀ s R n) (hg : Internal g₀) (hirq : avalancheIntcEnd ≤ irq)
    (hs : FreeSound s irq devId) (hc : avalancheVlynqFreeIrq s irq devId = some s') :
    Exact s₀ g₀ s' (R.eraseP fun x => x.irq = irq ∧ x.devId = devId) (n-freeBlocks s s') := by
  have hsame (heq : s' = s) (hnone : ∀ x ∈ R, ¬ (x.irq = irq ∧ x.devId = devId)) :
      Exact s₀ g₀ s' (R.eraseP fun x => x.irq = irq ∧ x.devId = devId) (n-freeBlocks s s') := by
    rw [heq,eraseP_of_forall_not (by simpa using hnone),freeBlocks,if_neg (lt_irrefl _)]
    exact h
  cases hsplit : splitFirst (fun e => decide (e.devId = devId)) s.isrList with
  | none =>
    have hnone := splitFirst_eq_none_iff.mp hsplit
    refine hsame ?_ fun x hx hxd => ?_
    · unfold avalancheVlynqFreeIrq at hc
      obtain ⟨v,-,hc⟩ := bind_eq_some_iff.mp hc
      rw [hsplit] at hc
      exact (some.inj hc).symm
    · exact of_decide_eq_false (hnone x.entry (h.list ▸ mem_map_of_mem hx)) hxd.2
  | some y =>
    obtain ⟨pre,e,post⟩ := y
    obtain ⟨hlist,he,hpre⟩ := splitFirst_eq_some_iff.mp hsplit
    obtain ⟨A,B',hR,rfl,hB'⟩ := map_eq_append_iff.mp (h.list.symm.trans hlist)
    obtain ⟨x,B,rfl,rfl,rfl⟩ := map_eq_cons_iff.mp hB'
    have hx : x ∈ R := hR ▸ mem_append_right A mem_cons_self
    have hparam := (h.regs x hx).2.2.1
    obtain hs | ⟨pre,e,post,hsplit',harg,hpost,hfirst⟩ := hs
    · have hnone (y : Reg) (hy : y ∈ R) : ¬ (y.irq = irq ∧ y.devId = devId) := by
        rintro ⟨rfl,hd⟩
        refine hs y.entry (h.list ▸ mem_map_of_mem hy) hd ?_
        rw [Reg.entry,(h.regs y hy).2.2.1]
      have hne : x.irq ≠ irq := fun heq => hnone x hx ⟨heq,of_decide_eq_true he⟩
      exact hsame (h.toRegistered.free_other hg hx hirq hne hsplit hc) hnone
    rw [hsplit] at hsplit'
    cases hsplit'
    obtain rfl : x.irq = irq := by rw [← harg,Reg.entry,hparam]
    obtain ⟨pal,heq,hreg⟩ := h.toRegistered.free hR hsplit hfirst
    rw [heq] at hc
    cases hc
    have hif : (if A.map Reg.entry = [] then [] else A.map Reg.entry ++ B.map Reg.entry) =
        (A ++ B).map Reg.entry := by
      rw [map_append]
      split
      · next hnil => rw [hnil,hpost hnil,nil_append]
      · rfl
    have herase : R.eraseP (fun y => y.irq = x.irq ∧ y.devId = devId) = A ++ B := by
      rw [hR,eraseP_append_right,eraseP_cons_of_pos]
      · exact decide_eq_true ⟨rfl,of_decide_eq_true he⟩
      · intro y hy hyd
        exact of_decide_eq_false (hpre y.entry (mem_map_of_mem hy)) (of_decide_eq_true hyd).2
    rw [herase]
    refine ⟨hreg,hif,?_⟩
    have hlen : (A ++ B).length < R.length := by
      rw [hR,length_append,length_append]
      exact Nat.add_lt_add_left (Nat.lt_succ_self _) _
    rw [freeBlocks,h.list,hif,length_map,length_map,if_pos hlen,h.blocks,hR,length_append,length_append,
      length_cons]
    omega

theorem registrations_of_run {maxRoot : ℕ} (hpal : SetUp maxRoot start.pal) (hlist : start.isrList = [])
    (h : RegRun start s R n) :
    (∀ irq, avalancheIntcEnd ≤ irq → ∃ l, start.dispatch irq = some l ∧
      s.dispatch irq = some ((R.filter fun x => x.irq = irq).map Reg.call ++ l)) ∧
    s.isrList = R.map Reg.entry ∧ n = 2*R.length ∧
    ∀ irq handler devId k, (avalancheVlynqRequestIrq s irq handler devId k).isSome ∧
      (avalancheVlynqFreeIrq s irq devId).isSome := by
  obtain ⟨⟨hr,-⟩,t,g₀,hw,hg⟩ := ready_of_setUp hpal
  have hexact : Exact start.pal g₀ s R n := by
    induction h with
    | start => exact ⟨.start hw hr hlist,hlist,rfl⟩
    | request _ hirq hs hc ih => exact ih.request hirq hs hc
    | free _ hirq hs hc ih => exact ih.free hg hirq hs hc
  refine ⟨fun irq hirq => hexact.dispatch_eq hw hg hirq rfl,hexact.list,hexact.blocks,?_⟩
  exact fun irq handler devId k => ⟨hexact.isSome_request irq handler devId k,hexact.isSome_free irq devId⟩

def requested (s : VlynqIntc) (x : Option (ℤ × VlynqIntc)) : VlynqIntc := (x.map Prod.snd).getD s

def olderReg : VlynqIntc :=
  requested sampleVlynq (avalancheVlynqRequestIrq sampleVlynq 80 100 1 allOk)

def twoRegs : VlynqIntc := requested olderReg (avalancheVlynqRequestIrq olderReg 80 200 2 allOk)

lemma eq_some_requested {x : Option (ℤ × VlynqIntc)} (h : x.map Prod.fst = some ret) :
    x = some (ret,requested s x) := by
  obtain ⟨y,rfl,rfl⟩ := map_eq_some_iff.mp h
  rfl

lemma regRun_twoRegs : RegRun sampleVlynq twoRegs [⟨80,200,2,1⟩,⟨80,100,1,0⟩] 4 := by
  have h1 : avalancheVlynqRequestIrq sampleVlynq 80 100 1 allOk = some (0,olderReg) :=
    eq_some_requested (by decide +kernel)
  have h2 : avalancheVlynqRequestIrq olderReg 80 200 2 allOk = some (0,twoRegs) :=
    eq_some_requested (by decide +kernel)
  have hrun := (RegRun.start.request (by decide) (.inr (.inr (.inr (by decide +kernel)))) h1).request
    (by decide) (.inr (.inr (.inr (by decide +kernel)))) h2
  have hblocks : 0+requestBlocks sampleVlynq olderReg 0+requestBlocks olderReg twoRegs 0 = 4 := by
    decide +kernel
  rw [hblocks] at hrun
  exact hrun

def olderFreed : VlynqIntc := (avalancheVlynqFreeIrq twoRegs 80 1).getD twoRegs

lemma freeSound_older : FreeSound twoRegs 80 1 := by
  refine .inr ⟨[⟨2,1⟩],⟨1,0⟩,[],by decide +kernel,by decide +kernel,nofun,?_⟩
  intro table c rest htable hcalls harg
  have hline : lineTable twoRegs.pal 80 = some 0 := by decide +kernel
  obtain rfl := some.inj (hline.symm.trans htable)
  have hfirst : (rootIsrCalls twoRegs.pal 0 (adjIrq 80)).bind (fun l => l.head?.map Called.arg) =
      some (.param 1) := by decide +kernel
  rw [hcalls] at hfirst
  cases harg.symm.trans (some.inj hfirst)

/-- A third request finds no memory, and the older of the two registrations is freed: the handler of
the other one is still called, and its entry is still there. -/
theorem registrations_olderFreed : (∃ l, sampleVlynq.dispatch 80 = some l ∧
    olderFreed.dispatch 80 = some (.handler 200 80 2 :: l)) ∧ olderFreed.isrList = [⟨2,1⟩] := by
  have hfailed : avalancheVlynqRequestIrq twoRegs 80 300 3 ⟨true,true,false⟩ = some (-1,twoRegs) := by
    have hv : avalancheVlynqGetVlynq twoRegs.pal 80 = some (some 3) := by decide +kernel
    rw [avalancheVlynqRequestIrq,hv]
    rfl
  have hfree : avalancheVlynqFreeIrq twoRegs 80 1 = some olderFreed := by
    have h : (avalancheVlynqFreeIrq twoRegs 80 1).isSome := by decide +kernel
    exact (getD_of_ne_none (isSome_iff_ne_none.mp h) _).symm
  have hrun := (regRun_twoRegs.request (by decide) (.inr (.inr (.inl rfl))) hfailed).free
    (by decide) freeSound_older hfree
  have hregs := registrations_of_run setUp_oneMapped rfl hrun
  exact ⟨hregs.1 80 (by decide),hregs.2.1⟩

/-- The more recent registration is freed: the other one's handler is not called any more, it cannot
be freed, and its blocks are lost. -/
theorem free_drops_other : RegRun sampleVlynq twoRegs [⟨80,200,2,1⟩,⟨80,100,1,0⟩] 4 ∧
    ∃ s, avalancheVlynqFreeIrq twoRegs 80 2 = some s ∧ s.dispatch 80 = some [] ∧
      s.isrList = [] := by
  refine ⟨regRun_twoRegs,?_⟩
  have h : ((avalancheVlynqFreeIrq twoRegs 80 2).map fun s => (s.dispatch 80,s.isrList)) =
      some (some [],[]) := by decide +kernel
  obtain ⟨s,hs,heq⟩ := map_eq_some_iff.mp h
  exact ⟨s,hs,Prod.mk.inj heq⟩

end DslG624t.Intc
