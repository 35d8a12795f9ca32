import DslG624t.Vlynq.Isr
import DslG624t.Vlynq.RootIsr

/-!
# Chains of VLYNQs

`PAL_vlynqChainAppend` puts the internal routines of the VLYNQ appended to, not those of the
appended one, into the lists of the root.
-/

namespace DslG624t.Vlynq

open HeapList List Option

def Event.line : Event → Option ℕ
  | .dispatch irq => some irq
  | _ => none

def rootIsrRun (s : Pal) (table : ℕ) (r : Root) (a : Arrivals) (pending : BitVec 32) :
    Option (List (List Called)) :=
  ((palVlynqRootIsr r a pending).1.filterMap Event.line).mapM (rootIsrCalls s table)

structure Ends (s : Pal) : Prop where
  list : ∀ table irq, ∃ l, Chain s.next (s.head (.line table irq)) l
  routine : ∀ table r a pending, (rootIsrRun s table r a pending).isSome

structure SameLinks (s s' : Pal) : Prop where
  vlynq : ∀ v, (s'.vlynq v).next = (s.vlynq v).next ∧ (s'.vlynq v).prev = (s.vlynq v).prev
  list : ∀ table irq l, Chain s'.next (s'.head (.line table irq)) l ↔
    Chain s.next (s.head (.line table irq)) l

inductive Op where
  | init (c : VlynqConfig)
  | append (thisVlynq toVlynq : ℕ)
  | unAppend (thisVlynq fromVlynq : ℕ)
  | mapIrq (v hwIntrLine irq : ℕ)
  | addIsr (v irq : ℕ) (fn : Fn) (arg : Arg)
  | removeIsr (v irq : ℕ) (arg : Arg)
  deriving DecidableEq, Repr

def successful (x : Option (PalResult × Pal)) : Option Pal :=
  x.bind fun y => if y.1 = .ok then some y.2 else none

def Op.run (s : Pal) : Op → Option Pal
  | .init c => (palVlynqInit s c).map Prod.snd
  | .append thisVlynq toVlynq => successful (palVlynqChainAppend s (some thisVlynq) (some toVlynq))
  | .unAppend thisVlynq fromVlynq =>
    successful (palVlynqChainUnAppend s (some thisVlynq) (some fromVlynq))
  | .mapIrq v hwIntrLine irq => successful (palVlynqMapIrq s v hwIntrLine irq)
  | .addIsr v irq fn arg => successful (palVlynqAddIsr s (some v) irq (some fn) (some arg))
  | .removeIsr v irq arg => successful (palVlynqRemoveIsr s (some v) irq (some arg))

def runOps (s : Pal) : List Op → Option Pal
  | [] => some s
  | op :: ops => (op.run s).bind fun s' => runOps s' ops

/-- After an append, un-appending the same VLYNQ succeeds and leads back. -/
def Undone (s s' : Pal) : Op → Prop
  | .append thisVlynq toVlynq =>
    ∃ s'', palVlynqChainUnAppend s' (some thisVlynq) (some toVlynq) = some (.ok,s'') ∧
      SameLinks s s''
  | _ => True

/-- The lists end in every state of the run, and each append can be undone. -/
def Fine (s : Pal) : List Op → Prop
  | [] => Ends s
  | op :: ops => Ends s ∧ ∀ s', op.run s = some s' → Undone s s' op ∧ Fine s' ops

variable {s s' : Pal} {t : ListId → List ℕ} {n table irq : ℕ}

variable {v : Option ℕ} {arg : Option Arg} {r : PalResult} {ops : List Op}

lemma successful_eq_some_iff {x : Option (PalResult × Pal)} :
    successful x = some s' ↔ x = some (.ok,s') := by
  unfold successful
  rw [bind_eq_some_iff]
  constructor
  · rintro ⟨⟨r,y⟩,rfl,h⟩
    split at h
    · next hr =>
      cases h
      obtain rfl : r = .ok := hr
      rfl
    · cases h
  · rintro rfl
    exact ⟨_,rfl,rfl⟩

lemma removeIntern_vlynq {isrInfo : Option ℕ}
    (h : vlynqRemoveInternIsr s table irq isrInfo = some s') : s'.vlynq = s.vlynq := by
  obtain ⟨x,-,h⟩ := map_eq_some_iff.mp h
  split at h
  · rw [h]
  · next last m =>
    rw [← h]
    cases last <;> rfl

lemma unAppend_ne_ok (s s' : Pal) (thisVlynq fromVlynq : Option ℕ) :
    palVlynqChainUnAppend s thisVlynq fromVlynq ≠ some (.ok,s') := by
  intro h
  unfold palVlynqChainUnAppend at h
  split at h
  · next u w =>
    split at h
    · cases h
    next hnext =>
    rw [ne_eq,not_not] at hnext
    split at h
    · cases h
    next hfrom =>
    rw [ne_eq,not_not] at hfrom
    have hne : u ≠ w := by
      rintro rfl
      cases hnext.symm.trans hfrom
    obtain ⟨root,-,h⟩ := bind_eq_some_iff.mp h
    cases root with
    | none => cases h
    | some table =>
      obtain ⟨s1,h1,h⟩ := bind_eq_some_iff.mp h
      obtain ⟨s2,h2,h⟩ := bind_eq_some_iff.mp h
      obtain ⟨x,hx,-⟩ := map_eq_some_iff.mp h
      have hvlynq : s2.vlynq = s.vlynq := (removeIntern_vlynq h2).trans (removeIntern_vlynq h1)
      simp only [setVlynq,Function.update_of_ne hne,hvlynq,hnext] at hx
      cases hx
  · cases h

section
variable (h : Inv s t)
include h

lemma Inv.ends : Ends s := by
  refine ⟨fun table irq => ⟨_,h.lists.chain (.line table irq)⟩,fun table r a pending => ?_⟩
  have hcalls : rootIsrCalls s table = fun irq => some ((t (.line table irq)).map s.called) :=
    funext (h.rootIsrCalls_eq table)
  rw [rootIsrRun,hcalls]
  show (mapM (fun irq => pure _) _ : Option _).isSome
  rw [mapM_pure]
  rfl

lemma Inv.init {c : VlynqConfig} {v : ℕ} (hi : palVlynqInit s c = some (v,s')) :
    ∃ t', Inv s' t' := by
  obtain ⟨n,m,l,w,hspec⟩ := init_spec h hi
  cases htable : w.rootIrqInfo with
  | none => exact ⟨_,hspec.inv_not_soc htable⟩
  | some table => exact ⟨_,hspec.inv_soc table htable⟩

lemma Inv.addIsr {fn : Option Fn}
    (ha : palVlynqAddIsr s v irq fn arg = some (r,s')) : ∃ t', Inv s' t' := by
  obtain ⟨-,rfl⟩ | ⟨u,fn',arg',table,n,s1,-,-,-,-,hget,-,rfl⟩ := addIsr_cases ha
  · exact ⟨t,h⟩
  · obtain ⟨l,-,hinv,hnot,hlt⟩ := h.getFree hget
    exact ⟨_,hinv.push hnot hlt (.line table irq) rfl rfl⟩

lemma Inv.removeIsr (hr : palVlynqRemoveIsr s v irq arg = some (r,s')) : ∃ t', Inv s' t' := by
  obtain ⟨-,rfl⟩ | ⟨u,arg',table,a,n,b,-,-,-,hline,-,-,-,rfl⟩ := removeIsr_cases h hr
  · exact ⟨t,h⟩
  · obtain ⟨hinv,hnot⟩ := h.unlink hline
    have hn : n ∈ t (.line table irq) := hline ▸ mem_append_right a mem_cons_self
    exact ⟨_,hinv.free hnot (h.lt _ n hn)⟩

lemma Inv.run {op : Op} (hop : ∀ u w, op ≠ .append u w)
    (hr : op.run s = some s') : ∃ t', Inv s' t' := by
  cases op with
  | init c =>
    obtain ⟨⟨v,s1⟩,hi,rfl⟩ := map_eq_some_iff.mp hr
    exact h.init hi
  | append u w => exact absurd rfl (hop u w)
  | unAppend u w => exact absurd (successful_eq_some_iff.mp hr) (unAppend_ne_ok s s' _ _)
  | mapIrq v hwIntrLine irq =>
    obtain rfl | ⟨root,map,-,-,rfl⟩ := mapIrq_cases (successful_eq_some_iff.mp hr)
    · exact ⟨t,h⟩
    · exact ⟨t,h.congr rfl rfl⟩
  | addIsr v irq fn arg => exact h.addIsr (successful_eq_some_iff.mp hr)
  | removeIsr v irq arg => exact h.removeIsr (successful_eq_some_iff.mp hr)

lemma Inv.fine (hops : ∀ u w, .append u w ∉ ops) : Fine s ops := by
  induction ops generalizing s t with
  | nil => exact h.ends
  | cons op ops ih =>
    have hop (u w : ℕ) : op ≠ .append u w := by
      rintro rfl
      exact hops u w mem_cons_self
    refine ⟨h.ends,fun s' hr => ⟨?_,?_⟩⟩
    · cases op with
      | append u w => exact absurd rfl (hop u w)
      | _ => trivial
    · obtain ⟨t',ht'⟩ := h.run hop hr
      exact ih ht' fun u w hmem => hops u w (mem_cons_of_mem op hmem)

end

lemma append_notMem_of_fine (h : runOps s ops = some s') (hfine : Fine s ops) (u w : ℕ) :
    .append u w ∉ ops := by
  induction ops generalizing s with
  | nil => exact not_mem_nil
  | cons op ops ih =>
    obtain ⟨s1,hop,h⟩ := bind_eq_some_iff.mp h
    obtain ⟨hundone,hfine⟩ := hfine.2 s1 hop
    intro hmem
    obtain rfl | hmem := mem_cons.mp hmem
    · obtain ⟨s'',hs'',-⟩ := hundone
      exact unAppend_ne_ok s1 s'' _ _ hs''
    · exact ih h hfine hmem

/-- Over a run of successful calls all lists end and each append can be undone, just if none is
an append. -/
theorem fine_iff {maxRoot : ℕ} {ops : List Op}
    (h : runOps (palSysVlynqInit maxRoot) ops = some s) :
    Fine (palSysVlynqInit maxRoot) ops ↔ ∀ u w, .append u w ∉ ops :=
  ⟨append_notMem_of_fine h,(inv_palSysVlynqInit maxRoot).fine⟩

def plainOps : List Op :=
  [.init ⟨0xA8611800,true,31,30⟩,.init ⟨0xA4000000,false,29,28⟩,.mapIrq 3 0 0,.addIsr 3 0 (.dev 1) (.param 1),
    .addIsr 3 0 (.dev 2) (.param 2),.removeIsr 3 0 (.param 2)]

theorem fine_plainOps : (runOps (palSysVlynqInit 1) plainOps).isSome ∧
    Fine (palSysVlynqInit 1) plainOps := by
  have hrun : (runOps (palSysVlynqInit 1) plainOps).isSome := by decide +kernel
  obtain ⟨s,hs⟩ := isSome_iff_exists.mp hrun
  refine ⟨hrun,(fine_iff hs).mpr fun u w hmem => ?_⟩
  simp [plainOps] at hmem

def appendOps : List Op := [.init ⟨0xA8611800,true,31,30⟩,.init ⟨0xA4000000,false,29,28⟩,.append 2 3]

/-- After an append the first routine of a line is followed by itself, the interrupt routine does
not return, and un-appending fails. -/
theorem append_cyclic :
    ∃ s, runOps (palSysVlynqInit 1) appendOps = some s ∧ s.head (.line 0 31) = some 31 ∧
      s.next 31 = some 31 ∧ rootIsrCalls s 0 31 = none ∧
      (palVlynqChainUnAppend s (some 2) (some 3)).isNone := by
  have hrun : ((runOps (palSysVlynqInit 1) appendOps).map fun s =>
      (s.head (.line 0 31),s.next 31,rootIsrCalls s 0 31,
        (palVlynqChainUnAppend s (some 2) (some 3)).isNone)) =
      some (some 31,some 31,none,true) := by
    decide +kernel
  obtain ⟨s,hs,heq⟩ := map_eq_some_iff.mp hrun
  obtain ⟨hhead,heq⟩ := Prod.mk.inj heq
  obtain ⟨hnext,heq⟩ := Prod.mk.inj heq
  obtain ⟨hcalls,hnone⟩ := Prod.mk.inj heq
  exact ⟨s,hs,hhead,hnext,hcalls,hnone⟩

end DslG624t.Vlynq
