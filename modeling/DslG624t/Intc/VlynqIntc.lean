import DslG624t.Intc.Tables
import DslG624t.Vlynq.IsrLists

/-!
# Interrupts of the VLYNQs

`avalanche_vlynq_intc.c` turns a request for a number from 80 on into a routine installed with
`PAL_vlynqAddIsr`, and keeps the parameter blocks of all such routines in one list, under the
`dev_id` of the request. A routine is removed by the first entry of the list with the given
`dev_id`, whatever its number; and when this is the head of the list, the whole list is forgotten.
-/

namespace DslG624t.Intc

open Function HeapList List Option SplitFirst Vlynq

def avalancheIntEndLowVlynq : ℕ := avalancheIntcEnd+32

def avalancheLowVlynqControlBase : ℕ := 0xA8611800

def avalancheHighVlynqControlBase : ℕ := 0xA8611C00

/-- `PAL_VLYNQ_DEV_ISR_PARAM_GRP_T`. -/
structure IsrParam where
  arg1 : ℕ
  arg2 : ℕ
  arg3 : ℕ
  deriving DecidableEq

/-- `AV_VLYNQ_ISR_INFO_T`; `vlynqIsr` is the address of the parameter block. -/
structure AvVlynqIsrInfo where
  devId : ℕ
  vlynqIsr : ℕ
  deriving DecidableEq

/-- `isrList` is `free_av_vlynq_isr_list`. Parameter blocks below `allocated` have been handed out
by `kmalloc`, and their addresses are not used again. -/
structure VlynqIntc where
  pal : Pal
  isrParam : ℕ → IsrParam
  isrList : List AvVlynqIsrInfo
  allocated : ℕ

/-- Which of the calls of `kmalloc` succeed. -/
structure Kmalloc where
  action : Bool
  isrParam : Bool
  isr : Bool
  deriving DecidableEq

def vlynqBase (irq : ℕ) : ℕ :=
  if avalancheIntEndLowVlynq ≤ irq then avalancheHighVlynqControlBase
  else avalancheLowVlynqControlBase

def adjIrq (irq : ℕ) : ℕ :=
  if avalancheIntEndLowVlynq ≤ irq then irq-avalancheIntEndLowVlynq else irq-avalancheIntcEnd

def avalancheVlynqGetVlynq (s : Pal) (irq : ℕ) : Option (Option ℕ) :=
  match palVlynqGetRootAtBase s (vlynqBase irq) with
  | none => some none
  | some root => palVlynqGetForIrq s root (adjIrq irq)

/-- `none` if the call does not return. -/
def avalancheVlynqRequestIrq (s : VlynqIntc) (irq handler devId : ℕ) (k : Kmalloc) :
    Option (ℤ × VlynqIntc) :=
  (avalancheVlynqGetVlynq s.pal irq).bind fun
    | none => some (-1,s)
    | some v =>
      if !k.isrParam then some (-1,s)
      else if !k.isr then some (-1,s)
      else
        let p := s.allocated
        let s := { s with
          allocated := p+1
          isrParam := update s.isrParam p ⟨irq,devId,0⟩ }
        (palVlynqAddIsr s.pal (some v) (adjIrq irq) (some (.dev handler)) (some (.param p))).map
          fun (r,pal) =>
            if r ≠ .ok then (-1,{ s with pal := pal })
            else (0,{ s with pal := pal, isrList := ⟨devId,p⟩ :: s.isrList })

def avalancheVlynqFreeIrq (s : VlynqIntc) (irq devId : ℕ) : Option VlynqIntc :=
  (avalancheVlynqGetVlynq s.pal irq).bind fun v =>
    match splitFirst (fun e => e.devId = devId) s.isrList with
    | none => some s
    | some (pre,e,post) =>
      (palVlynqRemoveIsr s.pal v (adjIrq irq) (some (.param e.vlynqIsr))).map fun (r,pal) =>
        if r ≠ .ok then { s with pal := pal }
        else { s with pal := pal, isrList := if pre = [] then [] else pre ++ post }

/-- A handler called with a number and its `dev_id`, or an internal routine of a VLYNQ. -/
inductive Call where
  | handler (f irq devId : ℕ)
  | intern (c : Called)
  deriving DecidableEq

def VlynqIntc.call (s : VlynqIntc) : Called → Call
  | .dev ⟨.dev f,.param p⟩ => .handler f (s.isrParam p).arg1 (s.isrParam p).arg2
  | c => .intern c

def lineTable (s : Pal) (irq : ℕ) : Option ℕ :=
  (palVlynqGetRootAtBase s (vlynqBase irq)).bind fun root => (s.vlynq root).rootIrqInfo

/-- What `PAL_vlynqRootIsr` calls for the line of a number; `none` if it does not return. -/
def VlynqIntc.dispatch (s : VlynqIntc) (irq : ℕ) : Option (List Call) :=
  match lineTable s.pal irq with
  | none => some []
  | some table =>
    if 31 < adjIrq irq then some []
    else (rootIsrCalls s.pal table (adjIrq irq)).map (List.map s.call)

variable {s : Pal} {irq irq' : ℕ} {r table : ℕ} {t : ListId → List ℕ}

lemma root_mem {base r : ℕ} (h : palVlynqGetRootAtBase s base = some r) :
    r ∈ s.roots ∧ (s.vlynq r).base = base := by
  refine ⟨mem_of_find?_eq_some h,?_⟩
  have hbase := find?_some h
  exact of_decide_eq_true hbase

lemma line_ne (h : Roots s) (hirq : avalancheIntcEnd ≤ irq) (hirq' : avalancheIntcEnd ≤ irq')
    {table table' : ℕ} (ht : lineTable s irq = some table) (ht' : lineTable s irq' = some table')
    (hne : irq ≠ irq') : ListId.line table (adjIrq irq) ≠ .line table' (adjIrq irq') := by
  intro heq
  obtain ⟨rfl,hadj⟩ := ListId.line.inj heq
  obtain ⟨r,hr,htr⟩ := bind_eq_some_iff.mp ht
  obtain ⟨r',hr',htr'⟩ := bind_eq_some_iff.mp ht'
  obtain rfl := h.info_inj r r' table htr htr'
  have hbase : vlynqBase irq = vlynqBase irq' := (root_mem hr).2.symm.trans (root_mem hr').2
  unfold vlynqBase at hbase
  unfold adjIrq at hadj
  split at hbase <;> split at hbase
  · next h1 h2 =>
    rw [if_pos h1,if_pos h2] at hadj
    omega
  · exact absurd hbase (by decide)
  · exact absurd hbase (by decide)
  · next h1 h2 =>
    rw [if_neg h1,if_neg h2] at hadj
    omega

/-- The number is mapped for the root VLYNQ `r`. -/
structure Mapped (s : Pal) (irq r table : ℕ) : Prop where
  root : palVlynqGetRootAtBase s (vlynqBase irq) = some r
  mapped : palVlynqGetForIrq s r (adjIrq irq) = some (some r)
  table : (s.vlynq r).rootIrqInfo = some table

lemma Mapped.getVlynq (h : Mapped s irq r table) :
    avalancheVlynqGetVlynq s irq = some (some r) := by
  unfold avalancheVlynqGetVlynq
  rw [h.root]
  exact h.mapped

lemma Mapped.lineTable_eq (h : Mapped s irq r table) : lineTable s irq = some table := by
  rw [lineTable,h.root]
  exact h.table

lemma Mapped.adjIrq_le (h : Mapped s irq r table) : ¬ 31 < adjIrq irq := by
  intro hlt
  have hmapped := h.mapped
  rw [palVlynqGetForIrq,if_pos hlt] at hmapped
  cases hmapped

lemma Mapped.rootIrqInfo_eq (hr : Roots s) (h : Mapped s irq r table) :
    rootIrqInfo s r = some (some table) := by
  rw [hr.rootIrqInfo_eq (root_mem h.root).1,h.table]

def SameSetUp (s s' : Pal) : Prop :=
  s'.vlynq = s.vlynq ∧ s'.roots = s.roots ∧ s'.irqMap = s.irqMap

lemma Mapped.addIsr (hr : Roots s) (h : Mapped s irq r table) (hinv : Inv s t)
    (hfree : s.head .free ≠ none) (fn : Fn) (arg : Arg) :
    ∃ n l s', palVlynqAddIsr s (some r) (adjIrq irq) (some fn) (some arg) = some (.ok,s') ∧
      t .free = n :: l ∧ Inv s' (put (update t .free l) (.line table (adjIrq irq)) n) ∧
      s'.isr = update s.isr n ⟨fn,arg⟩ ∧ s'.irqType = update s.irqType n 0 ∧
      SameSetUp s s' := by
  obtain ⟨n,hn⟩ := ne_none_iff_exists'.mp hfree
  have hget : vlynqGetFreeIsrInfo s = some (n,{ s with
      next := update s.next n none
      head := update s.head .free (s.next n) }) := by
    rw [vlynqGetFreeIsrInfo,hn]
    rfl
  obtain ⟨l,hl,hinv,hnot,hlt⟩ := hinv.getFree hget
  have hmapped := h.mapped
  rw [palVlynqGetForIrq,if_neg h.adjIrq_le] at hmapped
  have hadd : palVlynqAddIsr s (some r) (adjIrq irq) (some fn) (some arg) =
      some (.ok,vlynqAddInternIsr { s with
        isr := update s.isr n ⟨fn,arg⟩
        irqType := update s.irqType n 0
        next := update s.next n none
        head := update s.head .free (s.next n) } table (adjIrq irq) n) := by
    unfold palVlynqAddIsr
    dsimp only
    rw [if_neg h.adjIrq_le,hmapped,h.rootIrqInfo_eq hr,hget]
    rfl
  exact ⟨n,l,_,hadd,hl,hinv.push hnot hlt (.line table (adjIrq irq)) rfl rfl,rfl,rfl,rfl,rfl,rfl⟩

lemma Mapped.removeIsr (hr : Roots s) (h : Mapped s irq r table) (hinv : Inv s t) {arg : Arg}
    (hn : ∃ n ∈ t (.line table (adjIrq irq)), (s.isr n).arg = arg) :
    ∃ s', palVlynqRemoveIsr s (some r) (adjIrq irq) (some arg) = some (.ok,s') ∧
      SameSetUp s s' := by
  unfold palVlynqRemoveIsr
  dsimp only
  rw [if_neg h.adjIrq_le,h.rootIrqInfo_eq hr,bind_some]
  dsimp only
  rw [findFrom_eq (hinv.lists.chain _) (hinv.length_le _)]
  cases hsplit : splitFirst (fun n => decide ((s.isr n).arg = arg)) (t (.line table (adjIrq irq))) with
  | none =>
    obtain ⟨n,hmem,harg⟩ := hn
    exact absurd harg (of_decide_eq_false (splitFirst_eq_none_iff.mp hsplit n hmem))
  | some x =>
    refine ⟨_,rfl,?_⟩
    unfold unlinkIsr
    split <;> exact ⟨rfl,rfl,rfl⟩

lemma mapped_of_getVlynq (h : Roots s) {v : ℕ} (hv : avalancheVlynqGetVlynq s irq = some (some v)) :
    ∃ table, Mapped s irq v table := by
  unfold avalancheVlynqGetVlynq at hv
  split at hv
  · cases hv
  next root hroot =>
  have hmapped := hv
  unfold palVlynqGetForIrq at hv
  split at hv
  · cases hv
  obtain ⟨hsoc,hinfo⟩ := h.soc root (root_mem hroot).1
  rw [vlynqGetMapForIrq,h.find_root,if_pos hsoc,map_some,bind_some,some_inj] at hv
  obtain ⟨map,hmap,hv⟩ := bind_eq_some_iff.mp hv
  obtain rfl := h.map_inj root v map hmap (h.mapped map _ v hv)
  obtain ⟨table,htable⟩ := isSome_iff_exists.mp hinfo
  exact ⟨table,hroot,hmapped,htable⟩

lemma SameSetUp.mapped_iff {s s' : Pal} (h : SameSetUp s s') (irq : ℕ) :
    lineTable s' irq = lineTable s irq ∧
      ∀ r table, Mapped s' irq r table ↔ Mapped s irq r table := by
  obtain ⟨hv,hr,hm⟩ := h
  have hroot (base : ℕ) : palVlynqGetRootAtBase s' base = palVlynqGetRootAtBase s base := by
    rw [palVlynqGetRootAtBase,palVlynqGetRootAtBase,hv,hr]
  have hfrom (fuel v : ℕ) : findRootFrom s' fuel v = findRootFrom s fuel v := by
    induction fuel generalizing v with
    | zero => rfl
    | succ fuel ih =>
      rw [findRootFrom,findRootFrom,hv]
      split
      · exact ih _
      · rfl
  have hget (r : ℕ) : palVlynqGetForIrq s' r (adjIrq irq) = palVlynqGetForIrq s r (adjIrq irq) := by
    rw [palVlynqGetForIrq,palVlynqGetForIrq,vlynqGetMapForIrq,vlynqGetMapForIrq,
      vlynqFindRootVlynq,vlynqFindRootVlynq,hfrom,hv,hm]
  constructor
  · rw [lineTable,lineTable,hroot,hv]
  intro r table
  constructor
  · rintro ⟨h1,h2,h3⟩
    exact ⟨hroot _ ▸ h1,hget r ▸ h2,hv ▸ h3⟩
  · rintro ⟨h1,h2,h3⟩
    exact ⟨(hroot _).trans h1,(hget r).trans h2,hv ▸ h3⟩

structure Reg where
  irq : ℕ
  handler : ℕ
  devId : ℕ
  param : ℕ
  deriving DecidableEq

def Reg.entry (r : Reg) : AvVlynqIsrInfo := ⟨r.devId,r.param⟩

def Reg.called (r : Reg) : Called := .dev ⟨.dev r.handler,.param r.param⟩

def Reg.call (r : Reg) : Call := .handler r.handler r.irq r.devId

def Reg.line (s₀ : Pal) (r : Reg) : Option (ℕ × ℕ) :=
  (lineTable s₀ r.irq).map fun table => (table,adjIrq r.irq)

def lines (s₀ : Pal) (g₀ : Registry) (R : List Reg) : Registry := fun line =>
  (R.filter fun r => r.line s₀ = some line).map Reg.called ++ g₀ line

variable {s₀ : Pal} {g₀ : Registry} {R A B : List Reg} {x : Reg} {line : ℕ × ℕ}

lemma lines_cons (hx : x.line s₀ = some line) :
    lines s₀ g₀ (x :: R) = (lines s₀ g₀ R).add line x.called := by
  funext k
  rw [Registry.add,lines]
  by_cases hk : k = line
  · subst hk
    rw [update_self,filter_cons_of_pos (by simpa using hx)]
    rfl
  · rw [update_of_ne hk,filter_cons_of_neg (by simpa [hx] using Ne.symm hk)]
    rfl

lemma lines_remove (hnodup : ((A ++ x :: B).map Reg.param).Nodup)
    (hx : x.line s₀ = some line) :
    lines s₀ g₀ (A ++ B) = (lines s₀ g₀ (A ++ x :: B)).remove line (.param x.param) := by
  funext k
  rw [Registry.remove,lines]
  by_cases hk : k = line
  · subst hk
    rw [update_self,lines,filter_append,filter_append,filter_cons_of_pos (by simpa using hx),map_append,
      map_append,map_cons,append_assoc,append_assoc,eraseP_append_right,cons_append,
      eraseP_cons_of_pos (by simp [Reg.called,Called.arg])]
    intro c hc
    obtain ⟨y,hy,rfl⟩ := mem_map.mp hc
    rw [decide_eq_true_eq]
    intro heq
    rw [map_append,map_cons] at hnodup
    exact (nodup_append.mp hnodup).2.2 y.param (mem_map_of_mem (mem_of_mem_filter hy)) x.param
      mem_cons_self (Arg.param.inj heq)
  · rw [update_of_ne hk,lines,filter_append,filter_append,
      filter_cons_of_neg (by simpa [hx] using Ne.symm hk)]

section Run

variable (s₀ g₀)

/-- The lines hold the routines of the registrations, and each entry of the list is one of them. -/
structure Registered (s : VlynqIntc) (R : List Reg) : Prop where
  whole : ∃ t, Whole s.pal t (lines s₀ g₀ R)
  roots : Roots s.pal
  setUp : SameSetUp s₀ s.pal
  regs : ∀ x ∈ R, avalancheIntcEnd ≤ x.irq ∧ (∃ v table, Mapped s₀ x.irq v table) ∧
    s.isrParam x.param = ⟨x.irq,x.devId,0⟩ ∧ x.param < s.allocated
  distinct : (R.map Reg.param).Nodup
  entries : ∀ e ∈ s.isrList, ∃ x ∈ R, e = x.entry
  nodup : (s.isrList.map AvVlynqIsrInfo.vlynqIsr).Nodup

variable {s₀ g₀} {s s' : VlynqIntc} {k : Kmalloc} {pal : Pal} {devId handler : ℕ}

lemma Registered.start (hw : Whole s.pal t g₀) (hr : Roots s.pal) (hlist : s.isrList = []) :
    Registered s.pal g₀ s [] where
  whole := ⟨t,hw⟩
  roots := hr
  setUp := ⟨rfl,rfl,rfl⟩
  regs _ hx := nomatch hx
  distinct := nodup_nil
  entries := by
    rw [hlist]
    exact nofun
  nodup := by
    rw [hlist]
    exact nodup_nil

lemma Registered.line_eq (h : Registered s₀ g₀ s R) (hx : x ∈ R) (hirq : avalancheIntcEnd ≤ irq)
    (ht : lineTable s₀ irq = some table) : x.line s₀ = some (table,adjIrq irq) ↔ x.irq = irq := by
  obtain ⟨hirq',⟨v,table',hm⟩,-⟩ := h.regs x hx
  have hr : Roots s₀ := h.roots.congr h.setUp.1.symm h.setUp.2.1.symm h.setUp.2.2.symm
  rw [Reg.line,hm.lineTable_eq,map_some,some_inj]
  constructor
  · intro heq
    obtain ⟨rfl,hadj⟩ := Prod.mk.inj heq
    by_contra hne
    exact line_ne hr hirq' hirq hm.lineTable_eq ht hne (by rw [hadj])
  · rintro rfl
    rw [hm.lineTable_eq] at ht
    cases ht
    rfl

/-- The number can be requested: it is mapped, and there is memory and a free object. -/
structure CanRequest (s : VlynqIntc) (irq : ℕ) (k : Kmalloc) : Prop where
  mapped : ∃ r table, Mapped s.pal irq r table
  free : s.pal.head .free ≠ none
  kmalloc : k.isrParam = true ∧ k.isr = true

def VlynqIntc.installed (s : VlynqIntc) (pal : Pal) (irq devId : ℕ) : VlynqIntc :=
  ⟨pal,update s.isrParam s.allocated ⟨irq,devId,0⟩,⟨devId,s.allocated⟩ :: s.isrList,s.allocated+1⟩

lemma CanRequest.request_eq (hcan : CanRequest s irq k) (hm : Mapped s.pal irq r table)
    (hadd : palVlynqAddIsr s.pal (some r) (adjIrq irq) (some (.dev handler))
      (some (.param s.allocated)) = some (.ok,pal)) :
    avalancheVlynqRequestIrq s irq handler devId k = some (0,s.installed pal irq devId) := by
  unfold avalancheVlynqRequestIrq
  rw [hm.getVlynq,bind_some]
  dsimp only
  rw [hcan.kmalloc.1,hcan.kmalloc.2,Bool.not_true,if_neg Bool.false_ne_true,
    if_neg Bool.false_ne_true,hadd,map_some]
  dsimp only
  rw [if_neg (fun hne => hne rfl)]
  rfl

lemma Registered.request (h : Registered s₀ g₀ s R) (hirq : avalancheIntcEnd ≤ irq)
    (hcan : CanRequest s irq k) (handler devId : ℕ) :
    ∃ pal, avalancheVlynqRequestIrq s irq handler devId k = some (0,s.installed pal irq devId) ∧
      Registered s₀ g₀ (s.installed pal irq devId) (⟨irq,handler,devId,s.allocated⟩ :: R) := by
  obtain ⟨r,table,hm⟩ := hcan.mapped
  obtain ⟨t,ht⟩ := h.whole
  obtain ⟨n,l,pal,hadd,-,-,-,-,hsetUp⟩ :=
    hm.addIsr h.roots ht.toInv hcan.free (.dev handler) (.param s.allocated)
  have hm0 : Mapped s₀ irq r table := ((h.setUp.mapped_iff irq).2 r table).mp hm
  have hline : Reg.line s₀ ⟨irq,handler,devId,s.allocated⟩ = some (table,adjIrq irq) := by
    rw [Reg.line,hm0.lineTable_eq]
    rfl
  refine ⟨pal,hcan.request_eq hm hadd,?_⟩
  constructor
  · rw [lines_cons hline]
    exact ht.addIsr (hm.rootIrqInfo_eq h.roots) hadd
  · exact h.roots.congr hsetUp.1 hsetUp.2.1 hsetUp.2.2
  · exact ⟨hsetUp.1.trans h.setUp.1,hsetUp.2.1.trans h.setUp.2.1,hsetUp.2.2.trans h.setUp.2.2⟩
  · intro x hx
    obtain rfl | hx := mem_cons.mp hx
    · exact ⟨hirq,⟨r,table,hm0⟩,update_self _ _ _,Nat.lt_succ_self _⟩
    · obtain ⟨hx1,hx2,hx3,hx4⟩ := h.regs x hx
      exact ⟨hx1,hx2,(update_of_ne (ne_of_lt hx4) _ _).trans hx3,Nat.lt_succ_of_lt hx4⟩
  · refine nodup_cons.mpr ⟨fun hmem => ?_,h.distinct⟩
    obtain ⟨x,hx,heq⟩ := mem_map.mp hmem
    exact absurd heq (ne_of_lt (h.regs x hx).2.2.2)
  · intro e he
    obtain rfl | he := mem_cons.mp he
    · exact ⟨_,mem_cons_self,rfl⟩
    · obtain ⟨x,hx,rfl⟩ := h.entries e he
      exact ⟨x,mem_cons_of_mem _ hx,rfl⟩
  · refine nodup_cons.mpr ⟨fun hmem => ?_,h.nodup⟩
    obtain ⟨e,he,heq⟩ := mem_map.mp hmem
    obtain ⟨x,hx,rfl⟩ := h.entries e he
    exact absurd heq (ne_of_lt (h.regs x hx).2.2.2)

/-- The number can be freed: the first entry with the `dev_id` is its own, and it has no internal
routine on its line. -/
structure CanFree (s : VlynqIntc) (irq devId : ℕ) : Prop where
  entry : ∃ pre e post, splitFirst (fun e => e.devId = devId) s.isrList = some (pre,e,post) ∧
    (s.isrParam e.vlynqIsr).arg1 = irq
  alone : ∀ table n, lineTable s.pal irq = some table →
    s.pal.head (.line table (adjIrq irq)) = some n → s.pal.next n = none

def NotFirst (s : VlynqIntc) (irq p : ℕ) : Prop := ∀ table c rest, lineTable s.pal irq = some table →
  rootIsrCalls s.pal table (adjIrq irq) = some (c :: rest) → c.arg = .param p → rest = []

lemma CanFree.notFirst (hcan : CanFree s irq devId) (hinv : Inv s.pal t) (p : ℕ) :
    NotFirst s irq p := by
  intro table c rest htable hcalls _
  have hchain := hinv.lists.chain (.line table (adjIrq irq))
  rw [hinv.rootIsrCalls_eq,some_inj] at hcalls
  obtain ⟨n,l,hl,-,rfl⟩ := map_eq_cons_iff.mp hcalls
  rw [hl] at hchain
  obtain ⟨hhead,hchain⟩ := hchain
  rw [hcan.alone table n htable hhead] at hchain
  cases l with
  | nil => rfl
  | cons m l => cases hchain.1

lemma free_eq {v : Option ℕ} {pre post : List AvVlynqIsrInfo} {e : AvVlynqIsrInfo} {res : PalResult}
    (hv : avalancheVlynqGetVlynq s.pal irq = some v)
    (hsplit : splitFirst (fun e => e.devId = devId) s.isrList = some (pre,e,post))
    (hrem : palVlynqRemoveIsr s.pal v (adjIrq irq) (some (.param e.vlynqIsr)) = some (res,pal)) :
    avalancheVlynqFreeIrq s irq devId = some (if res ≠ .ok then { s with pal := pal }
      else { s with pal := pal, isrList := if pre = [] then [] else pre ++ post }) := by
  unfold avalancheVlynqFreeIrq
  rw [hv,bind_some,hsplit]
  dsimp only
  rw [hrem,map_some]

lemma Registered.free (h : Registered s₀ g₀ s R) (hR : R = A ++ x :: B)
    {pre post : List AvVlynqIsrInfo}
    (hsplit : splitFirst (fun e => e.devId = devId) s.isrList = some (pre,x.entry,post))
    (hhead : NotFirst s x.irq x.param) :
    ∃ pal, avalancheVlynqFreeIrq s x.irq devId =
      some { s with pal := pal, isrList := if pre = [] then [] else pre ++ post } ∧
      Registered s₀ g₀ { s with pal := pal, isrList := if pre = [] then [] else pre ++ post }
        (A ++ B) := by
  subst hR
  obtain ⟨t,ht⟩ := h.whole
  obtain ⟨-,⟨r,table,hm0⟩,-⟩ := h.regs x (mem_append_right A mem_cons_self)
  have hm : Mapped s.pal x.irq r table := ((h.setUp.mapped_iff x.irq).2 r table).mpr hm0
  have hline : x.line s₀ = some (table,adjIrq x.irq) := by
    rw [Reg.line,hm0.lineTable_eq]
    rfl
  have hcalled := ht.called table (adjIrq x.irq)
  have hmem : x.called ∈ lines s₀ g₀ (A ++ x :: B) (table,adjIrq x.irq) :=
    mem_append_left _ (mem_map_of_mem (mem_filter.mpr ⟨mem_append_right A mem_cons_self,
      decide_eq_true hline⟩))
  rw [← hcalled] at hmem
  obtain ⟨n,hn,heq⟩ := mem_map.mp hmem
  obtain ⟨pal,hrem,hsetUp⟩ := hm.removeIsr h.roots ht.toInv ⟨n,hn,by rw [← Pal.arg_called,heq,Reg.called,Called.arg]⟩
  have hsub {y : Reg} (hy : y ∈ A ++ B) : y ∈ A ++ x :: B :=
    (Sublist.append_left (sublist_cons_self x B) A).subset hy
  obtain ⟨hlist,-,-⟩ := splitFirst_eq_some_iff.mp hsplit
  have hnodup := h.nodup
  rw [hlist,map_append,map_cons,perm_middle.nodup_iff,← map_append,nodup_cons] at hnodup
  refine ⟨pal,free_eq hm.getVlynq hsplit hrem,?_⟩
  constructor
  · rw [lines_remove h.distinct hline]
    refine ht.removeIsr (hm.rootIrqInfo_eq h.roots) (fun c rest hc harg => ?_) hrem
    exact hhead table c rest hm.lineTable_eq (by rw [ht.toInv.rootIsrCalls_eq,hcalled,hc]) harg
  · exact h.roots.congr hsetUp.1 hsetUp.2.1 hsetUp.2.2
  · exact ⟨hsetUp.1.trans h.setUp.1,hsetUp.2.1.trans h.setUp.2.1,hsetUp.2.2.trans h.setUp.2.2⟩
  · exact fun y hy => h.regs y (hsub hy)
  · exact h.distinct.sublist ((Sublist.append_left (sublist_cons_self x B) A).map _)
  · intro e he
    have he : e ∈ pre ++ post := by
      dsimp only at he
      split at he
      · cases he
      · exact he
    obtain ⟨y,hy,rfl⟩ := h.entries e (hlist ▸ (Sublist.append_left (sublist_cons_self _ post) _).subset he)
    refine ⟨y,?_,rfl⟩
    obtain hy | hy := mem_append.mp hy
    · exact mem_append_left _ hy
    · obtain rfl | hy := mem_cons.mp hy
      · exact absurd (mem_map_of_mem he) hnodup.1
      · exact mem_append_right _ hy
  · dsimp only
    split
    · exact nodup_nil
    · exact hnodup.2

lemma isSome_getVlynq {s : Pal} (h : Roots s) (irq : ℕ) :
    (avalancheVlynqGetVlynq s irq).isSome := by
  unfold avalancheVlynqGetVlynq
  split
  · rfl
  · exact h.isSome_getForIrq _ _

lemma Registered.isSome_request (h : Registered s₀ g₀ s R) (irq handler devId : ℕ)
    (k : Kmalloc) : (avalancheVlynqRequestIrq s irq handler devId k).isSome := by
  obtain ⟨v,hv⟩ := isSome_iff_exists.mp (isSome_getVlynq h.roots irq)
  unfold avalancheVlynqRequestIrq
  rw [hv,bind_some]
  split
  · rfl
  split
  · rfl
  · split
    · rfl
    · rw [isSome_map]
      exact h.roots.isSome_addIsr _ _ _ _

lemma Registered.isSome_free (h : Registered s₀ g₀ s R) (irq devId : ℕ) :
    (avalancheVlynqFreeIrq s irq devId).isSome := by
  obtain ⟨v,hv⟩ := isSome_iff_exists.mp (isSome_getVlynq h.roots irq)
  obtain ⟨t,ht⟩ := h.whole
  unfold avalancheVlynqFreeIrq
  rw [hv,bind_some]
  split
  · rfl
  · rw [isSome_map]
    exact h.roots.isSome_removeIsr ht.toInv _ _ _

lemma Registered.dispatch_eq (h : Registered s₀ g₀ s R) {t0 : ListId → List ℕ} {start : VlynqIntc}
    (hw : Whole s₀ t0 g₀) (hg : Internal g₀) (hirq : avalancheIntcEnd ≤ irq)
    (hstart : start.pal = s₀) :
    ∃ l, start.dispatch irq = some l ∧
      s.dispatch irq = some ((R.filter fun x => x.irq = irq).map Reg.call ++ l) := by
  have hidle (hnot : ∀ r table, ¬ Mapped s₀ irq r table) : R.filter (fun x => x.irq = irq) = [] := by
    refine filter_eq_nil_iff.mpr fun x hx heq => ?_
    obtain ⟨-,⟨r,table,hm⟩,-⟩ := h.regs x hx
    exact hnot r table (of_decide_eq_true heq ▸ hm)
  unfold VlynqIntc.dispatch
  rw [(h.setUp.mapped_iff irq).1,hstart]
  cases hline : lineTable s₀ irq with
  | none =>
    refine ⟨[],rfl,?_⟩
    rw [hidle fun r table hm => nomatch hline.symm.trans hm.lineTable_eq]
    rfl
  | some table =>
    dsimp only
    split
    · next hlt =>
      refine ⟨[],rfl,?_⟩
      rw [hidle fun r table hm => hm.adjIrq_le hlt]
      rfl
    obtain ⟨t,ht⟩ := h.whole
    rw [hw.toInv.rootIsrCalls_eq,hw.called,ht.toInv.rootIsrCalls_eq,ht.called]
    refine ⟨_,rfl,?_⟩
    have hintern : (g₀ (table,adjIrq irq)).map s.call = (g₀ (table,adjIrq irq)).map start.call := by
      refine map_congr_left fun c hc => ?_
      obtain ⟨i,-,rfl,-⟩ := hg _ c hc
      rfl
    have hfilter : R.filter (fun x => x.line s₀ = some (table,adjIrq irq)) =
        R.filter fun x => x.irq = irq :=
      filter_congr fun x hx => decide_eq_decide.mpr (h.line_eq hx hirq hline)
    rw [map_some,lines,map_append,List.map_map,hintern,hfilter,some_inj,append_cancel_right_eq]
    refine map_congr_left fun x hx => ?_
    obtain ⟨-,-,hp,-⟩ := h.regs x (mem_of_mem_filter hx)
    rw [comp_apply,Reg.called,VlynqIntc.call,hp]
    rfl

end Run

end DslG624t.Intc
