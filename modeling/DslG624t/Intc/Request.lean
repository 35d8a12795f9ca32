import DslG624t.Intc.VlynqIntc

/-!
# Requesting and freeing interrupts

`request_irq` enters a handler into `irq_desc` and into the table that its number is dispatched
from. For the numbers of the VLYNQs neither it nor `free_irq` asks whether the VLYNQ's own
function succeeded.
-/

namespace DslG624t.Intc

open Function HeapList List Option Vlynq

def avalancheIntEnd (ports : ℕ) : ℕ := avalancheIntcEnd+32*ports

inductive Table where
  | irqDesc
  | irqAction
  | primary
  | secondary
  | lineToChannel
  deriving DecidableEq

def Table.size (ports : ℕ) : Table → ℕ
  | .irqDesc => avalancheIntEnd ports+1
  | .irqAction => mipsExceptionOffset
  | .primary => avIntNum avalancheIntEndPrimary
  | .secondary => 32
  | .lineToChannel => avIntNum avalancheIntEndPrimary

/-- `irqDesc` has the actions of a number along their `next` pointers. -/
structure IrqTables where
  irqDesc : ℕ → List Irqaction
  irqAction : ℕ → Option Irqaction
  primary : ℕ → Option Irqaction
  secondary : ℕ → Option Irqaction
  lineToChannel : ℕ → ℕ
  vlynq : VlynqIntc

def avalancheIntSet (lineToChannel : ℕ → ℕ) (channel line : ℕ) : ℕ → ℕ :=
  if line < mipsExceptionOffset ∨ avalancheIntEndPrimary ≤ line ∨
    line = lnxIntNum avalancheUnifiedSecondaryInt ∨ channel = 0 then lineToChannel
  else update lineToChannel (avIntNum line) channel

def unifiedSecondaryAction : Irqaction := ⟨1,0,1,0⟩

def r4ktimerAction : Irqaction := ⟨0,0,2,0⟩

def initLineToChannel : ℕ → ℕ :=
  (List.range (avIntNum avalancheIntEndPrimary)).foldl
    (fun l j => avalancheIntSet l j (mipsExceptionOffset+j)) fun _ => 0

def initIrq (vlynq : VlynqIntc) : IrqTables :=
  { irqDesc := update (fun _ => []) (lnxIntNum avalancheUnifiedSecondaryInt)
      [unifiedSecondaryAction]
    irqAction := update (fun _ => none) 7 (some r4ktimerAction)
    primary := update (fun _ => none) (initLineToChannel avalancheUnifiedSecondaryInt)
      (some unifiedSecondaryAction)
    secondary := fun _ => none
    lineToChannel := initLineToChannel
    vlynq := vlynq }

structure Done where
  ret : ℤ
  tables : IrqTables
  used : List (Table × ℕ)

def einval : ℤ := 22

def enomem : ℤ := 12

def enableIrqUsed (irq : ℕ) : List (Table × ℕ) :=
  if irq < mipsExceptionOffset ∨ avalancheIntcEnd ≤ irq ∨ avalancheIntEndPrimaryReg2 ≤ avIntNum irq
  then [] else [(.lineToChannel,avIntNum irq)]

/-- `none` if the call does not return. -/
def requestIrq (ports : ℕ) (s : IrqTables) (irq : ℕ) (handler : Option ℕ) (irqflags devname devId : ℕ)
    (k : Kmalloc) : Option Done :=
  if avalancheIntEnd ports ≤ irq ∨ irq = lnxIntNum avalancheUnifiedSecondaryInt then
    some ⟨-einval,s,[]⟩
  else
    match handler with
    | none => some ⟨-einval,s,[]⟩
    | some f =>
      if !k.action then some ⟨-enomem,s,[]⟩
      else
        let action : Irqaction := ⟨f,irqflags,devname,devId⟩
        let s := { s with irqDesc := update s.irqDesc irq (action :: s.irqDesc irq) }
        if irq < mipsExceptionOffset then
          some ⟨0,{ s with irqAction := update s.irqAction irq (some action) },
            [(.irqDesc,irq),(.irqAction,irq)] ++ enableIrqUsed irq⟩
        else if avalancheIntcEnd ≤ irq then
          (avalancheVlynqRequestIrq s.vlynq irq f devId k).map fun (_,vlynq) =>
            ⟨0,{ s with vlynq := vlynq },(.irqDesc,irq) :: enableIrqUsed irq⟩
        else if irq < avalancheIntEndPrimary then
          let channel := s.lineToChannel (avIntNum irq)
          some ⟨0,{ s with primary := update s.primary channel (some action) },
            [(.irqDesc,irq),(.lineToChannel,avIntNum irq),(.primary,channel)] ++ enableIrqUsed irq⟩
        else
          let i := irq-avalancheIntEndPrimary
          some ⟨0,{ s with secondary := update s.secondary i (some action) },
            [(.irqDesc,irq),(.secondary,i)] ++ enableIrqUsed irq⟩

def retFromFreeIrq (s : IrqTables) (irq : ℕ) (used : List (Table × ℕ)) : Option Irqaction → Done
  | none => ⟨0,s,used⟩
  | some _ =>
    ⟨0,{ s with irqDesc := update s.irqDesc irq [] },used ++ (.irqDesc,irq) :: enableIrqUsed irq⟩

/-- `none` if the call does not return. -/
def freeIrq (ports : ℕ) (s : IrqTables) (irq devId : ℕ) : Option Done :=
  if avalancheIntEnd ports ≤ irq ∨ irq = lnxIntNum avalancheUnifiedSecondaryInt then
    some ⟨0,s,[]⟩
  else if irq < mipsExceptionOffset then
    some ⟨0,{ s with
      irqAction := update s.irqAction irq none
      irqDesc := update s.irqDesc irq [] },[(.irqAction,irq),(.irqDesc,irq)] ++ enableIrqUsed irq⟩
  else if avalancheIntcEnd ≤ irq then
    (avalancheVlynqFreeIrq s.vlynq irq devId).map fun vlynq =>
      retFromFreeIrq { s with vlynq := vlynq } irq [(.irqDesc,irq)] (s.irqDesc irq).head?
  else if irq < avalancheIntEndPrimary then
    let channel := s.lineToChannel (avIntNum irq)
    some (retFromFreeIrq { s with primary := update s.primary channel none } irq
      [(.lineToChannel,avIntNum irq),(.primary,channel)] (s.primary channel))
  else
    let i := irq-avalancheIntEndPrimaryReg2
    some (retFromFreeIrq { s with secondary := update s.secondary i none } irq
      [(.secondary,i)] (s.secondary i))

def Irqaction.call (irq : ℕ) (a : Irqaction) : Call := .handler a.handler irq a.devId

def dispatch (s : IrqTables) (irq : ℕ) : Option (List Call) :=
  if avalancheIntcEnd ≤ irq then s.vlynq.dispatch irq
  else if irq < avalancheIntEndPrimary then
    some ((s.primary (s.lineToChannel (avIntNum irq))).toList.map (Irqaction.call irq))
  else some ((s.secondary (irq-avalancheIntEndPrimary)).toList.map (Irqaction.call irq))

def ownCalls (vlynq : VlynqIntc) (irq : ℕ) : List Call :=
  if avalancheIntcEnd ≤ irq then (vlynq.dispatch irq).getD [] else []

/-- The tables name the registered handlers and no others, and the internal routines are called as
at the start. -/
def Agrees (vlynq : VlynqIntc) (s : IrqTables) (reg : ℕ → Option Irqaction) : Prop :=
  ∀ irq, mipsExceptionOffset ≤ irq → s.irqDesc irq = (reg irq).toList ∧
    dispatch s irq = some ((reg irq).toList.map (Irqaction.call irq) ++ ownCalls vlynq irq)

/-- Runs of requests, one handler at most for each number, and of frees of registered handlers. No
secondary interrupt is freed, and those of the VLYNQs are requested and freed only in states in
which the VLYNQ's own functions do what they are called for. -/
inductive IrqRun (ports : ℕ) (vlynq : VlynqIntc) :
    IrqTables → (ℕ → Option Irqaction) → List (Table × ℕ) → Prop where
  | start : IrqRun ports vlynq (initIrq vlynq) (update (fun _ => none)
    (lnxIntNum avalancheUnifiedSecondaryInt) (some unifiedSecondaryAction)) []
  | request {s s' : IrqTables} {reg : ℕ → Option Irqaction} {used u : List (Table × ℕ)}
    {irq f irqflags devname devId : ℕ} {k : Kmalloc} (hs : IrqRun ports vlynq s reg used)
    (hirq : mipsExceptionOffset ≤ irq) (hone : reg irq = none)
    (hvlynq : avalancheIntcEnd ≤ irq → CanRequest s.vlynq irq k)
    (h : requestIrq ports s irq (some f) irqflags devname devId k = some ⟨0,s',u⟩) :
    IrqRun ports vlynq s' (update reg irq (some ⟨f,irqflags,devname,devId⟩)) (used ++ u)
  | requestFailed {s s' : IrqTables} {reg : ℕ → Option Irqaction} {used u : List (Table × ℕ)}
    {irq irqflags devname devId : ℕ} {handler : Option ℕ} {k : Kmalloc} {ret : ℤ}
    (hs : IrqRun ports vlynq s reg used) (hret : ret ≠ 0)
    (h : requestIrq ports s irq handler irqflags devname devId k = some ⟨ret,s',u⟩) :
    IrqRun ports vlynq s' reg (used ++ u)
  | free {s s' : IrqTables} {reg : ℕ → Option Irqaction} {used u : List (Table × ℕ)} {irq devId : ℕ}
    {ret : ℤ} (hs : IrqRun ports vlynq s reg used)
    (hirq : lnxIntNum avalancheUnifiedSecondaryInt < irq ∧ irq < avalancheIntEnd ports)
    (hreg : (reg irq).isSome)
    (hsecondary : ¬ (avalancheIntEndPrimary ≤ irq ∧ irq < avalancheIntEndSecondary))
    (hvlynq : avalancheIntcEnd ≤ irq → CanFree s.vlynq irq devId)
    (h : freeIrq ports s irq devId = some ⟨ret,s',u⟩) :
    IrqRun ports vlynq s' (update reg irq none) (used ++ u)

def SameCalls (R : List Reg) (reg : ℕ → Option Irqaction) : Prop := ∀ irq, avalancheIntcEnd ≤ irq →
  (R.filter fun x => x.irq = irq).map Reg.call = (reg irq).toList.map (Irqaction.call irq)

structure IntcInv (vlynq : VlynqIntc) (g₀ : Registry) (s : IrqTables)
    (reg : ℕ → Option Irqaction) : Prop where
  desc : ∀ irq, mipsExceptionOffset ≤ irq → s.irqDesc irq = (reg irq).toList
  channel : ∀ i < avIntNum avalancheIntEndPrimary, s.lineToChannel i = i
  primary : ∀ irq, mipsExceptionOffset ≤ irq → irq < avalancheIntEndPrimary →
    s.primary (avIntNum irq) = reg irq
  secondary : ∀ irq, avalancheIntEndPrimary ≤ irq → irq < avalancheIntcEnd →
    s.secondary (irq-avalancheIntEndPrimary) = reg irq
  vlynq : ∃ R, Registered vlynq.pal g₀ s.vlynq R ∧ SameCalls R reg

variable {k : Kmalloc} {ret : ℤ} {devId : ℕ}

lemma ranges : mipsExceptionOffset = 8 ∧ avIntNum avalancheIntEndPrimary = 40 ∧
    avalancheIntEndPrimary = 48 ∧ avalancheIntEndSecondary = 80 ∧ avalancheIntcEnd = 80 ∧
    lnxIntNum avalancheUnifiedSecondaryInt = 8 :=
  ⟨rfl,rfl,rfl,rfl,rfl,rfl⟩

lemma avIntNum_lt {irq : ℕ} (hirq : irq < avalancheIntEndPrimary) :
    avIntNum irq < avIntNum avalancheIntEndPrimary := by
  obtain ⟨h8,h40,h48,-⟩ := ranges
  rw [h40,avIntNum]
  omega

lemma avIntNum_inj {irq irq' : ℕ} (hirq : mipsExceptionOffset ≤ irq)
    (hirq' : mipsExceptionOffset ≤ irq') (h : avIntNum irq = avIntNum irq') : irq = irq' := by
  unfold avIntNum at h
  omega

variable {ports irq : ℕ} {vlynq : VlynqIntc} {g₀ : Registry} {s s' : IrqTables}
  {reg : ℕ → Option Irqaction} {u : List (Table × ℕ)}

def InArray (ports : ℕ) (x : Table × ℕ) : Prop := x.2 < x.1.size ports

lemma enableIrqUsed_inArray (ports irq : ℕ) : ∀ x ∈ enableIrqUsed irq, InArray ports x := by
  intro x hx
  unfold enableIrqUsed at hx
  split at hx
  · cases hx
  · next hnot =>
    rw [not_or,not_or] at hnot
    obtain rfl := mem_singleton.mp hx
    exact Nat.lt_of_not_le hnot.2.2

lemma irqDesc_inArray (hirq : irq < avalancheIntEnd ports) : InArray ports (.irqDesc,irq) :=
  Nat.lt_succ_of_lt hirq

lemma IntcInv.agrees (h : IntcInv vlynq g₀ s reg) {t : ListId → List ℕ} (hw : Whole vlynq.pal t g₀)
    (hg : Internal g₀) : Agrees vlynq s reg := by
  intro irq hirq
  refine ⟨h.desc irq hirq,?_⟩
  unfold dispatch ownCalls
  split
  · next hv =>
    obtain ⟨R,hR,hcalls⟩ := h.vlynq
    obtain ⟨l,hl,hs⟩ := hR.dispatch_eq hw hg hv rfl
    rw [hl,← hcalls irq hv]
    exact hs
  next hv =>
  rw [append_nil]
  split
  · next hp => rw [h.channel _ (avIntNum_lt hp),h.primary irq hirq hp]
  · next hp => rw [h.secondary irq (Nat.le_of_not_lt hp) (Nat.lt_of_not_le hv)]

lemma initLineToChannel_eq : ∀ i < avIntNum avalancheIntEndPrimary, initLineToChannel i = i := by
  decide +kernel

lemma IntcInv.start (hr : Roots vlynq.pal) {t : ListId → List ℕ} (hw : Whole vlynq.pal t g₀)
    (hlist : vlynq.isrList = []) :
    IntcInv vlynq g₀ (initIrq vlynq) (update (fun _ => none)
      (lnxIntNum avalancheUnifiedSecondaryInt) (some unifiedSecondaryAction)) := by
  obtain ⟨h8,h40,h48,-,h80,hsec⟩ := ranges
  constructor
  · intro irq _
    show update (fun _ => []) _ _ irq = _
    by_cases hirq : irq = lnxIntNum avalancheUnifiedSecondaryInt
    · subst hirq
      rfl
    · rw [update_of_ne hirq,update_of_ne hirq]
      rfl
  · exact initLineToChannel_eq
  · intro irq hirq hlt
    show update (fun _ => none) (initLineToChannel avalancheUnifiedSecondaryInt) _ _ = _
    rw [initLineToChannel_eq _ (by decide)]
    by_cases heq : irq = lnxIntNum avalancheUnifiedSecondaryInt
    · subst heq
      rfl
    · rw [update_of_ne heq,update_of_ne]
      intro h0
      unfold avIntNum avalancheUnifiedSecondaryInt at h0
      omega
  · intro irq hirq _
    rw [update_of_ne (by omega)]
    rfl
  · refine ⟨[],.start hw hr hlist,fun irq hirq => ?_⟩
    rw [update_of_ne (by omega)]
    rfl

section
variable (h : IntcInv vlynq g₀ s reg)
include h

lemma IntcInv.desc_update (irq : ℕ) (x : Option Irqaction) :
    ∀ i, mipsExceptionOffset ≤ i →
      update s.irqDesc irq x.toList i = (update reg irq x i).toList := by
  intro i hi
  by_cases hne : i = irq
  · subst hne
    rw [update_self,update_self]
  · rw [update_of_ne hne,update_of_ne hne]
    exact h.desc i hi

lemma IntcInv.setAction (hlt : irq < avalancheIntcEnd) (x : Option Irqaction)
    {primary secondary : ℕ → Option Irqaction}
    (hp : ∀ i, mipsExceptionOffset ≤ i → i < avalancheIntEndPrimary →
      primary (avIntNum i) = update (s.primary ∘ avIntNum) irq x i)
    (hs : ∀ i, avalancheIntEndPrimary ≤ i → i < avalancheIntcEnd →
      secondary (i-avalancheIntEndPrimary) =
        update (fun i => s.secondary (i-avalancheIntEndPrimary)) irq x i) :
    IntcInv vlynq g₀ { s with
      irqDesc := update s.irqDesc irq x.toList
      primary := primary
      secondary := secondary } (update reg irq x) := by
  obtain ⟨h8,h40,h48,-,h80,-⟩ := ranges
  refine ⟨h.desc_update irq x,h.channel,fun i hi hilt => ?_,fun i hi hilt => ?_,?_⟩
  · refine (hp i hi hilt).trans ?_
    by_cases hne : i = irq
    · rw [hne,update_self,update_self]
    · rw [update_of_ne hne,update_of_ne hne]
      exact h.primary i hi hilt
  · refine (hs i hi hilt).trans ?_
    by_cases hne : i = irq
    · rw [hne,update_self,update_self]
    · rw [update_of_ne hne,update_of_ne hne]
      exact h.secondary i hi hilt
  · obtain ⟨R,hR,hcalls⟩ := h.vlynq
    refine ⟨R,hR,fun i hi => ?_⟩
    rw [update_of_ne (by omega)]
    exact hcalls i hi

lemma IntcInv.primary_inArray (hp : irq < avalancheIntEndPrimary) :
    InArray ports (.lineToChannel,avIntNum irq) ∧
      InArray ports (.primary,s.lineToChannel (avIntNum irq)) := by
  rw [h.channel _ (avIntNum_lt hp)]
  exact ⟨avIntNum_lt hp,avIntNum_lt hp⟩

lemma IntcInv.setPrimary (hirq : mipsExceptionOffset ≤ irq)
    (hlt : irq < avalancheIntEndPrimary) (x : Option Irqaction) :
    IntcInv vlynq g₀ { s with
      irqDesc := update s.irqDesc irq x.toList
      primary := update s.primary (s.lineToChannel (avIntNum irq)) x }
      (update reg irq x) := by
  obtain ⟨h8,h40,h48,-,h80,-⟩ := ranges
  rw [h.channel _ (avIntNum_lt hlt)]
  refine h.setAction (by omega) x (fun i hi hilt => ?_) fun i hi hilt => ?_
  · by_cases hne : i = irq
    · rw [hne,update_self,update_self]
    · rw [update_of_ne hne,update_of_ne fun heq => hne (avIntNum_inj hi hirq heq),comp_apply]
  · rw [update_of_ne (by omega)]

lemma IntcInv.setSecondary (hirq : avalancheIntEndPrimary ≤ irq)
    (hlt : irq < avalancheIntcEnd) (x : Option Irqaction) :
    IntcInv vlynq g₀ { s with
      irqDesc := update s.irqDesc irq x.toList
      secondary := update s.secondary (irq-avalancheIntEndPrimary) x }
      (update reg irq x) := by
  refine h.setAction hlt x (fun i hi hilt => ?_) fun i hi hilt => ?_
  · rw [update_of_ne (by omega),comp_apply]
  · by_cases hne : i = irq
    · rw [hne,update_self,update_self]
    · rw [update_of_ne hne,update_of_ne (by omega)]

lemma IntcInv.setVlynq (hirq : avalancheIntcEnd ≤ irq)
    {x : Option Irqaction} {v : VlynqIntc} {R : List Reg} (hv : Registered vlynq.pal g₀ v R)
    (hcalls : SameCalls R (update reg irq x)) :
    IntcInv vlynq g₀ { s with irqDesc := update s.irqDesc irq x.toList, vlynq := v }
      (update reg irq x) := by
  obtain ⟨h8,h40,h48,-,h80,-⟩ := ranges
  constructor
  · exact h.desc_update irq x
  · exact h.channel
  · intro i hi hilt
    rw [update_of_ne (by omega)]
    exact h.primary i hi hilt
  · intro i hi hilt
    rw [update_of_ne (by omega)]
    exact h.secondary i hi hilt
  · exact ⟨R,hv,hcalls⟩

end

lemma SameCalls.request {R : List Reg} (h : SameCalls R reg) (hone : reg irq = none) {x : Reg}
    {a : Irqaction} (hx : x.irq = irq) (ha : x.call = a.call irq) :
    SameCalls (x :: R) (update reg irq (some a)) := by
  intro i hi
  have hold := h i hi
  by_cases hne : i = irq
  · subst hne
    rw [hone] at hold
    rw [update_self,filter_cons_of_pos (by simpa using hx),map_cons,hold,ha]
    rfl
  · rw [update_of_ne hne,filter_cons_of_neg (by simpa [hx] using Ne.symm hne)]
    exact hold

lemma SameCalls.free {A B : List Reg} {x : Reg} (h : SameCalls (A ++ x :: B) reg)
    (hx : x.irq = irq) : SameCalls (A ++ B) (update reg irq none) := by
  intro i hi
  have hold := h i hi
  rw [filter_append] at hold ⊢
  by_cases hne : i = irq
  · subst hne
    rw [filter_cons_of_pos (by simpa using hx)] at hold
    -- One handler at most is registered for a number.
    have hlen := congrArg length hold
    have hle := length_toList_le (o := reg i)
    simp only [length_map,length_append,length_cons] at hlen
    have hA : A.filter (fun y => y.irq = i) = [] := eq_nil_of_length_eq_zero (by omega)
    have hB : B.filter (fun y => y.irq = i) = [] := eq_nil_of_length_eq_zero (by omega)
    rw [update_self,hA,hB]
    rfl
  · rw [filter_cons_of_neg (by simpa [hx] using Ne.symm hne)] at hold
    rw [update_of_ne hne]
    exact hold

lemma IntcInv.request (h : IntcInv vlynq g₀ s reg) {f irqflags devname devId : ℕ}
    (hirq : mipsExceptionOffset ≤ irq) (hone : reg irq = none)
    (hvlynq : avalancheIntcEnd ≤ irq → CanRequest s.vlynq irq k)
    (hr : requestIrq ports s irq (some f) irqflags devname devId k = some ⟨0,s',u⟩) :
    IntcInv vlynq g₀ s' (update reg irq (some ⟨f,irqflags,devname,devId⟩)) ∧
      ∀ x ∈ u, InArray ports x := by
  obtain ⟨h8,h40,h48,-,h80,-⟩ := ranges
  have hdesc : s.irqDesc irq = [] := by rw [h.desc irq hirq,hone]; rfl
  unfold requestIrq at hr
  split at hr
  · cases hr
  next hend =>
  rw [not_or,not_le] at hend
  have hin : InArray ports (.irqDesc,irq) := irqDesc_inArray hend.1
  have henable := enableIrqUsed_inArray ports irq
  dsimp only at hr
  split at hr
  · cases hr
  rw [if_neg (by omega),hdesc] at hr
  split at hr
  · next hv =>
    obtain ⟨R,hR,hcalls⟩ := h.vlynq
    obtain ⟨pal,hreq,hreg⟩ := hR.request hv (hvlynq hv) f devId
    rw [hreq,map_some] at hr
    obtain ⟨-,rfl,rfl⟩ := Done.mk.inj (some.inj hr)
    exact ⟨h.setVlynq hv hreg (hcalls.request hone rfl rfl),forall_mem_cons.mpr ⟨hin,henable⟩⟩
  next hv =>
  split at hr
  · next hp =>
    obtain ⟨-,rfl,rfl⟩ := Done.mk.inj (some.inj hr)
    refine ⟨h.setPrimary hirq hp (some _),forall_mem_append.mpr ⟨?_,henable⟩⟩
    simpa using ⟨hin,h.primary_inArray hp⟩
  next hp =>
  obtain ⟨-,rfl,rfl⟩ := Done.mk.inj (some.inj hr)
  have hsecondary : InArray ports (.secondary,irq-avalancheIntEndPrimary) := by
    show irq-avalancheIntEndPrimary < 32
    omega
  refine ⟨h.setSecondary (Nat.le_of_not_lt hp) (Nat.lt_of_not_le hv) (some _),
    forall_mem_append.mpr ⟨?_,henable⟩⟩
  simpa using ⟨hin,hsecondary⟩

lemma IntcInv.request_returns (h : IntcInv vlynq g₀ s reg) (ports irq : ℕ) (handler : Option ℕ)
    (irqflags devname devId : ℕ) (k : Kmalloc) :
    ∃ ret s' u, requestIrq ports s irq handler irqflags devname devId k = some ⟨ret,s',u⟩ ∧
      (ret = 0 ∨ s' = s ∧ u = []) := by
  obtain ⟨R,hR,-⟩ := h.vlynq
  unfold requestIrq
  split
  · exact ⟨_,_,_,rfl,.inr ⟨rfl,rfl⟩⟩
  split
  · exact ⟨_,_,_,rfl,.inr ⟨rfl,rfl⟩⟩
  next f =>
  split
  · exact ⟨_,_,_,rfl,.inr ⟨rfl,rfl⟩⟩
  dsimp only
  split
  · exact ⟨_,_,_,rfl,.inl rfl⟩
  split
  · obtain ⟨x,hx⟩ := isSome_iff_exists.mp (hR.isSome_request irq f devId k)
    rw [hx,map_some]
    exact ⟨_,_,_,rfl,.inl rfl⟩
  · split
    · exact ⟨_,_,_,rfl,.inl rfl⟩
    · exact ⟨_,_,_,rfl,.inl rfl⟩

lemma retFromFreeIrq_inArray (hirq : irq < avalancheIntEnd ports)
    (hu : ∀ x ∈ u, InArray ports x) :
    ∀ x ∈ u ++ (.irqDesc,irq) :: enableIrqUsed irq, InArray ports x :=
  forall_mem_append.mpr ⟨hu,forall_mem_cons.mpr ⟨irqDesc_inArray hirq,
    enableIrqUsed_inArray ports irq⟩⟩

lemma IntcInv.free (h : IntcInv vlynq g₀ s reg)
    (hirq : lnxIntNum avalancheUnifiedSecondaryInt < irq ∧ irq < avalancheIntEnd ports)
    (hreg : (reg irq).isSome)
    (hsecondary : ¬ (avalancheIntEndPrimary ≤ irq ∧ irq < avalancheIntEndSecondary))
    (hvlynq : avalancheIntcEnd ≤ irq → CanFree s.vlynq irq devId)
    (hf : freeIrq ports s irq devId = some ⟨ret,s',u⟩) :
    IntcInv vlynq g₀ s' (update reg irq none) ∧ ∀ x ∈ u, InArray ports x := by
  obtain ⟨h8,h40,h48,h80',h80,hsec⟩ := ranges
  obtain ⟨a,ha⟩ := isSome_iff_exists.mp hreg
  have hirq' : mipsExceptionOffset ≤ irq := by omega
  unfold freeIrq at hf
  rw [if_neg (by omega),if_neg (by omega)] at hf
  split at hf
  · next hv =>
    obtain ⟨R,hR,hcalls⟩ := h.vlynq
    obtain ⟨pre,e,post,hsplit,harg⟩ := (hvlynq hv).entry
    obtain ⟨hlist,-,-⟩ := SplitFirst.splitFirst_eq_some_iff.mp hsplit
    obtain ⟨x,hx,rfl⟩ := hR.entries e (hlist ▸ mem_append_right pre mem_cons_self)
    obtain ⟨A,B,rfl⟩ := append_of_mem hx
    obtain ⟨t,ht⟩ := hR.whole
    obtain rfl : x.irq = irq := by rw [← harg,Reg.entry,(hR.regs x hx).2.2.1]
    obtain ⟨pal,hfree,hreg'⟩ := hR.free rfl hsplit ((hvlynq hv).notFirst ht.toInv _)
    rw [hfree,h.desc x.irq hirq',ha,map_some] at hf
    obtain ⟨-,rfl,rfl⟩ := Done.mk.inj (some.inj hf)
    refine ⟨h.setVlynq hv hreg' (hcalls.free rfl),retFromFreeIrq_inArray hirq.2 ?_⟩
    exact forall_mem_singleton.mpr (irqDesc_inArray hirq.2)
  next hv =>
  have hp : irq < avalancheIntEndPrimary := by omega
  have haction : s.primary (s.lineToChannel (avIntNum irq)) = some a := by
    rw [h.channel _ (avIntNum_lt hp),h.primary irq hirq' hp,ha]
  rw [if_pos hp] at hf
  dsimp only at hf
  rw [haction] at hf
  obtain ⟨-,rfl,rfl⟩ := Done.mk.inj (some.inj hf)
  refine ⟨h.setPrimary hirq' hp none,retFromFreeIrq_inArray hirq.2 ?_⟩
  simpa using h.primary_inArray hp

lemma inv_of_run {used : List (Table × ℕ)} (hr : Roots vlynq.pal) {t : ListId → List ℕ}
    (hw : Whole vlynq.pal t g₀) (hlist : vlynq.isrList = []) (h : IrqRun ports vlynq s reg used) :
    IntcInv vlynq g₀ s reg ∧ ∀ x ∈ used, InArray ports x := by
  induction h with
  | start => exact ⟨.start hr hw hlist,nofun⟩
  | request _ hirq hone hvlynq h ih =>
    obtain ⟨hs,hu⟩ := ih.1.request hirq hone hvlynq h
    exact ⟨hs,forall_mem_append.mpr ⟨ih.2,hu⟩⟩
  | requestFailed _ hret h ih =>
    obtain ⟨_,_,_,hr,hsame⟩ := ih.1.request_returns _ _ _ _ _ _ _
    cases hr.symm.trans h
    obtain ⟨rfl,rfl⟩ := hsame.resolve_left hret
    rw [append_nil]
    exact ih
  | free _ hirq hreg hsecondary hvlynq h ih =>
    obtain ⟨hs,hu⟩ := ih.1.free hirq hreg hsecondary hvlynq h
    exact ⟨hs,forall_mem_append.mpr ⟨ih.2,hu⟩⟩

lemma IntcInv.isSome (h : IntcInv vlynq g₀ s reg) (ports irq : ℕ) :
    (∀ handler irqflags devname devId k,
      (requestIrq ports s irq handler irqflags devname devId k).isSome) ∧
      ∀ devId, (freeIrq ports s irq devId).isSome := by
  obtain ⟨R,hR,-⟩ := h.vlynq
  constructor
  · intro handler irqflags devname devId k
    obtain ⟨_,_,_,hr,-⟩ := h.request_returns ports irq handler irqflags devname devId k
    rw [hr]
    rfl
  intro devId
  unfold freeIrq
  split
  · rfl
  split
  · rfl
  split
  · rw [isSome_map]
    exact hR.isSome_free irq devId
  · split
    · rfl
    · rfl

/-- In every state of such a run the tables name the registered handlers, no index has been outside
its array, and the next call returns. -/
theorem agrees_of_run {maxRoot : ℕ} {used : List (Table × ℕ)} (hpal : SetUp maxRoot vlynq.pal)
    (hlist : vlynq.isrList = []) (h : IrqRun ports vlynq s reg used) :
    Agrees vlynq s reg ∧ (∀ x ∈ used, InArray ports x) ∧
      ∀ irq, (∀ handler irqflags devname devId k,
        (requestIrq ports s irq handler irqflags devname devId k).isSome) ∧
        ∀ devId, (freeIrq ports s irq devId).isSome := by
  obtain ⟨⟨hr,-⟩,t,g₀,hw,hg⟩ := ready_of_setUp hpal
  obtain ⟨hs,hused⟩ := inv_of_run hr hw hlist h
  exact ⟨hs.agrees hw hg,hused,hs.isSome ports⟩

def sampleVlynq : VlynqIntc := ⟨oneMapped,fun _ => ⟨0,0,0⟩,[],0⟩

def allOk : Kmalloc := ⟨true,true,true⟩

def tablesAfter (s : IrqTables) (x : Option Done) : IrqTables := (x.map Done.tables).getD s

lemma eq_some_done {x : Option Done} {r : ℤ} (h : x.map Done.ret = some r) :
    ∃ u, x = some ⟨r,tablesAfter s x,u⟩ := by
  obtain ⟨y,rfl,rfl⟩ := map_eq_some_iff.mp h
  exact ⟨y.used,rfl⟩

def onePrimary : IrqTables :=
  tablesAfter (initIrq sampleVlynq) (requestIrq 2 (initIrq sampleVlynq) 9 (some 100) 0 0 1 allOk)

def oneSecondary : IrqTables :=
  tablesAfter onePrimary (requestIrq 2 onePrimary 50 (some 200) 0 0 2 allOk)

def oneOfVlynq : IrqTables :=
  tablesAfter oneSecondary (requestIrq 2 oneSecondary 80 (some 300) 0 0 3 allOk)

def vlynqFreed : IrqTables := tablesAfter oneOfVlynq (freeIrq 2 oneOfVlynq 80 3)

lemma canRequest_sample : CanRequest oneSecondary.vlynq 80 allOk where
  mapped := ⟨3,0,by decide +kernel,by decide +kernel,by decide +kernel⟩
  free := by decide +kernel
  kmalloc := ⟨rfl,rfl⟩

lemma canFree_sample : CanFree oneOfVlynq.vlynq 80 3 where
  entry := ⟨[],⟨3,0⟩,[],by decide +kernel,by decide +kernel⟩
  alone table n ht hn := by
    have htable : lineTable oneOfVlynq.vlynq.pal 80 = some 0 := by decide +kernel
    obtain rfl := some.inj (htable.symm.trans ht)
    have hhead : oneOfVlynq.vlynq.pal.head (.line 0 (adjIrq 80)) = some 29 := by decide +kernel
    obtain rfl := some.inj (hhead.symm.trans hn)
    decide +kernel

/-- A primary, a secondary and a VLYNQ interrupt are requested, and the last one is freed. -/
theorem agrees_sample : ∃ reg used, IrqRun 2 sampleVlynq vlynqFreed reg used ∧
    (reg 9).isSome ∧ (reg 50).isSome ∧ reg 80 = none ∧ Agrees sampleVlynq vlynqFreed reg := by
  obtain ⟨u₁,h₁⟩ : ∃ u, requestIrq 2 (initIrq sampleVlynq) 9 (some 100) 0 0 1 allOk =
    some ⟨0,onePrimary,u⟩ := eq_some_done (by decide +kernel)
  obtain ⟨u₂,h₂⟩ : ∃ u, requestIrq 2 onePrimary 50 (some 200) 0 0 2 allOk =
    some ⟨0,oneSecondary,u⟩ := eq_some_done (by decide +kernel)
  obtain ⟨u₃,h₃⟩ : ∃ u, requestIrq 2 oneSecondary 80 (some 300) 0 0 3 allOk =
    some ⟨0,oneOfVlynq,u⟩ := eq_some_done (by decide +kernel)
  obtain ⟨u₄,h₄⟩ : ∃ u, freeIrq 2 oneOfVlynq 80 3 = some ⟨0,vlynqFreed,u⟩ :=
    eq_some_done (by decide +kernel)
  have hrun₂ := (IrqRun.start.request (by decide) (by decide)
    (fun h => absurd h (by decide)) h₁).request (by decide) (by decide)
    (fun h => absurd h (by decide)) h₂
  have hrun := (hrun₂.request (by decide) (by decide) (fun _ => canRequest_sample) h₃).free
    (by decide) (by decide) (by decide) (fun _ => canFree_sample) h₄
  exact ⟨_,_,hrun,by decide,by decide,by decide,(agrees_of_run setUp_oneMapped rfl hrun).1⟩

def secondaryFreed : Option Done :=
  (requestIrq 2 (initIrq sampleVlynq) 48 (some 100) 0 0 1 allOk).bind fun d =>
    (requestIrq 2 d.tables 56 (some 200) 0 0 2 allOk).bind fun d => freeIrq 2 d.tables 48 1

/-- The handler of the second interrupt is removed from its table in place of that of the first
one; and for the number 72 an element behind the table is used. -/
theorem free_secondary_wrong :
    (secondaryFreed.map fun d => (d.tables.irqDesc 48,dispatch d.tables 48,d.tables.irqDesc 56,
      dispatch d.tables 56)) =
      some ([],some [.handler 100 48 1],[⟨200,0,0,2⟩],some []) ∧
    ((requestIrq 2 (initIrq sampleVlynq) 72 (some 100) 0 0 1 allOk).bind fun d =>
      (freeIrq 2 d.tables 72 1).map Done.used) = some [(.secondary,32)] ∧
    ¬ InArray 2 (.secondary,32) := by
  refine ⟨by decide +kernel,by decide +kernel,?_⟩
  exact lt_irrefl 32

end DslG624t.Intc
