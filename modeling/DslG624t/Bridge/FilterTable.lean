import DslG624t.Bridge.FilterSpec

/-!
# The table of filter rules

What the commands of `br_filter.c` make of the list of rules. The list is meant to hold the rules
as they were given, in the order they were given in.
-/

namespace DslG624t.Bridge

open CString Ethernet FirstMatch Function List Option

/-- `struct __br_filter_entry`, a rule as it is handed out. -/
structure FilterOutput where
  sport : PortField
  dport : PortField
  srcMacAddr : Mac
  dstMacAddr : Mac
  proto : UInt16
  accessType : UInt8
  framesMatched : UInt32
  deriving DecidableEq

def FilterEntry.output (e : FilterEntry) : FilterOutput where
  sport := e.sport
  dport := e.dport
  srcMacAddr := e.srcMacAddr
  dstMacAddr := e.dstMacAddr
  proto := e.ethProto
  accessType := e.accessType
  framesMatched := e.framesMatched

structure ShowOutcomes where
  entAlloc : ℕ → Bool
  copyOk : ℕ → Bool

/-- The loop over the rules, with the buffer of the caller. A copy that fails is passed over. -/
def showLoop (o : ShowOutcomes) (maxnum : ℤ) :
    ℕ → (ℕ → Option FilterOutput) → List FilterEntry → ℤ × (ℕ → Option FilterOutput)
  | num, walk, [] => (num,walk)
  | num, walk, e :: es =>
    if num < maxnum then
      if !o.entAlloc num then (-1,walk)
      else
        let walk := if o.copyOk num then update walk num (some e.output) else walk
        showLoop o maxnum (num+1) walk es
    else (num,walk)

def brShowFilterEntries (br : NetBridge) (o : ShowOutcomes) (maxnum : ℤ) :
    ℤ × (ℕ → Option FilterOutput) :=
  match br.blacklist with
  | [] => (0, fun _ => none)
  | _ :: _ => showLoop o maxnum 0 (fun _ => none) br.blacklist

variable {o : ShowOutcomes} {maxnum : ℤ} {num : ℕ} {br : NetBridge} {l : List FilterInput}

section

variable (ha : ∀ i, o.entAlloc i = true) (hc : ∀ i, o.copyOk i = true)
include ha hc

lemma showLoop_cons
    (hlt : num < maxnum) (walk : ℕ → Option FilterOutput) (e : FilterEntry)
    (es : List FilterEntry) :
    showLoop o maxnum num walk (e :: es) =
      showLoop o maxnum (num+1) (update walk num (some e.output)) es := by
  simp [showLoop,hlt,ha,hc]

lemma showLoop_eq
    {walk : ℕ → Option FilterOutput} {es : List FilterEntry} (hmax : num+es.length ≤ maxnum) :
    showLoop o maxnum num walk es =
      (((num+es.length : ℕ) : ℤ),
        fun i => if num ≤ i ∧ i < num+es.length then (es[i-num]?).map FilterEntry.output
          else walk i) := by
  induction es generalizing num walk with
  | nil =>
    have hempty (i : ℕ) : ¬ (num ≤ i ∧ i < num) := by omega
    simp [showLoop,hempty]
  | cons e es ih =>
    rw [length_cons] at hmax ⊢
    rw [showLoop_cons ha hc (by omega),ih (by omega)]
    refine Prod.ext (by dsimp only; omega) ?_
    funext i
    dsimp only
    by_cases hi : i = num
    · subst i
      rw [if_neg (by omega),if_pos (by omega),update_self]
      simp
    rw [update_of_ne hi]
    by_cases hr : num+1 ≤ i ∧ i < num+1+es.length
    · have hsucc : i-num = (i-(num+1))+1 := by omega
      rw [if_pos hr,if_pos (by omega),hsucc,getElem?_cons_succ]
    · rw [if_neg hr,if_neg (by omega)]

lemma brShowFilterEntries_eq
    (hmax : br.blacklist.length ≤ maxnum) :
    brShowFilterEntries br o maxnum =
      ((br.blacklist.length : ℤ), fun i => (br.blacklist[i]?).map FilterEntry.output) := by
  unfold brShowFilterEntries
  split
  · next h => simp [h]
  next e es h =>
  rw [showLoop_eq ha hc (by simpa using hmax)]
  refine Prod.ext (by simp) ?_
  funext i
  by_cases hi : i < br.blacklist.length
  · simp [hi]
  · simp [hi]

end

def FilterInput.same (f g : FilterInput) : Bool :=
  cstr f.sport.val == cstr g.sport.val && cstr f.dport.val == cstr g.dport.val &&
    f.srcMacAddr == g.srcMacAddr && f.dstMacAddr == g.dstMacAddr && f.proto == g.proto &&
    f.accessType == g.accessType

def FilterInput.stored (f : FilterInput) : FilterEntry :=
  { FilterEntry.ofInput f with matchCheck := (FilterEntry.ofInput f).recordMatch }

def FilterInput.output (f : FilterInput) : FilterOutput where
  sport := f.sport
  dport := f.dport
  srcMacAddr := f.srcMacAddr
  dstMacAddr := f.dstMacAddr
  proto := f.proto
  accessType := f.accessType
  framesMatched := 0

lemma FilterInput.stored_inj {f g : FilterInput} (h : f.stored = g.stored) : f = g := by
  have hproto : f.proto = g.proto := by
    have h' : htons f.proto = htons g.proto := congrArg FilterEntry.ethProto h
    rw [← htons_htons f.proto,h',htons_htons]
  cases f
  cases g
  simp only [FilterInput.stored,FilterEntry.ofInput,FilterEntry.mk.injEq] at h
  simp_all

def Recognised (f : FilterInput) (l : List FilterInput) : Prop :=
  l.findIdx (fun g => deletes f g.stored) = l.findIdx f.same

/-- What a run of commands from an empty table has made of the bridge, and the rules that the
table should then hold. -/
inductive FilterRun : NetBridge → List FilterInput → Prop where
  | empty {br : NetBridge} (h : br.blacklist = []) : FilterRun br []
  | add {br : NetBridge} {l : List FilterInput} (h : FilterRun br l) (o : Outcomes)
    (f : FilterInput) :
    FilterRun (brAddFilterEntry br o f).2
      (if o.inputAlloc && o.copyOk && o.entryAlloc then l ++ [f] else l)
  | del {br : NetBridge} {l : List FilterInput} (h : FilterRun br l) (o : Outcomes)
    (f : FilterInput) (hf : Recognised f l) :
    FilterRun (brDelFilterEntry br o f).2
      (if o.inputAlloc && o.copyOk then l.eraseP f.same else l)
  | flush {br : NetBridge} {l : List FilterInput} (h : FilterRun br l) :
    FilterRun (brFlushFilter br).2 []

lemma blacklist_brAddFilterEntry (h : br.blacklist = l.map FilterInput.stored) (o : Outcomes)
    (f : FilterInput) :
    (brAddFilterEntry br o f).2.blacklist =
      (if o.inputAlloc && o.copyOk && o.entryAlloc then l ++ [f] else l).map
        FilterInput.stored := by
  obtain ⟨a,c,e⟩ := o
  cases a
  · exact h
  cases c
  · exact h
  · cases e
    · exact h
    · simp [brAddFilterEntry,h,FilterInput.stored]

lemma blacklist_brDelFilterEntry (h : br.blacklist = l.map FilterInput.stored) (o : Outcomes)
    (f : FilterInput) :
    (brDelFilterEntry br o f).2.blacklist =
      (if o.inputAlloc && o.copyOk then l.eraseP (fun g => deletes f g.stored) else l).map
        FilterInput.stored := by
  obtain ⟨a,c,e⟩ := o
  cases a
  · exact h
  · cases c
    · exact h
    · simp [brDelFilterEntry,h,eraseP_map,comp_def]

lemma FilterRun.blacklist_eq (h : FilterRun br l) : br.blacklist = l.map FilterInput.stored := by
  induction h with
  | empty h => exact h
  | add _ o f ih => exact blacklist_brAddFilterEntry ih o f
  | @del br l _ o f hf ih =>
    rw [blacklist_brDelFilterEntry ih,(eraseP_eq_eraseP_iff _ _ l).mpr hf]
  | @flush br l _ _ => exact blacklist_brFlushFilter br

lemma output_stored_iff (f : FilterInput) :
    f.stored.output = f.output ↔ htons f.proto = f.proto := by
  constructor
  · exact fun h => congrArg FilterOutput.proto h
  · intro h
    simp [FilterInput.stored,FilterEntry.output,FilterEntry.ofInput,FilterInput.output,h]

lemma map_output_stored_iff (l : List FilterInput) :
    (∀ i : ℕ, (l[i]?).map (fun f => f.stored.output) = (l[i]?).map FilterInput.output) ↔
      ∀ f ∈ l, htons f.proto = f.proto := by
  constructor
  · intro h f hf
    obtain ⟨i,hi⟩ := getElem?_of_mem hf
    have hfi := h i
    rw [hi,map_some,map_some] at hfi
    exact (output_stored_iff f).mp (some.inj hfi)
  intro h i
  cases hi : l[i]? with
  | none => rfl
  | some f =>
    rw [map_some,map_some]
    exact congrArg some ((output_stored_iff f).mpr (h f (mem_of_getElem? hi)))

/-- After every run whose deletions have met their condition the table holds the rules that were
given. The next deletion takes away the first rule that agrees with the one named if and only
if it meets the condition, and the rules are shown as they were given if and only if every
protocol reads the same in both byte orders. -/
theorem filterTable_iff {br : NetBridge} {l : List FilterInput} (h : FilterRun br l) :
    br.blacklist = l.map FilterInput.stored ∧
    (∀ (o : Outcomes) (f : FilterInput), o.inputAlloc = true → o.copyOk = true →
      ((brDelFilterEntry br o f).2.blacklist = (l.eraseP f.same).map FilterInput.stored ↔
        Recognised f l)) ∧
    (∀ (o : ShowOutcomes) (maxnum : ℤ), (∀ i, o.entAlloc i = true) → (∀ i, o.copyOk i = true) →
      (l.length : ℤ) ≤ maxnum → (brShowFilterEntries br o maxnum =
        ((l.length : ℤ), fun i => (l[i]?).map FilterInput.output) ↔
        ∀ f ∈ l, htons f.proto = f.proto)) := by
  have htable := h.blacklist_eq
  refine ⟨htable,?_,?_⟩
  · intro o f ha hc
    have hdel := blacklist_brDelFilterEntry htable o f
    rw [ha,hc] at hdel
    rw [hdel,Recognised,← eraseP_eq_eraseP_iff]
    exact (map_injective_iff.mpr fun _ _ => FilterInput.stored_inj).eq_iff
  intro o maxnum ha hc hmax
  have hlen : br.blacklist.length = l.length := by rw [htable,length_map]
  rw [brShowFilterEntries_eq ha hc (by omega),← map_output_stored_iff,hlen,htable]
  simp only [Prod.mk.injEq,true_and,getElem?_map,Option.map_map,comp_def]
  exact funext_iff

private def anyFdb : Fdb := ⟨fun _ => [],0,0,0,false⟩

private def noRules : NetBridge := ⟨anyFdb,[],true⟩

private def dropFrom (station : Mac) : FilterInput where
  sport := noPort
  dport := noPort
  srcMacAddr := station
  dstMacAddr := ⟨0,0,0,0,0,0⟩
  proto := 0x0800
  accessType := 0

private def succeeds : Outcomes := ⟨true,true,true⟩

private def oneRule : NetBridge :=
  (brAddFilterEntry noRules succeeds (dropFrom ⟨0,0x1b,2,3,4,5⟩)).2

/-- Deleting a rule that is not in the table takes away the one that is, and that one is shown
with the bytes of its protocol exchanged. -/
theorem filterTable_deletes_other :
    (dropFrom ⟨0,0x1c,2,3,4,5⟩).same (dropFrom ⟨0,0x1b,2,3,4,5⟩) = false ∧
      oneRule.blacklist.length = 1 ∧
      (brDelFilterEntry oneRule succeeds (dropFrom ⟨0,0x1c,2,3,4,5⟩)).2.blacklist = [] ∧
      (brShowFilterEntries oneRule ⟨fun _ => true,fun _ => true⟩ 8).2 0 =
        some { (dropFrom ⟨0,0x1b,2,3,4,5⟩).output with proto := 0x0008 } := by
  decide

/-- Of two rules the second one is taken away when it is named itself. -/
theorem filterTable_iff_two_rules :
    (brDelFilterEntry (brAddFilterEntry oneRule succeeds (dropFrom ⟨2,0x1b,2,3,4,5⟩)).2 succeeds
      (dropFrom ⟨2,0x1b,2,3,4,5⟩)).2.blacklist = [(dropFrom ⟨0,0x1b,2,3,4,5⟩).stored] := by
  have hrun : FilterRun (brAddFilterEntry oneRule succeeds (dropFrom ⟨2,0x1b,2,3,4,5⟩)).2
      [dropFrom ⟨0,0x1b,2,3,4,5⟩,dropFrom ⟨2,0x1b,2,3,4,5⟩] :=
    .add (.add (.empty rfl) succeeds _) succeeds _
  refine ((filterTable_iff hrun).2.1 succeeds _ rfl rfl).mpr ?_
  show findIdx _ _ = findIdx _ _
  decide

/-- The commands of `br_ioctl.c` that work on the table. -/
inductive FilterCommand where
  | add (o : Outcomes) (f : FilterInput)
  | del (o : Outcomes) (f : FilterInput)
  | flush
  | showEntries (o : ShowOutcomes) (maxnum : ℤ)

def FilterCommand.exec (br : NetBridge) : FilterCommand → ℤ × NetBridge
  | .add o f => brAddFilterEntry br o f
  | .del o f => brDelFilterEntry br o f
  | .flush => brFlushFilter br
  | .showEntries o maxnum => ((brShowFilterEntries br o maxnum).1,br)

/-- The command gets to where it switches the filter back on, if it has switched it off. -/
def FilterCommand.Completes (br : NetBridge) : FilterCommand → Prop
  | .add _ _ => True
  | .del o _ => o.inputAlloc = true ∧ o.copyOk = true
  | .flush => br.blacklist ≠ []
  | .showEntries _ _ => True

lemma brFilterActive_brAddFilterEntry (br : NetBridge) (o : Outcomes) (f : FilterInput) :
    (brAddFilterEntry br o f).2.brFilterActive = br.brFilterActive := by
  unfold brAddFilterEntry
  repeat' split
  all_goals rfl

lemma brFilterActive_brDelFilterEntry (br : NetBridge) (o : Outcomes) (f : FilterInput) :
    (brDelFilterEntry br o f).2.brFilterActive =
      if o.inputAlloc && o.copyOk then br.brFilterActive else false := by
  obtain ⟨a,c,e⟩ := o
  cases a
  · rfl
  · cases c
    · rfl
    · rfl

lemma brFilterActive_brFlushFilter (br : NetBridge) :
    (brFlushFilter br).2.brFilterActive =
      if br.blacklist = [] then false else br.brFilterActive := by
  unfold brFlushFilter
  split
  · next h => rw [if_pos h]
  · next h => rw [if_neg (by simp [h])]

/-- A command returns with `br_filter_active` as it was if and only if the filter was off
already, or the command is not one that stops half way. -/
theorem brFilterActive_exec_iff (br : NetBridge) (c : FilterCommand) :
    (c.exec br).2.brFilterActive = br.brFilterActive ↔
      br.brFilterActive = false ∨ c.Completes br := by
  cases c with
  | add o f => simp [FilterCommand.exec,FilterCommand.Completes,brFilterActive_brAddFilterEntry]
  | del o f =>
    rw [FilterCommand.exec,brFilterActive_brDelFilterEntry,FilterCommand.Completes,
      ← Bool.and_eq_true]
    split
    · next h => simp [h]
    · next h => rw [or_iff_left h,@eq_comm _ false]
  | flush =>
    rw [FilterCommand.exec,brFilterActive_brFlushFilter,FilterCommand.Completes]
    split
    · next h => rw [or_iff_left (not_not_intro h),@eq_comm _ false]
    · next h => simp [h]
  | showEntries o maxnum => simp [FilterCommand.exec,FilterCommand.Completes]

/-- Flushing a table without rules switches the filter off, and so does deleting a rule that
cannot be read from the caller. -/
theorem brFilterActive_lost :
    noRules.brFilterActive = true ∧
      (FilterCommand.flush.exec noRules).2.brFilterActive = false ∧
      ((FilterCommand.del ⟨true,false,true⟩ (dropFrom ⟨0,0x1b,2,3,4,5⟩)).exec
        oneRule).2.brFilterActive = false := by
  decide

end DslG624t.Bridge
