import DslG624t.Bridge.Filter
import DslG624t.Bridge.Forward

/-!
# The locks of the bridge extensions

The filter commands of `br_filter.c`, the transmit routine, the IGMP handlers and the multicast
timers, as the locks they take and give back.
-/

namespace DslG624t.Bridge.Forward

open List Monitor Option
open Mfd (IGMP_V1_MEMBERSHIP_REPORT)

/-- `br_add_filter_entry`, which links the rule without the lock. -/
def brAddFilterEntry (o : Outcomes) (w : World) : World :=
  let w := w.acquire .filterLock .write
  if !o.inputAlloc then w.release .filterLock .write
  else
    let w := w.release .filterLock .write
    if !o.copyOk then w
    else
      let w := w.acquire .filterLock .write
      if !o.entryAlloc then w.release .filterLock .write else w.release .filterLock .write

def delFilterLoop (f : FilterInput) : List FilterEntry → World → World
  | [], w => w
  | e :: es, w => if deletes f e then w.acquire .filterLock .write else delFilterLoop f es w

def brDelFilterEntry (blacklist : List FilterEntry) (o : Outcomes) (f : FilterInput)
    (w : World) : World :=
  let w := w.acquire .filterLock .write
  if !o.inputAlloc then w.release .filterLock .write
  else
    let w := w.release .filterLock .write
    if !o.copyOk then w else delFilterLoop f blacklist w

def brFlushFilter (blacklist : List FilterEntry) (w : World) : World :=
  match blacklist with
  | [] => w
  | _ :: _ => (w.acquire .filterLock .write).release .filterLock .write

/-- The loop of `br_show_filter_entries`; `alloc` is what its `kmalloc` calls do. -/
def showFilterLoop (alloc : ℕ → Bool) (maxnum : ℤ) : List FilterEntry → ℕ → World → World
  | [], _, w => w
  | _ :: es, num, w =>
    if num < maxnum then
      let w := w.acquire .filterLock .write
      if !alloc num then w.release .filterLock .write
      else showFilterLoop alloc maxnum es (num+1) (w.release .filterLock .write)
    else w

def brShowFilterEntries (blacklist : List FilterEntry) (maxnum : ℤ) (alloc : ℕ → Bool)
    (w : World) : World := showFilterLoop alloc maxnum blacklist 0 w

/-- `br_mfd_delete_port_from_group`. The entry goes with its last port. -/
def brMfdDeletePortFromGroup (p : ℕ) (group : UInt32) (w : World) : World :=
  let w := w.acquire .mfdHashLock .write
  let w := match w.mfd group with
    | some plist =>
      if plist.any (·.dst = p) then
        let plist : List PNode := plist.eraseP fun n => decide (n.dst = p)
        { w with mfd := Function.update w.mfd group (if plist.isEmpty then none else some plist) }
      else w
    | none => w
  w.release .mfdHashLock .write

def brMembershipTimerExpired (p : ℕ) (group : UInt32) (w : World) : World :=
  brMfdDeletePortFromGroup p group w

def brOtherQuerierPresentTimerExpired (m : ConfMode) (c : Br) (w : World) : World :=
  brSendIgmpQuery m c 0 { w with isQuerier := .querier }

def brGeneralQueryTimerExpired (m : ConfMode) (c : Br) (w : World) : World :=
  brSendIgmpQuery m c 0 w

inductive Call
  | addFilter (o : Outcomes)
  | delFilter (o : Outcomes) (f : FilterInput)
  | flushFilter
  | showFilter (maxnum : ℤ) (alloc : ℕ → Bool)
  | devXmit
  | report (source : ℕ) (addr : UInt32)
  | leave (p : ℕ) (group : UInt32)
  | query (group : UInt32) (excludeIf : Option ℕ)
  | handleMc (mode : Mode)
  | membershipTimer (p : ℕ) (group : UInt32)
  | otherQuerierTimer
  | generalQueryTimer

/-- The call on buffer 0. The two query timers exist in the `CONFIG_BRIDGE_CONF_MODE` build
only. -/
def Call.run (conf : Option ConfMode) (c : Br) (blacklist : List FilterEntry) (w : World) :
    Call → World
  | .addFilter o => brAddFilterEntry o w
  | .delFilter o f => brDelFilterEntry blacklist o f w
  | .flushFilter => brFlushFilter blacklist w
  | .showFilter maxnum alloc => brShowFilterEntries blacklist maxnum alloc w
  | .devXmit => brDevXmit conf c 0 w
  | .report source addr => brMfdInsert c source addr 0 w
  | .leave p group => brLeaveReportReceived conf c p group w
  | .query group excludeIf => brDontForwardReport group excludeIf w
  | .handleMc mode => (brHandleMc conf c 0 mode w).2
  | .membershipTimer p group => brMembershipTimerExpired p group w
  | .otherQuerierTimer => conf.elim w fun m => brOtherQuerierPresentTimerExpired m c w
  | .generalQueryTimer => conf.elim w fun m => brGeneralQueryTimerExpired m c w

/-- The locks a call may take. -/
def Call.locks : Call → List Lock
  | .addFilter _ => [.filterLock]
  | .delFilter _ _ => [.filterLock]
  | .flushFilter => [.filterLock]
  | .showFilter _ _ => [.filterLock]
  | .devXmit => [.lock,.hashLock,.mfdHashLock]
  | .query _ _ => [.mfdHashLock]
  | .membershipTimer _ _ => [.mfdHashLock]
  | _ => [.hashLock,.mfdHashLock]

def Event.locks : Event → List (LockEv Lock)
  | .lock ev => [ev]
  | _ => []

def World.held (w : World) (H : List (Lock × Side)) : Option (List (Lock × Side)) :=
  run lockStep H (w.trace.flatMap Event.locks)

def Disciplined (H : List (Lock × Side)) (w : World) : Prop := w.held H = some H

/-- A member leaves while the bridge is the querier: its specific query is sent from inside
the lock that `br_dont_forward_report` wants. -/
def QueryInside (conf : Option ConfMode) (w : World) (p : ℕ) (group : UInt32) : Prop :=
  (∃ m, conf = some m ∧ m.bridgeOnly = true) ∧ w.isQuerier = .querier ∧
    ((w.mfd group).getD []).any (·.dst = p) = true

def Call.Ok (conf : Option ConfMode) (c : Br) (blacklist : List FilterEntry) (w : World) :
    Call → Prop
  | .delFilter o f =>
    ¬ (o.inputAlloc = true ∧ o.copyOk = true ∧ ∃ e ∈ blacklist, deletes f e = true)
  | .devXmit => c.group = false
  | .leave p group => ¬ QueryInside conf w p group
  | .handleMc (.input source) =>
    ¬ (c.isIp = true ∧ c.isIgmp = true ∧ c.igmpType = IGMP_LEAVE_GROUP ∧
      QueryInside conf w source c.igmpGroup)
  | _ => True

variable {conf : Option ConfMode} {c : Br} {w : World} {H : List (Lock × Side)}
  {X Y : Option (List (Lock × Side))} {skb : ℕ}

variable {s : Side} {l : Lock} {group : UInt32} {p : ℕ} {w' : World} {mode : Mode}

lemma World.held_emit (w : World) (e : Event) :
    (w.emit e).held H = (w.held H).bind fun K => Monitor.run lockStep K e.locks := by
  simp [World.held,World.emit,flatMap_append,run_append]

lemma World.held_skb (w : World) {e : Event} (he : e.locks = []) :
    (w.emit e).held H = w.held H := by
  rw [World.held_emit,he]
  exact bind_fun_some _

def FreeIn (X : Option (List (Lock × Side))) (l : Lock) : Prop :=
  ∀ K, X = some K → l ∉ K.map Prod.fst

lemma freeIn_cons {l l' : Lock} (hne : l ≠ l') (hl : FreeIn X l) :
    FreeIn (X.map ((l',s) :: ·)) l := by
  rintro _ hK
  obtain ⟨K,rfl,rfl⟩ := map_eq_some_iff.mp hK
  simpa [hne] using hl K rfl

lemma World.held_acquire (h : w.held H = X) (hl : FreeIn X l) (s : Side) :
    (w.acquire l s).held H = X.map ((l,s) :: ·) := by
  rw [World.acquire,World.held_emit,h]
  cases X with
  | none => rfl
  | some K => simp [Event.locks,Monitor.run,lockStep_acquire (hl K rfl)]

lemma World.held_release (h : w.held H = X.map ((l,s) :: ·)) : (w.release l s).held H = X := by
  rw [World.release,World.held_emit,h]
  cases X with
  | none => rfl
  | some K => simp [Event.locks,Monitor.run,lockStep_release]

lemma World.held_pair (h : w.held H = X) (hl : FreeIn X l) (s : Side) :
    ((w.acquire l s).release l s).held H = X :=
  World.held_release (World.held_acquire h hl s)

lemma skbClone_held {r : Option ℕ} {w' : World} (h : w.held H = X)
    (hr : skbClone c skb w = (r,w')) : w'.held H = X := by
  unfold skbClone at hr
  split at hr
  all_goals
    cases hr
    exact (w.held_skb rfl).trans h

section Sending
variable (h : w.held H = X) (hk : FreeIn X .hashLock)
include h hk

lemma brSendFrame_held (dst : ℕ) : (brSendFrame c dst skb w).held H = X := by
  have huse : (w.emit (.use skb)).held H = X := (w.held_skb rfl).trans h
  have hset : ((w.emit (.use skb)).setDev skb (.port dst)).held H = X := huse
  dsimp only [brSendFrame]
  split
  · split
    · have hfilter : (brFilterFrame skb ((w.emit (.use skb)).setDev skb (.port dst))).held H =
          X := World.held_pair ((World.held_skb _ rfl).trans hset) hk .read
      split
      · exact (World.held_skb _ rfl).trans hfilter
      · exact (World.held_skb _ rfl).trans hfilter
    · exact (World.held_skb _ rfl).trans hset
  · exact (World.held_skb _ rfl).trans huse

lemma floodPorts_held (ps : List ℕ) (prev : Option ℕ) :
    (floodPorts c skb ps prev w).held H = X := by
  induction ps generalizing prev w with
  | nil =>
    cases prev with
    | none => exact (w.held_skb rfl).trans h
    | some q => exact brSendFrame_held h hk q
  | cons p ps ih =>
    have huse : (w.emit (.use skb)).held H = X := (w.held_skb rfl).trans h
    simp only [floodPorts]
    split
    · cases prev with
      | none => exact ih huse _
      | some q =>
        rcases hr : skbClone c skb (w.emit (.use skb)) with ⟨_ | skb2,w'⟩
        · exact (w'.held_skb rfl).trans (skbClone_held huse hr)
        · exact ih (brSendFrame_held (skbClone_held huse hr) hk q) _
    · exact ih huse _

lemma brFlood_held (clone : Bool) : (brFlood c skb clone w).held H = X := by
  cases clone with
  | false => exact floodPorts_held h hk _ _
  | true =>
    simp only [brFlood,if_true]
    rcases hr : skbClone c skb w with ⟨_ | skb2,w'⟩
    · exact (w'.held_skb rfl).trans (skbClone_held h hr)
    · exact floodPorts_held (skbClone_held h hr) hk _ _

lemma selectivePorts_held (plist : List PNode) (ps : List ℕ) :
    (selectivePorts c plist skb ps w).held H = X := by
  induction ps generalizing w with
  | nil => exact h
  | cons p ps ih =>
    have huse : (w.emit (.use skb)).held H = X := (w.held_skb rfl).trans h
    simp only [selectivePorts]
    split
    · rcases hr : skbClone c skb (w.emit (.use skb)) with ⟨_ | skb2,w'⟩
      · exact (w'.held_skb rfl).trans (skbClone_held huse hr)
      · exact ih (brSendFrame_held (skbClone_held huse hr) hk p)
    · exact ih huse

lemma dataPorts_held (pnode : PNode) (rest : List PNode) :
    (dataPorts c skb pnode rest w).2.held H = X := by
  induction rest generalizing w pnode with
  | nil => exact brSendFrame_held h hk _
  | cons next rest ih =>
    rw [dataPorts]
    rcases hr : skbClone c skb w with ⟨_ | skb2,w'⟩
    · exact skbClone_held h hr
    · exact ih (brSendFrame_held (skbClone_held h hr) hk _) next

lemma mfdInsertPort_held (plist : List PNode) (source : ℕ) :
    (mfdInsertPort c plist source skb w).2.held H = X := by
  unfold mfdInsertPort
  split
  · exact selectivePorts_held h hk _ _
  · split
    · exact selectivePorts_held h hk _ _
    · exact h

end Sending

section Groups
variable (h : w.held H = X) (hm : FreeIn X .mfdHashLock)
include h hm

lemma brDontForwardReport_held (group : UInt32) (excludeIf : Option ℕ) :
    (brDontForwardReport group excludeIf w).held H = X := by
  have hlock := World.held_acquire h hm .write
  dsimp only [brDontForwardReport]
  split
  · exact World.held_release hlock
  · exact World.held_release hlock

lemma brMfdDeletePortFromGroup_held (p : ℕ) (group : UInt32) :
    (brMfdDeletePortFromGroup p group w).held H = X := by
  have hlock := World.held_acquire h hm .write
  dsimp only [brMfdDeletePortFromGroup]
  split
  · split
    · exact World.held_release hlock
    · exact World.held_release hlock
  · exact World.held_release hlock

end Groups

lemma brSendIgmpQuery_held_of (m : ConfMode)
    (hmark : (brDontForwardReport group none w).held H = X) (hk : FreeIn X .hashLock) :
    (brSendIgmpQuery m c group w).held H = X := by
  dsimp only [brSendIgmpQuery]
  split
  · exact hmark
  split
  · exact hmark
  split
  · exact hmark
  · refine brFlood_held ?_ hk false
    exact (World.held_skb (e := .alloc (brDontForwardReport group none w).made) _ rfl).trans
      hmark

/-- What is held after a call that gets stuck. -/
def StuckIf (stuck : Prop) (X Y : Option (List (Lock × Side))) : Prop :=
  (stuck → Y = none) ∧ (¬ stuck → Y = X)

lemma StuckIf.congr {P Q : Prop} (hY : StuckIf P X Y) (h : P ↔ Q) : StuckIf Q X Y :=
  ⟨fun hQ => hY.1 (h.mpr hQ),fun hQ => hY.2 fun hP => hQ (h.mp hP)⟩

lemma freeIn_none (l : Lock) : FreeIn none l := by
  rintro _ ⟨⟩

lemma StuckIf.freeIn {P : Prop} (hY : StuckIf P X Y) (hl : FreeIn X l) : FreeIn Y l := by
  by_cases hP : P
  · rw [hY.1 hP]
    exact freeIn_none l
  · rwa [hY.2 hP]

lemma brLeaveReportReceived_held (h : w.held H = X) (hm : FreeIn X .mfdHashLock)
    (hY : StuckIf (QueryInside conf w p group) X Y) :
    (brLeaveReportReceived conf c p group w).held H = Y := by
  have hlock := World.held_acquire h hm .write
  by_cases hq : QueryInside conf w p group
  · rw [hY.1 hq]
    obtain ⟨⟨m,rfl,hb⟩,hquerier,hany⟩ := hq
    have hagain : ((w.acquire .mfdHashLock .write).acquire .mfdHashLock .write).held H =
        none := by
      rw [World.acquire,World.held_emit,hlock]
      cases X with
      | none => rfl
      | some K => simp [Event.locks,Monitor.run,lockStep]
    have hmark : (brDontForwardReport group none (w.acquire .mfdHashLock .write)).held H =
        none := by
      dsimp only [brDontForwardReport]
      split <;> exact World.held_release (X := none) hagain
    have hrun : brLeaveReportReceived (some m) c p group w =
        (brSendIgmpQuery m c group (w.acquire .mfdHashLock .write)).release .mfdHashLock
          .write := by
      have hany' : (((w.acquire .mfdHashLock .write).mfd group).getD []).any (·.dst = p) =
          true := hany
      have hquerier' : (w.acquire .mfdHashLock .write).isQuerier = .querier := hquerier
      simp only [brLeaveReportReceived,hany',hb,hquerier',decide_true,Bool.and_self,if_true]
    rw [hrun]
    exact World.held_release (X := none) (brSendIgmpQuery_held_of m hmark (freeIn_none _))
  rw [hY.2 hq]
  have hsame : brLeaveReportReceived conf c p group w =
      (w.acquire .mfdHashLock .write).release .mfdHashLock .write := by
    dsimp only [brLeaveReportReceived]
    split
    · next hany =>
      cases conf with
      | none => rfl
      | some m =>
        have : ¬ ((m.bridgeOnly && decide (w.isQuerier = .querier)) = true) := by
          intro hc
          rw [Bool.and_eq_true,decide_eq_true_eq] at hc
          exact hq ⟨⟨m,rfl,hc.1⟩,hc.2,hany⟩
        exact congrArg (World.release · .mfdHashLock .write) (if_neg this)
    · rfl
  rw [hsame]
  exact World.held_release hlock

/-- A leave that comes in on a port. -/
def Br.LeaveInside (c : Br) (conf : Option ConfMode) (w : World) : Mode → Prop
  | .input source => c.igmpType = IGMP_LEAVE_GROUP ∧ QueryInside conf w source c.igmpGroup
  | .forward => False

lemma querierElection_leaveInside (hw' : querierElection conf c w = some w') :
    c.LeaveInside conf w' mode ↔ c.LeaveInside conf w mode := by
  cases mode with
  | forward => rfl
  | input source =>
    simp only [Br.LeaveInside]
    refine and_congr_right fun ht => ?_
    suffices w' = w by rw [this]
    cases conf with
    | none => exact (some.inj hw').symm
    | some m =>
      have hne : c.igmpType ≠ IGMP_MEMBERSHIP_QUERY := by
        rw [ht]
        decide
      simp only [querierElection,hne,decide_false,Bool.and_false,Bool.false_eq_true,if_false] at hw'
      exact (some.inj hw').symm

section Handling
variable (h : w.held H = X) (hk : FreeIn X .hashLock) (hm : FreeIn X .mfdHashLock)
include h hk hm

lemma brMfdInsert_held (source : ℕ) (addr : UInt32) :
    (brMfdInsert c source addr skb w).held H = X := by
  have hlock := World.held_acquire h hm .write
  have hinsert := @mfdInsertPort_held c _ _ _ skb hlock (freeIn_cons (by decide) hk)
  dsimp only [brMfdInsert]
  split
  · exact World.held_release (hinsert _ _)
  · split
    · exact World.held_release (hinsert _ _)
    · exact World.held_release hlock

lemma brSendIgmpQuery_held (m : ConfMode) (group : UInt32) :
    (brSendIgmpQuery m c group w).held H = X :=
  brSendIgmpQuery_held_of m (brDontForwardReport_held h hm group none) hk

lemma querierElection_held (hw' : querierElection conf c w = some w') : w'.held H = X := by
  cases conf with
  | none =>
    cases hw'
    exact h
  | some m =>
    simp only [querierElection] at hw'
    split at hw'
    · obtain ⟨ifa,-,rfl⟩ := map_eq_some_iff.mp hw'
      split
      · split <;> exact h
      · split
        · exact h
        · exact brSendIgmpQuery_held (by exact h) hk hm m 0
      · exact h
    · cases hw'
      exact h

lemma igmpSwitch_held (mode : Mode) (hY : StuckIf (c.LeaveInside conf w mode) X Y) :
    (igmpSwitch conf c skb mode w).held H = Y := by
  by_cases ht : c.igmpType = IGMP_LEAVE_GROUP ∧ mode ≠ .forward
  · cases mode with
    | forward => exact absurd rfl ht.2
    | input source =>
      have h1 : IGMP_LEAVE_GROUP ≠ IGMP_V1_MEMBERSHIP_REPORT := by decide
      have h2 : IGMP_LEAVE_GROUP ≠ IGMP_V2_MEMBERSHIP_REPORT := by decide
      have hY' : StuckIf (QueryInside conf w source c.igmpGroup) X Y :=
        hY.congr (and_iff_right ht.1)
      simp only [igmpSwitch,ht.1,or_true,if_true,brMcLearnAndFlood,h1,h2,if_false]
      refine (World.held_skb _ rfl).trans ?_
      exact brFlood_held (brLeaveReportReceived_held h hm hY') (hY'.freeIn hk) true
  obtain rfl : Y = X := by
    refine hY.2 fun hin => ?_
    cases mode with
    | forward => exact hin
    | input source => exact ht ⟨hin.1,nofun⟩
  dsimp only [igmpSwitch]
  split
  · cases mode with
    | forward => exact brFlood_held h hk false
    | input source =>
      refine (World.held_skb _ rfl).trans ?_
      unfold brMcLearnAndFlood
      split
      · exact brMfdInsert_held h hk hm _ _
      split
      · exact brMfdInsert_held h hk hm _ _
      · rw [if_neg fun htype => ht ⟨htype,nofun⟩]
        exact h
  · split
    · exact brFlood_held (brDontForwardReport_held h hm _ _) hk false
    · exact brFlood_held h hk false

lemma brHandleMc_held (mode : Mode)
    (hY : StuckIf (c.isIp = true ∧ c.isIgmp = true ∧ c.LeaveInside conf w mode) X Y) :
    (brHandleMc conf c skb mode w).2.held H = Y := by
  have huse : (w.emit (.use skb)).held H = X := (w.held_skb rfl).trans h
  have hin : c.LeaveInside conf (w.emit (.use skb)) mode ↔ c.LeaveInside conf w mode := by
    cases mode <;> rfl
  dsimp only [brHandleMc]
  split
  · next hip =>
    split
    · next higmp =>
      rw [and_iff_right hip,and_iff_right higmp,← hin] at hY
      rcases he : querierElection conf c (w.emit (.use skb)) with _ | w'
      · -- A leave is no query, so the election lets it pass.
        rw [hY.2 fun hq => ?_]
        · exact huse
        cases mode with
        | forward => exact hq.elim
        | input source =>
          have hne : c.igmpType ≠ IGMP_MEMBERSHIP_QUERY := by
            rw [hq.1]
            decide
          cases conf <;> simp [querierElection,hne] at he
      · exact igmpSwitch_held (querierElection_held huse hk hm he) hk hm mode
          (hY.congr (querierElection_leaveInside he).symm)
    next higmp =>
    rw [hY.2 fun hq => higmp hq.2.1]
    have hget := World.held_pair huse hm .read
    simp only [brMfdGet]
    split
    · next heq =>
      obtain ⟨-,rfl⟩ := Prod.mk.inj heq
      exact dataPorts_held hget hk _ _
    next heq =>
    obtain ⟨-,rfl⟩ := Prod.mk.inj heq
    split
    · exact brFlood_held hget hk false
    · exact (World.held_skb _ rfl).trans hget
  · next hip =>
    rw [hY.2 fun hq => hip hq.1]
    exact brFlood_held huse hk false

end Handling

section Filters
variable (h : w.held H = X) (hf : FreeIn X .filterLock)
include h hf

lemma brAddFilterEntry_held (o : Outcomes) : (brAddFilterEntry o w).held H = X := by
  have hfirst := World.held_pair h hf .write
  have hsecond := World.held_pair hfirst hf .write
  dsimp only [brAddFilterEntry]
  split
  · exact hfirst
  · split
    · exact hfirst
    · split <;> exact hsecond

lemma delFilterLoop_held (f : FilterInput) (blacklist : List FilterEntry) :
    (delFilterLoop f blacklist w).held H =
      if blacklist.any (deletes f) then X.map ((.filterLock,.write) :: ·) else X := by
  induction blacklist with
  | nil => exact h
  | cons e es ih =>
    cases he : deletes f e with
    | true => simpa [delFilterLoop,he] using World.held_acquire h hf .write
    | false => simpa [delFilterLoop,he] using ih

lemma brFlushFilter_held (blacklist : List FilterEntry) :
    (brFlushFilter blacklist w).held H = X := by
  cases blacklist with
  | nil => exact h
  | cons e es => exact World.held_pair h hf .write

lemma showFilterLoop_held (alloc : ℕ → Bool) (maxnum : ℤ) (blacklist : List FilterEntry)
    (num : ℕ) : (showFilterLoop alloc maxnum blacklist num w).held H = X := by
  induction blacklist generalizing num w with
  | nil => exact h
  | cons e es ih =>
    simp only [showFilterLoop]
    split
    · split
      · exact World.held_pair h hf .write
      · exact ih (World.held_pair h hf .write) _
    · exact h

end Filters

lemma cons_ne_self : some ((l,s) :: H) ≠ some H := by
  intro he
  exact absurd (congrArg length (some.inj he)) (by simp)

lemma brDevXmit_held (h : w.held H = some H) (hl : FreeIn (some H) .lock)
    (hk : FreeIn (some H) .hashLock) (hm : FreeIn (some H) .mfdHashLock) :
    (brDevXmit conf c 0 w).held H = some (if c.group then (.lock,.read) :: H else H) := by
  have hlock : ((w.acquire .lock .read).emit (.use 0)).held H = some ((.lock,.read) :: H) :=
    (World.held_skb _ rfl).trans (World.held_acquire h hl .read)
  have hk' : FreeIn (some ((.lock,.read) :: H)) .hashLock := freeIn_cons (by decide) hk
  have hm' : FreeIn (some ((.lock,.read) :: H)) .mfdHashLock := freeIn_cons (by decide) hm
  cases hgroup : c.group with
  | true =>
    simp only [brDevXmit,hgroup,if_true]
    have hmc : (brHandleMc conf c 0 .forward ((w.acquire .lock .read).emit (.use 0))).2.held H =
        some ((.lock,.read) :: H) :=
      brHandleMc_held hlock hk' hm' .forward ⟨fun hq => hq.2.2.elim,fun _ => rfl⟩
    split
    · split
      · exact (World.held_skb _ rfl).trans hmc
      · exact hmc
    · exact brFlood_held hlock hk' false
  | false =>
    have hget := World.held_pair hlock hk' .read
    simp only [brDevXmit,hgroup,Bool.false_eq_true,if_false]
    refine World.held_release (X := some H) ?_
    cases c.fdb with
    | none => exact brFlood_held hget hk' false
    | some hit => exact brSendFrame_held hget hk' hit.dst

lemma brDelFilterEntry_disciplined_iff (o : Outcomes) (f : FilterInput)
    (blacklist : List FilterEntry) (h : w.held H = some H)
    (hf : FreeIn (some H) .filterLock) :
    Disciplined H (brDelFilterEntry blacklist o f w) ↔
      ¬ (o.inputAlloc = true ∧ o.copyOk = true ∧ ∃ e ∈ blacklist, deletes f e = true) := by
  have hfirst := World.held_pair h hf .write
  have hloop := delFilterLoop_held hfirst hf f blacklist
  simp only [Disciplined,brDelFilterEntry]
  cases hi : o.inputAlloc with
  | false => simpa using hfirst
  | true =>
    cases hc : o.copyOk with
    | false => simpa using hfirst
    | true =>
      by_cases hany : blacklist.any (deletes f) = true
      · rw [if_pos hany] at hloop
        have hex : ∃ e ∈ blacklist, deletes f e = true := any_eq_true.mp hany
        simp only [Bool.not_true,Bool.false_eq_true,if_false,hloop,true_and,hex,
          not_true_eq_false,iff_false]
        exact cons_ne_self
      rw [if_neg hany] at hloop
      have hex : ¬ ∃ e ∈ blacklist, deletes f e = true := fun he =>
        hany (any_eq_true.mpr he)
      simp only [Bool.not_true,Bool.false_eq_true,if_false,hloop,true_and,hex,not_false_eq_true]

/-- Every call, entered with none of the locks it takes, in every state and with every
outcome of its allocations and copies. -/
theorem disciplined_iff (conf : Option ConfMode) (c : Br) (blacklist : List FilterEntry)
    (dev : Dev) (mfd : UInt32 → Option (List PNode)) (isQuerier : Querier) (call : Call)
    (H : List (Lock × Side)) (hfree : ∀ l ∈ call.locks, l ∉ H.map Prod.fst) :
    Disciplined H (call.run conf c blacklist (World.start dev mfd isQuerier)) ↔
      call.Ok conf c blacklist (World.start dev mfd isQuerier) := by
  have h : (World.start dev mfd isQuerier).held H = some H := rfl
  have hin (l : Lock) (hl : l ∈ call.locks := by simp [Call.locks]) : FreeIn (some H) l := by
    rintro _ ⟨rfl⟩
    exact hfree l hl
  have hgood : ∀ {w' : World}, w'.held H = some H → (Disciplined H w' ↔ True) := fun hw' =>
    iff_true_intro hw'
  have hstuck {P Q : Prop} {w' : World} (hw' : ∀ {Y}, StuckIf P (some H) Y → w'.held H = Y)
      (hQ : Q ↔ ¬ P) : Disciplined H w' ↔ Q := by
    by_cases hP : P
    · simp [Disciplined,hQ,hP,hw' ⟨fun _ => rfl,fun hn => absurd hP hn⟩]
    · simp [Disciplined,hQ,hP,hw' ⟨fun hp => absurd hp hP,fun _ => rfl⟩]
  cases call with
  | addFilter o => exact hgood (brAddFilterEntry_held h (hin _) o)
  | delFilter o f => exact brDelFilterEntry_disciplined_iff o f blacklist h (hin _)
  | flushFilter => exact hgood (brFlushFilter_held h (hin _) _)
  | showFilter maxnum alloc => exact hgood (showFilterLoop_held h (hin _) _ _ _ _)
  | devXmit =>
    simp only [Disciplined,Call.run,Call.Ok,brDevXmit_held h (hin _) (hin _) (hin _)]
    cases c.group with
    | true => simp
    | false => simp
  | report source addr => exact hgood (brMfdInsert_held h (hin _) (hin _) _ _)
  | leave p group =>
    exact hstuck (fun hY => brLeaveReportReceived_held h (hin _) hY) Iff.rfl
  | query group excludeIf => exact hgood (brDontForwardReport_held h (hin _) _ _)
  | handleMc mode =>
    refine hstuck (fun hY => brHandleMc_held h (hin _) (hin _) mode hY) ?_
    cases mode with
    | forward => simp [Call.Ok,Br.LeaveInside]
    | input source => rfl
  | membershipTimer p group => exact hgood (brMfdDeletePortFromGroup_held h (hin _) _ _)
  | otherQuerierTimer =>
    cases conf with
    | none => exact hgood h
    | some m => exact hgood (brSendIgmpQuery_held (by exact h) (hin _) (hin _) m 0)
  | generalQueryTimer =>
    cases conf with
    | none => exact hgood h
    | some m => exact hgood (brSendIgmpQuery_held h (hin _) (hin _) m 0)

/-- A leave for a known group under the lock of the bridge, in the build at hand. -/
theorem disciplined_iff_leave :
    Disciplined [(.lock,.read)] ((Call.leave 1 0xe0000105).run none
      { portList := [1,2], state := fun _ => BR_STATE_FORWARDING, brFilterActive := false,
        filterFrame := fun _ => false, mcForwarding := true, fdb := none, data := fun _ => 0,
        cloneFails := fun _ => false, allocEntry := true, allocPort := true } []
      (World.start (.port 1) (fun _ => some [⟨1,false⟩]) .querier)) := by
  refine (disciplined_iff none _ [] (.port 1) _ .querier (.leave 1 0xe0000105) _ ?_).mpr ?_
  · simp [Call.locks]
  · rintro ⟨⟨m,hm,-⟩,-⟩
    cases hm

/-- The bridge sends a broadcast and returns with its lock held. -/
theorem disciplined_fails_devXmit :
    ¬ Disciplined [] (Call.devXmit.run none
      { portList := [1,2], state := fun _ => BR_STATE_FORWARDING, brFilterActive := false,
        filterFrame := fun _ => false, mcForwarding := true, fdb := none, data := fun _ => 0xff,
        cloneFails := fun _ => false, allocEntry := true, allocPort := true } []
      (World.start .bridge (fun _ => none) .notApplicable)) := by
  unfold Disciplined
  decide +kernel

end DslG624t.Bridge.Forward
