import DslG624t.Bridge.MfdMap

/-!
# Ageing timers

Every port node holds its ageing timer, and the handler follows the node to its entry and its
bridge port.
-/

namespace DslG624t.Bridge.Mfd

open Function HashChain HeapList List Option

/-- The multicast database of a bridge with its ports, in the order of `br->port_list`.
`live` says that the bridge itself is allocated. -/
structure Br where
  db : State
  portList : List ℕ
  portLive : ℕ → Bool
  live : Bool

def Br.init (n : ℕ) : Br := ⟨State.init,List.range n,fun p => decide (p < n),true⟩

/-- `__br_del_if` on the device of port `p`. -/
def brDelIf (b : Br) (p : ℕ) : Option Br :=
  if p ∈ b.portList then
    (brMfdDeletePort b.db p).map fun db =>
      { b with
        db
        portList := b.portList.erase p
        portLive := update b.portLive p false }
  else some b

def delIfs (b : Br) : Option Br := b.portList.foldlM brDelIf b

def brDelBridge (b : Br) (up : Bool) : Option Br :=
  if up then some b else (delIfs b).map fun b => { b with live := false }

/-- `br_membership_timer_expired` of the node `pnode`. -/
def brMembershipTimerExpired (b : Br) (pnode : ℕ) : Option Br :=
  let db := b.db
  if db.nodeLive pnode && b.portLive (db.dst pnode) && b.live && db.entLive (db.mfd pnode) then
    (brMfdDeletePortFromGroup db (db.dst pnode) (db.addr (db.mfd pnode))).map fun db =>
      { b with db }
  else none

inductive Ev
  | report (source : ℕ) (addr : UInt32) (type : UInt8) (allocEntry allocPort : Bool)
  | leave (p : ℕ) (group : UInt32)
  | expire (pnode : ℕ)
  | flushV1
  | delIf (p : ℕ)
  | delBridge (up : Bool)
  deriving DecidableEq

/-- Frames come in on a port of the bridge, and a timer that is not pending does not run.
The kernel takes a timer off its list before it calls the handler. -/
def Br.step (b : Br) : Ev → Option Br
  | .report source addr type allocEntry allocPort =>
    if source ∈ b.portList then
      (brMfdInsert b.db source addr type allocEntry allocPort).map fun db => { b with db }
    else some b
  | .leave p group =>
    if p ∈ b.portList then
      (brLeaveReportReceived b.db p group).map fun db => { b with db }
    else some b
  | .expire pnode =>
    if b.db.pending pnode then
      brMembershipTimerExpired
        { b with db := { b.db with pending := update b.db.pending pnode false } } pnode
    else some b
  | .flushV1 => if b.live then (brMfdDeleteV1Ports b.db).map fun db => { b with db } else some b
  | .delIf p => brDelIf b p
  | .delBridge up => if b.live then brDelBridge b up else some b

def Br.run (b : Br) (evs : List Ev) : Option Br := evs.foldlM Br.step b

/-- A pending timer refers to a node, an entry and a port that are allocated. -/
def TimerSafe (b : Br) : Prop :=
  ∀ n, b.db.pending n = true → b.db.nodeLive n = true ∧ b.db.entLive (b.db.mfd n) = true ∧
    b.portLive (b.db.dst n) = true

/-- No member is removed by anything but its own timer: a flush finds no version 1 member,
and a port that leaves the bridge is in no group. -/
def Ev.CalmOn (b : Br) (rows : List Row) : Ev → Prop
  | .flushV1 => b.live = true → ∀ r ∈ rows, ∀ x ∈ r.ports, x.2 = false
  | .delIf p => p ∈ b.portList → ∀ r ∈ rows, ∀ x ∈ r.ports, x.1 ≠ p
  | .delBridge up => b.live = true → up = false → ∀ r ∈ rows, r.ports = []
  | _ => True

def Ev.Calm (b : Br) (ev : Ev) : Prop := ∀ rows, b.db.table = some rows → ev.CalmOn b rows

def RunCalm : Br → List Ev → Prop
  | _, [] => True
  | b, ev :: evs => ev.Calm b ∧ ∀ b', b.step ev = some b' → RunCalm b' evs

variable {s s' : State} {b : Br} {gs : List Group} {f n p fuel : ℕ} {pn prev : Option ℕ}
  {r : State × Option ℕ} {g : Group} {db : ℕ → List Group} {rows : List Row}

lemma sweep_same {σ : Type} (step : σ → Group → Option (Option Group × σ)) (gs : List Group)
    (st : σ) (h : ∀ g ∈ gs, ∀ st, ∃ st', step st g = some (some g,st')) :
    ∃ st', sweep step st gs = some (gs,st') := by
  induction gs generalizing st with
  | nil => exact ⟨st,rfl⟩
  | cons g gs ih =>
    obtain ⟨hg,hgs⟩ := forall_mem_cons.mp h
    obtain ⟨st1,hstep⟩ := hg st
    obtain ⟨st2,hrest⟩ := ih st1 hgs
    exact ⟨st2,by simp [sweep,hstep,hrest]⟩

lemma dropStep_absent (h : ∀ m ∈ g.members, m.dst ≠ p) (st : Prev) :
    ∃ st', dropStep p st g = some (some g,st') := by
  rcases hm : g.members with _ | ⟨m,ms⟩
  · exact ⟨st,by simp [dropStep,hm]⟩
  rw [hm] at h
  obtain ⟨hp,hms⟩ := forall_mem_cons.mp h
  have hdrop : ms.dropWhile (fun x => decide (x.dst ≠ p)) = [] :=
    dropWhile_eq_nil_iff.mpr (by simpa using hms)
  exact ⟨.last,by simp only [dropStep,hm,hp,if_false,hdrop]⟩

lemma v1Step_none (h : ∀ m ∈ g.members, m.vinfo = false) (st : Prev) :
    ∃ st', v1Step st g = some (some g,st') := by
  rcases hm : g.members with _ | ⟨m,ms⟩
  · exact ⟨st,by simp [v1Step,hm]⟩
  rw [hm] at h
  have hfilter : (m :: ms).filter (!·.vinfo) = m :: ms :=
    filter_eq_self.mpr (by simpa using h)
  have hv : m.vinfo = false := h m (by simp)
  have hg : ({ g with members := m :: ms } : Group) = g := by rw [← hm]
  refine ⟨.last,?_⟩
  simp only [v1Step,hm,hfilter,hv,Bool.false_eq_true,false_and,if_false,hg]

lemma Rep.setPending (h : Rep s db) (pending : ℕ → Bool) :
    Rep { s with pending } db where
  chained := h.chained
  holds i g hg := (h.holds i g hg).congr rfl rfl rfl rfl (fun _ _ => rfl) fun m hm =>
    ((h.holds i g hg).node m hm).congr rfl rfl rfl rfl
  hash := h.hash
  nodeFresh := h.nodeFresh
  entFresh := h.entFresh

def PendingIn (N : Set ℕ) (s : State) (_ : Option ℕ) (_ : Unit) (todo : List Group) : Prop :=
  (∀ n, s.pending n = true → n ∈ N) ∧ ∀ g ∈ todo, ∀ m ∈ g.members, m.ptr ∈ N

lemma leaveVisit_sim (N : Set ℕ) (p : ℕ) (group : UInt32) :
    Simulates (leaveVisit p group) (fun st g => some (some g,st)) (PendingIn N) := by
  intro s db i pre g post more prev st og st' h hdb hn hgood hstep
  obtain ⟨rfl,rfl⟩ : some g = og ∧ st = st' := by simpa using hstep
  obtain ⟨hpending,htodo⟩ := hgood
  have hsweep : sweep (fun (st : Unit) g => some (some g,st)) () post = some (post,()) := by
    obtain ⟨st',hst'⟩ := sweep_same _ post () fun g _ st => ⟨st,rfl⟩
    exact hst'
  have hg := h.holds i g (by simp [hdb])
  have hrep : Rep s (update db i (pre ++ (some g).toList ++ post)) := h.same hdb
  have htodo' : ∀ x ∈ post ++ more, ∀ m ∈ x.members, m.ptr ∈ N := fun x hx =>
    htodo x (mem_cons_of_mem _ hx)
  have hmore : ∀ x ∈ more, ∀ m ∈ x.members, m.ptr ∈ N := fun x hx =>
    htodo' x (mem_append_right _ hx)
  by_cases ha : g.addr = group
  · have hfind := findPort_eq p hg.list hg.node (h.members_length hg)
    rcases hm : g.members.find? (·.dst = p) with _ | m
    · rw [hm] at hfind
      exact ⟨s,prev,true,by simp [leaveVisit,hg.addr,ha,hfind],hrep,
        ⟨hpending,htodo'⟩,fun _ => ⟨hsweep,hpending,hmore⟩⟩
    rw [hm] at hfind
    have hmem : m ∈ g.members := mem_of_find?_eq_some hm
    have hpending' : ∀ n, update s.pending m.ptr true n = true → n ∈ N := by
      intro n hn
      by_cases he : n = m.ptr
      · rw [he]
        exact htodo g (by simp) m hmem
      · rw [update_of_ne he] at hn
        exact hpending n hn
    refine ⟨_,prev,true,by simp [leaveVisit,hg.addr,ha,hfind]; rfl,?_,
      ⟨hpending',htodo'⟩,fun _ => ⟨hsweep,hpending',hmore⟩⟩
    exact hrep.setPending _
  · exact ⟨s,prev,false,by simp [leaveVisit,hg.addr,ha],hrep,⟨hpending,htodo'⟩,
      by simp⟩

/-- Every pending timer is that of a member, and every member is a port of the bridge. -/
structure Tracked (gs : List Group) (pending : ℕ → Bool) (portList : List ℕ) : Prop where
  addrs : (gs.map Group.addr).Nodup
  ports : ∀ g ∈ gs, (g.members.map Member.dst).Nodup
  member : ∀ n, pending n = true → ∃ g ∈ gs, ∃ m ∈ g.members, m.ptr = n
  dst : ∀ g ∈ gs, ∀ m ∈ g.members, m.dst ∈ portList

structure TimerInv (b : Br) : Prop where
  tracked : ∃ db, Rep b.db db ∧ Tracked (flat db) b.db.pending b.portList
  portLive : ∀ p ∈ b.portList, b.portLive p = true
  nodup : b.portList.Nodup
  live : b.portList ≠ [] → b.live = true

lemma timerInv_init (n : ℕ) : TimerInv (Br.init n) where
  tracked := ⟨_,rep_init,by
    rw [flat_nil]
    exact ⟨by simp,by simp,by simp [Br.init,State.init],by simp⟩⟩
  portLive p hp := by simpa [Br.init] using hp
  nodup := nodup_range
  live _ := rfl

lemma TimerInv.timerSafe (h : TimerInv b) : TimerSafe b := by
  obtain ⟨db,hrep,htracked⟩ := h.tracked
  intro n hn
  obtain ⟨g,hg,m,hm,rfl⟩ := htracked.member n hn
  obtain ⟨i,-,hgi⟩ := mem_flatMap.mp hg
  have hholds := hrep.holds i g hgi
  have hnode := hholds.node m hm
  refine ⟨hnode.live,?_,?_⟩
  · rw [hnode.mfd]
    exact hholds.live
  · rw [hnode.dst]
    exact h.portLive _ (htracked.dst g hg m hm)

lemma TimerInv.setDb (h : TimerInv b) (hrep : Rep s db)
    (htracked : Tracked (flat db) s.pending b.portList) : TimerInv { b with db := s } :=
  ⟨⟨db,hrep,htracked⟩,h.portLive,h.nodup,h.live⟩

lemma Tracked.put {A old C : List Group} {pending pending' : ℕ → Bool} {portList : List ℕ}
    (h : Tracked (A ++ old ++ C) pending portList) (haddrs : ((A ++ g :: C).map Group.addr).Nodup)
    (hports : (g.members.map Member.dst).Nodup) (hdst : ∀ m ∈ g.members, m.dst ∈ portList)
    (hold : ∀ x ∈ old, ∀ m ∈ x.members, ∃ m' ∈ g.members, m'.ptr = m.ptr)
    (hpending : ∀ n, pending' n = true → pending n = true ∨ ∃ m ∈ g.members, m.ptr = n) :
    Tracked (A ++ g :: C) pending' portList := by
  have hcases : ∀ x ∈ A ++ g :: C, x = g ∨ x ∈ A ++ old ++ C := by
    intro x hx
    simp only [mem_append,mem_cons] at hx ⊢
    tauto
  refine ⟨haddrs,fun x hx => ?_,fun n hn => ?_,fun x hx => ?_⟩
  · obtain rfl | hx := hcases x hx
    · exact hports
    · exact h.ports x hx
  · obtain hn | ⟨m,hm,rfl⟩ := hpending n hn
    · obtain ⟨x,hx,m,hm,rfl⟩ := h.member n hn
      by_cases hxold : x ∈ old
      · obtain ⟨m',hm',he⟩ := hold x hxold m hm
        exact ⟨g,by simp,m',hm',he⟩
      · have hx' : x ∈ A ++ g :: C := by
          simp only [mem_append,mem_cons] at hx ⊢
          tauto
        exact ⟨x,hx',m,hm,rfl⟩
    · exact ⟨g,by simp,m,hm,rfl⟩
  · obtain rfl | hx := hcases x hx
    · exact hdst
    · exact h.dst x hx

section

variable {ms : List Member} {ptr source : ℕ} {type : UInt8} {alloc : Bool} {portList : List ℕ}

lemma reported_dst (hms : ∀ m ∈ ms, m.dst ∈ portList) (hsource : source ∈ portList) :
    ∀ m ∈ reported ms ptr source type alloc, m.dst ∈ portList := by
  intro m hm
  unfold reported at hm
  split at hm
  · obtain ⟨x,hx,rfl⟩ := mem_map.mp hm
    by_cases he : x.dst = source <;> simp [he,Member.renewed,hsource,hms x hx]
  split at hm
  · obtain rfl | hm := mem_cons.mp hm
    · exact hsource
    · exact hms m hm
  · exact hms m hm

lemma exists_reported_ptr {m : Member} (hm : m ∈ ms) :
    ∃ m' ∈ reported ms ptr source type alloc, m'.ptr = m.ptr := by
  unfold reported
  split
  · refine ⟨_,mem_map_of_mem hm,?_⟩
    by_cases he : m.dst = source <;> simp [he,Member.renewed]
  · split
    · exact ⟨m,mem_cons_of_mem _ hm,rfl⟩
    · exact ⟨m,hm,rfl⟩

end

lemma TimerInv.report (h : TimerInv b) {source : ℕ} (hsource : source ∈ b.portList)
    (addr : UInt32) (type : UInt8) (allocEntry allocPort : Bool) :
    ∃ s, brMfdInsert b.db source addr type allocEntry allocPort = some s ∧
      TimerInv { b with db := s } := by
  obtain ⟨db,hrep,ht⟩ := h.tracked
  obtain ⟨s,db',hinsert,hrep',hcases⟩ :=
    brMfdInsert_flat source addr type hrep ht.addrs ht.ports allocEntry allocPort
  refine ⟨s,hinsert,h.setDb hrep' ?_⟩
  obtain ⟨A,g,C,hflat,-,hflat',hpending⟩ | ⟨hnew,hcases⟩ := hcases
  · rw [hflat] at ht
    rw [hflat']
    have hold : Tracked (A ++ [g] ++ C) b.db.pending b.portList := by simpa using ht
    refine hold.put (by simpa using ht.addrs) (reported_nodup (ht.ports g (by simp)) _)
      (reported_dst (ht.dst g (by simp)) hsource) (fun x hx m hm => ?_) hpending
    obtain rfl := mem_singleton.mp hx
    exact exists_reported_ptr hm
  obtain ⟨A,C,hflat,hflat',-,hpending⟩ | ⟨-,rfl,hflat'⟩ := hcases
  · rw [hflat] at ht hnew
    rw [hflat']
    have hold : Tracked (A ++ [] ++ C) b.db.pending b.portList := by simpa using ht
    have hnodup : (([] : List Member).map Member.dst).Nodup := nodup_nil
    refine hold.put ?_ (reported_nodup hnodup _) (reported_dst (forall_mem_nil _) hsource)
      (forall_mem_nil _) hpending
    have haddrs := ht.addrs
    simp only [map_append,map_cons] at haddrs ⊢
    refine nodup_middle.mpr (nodup_cons.mpr ⟨fun hmem => ?_,haddrs⟩)
    rw [← map_append] at hmem
    obtain ⟨x,hx,he⟩ := mem_map.mp hmem
    exact hnew x hx he
  · rw [hflat']
    exact ht

lemma TimerInv.leave (h : TimerInv b) (p : ℕ) (group : UInt32) :
    ∃ s, brLeaveReportReceived b.db p group = some s ∧ TimerInv { b with db := s } := by
  obtain ⟨db,hrep,ht⟩ := h.tracked
  let N : Set ℕ := { n | ∃ g ∈ flat db, ∃ m ∈ g.members, m.ptr = n }
  have hgood : PendingIn N b.db none () (flat db) :=
    ⟨ht.member,fun g hg m hm => ⟨g,hg,m,hm,rfl⟩⟩
  obtain ⟨st',hsweep⟩ :=
    sweep_same (fun (st : Unit) g => some (some g,st)) (flat db) () fun g _ st => ⟨st,rfl⟩
  obtain ⟨s,db',hwalk,hrep',hflat,prev',hpending,-⟩ :=
    overTable_sim (leaveVisit_sim N p group) hrep hgood hsweep
  refine ⟨s,hwalk,h.setDb hrep' ?_⟩
  rw [hflat]
  exact ⟨ht.addrs,ht.ports,hpending,ht.dst⟩

lemma Tracked.expire {pending : ℕ → Bool} {portList : List ℕ} {m : Member}
    (h : Tracked gs pending portList) (hg : g ∈ gs) (hm : m ∈ g.members) :
    Tracked (gs.filterMap (restrict fun a q _ => decide (a ≠ g.addr ∨ q ≠ m.dst)))
      (update pending m.ptr false) portList := by
  refine ⟨?_,fun x hx => ?_,fun n hn => ?_,fun x hx y hy => ?_⟩
  · refine h.addrs.sublist (filterMap_addr_sublist (fun x x' hx => ?_) gs)
    rw [(restrict_eq_some.mp hx).1]
  · obtain ⟨x0,hx0,hx⟩ := mem_filterMap.mp hx
    rw [(restrict_eq_some.mp hx).1]
    exact (h.ports x0 hx0).sublist (filter_sublist.map _)
  · have hne : n ≠ m.ptr := by
      rintro rfl
      simp at hn
    rw [update_of_ne hne] at hn
    obtain ⟨x,hx,y,hy,rfl⟩ := h.member n hn
    have hother : x.addr ≠ g.addr ∨ y.dst ≠ m.dst := by
      by_contra hsame
      rw [not_or,not_not,not_not] at hsame
      obtain rfl : x = g := inj_on_of_nodup_map h.addrs hx hg hsame.1
      exact hne (congrArg Member.ptr (inj_on_of_nodup_map (h.ports x hx) hy hm hsame.2))
    have hmem : y ∈ x.members.filter fun y => decide (x.addr ≠ g.addr ∨ y.dst ≠ m.dst) :=
      mem_filter.mpr ⟨hy,by simpa using hother⟩
    exact ⟨_,mem_filterMap.mpr ⟨x,hx,restrict_eq_some.mpr ⟨rfl,fun _ => ne_nil_of_mem hmem⟩⟩,
      y,hmem,rfl⟩
  · obtain ⟨x0,hx0,hx⟩ := mem_filterMap.mp hx
    rw [(restrict_eq_some.mp hx).1] at hy
    exact h.dst x0 hx0 y (mem_filter.mp hy).1

lemma TimerInv.expire (h : TimerInv b) (hn : b.db.pending n = true) :
    ∃ b', b.step (.expire n) = some b' ∧ TimerInv b' := by
  obtain ⟨hnode,hent,hport⟩ := h.timerSafe n hn
  obtain ⟨db,hrep,ht⟩ := h.tracked
  obtain ⟨g,hg,m,hm,rfl⟩ := ht.member n hn
  obtain ⟨i,-,hgi⟩ := mem_flatMap.mp hg
  have hholds := hrep.holds i g hgi
  have hm' := hholds.node m hm
  have hlive : b.live = true := h.live (ne_nil_of_mem (ht.dst g hg m hm))
  obtain ⟨st',hsweep⟩ := sweep_dropGroupStep m.dst g.addr ht.addrs ht.ports
  obtain ⟨s,db',hdel,hrep',hflat,hpending⟩ := brMfdDeletePortFromGroup_sim m.dst g.addr
    (hrep.setPending (update b.db.pending m.ptr false)) ht.addrs hsweep
  refine ⟨{ b with db := s },?_,h.setDb hrep' ?_⟩
  · rw [hm'.mfd] at hent
    rw [hm'.dst] at hport
    simp [Br.step,hn,brMembershipTimerExpired,hnode,hm'.dst,hm'.mfd,hport,hlive,hent,
      hholds.addr,hdel]
  · rw [hflat,hpending]
    exact ht.expire hg hm

lemma TimerInv.flushV1 (h : TimerInv b)
    (hcalm : ∀ rows, b.db.table = some rows → ∀ r ∈ rows, ∀ x ∈ r.ports, x.2 = false) :
    ∃ s, brMfdDeleteV1Ports b.db = some s ∧ TimerInv { b with db := s } := by
  obtain ⟨db,hrep,ht⟩ := h.tracked
  obtain ⟨st',hsweep⟩ := sweep_same v1Step (flat db) .null fun g hg =>
    v1Step_none fun m hm => hcalm _ hrep.table_eq g.row (mem_map_of_mem hg)
      (m.dst,m.vinfo) (mem_map_of_mem hm)
  obtain ⟨s,db',hdel,hrep',hflat,hpending⟩ := brMfdDeleteV1Ports_sim hrep hsweep
  refine ⟨s,hdel,h.setDb hrep' ?_⟩
  rw [hflat,hpending]
  exact ht

lemma TimerInv.delIf (h : TimerInv b) (hrows : b.db.table = some rows)
    (hcalm : p ∈ b.portList → ∀ r ∈ rows, ∀ x ∈ r.ports, x.1 ≠ p) :
    ∃ b', brDelIf b p = some b' ∧ TimerInv b' ∧ b'.db.table = some rows ∧
      b'.portList = b.portList.erase p := by
  by_cases hp : p ∈ b.portList
  · obtain ⟨db,hrep,ht⟩ := h.tracked
    obtain rfl : (flat db).map Group.row = rows := by
      rw [hrep.table_eq] at hrows
      exact some.inj hrows
    have hnot : ∀ g ∈ flat db, ∀ m ∈ g.members, m.dst ≠ p := fun g hg m hm =>
      hcalm hp g.row (mem_map_of_mem hg) (m.dst,m.vinfo) (mem_map_of_mem hm)
    obtain ⟨st',hsweep⟩ := sweep_same (dropStep p) (flat db) .null fun g hg =>
      dropStep_absent (hnot g hg)
    obtain ⟨s,db',hdel,hrep',hflat,hpending⟩ := brMfdDeletePort_sim p hrep hsweep
    refine ⟨_,by simp [brDelIf,hp,hdel]; rfl,⟨⟨db',hrep',?_⟩,fun q hq => ?_,?_,?_⟩,?_,rfl⟩
    · rw [hflat,hpending]
      refine ⟨ht.addrs,ht.ports,ht.member,fun g hg m hm => ?_⟩
      exact (mem_erase_of_ne (hnot g hg m hm)).mpr (ht.dst g hg m hm)
    · obtain ⟨hne,hq⟩ := h.nodup.mem_erase_iff.mp hq
      exact (update_of_ne hne _ _).trans (h.portLive q hq)
    · exact h.nodup.erase p
    · exact fun _ => h.live (ne_nil_of_mem hp)
    · rw [hrep'.table_eq,hflat]
  · exact ⟨b,by simp [brDelIf,hp],h,hrows,(erase_of_not_mem hp).symm⟩

lemma TimerInv.delIfs (h : TimerInv b) (ps : List ℕ) (hrows : b.db.table = some rows)
    (hcalm : ∀ r ∈ rows, r.ports = []) :
    ∃ b', ps.foldlM brDelIf b = some b' ∧ TimerInv b' ∧ b'.portList = b.portList.diff ps := by
  induction ps generalizing b with
  | nil => exact ⟨b,rfl,h,rfl⟩
  | cons p ps ih =>
    obtain ⟨b1,hdel,h1,hrows1,hlist⟩ := h.delIf (p := p) hrows fun _ r hr => by
      rw [hcalm r hr]
      exact forall_mem_nil _
    obtain ⟨b2,hfold,h2,hlist2⟩ := ih h1 hrows1
    refine ⟨b2,?_,h2,?_⟩
    · rw [foldlM_cons,hdel]
      exact hfold
    · rw [hlist2,hlist,diff_cons]

lemma TimerInv.delBridge (h : TimerInv b) (up : Bool)
    (hcalm : up = false → ∀ rows, b.db.table = some rows → ∀ r ∈ rows, r.ports = []) :
    ∃ b', brDelBridge b up = some b' ∧ TimerInv b' := by
  cases up with
  | true => exact ⟨b,rfl,h⟩
  | false =>
    obtain ⟨db,hrep,-⟩ := h.tracked
    obtain ⟨b',hfold,h',hlist⟩ := h.delIfs b.portList hrep.table_eq
      (hcalm rfl _ hrep.table_eq)
    have hnil : b'.portList = [] := by
      rw [hlist,List.Nodup.sdiff_eq_filter h.nodup]
      simp
    have hdel : brDelBridge b false = some { b' with live := false } := by
      rw [brDelBridge,Mfd.delIfs,hfold]
      rfl
    exact ⟨_,hdel,h'.tracked,h'.portLive,h'.nodup,fun hne => absurd hnil hne⟩

lemma TimerInv.step (h : TimerInv b) {ev : Ev} (hcalm : ev.Calm b) :
    ∃ b', b.step ev = some b' ∧ TimerInv b' := by
  cases ev with
  | report source addr type allocEntry allocPort =>
    by_cases hsource : source ∈ b.portList
    · obtain ⟨s,hs,h'⟩ := h.report hsource addr type allocEntry allocPort
      exact ⟨_,by simp [Br.step,hsource,hs],h'⟩
    · exact ⟨b,by simp [Br.step,hsource],h⟩
  | leave p group =>
    by_cases hp : p ∈ b.portList
    · obtain ⟨s,hs,h'⟩ := h.leave p group
      exact ⟨_,by simp [Br.step,hp,hs],h'⟩
    · exact ⟨b,by simp [Br.step,hp],h⟩
  | expire pnode =>
    by_cases hpending : b.db.pending pnode = true
    · exact h.expire hpending
    · exact ⟨b,by simp [Br.step,hpending],h⟩
  | flushV1 =>
    by_cases hlive : b.live = true
    · obtain ⟨s,hs,h'⟩ := h.flushV1 fun rows hrows => hcalm rows hrows hlive
      exact ⟨_,by simp [Br.step,hlive,hs],h'⟩
    · exact ⟨b,by simp [Br.step,hlive],h⟩
  | delIf p =>
    obtain ⟨db,hrep,-⟩ := h.tracked
    obtain ⟨b',hdel,h',-⟩ := h.delIf hrep.table_eq (hcalm _ hrep.table_eq)
    exact ⟨b',hdel,h'⟩
  | delBridge up =>
    by_cases hlive : b.live = true
    · obtain ⟨b',hdel,h'⟩ := h.delBridge up fun hup rows hrows => hcalm rows hrows hlive hup
      exact ⟨b',by simp [Br.step,hlive,hdel],h'⟩
    · exact ⟨b,by simp [Br.step,hlive],h⟩

/-- In every run in which nothing but its timer removes a member, each call returns, the
pending timers refer to allocated memory, and whichever of them runs out next, its
handler returns. -/
theorem run_timerSafe (n : ℕ) (evs : List Ev) (hcalm : RunCalm (Br.init n) evs) :
    ∃ b, (Br.init n).run evs = some b ∧ TimerSafe b ∧
      ∀ pnode, b.db.pending pnode = true → ∃ b', b.step (.expire pnode) = some b' := by
  suffices h : ∀ b, TimerInv b → RunCalm b evs → ∃ b', b.run evs = some b' ∧ TimerInv b' by
    obtain ⟨b,hrun,hinv⟩ := h _ (timerInv_init n) hcalm
    refine ⟨b,hrun,hinv.timerSafe,fun pnode hp => ?_⟩
    obtain ⟨b',hstep,-⟩ := hinv.expire hp
    exact ⟨b',hstep⟩
  clear hcalm
  induction evs with
  | nil => exact fun b h _ => ⟨b,rfl,h⟩
  | cons ev evs ih =>
    rintro b h ⟨hev,hrest⟩
    obtain ⟨b₁,hstep,h₁⟩ := h.step hev
    obtain ⟨b',hrun,h'⟩ := ih b₁ h₁ (hrest b₁ hstep)
    exact ⟨b',by simpa [Br.run,hstep] using hrun,h'⟩

/-- Port 1 leaves while port 0 is the only member; later the timer of port 0 runs out. -/
theorem run_timerSafe_other_port :
    RunCalm (Br.init 2) [.report 0 0xe0000105 0x16 true true,.delIf 1,.expire 0] ∧
    ∃ b, (Br.init 2).run [.report 0 0xe0000105 0x16 true true,.delIf 1,.expire 0] = some b ∧
      TimerSafe b ∧
      ∀ pnode, b.db.pending pnode = true → ∃ b', b.step (.expire pnode) = some b' := by
  have htable : (((Br.init 2).step (.report 0 0xe0000105 0x16 true true)).bind fun b =>
      b.db.table) = some [⟨0xe0000105,1,[(0,false)]⟩] := by decide +kernel
  have hcalm : RunCalm (Br.init 2)
      [.report 0 0xe0000105 0x16 true true,.delIf 1,.expire 0] := by
    refine ⟨fun _ _ => trivial,fun b hb => ⟨fun rows hrows => ?_,fun _ _ =>
      ⟨fun _ _ => trivial,fun _ _ => trivial⟩⟩⟩
    rw [hb,bind_some,hrows] at htable
    cases htable
    intro _
    simp
  exact ⟨hcalm,run_timerSafe 2 _ hcalm⟩

/-- The only member of a group leaves the bridge. Its node is freed with the timer still
on the list. -/
theorem run_timerSafe_fails_delIf :
    ¬ ∃ b, (Br.init 1).run [.report 0 0xe0000105 0x16 true true,.delIf 0] = some b ∧
      TimerSafe b := by
  rintro ⟨b,hrun,hsafe⟩
  have hstate : (((Br.init 1).run [.report 0 0xe0000105 0x16 true true,.delIf 0]).map fun b =>
      (b.db.pending 0,b.db.nodeLive 0)) = some (true,false) := by decide +kernel
  rw [hrun,map_some,some.injEq,Prod.mk.injEq] at hstate
  have := (hsafe 0 hstate.1).1
  rw [hstate.2] at this
  exact absurd this (by decide)

end DslG624t.Bridge.Mfd
