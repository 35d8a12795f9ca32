import DslG624t.Bridge.MfdInsert
import DslG624t.Bridge.MfdLoops

/-!
# The multicast database as a map

A database stands for a map from group addresses to the ports that are members, each with its
version bit.
-/

namespace DslG624t.Bridge.Mfd

open Function List

abbrev Members := UInt32 → ℕ → Option Bool

/-- `br_mfd_insert`, `br_mfd_delete_port_from_group`, `br_mfd_delete_port` and
`br_mfd_delete_v1_ports`. -/
inductive Op
  | report (source : ℕ) (addr : UInt32) (type : UInt8) (allocEntry allocPort : Bool)
  | expire (p : ℕ) (group : UInt32)
  | deletePort (p : ℕ)
  | flushV1
  deriving DecidableEq

def Op.apply (s : State) : Op → Option State
  | .report source addr type allocEntry allocPort =>
    brMfdInsert s source addr type allocEntry allocPort
  | .expire p group => brMfdDeletePortFromGroup s p group
  | .deletePort p => brMfdDeletePort s p
  | .flushV1 => brMfdDeleteV1Ports s

def run (s : State) (ops : List Op) : Option State := ops.foldlM Op.apply s

open Classical in
/-- A port joins when there is memory for its node and the group is known or there is
memory for an entry. -/
noncomputable def Op.abstract (m : Members) : Op → Members
  | .report source addr type allocEntry allocPort =>
    let v1 := type == IGMP_V1_MEMBERSHIP_REPORT
    match m addr source with
    | some v => update m addr (update (m addr) source (some (v || v1)))
    | none =>
      if allocPort = true ∧ (allocEntry = true ∨ ∃ p, m addr p ≠ none) then
        update m addr (update (m addr) source (some v1))
      else m
  | .expire p group => fun a q => if a = group ∧ q = p then none else m a q
  | .deletePort p => fun a q => if q = p then none else m a q
  | .flushV1 => fun a q => if m a q = some true then none else m a q

/-- Each group once, each port once in its group, counters right and positive, and the
members those of the map. -/
structure RowsRefine (rows : List Row) (m : Members) : Prop where
  addrs : (rows.map Row.addr).Nodup
  ports : ∀ r ∈ rows, (r.ports.map Prod.fst).Nodup
  count : ∀ r ∈ rows, r.portCount = r.ports.length ∧ 0 < r.portCount
  mem : ∀ a p v, m a p = some v ↔ ∃ r ∈ rows, r.addr = a ∧ (p,v) ∈ r.ports

def Refines (s : State) (m : Members) : Prop := ∃ rows, s.table = some rows ∧ RowsRefine rows m

def Row.StartsWith (r : Row) (p : ℕ) : Prop := r.ports.head?.map Prod.fst = some p

/-- Where a group starts with `p` after one that does not, `p` is its only port, and the
nearest earlier group with another first port has nothing behind `p`. -/
def DeletePortSafe (p : ℕ) (rows : List Row) : Prop :=
  ∀ pre r mid r' post, rows = pre ++ r :: (mid ++ r' :: post) → ¬ r.StartsWith p →
    (∀ x ∈ mid, x.StartsWith p) → r'.StartsWith p →
    r'.ports.length = 1 ∧ ∀ a v b, r.ports = a ++ (p,v) :: b → b = []

def Row.Keeps (r : Row) : Prop := ∃ x ∈ r.ports, x.2 = false

def FlushSafe (rows : List Row) : Prop :=
  rows.Pairwise fun r r' => r.Keeps → r'.Keeps → r'.ports.head?.map Prod.snd ≠ some true

def ReportSafe (addr : UInt32) (allocEntry allocPort : Bool) (rows : List Row) : Prop :=
  (∀ r ∈ rows, r.addr ≠ addr) → allocEntry = true → allocPort = true

def Op.SafeOn (rows : List Row) : Op → Prop
  | .report _ addr _ allocEntry allocPort => ReportSafe addr allocEntry allocPort rows
  | .expire _ _ => True
  | .deletePort p => DeletePortSafe p rows
  | .flushV1 => FlushSafe rows

def Op.Safe (s : State) (op : Op) : Prop := ∀ rows, s.table = some rows → op.SafeOn rows

/-- Every step of the run is safe in the state it is taken in. -/
def RunSafe : State → List Op → Prop
  | _, [] => True
  | s, op :: ops => op.Safe s ∧ ∀ s', op.apply s = some s' → RunSafe s' ops

def Has (ms : List Member) (p : ℕ) (v : Bool) : Prop := ∃ x ∈ ms, x.dst = p ∧ x.vinfo = v

structure Sound (gs : List Group) (m : Members) : Prop where
  addrs : (gs.map Group.addr).Nodup
  ports : ∀ g ∈ gs, (g.members.map Member.dst).Nodup
  nonempty : ∀ g ∈ gs, g.members ≠ []
  mem : ∀ a p v, m a p = some v ↔ ∃ g ∈ gs, g.addr = a ∧ Has g.members p v

variable {gs A C : List Group} {m : Members} {g : Group} {s : State} {addr : UInt32}
  {P : UInt32 → ℕ → Bool → Bool} {p : ℕ} {st st' : Prev} {og : Option Group}

lemma Sound.rowsRefine (h : Sound gs m) : RowsRefine (gs.map Group.row) m where
  addrs := by
    rw [map_map]
    exact h.addrs
  ports r hr := by
    obtain ⟨g,hg,rfl⟩ := mem_map.mp hr
    simpa [Group.row,comp_def] using h.ports g hg
  count r hr := by
    obtain ⟨g,hg,rfl⟩ := mem_map.mp hr
    have := length_pos_of_ne_nil (h.nonempty g hg)
    simp only [Group.row,length_map]
    exact ⟨trivial,by omega⟩
  mem a p v := by
    rw [h.mem]
    simp [Group.row,Has]

lemma sound_nil : Sound [] fun _ _ => none where
  addrs := by simp
  ports := by simp
  nonempty := by simp
  mem := by simp

lemma Sound.mem_addr (h : Sound (A ++ g :: C) m) (p : ℕ) (v : Bool) :
    m g.addr p = some v ↔ Has g.members p v := by
  rw [h.mem]
  constructor
  · rintro ⟨x,hx,ha,hhas⟩
    rwa [inj_on_of_nodup_map h.addrs hx (by simp) ha] at hhas
  · exact fun hhas => ⟨g,by simp,rfl,hhas⟩

lemma Sound.addr_ne (h : Sound (A ++ g :: C) m) {x : Group} (hx : x ∈ A ++ C) :
    x.addr ≠ g.addr := by
  intro he
  have hnd := h.addrs
  rw [map_append,map_cons] at hnd
  refine (nodup_middle.mp hnd).notMem ?_
  rw [← map_append,← he]
  exact mem_map_of_mem hx

lemma exists_group_iff_of_ne {a : UInt32} (ha : a ≠ g.addr) (p : ℕ) (v : Bool) :
    (∃ x ∈ A ++ g :: C, x.addr = a ∧ Has x.members p v) ↔
      ∃ x ∈ A ++ C, x.addr = a ∧ Has x.members p v := by
  simp only [mem_append,mem_cons]
  constructor
  · rintro ⟨x,hx | rfl | hx,hxa,hhas⟩
    · exact ⟨x,.inl hx,hxa,hhas⟩
    · exact absurd hxa.symm ha
    · exact ⟨x,.inr hx,hxa,hhas⟩
  · rintro ⟨x,hx | hx,hxa,hhas⟩
    · exact ⟨x,.inl hx,hxa,hhas⟩
    · exact ⟨x,.inr (.inr hx),hxa,hhas⟩

lemma Sound.erase (h : Sound (A ++ g :: C) m) : Sound (A ++ C) (update m g.addr fun _ => none) := by
  have hsub : (A ++ C).Sublist (A ++ g :: C) := (sublist_cons_self g C).append_left A
  refine ⟨h.addrs.sublist (hsub.map _),fun x hx => h.ports x (hsub.subset hx),
    fun x hx => h.nonempty x (hsub.subset hx),fun a p v => ?_⟩
  by_cases ha : a = g.addr
  · subst ha
    rw [update_self]
    constructor
    · rintro ⟨⟩
    · rintro ⟨x,hx,hxa,-⟩
      exact absurd hxa (h.addr_ne hx)
  · rw [update_of_ne ha,h.mem,exists_group_iff_of_ne ha]

lemma Sound.insert (h : Sound (A ++ C) m) (hnew : ∀ x ∈ A ++ C, x.addr ≠ g.addr)
    {f : ℕ → Option Bool} (hports : (g.members.map Member.dst).Nodup) (hne : g.members ≠ [])
    (hf : ∀ p v, f p = some v ↔ Has g.members p v) :
    Sound (A ++ g :: C) (update m g.addr f) := by
  have hmem : ∀ x, x ∈ A ++ g :: C ↔ x = g ∨ x ∈ A ++ C := fun x => perm_middle.mem_iff.trans
    mem_cons
  refine ⟨?_,fun x hx => ?_,fun x hx => ?_,fun a p v => ?_⟩
  · have hnd := h.addrs
    simp only [map_append,map_cons] at hnd ⊢
    refine nodup_middle.mpr (nodup_cons.mpr ⟨fun hin => ?_,hnd⟩)
    rw [← map_append] at hin
    obtain ⟨x,hx,he⟩ := mem_map.mp hin
    exact hnew x hx he
  · obtain rfl | hx := (hmem x).mp hx
    · exact hports
    · exact h.ports x hx
  · obtain rfl | hx := (hmem x).mp hx
    · exact hne
    · exact h.nonempty x hx
  by_cases ha : a = g.addr
  · subst ha
    rw [update_self,hf]
    constructor
    · exact fun hhas => ⟨g,(hmem g).mpr (.inl rfl),rfl,hhas⟩
    · rintro ⟨x,hx,hxa,hhas⟩
      obtain rfl | hx := (hmem x).mp hx
      · exact hhas
      · exact absurd hxa (hnew x hx)
  · rw [update_of_ne ha,h.mem,exists_group_iff_of_ne ha]

lemma Sound.update (h : Sound (A ++ g :: C) m) {ms : List Member} {f : ℕ → Option Bool}
    (hports : (ms.map Member.dst).Nodup) (hne : ms ≠ [])
    (hf : ∀ p v, f p = some v ↔ Has ms p v) :
    Sound (A ++ { g with members := ms } :: C) (update m g.addr f) := by
  have hput := @Sound.insert A C _ { g with members := ms } h.erase (fun x hx => h.addr_ne hx) f
    hports hne hf
  rwa [update_idem] at hput

section

variable {ms : List Member} {f : ℕ → Option Bool} {ptr source : ℕ} {type : UInt8}

lemma reported_nodup (hms : (ms.map Member.dst).Nodup) (alloc : Bool) :
    ((reported ms ptr source type alloc).map Member.dst).Nodup := by
  unfold reported
  split
  · have : (ms.map fun m => if m.dst = source then m.renewed type else m).map Member.dst =
        ms.map Member.dst := by
      rw [map_map]
      refine map_congr_left fun m _ => ?_
      by_cases hm : m.dst = source <;> simp [hm,Member.renewed]
    rwa [this]
  next hany =>
  cases alloc with
  | false => exact hms
  | true =>
    refine nodup_cons.mpr ⟨fun hmem => hany ?_,hms⟩
    obtain ⟨x,hx,he⟩ := mem_map.mp hmem
    exact any_eq_true.mpr ⟨x,hx,by simpa using he⟩

lemma reported_ne_nil (hms : ms ≠ []) (alloc : Bool) : reported ms ptr source type alloc ≠ [] := by
  unfold reported
  split
  · simpa using hms
  · cases alloc <;> simp [hms]

lemma has_reported_old (hms : (ms.map Member.dst).Nodup) (hf : ∀ p v, f p = some v ↔ Has ms p v)
    {w : Bool} (hw : f source = some w) (alloc : Bool) (p : ℕ) (v : Bool) :
    update f source (some (w || type == IGMP_V1_MEMBERSHIP_REPORT)) p = some v ↔
      Has (reported ms ptr source type alloc) p v := by
  obtain ⟨y,hy,hys,rfl⟩ := (hf source w).mp hw
  have hany : ms.any (·.dst = source) = true := any_eq_true.mpr ⟨y,hy,by simpa using hys⟩
  simp only [reported,hany,if_true,Has,mem_map]
  by_cases hp : p = source
  · subst hp
    rw [update_self]
    constructor
    · rintro ⟨rfl⟩
      exact ⟨_,⟨y,hy,rfl⟩,by simp [hys,Member.renewed],by simp [hys,Member.renewed]⟩
    rintro ⟨_,⟨x,hx,rfl⟩,hxd,rfl⟩
    have hxs : x.dst = p := by
      by_contra hne
      simp [hne] at hxd
    obtain rfl : x = y := inj_on_of_nodup_map hms hx hy (hxs.trans hys.symm)
    simp [hxs,Member.renewed]
  rw [update_of_ne hp,hf]
  constructor
  · rintro ⟨x,hx,rfl,rfl⟩
    exact ⟨x,⟨x,hx,by simp [hp]⟩,rfl,rfl⟩
  rintro ⟨_,⟨x,hx,rfl⟩,hxd,rfl⟩
  have hxs : x.dst ≠ source := by
    intro he
    simp only [he,if_true,Member.renewed] at hxd
    exact hp hxd.symm
  rw [if_neg hxs] at hxd ⊢
  exact ⟨x,hx,hxd,rfl⟩

lemma has_reported_new (hf : ∀ p v, f p = some v ↔ Has ms p v) (hw : f source = none) (p : ℕ)
    (v : Bool) :
    update f source (some (type == IGMP_V1_MEMBERSHIP_REPORT)) p = some v ↔
      Has (reported ms ptr source type true) p v := by
  have hnone : ∀ x ∈ ms, x.dst ≠ source := fun x hx he => by
    have := (hf source x.vinfo).mpr ⟨x,hx,he,rfl⟩
    simp [hw] at this
  have hany : ms.any (·.dst = source) = false := by
    simpa [any_eq_false] using hnone
  simp only [reported,hany,Bool.false_eq_true,if_false,if_true,Has,mem_cons]
  by_cases hp : p = source
  · subst hp
    rw [update_self]
    constructor
    · rintro ⟨rfl⟩
      exact ⟨_,.inl rfl,rfl,rfl⟩
    · rintro ⟨x,rfl | hx,hxd,rfl⟩
      · rfl
      · exact absurd hxd (hnone x hx)
  rw [update_of_ne hp,hf]
  constructor
  · rintro ⟨x,hx,hxd,rfl⟩
    exact ⟨x,.inr hx,hxd,rfl⟩
  · rintro ⟨x,rfl | hx,hxd,rfl⟩
    · exact absurd hxd.symm hp
    · exact ⟨x,hx,hxd,rfl⟩

lemma reported_noAlloc (hf : ∀ p v, f p = some v ↔ Has ms p v) (hw : f source = none) :
    reported ms ptr source type false = ms := by
  have hany : ms.any (·.dst = source) = false := by
    simp only [any_eq_false,decide_eq_true_eq]
    intro x hx he
    have := (hf source x.vinfo).mpr ⟨x,hx,he,rfl⟩
    simp [hw] at this
  simp [reported,hany]

end

lemma Sound.report_known (h : Sound (A ++ g :: C) m) (ptr source : ℕ) (type : UInt8)
    (allocEntry allocPort : Bool) :
    Sound (A ++ { g with members := reported g.members ptr source type allocPort } :: C)
      ((Op.report source g.addr type allocEntry allocPort).abstract m) := by
  have hports := h.ports g (by simp)
  have hne := h.nonempty g (by simp)
  have hhas := h.mem_addr
  rcases hw : m g.addr source with _ | w
  · cases allocPort with
    | true =>
      obtain ⟨x,hx⟩ := exists_mem_of_ne_nil _ hne
      have hknown : ∃ p, m g.addr p ≠ none := ⟨x.dst,by
        rw [(hhas x.dst x.vinfo).mpr ⟨x,hx,rfl,rfl⟩]
        simp⟩
      simp only [Op.abstract,hw,hknown,or_true,and_self,if_true]
      exact h.update (reported_nodup hports _) (reported_ne_nil hne _) (has_reported_new hhas hw)
    | false =>
      simp only [Op.abstract,hw,Bool.false_eq_true,false_and,if_false]
      rw [reported_noAlloc hhas hw]
      exact h
  · simp only [Op.abstract,hw]
    exact h.update (reported_nodup hports _) (reported_ne_nil hne _)
      (has_reported_old hports hhas hw _)

lemma Sound.report_new (h : Sound (A ++ C) m) (hnew : ∀ x ∈ A ++ C, x.addr ≠ addr)
    (e ptr source : ℕ) (type : UInt8) :
    Sound (A ++ ⟨e,addr,reported [] ptr source type true⟩ :: C)
      ((Op.report source addr type true true).abstract m) := by
  have hnone : ∀ p v, m addr p = some v ↔ Has [] p v := fun p v => by
    rw [h.mem]
    constructor
    · rintro ⟨x,hx,ha,-⟩
      exact absurd ha (hnew x hx)
    · rintro ⟨x,hx,-⟩
      simp at hx
  have hw : m addr source = none := by
    rcases hw : m addr source with _ | w
    · rfl
    · obtain ⟨x,hx,-⟩ := (hnone source w).mp hw
      simp at hx
  simp only [Op.abstract,hw,true_or,and_self,if_true]
  exact h.insert (g := ⟨e,addr,reported [] ptr source type true⟩) hnew (by simp [reported])
    (by simp [reported]) (has_reported_new hnone hw)

lemma Sound.report_failed {source : ℕ} {type : UInt8} {allocPort : Bool} (h : Sound gs m)
    (hnew : ∀ x ∈ gs, x.addr ≠ addr) :
    (Op.report source addr type false allocPort).abstract m = m := by
  have hnone : ∀ p, m addr p = none := fun p => by
    rcases hw : m addr p with _ | w
    · rfl
    · obtain ⟨x,hx,ha,-⟩ := (h.mem addr p w).mp hw
      exact absurd ha (hnew x hx)
  simp [Op.abstract,hnone]

/-- What is left of a group; one without members stays. -/
def restrict (P : UInt32 → ℕ → Bool → Bool) (g : Group) : Option Group :=
  let ms := g.members.filter fun x => P g.addr x.dst x.vinfo
  if g.members ≠ [] ∧ ms = [] then none else some { g with members := ms }

lemma restrict_eq_some {g' : Group} :
    restrict P g = some g' ↔
      g' = { g with members := g.members.filter fun x => P g.addr x.dst x.vinfo } ∧
        (g.members ≠ [] → g'.members ≠ []) := by
  simp only [restrict,Option.ite_none_left_eq_some,Option.some.injEq,not_and]
  constructor
  · rintro ⟨hne,rfl⟩
    exact ⟨rfl,hne⟩
  · rintro ⟨rfl,hne⟩
    exact ⟨hne,rfl⟩

lemma restrict_self (h : ∀ x ∈ g.members, P g.addr x.dst x.vinfo = true) :
    restrict P g = some g := by
  refine restrict_eq_some.mpr ⟨?_,id⟩
  rw [filter_eq_self.mpr h]

lemma filterMap_addr_sublist {f : Group → Option Group}
    (hf : ∀ g g', f g = some g' → g'.addr = g.addr) (gs : List Group) :
    ((gs.filterMap f).map Group.addr).Sublist (gs.map Group.addr) := by
  induction gs with
  | nil => simp
  | cons g gs ih =>
    rw [filterMap_cons]
    split
    · exact ih.cons _
    · next g' hg' =>
      rw [map_cons,hf g g' hg']
      exact ih.cons_cons _

lemma Sound.restrict (h : Sound gs m) (P : UInt32 → ℕ → Bool → Bool) :
    Sound (gs.filterMap (restrict P)) fun a p => (m a p).filter (P a p) where
  addrs := by
    refine h.addrs.sublist (filterMap_addr_sublist (fun g g' hg' => ?_) gs)
    rw [(restrict_eq_some.mp hg').1]
  ports x hx := by
    obtain ⟨g,hg,hx⟩ := mem_filterMap.mp hx
    rw [(restrict_eq_some.mp hx).1]
    exact (h.ports g hg).sublist (filter_sublist.map _)
  nonempty x hx := by
    obtain ⟨g,hg,hx⟩ := mem_filterMap.mp hx
    exact (restrict_eq_some.mp hx).2 (h.nonempty g hg)
  mem a p v := by
    have hhas : ∀ g : Group, Has (g.members.filter fun x => P g.addr x.dst x.vinfo) p v ↔
        Has g.members p v ∧ P g.addr p v = true := fun g => by
      simp only [Has,mem_filter]
      constructor
      · rintro ⟨x,⟨hx,hP⟩,rfl,rfl⟩
        exact ⟨⟨x,hx,rfl,rfl⟩,hP⟩
      · rintro ⟨⟨x,hx,rfl,rfl⟩,hP⟩
        exact ⟨x,⟨hx,hP⟩,rfl,rfl⟩
    rw [Option.filter_eq_some_iff,h.mem]
    constructor
    · rintro ⟨⟨g,hg,rfl,hx⟩,hP⟩
      have hx' := (hhas g).mpr ⟨hx,hP⟩
      refine ⟨_,mem_filterMap.mpr ⟨g,hg,restrict_eq_some.mpr ⟨rfl,fun _ => ?_⟩⟩,rfl,hx'⟩
      obtain ⟨y,hy,-⟩ := hx'
      exact ne_nil_of_mem hy
    rintro ⟨g',hg',ha,hx⟩
    obtain ⟨g,hg,hr⟩ := mem_filterMap.mp hg'
    obtain ⟨rfl,-⟩ := restrict_eq_some.mp hr
    subst ha
    obtain ⟨h1,h2⟩ := (hhas g).mp hx
    exact ⟨⟨g,hg,rfl,h1⟩,h2⟩

lemma sweep_filterMap_cons {σ : Type} {step : σ → Group → Option (Option Group × σ)}
    {f : Group → Option Group} {st st1 st' : σ} (hstep : step st g = some (f g,st1))
    (hrest : sweep step st1 gs = some (gs.filterMap f,st')) :
    sweep step st (g :: gs) = some ((g :: gs).filterMap f,st') := by
  rw [sweep,hstep,filterMap_cons]
  cases hg : f g <;> simp [hrest]

lemma filter_ne_of_forall {ms : List Member} (h : ∀ x ∈ ms, x.dst ≠ p) :
    ms.filter (fun x => decide (x.dst ≠ p)) = ms :=
  filter_eq_self.mpr fun x hx => by simpa using h x hx

/-- The member behind the first one is gone, and `prev_pnode` is what was passed last. -/
lemma dropStep_behind {m : Member} {ms : List Member}
    (hports : (g.members.map Member.dst).Nodup) (hm : g.members = m :: ms) (hp : m.dst ≠ p)
    (st : Prev) : ∃ st', dropStep p st g = some (restrict (fun _ q _ => decide (q ≠ p)) g,st') ∧
      (st' = .last ∨ st' = .inner ∧ ∃ a v y b, g.row.ports = a ++ (p,v) :: y :: b) := by
  obtain ⟨habs,hdrop⟩ | ⟨a,x,b,hmem,hne,hane,hx,hdrop⟩ := dropStep_of_ne hm hp st
  · have hself : restrict (fun _ q _ => decide (q ≠ p)) g = some g :=
      restrict_self fun x hx => by simpa using habs x hx
    exact ⟨.last,by rw [hdrop,hself],.inl rfl⟩
  have hb : ∀ y ∈ b, y.dst ≠ p := by
    rw [hmem,map_append,map_cons] at hports
    intro y hy he
    exact (nodup_cons.mp hports.of_append_right).1 (by
      rw [hx,← he]
      exact mem_map_of_mem hy)
  have hres : restrict (fun _ q _ => decide (q ≠ p)) g = some { g with members := a ++ b } := by
    refine restrict_eq_some.mpr ⟨?_,fun _ => by simp [hne]⟩
    rw [hmem,filter_append,filter_ne_of_forall hane,filter_cons_of_neg (by simp [hx]),
      filter_ne_of_forall hb]
  refine ⟨_,by rw [hdrop,hres],?_⟩
  rcases b with _ | ⟨y,b⟩
  · exact .inl rfl
  refine .inr ⟨rfl,a.map fun x => (x.dst,x.vinfo),x.vinfo,(y.dst,y.vinfo),
    b.map fun x => (x.dst,x.vinfo),?_⟩
  simp only [Group.row,hmem,map_append,map_cons,hx]

/-- The first member is gone. -/
lemma dropStep_head {m : Member} {ms : List Member}
    (hports : (g.members.map Member.dst).Nodup) (hm : g.members = m :: ms) (hp : m.dst = p)
    (hst : st = .null ∨ st = .last ∧ ms = []) :
    dropStep p st g = some (restrict (fun _ q _ => decide (q ≠ p)) g,st) := by
  rw [hm,map_cons,nodup_cons] at hports
  have hrest : ms.filter (fun x => decide (x.dst ≠ p)) = ms :=
    filter_ne_of_forall fun x hx he => hports.1 (by
      rw [hp,← he]
      exact mem_map_of_mem hx)
  have hfilter : g.members.filter (fun x => decide (x.dst ≠ p)) = ms := by
    rw [hm,filter_cons_of_neg (by simp [hp]),hrest]
  have hres : restrict (fun _ q _ => decide (q ≠ p)) g =
      if ms = [] then none else some { g with members := ms } := by
    simp only [restrict,hfilter]
    simp [hm]
  rw [hres,dropStep,hm]
  simp only [if_pos hp]
  obtain rfl | ⟨rfl,rfl⟩ := hst
  · cases ms <;> rfl
  · rfl

lemma dropStep_null (hports : (g.members.map Member.dst).Nodup) :
    ∃ st', dropStep p .null g = some (restrict (fun _ q _ => decide (q ≠ p)) g,st') := by
  cases hm : g.members with
  | nil => exact ⟨.null,by rw [restrict_self (by simp [hm]),dropStep,hm]⟩
  | cons m ms =>
    by_cases hp : m.dst = p
    · exact ⟨_,dropStep_head hports hm hp (.inl rfl)⟩
    · obtain ⟨st',hstep,-⟩ := dropStep_behind hports hm hp .null
      exact ⟨st',hstep⟩

/-- What the rows passed so far say about `prev_pnode`. -/
inductive Passed (p : ℕ) : List Row → Prev → Prop
  | null {rows} : (∀ r ∈ rows, r.StartsWith p) → Passed p rows .null
  | last {pre r mid} : ¬ r.StartsWith p → (∀ x ∈ mid, Row.StartsWith x p) →
    Passed p (pre ++ r :: mid) .last
  | inner {pre r mid a v y b} : ¬ r.StartsWith p → (∀ x ∈ mid, Row.StartsWith x p) →
    r.ports = a ++ (p,v) :: y :: b → Passed p (pre ++ r :: mid) .inner

lemma Passed.snoc {rows : List Row} {r : Row} (h : Passed p rows st) (hr : r.StartsWith p) :
    Passed p (rows ++ [r]) st := by
  cases h with
  | null hall =>
    refine .null fun x hx => ?_
    rw [mem_append,mem_singleton] at hx
    obtain hx | rfl := hx
    · exact hall x hx
    · exact hr
  | last hnot hmid =>
    rw [append_assoc,cons_append]
    refine .last hnot fun x hx => ?_
    rw [mem_append,mem_singleton] at hx
    obtain hx | rfl := hx
    · exact hmid x hx
    · exact hr
  | inner hnot hmid hports =>
    rw [append_assoc,cons_append]
    refine .inner hnot (fun x hx => ?_) hports
    rw [mem_append,mem_singleton] at hx
    obtain hx | rfl := hx
    · exact hmid x hx
    · exact hr

lemma sweep_dropStep {done : List Row} (hports : ∀ g ∈ gs, (g.members.map Member.dst).Nodup)
    (hne : ∀ g ∈ gs, g.members ≠ []) (hpassed : Passed p done st)
    (hsafe : DeletePortSafe p (done ++ gs.map Group.row)) :
    ∃ st', sweep (dropStep p) st gs =
      some (gs.filterMap (restrict fun _ q _ => decide (q ≠ p)),st') := by
  induction gs generalizing done st with
  | nil => exact ⟨st,rfl⟩
  | cons g gs ih =>
    obtain ⟨hg,hgs⟩ := forall_mem_cons.mp hne
    obtain ⟨hnd,hports⟩ := forall_mem_cons.mp hports
    obtain ⟨m,ms,hm⟩ := exists_cons_of_ne_nil hg
    have hdone : done ++ (g :: gs).map Group.row = done ++ [g.row] ++ gs.map Group.row := by simp
    suffices hstep : ∃ st', dropStep p st g =
        some (restrict (fun _ q _ => decide (q ≠ p)) g,st') ∧ Passed p (done ++ [g.row]) st' by
      obtain ⟨st',hstep,hpassed'⟩ := hstep
      obtain ⟨st2,hrest⟩ := ih hports hgs hpassed' (hdone ▸ hsafe)
      exact ⟨st2,sweep_filterMap_cons hstep hrest⟩
    by_cases hp : m.dst = p
    · have hstarts : g.row.StartsWith p := by simp [Row.StartsWith,Group.row,hm,hp]
      refine ⟨st,dropStep_head hnd hm hp ?_,hpassed.snoc hstarts⟩
      cases hpassed with
      | null hall => exact .inl rfl
      | @last pre r mid hnot hmid =>
        obtain ⟨hone,-⟩ := hsafe pre r mid g.row (gs.map Group.row) (by simp) hnot hmid hstarts
        exact .inr ⟨rfl,by simpa [Group.row,hm] using hone⟩
      | @inner pre r mid _ _ _ _ hnot hmid hports =>
        obtain ⟨-,hend⟩ := hsafe pre r mid g.row (gs.map Group.row) (by simp) hnot hmid hstarts
        exact absurd (hend _ _ _ hports) (by simp)
    have hnot : ¬ g.row.StartsWith p := by simp [Row.StartsWith,Group.row,hm,hp]
    obtain ⟨st',hstep,rfl | ⟨rfl,a,v,y,b,hrow⟩⟩ := dropStep_behind hnd hm hp st
    · exact ⟨.last,hstep,.last hnot (by simp)⟩
    · exact ⟨.inner,hstep,.inner hnot (by simp) hrow⟩

lemma sweep_dropGroupStep (p : ℕ) (group : UInt32) (haddr : (gs.map Group.addr).Nodup)
    (hports : ∀ g ∈ gs, (g.members.map Member.dst).Nodup) :
    ∃ st', sweep (dropGroupStep p group) .null gs =
      some (gs.filterMap (restrict fun a q _ => decide (a ≠ group ∨ q ≠ p)),st') := by
  induction gs with
  | nil => exact ⟨.null,rfl⟩
  | cons g gs ih =>
    obtain ⟨hg,hgs⟩ := nodup_cons.mp haddr
    obtain ⟨hnd,hports⟩ := forall_mem_cons.mp hports
    have hself {x : Group} (hx : x.addr ≠ group) :
        restrict (fun a q _ => decide (a ≠ group ∨ q ≠ p)) x = some x :=
      restrict_self fun _ _ => decide_eq_true (.inl hx)
    by_cases ha : g.addr = group
    · have hother : ∀ x ∈ gs, x.addr ≠ group := fun x hx he =>
        hg (by rw [ha,← he]; exact mem_map_of_mem hx)
      obtain ⟨st',hstep⟩ := dropStep_null (p := p) hnd
      refine ⟨st',sweep_filterMap_cons (by simpa [dropGroupStep,restrict,ha] using hstep) ?_⟩
      rw [sweep_dropGroupStep_other hother,filterMap_congr fun x hx => hself (hother x hx),
        filterMap_some]
    · obtain ⟨st',hrest⟩ := ih hgs hports
      exact ⟨st',sweep_filterMap_cons (by rw [dropGroupStep,if_neg ha,hself ha]) hrest⟩

lemma sweep_v1Step (hne : ∀ g ∈ gs, g.members ≠ []) (hst : st ≠ .inner)
    (hlast : st = .last → ∀ g ∈ gs, g.row.Keeps → g.row.ports.head?.map Prod.snd ≠ some true)
    (hsafe : FlushSafe (gs.map Group.row)) :
    ∃ st', sweep v1Step st gs = some (gs.filterMap (restrict fun _ _ v => !v),st') := by
  induction gs generalizing st with
  | nil => exact ⟨st,rfl⟩
  | cons g gs ih =>
    obtain ⟨hg,hgs⟩ := forall_mem_cons.mp hne
    obtain ⟨m,ms,hm⟩ := exists_cons_of_ne_nil hg
    rw [map_cons,FlushSafe,pairwise_cons] at hsafe
    obtain ⟨hfirst,hrest⟩ := hsafe
    suffices hstep : ∃ st', v1Step st g = some (restrict (fun _ _ v => !v) g,st') ∧
        st' ≠ .inner ∧ (st' = .last → ∀ g ∈ gs, g.row.Keeps →
          g.row.ports.head?.map Prod.snd ≠ some true) by
      obtain ⟨st',hstep,hst',hlast'⟩ := hstep
      obtain ⟨st2,hsweep⟩ := ih hgs hst' hlast' hrest
      exact ⟨st2,sweep_filterMap_cons hstep hsweep⟩
    rcases hk : (m :: ms).filter (!·.vinfo) with _ | ⟨x,keep⟩
    · exact ⟨st,by simp [v1Step,restrict,hm,hk,hst],hst,
        fun h y hy => hlast h y (mem_cons_of_mem _ hy)⟩
    have hkeeps : g.row.Keeps := by
      have hx : x ∈ (m :: ms).filter (!·.vinfo) := by simp [hk]
      rw [mem_filter] at hx
      refine ⟨(x.dst,x.vinfo),?_,by simpa using hx.2⟩
      simp only [Group.row,hm,mem_map]
      exact ⟨x,hx.1,rfl⟩
    have hcond : ¬(m.vinfo = true ∧ st ≠ .null) := by
      rintro ⟨hv,hnull⟩
      have hst' : st = .last := by cases st <;> simp_all
      exact hlast hst' g (by simp) hkeeps (by simp [Group.row,hm,hv])
    refine ⟨.last,?_,by simp,fun _ y hy hyk => hfirst _ (mem_map_of_mem hy) hkeeps hyk⟩
    simp only [v1Step,restrict,hm,hk,if_neg hcond]
    simp

def Inv (s : State) (m : Members) : Prop := ∃ db, Rep s db ∧ Sound (flat db) m

lemma Inv.refines (h : Inv s m) : Refines s m := by
  obtain ⟨db,hrep,hsound⟩ := h
  exact ⟨_,hrep.table_eq,hsound.rowsRefine⟩

lemma flat_nil : flat (fun _ => []) = [] := flatMap_eq_nil_iff.mpr fun _ _ => rfl

lemma Inv.removal {step : Prev → Group → Option (Option Group × Prev)} {r : Option State}
    {m' : Members} {db : ℕ → List Group}
    (hsound : Sound (flat db) m)
    (hsim : ∀ out st', sweep step .null (flat db) = some (out,st') → Swept s r out)
    (hsweep : ∃ st', sweep step .null (flat db) = some ((flat db).filterMap (restrict P),st'))
    (hm' : m' = fun a p => (m a p).filter (P a p)) : ∃ s', r = some s' ∧ Inv s' m' := by
  obtain ⟨st',hsweep⟩ := hsweep
  obtain ⟨s',db',hr,hrep,hout,-⟩ := hsim _ st' hsweep
  refine ⟨s',hr,db',hrep,?_⟩
  rw [hout,hm']
  exact hsound.restrict P

lemma Inv.report (h : Inv s m) {source : ℕ} {type : UInt8} {allocEntry allocPort : Bool}
    (hsafe : (Op.report source addr type allocEntry allocPort).Safe s) :
    ∃ s', brMfdInsert s source addr type allocEntry allocPort = some s' ∧
      Inv s' ((Op.report source addr type allocEntry allocPort).abstract m) := by
  obtain ⟨db,hrep,hsound⟩ := h
  obtain ⟨s',db',hinsert,hrep',hcases⟩ :=
    brMfdInsert_flat source addr type hrep hsound.addrs hsound.ports allocEntry allocPort
  refine ⟨s',hinsert,db',hrep',?_⟩
  obtain ⟨A,g,C,hflat,rfl,hflat',-⟩ | ⟨hnew,hcases⟩ := hcases
  · rw [hflat] at hsound
    rw [hflat']
    exact hsound.report_known s.nodes source type allocEntry allocPort
  obtain ⟨A,C,hflat,hflat',rfl,-⟩ | ⟨rfl,rfl,hflat'⟩ := hcases
  · obtain rfl : allocPort = true := by
      refine hsafe _ hrep.table_eq (fun r hr => ?_) rfl
      obtain ⟨x,hx,rfl⟩ := mem_map.mp hr
      exact hnew x hx
    rw [hflat] at hsound hnew
    rw [hflat']
    exact hsound.report_new hnew s.ents s.nodes source type
  · rw [hflat',hsound.report_failed hnew]
    exact hsound

lemma Inv.step (h : Inv s m) {op : Op} (hsafe : op.Safe s) :
    ∃ s', op.apply s = some s' ∧ Inv s' (op.abstract m) := by
  cases op with
  | report source addr type allocEntry allocPort => exact h.report hsafe
  | expire p group =>
    obtain ⟨db,hrep,hsound⟩ := h
    refine Inv.removal (P := fun a q _ => decide (a ≠ group ∨ q ≠ p)) hsound
      (fun out st' => brMfdDeletePortFromGroup_sim p group hrep hsound.addrs)
      (sweep_dropGroupStep p group hsound.addrs hsound.ports) ?_
    funext a q
    by_cases hc : a = group ∧ q = p
    · cases hm : m a q <;> simp [Op.abstract,hc.1,hc.2,Option.filter]
    · have : decide (a ≠ group ∨ q ≠ p) = true := decide_eq_true (not_and_or.mp hc)
      cases hm : m a q <;> simp [Op.abstract,hc,hm,Option.filter,this]
  | deletePort p =>
    obtain ⟨db,hrep,hsound⟩ := h
    refine Inv.removal (P := fun _ q _ => decide (q ≠ p)) hsound
      (fun out st' => brMfdDeletePort_sim p hrep) ?_ ?_
    · have hnull : Passed p [] .null := .null (by simp)
      exact sweep_dropStep hsound.ports hsound.nonempty hnull (hsafe _ hrep.table_eq)
    · funext a q
      by_cases hc : q = p <;> cases hm : m a q <;> simp [Op.abstract,hc,hm,Option.filter]
  | flushV1 =>
    obtain ⟨db,hrep,hsound⟩ := h
    refine Inv.removal (P := fun _ _ v => !v) hsound (fun out st' => brMfdDeleteV1Ports_sim hrep)
      (sweep_v1Step hsound.nonempty (by simp) (by simp) (hsafe _ hrep.table_eq)) ?_
    funext a q
    rcases hm : m a q with _ | v
    · simp [Op.abstract,hm]
    · cases v <;> simp [Op.abstract,hm,Option.filter]

lemma Inv.run {ops : List Op} (h : Inv s m) (hsafe : RunSafe s ops) :
    ∃ s', Mfd.run s ops = some s' ∧ Inv s' (ops.foldl Op.abstract m) := by
  induction ops generalizing s m with
  | nil => exact ⟨s,rfl,h⟩
  | cons op ops ih =>
    obtain ⟨hop,hrest⟩ := hsafe
    obtain ⟨s₁,happly,h₁⟩ := h.step hop
    obtain ⟨s',hrun,h'⟩ := ih h₁ (hrest s₁ happly)
    exact ⟨s',by simpa [Mfd.run,happly] using hrun,h'⟩

lemma inv_init : Inv State.init fun _ _ => none := by
  refine ⟨fun _ => [],rep_init,?_⟩
  rw [flat_nil]
  exact sound_nil

/-- In every run from the empty database whose steps are all safe, every operation returns
and the database refines the map of the run. -/
theorem run_refines (ops : List Op) (hsafe : RunSafe State.init ops) :
    ∃ s, run State.init ops = some s ∧ Refines s (ops.foldl Op.abstract fun _ _ => none) := by
  obtain ⟨s,hrun,hinv⟩ := inv_init.run hsafe
  exact ⟨s,hrun,hinv.refines⟩

/-- A version 2 report for 224.0.1.5 or 224.0.1.6, as a little-endian word. -/
private def joins (p : ℕ) (last : UInt32) : Op := .report p (last <<< 24 ||| 0x0100e0) 0x16 true true

/-- Port 1 is alone in the second group of the table when it is taken off the bridge. -/
theorem run_refines_delete_behind :
    RunSafe State.init [joins 1 6,joins 2 5,.deletePort 1] ∧
    ∃ s, run State.init [joins 1 6,joins 2 5,.deletePort 1] = some s ∧
      Refines s ([joins 1 6,joins 2 5,.deletePort 1].foldl Op.abstract fun _ _ => none) := by
  have htable : (run State.init [joins 1 6,joins 2 5]).bind State.table =
      some [⟨0x050100e0,1,[(2,false)]⟩,⟨0x060100e0,1,[(1,false)]⟩] := by
    decide +kernel
  have hsafe : RunSafe State.init [joins 1 6,joins 2 5,.deletePort 1] := by
    refine ⟨fun _ _ _ _ => rfl,fun s₁ h₁ => ⟨fun _ _ _ _ => rfl,fun s₂ h₂ => ⟨?_,fun _ _ => trivial⟩⟩⟩
    intro rows hrows
    rw [show run State.init [joins 1 6,joins 2 5] = some s₂ by simp [run,h₁,h₂],
      Option.bind_some,hrows] at htable
    cases htable
    intro pre r mid r' post he
    rcases pre with _ | ⟨_,_ | ⟨_,pre⟩⟩ <;> rcases mid with _ | ⟨_,mid⟩ <;> simp at he
    obtain ⟨rfl,rfl,-⟩ := he
    refine fun _ _ _ => ⟨rfl,fun a v b hab => ?_⟩
    rcases a with _ | ⟨_,a⟩ <;> simp at hab
  exact ⟨hsafe,run_refines _ hsafe⟩

/-- Port 1 leaves the bridge. The walk has passed the node of port 2 in the first group
when it finds port 1 at the head of the second one: the second list keeps the freed
node, and its other member is now linked behind port 2. -/
theorem run_refines_fails_stale_prev :
    ¬ ∃ s, run State.init [joins 3 6,joins 1 6,joins 2 5,.deletePort 1] = some s ∧
      Refines s ([joins 3 6,joins 1 6,joins 2 5,.deletePort 1].foldl Op.abstract
        fun _ _ => none) := by
  rintro ⟨s,hrun,rows,hrows,-⟩
  have htable : (run State.init [joins 3 6,joins 1 6,joins 2 5,.deletePort 1]).bind
      State.table = none := by
    decide +kernel
  rw [hrun,Option.bind_some,hrows] at htable
  exact absurd htable (by simp)

end DslG624t.Bridge.Mfd
