import DslG624t.Bridge.Mfd

/-!
# The shape of the multicast database

What the pointers of a sound database spell out: for every bucket a list of groups, for every
group the list of its members.
-/

namespace DslG624t.Bridge.Mfd

open Function HashChain HeapList List Option

structure Member where
  ptr : ℕ
  dst : ℕ
  vinfo : Bool

structure Group where
  ptr : ℕ
  addr : UInt32
  members : List Member

def Group.row (g : Group) : Row :=
  ⟨g.addr,g.members.length,g.members.map fun m => (m.dst,m.vinfo)⟩

/-- The node `m` as a port of the entry `e`. -/
structure HoldsNode (s : State) (e : ℕ) (m : Member) : Prop where
  live : s.nodeLive m.ptr = true
  dst : s.dst m.ptr = m.dst
  vinfo : s.vinfo m.ptr = m.vinfo
  mfd : s.mfd m.ptr = e

structure Holds (s : State) (g : Group) : Prop where
  live : s.entLive g.ptr = true
  addr : s.addr g.ptr = g.addr
  count : s.portCount g.ptr = g.members.length
  list : Chain s.next (s.plist g.ptr) (g.members.map Member.ptr)
  nodup : (g.members.map Member.ptr).Nodup
  node : ∀ m ∈ g.members, HoldsNode s g.ptr m

structure Rep (s : State) (db : ℕ → List Group) : Prop where
  chained : Chained s.links fun i => (db i).map Group.ptr
  holds : ∀ i, ∀ g ∈ db i, Holds s g
  hash : ∀ i, ∀ g ∈ db i, brAddrHash g.addr = i
  nodeFresh : ∀ n, s.nodeLive n = true → n < s.nodes
  entFresh : ∀ e, s.entLive e = true → e < s.ents

variable {e f n fuel : ℕ} {s' : State} {m : Member} {x : Group} {prev : Option ℕ}
  {a b : List Member}

lemma rep_init : Rep State.init fun _ => [] where
  chained := chained_nil
  holds _ _ h := absurd h (by simp)
  hash _ _ h := absurd h (by simp)
  nodeFresh _ h := absurd h (by simp [State.init])
  entFresh _ h := absurd h (by simp [State.init])

variable {s : State} {db : ℕ → List Group} {i : ℕ} {g : Group} {pre post : List Group}

lemma Rep.members_length (h : Rep s db) (hg : Holds s g) : g.members.length < s.nodes+1 := by
  have := length_le_of_nodup hg.nodup (n := s.nodes) fun x hx => by
    obtain ⟨m,hm,rfl⟩ := mem_map.mp hx
    exact h.nodeFresh _ (hg.node m hm).live
  rw [length_map] at this
  omega

lemma Rep.bucket_length (h : Rep s db) (i : ℕ) : (db i).length < s.ents+1 := by
  have := length_le_of_nodup (h.chained.nodup i) (n := s.ents) fun x hx => by
    obtain ⟨g,hg,rfl⟩ := mem_map.mp hx
    exact h.entFresh _ (h.holds i g hg).live
  rw [length_map] at this
  omega

lemma readPorts_eq {ms : List Member} {pn : Option ℕ} (hc : Chain s.next pn (ms.map Member.ptr))
    (hn : ∀ m ∈ ms, HoldsNode s e m) (hf : ms.length < fuel) :
    readPorts s fuel pn = some (ms.map fun m => (m.dst,m.vinfo)) := by
  refine Chain.walk (fun fuel => ?_) (fun m ms fuel hm ih => ?_) hc hn hf
  · simp [readPorts]
  · simp [readPorts,hm.live,hm.dst,hm.vinfo,ih]

lemma Rep.readChain_eq (h : Rep s db) {gs : List Group} (hg : ∀ g ∈ gs, Holds s g) {p : Option ℕ}
    (hc : Chain s.links.next p (gs.map Group.ptr)) (hf : gs.length < fuel) :
    readChain s fuel p = some (gs.map Group.row) := by
  refine Chain.walk (fun fuel => ?_) (fun g gs fuel hg ih => ?_) hc hg hf
  · simp [readChain]
  · have hports := readPorts_eq hg.list hg.node (h.members_length hg)
    simp [readChain,hg.live,hports,ih,hg.addr,hg.count,Group.row]

def flat (db : ℕ → List Group) : List Group := (List.range BR_HASH_SIZE).flatMap db

lemma Rep.table_eq (h : Rep s db) : s.table = some ((flat db).map Group.row) := by
  have hread : (fun i => readChain s (s.ents+1) (s.links.head i)) =
      fun i => some ((db i).map Group.row) := by
    funext i
    exact h.readChain_eq (h.holds i) (h.chained.chain i) (h.bucket_length i)
  rw [State.table,hread]
  have hmap : ∀ l : List ℕ, l.mapM (m := Option) (fun i => some ((db i).map Group.row)) =
      some (l.map fun i => (db i).map Group.row) := by
    intro l
    induction l with
    | nil => rfl
    | cons i l ih => simp [ih]
  rw [hmap,map_some,flat,map_flatMap,flatMap_def]

lemma Rep.mem_flat (h : Rep s db) (hg : g ∈ db i) : g ∈ flat db := by
  refine mem_flatMap.mpr ⟨i,mem_range.mpr ?_,hg⟩
  rw [← h.hash i g hg]
  exact brAddrHash_lt _

lemma HoldsNode.congr (h : HoldsNode s e m) (hl : s'.nodeLive m.ptr = s.nodeLive m.ptr)
    (hd : s'.dst m.ptr = s.dst m.ptr) (hv : s'.vinfo m.ptr = s.vinfo m.ptr)
    (hm : s'.mfd m.ptr = s.mfd m.ptr) : HoldsNode s' e m :=
  ⟨hl.trans h.live,hd.trans h.dst,hv.trans h.vinfo,hm.trans h.mfd⟩

lemma Holds.congr (h : Holds s g) (hl : s'.entLive g.ptr = s.entLive g.ptr)
    (ha : s'.addr g.ptr = s.addr g.ptr) (hc : s'.portCount g.ptr = s.portCount g.ptr)
    (hp : s'.plist g.ptr = s.plist g.ptr) (hnext : ∀ m ∈ g.members, s'.next m.ptr = s.next m.ptr)
    (hnode : ∀ m ∈ g.members, HoldsNode s' g.ptr m) : Holds s' g := by
  refine ⟨hl.trans h.live,ha.trans h.addr,hc.trans h.count,?_,h.nodup,hnode⟩
  rw [hp]
  refine h.list.congr fun x hx => ?_
  obtain ⟨m,hm,rfl⟩ := mem_map.mp hx
  exact hnext m hm

lemma Holds.node_ne {h : Group} (hg : Holds s g) (hh : Holds s h) (hne : h.ptr ≠ g.ptr)
    {m m' : Member} (hm : m ∈ g.members) (hm' : m' ∈ h.members) : m'.ptr ≠ m.ptr := by
  intro he
  have h1 := (hg.node m hm).mfd
  have h2 := (hh.node m' hm').mfd
  rw [he,h1] at h2
  exact hne h2.symm

section

variable (h : Rep s db) (hdb : db i = pre ++ g :: post)
include h hdb

lemma Rep.ptr_ne (hx : x ∈ pre ++ post) :
    x.ptr ≠ g.ptr := by
  have hn := h.chained.nodup i
  simp only [hdb,map_append,map_cons] at hn
  intro he
  refine (nodup_middle.mp hn).notMem ?_
  rw [← he,← map_append]
  exact mem_map_of_mem hx

lemma Rep.mem_update (gs : List Group) {j : ℕ} (hx : x ∈ update db i (pre ++ gs ++ post) j) :
    (x ∈ gs ∧ j = i) ∨ (x ∈ db j ∧ x.ptr ≠ g.ptr) := by
  by_cases hj : j = i
  · subst hj
    rw [update_self,append_assoc,mem_append,mem_append] at hx
    obtain hx | hx | hx := hx
    · exact .inr ⟨by simp [hdb,hx],h.ptr_ne hdb (by simp [hx])⟩
    · exact .inl ⟨hx,rfl⟩
    · exact .inr ⟨by simp [hdb,hx],h.ptr_ne hdb (by simp [hx])⟩
  · rw [update_of_ne hj] at hx
    refine .inr ⟨hx,fun he => hj (h.chained.apart j i x.ptr (mem_map_of_mem hx) ?_)⟩
    simp [he,hdb]

lemma Rep.same :
    Rep s (update db i (pre ++ (some g).toList ++ post)) := by
  rw [toList_some,append_assoc,singleton_append,← hdb,update_eq_self]
  exact h

lemma Rep.replace {g' : Group} (hlinks : s'.links = s.links) (hptr : g'.ptr = g.ptr)
    (haddr : g'.addr = g.addr) (hg' : Holds s' g')
    (hother : ∀ x, Holds s x → x.ptr ≠ g.ptr → Holds s' x)
    (hnode : ∀ n, s'.nodeLive n = true → n < s'.nodes)
    (hent : ∀ e, s'.entLive e = true → e < s'.ents) :
    Rep s' (update db i (pre ++ [g'] ++ post)) where
  chained := by
    have hsame : (fun j => (update db i (pre ++ [g'] ++ post) j).map Group.ptr) =
        fun j => (db j).map Group.ptr := by
      funext j
      by_cases hj : j = i
      · subst hj
        simp [hdb,hptr]
      · rw [update_of_ne hj]
    rw [hsame,hlinks]
    exact h.chained
  holds j x hx := by
    obtain ⟨hx,-⟩ | ⟨hx,hne⟩ := h.mem_update hdb [g'] hx
    · rw [mem_singleton.mp hx]
      exact hg'
    · exact hother x (h.holds j x hx) hne
  hash j x hx := by
    obtain ⟨hx,hj⟩ | ⟨hx,-⟩ := h.mem_update hdb [g'] hx
    · rw [mem_singleton.mp hx,haddr,hj]
      exact h.hash i g (by simp [hdb])
    · exact h.hash j x hx
  nodeFresh := hnode
  entFresh := hent

lemma Rep.forget (s' : State) (hlinks : s'.links = s.links) (hlive : s'.entLive = s.entLive)
    (hother : ∀ x, Holds s x → x.ptr ≠ g.ptr → Holds s' x)
    (hnode : ∀ n, s'.nodeLive n = true → n < s'.nodes)
    (hent : ∀ e, s'.entLive e = true → e < s'.ents) :
    ∃ links, mfdHashUnlink s' g.ptr = some { s' with links } ∧
      Rep { s' with links, entLive := update s'.entLive g.ptr false }
        (update db i (pre ++ post)) := by
  have ht : (db i).map Group.ptr = pre.map Group.ptr ++ g.ptr :: post.map Group.ptr := by
    simp [hdb]
  obtain ⟨links,hunlink,hchained⟩ := h.chained.unlink ht
  have hliveAt : ∀ x ∈ pre ++ post, s'.entLive x.ptr = true := fun x hx => by
    rw [hlive]
    exact (h.holds i x (by simp [hdb] at hx ⊢; tauto)).live
  refine ⟨links,?_,?_,?_,?_,hnode,?_⟩
  · have hpprev := h.chained.pprev i _ _ _ ht
    have hnext := h.chained.next_eq ht
    have hslot : s'.slotLive (slotAfter i (pre.map Group.ptr)) = true := by
      obtain rfl | ⟨pre',x,rfl⟩ := eq_nil_or_concat pre
      · rfl
      · simp only [concat_eq_append,map_append,map_cons,map_nil,slotAfter_concat]
        exact hliveAt x (by simp)
    have hall : (post.head?.map Group.ptr).all s'.entLive = true := by
      cases post with
      | nil => rfl
      | cons x post => exact hliveAt x (by simp)
    simp [mfdHashUnlink,hlinks,hpprev,hnext,hslot,hall,hunlink]
  · have hsame : (fun j => (update db i (pre ++ post) j).map Group.ptr) =
        update (fun j => (db j).map Group.ptr) i
          (pre.map Group.ptr ++ post.map Group.ptr) := by
      funext j
      by_cases hj : j = i
      · subst hj
        simp
      · simp [hj]
    rw [hsame]
    exact hchained
  · intro j x hx
    obtain ⟨hx,-⟩ | ⟨hx,hne⟩ := h.mem_update hdb [] (by simpa using hx)
    · exact absurd hx (by simp)
    · have hx' := hother x (h.holds j x hx) hne
      exact hx'.congr (update_of_ne hne _ _) rfl rfl rfl (fun _ _ => rfl) fun m hm =>
        (hx'.node m hm).congr rfl rfl rfl rfl
  · intro j x hx
    obtain ⟨hx,-⟩ | ⟨hx,-⟩ := h.mem_update hdb [] (by simpa using hx)
    · exact absurd hx (by simp)
    · exact h.hash j x hx
  intro e he
  by_cases hne : e = g.ptr
  · subst hne
    simp at he
  · exact hent e (by simpa [hne] using he)

end

/-- The list of `f` closed over the node `n`, which is freed. -/
def State.cut (s : State) (f n : ℕ) (prevPnode : Option ℕ) : State :=
  { s with
    next := match prevPnode with
      | some q => update s.next q (s.next n)
      | none => s.next
    plist := match prevPnode with
      | some _ => s.plist
      | none => update s.plist f (s.next n)
    nodeLive := update s.nodeLive n false
    portCount := update s.portCount f (s.portCount f-1) }

lemma removeNode_eq (hq : ∀ q, prev = some q → s.nodeLive q = true) :
    removeNode s f n prev =
      if s.portCount f = 1 then
        (mfdHashUnlink (s.cut f n prev) f).map fun s' =>
          ({ s' with entLive := update s'.entLive f false },true)
      else some (s.cut f n prev,false) := by
  have hcount : s.portCount f-1 = 0 ↔ s.portCount f = 1 := by omega
  cases prev with
  | none =>
    simp only [removeNode,State.cut,bind_eq_bind,bind_some,update_self,hcount]
    split <;> simp [map_eq_bind]
  | some q =>
    simp only [removeNode,State.cut,bind_eq_bind,hq q rfl,if_true,bind_some,update_self,hcount]
    split <;> simp [map_eq_bind]

lemma Holds.cut_other (h : Holds s g) (hf : g.ptr ≠ f) (hn : ∀ m ∈ g.members, m.ptr ≠ n)
    (hq : ∀ q, prev = some q → (∀ m ∈ g.members, m.ptr ≠ q) ∨ s.next q = s.next n) :
    Holds (s.cut f n prev) g := by
  refine h.congr rfl rfl (update_of_ne hf _ _) ?_ (fun m hm => ?_) fun m hm =>
    (h.node m hm).congr (update_of_ne (hn m hm) _ _) rfl rfl rfl
  · cases prev with
    | none => exact update_of_ne hf _ _
    | some q => rfl
  · cases prev with
    | none => rfl
    | some q =>
      obtain hne | he := hq q rfl
      · exact update_of_ne (hne m hm) _ _
      · simp only [State.cut,← he,update_eq_self]

lemma cut_nodeFresh (h : ∀ n, s.nodeLive n = true → n < s.nodes) {x : ℕ}
    (hx : (s.cut f n prev).nodeLive x = true) : x < (s.cut f n prev).nodes := by
  refine h x ?_
  by_cases hxn : x = n
  · subst hxn
    simp [State.cut] at hx
  · simpa [State.cut,hxn] using hx

def lastOr (prev : Option ℕ) : List Member → Option ℕ
  | [] => prev
  | m :: a => lastOr (some m.ptr) a

@[simp] lemma lastOr_concat (prev : Option ℕ) (a : List Member) (m : Member) :
    lastOr prev (a ++ [m]) = some m.ptr := by
  induction a generalizing prev with
  | nil => rfl
  | cons x a ih => exact ih _

lemma lastOr_of_ne_nil (prev : Option ℕ) (ha : a ≠ []) : lastOr prev a = lastOr none a := by
  cases a with
  | nil => exact absurd rfl ha
  | cons m a => rfl

lemma mem_of_lastOr {q : ℕ} (h : lastOr none a = some q) : ∃ m ∈ a, m.ptr = q := by
  obtain rfl | ⟨a,x,rfl⟩ := eq_nil_or_concat a
  · exact absurd h (by simp [lastOr])
  · rw [concat_eq_append,lastOr_concat] at h
    exact ⟨x,by simp,some.inj h⟩

lemma Holds.cut (h : Holds s g) (hm : g.members = a ++ m :: b) :
    Holds (s.cut g.ptr m.ptr (lastOr none a)) { g with members := a ++ b } := by
  have hlist := h.list
  have hnd := h.nodup
  rw [hm] at hlist hnd
  simp only [map_append,map_cons] at hlist hnd
  have hne : ∀ x ∈ a ++ b, x.ptr ≠ m.ptr := fun x hx he =>
    (nodup_middle.mp hnd).notMem (by
      rw [← he,← map_append]
      exact mem_map_of_mem hx)
  refine ⟨h.live,h.addr,?_,?_,?_,fun x hx => ?_⟩
  · have := h.count
    simp only [State.cut,update_self,this,hm,length_append,length_cons]
    omega
  · obtain rfl | ⟨a',x,rfl⟩ := eq_nil_or_concat a
    · simp only [lastOr,State.cut,update_self,nil_append]
      exact hlist.2
    · simp only [concat_eq_append,lastOr_concat,State.cut,map_append,map_cons,
        map_nil] at hlist hnd ⊢
      exact Chain.remove_cell hlist hnd
  · rw [map_append]
    exact (nodup_middle.mp hnd).of_cons
  · refine (h.node x ?_).congr (update_of_ne (hne x hx) _ _) rfl rfl rfl
    rw [hm]
    simp at hx ⊢
    tauto

lemma Rep.cut (h : Rep s db) (hdb : db i = pre ++ g :: post) (hm : g.members = a ++ m :: b) :
    Rep (s.cut g.ptr m.ptr (lastOr none a))
      (update db i (pre ++ [{ g with members := a ++ b }] ++ post)) := by
  have hg := h.holds i g (by simp [hdb])
  refine h.replace hdb rfl rfl rfl (hg.cut hm) (fun x hx hne => ?_)
    (fun n => cut_nodeFresh h.nodeFresh) h.entFresh
  refine hx.cut_other hne (fun y hy => hg.node_ne hx hne (by simp [hm]) hy) fun q hq => .inl ?_
  obtain ⟨z,hz,rfl⟩ := mem_of_lastOr hq
  exact fun y hy => hg.node_ne hx hne (by simp [hm,hz]) hy

lemma Holds.next_last (h : Holds s g) (hm : g.members = a ++ [m]) : s.next m.ptr = none := by
  have hlist := h.list
  rw [hm,map_append] at hlist
  exact Chain.next_eq hlist

lemma Rep.removeNode_last (h : Rep s db) (hdb : db i = pre ++ g :: post) (hm : g.members = [m])
    (hq : ∀ q, prev = some q → s.nodeLive q = true ∧ s.next q = none) :
    ∃ links, removeNode s g.ptr m.ptr prev =
      some ({ s.cut g.ptr m.ptr prev with
        links, entLive := update s.entLive g.ptr false },true) ∧
      Rep { s.cut g.ptr m.ptr prev with
        links, entLive := update s.entLive g.ptr false }
        (update db i (pre ++ post)) := by
  have hg := h.holds i g (by simp [hdb])
  have hnext : s.next m.ptr = none := hg.next_last (a := []) hm
  have hcount : s.portCount g.ptr = 1 := by simp [hg.count,hm]
  obtain ⟨links,hunlink,hrep⟩ := h.forget hdb (s.cut g.ptr m.ptr prev) rfl rfl
    (fun x hx hne => hx.cut_other hne (fun y hy => hg.node_ne hx hne (by simp [hm]) hy)
      fun q hp => .inr ((hq q hp).2.trans hnext.symm))
    (fun n => cut_nodeFresh h.nodeFresh) h.entFresh
  refine ⟨links,?_,hrep⟩
  rw [removeNode_eq fun q hp => (hq q hp).1,if_pos hcount,hunlink]
  rfl

end DslG624t.Bridge.Mfd
