import DslG624t.Bridge.MfdShape

/-!
# Membership reports

What `br_mfd_insert` does to the groups of a sound database: a member that is there is
renewed, another one is put in front of its group, and the first member of a group
brings a new entry at the head of its bucket.
-/

namespace DslG624t.Bridge.Mfd

open Function HashChain HeapList List

variable {s : State} {db : ℕ → List Group} {i : ℕ} {g : Group} {pre post : List Group} (source : ℕ)
  (addr : UInt32) (type : UInt8) {e fuel : ℕ}

lemma findPort_eq {ms : List Member} {pn : Option ℕ} (hc : Chain s.next pn (ms.map Member.ptr))
    (hn : ∀ m ∈ ms, HoldsNode s e m) (hf : ms.length < fuel) :
    findPort source fuel s pn = some ((ms.find? (·.dst = source)).map Member.ptr) := by
  refine Chain.walk (fun fuel => ?_) (fun m ms fuel hm ih => ?_) hc hn hf
  · simp [findPort]
  · by_cases hd : m.dst = source
    · simp [findPort,hm.live,hm.dst,hd]
    · simp [findPort,hm.live,hm.dst,hd,ih]

lemma Rep.findEntry_eq (h : Rep s db) :
    findEntry addr (s.ents+1) s (s.links.head (brAddrHash addr)) =
      some (((db (brAddrHash addr)).find? (·.addr = addr)).map Group.ptr) := by
  refine Chain.walk (fun fuel => ?_) (fun g gs fuel hg ih => ?_)
    (h.chained.chain (brAddrHash addr)) (h.holds _) (h.bucket_length _)
  · simp [findEntry]
  · by_cases ha : g.addr = addr
    · simp [findEntry,hg.live,hg.addr,ha]
    · simp [findEntry,hg.live,hg.addr,ha,ih]

def Member.renewed (m : Member) (type : UInt8) : Member :=
  { m with vinfo := m.vinfo || type == IGMP_V1_MEMBERSHIP_REPORT }

def reported (ms : List Member) (ptr source : ℕ) (type : UInt8) (alloc : Bool) : List Member :=
  if ms.any (·.dst = source) then
    ms.map fun m => if m.dst = source then m.renewed type else m
  else if alloc then ⟨ptr,source,type == IGMP_V1_MEMBERSHIP_REPORT⟩ :: ms
  else ms

section
variable (h : Holds s g)
include h

lemma Holds.renew (n : ℕ) :
    Holds (s.renew n type)
      { g with members := g.members.map fun m => if m.ptr = n then m.renewed type else m } := by
  have hptr : (g.members.map fun m => if m.ptr = n then m.renewed type else m).map Member.ptr =
      g.members.map Member.ptr := by
    rw [map_map]
    refine map_congr_left fun m _ => ?_
    by_cases hm : m.ptr = n <;> simp [hm,Member.renewed]
  refine ⟨h.live,h.addr,h.count.trans (by simp),?_,by simpa only [hptr] using h.nodup,
    fun x hx => ?_⟩
  · rw [hptr]
    exact h.list
  obtain ⟨m,hm,rfl⟩ := mem_map.mp hx
  have hm' := h.node m hm
  by_cases hn : m.ptr = n
  · subst hn
    simp only [if_true,Member.renewed]
    exact ⟨hm'.live,hm'.dst,by simp [State.renew,hm'.vinfo],hm'.mfd⟩
  · rw [if_neg hn]
    exact hm'.congr rfl rfl (update_of_ne hn _ _) rfl

lemma Holds.renew_other {n : ℕ} (hn : ∀ m ∈ g.members, m.ptr ≠ n) : Holds (s.renew n type) g :=
  ⟨h.live,h.addr,h.count,h.list,h.nodup,fun m hm =>
    (h.node m hm).congr rfl rfl (update_of_ne (hn m hm) _ _) rfl⟩

lemma Holds.addPort (hfresh : ∀ n, s.nodeLive n = true → n < s.nodes) :
    Holds (s.addPort g.ptr source type)
      { g with members := ⟨s.nodes,source,type == IGMP_V1_MEMBERSHIP_REPORT⟩ :: g.members } := by
  have hne : ∀ m ∈ g.members, m.ptr ≠ s.nodes := fun m hm =>
    ne_of_lt (hfresh m.ptr (h.node m hm).live)
  refine ⟨h.live,h.addr,?_,⟨by simp [State.addPort],?_⟩,?_,fun m hm => ?_⟩
  · simp [State.addPort,h.count]
  · have : (s.addPort g.ptr source type).next s.nodes = s.plist g.ptr := by simp [State.addPort]
    rw [this]
    refine h.list.congr fun x hx => update_of_ne ?_ _ _
    obtain ⟨m,hm,rfl⟩ := mem_map.mp hx
    exact hne m hm
  · refine nodup_cons.mpr ⟨fun hmem => ?_,h.nodup⟩
    obtain ⟨m,hm,he⟩ := mem_map.mp hmem
    exact hne m hm he
  obtain rfl | hm := mem_cons.mp hm
  · exact ⟨by simp [State.addPort],by simp [State.addPort],by simp [State.addPort],
      by simp [State.addPort]⟩
  · have := hne m hm
    exact (h.node m hm).congr (update_of_ne this _ _) (update_of_ne this _ _)
      (update_of_ne this _ _) (update_of_ne this _ _)

lemma Holds.addPort_other (he : g.ptr ≠ e)
    (hfresh : ∀ n, s.nodeLive n = true → n < s.nodes) : Holds (s.addPort e source type) g := by
  have hne : ∀ m ∈ g.members, m.ptr ≠ s.nodes := fun m hm =>
    ne_of_lt (hfresh m.ptr (h.node m hm).live)
  refine h.congr rfl rfl (update_of_ne he _ _) (update_of_ne he _ _)
    (fun m hm => update_of_ne (hne m hm) _ _) fun m hm => ?_
  have := hne m hm
  exact (h.node m hm).congr (update_of_ne this _ _) (update_of_ne this _ _)
    (update_of_ne this _ _) (update_of_ne this _ _)

/-- A timer that runs in `s'` ran in `s` or is that of one of the members. -/
def PendsFrom (s s' : State) (ms : List Member) : Prop :=
  ∀ n, s'.pending n = true → s.pending n = true ∨ ∃ m ∈ ms, m.ptr = n

lemma mfdInsertPort_eq (hfresh : ∀ n, s.nodeLive n = true → n < s.nodes)
    (hlen : g.members.length < s.nodes+1) (hdst : (g.members.map Member.dst).Nodup)
    (alloc : Bool) :
    ∃ s', mfdInsertPort s g.ptr source type alloc = some s' ∧
      Holds s' { g with members := reported g.members s.nodes source type alloc } ∧
      (∀ x, Holds s x → x.ptr ≠ g.ptr → Holds s' x) ∧ s'.links = s.links ∧
      s'.entLive = s.entLive ∧ s'.ents = s.ents ∧ (∀ n, s'.nodeLive n = true → n < s'.nodes) ∧
      PendsFrom s s' (reported g.members s.nodes source type alloc) := by
  have hfind := findPort_eq source h.list h.node hlen
  rcases hm : g.members.find? (·.dst = source) with _ | m
  · have hany : g.members.any (·.dst = source) = false := by
      simpa [any_eq_false] using hm
    cases alloc with
    | true =>
      refine ⟨s.addPort g.ptr source type,by simp [mfdInsertPort,hfind,hm],?_,
        fun x hx hne => hx.addPort_other source type hne hfresh,rfl,rfl,rfl,fun n hn => ?_,fun n hn => ?_⟩
      · simpa [reported,hany] using h.addPort source type hfresh
      · by_cases hns : n = s.nodes
        · simp [State.addPort,hns]
        · have := hfresh n (by simpa [State.addPort,hns] using hn)
          exact Nat.lt_succ_of_lt this
      · by_cases hns : n = s.nodes
        · exact .inr ⟨⟨s.nodes,source,type == IGMP_V1_MEMBERSHIP_REPORT⟩,
            by simp [reported,hany],hns.symm⟩
        · exact .inl (by simpa [State.addPort,hns] using hn)
    | false =>
      refine ⟨s,by simp [mfdInsertPort,hfind,hm],?_,fun x hx _ => hx,rfl,rfl,rfl,hfresh,
        fun n => .inl⟩
      simpa [reported,hany] using h
  have hmem := mem_of_find?_eq_some hm
  have hsrc : m.dst = source := by simpa using find?_some hm
  have hany : g.members.any (·.dst = source) = true := by
    simp only [any_eq_true]
    exact ⟨m,hmem,by simpa using hsrc⟩
  -- with one node per port, the node found is the only one the report can mean
  have hsame : g.members.map (fun x => if x.ptr = m.ptr then x.renewed type else x) =
      g.members.map fun x => if x.dst = source then x.renewed type else x := by
    refine map_congr_left fun x hx => ?_
    have : x.ptr = m.ptr ↔ x.dst = source := by
      rw [← hsrc]
      refine ⟨fun he => ?_,fun he => ?_⟩
      · rw [inj_on_of_nodup_map h.nodup hx hmem he]
      · rw [inj_on_of_nodup_map hdst hx hmem he]
    simp [this]
  refine ⟨s.renew m.ptr type,by simp [mfdInsertPort,hfind,hm],?_,
    fun x hx hne => hx.renew_other type fun y hy => h.node_ne hx hne hmem hy,rfl,rfl,rfl,hfresh,
    fun n hn => ?_⟩
  · have := h.renew type m.ptr
    rw [hsame] at this
    simpa [reported,hany] using this
  by_cases hnm : n = m.ptr
  · refine .inr ⟨m.renewed type,?_,hnm.symm⟩
    rw [reported,if_pos hany]
    exact mem_map.mpr ⟨m,hmem,by simp [hsrc]⟩
  · exact .inl (by simpa [State.renew,hnm] using hn)

end

lemma brMfdInsert_known (h : Rep s db) (hdb : db (brAddrHash addr) = pre ++ g :: post)
    (hpre : ∀ x ∈ pre, x.addr ≠ addr) (hg : g.addr = addr)
    (hdst : (g.members.map Member.dst).Nodup) (allocEntry allocPort : Bool) :
    ∃ s', brMfdInsert s source addr type allocEntry allocPort = some s' ∧
      Rep s' (update db (brAddrHash addr)
        (pre ++ [{ g with members := reported g.members s.nodes source type allocPort }] ++ post)) ∧
      PendsFrom s s' (reported g.members s.nodes source type allocPort) := by
  have hhold := h.holds _ g (by rw [hdb]; simp)
  obtain ⟨s',hinsert,hg',hother,hlinks,hlive,hents,hfresh,hpending⟩ := mfdInsertPort_eq
    source type hhold h.nodeFresh (h.members_length hhold) hdst allocPort
  refine ⟨s',?_,h.replace hdb hlinks rfl rfl hg' hother hfresh
    (by rw [hlive,hents]; exact h.entFresh),hpending⟩
  have hfind := h.findEntry_eq addr
  have hfirst : (db (brAddrHash addr)).find? (·.addr = addr) = some g := by
    rw [hdb,find?_append,find?_eq_none.mpr (by simpa using hpre)]
    simp [hg]
  simp [brMfdInsert,hfind,hfirst,hinsert]

lemma holds_addEntry (s : State) (addr : UInt32) : Holds (s.addEntry addr) ⟨s.ents,addr,[]⟩ :=
  ⟨by simp [State.addEntry],by simp [State.addEntry],by simp [State.addEntry],
    by simp [State.addEntry],by simp,by simp⟩

lemma Holds.addEntry (h : Holds s g) (hlt : g.ptr < s.ents) (addr : UInt32) :
    Holds (s.addEntry addr) g := by
  have hne := ne_of_lt hlt
  exact h.congr (update_of_ne hne _ _) (update_of_ne hne _ _) (update_of_ne hne _ _)
    (update_of_ne hne _ _) (fun _ _ => rfl) fun m hm => (h.node m hm).congr rfl rfl rfl rfl

lemma Holds.setLinks (h : Holds s g) (links : Links ℕ ℕ) : Holds { s with links := links } g :=
  ⟨h.live,h.addr,h.count,h.list,h.nodup,fun m hm => (h.node m hm).congr rfl rfl rfl rfl⟩

lemma Rep.link {s' : State} (h : Rep s db) (hlinks : s'.links = s.links)
    (hlt : ∀ i, ∀ x ∈ db i, x.ptr < g.ptr) (hg : Holds s' g) (hin : ∀ i, ∀ x ∈ db i, Holds s' x)
    (hnode : ∀ n, s'.nodeLive n = true → n < s'.nodes)
    (hent : ∀ e, s'.entLive e = true → e < s'.ents) :
    Rep { s' with links := s'.links.link (brAddrHash g.addr) g.ptr }
      (update db (brAddrHash g.addr) (g :: db (brAddrHash g.addr))) := by
  have hcases {j : ℕ} {x : Group}
      (hx : x ∈ update db (brAddrHash g.addr) (g :: db (brAddrHash g.addr)) j) :
      x = g ∧ j = brAddrHash g.addr ∨ x ∈ db j := by
    by_cases hj : j = brAddrHash g.addr
    · subst hj
      rw [update_self,mem_cons] at hx
      exact hx.imp_left fun hx => ⟨hx,rfl⟩
    · rw [update_of_ne hj] at hx
      exact .inr hx
  refine ⟨?_,fun j x hx => ?_,fun j x hx => ?_,hnode,hent⟩
  · have hsame : (fun j => (update db (brAddrHash g.addr)
        (g :: db (brAddrHash g.addr)) j).map Group.ptr) =
          update (fun j => (db j).map Group.ptr) (brAddrHash g.addr)
            (g.ptr :: (db (brAddrHash g.addr)).map Group.ptr) := by
      funext j
      by_cases hj : j = brAddrHash g.addr
      · subst hj
        simp
      · simp [hj]
    rw [hsame,hlinks]
    refine h.chained.link fun c hc => ?_
    obtain ⟨x,hx,he⟩ := mem_map.mp hc
    exact ne_of_lt (hlt c x hx) he
  · obtain ⟨rfl,-⟩ | hx := hcases hx
    · exact hg.setLinks _
    · exact (hin j x hx).setLinks _
  · obtain ⟨rfl,rfl⟩ | hx := hcases hx
    · rfl
    · exact h.hash j x hx

lemma brMfdInsert_new (h : Rep s db) (hdb : ∀ x ∈ db (brAddrHash addr), x.addr ≠ addr)
    (allocPort : Bool) :
    ∃ s', brMfdInsert s source addr type true allocPort = some s' ∧
      Rep s' (update db (brAddrHash addr)
        (⟨s.ents,addr,reported [] s.nodes source type allocPort⟩ :: db (brAddrHash addr))) ∧
      PendsFrom s s' (reported [] s.nodes source type allocPort) := by
  have hfind := h.findEntry_eq addr
  have hnone : (db (brAddrHash addr)).find? (·.addr = addr) = none :=
    find?_eq_none.mpr (by simpa using hdb)
  have hlt : ∀ i, ∀ x ∈ db i, x.ptr < s.ents := fun i x hx => h.entFresh _ (h.holds i x hx).live
  obtain ⟨s',hinsert,hg',hother,hlinks,hlive,hents,hfresh,hpending⟩ := mfdInsertPort_eq
    source type (holds_addEntry s addr) h.nodeFresh (by simp [State.addEntry]) (by simp) allocPort
  have hin : ∀ i, ∀ x ∈ db i, Holds s' x := fun i x hx =>
    hother x ((h.holds i x hx).addEntry (hlt i x hx) addr) (ne_of_lt (hlt i x hx))
  have hent : ∀ e, s'.entLive e = true → e < s'.ents := by
    intro e he
    rw [hlive] at he
    rw [hents]
    by_cases hse : e = s.ents
    · simp [State.addEntry,hse]
    · exact Nat.lt_succ_of_lt (h.entFresh e (by simpa [State.addEntry,hse] using he))
  have hrep := h.link (g := ⟨s.ents,addr,reported [] s.nodes source type allocPort⟩) hlinks hlt hg'
    hin hfresh hent
  refine ⟨_,?_,hrep,hpending⟩
  have hall : (s'.links.head (brAddrHash addr)).all s'.entLive = true := by
    rw [hlinks]
    change (s.links.head (brAddrHash addr)).all s'.entLive = true
    rw [h.chained.head_eq,head?_map]
    rcases hb : db (brAddrHash addr) with _ | ⟨x,xs⟩
    · rfl
    · exact (hin _ x (by rw [hb]; simp)).live
  simp [brMfdInsert,hfind,hnone,hinsert,mfdHashLink,hall]

lemma brMfdInsert_noEntry (h : Rep s db) (hdb : ∀ x ∈ db (brAddrHash addr), x.addr ≠ addr)
    (allocPort : Bool) : brMfdInsert s source addr type false allocPort = some s := by
  have hfind := h.findEntry_eq addr
  have hnone : (db (brAddrHash addr)).find? (·.addr = addr) = none :=
    find?_eq_none.mpr (by simpa using hdb)
  simp [brMfdInsert,hfind,hnone]

lemma flat_update {b : ℕ} (hb : b < BR_HASH_SIZE) (db : ℕ → List Group) :
    ∃ A C, ∀ l, flat (update db b l) = A ++ l ++ C := by
  have hrange : range BR_HASH_SIZE =
      range b ++ b :: (range (BR_HASH_SIZE-b-1)).map (·+(b+1)) := by
    have : BR_HASH_SIZE = b+(1+(BR_HASH_SIZE-b-1)) := by omega
    rw [this,range_add,add_comm 1,range_succ_eq_map]
    simp [comp_def,add_comm,add_left_comm]
  refine ⟨(range b).flatMap db,((range (BR_HASH_SIZE-b-1)).map (·+(b+1))).flatMap db,fun l => ?_⟩
  rw [flat,hrange,flatMap_append,flatMap_cons,update_self,append_assoc]
  congr 1
  · refine flatMap_congr fun j hj => update_of_ne ?_ _ _
    exact ne_of_lt (mem_range.mp hj)
  · congr 1
    refine flatMap_congr fun j hj => update_of_ne ?_ _ _
    obtain ⟨k,-,rfl⟩ := mem_map.mp hj
    omega

lemma brMfdInsert_flat (h : Rep s db) (haddrs : ((flat db).map Group.addr).Nodup)
    (hports : ∀ g ∈ flat db, (g.members.map Member.dst).Nodup) (allocEntry allocPort : Bool) :
    ∃ s' db', brMfdInsert s source addr type allocEntry allocPort = some s' ∧ Rep s' db' ∧
      ((∃ A g C, flat db = A ++ g :: C ∧ g.addr = addr ∧ flat db' = A ++
          { g with members := reported g.members s.nodes source type allocPort } :: C ∧
        PendsFrom s s' (reported g.members s.nodes source type allocPort)) ∨
      (∀ x ∈ flat db, x.addr ≠ addr) ∧ ((∃ A C, flat db = A ++ C ∧
          flat db' = A ++ ⟨s.ents,addr,reported [] s.nodes source type allocPort⟩ :: C ∧
          allocEntry = true ∧ PendsFrom s s' (reported [] s.nodes source type allocPort)) ∨
        allocEntry = false ∧ s' = s ∧ flat db' = flat db)) := by
  obtain ⟨A,C,hflat⟩ := flat_update (brAddrHash_lt addr) db
  have hself : flat db = A ++ db (brAddrHash addr) ++ C := by
    rw [← hflat,update_eq_self]
  by_cases hknown : ∃ g ∈ db (brAddrHash addr), g.addr = addr
  · obtain ⟨g,hg,rfl⟩ := hknown
    obtain ⟨pre,post,hdb⟩ := append_of_mem hg
    have hpre : ∀ x ∈ pre, x.addr ≠ g.addr := fun x hx he => by
      rw [hself,hdb] at haddrs
      simp only [map_append,map_cons,append_assoc] at haddrs
      exact (nodup_append.mp (nodup_append.mp haddrs).2.1).2.2 x.addr
        (mem_map_of_mem hx) g.addr (by simp) he
    obtain ⟨s',hinsert,hrep,hpending⟩ := brMfdInsert_known source g.addr type h hdb hpre rfl
      (hports g (h.mem_flat hg)) allocEntry allocPort
    refine ⟨s',_,hinsert,hrep,.inl ⟨A ++ pre,g,post ++ C,?_,rfl,?_,hpending⟩⟩
    · simp [hself,hdb]
    · simp [hflat]
  have hnew : ∀ x ∈ db (brAddrHash addr), x.addr ≠ addr := fun x hx he => hknown ⟨x,hx,he⟩
  have hall : ∀ x ∈ flat db, x.addr ≠ addr := fun x hx he => by
    obtain ⟨j,-,hxj⟩ := mem_flatMap.mp hx
    have hj := h.hash j x hxj
    rw [he] at hj
    exact hnew x (hj ▸ hxj) he
  cases allocEntry with
  | false =>
    exact ⟨s,db,brMfdInsert_noEntry source addr type h hnew allocPort,h,
      .inr ⟨hall,.inr ⟨rfl,rfl,rfl⟩⟩⟩
  | true =>
    obtain ⟨s',hinsert,hrep,hpending⟩ := brMfdInsert_new source addr type h hnew allocPort
    refine ⟨s',_,hinsert,hrep,.inr ⟨hall,.inl ⟨A,db (brAddrHash addr) ++ C,?_,?_,rfl,hpending⟩⟩⟩
    · simp [hself]
    · simp [hflat]

end DslG624t.Bridge.Mfd
