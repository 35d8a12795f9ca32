import DslG624t.Bridge.MfdShape

/-!
# The removal loops over the table

A removal walks every chain of every bucket and carries `prev_pnode` from one group to the next.
-/

namespace DslG624t.Bridge.Mfd

open Function HashChain HeapList List Option

variable {σ : Type} {s : State} {db : ℕ → List Group} {i : ℕ} {g : Group} {pre post : List Group}

def sweep (step : σ → Group → Option (Option Group × σ)) : σ → List Group →
    Option (List Group × σ)
  | st, [] => some ([],st)
  | st, g :: gs => do
    let r ← step st g
    let o ← sweep step r.2 gs
    some (r.1.toList ++ o.1,o.2)

variable {step : σ → Group → Option (Option Group × σ)} {st st' : σ} {visit : Visit}
  {Good : State → Option ℕ → σ → List Group → Prop} {gs out : List Group} {fuel : ℕ}
  {a b : List Member} {m : Member} {pn prev : Option ℕ} {todo : List Group} {e f p : ℕ}

lemma sweep_cons_eq_some (h : sweep step st (g :: gs) = some (out,st')) :
    ∃ og st1 out1, step st g = some (og,st1) ∧ sweep step st1 gs = some (out1,st') ∧
      out = og.toList ++ out1 := by
  simp only [sweep,bind_eq_bind,bind_eq_some_iff,some.injEq,Prod.mk.injEq] at h
  obtain ⟨⟨og,st1⟩,hstep,⟨out1,st2⟩,hrest,rfl,rfl⟩ := h
  exact ⟨og,st1,out1,hstep,hrest,rfl⟩

lemma sweep_append_eq_some {a b out : List Group}
    (h : sweep step st (a ++ b) = some (out,st')) :
    ∃ out1 st1 out2, sweep step st a = some (out1,st1) ∧ sweep step st1 b = some (out2,st') ∧
      out = out1 ++ out2 := by
  induction a generalizing st out with
  | nil => exact ⟨[],st,out,rfl,h,rfl⟩
  | cons g a ih =>
    obtain ⟨og,st1,out1,hstep,hrest,rfl⟩ := sweep_cons_eq_some h
    obtain ⟨out2,st2,out3,h2,h3,rfl⟩ := ih hrest
    exact ⟨og.toList ++ out2,st2,out3,by simp [sweep,hstep,h2],h3,by simp⟩

/-- One group visited in a state that holds it does what `step` does with the group. The
groups still to come are `post` in this chain and `more` in later ones; leaving the
chain early is only right when nothing in it would change. -/
def Simulates (visit : Visit) (step : σ → Group → Option (Option Group × σ))
    (Good : State → Option ℕ → σ → List Group → Prop) : Prop :=
  ∀ ⦃s db i pre g post more prev st og st'⦄, Rep s db → db i = pre ++ g :: post →
    ((g :: (post ++ more)).map Group.ptr).Nodup → Good s prev st (g :: (post ++ more)) →
    step st g = some (og,st') →
    ∃ s' prev' stop, visit s g.ptr prev = some (s',prev',stop) ∧
      Rep s' (update db i (pre ++ og.toList ++ post)) ∧
      Good s' prev' st' (post ++ more) ∧
      (stop = true → sweep step st' post = some (post,st') ∧ Good s' prev' st' more)

lemma overChain_sim (hsim : Simulates visit step Good) {todo more out : List Group} (h : Rep s db)
    (hdb : db i = pre ++ todo) (hn : ((todo ++ more).map Group.ptr).Nodup)
    (hgood : Good s prev st (todo ++ more)) (hsweep : sweep step st todo = some (out,st'))
    (hf : todo.length < fuel) :
    ∃ s' prev', overChain visit fuel s (todo.head?.map Group.ptr) prev = some (s',prev') ∧
      Rep s' (update db i (pre ++ out)) ∧ Good s' prev' st' more := by
  induction todo generalizing s db pre prev st out fuel with
  | nil =>
    obtain ⟨fuel,rfl⟩ := Nat.exists_eq_add_of_lt hf
    obtain ⟨rfl,rfl⟩ : [] = out ∧ st = st' := by simpa [sweep] using hsweep
    refine ⟨s,prev,by simp [overChain],?_,hgood⟩
    rw [← hdb,update_eq_self]
    exact h
  | cons g todo ih =>
    obtain ⟨fuel,rfl⟩ : ∃ k, fuel = k+1 := ⟨fuel-1,by simp at hf; omega⟩
    obtain ⟨og,st1,out1,hstep,hrest,rfl⟩ := sweep_cons_eq_some hsweep
    obtain ⟨s',prev',stop,hvisit,hrep,hgood',hstop⟩ := hsim h hdb hn hgood hstep
    have hlive := (h.holds i g (by simp [hdb])).live
    have hnext : s.links.next g.ptr = todo.head?.map Group.ptr := by
      have ht : (db i).map Group.ptr = pre.map Group.ptr ++ g.ptr :: todo.map Group.ptr := by
        simp [hdb]
      rw [h.chained.next_eq ht,head?_map]
    cases stop with
    | true =>
      obtain ⟨hsame,hmore⟩ := hstop rfl
      obtain ⟨rfl,rfl⟩ : todo = out1 ∧ st1 = st' := by simpa [hsame] using hrest
      refine ⟨s',prev',by simp [overChain,hlive,hvisit],?_,hmore⟩
      rw [← append_assoc]
      exact hrep
    | false =>
      have hdb' : update db i (pre ++ og.toList ++ todo) i = pre ++ og.toList ++ todo :=
        update_self ..
      obtain ⟨s2,prev2,hchain,hrep2,hgood2⟩ := ih hrep hdb'
        (nodup_cons.mp hn).2 hgood' hrest (by simpa using hf)
      refine ⟨s2,prev2,?_,?_,hgood2⟩
      · simp [overChain,hlive,hvisit,hnext,hchain]
      · rw [update_idem] at hrep2
        rw [← append_assoc]
        exact hrep2

lemma overBuckets_sim (hsim : Simulates visit step Good) {is : List ℕ} (h : Rep s db)
    (his : is.Nodup) (hn : ((is.flatMap db).map Group.ptr).Nodup)
    (hgood : Good s prev st (is.flatMap db))
    (hsweep : sweep step st (is.flatMap db) = some (out,st')) :
    ∃ s' prev' db', is.foldlM (fun (r : State × Option ℕ) i =>
      overChain visit (r.1.ents+1) r.1 (r.1.links.head i) r.2) (s,prev) = some (s',prev') ∧
      Rep s' db' ∧ (∀ j ∉ is, db' j = db j) ∧ is.flatMap db' = out ∧ Good s' prev' st' [] := by
  induction is generalizing s db prev st out with
  | nil =>
    obtain ⟨rfl,rfl⟩ : [] = out ∧ st = st' := by simpa [sweep] using hsweep
    exact ⟨s,prev,db,rfl,h,fun _ _ => rfl,rfl,hgood⟩
  | cons i is ih =>
    obtain ⟨hi,his⟩ := nodup_cons.mp his
    rw [flatMap_cons] at hn hgood hsweep
    obtain ⟨out1,st1,out2,h1,h2,rfl⟩ := sweep_append_eq_some hsweep
    obtain ⟨s',prev',hchain,hrep,hgood'⟩ :=
      overChain_sim hsim h (show db i = [] ++ db i from rfl) hn hgood h1 (h.bucket_length i)
    have hhead : s.links.head i = (db i).head?.map Group.ptr := by
      rw [h.chained.head_eq,head?_map]
    have hsame : is.flatMap (update db i ([] ++ out1)) = is.flatMap db := by
      refine flatMap_congr fun j hj => update_of_ne ?_ _ _
      rintro rfl
      exact hi hj
    obtain ⟨s2,prev2,db2,hfold,hrep2,hkeep,hout,hgood2⟩ := ih hrep his
      (by rw [hsame]; exact (map_append ▸ hn).of_append_right)
      (by rw [hsame]; exact hgood') (by rw [hsame]; exact h2)
    refine ⟨s2,prev2,db2,?_,hrep2,fun j hj => ?_,?_,hgood2⟩
    · simp only [foldlM_cons,hhead,hchain,bind_eq_bind,bind_some]
      exact hfold
    · rw [mem_cons,not_or] at hj
      rw [hkeep j hj.2,update_of_ne hj.1]
    · rw [flatMap_cons,hout,hkeep i hi,update_self,nil_append]

lemma Rep.flat_nodup (h : Rep s db) : ((flat db).map Group.ptr).Nodup := by
  rw [flat,map_flatMap,nodup_flatMap]
  refine ⟨fun i _ => h.chained.nodup i,List.Nodup.pairwise_of_forall_ne nodup_range ?_⟩
  intro i _ j _ hij x hi hj
  exact hij (h.chained.apart i j x hi hj)

lemma overTable_sim (hsim : Simulates visit step Good) (h : Rep s db)
    (hgood : Good s none st (flat db)) (hsweep : sweep step st (flat db) = some (out,st')) :
    ∃ s' db', overTable visit s = some s' ∧ Rep s' db' ∧ flat db' = out ∧
      ∃ prev', Good s' prev' st' [] := by
  obtain ⟨s',prev',db',hfold,hrep,-,hout,hgood'⟩ :=
    overBuckets_sim hsim h nodup_range h.flat_nodup hgood hsweep
  exact ⟨s',db',by rw [overTable,hfold]; rfl,hrep,hout,prev',hgood'⟩

/-- `prev_pnode` when a group is reached: null, the last node of a list, or a node with
others behind it. -/
inductive Prev
  | null
  | last
  | inner
  deriving DecidableEq

def PrevIs (s : State) (prev : Option ℕ) (st : Prev) (todo : List Group) : Prop :=
  match st with
  | .null => prev = none
  | .last => ∃ q, prev = some q ∧ s.nodeLive q = true ∧ s.next q = none ∧
    ∀ x ∈ todo, s.mfd q ≠ x.ptr
  | .inner => True

lemma prevIs_null (todo : List Group) : PrevIs s none .null todo := rfl

lemma PrevIs.mono {st : Prev} {todo todo' : List Group} (h : PrevIs s prev st todo)
    (hsub : ∀ x ∈ todo', x ∈ todo) : PrevIs s prev st todo' := by
  cases st with
  | null => exact h
  | last =>
    obtain ⟨q,rfl,hlive,hnext,hmfd⟩ := h
    exact ⟨q,rfl,hlive,hnext,fun x hx => hmfd x (hsub x hx)⟩
  | inner => trivial

section

variable {s' : State} {st : Prev}

lemma PrevIs.ends (h : PrevIs s prev st (g :: todo)) (hst : st ≠ .inner) :
    ∀ q, prev = some q → s.nodeLive q = true ∧ s.next q = none ∧ s.mfd q ≠ g.ptr := by
  rintro q rfl
  cases st with
  | null => cases h
  | inner => exact absurd rfl hst
  | last =>
    obtain ⟨_,⟨rfl⟩,hlive,hnext,hmfd⟩ := h
    exact ⟨hlive,hnext,hmfd g mem_cons_self⟩

lemma PrevIs.passed (h : PrevIs s prev st (g :: todo)) (hmfd : s'.mfd = s.mfd)
    (hq : ∀ q, prev = some q → s'.nodeLive q = true ∧ s'.next q = none) :
    PrevIs s' prev st todo := by
  cases st with
  | null => exact h
  | inner => trivial
  | last =>
    obtain ⟨q,rfl,-,-,htodo⟩ := h
    obtain ⟨hlive,hnext⟩ := hq q rfl
    exact ⟨q,rfl,hlive,hnext,fun x hx => hmfd ▸ htodo x (mem_cons_of_mem _ hx)⟩

end

/-- The inner loop has made of the groups `db'`, and the timers are as they were. -/
def Visited (s : State) (r : Option (State × Option ℕ)) (db' : ℕ → List Group) (st' : Prev)
    (todo : List Group) : Prop :=
  ∃ s' prev', r = some (s',prev') ∧ Rep s' db' ∧ s'.pending = s.pending ∧ PrevIs s' prev' st' todo

lemma Holds.prevIs_last (h : Holds s g) (prev : Option ℕ) (hne : g.members ≠ [])
    (htodo : ∀ x ∈ todo, g.ptr ≠ x.ptr) :
    PrevIs s (lastOr prev g.members) .last todo := by
  obtain hm | ⟨a,x,hm⟩ := eq_nil_or_concat g.members
  · exact absurd hm hne
  rw [concat_eq_append] at hm
  have hx := h.node x (by simp [hm])
  refine ⟨x.ptr,by rw [hm,lastOr_concat],hx.live,h.next_last hm,?_⟩
  rw [hx.mfd]
  exact htodo

/-- What removing `p` does to a group, and where it leaves `prev_pnode`. It is `none` when
`p` comes first and the list is closed behind a node of an earlier group, except where
that node ends its list and the group ends with `p`. -/
def dropStep (p : ℕ) (st : Prev) (g : Group) : Option (Option Group × Prev) :=
  match g.members with
  | [] => some (some g,st)
  | m :: ms =>
    if m.dst = p then
      match st, ms with
      | .inner, _ => none
      | .last, _ :: _ => none
      | _, [] => some (none,st)
      | .null, _ :: _ => some (some { g with members := ms },.null)
    else
      match ms.dropWhile (·.dst ≠ p) with
      | [] => some (some g,.last)
      | _ :: b => some (some { g with members := m :: ms.takeWhile (·.dst ≠ p) ++ b },
        if b.isEmpty then .last else .inner)

lemma dropStep_of_ne {ms : List Member} (hm : g.members = m :: ms) (hp : m.dst ≠ p) (st : Prev) :
    ((∀ x ∈ g.members, x.dst ≠ p) ∧ dropStep p st g = some (some g,.last)) ∨
      ∃ a x b, g.members = a ++ x :: b ∧ a ≠ [] ∧ (∀ y ∈ a, y.dst ≠ p) ∧ x.dst = p ∧
        dropStep p st g = some (some { g with members := a ++ b },
          if b.isEmpty then .last else .inner) := by
  have hsplit := takeWhile_append_dropWhile (p := fun x : Member => decide (x.dst ≠ p)) (l := ms)
  have htake : ∀ x ∈ m :: ms.takeWhile (fun x => decide (x.dst ≠ p)), x.dst ≠ p :=
    forall_mem_cons.mpr ⟨hp,fun x hx => by simpa using mem_takeWhile_imp hx⟩
  rw [dropStep,hm]
  simp only [if_neg hp]
  rcases hd : ms.dropWhile (fun x => decide (x.dst ≠ p)) with _ | ⟨x,b⟩
  · rw [hd,append_nil] at hsplit
    exact .inl ⟨hsplit ▸ htake,by simp only [hd]⟩
  have hx := head?_dropWhile_not (fun x : Member => decide (x.dst ≠ p)) ms
  rw [hd] at hsplit hx
  exact .inr ⟨_,x,b,by rw [cons_append,hsplit],cons_ne_nil _ _,htake,by simpa using hx,
    by simp only [hd]⟩

lemma dropPort_absent {ms : List Member} (hc : Chain s.next pn (ms.map Member.ptr))
    (hn : ∀ m ∈ ms, HoldsNode s e m) (hp : ∀ m ∈ ms, m.dst ≠ p) (hf : ms.length < fuel) :
    dropPort p f fuel s pn prev = some (s,lastOr prev ms) := by
  have hms : ∀ m ∈ ms, HoldsNode s e m ∧ m.dst ≠ p := fun m hm => ⟨hn m hm,hp m hm⟩
  suffices h : ∀ prev, dropPort p f fuel s pn prev = some (s,lastOr prev ms) from h prev
  refine Chain.walk (fun fuel => ?_) (fun m ms fuel hm ih => ?_) hc hms hf
  · simp [dropPort,lastOr]
  · simp [dropPort,hm.1.live,hm.1.dst,hm.2,ih,lastOr]

lemma dropPort_found (hc : Chain s.next pn ((a ++ m :: b).map Member.ptr))
    (hn : ∀ x ∈ a ++ m :: b, HoldsNode s e x) (ha : ∀ x ∈ a, x.dst ≠ p) (hm : m.dst = p)
    (hf : a.length < fuel) :
    dropPort p f fuel s pn prev =
      (removeNode s f m.ptr (lastOr prev a)).map fun r => (r.1,lastOr prev a) := by
  induction a generalizing pn prev fuel with
  | nil =>
    obtain ⟨fuel,rfl⟩ := Nat.exists_eq_add_of_lt hf
    obtain ⟨rfl,-⟩ := hc
    have hx := hn m (by simp)
    simp [dropPort,hx.live,hx.dst,hm,lastOr]
  | cons x a ih =>
    obtain ⟨fuel,rfl⟩ : ∃ k, fuel = k+1 := ⟨fuel-1,by simp at hf; omega⟩
    obtain ⟨rfl,hc⟩ := hc
    obtain ⟨hx,hxs⟩ := forall_mem_cons.mp hn
    obtain ⟨hpx,hpxs⟩ := forall_mem_cons.mp ha
    simp [dropPort,hx.live,hx.dst,hpx,ih hc hxs hpxs (by simpa using hf),lastOr]

lemma Rep.removeNode_keep (h : Rep s db) (hdb : db i = pre ++ g :: post)
    (hm : g.members = a ++ m :: b) (hne : a ++ b ≠ []) :
    removeNode s g.ptr m.ptr (lastOr none a) =
      some (s.cut g.ptr m.ptr (lastOr none a),false) := by
  have hg := h.holds i g (by simp [hdb])
  have hcount : s.portCount g.ptr ≠ 1 := by
    have := length_pos_of_ne_nil hne
    simp only [length_append] at this
    simp only [hg.count,hm,length_append,length_cons]
    omega
  rw [removeNode_eq fun q hq => ?_,if_neg hcount]
  obtain ⟨x,hx,rfl⟩ := mem_of_lastOr hq
  exact (hg.node x (by simp [hm,hx])).live

section

variable {st st' : Prev} {og : Option Group} {ms : List Member} (h : Rep s db)
  (hdb : db i = pre ++ g :: post) (hstep : dropStep p st g = some (og,st'))
include h hdb hstep

lemma dropPort_head (hm : g.members = m :: ms) (hp : m.dst = p)
    (hprev : PrevIs s prev st (g :: todo)) :
    Visited s (dropPort p g.ptr (s.nodes+1) s (s.plist g.ptr) prev)
      (update db i (pre ++ og.toList ++ post)) st' todo := by
  have hg := h.holds i g (by simp [hdb])
  have hwalk : dropPort p g.ptr (s.nodes+1) s (s.plist g.ptr) prev =
      (removeNode s g.ptr m.ptr prev).map fun r => (r.1,prev) :=
    dropPort_found (a := []) (hm ▸ hg.list) (hm ▸ hg.node) (by simp) hp (by simp)
  simp only [dropStep,hm,hp,if_true] at hstep
  rw [hwalk]
  rcases ms with _ | ⟨m',ms⟩
  · have hst : st ≠ .inner := by
      rintro rfl
      simp at hstep
    obtain ⟨rfl,rfl⟩ : none = og ∧ st = st' := by
      cases st with
      | inner => exact absurd rfl hst
      | null => simpa using hstep
      | last => simpa using hstep
    have hq := hprev.ends hst
    obtain ⟨links,hremove,hrep⟩ := h.removeNode_last hdb hm fun q hp =>
      ⟨(hq q hp).1,(hq q hp).2.1⟩
    refine ⟨_,prev,congrArg (Option.map _) hremove,by simpa using hrep,rfl,
      hprev.passed rfl ?_⟩
    rintro q rfl
    obtain ⟨hlive,-,hmfd⟩ := hq q rfl
    have hqm : q ≠ m.ptr := by
      rintro rfl
      exact hmfd (hg.node m (by simp [hm])).mfd
    exact ⟨(update_of_ne hqm _ _).trans hlive,(update_self ..).trans (hg.next_last (a := []) hm)⟩
  obtain ⟨rfl,rfl,rfl⟩ : st = .null ∧ some { g with members := m' :: ms } = og ∧
    Prev.null = st' := by cases st <;> simp_all
  obtain rfl : prev = none := hprev
  have hremove := h.removeNode_keep (a := []) (b := m' :: ms) hdb hm (by simp)
  have hrep := h.cut (a := []) (b := m' :: ms) hdb hm
  exact ⟨_,none,by rw [show (none : Option ℕ) = lastOr none [] from rfl,hremove]; rfl,hrep,rfl,rfl⟩

lemma dropPort_behind (hm : g.members = m :: ms) (hp : m.dst ≠ p)
    (htodo : ∀ x ∈ todo, g.ptr ≠ x.ptr) :
    Visited s (dropPort p g.ptr (s.nodes+1) s (s.plist g.ptr) prev)
      (update db i (pre ++ og.toList ++ post)) st' todo := by
  have hg := h.holds i g (by simp [hdb])
  have hfuel := h.members_length hg
  obtain ⟨habs,hdrop⟩ | ⟨a,x,b,hmem,hne,hane,hx,hdrop⟩ := dropStep_of_ne hm hp st
  · cases hdrop.symm.trans hstep
    exact ⟨s,_,dropPort_absent hg.list hg.node habs hfuel,h.same hdb,rfl,
      hg.prevIs_last prev (by simp [hm]) htodo⟩
  cases hdrop.symm.trans hstep
  have hrep := h.cut hdb hmem
  have hremove := h.removeNode_keep hdb hmem (by simp [hne])
  have hlen : a.length < s.nodes+1 := by
    have := congrArg length hmem
    simp only [length_append,length_cons] at this
    omega
  refine ⟨_,lastOr none a,?_,hrep,rfl,?_⟩
  · rw [dropPort_found (hmem ▸ hg.list) (hmem ▸ hg.node) hane hx hlen,lastOr_of_ne_nil prev hne,
      hremove]
    rfl
  rcases b with _ | ⟨y,b⟩
  · have hg' := hrep.holds i { g with members := a ++ [] } (by simp)
    have := hg'.prevIs_last none (by simp [hne]) htodo
    simpa using this
  · trivial

lemma dropPort_sim (htodo : ∀ x ∈ todo, g.ptr ≠ x.ptr) (hprev : PrevIs s prev st (g :: todo)) :
    Visited s (dropPort p g.ptr (s.nodes+1) s (s.plist g.ptr) prev)
      (update db i (pre ++ og.toList ++ post)) st' todo := by
  have hg := h.holds i g (by simp [hdb])
  rcases hm : g.members with _ | ⟨m,ms⟩
  · simp only [dropStep,hm,some.injEq,Prod.mk.injEq] at hstep
    obtain ⟨rfl,rfl⟩ := hstep
    exact ⟨s,prev,dropPort_absent (hm ▸ hg.list) (hm ▸ hg.node) (by simp) (by simp),h.same hdb,rfl,
      hprev.mono fun x hx => mem_cons_of_mem _ hx⟩
  · by_cases hp : m.dst = p
    · exact dropPort_head h hdb hstep hm hp hprev
    · exact dropPort_behind h hdb hstep hm hp htodo

end

lemma ptr_ne_of_nodup (hn : ((g :: todo).map Group.ptr).Nodup) : ∀ x ∈ todo, g.ptr ≠ x.ptr := by
  intro x hx he
  refine (nodup_cons.mp hn).1 ?_
  rw [he]
  exact mem_map_of_mem hx

def PrevIsWith (P : ℕ → Bool) (s : State) (prev : Option ℕ) (st : Prev) (todo : List Group) :
    Prop := s.pending = P ∧ PrevIs s prev st todo

lemma deletePortVisit_sim (P : ℕ → Bool) (p : ℕ) :
    Simulates (deletePortVisit p) (dropStep p) (PrevIsWith P) := by
  intro s db i pre g post more prev st og st' h hdb hn hgood hstep
  obtain ⟨s',prev',hwalk,hrep,hpending,hprev⟩ :=
    dropPort_sim h hdb hstep (ptr_ne_of_nodup hn) hgood.2
  exact ⟨s',prev',false,by simp [deletePortVisit,hwalk],hrep,⟨hpending.trans hgood.1,hprev⟩,by simp⟩

/-- The call has made `out` of the groups, and the timers are as they were. -/
def Swept (s : State) (r : Option State) (out : List Group) : Prop :=
  ∃ s' db', r = some s' ∧ Rep s' db' ∧ flat db' = out ∧ s'.pending = s.pending

lemma brMfdDeletePort_sim (p : ℕ) (h : Rep s db) {st' : Prev}
    (hsweep : sweep (dropStep p) .null (flat db) = some (out,st')) :
    Swept s (brMfdDeletePort s p) out := by
  obtain ⟨s',db',hwalk,hrep,hout,-,hpending,-⟩ :=
    overTable_sim (deletePortVisit_sim _ p) h ⟨rfl,prevIs_null _⟩ hsweep
  exact ⟨s',db',hwalk,hrep,hout,hpending⟩

def dropGroupStep (p : ℕ) (group : UInt32) (st : Prev) (g : Group) :
    Option (Option Group × Prev) :=
  if g.addr = group then dropStep p st g else some (some g,st)

lemma sweep_dropGroupStep_other {group : UInt32} (hgs : ∀ g ∈ gs, g.addr ≠ group) (st : Prev) :
    sweep (dropGroupStep p group) st gs = some (gs,st) := by
  induction gs with
  | nil => rfl
  | cons g gs ih =>
    obtain ⟨hg,hgs⟩ := forall_mem_cons.mp hgs
    simp [sweep,dropGroupStep,hg,ih hgs]

def PrevIsOnce (P : ℕ → Bool) (s : State) (prev : Option ℕ) (st : Prev) (todo : List Group) :
    Prop := PrevIsWith P s prev st todo ∧ (todo.map Group.addr).Nodup

lemma deletePortFromGroupVisit_sim (P : ℕ → Bool) (p : ℕ) (group : UInt32) :
    Simulates (deletePortFromGroupVisit p group) (dropGroupStep p group) (PrevIsOnce P) := by
  intro s db i pre g post more prev st og st' h hdb hn hgood hstep
  obtain ⟨⟨hpending,hprev⟩,haddr⟩ := hgood
  have hg := h.holds i g (by simp [hdb])
  obtain ⟨hfirst,hrest⟩ := nodup_cons.mp haddr
  by_cases hga : g.addr = group
  · rw [dropGroupStep,if_pos hga] at hstep
    obtain ⟨s',prev',hwalk,hrep,hsame,hprev'⟩ :=
      dropPort_sim h hdb hstep (ptr_ne_of_nodup hn) hprev
    have hpending' := hsame.trans hpending
    refine ⟨s',prev',true,by simp [deletePortFromGroupVisit,hg.addr,hga,hwalk],hrep,
      ⟨⟨hpending',hprev'⟩,hrest⟩,
      fun _ => ⟨sweep_dropGroupStep_other (fun x hx he => ?_) _,⟨hpending',?_⟩,?_⟩⟩
    · exact hfirst (by rw [hga,← he]; exact mem_map_of_mem (by simp [hx]))
    · exact hprev'.mono (by simp +contextual)
    · rw [map_append] at hrest
      exact hrest.of_append_right
  rw [dropGroupStep,if_neg hga] at hstep
  obtain ⟨rfl,rfl⟩ : some g = og ∧ st = st' := by simpa using hstep
  exact ⟨s,prev,false,by simp [deletePortFromGroupVisit,hg.addr,hga],h.same hdb,
    ⟨⟨hpending,hprev.mono (by simp +contextual)⟩,hrest⟩,by simp⟩

lemma brMfdDeletePortFromGroup_sim (p : ℕ) (group : UInt32) (h : Rep s db) {st' : Prev}
    (haddr : ((flat db).map Group.addr).Nodup)
    (hsweep : sweep (dropGroupStep p group) .null (flat db) = some (out,st')) :
    Swept s (brMfdDeletePortFromGroup s p group) out := by
  obtain ⟨s',db',hwalk,hrep,hout,-,⟨hpending,-⟩,-⟩ :=
    overTable_sim (deletePortFromGroupVisit_sim _ p group) h ⟨⟨rfl,prevIs_null _⟩,haddr⟩ hsweep
  exact ⟨s',db',hwalk,hrep,hout,hpending⟩

/-- What the flush does to a group. It is `none` when the list starts with a version 1
port, keeps another one, and is closed behind a node of an earlier group. -/
def v1Step (st : Prev) (g : Group) : Option (Option Group × Prev) :=
  match g.members with
  | [] => some (some g,st)
  | m :: ms =>
    match (m :: ms).filter (!·.vinfo) with
    | [] => if st = .inner then none else some (none,st)
    | x :: keep =>
      if m.vinfo = true ∧ st ≠ .null then none
      else some (some { g with members := x :: keep },.last)

/-- All nodes of the entry `f` are being taken out behind `prev`, and `ms` are left. The other
groups are as in `s` but for the pointer in `prev`. -/
structure Emptying (s s1 : State) (f : ℕ) (prev : Option ℕ) (ms : List Member) : Prop where
  links : s1.links = s.links
  entLive : s1.entLive = s.entLive
  ents : s1.ents = s.ents
  pending : s1.pending = s.pending
  mfd : s1.mfd = s.mfd
  fresh : ∀ n, s1.nodeLive n = true → n < s1.nodes
  next : ∀ x, prev ≠ some x → s1.next x = s.next x
  other : ∀ x, Holds s x → x.ptr ≠ f → Holds { s1 with next := s.next } x
  node : ∀ m ∈ ms, HoldsNode s1 f m
  count : s1.portCount f = ms.length
  live : ∀ q, prev = some q → s1.nodeLive q = true

section

variable {s1 : State} {ms : List Member}

lemma Emptying.cut (h : Emptying s s1 f prev (m :: ms)) (hnd : ((m :: ms).map Member.ptr).Nodup)
    (hq : ∀ q, prev = some q → q ≠ m.ptr) : Emptying s (s1.cut f m.ptr prev) f prev ms where
  links := h.links
  entLive := h.entLive
  ents := h.ents
  pending := h.pending
  mfd := h.mfd
  fresh _ := cut_nodeFresh h.fresh
  next x hx := by
    cases prev with
    | none => exact h.next x hx
    | some q => exact (update_of_ne (fun he => hx (congrArg some he.symm)) _ _).trans (h.next x hx)
  other x hx hne := by
    have hx1 := h.other x hx hne
    refine hx1.congr rfl rfl (update_of_ne hne _ _) ?_ (fun _ _ => rfl) fun y hy => ?_
    · cases prev with
      | none => exact update_of_ne hne _ _
      | some q => rfl
    · have hy1 := hx1.node y hy
      refine hy1.congr (update_of_ne (fun he => hne ?_) _ _) rfl rfl rfl
      exact hy1.mfd.symm.trans (he ▸ (h.node m mem_cons_self).mfd)
  node y hy := by
    refine (h.node y (mem_cons_of_mem _ hy)).congr (update_of_ne (fun he => ?_) _ _) rfl rfl rfl
    exact (nodup_cons.mp hnd).1 (he ▸ mem_map_of_mem hy)
  count := by simp [State.cut,h.count]
  live q hp := (update_of_ne (hq q hp) _ _).trans (h.live q hp)

lemma dropV1_all (h : Rep s db) (hdb : db i = pre ++ g :: post) (he : Emptying s s1 g.ptr prev ms)
    (hc : Chain s.next pn (ms.map Member.ptr)) (hnd : (ms.map Member.ptr).Nodup)
    (hv : ∀ m ∈ ms, m.vinfo = true) (hne : ms ≠ [])
    (hq : ∀ q, prev = some q → s.next q = none ∧ q ∉ ms.map Member.ptr) (hf : ms.length < fuel) :
    ∃ s', dropV1 g.ptr fuel s1 pn prev = some (s',prev) ∧ Rep s' (update db i (pre ++ post)) ∧
      s'.pending = s.pending ∧ s'.mfd = s.mfd ∧
      ∀ q, prev = some q → s'.nodeLive q = true ∧ s'.next q = none := by
  induction ms generalizing s1 pn fuel with
  | nil => exact absurd rfl hne
  | cons m ms ih =>
    obtain ⟨fuel,rfl⟩ : ∃ k, fuel = k+1 := ⟨fuel-1,by simp at hf; omega⟩
    obtain ⟨rfl,hc⟩ := hc
    obtain ⟨hvm,hvms⟩ := forall_mem_cons.mp hv
    have hm := he.node m mem_cons_self
    have hqm : ∀ q, prev = some q → q ≠ m.ptr := fun q hp heq => (hq q hp).2 (by simp [heq])
    have hcut := he.cut hnd hqm
    have hnext : s1.next m.ptr = s.next m.ptr := he.next _ fun hp => hqm _ hp rfl
    have hremove := removeNode_eq (n := m.ptr) (f := g.ptr) he.live
    rw [he.count] at hremove
    rcases ms with _ | ⟨m',ms⟩
    · -- the write through `prev_pnode` ends a list where it ended already
      have hback : (s1.cut g.ptr m.ptr prev).next = s.next := by
        funext x
        by_cases hp : prev = some x
        · subst hp
          exact (update_self x _ s1.next).trans ((hnext.trans hc).trans (hq x rfl).1.symm)
        · exact hcut.next x hp
      have hsame : { s1.cut g.ptr m.ptr prev with next := s.next } = s1.cut g.ptr m.ptr prev := by
        rw [← hback]
      obtain ⟨links,hunlink,hrep⟩ := h.forget hdb _ hcut.links hcut.entLive
        (fun x hx hne => hsame ▸ hcut.other x hx hne) hcut.fresh
        (by rw [hcut.entLive,hcut.ents]; exact h.entFresh)
      refine ⟨_,?_,hrep,hcut.pending,hcut.mfd,fun q hp => ⟨hcut.live q hp,?_⟩⟩
      · simp [dropV1,hm.live,hm.vinfo,hvm,hremove,hunlink]
      · exact (congrFun hback q).trans (hq q hp).1
    obtain ⟨s',hdrop,hrest⟩ := ih hcut hc (nodup_cons.mp hnd).2 hvms (by simp)
      (fun q hp => ⟨(hq q hp).1,fun hmem => (hq q hp).2 (mem_cons_of_mem _ hmem)⟩)
      (by simpa using hf)
    refine ⟨s',?_,hrest⟩
    have hcount : ((m :: m' :: ms).length : ℤ) ≠ 1 := by simp; omega
    rw [if_neg hcount] at hremove
    simp [dropV1,hm.live,hm.vinfo,hvm,hremove,hnext,hdrop]

lemma deleteV1_all (h : Rep s db) (hdb : db i = pre ++ g :: post)
    (hv : ∀ m ∈ g.members, m.vinfo = true) (hne : g.members ≠ []) {st : Prev} (hst : st ≠ .inner)
    (hprev : PrevIs s prev st (g :: todo)) :
    Visited s (dropV1 g.ptr (s.nodes+1) s (s.plist g.ptr) prev) (update db i (pre ++ post)) st
      todo := by
  have hg := h.holds i g (by simp [hdb])
  have hq := hprev.ends hst
  have hstart : Emptying s s g.ptr prev g.members := ⟨rfl,rfl,rfl,rfl,rfl,h.nodeFresh,
    fun _ _ => rfl,fun _ hx _ => hx,hg.node,hg.count,fun q hp => (hq q hp).1⟩
  have hout : ∀ q, prev = some q → q ∉ g.members.map Member.ptr := by
    rintro q hp hmem
    obtain ⟨m,hm,rfl⟩ := mem_map.mp hmem
    exact (hq _ hp).2.2 (hg.node m hm).mfd
  obtain ⟨s',hdrop,hrep,hpending,hmfd,hs'⟩ := dropV1_all h hdb hstart hg.list hg.nodup hv hne
    (fun q hp => ⟨(hq q hp).2.1,hout q hp⟩) (h.members_length hg)
  exact ⟨s',prev,hdrop,hrep,hpending,hprev.passed hmfd hs'⟩

end

lemma dropV1_keep {kept ms : List Member} (h : Rep s db) (hdb : db i = pre ++ g :: post)
    (hm : g.members = kept ++ ms) (hsome : ∃ m ∈ kept ++ ms, m.vinfo = false)
    (hprev : prev = lastOr none kept ∨ kept = [] ∧ ∃ m ∈ ms.head?, m.vinfo = false)
    (hf : ms.length < fuel) :
    ∃ s', dropV1 g.ptr fuel s (ms.head?.map Member.ptr) prev =
      some (s',lastOr none (kept ++ ms.filter (!·.vinfo))) ∧ s'.pending = s.pending ∧
      Rep s' (update db i
        (pre ++ [{ g with members := kept ++ ms.filter (!·.vinfo) }] ++ post)) := by
  induction ms generalizing s db g kept prev fuel with
  | nil =>
    obtain ⟨fuel,rfl⟩ := Nat.exists_eq_add_of_lt hf
    obtain rfl : prev = lastOr none kept := hprev.resolve_right (by simp)
    refine ⟨s,by simp [dropV1],rfl,?_⟩
    have hself : { g with members := kept ++ ([] : List Member).filter (!·.vinfo) } = g := by
      rw [filter_nil,← hm]
    rw [hself]
    exact h.same hdb
  | cons m ms ih =>
    obtain ⟨fuel,rfl⟩ : ∃ k, fuel = k+1 := ⟨fuel-1,by simp at hf; omega⟩
    have hg := h.holds i g (by simp [hdb])
    have hx := hg.node m (by simp [hm])
    have hnext : s.next m.ptr = ms.head?.map Member.ptr := by
      have hlist := hg.list
      rw [hm,map_append,map_cons] at hlist
      rw [Chain.next_eq hlist,head?_map]
    cases hv : m.vinfo with
    | true =>
      obtain rfl : prev = lastOr none kept := hprev.resolve_right (by simp [hv])
      have hsome' : ∃ x ∈ kept ++ ms, x.vinfo = false := by
        obtain ⟨x,hx,hxv⟩ := hsome
        rw [mem_append,mem_cons] at hx
        obtain hx | rfl | hx := hx
        · exact ⟨x,by simp [hx],hxv⟩
        · exact absurd hv (by simp [hxv])
        · exact ⟨x,by simp [hx],hxv⟩
      have hne : kept ++ ms ≠ [] := by
        rintro he
        simp [he] at hsome'
      have hremove := h.removeNode_keep hdb hm hne
      obtain ⟨s',hdrop,hpending,hrep⟩ := ih (g := { g with members := kept ++ ms }) (h.cut hdb hm)
        (by simp) rfl hsome' (.inl rfl) (by simpa using hf)
      refine ⟨s',?_,hpending,?_⟩
      · simp [dropV1,hx.live,hx.vinfo,hv,hremove,hnext,hdrop]
      · rw [update_idem] at hrep
        simpa [hv] using hrep
    | false =>
      have hm' : g.members = (kept ++ [m]) ++ ms := by simp [hm]
      have hprev' : some m.ptr = lastOr none (kept ++ [m]) := by simp
      obtain ⟨s',hdrop,hpending,hrep⟩ := ih h hdb hm' (by simpa using hsome) (.inl hprev')
        (by simpa using hf)
      refine ⟨s',?_,hpending,?_⟩
      · simpa [dropV1,hx.live,hx.vinfo,hv,hnext] using hdrop
      · simpa [hv] using hrep

lemma deleteV1Visit_sim (P : ℕ → Bool) : Simulates deleteV1Visit v1Step (PrevIsWith P) := by
  intro s db i pre g post more prev st og st' h hdb hn hgood hstep
  have hg := h.holds i g (by simp [hdb])
  have htodo := ptr_ne_of_nodup hn
  rcases hm : g.members with _ | ⟨m,ms⟩
  · simp only [v1Step,hm,some.injEq,Prod.mk.injEq] at hstep
    obtain ⟨rfl,rfl⟩ := hstep
    have hnil : s.plist g.ptr = none := by simpa [hm] using hg.list
    exact ⟨s,prev,false,by simp [deleteV1Visit,hnil,dropV1],h.same hdb,
      ⟨hgood.1,hgood.2.mono fun x hx => mem_cons_of_mem _ hx⟩,by simp⟩
  simp only [v1Step,hm] at hstep
  rcases hkeep : (m :: ms).filter (!·.vinfo) with _ | ⟨x,keep⟩
  · rw [hkeep] at hstep
    have hst : st ≠ .inner := by
      rintro rfl
      simp at hstep
    obtain ⟨rfl,rfl⟩ : none = og ∧ st = st' := by simpa [hst] using hstep
    have hv : ∀ y ∈ g.members, y.vinfo = true := by
      simpa [hm,filter_eq_nil_iff] using hkeep
    obtain ⟨s',prev',hdrop,hrep,hpending,hprev⟩ :=
      deleteV1_all h hdb hv (by simp [hm]) hst hgood.2
    exact ⟨s',prev',false,by simp [deleteV1Visit,hdrop],by simpa using hrep,
      ⟨hpending.trans hgood.1,hprev⟩,by simp⟩
  rw [hkeep] at hstep
  have hcond : ¬(m.vinfo = true ∧ st ≠ .null) := by
    intro hc
    simp [hc] at hstep
  obtain ⟨rfl,rfl⟩ : some { g with members := x :: keep } = og ∧ Prev.last = st' := by
    simpa [hcond] using hstep
  have hsome : ∃ y ∈ [] ++ m :: ms, y.vinfo = false := by
    have hx : x ∈ (m :: ms).filter (!·.vinfo) := by simp [hkeep]
    exact ⟨x,(mem_filter.mp hx).1,by simpa using (mem_filter.mp hx).2⟩
  have hstart : prev = lastOr none [] ∨ ([] : List Member) = [] ∧
      ∃ y ∈ (m :: ms).head?, y.vinfo = false := by
    by_cases hv : m.vinfo = true
    · obtain rfl : st = .null := by
        by_contra hne
        exact hcond ⟨hv,hne⟩
      exact .inl hgood.2
    · exact .inr ⟨rfl,m,rfl,by simpa using hv⟩
  obtain ⟨s',hdrop,hpending,hrep⟩ := dropV1_keep h hdb (show g.members = [] ++ m :: ms from hm)
    hsome hstart (hm ▸ h.members_length hg)
  have hhead : s.plist g.ptr = (m :: ms).head?.map Member.ptr := by
    rw [Chain.head_eq hg.list,hm,head?_map]
  rw [hkeep,nil_append] at hdrop hrep
  have hg' := hrep.holds i { g with members := x :: keep } (by simp)
  exact ⟨s',lastOr none (x :: keep),false,by rw [deleteV1Visit,hhead,hdrop]; rfl,hrep,
    ⟨hpending.trans hgood.1,hg'.prevIs_last none (by simp) htodo⟩,by simp⟩

lemma brMfdDeleteV1Ports_sim (h : Rep s db) {st' : Prev}
    (hsweep : sweep v1Step .null (flat db) = some (out,st')) :
    Swept s (brMfdDeleteV1Ports s) out := by
  obtain ⟨s',db',hwalk,hrep,hout,-,hpending,-⟩ :=
    overTable_sim (deleteV1Visit_sim _) h ⟨rfl,prevIs_null _⟩ hsweep
  exact ⟨s',db',hwalk,hrep,hout,hpending⟩

end DslG624t.Bridge.Mfd
