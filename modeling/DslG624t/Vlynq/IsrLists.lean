import DslG624t.Vlynq.SetUp

/-!
# The lists of routines in a run

`PAL_vlynqAddIsr` puts a new routine at the head of its list, so the routines of a line are called
with the most recent first. `PAL_vlynqRemoveIsr` takes the first one with the given parameter out
again.
-/

namespace DslG624t.Vlynq

open Function HeapList List Option SplitFirst

abbrev Registry := ℕ × ℕ → List Called

def Registry.add (g : Registry) (line : ℕ × ℕ) (c : Called) : Registry :=
  update g line (c :: g line)

def Registry.remove (g : Registry) (line : ℕ × ℕ) (arg : Arg) : Registry :=
  update g line ((g line).eraseP fun c => c.arg = arg)

def Registry.init (g : Registry) (c : VlynqConfig) (v : ℕ) : Option ℕ → Registry
  | none => g
  | some table =>
    (g.add (table,c.localIntrVector) (.intern ⟨.localError,.vlynq v⟩)).add
      (table,c.peerIntrVector) (.intern ⟨.peerError,.vlynq v⟩)

/-- The object belongs to a VLYNQ that is not on the SoC. -/
def Held (s : Pal) (n : ℕ) : Prop :=
  ∃ v, (s.vlynq v).soc = false ∧
    ((s.vlynq v).localIsrInfo = some n ∨ (s.vlynq v).peerIsrInfo = some n)

/-- The states reached by setting up VLYNQs, mapping interrupts, and installing and removing
routines, with the routines that the answers add up to. No call removes the most recent
routine of a line that has others. -/
inductive Run (maxRoot : ℕ) : Pal → Registry → Prop where
  | start : Run maxRoot (palSysVlynqInit maxRoot) fun _ => []
  | init {s s' : Pal} {g : Registry} {c : VlynqConfig} {v : ℕ} (hs : Run maxRoot s g)
    (h : palVlynqInit s c = some (v,s')) :
    Run maxRoot s' (g.init c v (s'.vlynq v).rootIrqInfo)
  | mapIrq {s s' : Pal} {g : Registry} {v hwIntrLine irq : ℕ} {r : PalResult}
    (hs : Run maxRoot s g) (h : palVlynqMapIrq s v hwIntrLine irq = some (r,s')) :
    Run maxRoot s' g
  | addIsr {s s' : Pal} {g : Registry} {v irq table : ℕ} {fn : Fn} {arg : Arg}
    (hs : Run maxRoot s g) (ht : rootIrqInfo s v = some (some table))
    (h : palVlynqAddIsr s (some v) irq (some fn) (some arg) = some (.ok,s')) :
    Run maxRoot s' (g.add (table,irq) (.dev ⟨fn,arg⟩))
  | addIsrFailed {s s' : Pal} {g : Registry} {v : Option ℕ} {irq : ℕ} {fn : Option Fn}
    {arg : Option Arg} {r : PalResult} (hs : Run maxRoot s g) (hr : r ≠ .ok)
    (h : palVlynqAddIsr s v irq fn arg = some (r,s')) : Run maxRoot s' g
  | removeIsr {s s' : Pal} {g : Registry} {v irq table : ℕ} {arg : Arg} (hs : Run maxRoot s g)
    (ht : rootIrqInfo s v = some (some table))
    (hhead : ∀ c rest, g (table,irq) = c :: rest → c.arg = arg → rest = [])
    (h : palVlynqRemoveIsr s (some v) irq (some arg) = some (.ok,s')) :
    Run maxRoot s' (g.remove (table,irq) arg)
  | removeIsrFailed {s s' : Pal} {g : Registry} {v : Option ℕ} {irq : ℕ} {arg : Option Arg}
    {r : PalResult} (hs : Run maxRoot s g) (hr : r ≠ .ok)
    (h : palVlynqRemoveIsr s v irq arg = some (r,s')) : Run maxRoot s' g

/-- Every object is in one place, and the lists hold the routines of the registry. -/
structure Whole (s : Pal) (t : ListId → List ℕ) (g : Registry) : Prop extends Inv s t where
  called : ∀ table irq, (t (.line table irq)).map s.called = g (table,irq)
  placed : ∀ n < maxNumIsr, (∃ b, n ∈ t b) ∨ Held s n
  apart : ∀ n, Held s n → ∀ b, n ∉ t b
  fresh : s.freeVlynq.Nodup ∧ ∀ v ∈ s.freeVlynq, s.vlynq v = {}

variable {s s' : Pal} {t t' : ListId → List ℕ} {g : Registry} {n table irq : ℕ}

variable {b c : ListId} {k v : ℕ} {arg : Arg}

lemma whole_start (maxRoot : ℕ) : ∃ t, Whole (palSysVlynqInit maxRoot) t fun _ => [] := by
  obtain ⟨hv,htables⟩ := palSysVlynqInit_tables maxRoot
  have hvlynq (v : ℕ) : (palSysVlynqInit maxRoot).vlynq v = {} := congrFun hv v
  refine ⟨_,inv_palSysVlynqInit maxRoot,fun table irq => ?_,fun n hn => .inl ⟨.free,?_⟩,
    fun n hn b => ?_,?_,fun v _ => hvlynq v⟩
  · rw [update_of_ne (show ListId.line table irq ≠ .free from nofun)]
    rfl
  · rw [update_self,mem_reverse,mem_range]
    exact hn
  · obtain ⟨v,-,hv⟩ := hn
    rw [hvlynq] at hv
    obtain hv | hv := hv
    all_goals cases hv
  · have hfree := congrArg (fun x => x.2.2.2.2) htables
    rw [show (palSysVlynqInit maxRoot).freeVlynq = _ from hfree]
    exact nodup_reverse.mpr nodup_range

lemma Whole.congr (h : Whole s t g) (hnext : s'.next = s.next) (hhead : s'.head = s.head)
    (hisr : s'.isr = s.isr) (htype : s'.irqType = s.irqType) (hvlynq : s'.vlynq = s.vlynq)
    (hfree : s'.freeVlynq = s.freeVlynq) : Whole s' t g := by
  have hcalled : s'.called = s.called := by
    funext n
    rw [Pal.called,Pal.called,hisr,htype]
  have hheld (n : ℕ) : Held s' n ↔ Held s n := by rw [Held,Held,hvlynq]
  refine ⟨h.toInv.congr hnext hhead,fun table irq => ?_,fun n hn => ?_,fun n hn => ?_,?_⟩
  · rw [hcalled]
    exact h.called table irq
  · rw [hheld]
    exact h.placed n hn
  · exact h.apart n ((hheld n).mp hn)
  · rw [hfree,hvlynq]
    exact h.fresh

lemma Whole.mapIrq (h : Whole s t g) {v hwIntrLine irq : ℕ} {r : PalResult}
    (hm : palVlynqMapIrq s v hwIntrLine irq = some (r,s')) : Whole s' t g := by
  obtain rfl | ⟨root,map,-,-,rfl⟩ := mapIrq_cases hm
  · exact h
  · exact h.congr rfl rfl rfl rfl rfl rfl

lemma exists_mem_put : (∃ d, k ∈ put t b n d) ↔ k = n ∨ ∃ d, k ∈ t d := by
  constructor
  · rintro ⟨d,hd⟩
    exact (mem_put hd).imp_right fun hd => ⟨d,hd⟩
  rintro (rfl | ⟨d,hd⟩)
  · refine ⟨b,?_⟩
    rw [put,update_self]
    exact mem_cons_self
  refine ⟨d,?_⟩
  by_cases hdb : d = b
  · subst hdb
    rw [put,update_self]
    exact mem_cons_of_mem n hd
  · rwa [put,update_of_ne hdb]

lemma exists_mem_update {l r : List ℕ} (hc : ∀ x, x ∈ t c ↔ x ∈ r ∨ x ∈ l) :
    (∃ d, k ∈ t d) ↔ k ∈ r ∨ ∃ d, k ∈ update t c l d := by
  constructor
  · rintro ⟨d,hd⟩
    by_cases hdc : d = c
    · subst hdc
      refine ((hc k).mp hd).imp_right fun hk => ⟨d,?_⟩
      rwa [update_self]
    · refine .inr ⟨d,?_⟩
      rwa [update_of_ne hdc]
  rintro (hk | ⟨d,hd⟩)
  · exact ⟨c,(hc k).mpr (.inl hk)⟩
  · obtain hk | hd := mem_update hd
    · exact ⟨c,(hc k).mpr (.inr hk)⟩
    · exact ⟨d,hd⟩

lemma map_put {f : ℕ → Called} {c : Called}
    (ht : ∀ tb i, (t (.line tb i)).map f = g (tb,i)) (hn : f n = c) (tb i : ℕ) :
    (put t (.line table irq) n (.line tb i)).map f = g.add (table,irq) c (tb,i) := by
  rw [Registry.add]
  by_cases h : tb = table ∧ i = irq
  · obtain ⟨rfl,rfl⟩ := h
    rw [put,update_self,update_self,map_cons,ht,hn]
  · have hline : ListId.line tb i ≠ .line table irq := by simpa using h
    have hpair : (tb,i) ≠ (table,irq) := by simpa using h
    rw [put,update_of_ne hline,update_of_ne hpair,ht]

lemma update_free_line (t : ListId → List ℕ) (l : List ℕ) (tb i : ℕ) :
    update t .free l (.line tb i) = t (.line tb i) :=
  update_of_ne (show ListId.line tb i ≠ .free from nofun) l t

lemma Inv.ne_of_mem_line (h : Inv s t) {tb i x : ℕ} (hx : x ∈ t (.line tb i))
    (hn : n ∈ t .free) : x ≠ n := by
  rintro rfl
  cases h.lists.disjoint _ _ x hx hn

lemma Whole.move (h : Whole s t g) {l : List ℕ} {g' : Registry}
    (hc : ∀ x, x ∈ t c ↔ x ∈ [n] ∨ x ∈ l) (hinv : Inv s' (put (update t c l) b n))
    (hvlynq : s'.vlynq = s.vlynq) (hfree : s'.freeVlynq = s.freeVlynq)
    (hcalled : ∀ tb i, (put (update t c l) b n (.line tb i)).map s'.called = g' (tb,i)) :
    Whole s' (put (update t c l) b n) g' := by
  have hmem (x : ℕ) : (∃ d, x ∈ put (update t c l) b n d) ↔ ∃ d, x ∈ t d := by
    rw [exists_mem_put,← mem_singleton]
    exact (exists_mem_update hc).symm
  have hheld (x : ℕ) : Held s' x ↔ Held s x := by rw [Held,Held,hvlynq]
  refine ⟨hinv,hcalled,fun x hx => ?_,fun x hx d hd => ?_,?_⟩
  · rw [hmem,hheld]
    exact h.placed x hx
  · obtain ⟨e,he⟩ := (hmem x).mp ⟨d,hd⟩
    exact h.apart x ((hheld x).mp hx) e he
  · rw [hfree,hvlynq]
    exact h.fresh

lemma Whole.addIsr (h : Whole s t g) {fn : Fn} (ht : rootIrqInfo s v = some (some table))
    (ha : palVlynqAddIsr s (some v) irq (some fn) (some arg) = some (.ok,s')) :
    ∃ t', Whole s' t' (g.add (table,irq) (.dev ⟨fn,arg⟩)) := by
  obtain ⟨hr,-⟩ | ⟨u,fn',arg',tb,n,s1,hu,hfn,harg,htb,hget,-,rfl⟩ := addIsr_cases ha
  · exact absurd rfl hr
  obtain rfl := some.inj hu
  obtain rfl := some.inj hfn
  obtain rfl := some.inj harg
  obtain rfl := some.inj (some.inj (ht.symm.trans htb))
  obtain ⟨l,hl,hinv,hnot,hlt⟩ := h.toInv.getFree hget
  obtain ⟨k,-,heq⟩ := map_eq_some_iff.mp hget
  obtain ⟨rfl,rfl⟩ := Prod.mk.inj heq
  refine ⟨put (update t .free l) (.line table irq) k,h.move (fun x => ?_)
    (hinv.push hnot hlt (.line table irq) rfl rfl) rfl rfl (map_put (fun tb i => ?_) ?_)⟩
  · rw [hl,mem_cons,mem_singleton]
  · rw [update_free_line,← h.called tb i]
    refine map_congr_left fun x hx => ?_
    have hne : x ≠ k := h.toInv.ne_of_mem_line hx (hl ▸ mem_cons_self)
    simp only [Pal.called,vlynqAddInternIsr,update_of_ne hne]
  · simp only [Pal.called,vlynqAddInternIsr,update_self,if_true]

lemma eraseP_called {a b : List ℕ} (hn : (s.isr n).arg = arg)
    (ha : ∀ x ∈ a, (s.isr x).arg ≠ arg) :
    ((a ++ n :: b).map s.called).eraseP (fun c => c.arg = arg) = (a ++ b).map s.called := by
  rw [map_append,map_cons,map_append,eraseP_append_right,eraseP_cons_of_pos]
  · rw [decide_eq_true_eq,Pal.arg_called]
    exact hn
  · intro c hc
    obtain ⟨x,hx,rfl⟩ := mem_map.mp hc
    rw [decide_eq_true_eq,Pal.arg_called]
    exact ha x hx

lemma Whole.removeIsr (h : Whole s t g) (ht : rootIrqInfo s v = some (some table))
    (hhead : ∀ c rest, g (table,irq) = c :: rest → c.arg = arg → rest = [])
    (hr : palVlynqRemoveIsr s (some v) irq (some arg) = some (.ok,s')) :
    ∃ t', Whole s' t' (g.remove (table,irq) arg) := by
  obtain ⟨hfail,-⟩ | ⟨u,arg',tb,a,n,b,hu,harg,htb,hline,hn,ha,-,rfl⟩ :=
    removeIsr_cases h.toInv hr
  · exact absurd rfl hfail
  cases hu
  cases harg
  obtain rfl := some.inj (some.inj (ht.symm.trans htb))
  obtain ⟨hinv,hnot⟩ := h.toInv.unlink hline
  -- At the head of its list the routine is alone there.
  have hrest : (if a = [] then [] else a ++ b) = a ++ b := by
    split
    · next hnil =>
      subst hnil
      have hg := h.called table irq
      rw [hline] at hg
      have hb := hhead _ _ hg.symm ((s.arg_called n).trans hn)
      exact (map_eq_nil_iff.mp hb).symm
    · rfl
  rw [hrest] at hinv hnot
  have hlt : n < maxNumIsr :=
    h.lt (.line table irq) n (hline ▸ mem_append_right a mem_cons_self)
  have hcalled (x : ℕ) (hx : x ≠ n) :
      (vlynqFreeIsrInfo (unlinkIsr s table irq a.getLast? n) n).called x = s.called x := by
    cases hlast : a.getLast? <;>
      simp only [Pal.called,vlynqFreeIsrInfo,unlinkIsr,update_of_ne hx]
  refine ⟨put (update t (.line table irq) (a ++ b)) .free n,h.move (fun x => ?_)
    (hinv.free hnot hlt) ?_ ?_ fun tb i => ?_⟩
  · rw [hline,mem_singleton]
    simp only [mem_append,mem_cons]
    tauto
  · cases a.getLast? <;> rfl
  · cases a.getLast? <;> rfl
  rw [put,update_free_line,Registry.remove]
  have hmap : (update t (.line table irq) (a ++ b) (.line tb i)).map
      (vlynqFreeIsrInfo (unlinkIsr s table irq a.getLast? n) n).called =
      (update t (.line table irq) (a ++ b) (.line tb i)).map s.called := by
    refine map_congr_left fun x hx => hcalled x ?_
    rintro rfl
    exact hnot _ hx
  rw [hmap]
  by_cases hsame : tb = table ∧ i = irq
  · obtain ⟨rfl,rfl⟩ := hsame
    rw [update_self,update_self,← h.called tb i,hline,eraseP_called hn ha]
  · have hne : ListId.line tb i ≠ .line table irq := by simpa using hsame
    have hpair : (tb,i) ≠ (table,irq) := by simpa using hsame
    rw [update_of_ne hne,update_of_ne hpair,h.called]

lemma Whole.exists_removeIsr (h : Whole s t g) (ht : rootIrqInfo s v = some (some table))
    (hirq : irq ≤ 31) {c : Called} (hc : c ∈ g (table,irq)) :
    ∃ s', palVlynqRemoveIsr s (some v) irq (some c.arg) = some (.ok,s') := by
  rw [← h.called] at hc
  obtain ⟨n,hn,rfl⟩ := mem_map.mp hc
  rw [s.arg_called,palVlynqRemoveIsr,if_neg hirq.not_gt,ht,bind_some]
  dsimp only
  rw [findFrom_eq (h.lists.chain _) (h.toInv.length_le _),map_some]
  cases hsplit : splitFirst (fun m => decide ((s.isr m).arg = (s.isr n).arg))
      (t (.line table irq)) with
  | none => exact absurd rfl (of_decide_eq_false (splitFirst_eq_none_iff.mp hsplit n hn))
  | some x => exact ⟨_,rfl⟩

lemma held_update {v m : ℕ} {w : VlynqT} (hs' : s'.vlynq = update s.vlynq v w)
    (hv : s.vlynq v = {}) (hn : w.localIsrInfo = some n) (hm : w.peerIsrInfo = some m) (x : ℕ) :
    Held s' x ↔ Held s x ∨ w.soc = false ∧ x ∈ [n,m] := by
  have hx : x ∈ [n,m] ↔ w.localIsrInfo = some x ∨ w.peerIsrInfo = some x := by
    rw [hn,hm,mem_cons,mem_singleton,some_inj,some_inj,eq_comm,eq_comm (b := m)]
  rw [Held,Held,hs',hx]
  constructor
  · rintro ⟨u,hu⟩
    by_cases huv : u = v
    · subst huv
      rw [update_self] at hu
      exact .inr hu
    · rw [update_of_ne huv] at hu
      exact .inl ⟨u,hu⟩
  rintro (⟨u,hu⟩ | hw)
  · have huv : u ≠ v := by
      rintro rfl
      rw [hv] at hu
      obtain hu | hu := hu.2
      all_goals cases hu
    refine ⟨u,?_⟩
    rwa [update_of_ne huv]
  · refine ⟨v,?_⟩
    rwa [update_self]

lemma Whole.init (h : Whole s t g) {c : VlynqConfig} (hi : palVlynqInit s c = some (v,s')) :
    ∃ t', Whole s' t' (g.init c v (s'.vlynq v).rootIrqInfo) := by
  obtain ⟨n,m,l,w,hspec⟩ := init_spec h.toInv hi
  obtain ⟨hnodup,hempty⟩ := h.fresh
  rw [hspec.freeVlynq] at hnodup hempty
  obtain ⟨hvrest,hnodup⟩ := nodup_cons.mp hnodup
  have hheld := held_update hspec.vlynq (hempty v mem_cons_self) hspec.isrInfo.1
    hspec.isrInfo.2
  have hmem (x : ℕ) : (∃ d, x ∈ t d) ↔ x ∈ [n,m] ∨ ∃ d, x ∈ update t .free l d :=
    exists_mem_update fun x => by rw [hspec.free,← mem_append]; rfl
  have hfresh : s'.freeVlynq.Nodup ∧ ∀ u ∈ s'.freeVlynq, s'.vlynq u = {} := by
    rw [hspec.vlynq]
    refine ⟨hnodup,fun u hu => ?_⟩
    rw [update_of_ne (ne_of_mem_of_not_mem hu hvrest)]
    exact hempty u (mem_cons_of_mem v hu)
  have hcalled (tb i : ℕ) :
      (update t .free l (.line tb i)).map s'.called = g (tb,i) := by
    rw [update_free_line,← h.called tb i]
    refine map_congr_left fun x hx => ?_
    have hn : x ≠ n := h.toInv.ne_of_mem_line hx (hspec.free ▸ mem_cons_self)
    have hm : x ≠ m :=
      h.toInv.ne_of_mem_line hx (hspec.free ▸ mem_cons_of_mem n mem_cons_self)
    simp only [Pal.called,hspec.isr,hspec.irqType,update_of_ne hn,update_of_ne hm]
  rw [hspec.vlynq,update_self]
  cases htable : w.rootIrqInfo with
  | none =>
    have hsoc : w.soc = false := by rw [hspec.root.soc.1,← hspec.root.soc.2,htable]; rfl
    refine ⟨update t .free l,hspec.inv_not_soc htable,hcalled,fun x hx => ?_,
      fun x hx b hb => ?_,hfresh⟩
    · have hplaced := h.placed x hx
      rw [hmem] at hplaced
      rw [hheld]
      tauto
    obtain hx | ⟨-,hx⟩ := (hheld x).mp hx
    · obtain ⟨d,hd⟩ := (hmem x).mpr (.inr ⟨b,hb⟩)
      exact h.apart x hx d hd
    · obtain rfl | hx := mem_cons.mp hx
      · exact hspec.apart.1 b hb
      · exact hspec.apart.2 b (mem_singleton.mp hx ▸ hb)
  | some table =>
    have hsoc : w.soc = true := by rw [hspec.root.soc.1,← hspec.root.soc.2,htable]; rfl
    have hmem' (x : ℕ) : (∃ d, x ∈ put (put (update t .free l)
        (.line table c.localIntrVector) n) (.line table c.peerIntrVector) m d) ↔ ∃ d, x ∈ t d := by
      rw [exists_mem_put,exists_mem_put,hmem,mem_cons,mem_singleton]
      tauto
    have hheld' (x : ℕ) : Held s' x ↔ Held s x := by
      rw [hheld,hsoc]
      exact or_iff_left (by simp)
    refine ⟨_,hspec.inv_soc table htable,map_put (map_put hcalled ?_) ?_,fun x hx => ?_,
      fun x hx b hb => ?_,hfresh⟩
    · simp only [Pal.called,hspec.isr,hspec.irqType,update_of_ne hspec.ids.2.2,update_self]
      rfl
    · simp only [Pal.called,hspec.isr,hspec.irqType,update_self]
      rfl
    · rw [hmem',hheld']
      exact h.placed x hx
    · obtain ⟨d,hd⟩ := (hmem' x).mp ⟨b,hb⟩
      exact h.apart x ((hheld' x).mp hx) d hd

lemma whole_of_run {maxRoot : ℕ} (h : Run maxRoot s g) : ∃ t, Whole s t g := by
  induction h with
  | start => exact whole_start maxRoot
  | init _ hi ih =>
    obtain ⟨t,ht⟩ := ih
    exact ht.init hi
  | mapIrq _ hm ih =>
    obtain ⟨t,ht⟩ := ih
    exact ⟨t,ht.mapIrq hm⟩
  | addIsr _ htable ha ih =>
    obtain ⟨t,ht⟩ := ih
    exact ht.addIsr htable ha
  | addIsrFailed _ hr ha ih =>
    obtain ⟨-,rfl⟩ | ⟨_,_,_,_,_,_,_,_,_,_,_,hok,_⟩ := addIsr_cases ha
    · exact ih
    · exact absurd hok hr
  | removeIsr _ htable hhead hrem ih =>
    obtain ⟨t,ht⟩ := ih
    exact ht.removeIsr htable hhead hrem
  | removeIsrFailed _ hr hrem ih =>
    obtain ⟨t,ht⟩ := ih
    obtain ⟨-,rfl⟩ | ⟨_,_,_,_,_,_,_,_,_,_,_,_,hok,_⟩ := removeIsr_cases ht.toInv hrem
    · exact ⟨t,ht⟩
    · exact absurd hok hr

/-- The routines of each line are called as the answers to the calls say, with the most recent
first, and each of them can be removed. Each object is in one list, or belongs to a VLYNQ that is
not on the SoC. -/
theorem isrs_of_run {maxRoot : ℕ} (h : Run maxRoot s g) :
    (∀ table irq, rootIsrCalls s table irq = some (g (table,irq))) ∧
      (∀ v table irq, irq ≤ 31 → rootIrqInfo s v = some (some table) → ∀ c ∈ g (table,irq),
        ∃ s', palVlynqRemoveIsr s (some v) irq (some c.arg) = some (.ok,s')) ∧
      ∃ t : ListId → List ℕ, (∀ b, Chain s.next (s.head b) (t b) ∧ (t b).Nodup) ∧
        ∀ n < maxNumIsr,
          ((∃! b, n ∈ t b) ∧ ¬ Held s n) ∨ ((∀ b, n ∉ t b) ∧ Held s n) := by
  obtain ⟨t,ht⟩ := whole_of_run h
  refine ⟨fun table irq => ?_,fun v table irq hirq htable c => ht.exists_removeIsr htable hirq,t,
    fun b => ⟨ht.lists.chain b,ht.lists.nodup b⟩,fun n hn => ?_⟩
  · rw [ht.toInv.rootIsrCalls_eq,ht.called]
  · by_cases hheld : Held s n
    · exact .inr ⟨ht.apart n hheld,hheld⟩
    · obtain ⟨b,hb⟩ := (ht.placed n hn).resolve_right hheld
      exact .inl ⟨⟨b,hb,fun c hc => ht.lists.disjoint c b n hc hb⟩,hheld⟩

def Internal (g : Registry) : Prop := ∀ line, ∀ c ∈ g line, ∃ i v, c = .intern i ∧ i.arg = .vlynq v

lemma Internal.add (h : Internal g) (line : ℕ × ℕ) {i : Isr} (hi : i.arg = .vlynq v) :
    Internal (g.add line (.intern i)) := by
  intro k c hc
  rw [Registry.add] at hc
  by_cases hk : k = line
  · subst hk
    rw [update_self] at hc
    obtain rfl | hc := mem_cons.mp hc
    · exact ⟨i,v,rfl,hi⟩
    · exact h k c hc
  · rw [update_of_ne hk] at hc
    exact h k c hc

lemma ready_of_setUp {maxRoot : ℕ} (h : SetUp maxRoot s) :
    (Roots s ∧ Unused s) ∧ ∃ t g, Whole s t g ∧ Internal g := by
  induction h with
  | start =>
    obtain ⟨t,ht⟩ := whole_start maxRoot
    exact ⟨roots_start maxRoot,t,_,ht,fun _ _ hc => nomatch hc⟩
  | @init _ s' c v _ hi ih =>
    obtain ⟨⟨hr,hu⟩,t,g,ht,hg⟩ := ih
    obtain ⟨t',ht'⟩ := ht.init hi
    refine ⟨hr.init hu ht.toInv hi,t',_,ht',?_⟩
    cases (s'.vlynq v).rootIrqInfo with
    | none => exact hg
    | some table => exact (hg.add _ rfl).add _ rfl
  | mapIrq _ hm ih =>
    obtain ⟨⟨hr,hu⟩,t,g,ht,hg⟩ := ih
    exact ⟨hr.mapIrq hu hm,t,g,ht.mapIrq hm,hg⟩

def firstIsr : Isr := ⟨.dev 1,.param 1⟩

def secondIsr : Isr := ⟨.dev 2,.param 2⟩

def oneIsr : Pal :=
  after oneMapped (palVlynqAddIsr oneMapped (some 3) 0 (some firstIsr.fn) (some firstIsr.arg))

def twoIsrs : Pal :=
  after oneIsr (palVlynqAddIsr oneIsr (some 3) 0 (some secondIsr.fn) (some secondIsr.arg))

def twoRegistry : Registry :=
  ((Registry.init (fun _ => []) ⟨0xA8611800,true,31,30⟩ 3 (some 0)).add (0,0) (.dev firstIsr)).add (0,0)
    (.dev secondIsr)

lemma run_twoIsrs : Run 1 twoIsrs twoRegistry := by
  have htable : (oneVlynq.vlynq 3).rootIrqInfo = some 0 := by decide +kernel
  have h1 := Run.init .start palVlynqInit_oneVlynq
  rw [htable] at h1
  have h2 : Run 1 oneMapped _ := h1.mapIrq palVlynqMapIrq_oneMapped
  have h3 : Run 1 oneIsr _ :=
    h2.addIsr (show rootIrqInfo oneMapped 3 = some (some 0) by decide +kernel)
      (eq_some_after (by decide +kernel))
  exact h3.addIsr (show rootIrqInfo oneIsr 3 = some (some 0) by decide +kernel)
    (eq_some_after (by decide +kernel))

/-- The older routine can be removed. -/
theorem isrs_of_run_older :
    ∃ s', palVlynqRemoveIsr twoIsrs (some 3) 0 (some firstIsr.arg) = some (.ok,s') ∧
      rootIsrCalls s' 0 0 = some [.dev secondIsr] := by
  have h : palVlynqRemoveIsr twoIsrs (some 3) 0 (some firstIsr.arg) = some (.ok,_) :=
    eq_some_after (s := twoIsrs) (by decide +kernel)
  have hhead (c : Called) (rest : List Called) (hc : twoRegistry (0,0) = c :: rest) :
      c.arg = firstIsr.arg → rest = [] := by
    have heq : twoRegistry (0,0) = [.dev secondIsr,.dev firstIsr] := by decide
    obtain ⟨rfl,-⟩ := cons.inj (heq.symm.trans hc)
    exact fun harg => absurd harg (by decide)
  have hrun := run_twoIsrs.removeIsr
    (show rootIrqInfo twoIsrs 3 = some (some 0) by decide +kernel) hhead h
  exact ⟨_,h,(isrs_of_run hrun).1 0 0⟩

/-- With two routines on a line the more recent one is called first, and when it is removed, the
other one is gone too. -/
theorem isr_dropped :
    Run 1 twoIsrs twoRegistry ∧ rootIsrCalls twoIsrs 0 0 = some [.dev secondIsr,.dev firstIsr] ∧
      ∃ s', palVlynqRemoveIsr twoIsrs (some 3) 0 (some secondIsr.arg) = some (.ok,s') ∧
        rootIsrCalls s' 0 0 = some [] := by
  refine ⟨run_twoIsrs,by decide +kernel,_,eq_some_after (s := twoIsrs) (by decide +kernel),?_⟩
  decide +kernel

end DslG624t.Vlynq
