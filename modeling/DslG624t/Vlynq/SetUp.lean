import DslG624t.Vlynq.Isr

/-!
# VLYNQs that have been set up

After `PAL_sysVlynqInit` each VLYNQ on the SoC gets its own tables from `PAL_vlynqInit`, and
`PAL_vlynqMapIrq` maps lines for it.
-/

namespace DslG624t.Vlynq

open Function HeapList List Option Prod

def palVlynqGetRootAtBase (s : Pal) (base : ℕ) : Option ℕ :=
  s.roots.find? fun v => (s.vlynq v).base = base

def palVlynqGetForIrq (s : Pal) (root irq : ℕ) : Option (Option ℕ) :=
  if 31 < irq then some none else vlynqGetMapForIrq s root irq

structure Roots (s : Pal) : Prop where
  prev : ∀ v, (s.vlynq v).prev = none
  soc : ∀ v ∈ s.roots, (s.vlynq v).soc = true ∧ (s.vlynq v).rootIrqInfo.isSome
  map_inj : ∀ v w i, (s.vlynq v).rootIrqMap = some i → (s.vlynq w).rootIrqMap = some i → v = w
  info_inj : ∀ v w i, (s.vlynq v).rootIrqInfo = some i → (s.vlynq w).rootIrqInfo = some i → v = w
  mapped : ∀ i irq v, s.irqMap i irq = some v → (s.vlynq v).rootIrqMap = some i

variable {s s' : Pal} {t : ListId → List ℕ} {v irq : ℕ} {c : VlynqConfig} {r : PalResult}

section
variable (h : Roots s)
include h

lemma Roots.congr (hvlynq : s'.vlynq = s.vlynq) (hroots : s'.roots = s.roots)
    (hmap : s'.irqMap = s.irqMap) : Roots s' := by
  constructor
  · rw [hvlynq]
    exact h.prev
  · rw [hvlynq,hroots]
    exact h.soc
  · rw [hvlynq]
    exact h.map_inj
  · rw [hvlynq]
    exact h.info_inj
  · rw [hvlynq,hmap]
    exact h.mapped

lemma Roots.find_root (v : ℕ) :
    vlynqFindRootVlynq s v = some (if (s.vlynq v).soc then some v else none) := by
  rw [vlynqFindRootVlynq,maxVlynqCount,findRootFrom,h.prev v]

lemma Roots.rootIrqInfo_eq (hv : v ∈ s.roots) : rootIrqInfo s v = some (s.vlynq v).rootIrqInfo := by
  rw [rootIrqInfo,h.find_root,if_pos (h.soc v hv).1]
  rfl

lemma Roots.isSome_getForIrq (v irq : ℕ) : (palVlynqGetForIrq s v irq).isSome := by
  unfold palVlynqGetForIrq
  split
  · rfl
  · rw [vlynqGetMapForIrq,h.find_root]
    rfl

lemma Roots.isSome_addIsr (v : Option ℕ) (irq : ℕ) (fn : Option Fn)
    (arg : Option Arg) : (palVlynqAddIsr s v irq fn arg).isSome := by
  unfold palVlynqAddIsr
  split
  · split
    · rfl
    next v _ _ _ =>
    have hfind := h.find_root v
    generalize (if (s.vlynq v).soc then some v else none) = root at hfind
    rw [vlynqGetMapForIrq,rootIrqInfo,hfind,map_some,bind_some]
    split
    · rfl
    · rfl
  · rfl

lemma Roots.isSome_removeIsr (hinv : Inv s t) (v : Option ℕ) (irq : ℕ)
    (arg : Option Arg) : (palVlynqRemoveIsr s v irq arg).isSome := by
  unfold palVlynqRemoveIsr
  split
  · split
    · rfl
    rw [rootIrqInfo,h.find_root,map_some,bind_some]
    split
    · rfl
    · rw [findFrom_eq (hinv.lists.chain _) (hinv.length_le _)]
      rfl
  · rfl

end

inductive SetUp (maxRoot : ℕ) : Pal → Prop where
  | start : SetUp maxRoot (palSysVlynqInit maxRoot)
  | init {s s' : Pal} {c : VlynqConfig} {v : ℕ} (hs : SetUp maxRoot s)
    (h : palVlynqInit s c = some (v,s')) : SetUp maxRoot s'
  | mapIrq {s s' : Pal} {v hwIntrLine irq : ℕ} {r : PalResult} (hs : SetUp maxRoot s)
    (h : palVlynqMapIrq s v hwIntrLine irq = some (r,s')) : SetUp maxRoot s'

structure Unused (s : Pal) : Prop where
  maps : s.freeIrqMap.Nodup ∧ ∀ v i, (s.vlynq v).rootIrqMap = some i → i ∉ s.freeIrqMap
  infos : s.freeIrqInfo.Nodup ∧ ∀ v i, (s.vlynq v).rootIrqInfo = some i → i ∉ s.freeIrqInfo
  vlynqs : s.freeVlynq.Nodup ∧ (∀ v ∈ s.freeVlynq, s.vlynq v = {}) ∧ ∀ v ∈ s.roots, v ∉ s.freeVlynq

lemma tables_update {f : ℕ → Option ℕ} {x : Option ℕ} {free free' : List ℕ}
    (hnodup : free.Nodup) (hused : ∀ v i, f v = some i → i ∉ free)
    (hinj : ∀ v w i, f v = some i → f w = some i → v = w) (hfree : free = x.toList ++ free') :
    (free'.Nodup ∧ ∀ u i, update f v x u = some i → i ∉ free') ∧
      ∀ u w i, update f v x u = some i → update f v x w = some i → u = w := by
  have hx {i : ℕ} (hi : x = some i) : i ∈ free ∧ i ∉ free' := by
    rw [hi] at hfree
    rw [hfree] at hnodup ⊢
    exact ⟨mem_cons_self,(nodup_cons.mp hnodup).1⟩
  have hsub {i : ℕ} (hi : i ∈ free') : i ∈ free := by
    rw [hfree]
    exact mem_append_right _ hi
  have hcases {u i : ℕ} (hu : update f v x u = some i) :
      u = v ∧ x = some i ∨ u ≠ v ∧ f u = some i := by
    by_cases huv : u = v
    · subst huv
      rw [update_self] at hu
      exact .inl ⟨rfl,hu⟩
    · rw [update_of_ne huv] at hu
      exact .inr ⟨huv,hu⟩
  refine ⟨⟨?_,?_⟩,?_⟩
  · rw [hfree] at hnodup
    exact (nodup_append.mp hnodup).2.1
  · intro u i hu
    obtain ⟨-,hi⟩ | ⟨-,hi⟩ := hcases hu
    · exact (hx hi).2
    · exact fun hmem => hused u i hi (hsub hmem)
  intro u w i hu hw
  obtain ⟨rfl,hi⟩ | ⟨huv,hi⟩ := hcases hu
  · obtain ⟨rfl,-⟩ | ⟨-,hwi⟩ := hcases hw
    · rfl
    · exact absurd (hx hi).1 (hused w i hwi)
  · obtain ⟨-,hwi⟩ | ⟨-,hwi⟩ := hcases hw
    · exact absurd (hx hwi).1 (hused u i hi)
    · exact hinj u w i hi hwi

section Init

variable {n m : ℕ} {l : List ℕ} {w : VlynqT}

section
variable (hspec : InitSpec s t c v s' n m l w)
include hspec

lemma InitSpec.rootIrqMap_eq (u : ℕ) :
    (s'.vlynq u).rootIrqMap =
      update (fun u => (s.vlynq u).rootIrqMap) v w.rootIrqMap u := by
  rw [hspec.vlynq]
  exact congrFun (comp_update VlynqT.rootIrqMap s.vlynq v w) u

lemma InitSpec.rootIrqInfo_eq (u : ℕ) :
    (s'.vlynq u).rootIrqInfo =
      update (fun u => (s.vlynq u).rootIrqInfo) v w.rootIrqInfo u := by
  rw [hspec.vlynq]
  exact congrFun (comp_update VlynqT.rootIrqInfo s.vlynq v w) u

lemma InitSpec.mem_roots (hu : Unused s) {u : ℕ}
    (hmem : u ∈ s'.roots) : u = v ∧ c.onSoc = true ∨ u ≠ v ∧ u ∈ s.roots := by
  have hold (hmem : u ∈ s.roots) : u ≠ v := by
    rintro rfl
    apply hu.vlynqs.2.2 u hmem
    rw [hspec.freeVlynq]
    exact mem_cons_self
  rw [hspec.root.roots] at hmem
  split at hmem
  · next hsoc =>
    obtain hmem | hmem := mem_append.mp hmem
    · exact .inr ⟨hold hmem,hmem⟩
    · exact .inl ⟨mem_singleton.mp hmem,hsoc⟩
  · exact .inr ⟨hold hmem,hmem⟩

lemma InitSpec.rootsKept (h : Roots s) (hu : Unused s) : Roots s' := by
  have hmap := tables_update (v := v) hu.maps.1 hu.maps.2 h.map_inj hspec.root.map
  have hinfo := tables_update (v := v) hu.infos.1 hu.infos.2 h.info_inj hspec.root.info
  constructor
  · intro u
    rw [hspec.vlynq]
    by_cases huv : u = v
    · subst huv
      rw [update_self,hspec.root.chained.2]
      exact h.prev u
    · rw [update_of_ne huv]
      exact h.prev u
  · intro u hmem
    rw [hspec.vlynq]
    obtain ⟨rfl,hsoc⟩ | ⟨huv,hmem⟩ := hspec.mem_roots hu hmem
    · rw [update_self,hspec.root.soc.1,hspec.root.soc.2]
      exact ⟨hsoc,hsoc⟩
    · rw [update_of_ne huv]
      exact h.soc u hmem
  · intro u x i
    rw [hspec.rootIrqMap_eq,hspec.rootIrqMap_eq]
    exact hmap.2 u x i
  · intro u x i
    rw [hspec.rootIrqInfo_eq,hspec.rootIrqInfo_eq]
    exact hinfo.2 u x i
  intro i irq u hmapped
  rw [hspec.root.irqMap] at hmapped
  have hold := h.mapped i irq u hmapped
  have huv : u ≠ v := by
    rintro rfl
    rw [hu.vlynqs.2.1 u (hspec.freeVlynq ▸ mem_cons_self)] at hold
    cases hold
  rw [hspec.vlynq,update_of_ne huv]
  exact hold

lemma InitSpec.unusedKept (h : Roots s) (hu : Unused s) : Unused s' := by
  have hmap := tables_update (v := v) hu.maps.1 hu.maps.2 h.map_inj hspec.root.map
  have hinfo := tables_update (v := v) hu.infos.1 hu.infos.2 h.info_inj hspec.root.info
  obtain ⟨hnodup,hempty,hapart⟩ := hu.vlynqs
  rw [hspec.freeVlynq] at hnodup hempty hapart
  obtain ⟨hvrest,hnodup⟩ := nodup_cons.mp hnodup
  refine ⟨⟨hmap.1.1,fun u i => ?_⟩,⟨hinfo.1.1,fun u i => ?_⟩,hnodup,?_,?_⟩
  · rw [hspec.rootIrqMap_eq]
    exact hmap.1.2 u i
  · rw [hspec.rootIrqInfo_eq]
    exact hinfo.1.2 u i
  · intro u hmem
    rw [hspec.vlynq,update_of_ne (ne_of_mem_of_not_mem hmem hvrest)]
    exact hempty u (mem_cons_of_mem v hmem)
  · intro u hmem hfree
    obtain ⟨rfl,-⟩ | ⟨-,hmem⟩ := hspec.mem_roots hu hmem
    · exact hvrest hfree
    · exact hapart u hmem (mem_cons_of_mem v hfree)

end

end Init

lemma Roots.init (h : Roots s) (hu : Unused s) (hinv : Inv s t)
    (hi : palVlynqInit s c = some (v,s')) : Roots s' ∧ Unused s' := by
  obtain ⟨n,m,l,w,hspec⟩ := init_spec hinv hi
  exact ⟨hspec.rootsKept h hu,hspec.unusedKept h hu⟩

lemma Roots.mapIrq (h : Roots s) (hu : Unused s) {hwIntrLine : ℕ}
    (hm : palVlynqMapIrq s v hwIntrLine irq = some (r,s')) : Roots s' ∧ Unused s' := by
  obtain rfl | ⟨root,map,hroot,hmap,rfl⟩ := mapIrq_cases hm
  · exact ⟨h,hu⟩
  rw [h.find_root,some_inj] at hroot
  obtain rfl : v = root := by
    split at hroot
    · exact some.inj hroot
    · cases hroot
  refine ⟨⟨h.prev,h.soc,h.map_inj,h.info_inj,?_⟩,⟨hu.maps,hu.infos,hu.vlynqs⟩⟩
  intro i j u hmapped
  dsimp only at hmapped
  by_cases hi : i = map
  · subst hi
    rw [update_self] at hmapped
    by_cases hj : j = irq
    · subst hj
      rw [update_self] at hmapped
      exact some.inj hmapped ▸ hmap
    · rw [update_of_ne hj] at hmapped
      exact h.mapped i j u hmapped
  · rw [update_of_ne hi] at hmapped
    exact h.mapped i j u hmapped

lemma roots_start (maxRoot : ℕ) :
    Roots (palSysVlynqInit maxRoot) ∧ Unused (palSysVlynqInit maxRoot) := by
  obtain ⟨hvlynq,htables⟩ := palSysVlynqInit_tables maxRoot
  generalize palSysVlynqInit maxRoot = s at *
  obtain ⟨isr,irqType,next,head,irqMap,vlynq,freeVlynq,freeIrqMap,freeIrqInfo,roots,m⟩ := s
  obtain rfl := hvlynq
  obtain ⟨rfl,htables⟩ := mk.inj htables
  obtain ⟨rfl,htables⟩ := mk.inj htables
  obtain ⟨rfl,htables⟩ := mk.inj htables
  cases htables
  have hnodup (k : ℕ) : ((range k).reverse).Nodup := nodup_reverse.mpr nodup_range
  exact ⟨⟨fun _ => rfl,nofun,nofun,nofun,nofun⟩,⟨hnodup maxRoot,nofun⟩,
    ⟨hnodup maxRoot,nofun⟩,hnodup maxVlynqCount,fun _ _ => rfl,nofun⟩

def after (s : Pal) (x : Option (PalResult × Pal)) : Pal := (x.map snd).getD s

lemma eq_some_after {x : Option (PalResult × Pal)} (h : x.map fst = some r) :
    x = some (r,after s x) := by
  obtain ⟨y,rfl,rfl⟩ := map_eq_some_iff.mp h
  rfl

def oneVlynq : Pal :=
  ((palVlynqInit (palSysVlynqInit 1) ⟨0xA8611800,true,31,30⟩).map snd).getD (palSysVlynqInit 1)

def oneMapped : Pal := after oneVlynq (palVlynqMapIrq oneVlynq 3 0 0)

lemma palVlynqInit_oneVlynq :
    palVlynqInit (palSysVlynqInit 1) ⟨0xA8611800,true,31,30⟩ = some (3,oneVlynq) := by
  have h : (palVlynqInit (palSysVlynqInit 1) ⟨0xA8611800,true,31,30⟩).map fst = some 3 := by
    decide +kernel
  obtain ⟨y,hy,h3⟩ := map_eq_some_iff.mp h
  rw [oneVlynq,hy,← h3]
  rfl

lemma palVlynqMapIrq_oneMapped : palVlynqMapIrq oneVlynq 3 0 0 = some (.ok,oneMapped) :=
  eq_some_after (by decide +kernel)

lemma setUp_oneMapped : SetUp 1 oneMapped :=
  .mapIrq (.init .start palVlynqInit_oneVlynq) palVlynqMapIrq_oneMapped

end DslG624t.Vlynq
