import DslG624t.Vlynq.IsrLists

/-!
# What a VLYNQ takes and gives back

`PAL_vlynqInit` with its failures, and `PAL_vlynqCleanUp`.
-/

namespace DslG624t.Vlynq

open Function HeapList List Option SplitFirst

/-- Where `PAL_vlynqInit` fails. -/
inductive InitError where
  | invalidParam
  | noMem
  | noLinkOnReset
  | clkCfg
  | noLinkOnClkCfg
  | peerHighRev
  | localHighRev
  | rtmCfg
  | noLinkOnRtmCfg
  | rootIrqStructs
  | addRoot
  | internIsr
  deriving DecidableEq

def InitError.msg : InitError → String
  | .invalidParam => "Invalid init params."
  | .noMem => "Mem alloc failed for VLYNQ."
  | .noLinkOnReset => "No link detected on reset."
  | .clkCfg => "Error in configuring clocks."
  | .noLinkOnClkCfg => "No link detected post clk config."
  | .peerHighRev => "Peer VLYNQ revision higher than SW."
  | .localHighRev => "Local VLYNQ revision higher than SW."
  | .rtmCfg => "Error in configuring RTM."
  | .noLinkOnRtmCfg => "No link detected post RTM config."
  | .rootIrqStructs => "Could not allocate root irq structs."
  | .addRoot => "Could not add root vlynq."
  | .internIsr => "Could not install internal isr."

inductive RtmCfg where
  | no
  | autoSelect
  | force
  deriving DecidableEq

structure InitConfig extends VlynqConfig where
  localClockOut : Bool
  peerClockOut : Bool
  localClockDiv : ℕ
  peerClockDiv : ℕ
  localIntrLocal : Bool
  peerIntrLocal : Bool
  localInt2cfg : Bool
  localRtm : RtmCfg × ℕ
  peerRtm : RtmCfg × ℕ

structure Registers where
  localRevision : ℕ
  peerRevision : ℕ
  localRtm : Bool
  peerRtm : Bool
  linkOnReset : Bool
  linkInClkCfg : Bool
  linkOnClkCfg : Bool
  linkInRtmCfg : Bool
  linkOnRtmCfg : Bool

def latestVlynqRev : ℕ := 0x00010206

def InitConfig.valid (c : InitConfig) : Bool :=
  !(c.localClockOut && c.peerClockOut) && c.localClockDiv != 0 && c.peerClockDiv != 0 &&
    c.localIntrLocal && !c.peerIntrLocal && !(c.onSoc && !c.localInt2cfg) &&
    decide (c.localClockDiv ≤ 7) && decide (c.peerClockDiv ≤ 7) &&
    decide (c.localIntrVector ≤ 31) && decide (c.peerIntrVector ≤ 31)

def vlynqConfigBridgeClock (c : InitConfig) (r : Registers) : Bool :=
  !(c.localClockOut && c.peerClockOut) && c.localClockDiv != 0 && c.peerClockDiv != 0 && r.linkInClkCfg

def vlynqConfigRtm (revision : ℕ) (status : Bool) (rtm : RtmCfg × ℕ) : Bool :=
  !(decide (0x00010205 ≤ revision) && status) || !(rtm.1 = .force && decide (7 < rtm.2))

def vlynqConfigBridgeRtm (c : InitConfig) (r : Registers) : Bool :=
  vlynqConfigRtm r.localRevision r.localRtm c.localRtm && r.linkInRtmCfg &&
    vlynqConfigRtm r.peerRevision r.peerRtm c.peerRtm

/-- The configuration of the hardware; `none` if all goes well. -/
def bringUp (c : InitConfig) (r : Registers) : Option InitError :=
  if !c.localClockOut && !r.linkOnReset then some .noLinkOnReset
  else if !vlynqConfigBridgeClock c r then some .clkCfg
  else if !r.linkOnClkCfg then some .noLinkOnClkCfg
  else if latestVlynqRev < r.peerRevision then some .peerHighRev
  else if latestVlynqRev < r.localRevision then some .localHighRev
  else if !vlynqConfigBridgeRtm c r then some .rtmCfg
  else if !r.linkOnRtmCfg then some .noLinkOnRtmCfg
  else none

def vlynqFreeVlynq (s : Pal) (v : ℕ) : Pal :=
  { s with
    vlynq := update s.vlynq v { s.vlynq v with
      localIsrInfo := none, peerIsrInfo := none, rootIrqMap := none, rootIrqInfo := none
      prev := none, next := none }
    freeVlynq := v :: s.freeVlynq }

def vlynqFreeIrqInfo (s : Pal) (info : ℕ) : Pal :=
  { s with
    head := fun
      | .free => s.head .free
      | .line table irq => if table = info then none else s.head (.line table irq)
    freeIrqInfo := info :: s.freeIrqInfo }

def vlynqFreeIrqMap (s : Pal) (map : ℕ) : Pal :=
  { s with irqMap := update s.irqMap map fun _ => none, freeIrqMap := map :: s.freeIrqMap }

def vlynqRemoveRoot (s : Pal) (v : ℕ) : Pal := { s with roots := s.roots.erase v }

def release (s : Pal) (v : ℕ) (onSoc : Bool) : Pal :=
  match onSoc, (s.vlynq v).rootIrqMap, (s.vlynq v).rootIrqInfo with
  | true, some map, some info => vlynqFreeVlynq (vlynqFreeIrqMap (vlynqFreeIrqInfo s info) map) v
  | _, _, _ => vlynqFreeVlynq s v

def takeTables (s : Pal) (v : ℕ) (c : VlynqConfig) : Option Pal :=
  if c.onSoc then
    match s.freeIrqMap, s.freeIrqInfo with
    | map :: maps, info :: infos =>
      some { s with
        freeIrqMap := maps
        freeIrqInfo := infos
        vlynq := update s.vlynq v { s.vlynq v with
          base := c.baseAddr, soc := true, rootIrqMap := some map, rootIrqInfo := some info } }
    | _, _ => none
  else some (setVlynq s v fun w =>
    { w with base := c.baseAddr, soc := false, rootIrqMap := none, rootIrqInfo := none })

/-- The internal routines, with what is done when there are not enough objects. -/
def initIsrs (s : Pal) (v : ℕ) (c : VlynqConfig) : Except InitError ℕ × Pal :=
  let undo (s : Pal) := release (if c.onSoc then vlynqRemoveRoot s v else s) v c.onSoc
  match vlynqConfigInternErrorIntr s v false with
  | none => (.error .internIsr,undo s)
  | some (n,s) =>
    let s := setVlynq s v fun w => { w with localIsrInfo := some n, localIrq := c.localIntrVector }
    match vlynqConfigInternErrorIntr s v true with
    | none =>
      (.error .internIsr,undo (setVlynq (vlynqFreeIsrInfo s n) v fun w => { w with localIsrInfo := none }))
    | some (m,s) =>
      let s := setVlynq s v fun w => { w with peerIsrInfo := some m, peerIrq := c.peerIntrVector }
      match (s.vlynq v).rootIrqInfo, (s.vlynq v).localIsrInfo, (s.vlynq v).peerIsrInfo with
      | some table, some n, some m =>
        (.ok v,vlynqAddInternIsr (vlynqAddInternIsr s table c.localIntrVector n) table
          c.peerIntrVector m)
      | _, _, _ => (.ok v,s)

/-- `PAL_vlynqInit`. -/
def palVlynqInitCall (s : Pal) (c : InitConfig) (r : Registers) : Except InitError ℕ × Pal :=
  if !c.valid then (.error .invalidParam,s)
  else
    match s.freeVlynq with
    | [] => (.error .noMem,s)
    | v :: rest =>
      let s := { s with freeVlynq := rest }
      match bringUp c r with
      | some e => (.error e,vlynqFreeVlynq s v)
      | none =>
        match takeTables s v c.toVlynqConfig with
        | none => (.error .rootIrqStructs,vlynqFreeVlynq
          { s with freeIrqMap := s.freeIrqMap.tail, freeIrqInfo := s.freeIrqInfo.tail } v)
        | some s =>
          if c.onSoc then
            if s.roots.length < s.maxRoot then
              initIsrs { s with roots := s.roots ++ [v] } v c.toVlynqConfig
            else (.error .addRoot,release s v true)
          else initIsrs s v c.toVlynqConfig

def vlynqUninstallInternIsr (s : Pal) (w : VlynqT) : Pal :=
  let s := match w.peerIsrInfo with
    | none => s
    | some m => vlynqFreeIsrInfo s m
  match w.localIsrInfo with
  | none => s
  | some n => vlynqFreeIsrInfo s n

/-- `none` if a null pointer is followed: without tables there are no lists to search. -/
def palVlynqCleanUp (s : Pal) (vlynq : Option ℕ) : Option (PalResult × Pal) :=
  match vlynq with
  | none => some (.invalidParam,s)
  | some v =>
    let w := s.vlynq v
    w.rootIrqInfo.bind fun info =>
    (vlynqRemoveInternIsr s info w.localIrq w.localIsrInfo).bind fun s =>
    (vlynqRemoveInternIsr s info w.peerIrq w.peerIsrInfo).bind fun s =>
      let s := vlynqUninstallInternIsr s w
      let s := if w.soc then vlynqRemoveRoot s v else s
      w.rootIrqMap.map fun map => (.ok,vlynqFreeVlynq (vlynqFreeIrqInfo (vlynqFreeIrqMap s map) info) v)

variable {s s' : Pal} {t : ListId → List ℕ} {c : VlynqConfig} {v n : ℕ} {l : List ℕ}

/-- The pools are as before, and so are the lists and the objects that were not in them. -/
structure Balanced (t : ListId → List ℕ) (s s' : Pal) : Prop where
  lists : Inv s' t
  vlynqs : s'.freeVlynq = s.freeVlynq ∧ ∀ u, u ∉ s.freeVlynq → s'.vlynq u = s.vlynq u
  maps : s'.freeIrqMap = s.freeIrqMap ∧ ∀ i, i ∉ s.freeIrqMap → s'.irqMap i = s.irqMap i
  infos : s'.freeIrqInfo = s.freeIrqInfo
  isrs : ∀ n, n ∉ t .free → s'.isr n = s.isr n ∧ s'.irqType n = s.irqType n
  roots : s'.roots = s.roots

structure Pools (s : Pal) (t : ListId → List ℕ) : Prop where
  lists : Inv s t
  lines : ∀ i ∈ s.freeIrqInfo, ∀ irq, t (.line i irq) = []
  roots : ∀ v ∈ s.freeVlynq, v ∉ s.roots

structure Holding (t : ListId → List ℕ) (s s' : Pal) (v : ℕ) (onSoc : Bool) : Prop where
  lists : Inv s' t
  freeVlynq : s.freeVlynq = v :: s'.freeVlynq
  vlynq : ∀ u, u ≠ v → s'.vlynq u = s.vlynq u
  map : s.freeIrqMap = (s'.vlynq v).rootIrqMap.toList ++ s'.freeIrqMap
  info : s.freeIrqInfo = (s'.vlynq v).rootIrqInfo.toList ++ s'.freeIrqInfo
  soc : (s'.vlynq v).rootIrqMap.isSome = onSoc ∧ (s'.vlynq v).rootIrqInfo.isSome = onSoc
  irqMap : s'.irqMap = s.irqMap
  isrs : ∀ n, n ∉ t .free → s'.isr n = s.isr n ∧ s'.irqType n = s.irqType n

def without (t : ListId → List ℕ) (info : ℕ) : ListId → List ℕ
  | .free => t .free
  | .line table irq => if table = info then [] else t (.line table irq)

lemma Inv.freeIrqInfo (h : Inv s t) (info : ℕ) : Inv (vlynqFreeIrqInfo s info) (without t info) := by
  have hcases (d : ListId) : (without t info d = [] ∧ (vlynqFreeIrqInfo s info).head d = none) ∨
      (without t info d = t d ∧ (vlynqFreeIrqInfo s info).head d = s.head d) := by
    cases d with
    | free => exact .inr ⟨rfl,rfl⟩
    | line table irq =>
      by_cases heq : table = info
      · exact .inl ⟨if_pos heq,if_pos heq⟩
      · exact .inr ⟨if_neg heq,if_neg heq⟩
  have hmem {d : ListId} {x : ℕ} (hx : x ∈ without t info d) : x ∈ t d := by
    obtain hd | hd := hcases d
    · rw [hd.1] at hx
      cases hx
    · rwa [hd.1] at hx
  refine ⟨⟨fun d => ?_,fun d => ?_,fun d e x hd he => h.lists.disjoint d e x (hmem hd) (hmem he)⟩,
    fun d x hx => h.lt d x (hmem hx)⟩
  · obtain hd | hd := hcases d
    · rw [hd.1,hd.2]
      rfl
    · rw [hd.1,hd.2]
      exact h.lists.chain d
  obtain hd | hd := hcases d
  · rw [hd.1]
    exact nodup_nil
  · rw [hd.1]
    exact h.lists.nodup d

lemma without_eq {info : ℕ} (h : ∀ irq, t (.line info irq) = []) : without t info = t := by
  funext d
  cases d with
  | free => rfl
  | line table irq =>
    by_cases heq : table = info
    · rw [without,if_pos heq,heq,h]
    · rw [without,if_neg heq]

lemma Holding.tables (h : Holding t s s' v true) :
    ∃ map info, (s'.vlynq v).rootIrqMap = some map ∧ (s'.vlynq v).rootIrqInfo = some info ∧
      s.freeIrqMap = map :: s'.freeIrqMap ∧ s.freeIrqInfo = info :: s'.freeIrqInfo := by
  obtain ⟨map,hmap⟩ := isSome_iff_exists.mp h.soc.1
  obtain ⟨info,hinfo⟩ := isSome_iff_exists.mp h.soc.2
  have hmaps := h.map
  have hinfos := h.info
  rw [hmap] at hmaps
  rw [hinfo] at hinfos
  exact ⟨map,info,hmap,hinfo,hmaps,hinfos⟩

lemma Holding.release {onSoc : Bool} (h : Holding t s s' v onSoc) (hp : Pools s t)
    (hroots : s'.roots = s.roots) : Balanced t s (release s' v onSoc) := by
  have hother (u : ℕ) (hu : u ∉ s.freeVlynq) (w : VlynqT) : update s'.vlynq v w u = s.vlynq u := by
    have hne : u ≠ v := fun heq => hu (heq ▸ h.freeVlynq ▸ mem_cons_self)
    rw [update_of_ne hne,h.vlynq u hne]
  unfold Vlynq.release
  cases onSoc with
  | false =>
    obtain ⟨hmap,hinfo⟩ := h.soc
    have hmaps := h.map
    have hinfos := h.info
    rw [isSome_eq_false_iff,isNone_iff_eq_none] at hmap hinfo
    rw [hmap] at hmaps
    rw [hinfo] at hinfos
    refine ⟨h.lists.congr rfl rfl,⟨h.freeVlynq.symm,fun u hu => hother u hu _⟩,⟨hmaps.symm,?_⟩,
      hinfos.symm,h.isrs,hroots⟩
    exact fun i _ => congrFun h.irqMap i
  | true =>
    obtain ⟨map,info,hmap,hinfo,hmaps,hinfos⟩ := h.tables
    rw [hmap,hinfo]
    have hlines : ∀ irq, t (.line info irq) = [] := hp.lines info (hinfos ▸ mem_cons_self)
    have hinv := without_eq hlines ▸ h.lists.freeIrqInfo info
    refine ⟨hinv.congr rfl rfl,⟨h.freeVlynq.symm,fun u hu => hother u hu _⟩,
      ⟨hmaps.symm,fun i hi => ?_⟩,hinfos.symm,h.isrs,hroots⟩
    have hne : i ≠ map := fun heq => hi (heq ▸ hmaps ▸ mem_cons_self)
    exact (update_of_ne hne _ _).trans (congrFun h.irqMap i)

lemma Holding.update {rest maps infos : List ℕ} {onSoc : Bool} (hp : Pools s t)
    (hv : s.freeVlynq = v :: rest) {w : VlynqT} (hmap : s.freeIrqMap = w.rootIrqMap.toList ++ maps)
    (hinfo : s.freeIrqInfo = w.rootIrqInfo.toList ++ infos)
    (hsoc : w.rootIrqMap.isSome = onSoc ∧ w.rootIrqInfo.isSome = onSoc) :
    Holding t s { s with
      freeVlynq := rest, freeIrqMap := maps, freeIrqInfo := infos,
      vlynq := Function.update s.vlynq v w } v
      onSoc := by
  refine ⟨hp.lists.congr rfl rfl,hv,fun u hu => update_of_ne hu _ _,?_,?_,?_,rfl,fun _ _ => ⟨rfl,rfl⟩⟩
  all_goals dsimp only; rw [update_self]
  · exact hmap
  · exact hinfo
  · exact hsoc

lemma Holding.takeTables {rest : List ℕ} (hp : Pools s t) (hv : s.freeVlynq = v :: rest)
    (h : takeTables { s with freeVlynq := rest } v c = some s') :
    Holding t s s' v c.onSoc ∧ s'.roots = s.roots := by
  unfold Vlynq.takeTables at h
  split at h
  · next hsoc =>
    split at h
    · next map maps info infos hmap hinfo =>
      cases h
      exact ⟨.update hp hv hmap hinfo ⟨hsoc.symm,hsoc.symm⟩,rfl⟩
    · cases h
  · next hsoc =>
    cases h
    have hfalse : c.onSoc = false := Bool.not_eq_true _ ▸ hsoc
    exact ⟨.update hp hv rfl rfl ⟨hfalse.symm,hfalse.symm⟩,rfl⟩

lemma Holding.unwind (h : Holding t s s' v c.onSoc) (hp : Pools s t)
    (hroots : s'.roots = if c.onSoc then s.roots ++ [v] else s.roots) :
    Balanced t s (Vlynq.release (if c.onSoc then vlynqRemoveRoot s' v else s') v c.onSoc) := by
  split at hroots
  · next hsoc =>
    rw [if_pos hsoc]
    have hnot : v ∉ s.roots := hp.roots v (h.freeVlynq ▸ mem_cons_self)
    refine Holding.release ⟨h.lists.congr rfl rfl,h.freeVlynq,h.vlynq,h.map,h.info,h.soc,h.irqMap,h.isrs⟩ hp ?_
    show s'.roots.erase v = _
    rw [hroots,erase_append_right _ hnot,erase_cons_head,append_nil]
  · next hsoc =>
    rw [if_neg hsoc]
    exact h.release hp hroots

lemma put_free (hl : t .free = n :: l) : put (update t .free l) .free n = t := by
  rw [put,update_self,update_idem,← hl,update_eq_self]

lemma Holding.initIsrs_error (h : Holding t s s' v c.onSoc) (hp : Pools s t)
    (hroots : s'.roots = if c.onSoc then s.roots ++ [v] else s.roots) {e : InitError} {s1 : Pal}
    (hi : initIsrs s' v c = (.error e,s1)) : Balanced t s s1 := by
  unfold initIsrs at hi
  dsimp only at hi
  split at hi
  · cases hi
    exact h.unwind hp hroots
  next n s2 hn =>
  split at hi
  · cases hi
    obtain ⟨l,hl,hinv,hnot,hlt,hisr,htype,hvlynq,htables⟩ := h.lists.config hn
    obtain ⟨hirqMap,htables⟩ := Prod.mk.inj htables
    obtain ⟨hroots2,htables⟩ := Prod.mk.inj htables
    obtain ⟨hmaps,htables⟩ := Prod.mk.inj htables
    obtain ⟨hinfos,hfree⟩ := Prod.mk.inj htables
    have hmem : n ∈ t .free := hl ▸ mem_cons_self
    have hset (u : ℕ) (f g : VlynqT → VlynqT) :
        (setVlynq (vlynqFreeIsrInfo (setVlynq s2 v f) n) v g).vlynq u =
          if u = v then g (f (s'.vlynq v)) else s'.vlynq u := by
      simp only [setVlynq,vlynqFreeIsrInfo,hvlynq,update_self,update_idem,update_apply]
    refine Holding.unwind ⟨?_,?_,?_,?_,?_,?_,?_,?_⟩ hp ?_
    · exact put_free hl ▸ hinv.push hnot hlt .free rfl rfl
    · exact h.freeVlynq.trans (congrArg _ hfree.symm)
    · intro u hu
      rw [hset,if_neg hu,h.vlynq u hu]
    · rw [hset,if_pos rfl]
      exact h.map.trans (congrArg _ hmaps.symm)
    · rw [hset,if_pos rfl]
      exact h.info.trans (congrArg _ hinfos.symm)
    · rw [hset,if_pos rfl]
      exact h.soc
    · exact hirqMap.trans h.irqMap
    · intro k hk
      have hne : k ≠ n := fun heq => hk (heq ▸ hmem)
      obtain ⟨hk1,hk2⟩ := h.isrs k hk
      simp only [setVlynq,vlynqFreeIsrInfo,hisr,htype,update_of_ne hne]
      exact ⟨hk1,hk2⟩
    · exact hroots2.trans hroots
  · split at hi <;> cases hi

def OneTable (s : Pal) : Prop := (s.freeIrqMap = []) ≠ (s.freeIrqInfo = [])

def AsksTables (s : Pal) (c : InitConfig) (r : Registers) : Prop :=
  c.valid = true ∧ s.freeVlynq ≠ [] ∧ bringUp c r = none ∧ c.onSoc = true

lemma balanced_refl (h : Inv s t) : Balanced t s s :=
  ⟨h,⟨rfl,fun _ _ => rfl⟩,⟨rfl,fun _ _ => rfl⟩,rfl,fun _ _ => ⟨rfl,rfl⟩,rfl⟩

lemma takeTables_none_balanced_iff (hp : Pools s t) {c : InitConfig} {r : Registers} {rest : List ℕ}
    (hv : s.freeVlynq = v :: rest)
    (h : takeTables { s with freeVlynq := rest } v c.toVlynqConfig = none)
    (hasks : c.valid = true ∧ s.freeVlynq ≠ [] ∧ bringUp c r = none) :
    Balanced t s (vlynqFreeVlynq { s with
        freeVlynq := rest
        freeIrqMap := s.freeIrqMap.tail
        freeIrqInfo := s.freeIrqInfo.tail } v) ↔ ¬ (AsksTables s c r ∧ OneTable s) := by
  unfold takeTables at h
  split at h
  · next hsoc =>
    rw [and_iff_right ⟨hasks.1,hasks.2.1,hasks.2.2,hsoc⟩,OneTable,not_ne_iff]
    cases hmap : s.freeIrqMap with
    | nil =>
      cases hinfo : s.freeIrqInfo with
      | nil =>
        refine iff_of_true ⟨hp.lists.congr rfl rfl,⟨hv.symm,fun u hu => ?_⟩,⟨hmap.symm,fun _ _ => rfl⟩,
          hinfo.symm,fun _ _ => ⟨rfl,rfl⟩,rfl⟩ rfl
        exact update_of_ne (ne_of_mem_of_not_mem (hv ▸ mem_cons_self) hu).symm _ _
      | cons i is =>
        refine iff_of_false (fun hb => ?_) (by simp)
        exact absurd (hb.infos.trans hinfo) (fun heq => cons_ne_self i is heq.symm)
    | cons i is =>
      cases hinfo : s.freeIrqInfo with
      | nil =>
        refine iff_of_false (fun hb => ?_) (by simp)
        exact absurd (hb.maps.1.trans hmap) (fun heq => cons_ne_self i is heq.symm)
      | cons j js => simp [hmap,hinfo] at h
  · cases h

lemma initCall_error_balanced_iff (hp : Pools s t) {c : InitConfig} {r : Registers} {e : InitError}
    (h : palVlynqInitCall s c r = (.error e,s')) :
    Balanced t s s' ↔ ¬ (AsksTables s c r ∧ OneTable s) := by
  have hgood (hb : Balanced t s s') (hnot : ¬ (AsksTables s c r ∧ OneTable s)) :
      Balanced t s s' ↔ ¬ (AsksTables s c r ∧ OneTable s) := iff_of_true hb hnot
  unfold palVlynqInitCall at h
  split at h
  · next hinvalid =>
    cases h
    exact hgood (balanced_refl hp.lists) fun ha => by simp [ha.1.1] at hinvalid
  next hinvalid =>
  have hc : c.valid = true := by simpa using hinvalid
  split at h
  · next hfree =>
    cases h
    exact hgood (balanced_refl hp.lists) fun ha => ha.1.2.1 hfree
  next v rest hfree =>
  dsimp only at h
  split at h
  · next e hbring =>
    cases h
    refine hgood ⟨hp.lists.congr rfl rfl,⟨hfree.symm,fun u hu => ?_⟩,⟨rfl,fun _ _ => rfl⟩,rfl,
      fun _ _ => ⟨rfl,rfl⟩,rfl⟩ fun ha => nomatch hbring.symm.trans ha.1.2.2.1
    exact update_of_ne (ne_of_mem_of_not_mem (hfree ▸ mem_cons_self) hu).symm _ _
  next hbring =>
  split at h
  · next htake =>
    cases h
    exact takeTables_none_balanced_iff hp hfree htake ⟨hc,hfree ▸ cons_ne_nil v rest,hbring⟩
  next s1 htake =>
  obtain ⟨hhold,hroots⟩ := Holding.takeTables hp hfree htake
  refine hgood ?_ ?_
  · split at h
    · next hsoc =>
      split at h
      · have hadded : Holding t s { s1 with roots := s1.roots ++ [v] } v c.onSoc :=
          ⟨hhold.lists.congr rfl rfl,hhold.freeVlynq,hhold.vlynq,hhold.map,hhold.info,hhold.soc,
            hhold.irqMap,hhold.isrs⟩
        exact hadded.initIsrs_error hp (by rw [if_pos hsoc,← hroots]) h
      · cases h
        exact (hsoc ▸ hhold).release hp hroots
    · next hsoc => exact hhold.initIsrs_error hp (by rw [if_neg hsoc,hroots]) h
  rintro ⟨⟨-,-,-,hsoc⟩,hone⟩
  obtain ⟨map,info,-,-,hmaps,hinfos⟩ := (hsoc ▸ hhold).tables
  simp [OneTable,hmaps,hinfos] at hone

/-- From `s` to `s'` the VLYNQ and what `w` has of tables and routines were taken, in this order from
the pools, and nothing else. -/
structure Takes (s : Pal) (t : ListId → List ℕ) (s' : Pal) (t' : ListId → List ℕ) (v : ℕ) (w : VlynqT) :
    Prop where
  vlynqs : s.freeVlynq = v :: s'.freeVlynq ∧ ∀ u, u ≠ v → s'.vlynq u = s.vlynq u
  maps : s.freeIrqMap = w.rootIrqMap.toList ++ s'.freeIrqMap ∧
    ∀ i, w.rootIrqMap ≠ some i → s'.irqMap i = s.irqMap i
  infos : s.freeIrqInfo = w.rootIrqInfo.toList ++ s'.freeIrqInfo
  lines : ∀ info irq, w.rootIrqInfo ≠ some info → t' (.line info irq) = t (.line info irq)
  isrs : t .free = w.localIsrInfo.toList ++ w.peerIsrInfo.toList ++ t' .free ∧
    ∀ n, w.localIsrInfo ≠ some n → w.peerIsrInfo ≠ some n → s'.isr n = s.isr n ∧ s'.irqType n = s.irqType n
  roots : ∀ u, u ≠ v → (u ∈ s'.roots ↔ u ∈ s.roots)

lemma initRoot_of_takeTables (h : takeTables s v c = some s') :
    initRoot s v c =
      if c.onSoc then
        if s'.roots.length < s'.maxRoot then some { s' with roots := s'.roots ++ [v] } else none
      else some s' := by
  unfold takeTables at h
  unfold initRoot
  by_cases hsoc : c.onSoc = true
  · rw [if_pos hsoc] at h ⊢
    rw [if_pos hsoc]
    rcases hmap : s.freeIrqMap with _ | ⟨map,maps⟩ <;>
      rcases hinfo : s.freeIrqInfo with _ | ⟨info,infos⟩ <;> rw [hmap,hinfo] at h <;> cases h
    rfl
  · rw [if_neg hsoc] at h ⊢
    rw [if_neg hsoc]
    exact h

lemma initIsrs_ok {u : ℕ} (h : initIsrs s v c = (.ok u,s')) :
    (vlynqInstallInternIsr s v c).map (fun s =>
      match (s.vlynq v).rootIrqInfo, (s.vlynq v).localIsrInfo, (s.vlynq v).peerIsrInfo with
      | some table, some n, some m =>
        (v,vlynqAddInternIsr (vlynqAddInternIsr s table c.localIntrVector n)
          table c.peerIntrVector m)
      | _, _, _ => (v,s)) = some (u,s') := by
  unfold initIsrs at h
  dsimp only at h
  split at h
  · cases h
  next n s1 hn =>
  split at h
  · cases h
  next m s2 hm =>
  rw [vlynqInstallInternIsr,hn,bind_some]
  dsimp only
  rw [hm,map_some,map_some]
  dsimp only
  split at h
  · cases h
    rfl
  · cases h
    rfl

lemma palVlynqInit_of_call {c : InitConfig} {r : Registers} (h : palVlynqInitCall s c r = (.ok v,s')) :
    palVlynqInit s c.toVlynqConfig = some (v,s') := by
  unfold palVlynqInitCall at h
  split at h
  · cases h
  next hvalid =>
  have hvectors : ¬ (31 < c.localIntrVector ∨ 31 < c.peerIntrVector) := by
    simp only [InitConfig.valid,Bool.not_eq_true,Bool.not_eq_false',Bool.and_eq_true,
      decide_eq_true_eq] at hvalid
    omega
  split at h
  · cases h
  next u rest hfree =>
  dsimp only at h
  split at h
  · cases h
  split at h
  · cases h
  next s1 htake =>
  rw [palVlynqInit,if_neg hvectors,hfree]
  dsimp only
  rw [initRoot_of_takeTables htake]
  split at h
  · next hsoc =>
    split at h
    · next hlt =>
      rw [if_pos hsoc,if_pos hlt]
      exact initIsrs_ok h
    · cases h
  · next hsoc =>
    rw [if_neg hsoc]
    exact initIsrs_ok h

/-- The VLYNQ has what it was given, and its routines are in no lists but those of its lines. -/
structure Retained (s : Pal) (t : ListId → List ℕ) (v : ℕ) (w : VlynqT) : Prop where
  lists : Inv s t
  vlynq : s.vlynq v = w
  localIsr : ∀ n, w.localIsrInfo = some n → ∀ d, n ∈ t d → ∃ info ∈ w.rootIrqInfo, d = .line info w.localIrq
  peerIsr : ∀ m, w.peerIsrInfo = some m → ∀ d, m ∈ t d → ∃ info ∈ w.rootIrqInfo, d = .line info w.peerIrq

lemma Inv.removeIntern (h : Inv s t) {table irq : ℕ} (hn : ∀ d, n ∈ t d → d = .line table irq) :
    ∃ s' l, vlynqRemoveInternIsr s table irq (some n) = some s' ∧
      Inv s' (update t (.line table irq) l) ∧
      (∀ d, n ∉ update t (.line table irq) l d) ∧ l ⊆ t (.line table irq) ∧
      ∃ next head, s' = { s with next := next, head := head } := by
  by_cases hmem : n ∈ t (.line table irq)
  · obtain ⟨a,b,hline⟩ := append_of_mem hmem
    have hnodup := h.lists.nodup (.line table irq)
    rw [hline] at hnodup
    have ha : ∀ x ∈ a, decide (some x = some n) = false := by
      intro x hx
      rw [decide_eq_false_iff_not,some_inj]
      rintro rfl
      exact (nodup_append.mp hnodup).2.2 x hx x mem_cons_self rfl
    have hsplit : splitFirst (fun m => decide (some m = some n)) (a ++ n :: b) = some (a,n,b) :=
      splitFirst_append_cons (decide_eq_true rfl) ha
    refine ⟨unlinkIsr s table irq a.getLast? n,_,?_,(h.unlink hline).1,(h.unlink hline).2,?_,?_⟩
    · rw [vlynqRemoveInternIsr,findFrom_eq (h.lists.chain _) (h.length_le _),hline,hsplit,map_some,map_some,
        cellBefore,or_none]
    · rw [hline]
      split
      · exact nil_subset _
      · exact ((sublist_cons_self n b).append_left a).subset
    · cases a.getLast? <;> exact ⟨_,_,rfl⟩
  have hnone : splitFirst (fun m => decide (some m = some n)) (t (.line table irq)) = none := by
    refine splitFirst_eq_none_iff.mpr fun x hx => ?_
    rw [decide_eq_false_iff_not,some_inj]
    rintro rfl
    exact hmem hx
  refine ⟨s,t (.line table irq),?_,?_,fun d hd => ?_,Subset.refl _,s.next,s.head,rfl⟩
  · rw [vlynqRemoveInternIsr,findFrom_eq (h.lists.chain _) (h.length_le _),hnone,map_none,map_some]
  · rwa [update_eq_self]
  · rw [update_eq_self] at hd
    exact hmem (hn d hd ▸ hd)

lemma mem_of_mem_update {b d : ListId} (hl : l ⊆ t b) (hn : n ∈ update t b l d) : n ∈ t d := by
  by_cases hd : d = b
  · subst hd
    rw [update_self] at hn
    exact hl hn
  · rwa [update_of_ne hd] at hn

lemma cleanUp_takes {info map m : ℕ} {w : VlynqT} (h : Retained s t v w) (hinfo : w.rootIrqInfo = some info)
    (hmap : w.rootIrqMap = some map) (hsoc : w.soc = true)
    (hisrs : w.localIsrInfo = some n ∧ w.peerIsrInfo = some m)
    (hlt : n < maxNumIsr ∧ m < maxNumIsr ∧ n ≠ m) :
    ∃ s' t', palVlynqCleanUp s (some v) = some (.ok,s') ∧ Inv s' t' ∧ Takes s' t' s t v w := by
  have hplace {d : ListId} {irq : ℕ} (hd : ∃ i ∈ w.rootIrqInfo, d = .line i irq) : d = .line info irq := by
    obtain ⟨i,hi,hd⟩ := hd
    obtain rfl := some.inj (hinfo.symm.trans hi)
    exact hd
  obtain ⟨s1,l,hs1,hinv1,hn,hl,next,head,rfl⟩ :=
    h.lists.removeIntern fun d hd => hplace (h.localIsr n hisrs.1 d hd)
  obtain ⟨s2,k,hs2,hinv2,hm,hk,next2,head2,rfl⟩ :=
    hinv1.removeIntern fun d hd => hplace (h.peerIsr m hisrs.2 d (mem_of_mem_update hl hd))
  have hfree := (hinv2.free hm hlt.2.1).free
    (fun d hd => (mem_put hd).elim hlt.2.2 fun hd => hn d (mem_of_mem_update hk hd)) hlt.1
  refine ⟨vlynqFreeVlynq (vlynqFreeIrqInfo (vlynqFreeIrqMap (vlynqRemoveRoot (vlynqFreeIsrInfo
    (vlynqFreeIsrInfo { s with next := next2, head := head2 } m) n) v) map) info) v,_,?_,
    (hfree.freeIrqInfo info).congr rfl rfl,?_⟩
  · rw [palVlynqCleanUp]
    dsimp only
    rw [h.vlynq,hinfo,bind_some,hisrs.1,hs1,bind_some,hisrs.2,hs2,bind_some,vlynqUninstallInternIsr,hisrs.1,
      hisrs.2,hsoc,if_pos rfl,hmap,map_some]
  refine ⟨⟨rfl,fun u hu => (update_of_ne hu _ _).symm⟩,⟨by rw [hmap]; rfl,fun i hi => ?_⟩,by rw [hinfo]; rfl,
    fun table irq htable => ?_,⟨by rw [hisrs.1,hisrs.2]; rfl,fun i hi hi' => ⟨rfl,?_⟩⟩,
    fun u hu => (mem_erase_of_ne hu).symm⟩
  · rw [hmap] at hi
    exact (update_of_ne (fun heq => hi (congrArg some heq.symm)) _ _).symm
  · have hne : table ≠ info := fun heq => htable (heq ▸ hinfo)
    have hline (j : ℕ) : ListId.line table irq ≠ .line info j := fun heq => hne (ListId.line.inj heq).1
    rw [without,if_neg hne,put,update_free_line,put,update_free_line,update_of_ne (hline _),
      update_of_ne (hline _)]
  rw [hisrs.1] at hi
  rw [hisrs.2] at hi'
  show s.irqType i = update (update s.irqType m (-1)) n (-1) i
  rw [update_of_ne (fun heq => hi (congrArg some heq.symm)),
    update_of_ne (fun heq => hi' (congrArg some heq.symm))]

lemma InitSpec.takes {w : VlynqT} {m : ℕ} (h : InitSpec s t c v s' n m l w) :
    ∃ t', Retained s' t' v w ∧ Takes s t s' t' v w := by
  have hvlynq : s'.vlynq v = w := by rw [h.vlynq,update_self]
  have htakes {t' : ListId → List ℕ} (hfree : t' .free = l)
      (hlines : ∀ info irq, w.rootIrqInfo ≠ some info → t' (.line info irq) = t (.line info irq)) :
      Takes s t s' t' v w := by
    refine ⟨⟨h.freeVlynq,fun u hu => ?_⟩,⟨h.root.map,fun i _ => congrFun h.root.irqMap i⟩,h.root.info,hlines,
      ⟨?_,fun i hi hi' => ?_⟩,fun u hu => ?_⟩
    · rw [h.vlynq,update_of_ne hu]
    · rw [h.isrInfo.1,h.isrInfo.2,hfree]
      exact h.free
    · rw [h.isrInfo.1] at hi
      rw [h.isrInfo.2] at hi'
      have hn : i ≠ n := fun heq => hi (heq ▸ rfl)
      have hm : i ≠ m := fun heq => hi' (heq ▸ rfl)
      rw [h.isr,h.irqType,update_of_ne hm,update_of_ne hn,update_of_ne hm,update_of_ne hn]
      exact ⟨rfl,rfl⟩
    · rw [h.root.roots]
      split
      · simp [hu]
      · rfl
  obtain ⟨hn,hm⟩ := h.apart
  cases hinfo : w.rootIrqInfo with
  | none =>
    refine ⟨_,⟨h.inv_not_soc hinfo,hvlynq,fun k hk d hd => ?_,fun k hk d hd => ?_⟩,
      htakes (update_self _ _ _) fun info irq _ => update_free_line t l info irq⟩
    · exact absurd hd (some.inj (h.isrInfo.1.symm.trans hk) ▸ hn d)
    · exact absurd hd (some.inj (h.isrInfo.2.symm.trans hk) ▸ hm d)
  | some table =>
    have hne := h.ids.2.2
    have hplace {x k : ℕ} {d : ListId} {a : ListId → List ℕ} {b : ListId} (hx : x ∉ a d) (hd : x ∈ put a b k d) :
        x = k ∧ d = b := by
      by_cases hdb : d = b
      · exact ⟨(mem_put hd).resolve_right hx,hdb⟩
      · rw [put,update_of_ne hdb] at hd
        exact absurd hd hx
    refine ⟨_,⟨h.inv_soc table hinfo,hvlynq,fun k hk d hd => ?_,fun k hk d hd => ?_⟩,htakes ?_ ?_⟩
    · obtain rfl := some.inj (h.isrInfo.1.symm.trans hk)
      have hd1 := by_contra fun hnot => hne (hplace hnot hd).1
      refine ⟨table,hinfo,?_⟩
      rw [h.irqs.1]
      exact (hplace (hn d) hd1).2
    · obtain rfl := some.inj (h.isrInfo.2.symm.trans hk)
      refine ⟨table,hinfo,?_⟩
      rw [h.irqs.2]
      exact (hplace (fun hd1 => (mem_put hd1).elim hne.symm (hm d)) hd).2
    · rfl
    intro info irq htable
    have hline (j : ℕ) : ListId.line info irq ≠ .line table j := by
      rintro ⟨⟩
      exact htable hinfo
    rw [put,update_of_ne (hline _),put,update_of_ne (hline _),update_free_line]

/-- A call that fails gives back what it took, except for one of the tables when the other one cannot
be had. After a call that succeeds, the clean-up of the VLYNQ gives back what it took if it is on the
SoC. -/
theorem vlynq_balance (hp : Pools s t) (c : InitConfig) (r : Registers) :
    (∀ e s', palVlynqInitCall s c r = (.error e,s') →
      (Balanced t s s' ↔ ¬ (AsksTables s c r ∧ OneTable s))) ∧
    ∀ v s', palVlynqInitCall s c r = (.ok v,s') →
      ∃ t', Retained s' t' v (s'.vlynq v) ∧ Takes s t s' t' v (s'.vlynq v) ∧
        ∀ s₁ t₁, Retained s₁ t₁ v (s'.vlynq v) →
          ((∃ s₂ t₂, palVlynqCleanUp s₁ (some v) = some (.ok,s₂) ∧ Inv s₂ t₂ ∧
            Takes s₂ t₂ s₁ t₁ v (s'.vlynq v)) ↔ c.onSoc = true) := by
  refine ⟨fun e s' h => initCall_error_balanced_iff hp h,fun v s' h => ?_⟩
  obtain ⟨n,m,l,w,hspec⟩ := init_spec hp.lists (palVlynqInit_of_call h)
  obtain ⟨t',hkept,htakes⟩ := hspec.takes
  rw [hkept.vlynq]
  refine ⟨t',hkept,htakes,fun s₁ t₁ h₁ => ?_⟩
  obtain ⟨hsoc,hinfo⟩ := hspec.root.soc
  constructor
  · rintro ⟨s₂,t₂,hclean,-⟩
    rw [palVlynqCleanUp,h₁.vlynq] at hclean
    obtain ⟨info,hw,-⟩ := bind_eq_some_iff.mp hclean
    rw [← hinfo,hw]
    rfl
  intro hc
  rw [hc] at hsoc hinfo
  obtain ⟨info,hinfo⟩ := isSome_iff_exists.mp hinfo
  obtain ⟨map,hmap⟩ := isSome_iff_exists.mp (hspec.root.mapped.trans hc)
  exact cleanUp_takes h₁ hinfo hmap hsoc hspec.isrInfo hspec.ids

lemma pools_of_setUp {maxRoot : ℕ} (h : SetUp maxRoot s) : ∃ t, Pools s t := by
  have hroots {s : Pal} (h : SetUp maxRoot s) : ∀ v ∈ s.freeVlynq, v ∉ s.roots := fun v hv hmem =>
    (ready_of_setUp h).1.2.vlynqs.2.2 v hmem hv
  induction h with
  | start => exact ⟨_,inv_palSysVlynqInit maxRoot,fun _ _ _ => rfl,hroots .start⟩
  | @init s s' c v hs hi ih =>
    obtain ⟨t,ht⟩ := ih
    obtain ⟨n,m,l,w,hspec⟩ := init_spec ht.lists hi
    obtain ⟨t',hkept,htakes⟩ := hspec.takes
    have hnodup := (ready_of_setUp hs).1.2.infos.1
    rw [htakes.infos] at hnodup
    refine ⟨t',hkept.lists,fun i hmem irq => ?_,hroots (.init hs hi)⟩
    have hne : w.rootIrqInfo ≠ some i := fun heq =>
      (nodup_append.mp hnodup).2.2 i (mem_toList.mpr heq) i hmem rfl
    rw [htakes.lines i irq hne]
    exact ht.lines i (htakes.infos ▸ mem_append_right _ hmem) irq
  | @mapIrq s s' v line irq r hs hm ih =>
    obtain ⟨t,ht⟩ := ih
    obtain rfl | ⟨root,map,-,-,rfl⟩ := mapIrq_cases hm
    · exact ⟨t,ht⟩
    · exact ⟨t,ht.lists.congr rfl rfl,ht.lines,ht.roots⟩

/-- A configuration that all checks accept. -/
def plainConfig (onSoc : Bool) : InitConfig where
  baseAddr := 0xA8611800
  onSoc := onSoc
  localIntrVector := 31
  peerIntrVector := 30
  localClockOut := true
  peerClockOut := false
  localClockDiv := 1
  peerClockDiv := 1
  localIntrLocal := true
  peerIntrLocal := false
  localInt2cfg := true
  localRtm := (.no,0)
  peerRtm := (.no,0)

def linkUp : Registers := ⟨latestVlynqRev,latestVlynqRev,false,false,true,true,true,true,true⟩

theorem vlynq_balance_soc :
    ∃ s' s₂, palVlynqInitCall (palSysVlynqInit 1) (plainConfig true) linkUp = (.ok 3,s') ∧
      palVlynqCleanUp s' (some 3) = some (.ok,s₂) ∧
      s₂.freeVlynq = (palSysVlynqInit 1).freeVlynq ∧
        s₂.freeIrqMap = (palSysVlynqInit 1).freeIrqMap := by
  obtain ⟨t,ht⟩ := pools_of_setUp (.start : SetUp 1 _)
  have hok : (palVlynqInitCall (palSysVlynqInit 1) (plainConfig true) linkUp).1 = .ok 3 := by decide +kernel
  obtain ⟨t',hkept,htakes,hclean⟩ := (vlynq_balance ht (plainConfig true) linkUp).2 3 _ (Prod.ext hok rfl)
  obtain ⟨s₂,t₂,h,-,hback⟩ := (hclean _ t' hkept).mpr rfl
  exact ⟨_,s₂,Prod.ext hok rfl,h,hback.vlynqs.1.trans htakes.vlynqs.1.symm,hback.maps.1.trans htakes.maps.1.symm⟩

/-- The clean-up of a VLYNQ that is not on the SoC follows a null pointer. A table is lost when the
other pool is empty. -/
theorem cleanUp_nullPointer :
    (palVlynqInitCall (palSysVlynqInit 1) (plainConfig false) linkUp).1 = .ok 3 ∧
      palVlynqCleanUp (palVlynqInitCall (palSysVlynqInit 1) (plainConfig false) linkUp).2
        (some 3) = none ∧
      let lost := palVlynqInitCall { palSysVlynqInit 1 with freeIrqInfo := [] }
        (plainConfig true) linkUp
      lost.1 = .error .rootIrqStructs ∧ (palSysVlynqInit 1).freeIrqMap = [0] ∧
        lost.2.freeIrqMap = [] := by
  decide +kernel

end DslG624t.Vlynq
