import DslG624t.Lib.Lists

/-!
# The interrupt routines of the VLYNQs

The routines installed for the interrupt lines are kept in lists of `isr_info` objects from one
static pool.
-/

namespace DslG624t.Vlynq

open Function HeapList List Option SplitFirst

def maxNumIsr : ℕ := 32

def maxVlynqCount : ℕ := 4

inductive Fn where
  | localError
  | peerError
  | dev (f : ℕ)
  deriving DecidableEq, Repr

/-- The second word of the union: the parameters of a driver's routine, or the VLYNQ of an
internal one. -/
inductive Arg where
  | param (p : ℕ)
  | vlynq (v : ℕ)
  deriving DecidableEq, Repr

structure Isr where
  fn : Fn
  arg : Arg
  deriving DecidableEq, Repr

/-- A call of a routine, by the signature of a driver's or of an internal one. -/
inductive Called where
  | dev (i : Isr)
  | intern (i : Isr)
  deriving DecidableEq, Repr

def Called.arg : Called → Arg
  | .dev i => i.arg
  | .intern i => i.arg

/-- The free list, and the list of a line of one of the tables of root VLYNQs. -/
inductive ListId where
  | free
  | line (table irq : ℕ)
  deriving DecidableEq, Repr

structure VlynqT where
  base : ℕ := 0
  soc : Bool := false
  next : Option ℕ := none
  prev : Option ℕ := none
  rootIrqMap : Option ℕ := none
  rootIrqInfo : Option ℕ := none
  localIsrInfo : Option ℕ := none
  peerIsrInfo : Option ℕ := none
  localIrq : ℕ := 0
  peerIrq : ℕ := 0
  deriving DecidableEq, Repr

/-- `irqMap` has the VLYNQ that a line of a table is mapped for. -/
structure Pal where
  isr : ℕ → Isr
  irqType : ℕ → ℤ
  next : ℕ → Option ℕ
  head : ListId → Option ℕ
  irqMap : ℕ → ℕ → Option ℕ
  vlynq : ℕ → VlynqT
  freeVlynq : List ℕ
  freeIrqMap : List ℕ
  freeIrqInfo : List ℕ
  roots : List ℕ
  maxRoot : ℕ

inductive PalResult where
  | ok
  | invalidParam
  | internalError
  deriving DecidableEq, Repr

def vlynqFreeIsrInfo (s : Pal) (n : ℕ) : Pal :=
  { s with
    irqType := update s.irqType n (-1)
    next := update s.next n (s.head .free)
    head := update s.head .free (some n) }

def vlynqGetFreeIsrInfo (s : Pal) : Option (ℕ × Pal) :=
  (s.head .free).map fun n =>
    (n,{ s with
      next := update s.next n none
      head := update s.head .free (s.next n) })

/-- `PAL_sysVlynqInit`, for a SoC with `maxRoot` VLYNQ ports. -/
def palSysVlynqInit (maxRoot : ℕ) : Pal :=
  (List.range maxNumIsr).foldl vlynqFreeIsrInfo
    { isr := fun _ => ⟨.dev 0,.param 0⟩
      irqType := fun _ => 0
      next := fun _ => none
      head := fun _ => none
      irqMap := fun _ _ => none
      vlynq := fun _ => {}
      freeVlynq := (List.range maxVlynqCount).reverse
      freeIrqMap := (List.range maxRoot).reverse
      freeIrqInfo := (List.range maxRoot).reverse
      roots := []
      maxRoot := maxRoot }

def vlynqAddInternIsr (s : Pal) (table irq n : ℕ) : Pal :=
  { s with
    next := update s.next n (s.head (.line table irq))
    head := update s.head (.line table irq) (some n) }

def unlinkIsr (s : Pal) (table irq : ℕ) (last : Option ℕ) (n : ℕ) : Pal :=
  match last with
  | none => { s with head := update s.head (.line table irq) none }
  | some c => { s with next := update s.next c (s.next n) }

def vlynqRemoveInternIsr (s : Pal) (table irq : ℕ) (isrInfo : Option ℕ) : Option Pal :=
  (findFrom s.next (fun m => some m = isrInfo) maxNumIsr none (s.head (.line table irq))).map fun
    | none => s
    | some (last,m) => unlinkIsr s table irq last m

def Pal.called (s : Pal) (n : ℕ) : Called :=
  if s.irqType n = 0 then .dev (s.isr n) else .intern (s.isr n)

def rootIsrCalls (s : Pal) (table irq : ℕ) : Option (List Called) :=
  (walk s.next maxNumIsr (s.head (.line table irq))).map (List.map s.called)

/-- The first VLYNQ of the chain if it is on the SoC; `none` if the chain has no first one. -/
def findRootFrom (s : Pal) : ℕ → ℕ → Option (Option ℕ)
  | 0, _ => none
  | fuel+1, v =>
    match (s.vlynq v).prev with
    | some u => findRootFrom s fuel u
    | none => some (if (s.vlynq v).soc then some v else none)

def vlynqFindRootVlynq (s : Pal) (v : ℕ) : Option (Option ℕ) := findRootFrom s maxVlynqCount v

def rootIrqInfo (s : Pal) (v : ℕ) : Option (Option ℕ) :=
  (vlynqFindRootVlynq s v).map fun root => root.bind fun r => (s.vlynq r).rootIrqInfo

def vlynqGetMapForIrq (s : Pal) (v irq : ℕ) : Option (Option ℕ) :=
  (vlynqFindRootVlynq s v).map fun root =>
    (root.bind fun r => (s.vlynq r).rootIrqMap).bind fun map => s.irqMap map irq

def setVlynq (s : Pal) (v : ℕ) (f : VlynqT → VlynqT) : Pal :=
  { s with vlynq := update s.vlynq v (f (s.vlynq v)) }

/-- `none` stands for a call that does not return: an endless chain, or a null pointer that is
followed. -/
def palVlynqChainAppend (s : Pal) (thisVlynq toVlynq : Option ℕ) : Option (PalResult × Pal) :=
  match thisVlynq, toVlynq with
  | some thisVlynq, some toVlynq =>
    if (s.vlynq toVlynq).next ≠ none then some (.invalidParam,s)
    else
      (rootIrqInfo s toVlynq).bind fun
        | none => some (.internalError,s)
        | some table =>
          match (s.vlynq toVlynq).localIsrInfo, (s.vlynq toVlynq).peerIsrInfo with
          | some n, some m =>
            let s₁ := vlynqAddInternIsr s table (s.vlynq toVlynq).localIrq n
            let s₂ := vlynqAddInternIsr s₁ table (s.vlynq toVlynq).peerIrq m
            let s₃ := setVlynq s₂ toVlynq fun w => { w with next := some thisVlynq }
            some (.ok, setVlynq s₃ thisVlynq fun w => { w with prev := some toVlynq })
          | _, _ => none
  | _, _ => some (.invalidParam,s)

def palVlynqChainUnAppend (s : Pal) (thisVlynq fromVlynq : Option ℕ) : Option (PalResult × Pal) :=
  match thisVlynq, fromVlynq with
  | some thisVlynq, some fromVlynq =>
    if (s.vlynq thisVlynq).next ≠ none then some (.invalidParam,s)
    else if (s.vlynq fromVlynq).next ≠ some thisVlynq then some (.internalError,s)
    else
      (rootIrqInfo s fromVlynq).bind fun
        | none => some (.internalError,s)
        | some table =>
          let w := s.vlynq fromVlynq
          (vlynqRemoveInternIsr s table w.localIrq w.localIsrInfo).bind fun s₁ =>
          (vlynqRemoveInternIsr s₁ table w.peerIrq w.peerIsrInfo).bind fun s₂ =>
            let s₃ := setVlynq s₂ fromVlynq fun w => { w with next := (s.vlynq thisVlynq).next }
            -- The next VLYNQ's `prev` is written, and there is none.
            (s₃.vlynq thisVlynq).next.map fun u =>
              (.ok, setVlynq s₃ u fun w => { w with prev := some fromVlynq })
  | _, _ => some (.invalidParam,s)

structure VlynqConfig where
  baseAddr : ℕ
  onSoc : Bool
  localIntrVector : ℕ
  peerIntrVector : ℕ
  deriving DecidableEq, Repr

/-- The tables of a VLYNQ on the SoC. -/
def initRoot (s : Pal) (v : ℕ) (c : VlynqConfig) : Option Pal :=
  if c.onSoc then
    match s.freeIrqMap, s.freeIrqInfo with
    | map :: maps, info :: infos =>
      if s.roots.length < s.maxRoot then
        some { s with
          freeIrqMap := maps
          freeIrqInfo := infos
          roots := s.roots ++ [v]
          vlynq := update s.vlynq v
            { s.vlynq v with
              base := c.baseAddr, soc := true, rootIrqMap := some map, rootIrqInfo := some info } }
      else none
    | _, _ => none
  else
    some (setVlynq s v fun w =>
      { w with base := c.baseAddr, soc := false, rootIrqMap := none, rootIrqInfo := none })

def vlynqConfigInternErrorIntr (s : Pal) (v : ℕ) (peer : Bool) : Option (ℕ × Pal) :=
  (vlynqGetFreeIsrInfo s).map fun (n,s) =>
    (n,{ s with
      isr := update s.isr n ⟨if peer then .peerError else .localError,.vlynq v⟩
      irqType := update s.irqType n 1 })

def vlynqInstallInternIsr (s : Pal) (v : ℕ) (c : VlynqConfig) : Option Pal :=
  (vlynqConfigInternErrorIntr s v false).bind fun (n,s) =>
    let s := setVlynq s v fun w => { w with localIsrInfo := some n, localIrq := c.localIntrVector }
    (vlynqConfigInternErrorIntr s v true).map fun (m,s) =>
      setVlynq s v fun w => { w with peerIsrInfo := some m, peerIrq := c.peerIntrVector }

/-- `PAL_vlynqInit` when it is successful, with the VLYNQ it returns. -/
def palVlynqInit (s : Pal) (c : VlynqConfig) : Option (ℕ × Pal) :=
  if 31 < c.localIntrVector ∨ 31 < c.peerIntrVector then none
  else
    match s.freeVlynq with
    | [] => none
    | v :: rest =>
      (initRoot { s with freeVlynq := rest } v c).bind fun s =>
        (vlynqInstallInternIsr s v c).map fun s =>
          match (s.vlynq v).rootIrqInfo, (s.vlynq v).localIsrInfo, (s.vlynq v).peerIsrInfo with
          | some table, some n, some m =>
            (v,vlynqAddInternIsr (vlynqAddInternIsr s table c.localIntrVector n) table
              c.peerIntrVector m)
          | _, _, _ => (v,s)

/-- `PAL_vlynqMapIrq`, as far as it concerns the lists. -/
def palVlynqMapIrq (s : Pal) (v hwIntrLine irq : ℕ) : Option (PalResult × Pal) :=
  if 31 < irq ∨ 7 < hwIntrLine then some (.invalidParam,s)
  else
    (vlynqGetMapForIrq s v irq).bind fun mapped =>
      if mapped.isSome then some (.internalError,s)
      else
        (vlynqFindRootVlynq s v).map fun root =>
          match root.bind fun r => (s.vlynq r).rootIrqMap with
          | none => (.internalError,s)
          | some map =>
            (.ok,{ s with
              irqMap := update s.irqMap map (update (s.irqMap map) irq (some v)) })

def palVlynqAddIsr (s : Pal) (vlynq : Option ℕ) (irq : ℕ) (devIsr : Option Fn)
    (isrParam : Option Arg) : Option (PalResult × Pal) :=
  match vlynq, devIsr, isrParam with
  | some v, some fn, some arg =>
    if 31 < irq then some (.invalidParam,s)
    else
      (vlynqGetMapForIrq s v irq).bind fun mapped =>
        if mapped.isNone then some (.internalError,s)
        else
          (rootIrqInfo s v).map fun
            | none => (.internalError,s)
            | some table =>
              match vlynqGetFreeIsrInfo s with
              | none => (.internalError,s)
              | some (n,s) =>
                (.ok,vlynqAddInternIsr { s with
                    isr := update s.isr n ⟨fn,arg⟩
                    irqType := update s.irqType n 0 } table irq n)
  | _, _, _ => some (.invalidParam,s)

def palVlynqRemoveIsr (s : Pal) (vlynq : Option ℕ) (irq : ℕ) (isrParam : Option Arg) :
    Option (PalResult × Pal) :=
  match vlynq, isrParam with
  | some v, some arg =>
    if 31 < irq then some (.invalidParam,s)
    else
      (rootIrqInfo s v).bind fun
        | none => some (.internalError,s)
        | some table =>
          (findFrom s.next (fun n => (s.isr n).arg = arg) maxNumIsr none
            (s.head (.line table irq))).map fun
            | none => (.internalError,s)
            | some (last,n) => (.ok,vlynqFreeIsrInfo (unlinkIsr s table irq last n) n)
  | _, _ => some (.invalidParam,s)

structure Inv (s : Pal) (t : ListId → List ℕ) : Prop where
  lists : Lists s.next s.head t
  lt : ∀ b, ∀ n ∈ t b, n < maxNumIsr

variable {s s' : Pal} {t : ListId → List ℕ} {n table irq : ℕ} {l : List ℕ} {r : PalResult}
  {isrParam : Option Arg} {v : ℕ} {c : VlynqConfig}

lemma Inv.congr (h : Inv s t) (hnext : s'.next = s.next) (hhead : s'.head = s.head) :
    Inv s' t where
  lists := by
    rw [hnext,hhead]
    exact h.lists
  lt := h.lt

lemma Pal.arg_called (s : Pal) (n : ℕ) : (s.called n).arg = (s.isr n).arg := by
  unfold Pal.called
  split <;> rfl

lemma Inv.length_le (h : Inv s t) (b : ListId) : (t b).length ≤ maxNumIsr :=
  length_le_of_nodup (h.lists.nodup b) (h.lt b)

lemma Inv.rootIsrCalls_eq (h : Inv s t) (table irq : ℕ) :
    rootIsrCalls s table irq = some ((t (.line table irq)).map s.called) := by
  rw [rootIsrCalls,walk_eq_some_iff.mpr ⟨h.lists.chain _,h.length_le _⟩,map_some]

lemma mem_update {b c : ListId} (hn : n ∈ update t b l c) : n ∈ l ∨ n ∈ t c := by
  by_cases hc : c = b
  · subst hc
    rw [update_self] at hn
    exact .inl hn
  · rw [update_of_ne hc] at hn
    exact .inr hn

abbrev put (t : ListId → List ℕ) (b : ListId) (n : ℕ) : ListId → List ℕ :=
  update t b (n :: t b)

lemma mem_put {b c : ListId} {k : ℕ} (hk : k ∈ put t b n c) : k = n ∨ k ∈ t c := by
  by_cases hc : c = b
  · subst hc
    rw [put,update_self] at hk
    exact mem_cons.mp hk
  · rw [put,update_of_ne hc] at hk
    exact .inr hk

lemma Inv.push (h : Inv s t) (hn : ∀ b, n ∉ t b) (hlt : n < maxNumIsr) (b : ListId)
    (hnext : s'.next = update s.next n (s.head b))
    (hhead : s'.head = update s.head b (some n)) :
    Inv s' (put t b n) where
  lists := by
    rw [hnext,hhead]
    exact h.lists.push hn b
  lt c m hm := by
    obtain rfl | hm := mem_put hm
    · exact hlt
    · exact h.lt c m hm

lemma Inv.free (h : Inv s t) (hn : ∀ b, n ∉ t b) (hlt : n < maxNumIsr) :
    Inv (vlynqFreeIsrInfo s n) (put t .free n) :=
  h.push hn hlt .free rfl rfl

lemma Inv.addIntern (h : Inv s t) (hn : ∀ b, n ∉ t b) (hlt : n < maxNumIsr) :
    Inv (vlynqAddInternIsr s table irq n) (put t (.line table irq) n) :=
  h.push hn hlt (.line table irq) rfl rfl

lemma Inv.getFree (h : Inv s t) (hg : vlynqGetFreeIsrInfo s = some (n,s')) :
    ∃ l, t .free = n :: l ∧ Inv s' (Function.update t .free l) ∧
      (∀ b, n ∉ Function.update t .free l b) ∧ n < maxNumIsr := by
  obtain ⟨m,hm,heq⟩ := map_eq_some_iff.mp hg
  obtain ⟨rfl,rfl⟩ := Prod.mk.inj heq
  rw [h.lists.head_eq] at hm
  obtain ⟨l,hl⟩ := head?_eq_some_iff.mp hm
  obtain ⟨hlists,hnot⟩ := h.lists.pop hl
  refine ⟨l,hl,⟨hlists.write hnot none,fun c k hk => ?_⟩,hnot,h.lt .free m (hl ▸ mem_cons_self)⟩
  obtain hk | hk := mem_update hk
  · exact h.lt .free k (hl ▸ mem_cons_of_mem m hk)
  · exact h.lt c k hk

lemma Inv.unlink (h : Inv s t) {a b : List ℕ} (ht : t (.line table irq) = a ++ n :: b) :
    Inv (unlinkIsr s table irq a.getLast? n)
      (update t (.line table irq) (if a = [] then [] else a ++ b)) ∧
      ∀ c, n ∉ update t (.line table irq) (if a = [] then [] else a ++ b) c := by
  have hn : n ∈ t (.line table irq) := ht ▸ mem_append_right a mem_cons_self
  obtain rfl | ⟨l,c,rfl⟩ := eq_nil_or_concat' a
  · rw [if_pos rfl]
    refine ⟨⟨h.lists.drop _,fun c k hk => ?_⟩,h.lists.notMem_update hn not_mem_nil⟩
    obtain hk | hk := mem_update hk
    · cases hk
    · exact h.lt c k hk
  rw [if_neg (by simp),getLast?_append,getLast?_singleton]
  obtain ⟨hlists,hnot⟩ := h.lists.unlink ht
  refine ⟨⟨hlists,fun d k hk => ?_⟩,hnot⟩
  obtain hk | hk := mem_update hk
  · refine h.lt (.line table irq) k ?_
    rw [ht]
    exact (List.Sublist.append_left (sublist_cons_self n b) _).subset hk
  · exact h.lt d k hk

lemma Inv.foldl_free (h : Inv s t) (hl : l.Nodup) (hn : ∀ n ∈ l, ∀ b, n ∉ t b)
    (hlt : ∀ n ∈ l, n < maxNumIsr) :
    Inv (l.foldl vlynqFreeIsrInfo s) (update t .free (l.reverse ++ t .free)) := by
  induction l generalizing s t with
  | nil =>
    rw [reverse_nil,nil_append,update_eq_self]
    exact h
  | cons n l ih =>
    obtain ⟨hnl,hl⟩ := nodup_cons.mp hl
    obtain ⟨hn,hns⟩ := forall_mem_cons.mp hn
    obtain ⟨hltn,hlt⟩ := forall_mem_cons.mp hlt
    have hrest := ih (h.free hn hltn) hl (fun m hm b hb => ?_) hlt
    · rw [put,update_self,update_idem] at hrest
      rwa [reverse_cons,append_assoc]
    · obtain rfl | hb := mem_put hb
      · exact hnl hm
      · exact hns m hm b hb

lemma inv_palSysVlynqInit (maxRoot : ℕ) : Inv (palSysVlynqInit maxRoot)
    (update (fun _ => []) .free (List.range maxNumIsr).reverse) := by
  have h : Inv (⟨fun _ => ⟨.dev 0,.param 0⟩,fun _ => 0,fun _ => none,fun _ => none,
      fun _ _ => none,fun _ => {},(range maxVlynqCount).reverse,
      (range maxRoot).reverse,(range maxRoot).reverse,[],maxRoot⟩ : Pal)
      (fun _ => []) := by
    refine ⟨⟨fun _ => rfl,fun _ => nodup_nil,fun b c x hx => ?_⟩,fun b n hn => ?_⟩
    · cases hx
    · cases hn
  have hall := h.foldl_free nodup_range (fun n _ b hb => by cases hb)
    fun n hn => mem_range.mp hn
  rwa [append_nil] at hall

def Pal.tables (s : Pal) : (ℕ → ℕ → Option ℕ) × List ℕ × List ℕ × List ℕ × List ℕ :=
  (s.irqMap,s.roots,s.freeIrqMap,s.freeIrqInfo,s.freeVlynq)

lemma palSysVlynqInit_tables (maxRoot : ℕ) :
    (palSysVlynqInit maxRoot).vlynq = (fun _ => {}) ∧ (palSysVlynqInit maxRoot).tables =
      (fun _ _ => none, [], (List.range maxRoot).reverse, (List.range maxRoot).reverse,
        (List.range maxVlynqCount).reverse) := by
  have hfold (l : List ℕ) (s : Pal) : (l.foldl vlynqFreeIsrInfo s).vlynq = s.vlynq ∧
      (l.foldl vlynqFreeIsrInfo s).tables = s.tables := by
    induction l generalizing s with
    | nil => exact ⟨rfl,rfl⟩
    | cons n l ih => exact ih (vlynqFreeIsrInfo s n)
  exact hfold _ _

lemma failed {x r : PalResult} (heq : (x,s) = (r,s')) (hx : x ≠ .ok) : r ≠ .ok ∧ s' = s := by
  cases heq
  exact ⟨hx,rfl⟩

lemma mapIrq_cases {v hwIntrLine : ℕ} (h : palVlynqMapIrq s v hwIntrLine irq = some (r,s')) :
    s' = s ∨ ∃ root map, vlynqFindRootVlynq s v = some (some root) ∧
      (s.vlynq root).rootIrqMap = some map ∧
      s' = { s with
        irqMap := update s.irqMap map (update (s.irqMap map) irq (some v)) } := by
  unfold palVlynqMapIrq at h
  split at h
  · exact .inl (Prod.mk.inj (some.inj h)).2.symm
  obtain ⟨mapped,-,h⟩ := bind_eq_some_iff.mp h
  split at h
  · exact .inl (Prod.mk.inj (some.inj h)).2.symm
  obtain ⟨root,hroot,h⟩ := map_eq_some_iff.mp h
  split at h
  · exact .inl (Prod.mk.inj h).2.symm
  · next map hmap =>
    cases h
    obtain ⟨r,rfl,hmap⟩ := bind_eq_some_iff.mp hmap
    exact .inr ⟨r,map,hroot,hmap,rfl⟩

lemma addIsr_cases {v : Option ℕ} {devIsr : Option Fn}
    (h : palVlynqAddIsr s v irq devIsr isrParam = some (r,s')) :
    (r ≠ .ok ∧ s' = s) ∨ ∃ u fn arg table n s1, v = some u ∧ devIsr = some fn ∧
      isrParam = some arg ∧ rootIrqInfo s u = some (some table) ∧
      vlynqGetFreeIsrInfo s = some (n,s1) ∧ r = .ok ∧
      s' = vlynqAddInternIsr { s1 with
        isr := update s1.isr n ⟨fn,arg⟩
        irqType := update s1.irqType n 0 } table irq n := by
  unfold palVlynqAddIsr at h
  split at h
  · split at h
    · exact .inl (failed (some.inj h) nofun)
    obtain ⟨mapped,-,h⟩ := bind_eq_some_iff.mp h
    split at h
    · exact .inl (failed (some.inj h) nofun)
    obtain ⟨table,htable,h⟩ := map_eq_some_iff.mp h
    cases table with
    | none => exact .inl (failed h nofun)
    | some table =>
      dsimp only at h
      split at h
      · exact .inl (failed h nofun)
      · next n s1 hget =>
        cases h
        exact .inr ⟨_,_,_,table,n,s1,rfl,rfl,rfl,htable,hget,rfl,rfl⟩
  · exact .inl (failed (some.inj h) nofun)

lemma removeIsr_cases (hinv : Inv s t) {v : Option ℕ}
    (h : palVlynqRemoveIsr s v irq isrParam = some (r,s')) :
    (r ≠ .ok ∧ s' = s) ∨ ∃ u arg table a n b, v = some u ∧ isrParam = some arg ∧
      rootIrqInfo s u = some (some table) ∧ t (.line table irq) = a ++ n :: b ∧
      (s.isr n).arg = arg ∧ (∀ x ∈ a, (s.isr x).arg ≠ arg) ∧ r = .ok ∧
      s' = vlynqFreeIsrInfo (unlinkIsr s table irq a.getLast? n) n := by
  unfold palVlynqRemoveIsr at h
  split at h
  · next u arg =>
    split at h
    · exact .inl (failed (some.inj h) nofun)
    obtain ⟨table,htable,h⟩ := bind_eq_some_iff.mp h
    cases table with
    | none => exact .inl (failed (some.inj h) nofun)
    | some table =>
      dsimp only at h
      rw [findFrom_eq (hinv.lists.chain _) (hinv.length_le _),map_some] at h
      cases hsplit : splitFirst (fun n => decide ((s.isr n).arg = arg)) (t (.line table irq)) with
      | none =>
        rw [hsplit] at h
        exact .inl (failed (some.inj h) nofun)
      | some x =>
        obtain ⟨a,n,b⟩ := x
        obtain ⟨ht,hn,ha⟩ := splitFirst_eq_some_iff.mp hsplit
        rw [hsplit] at h
        cases h
        refine .inr ⟨u,arg,table,a,n,b,rfl,rfl,htable,ht,of_decide_eq_true hn,
          fun x hx => of_decide_eq_false (ha x hx),rfl,?_⟩
        rw [cellBefore,or_none]
  · exact .inl (failed (some.inj h) nofun)

/-- What is taken for the tables of a VLYNQ, `w` when it is set up. -/
structure RootSpec (s s' : Pal) (v : ℕ) (c : VlynqConfig) (w : VlynqT) : Prop where
  base : w.base = c.baseAddr
  soc : w.soc = c.onSoc ∧ w.rootIrqInfo.isSome = c.onSoc
  mapped : w.rootIrqMap.isSome = c.onSoc
  chained : w.next = (s.vlynq v).next ∧ w.prev = (s.vlynq v).prev
  irqMap : s'.irqMap = s.irqMap
  roots : s'.roots = if c.onSoc then s.roots ++ [v] else s.roots
  map : s.freeIrqMap = w.rootIrqMap.toList ++ s'.freeIrqMap
  info : s.freeIrqInfo = w.rootIrqInfo.toList ++ s'.freeIrqInfo

/-- What `PAL_vlynqInit` does: two objects become the internal routines of a VLYNQ, and are put into
the lists of its table if it is on the SoC. -/
structure InitSpec (s : Pal) (t : ListId → List ℕ) (c : VlynqConfig) (v : ℕ) (s' : Pal)
    (n m : ℕ) (l : List ℕ) (w : VlynqT) : Prop where
  freeVlynq : s.freeVlynq = v :: s'.freeVlynq
  free : t .free = n :: m :: l
  vlynq : s'.vlynq = update s.vlynq v w
  root : RootSpec s s' v c w
  isrInfo : w.localIsrInfo = some n ∧ w.peerIsrInfo = some m
  irqs : w.localIrq = c.localIntrVector ∧ w.peerIrq = c.peerIntrVector
  isr : s'.isr = update (update s.isr n ⟨.localError,.vlynq v⟩) m
    ⟨.peerError,.vlynq v⟩
  irqType : s'.irqType = update (update s.irqType n 1) m 1
  apart : (∀ b, n ∉ update t .free l b) ∧ ∀ b, m ∉ update t .free l b
  ids : n < maxNumIsr ∧ m < maxNumIsr ∧ n ≠ m
  inv_soc : ∀ table, w.rootIrqInfo = some table → Inv s' (put (put (update t .free l)
    (.line table c.localIntrVector) n) (.line table c.peerIntrVector) m)
  inv_not_soc : w.rootIrqInfo = none → Inv s' (update t .free l)

lemma initRoot_cases (h : initRoot s v c = some s') :
    ∃ w, s'.vlynq = update s.vlynq v w ∧ RootSpec s s' v c w ∧ s'.next = s.next ∧
      s'.head = s.head ∧ s'.isr = s.isr ∧ s'.irqType = s.irqType ∧ s'.freeVlynq = s.freeVlynq := by
  unfold initRoot at h
  split at h
  · next hsoc =>
    split at h
    · next map maps info infos hmap hinfo =>
      split at h
      · cases h
        refine ⟨_,rfl,⟨rfl,⟨hsoc.symm,hsoc.symm⟩,hsoc.symm,⟨rfl,rfl⟩,rfl,?_,hmap,hinfo⟩,rfl,rfl,rfl,
          rfl,rfl⟩
        rw [if_pos hsoc]
      · cases h
    · cases h
  next hsoc =>
  cases h
  have hfalse : c.onSoc = false := Bool.not_eq_true _ ▸ hsoc
  refine ⟨_,rfl,⟨rfl,⟨hfalse.symm,hfalse.symm⟩,hfalse.symm,⟨rfl,rfl⟩,rfl,?_,rfl,rfl⟩,rfl,rfl,rfl,
    rfl,rfl⟩
  rw [if_neg hsoc]
  rfl

lemma Inv.config (h : Inv s t) {peer : Bool}
    (hc : vlynqConfigInternErrorIntr s v peer = some (n,s')) :
    ∃ l, t .free = n :: l ∧ Inv s' (update t .free l) ∧
      (∀ b, n ∉ update t .free l b) ∧ n < maxNumIsr ∧
      s'.isr = update s.isr n ⟨if peer then .peerError else .localError,.vlynq v⟩ ∧
      s'.irqType = update s.irqType n 1 ∧ s'.vlynq = s.vlynq ∧ s'.tables = s.tables := by
  obtain ⟨⟨m,s1⟩,hget,heq⟩ := map_eq_some_iff.mp hc
  cases heq
  obtain ⟨l,hl,hinv,hnot,hlt⟩ := h.getFree hget
  obtain ⟨k,-,heq⟩ := map_eq_some_iff.mp hget
  cases heq
  exact ⟨l,hl,hinv.congr rfl rfl,hnot,hlt,rfl,rfl,rfl,rfl⟩

lemma Inv.install (h : Inv s t) (hi : vlynqInstallInternIsr s v c = some s') :
    ∃ n m l, t .free = n :: m :: l ∧ Inv s' (update t .free l) ∧
      ((∀ b, n ∉ update t .free l b) ∧ ∀ b, m ∉ update t .free l b) ∧
      (n < maxNumIsr ∧ m < maxNumIsr ∧ n ≠ m) ∧
      s'.isr = update (update s.isr n ⟨.localError,.vlynq v⟩) m
        ⟨.peerError,.vlynq v⟩ ∧
      s'.irqType = update (update s.irqType n 1) m 1 ∧
      s'.vlynq = update s.vlynq v { s.vlynq v with
        localIsrInfo := some n, localIrq := c.localIntrVector, peerIsrInfo := some m,
        peerIrq := c.peerIntrVector } ∧
      s'.tables = s.tables := by
  obtain ⟨⟨n,s1⟩,h1,hi⟩ := bind_eq_some_iff.mp hi
  obtain ⟨⟨m,s2⟩,h2,rfl⟩ := map_eq_some_iff.mp hi
  obtain ⟨l1,hl1,hinv1,hnot1,hlt1,hisr1,htype1,hv1,hf1⟩ := h.config h1
  have hset : Inv (setVlynq s1 v fun w =>
      { w with localIsrInfo := some n, localIrq := c.localIntrVector }) _ := hinv1.congr rfl rfl
  obtain ⟨l,hl,hinv2,hnot2,hlt2,hisr2,htype2,hv2,hf2⟩ := hset.config h2
  rw [update_self] at hl
  subst hl
  rw [update_idem] at hinv2 hnot2
  have hne : n ≠ m := by
    rintro rfl
    have hm := hnot1 .free
    rw [update_self] at hm
    exact hm mem_cons_self
  have hnot : ∀ b, n ∉ update t .free l b := by
    intro b hb
    refine hnot1 b ?_
    by_cases hbf : b = .free
    · subst hbf
      rw [update_self] at hb ⊢
      exact mem_cons_of_mem m hb
    · rwa [update_of_ne hbf] at hb ⊢
  refine ⟨n,m,l,hl1,hinv2.congr rfl rfl,⟨hnot,hnot2⟩,⟨hlt1,hlt2,hne⟩,?_,?_,?_,?_⟩
  · show s2.isr = _
    rw [hisr2]
    show update s1.isr m _ = _
    rw [hisr1]
    rfl
  · show s2.irqType = _
    rw [htype2]
    show update s1.irqType m _ = _
    rw [htype1]
  · simp only [setVlynq,hv2,hv1,update_self,update_idem]
  · exact hf2.trans hf1

lemma init_spec (h : Inv s t) (hi : palVlynqInit s c = some (v,s')) :
    ∃ n m l w, InitSpec s t c v s' n m l w := by
  unfold palVlynqInit at hi
  split at hi
  · cases hi
  split at hi
  · cases hi
  next v0 rest hfree =>
  obtain ⟨s1,hroot,hi⟩ := bind_eq_some_iff.mp hi
  obtain ⟨s2,hinst,hi⟩ := map_eq_some_iff.mp hi
  obtain ⟨w,hv,hspec,hnext,hhead,hisr,htype,hrest⟩ := initRoot_cases hroot
  obtain ⟨n,m,l,hl,hinv,hnot,hlt,hisr2,htype2,hv2,htables⟩ :=
    (h.congr hnext hhead).install hinst
  have hw : s2.vlynq v0 = { w with
      localIsrInfo := some n, localIrq := c.localIntrVector, peerIsrInfo := some m,
      peerIrq := c.peerIntrVector } := by
    rw [hv2,hv,update_self,update_self]
  have hvlynq : s2.vlynq = update s.vlynq v0 { w with
      localIsrInfo := some n, localIrq := c.localIntrVector, peerIsrInfo := some m,
      peerIrq := c.peerIntrVector } := by
    rw [hv2,hv,update_self,update_idem]
  obtain ⟨hmap,htables⟩ := Prod.mk.inj htables
  obtain ⟨hroots,htables⟩ := Prod.mk.inj htables
  obtain ⟨hmaps,htables⟩ := Prod.mk.inj htables
  obtain ⟨hinfos,hfrees⟩ := Prod.mk.inj htables
  rw [hisr] at hisr2
  rw [htype] at htype2
  have hrest2 : s.freeVlynq = v0 :: s2.freeVlynq := by rw [hfrees,hrest,hfree]
  have hspec2 : RootSpec s s2 v0 c { w with
      localIsrInfo := some n, localIrq := c.localIntrVector, peerIsrInfo := some m,
      peerIrq := c.peerIntrVector } :=
    ⟨hspec.base,hspec.soc,hspec.mapped,hspec.chained,hmap.trans hspec.irqMap,hroots.trans hspec.roots,
      hmaps ▸ hspec.map,hinfos ▸ hspec.info⟩
  rw [hw] at hi
  cases htable : w.rootIrqInfo with
  | none =>
    rw [htable] at hi
    cases hi
    exact ⟨n,m,l,_,hrest2,hl,hvlynq,hspec2,⟨rfl,rfl⟩,⟨rfl,rfl⟩,hisr2,htype2,hnot,hlt,
      fun table heq => absurd (htable.symm.trans heq) nofun,fun _ => hinv⟩
  | some table =>
    rw [htable] at hi
    cases hi
    refine ⟨n,m,l,_,hrest2,hl,hvlynq,⟨hspec2.base,hspec2.soc,hspec2.mapped,hspec2.chained,
      hspec2.irqMap,hspec2.roots,hspec2.map,hspec2.info⟩,⟨rfl,rfl⟩,⟨rfl,rfl⟩,hisr2,htype2,
      hnot,hlt,fun table' heq => ?_,fun heq => absurd (htable.symm.trans heq) nofun⟩
    obtain rfl := some.inj (htable.symm.trans heq)
    have h1 : Inv (vlynqAddInternIsr s2 table c.localIntrVector n) _ :=
      hinv.addIntern hnot.1 hlt.1
    refine h1.addIntern (fun b hb => ?_) hlt.2.1
    obtain hb | hb := mem_put hb
    · exact hlt.2.2 hb.symm
    · exact hnot.2 b hb

end DslG624t.Vlynq
