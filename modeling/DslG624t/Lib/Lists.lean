import DslG624t.Lib.Chain
import DslG624t.Lib.SplitFirst

/-!
# Lists that share their cells

Several null-terminated lists are linked through one `next` field of the cells of a pool, so that
a cell is in one list at most.
-/

namespace HeapList

open Function List Option SplitFirst

variable {α β : Type*} {next : α → Option α} {head : β → Option α} {t : β → List α} {a c : α} {b : β}
  {p q : Option α} {l m : List α}

def walk (next : α → Option α) : ℕ → Option α → Option (List α)
  | _, none => some []
  | 0, some _ => none
  | fuel+1, some a => (walk next fuel (next a)).map (a :: ·)

lemma walk_eq_some_iff {fuel : ℕ} :
    walk next fuel p = some l ↔ Chain next p l ∧ l.length ≤ fuel := by
  induction fuel generalizing p l with
  | zero =>
    cases p with
    | none =>
      rw [walk,some.injEq]
      constructor
      · rintro rfl
        exact ⟨rfl,le_refl 0⟩
      · rintro ⟨-,hl⟩
        exact (length_eq_zero_iff.mp (Nat.le_zero.mp hl)).symm
    | some a =>
      refine iff_of_false (by simp [walk]) ?_
      rintro ⟨h,hl⟩
      obtain rfl := length_eq_zero_iff.mp (Nat.le_zero.mp hl)
      cases h
  | succ fuel ih =>
    cases p with
    | none =>
      rw [walk,some.injEq]
      constructor
      · rintro rfl
        exact ⟨rfl,Nat.zero_le _⟩
      · rintro ⟨h,-⟩
        cases l with
        | nil => rfl
        | cons a l => cases h.1
    | some a =>
      rw [walk,map_eq_some_iff]
      constructor
      · rintro ⟨m,hm,rfl⟩
        obtain ⟨hc,hle⟩ := ih.mp hm
        exact ⟨⟨rfl,hc⟩,Nat.succ_le_succ hle⟩
      rintro ⟨h,hle⟩
      cases l with
      | nil => cases h
      | cons x l =>
        obtain rfl := some.inj h.1
        exact ⟨l,ih.mpr ⟨h.2,Nat.le_of_succ_le_succ hle⟩,rfl⟩

/-- The first cell with a property, after the cell before it; `last` is the cell before `p`. -/
def findFrom (next : α → Option α) (test : α → Bool) :
    ℕ → Option α → Option α → Option (Option (Option α × α))
  | _, _, none => some none
  | 0, _, some _ => none
  | fuel+1, last, some a =>
    if test a then some (some (last,a)) else findFrom next test fuel (some a) (next a)

def cellBefore (last : Option α) (pre : List α) : Option α := pre.getLast?.or last

lemma cellBefore_cons (last : Option α) (a : α) (pre : List α) :
    cellBefore last (a :: pre) = cellBefore (some a) pre := by
  rw [cellBefore,cellBefore,getLast?_cons]
  cases pre.getLast? <;> rfl

lemma findFrom_eq {test : α → Bool} {fuel : ℕ} {last : Option α} (h : Chain next p l)
    (hl : l.length ≤ fuel) :
    findFrom next test fuel last p =
      some ((splitFirst test l).map fun x => (cellBefore last x.1,x.2.1)) := by
  induction l generalizing p fuel last with
  | nil =>
    obtain rfl : p = none := h
    cases fuel <;> rfl
  | cons a l ih =>
    obtain ⟨rfl,h⟩ := h
    cases fuel with
    | zero => cases hl
    | succ fuel =>
      rw [findFrom,splitFirst]
      cases test a with
      | true => rfl
      | false =>
        simp only [Bool.false_eq_true,if_false]
        rw [ih h (Nat.le_of_succ_le_succ hl),Option.map_map]
        congr 2
        funext x
        rw [comp_apply,cellBefore_cons]

/-- The cells of each list, from its head on; no cell is in two places. -/
structure Lists (next : α → Option α) (head : β → Option α) (t : β → List α) : Prop where
  chain : ∀ b, Chain next (head b) (t b)
  nodup : ∀ b, (t b).Nodup
  disjoint : ∀ b c x, x ∈ t b → x ∈ t c → b = c

namespace Lists

variable (h : Lists next head t)

include h

lemma head_eq (b : β) : head b = (t b).head? := Chain.head_eq (h.chain b)

/-- The link of a cell outside the lists may be written. -/
lemma write [DecidableEq α] (ha : ∀ c, a ∉ t c) (q : Option α) :
    Lists (update next a q) head t where
  chain c := by
    refine (h.chain c).congr fun x hx => update_of_ne ?_ _ _
    rintro rfl
    exact ha c hx
  nodup := h.nodup
  disjoint := h.disjoint

variable [DecidableEq β]

/-- Cells are taken out of one list, and the links of the others are left alone. -/
lemma shrink {next' : α → Option α} (hl : Chain next' q l) (hsub : l.Sublist (t b))
    (hother : ∀ c, c ≠ b → ∀ x ∈ t c, next' x = next x) :
    Lists next' (update head b q) (update t b l) := by
  have hmem {c : β} {x : α} (hx : x ∈ update t b l c) : x ∈ t c := by
    by_cases hc : c = b
    · subst hc
      rw [update_self] at hx
      exact hsub.subset hx
    · rwa [update_of_ne hc] at hx
  refine ⟨fun c => ?_,fun c => ?_,fun c d x hc hd => h.disjoint c d x (hmem hc) (hmem hd)⟩
  · by_cases hc : c = b
    · subst hc
      rwa [update_self,update_self]
    · rw [update_of_ne hc,update_of_ne hc]
      exact (h.chain c).congr (hother c hc)
  by_cases hc : c = b
  · subst hc
    rw [update_self]
    exact (h.nodup c).sublist hsub
  · rw [update_of_ne hc]
    exact h.nodup c

/-- A cell taken out of its list is in none. -/
lemma notMem_update (hat : a ∈ t b) (hal : a ∉ l) (c : β) : a ∉ update t b l c := by
  by_cases hc : c = b
  · subst hc
    rwa [update_self]
  · rw [update_of_ne hc]
    exact fun hac => hc (h.disjoint c b a hac hat)

lemma pop (ht : t b = a :: l) :
    Lists next (update head b (next a)) (update t b l) ∧
      ∀ c, a ∉ update t b l c := by
  have hb := h.chain b
  have hnodup := h.nodup b
  rw [ht] at hb hnodup
  constructor
  · exact h.shrink hb.2 (ht ▸ sublist_cons_self a l) fun _ _ _ _ => rfl
  · exact h.notMem_update (ht ▸ mem_cons_self) (nodup_cons.mp hnodup).1

/-- A list is forgotten; its cells are in none. -/
lemma drop (b : β) : Lists next (update head b none) (update t b []) :=
  h.shrink rfl (nil_sublist _) fun _ _ _ _ => rfl

variable [DecidableEq α]

/-- A cell behind another one is taken out by the link of that one. -/
lemma unlink (ht : t b = l ++ [c] ++ a :: m) :
    Lists (update next c (next a)) head (update t b (l ++ [c] ++ m)) ∧
      ∀ d, a ∉ update t b (l ++ [c] ++ m) d := by
  have hb := h.chain b
  have hnodup := h.nodup b
  rw [ht] at hb hnodup
  have hperm : (a :: (l ++ [c] ++ m)).Nodup := perm_middle.nodup_iff.mp hnodup
  constructor
  · have hshrink := h.shrink (b := b) (Chain.remove_cell hb hnodup)
      (ht ▸ List.Sublist.append_left (sublist_cons_self a m) _) fun d hd x hx => ?_
    · rwa [update_eq_self] at hshrink
    · refine update_of_ne ?_ _ _
      rintro rfl
      exact hd (h.disjoint d b x hx (ht ▸ by simp))
  · exact h.notMem_update (ht ▸ by simp) (nodup_cons.mp hperm).1

lemma push (ha : ∀ c, a ∉ t c) (b : β) :
    Lists (update next a (head b)) (update head b (some a))
      (update t b (a :: t b)) := by
  have hw := h.write ha (head b)
  have hmem {c : β} {x : α} (hx : x ∈ update t b (a :: t b) c) :
      x = a ∧ c = b ∨ x ∈ t c ∧ x ≠ a := by
    have hne {c : β} (hxc : x ∈ t c) : x ≠ a := by
      rintro rfl
      exact ha c hxc
    by_cases hc : c = b
    · subst hc
      rw [update_self,mem_cons] at hx
      exact hx.imp (fun hx => ⟨hx,rfl⟩) fun hx => ⟨hx,hne hx⟩
    · rw [update_of_ne hc] at hx
      exact .inr ⟨hx,hne hx⟩
  refine ⟨fun c => ?_,fun c => ?_,fun c d x hc hd => ?_⟩
  · by_cases hc : c = b
    · subst hc
      rw [update_self,update_self]
      refine ⟨rfl,?_⟩
      rw [update_self]
      exact hw.chain c
    · rw [update_of_ne hc,update_of_ne hc]
      exact hw.chain c
  · by_cases hc : c = b
    · subst hc
      rw [update_self]
      exact nodup_cons.mpr ⟨ha c,h.nodup c⟩
    · rw [update_of_ne hc]
      exact h.nodup c
  obtain ⟨hx,rfl⟩ | ⟨hc,hx⟩ := hmem hc
  · obtain ⟨-,rfl⟩ | ⟨-,hne⟩ := hmem hd
    · rfl
    · exact absurd hx hne
  · obtain ⟨hx',-⟩ | ⟨hd,-⟩ := hmem hd
    · exact absurd hx' hx
    · exact h.disjoint c d x hc hd

end Lists

end HeapList
