import DslG624t.Lib.Chain

/-!
# Hash chains with back links

Every bucket heads a null-terminated list, and every cell also knows the slot that points to it:
the head of its bucket or the link of the cell before it.
-/

namespace HashChain

open Function HeapList

variable {β α : Type*}

/-- Where a pointer to a cell is stored. -/
inductive Slot (β α : Type*)
  | head (b : β)
  | next (a : α)
  deriving DecidableEq

structure Links (β α : Type*) where
  head : β → Option α
  next : α → Option α
  pprev : α → Option (Slot β α)

def slotAfter (b : β) (pre : List α) : Slot β α :=
  match pre.getLast? with
  | none => .head b
  | some x => .next x

@[simp] lemma slotAfter_nil (b : β) : slotAfter b ([] : List α) = .head b := rfl

@[simp] lemma slotAfter_concat (b : β) (pre : List α) (x : α) :
    slotAfter b (pre ++ [x]) = .next x := by simp [slotAfter]

/-- The links hold the chains `t`, and no cell is in two places. -/
structure Chained (L : Links β α) (t : β → List α) : Prop where
  chain : ∀ b, Chain L.next (L.head b) (t b)
  pprev : ∀ b pre a post, t b = pre ++ a :: post → L.pprev a = some (slotAfter b pre)
  nodup : ∀ b, (t b).Nodup
  apart : ∀ b c a, a ∈ t b → a ∈ t c → b = c

variable {L : Links β α} {t : β → List α} {b : β} {a : α} {pre post : List α}

lemma chained_nil : Chained (⟨fun _ => none,fun _ => none,fun _ => none⟩ : Links β α)
    (fun _ => []) where
  chain _ := rfl
  pprev _ pre a post h := absurd h (by simp)
  nodup _ := List.nodup_nil
  apart _ _ _ h := absurd h (by simp)

lemma Chained.next_eq (h : Chained L t) (ht : t b = pre ++ a :: post) : L.next a = post.head? := by
  have hc := h.chain b
  rw [ht] at hc
  exact Chain.next_eq hc

lemma Chained.head_eq (h : Chained L t) : L.head b = (t b).head? := Chain.head_eq (h.chain b)

lemma Chained.ne_of_mem_pre (h : Chained L t) (ht : t b = pre ++ a :: post) (x : α) (hx : x ∈ pre) :
    x ≠ a := by
  have := h.nodup b
  rw [ht] at this
  rintro rfl
  exact List.disjoint_of_nodup_append this hx List.mem_cons_self

variable [DecidableEq α]

def Links.setPprev (L : Links β α) (p : Option α) (v : Option (Slot β α)) : Links β α :=
  match p with
  | some a => { L with pprev := update L.pprev a v }
  | none => L

variable (p : Option α) (v : Option (Slot β α)) (x : α)

@[simp] lemma setPprev_head : (L.setPprev p v).head = L.head := by cases p <;> rfl

@[simp] lemma setPprev_next : (L.setPprev p v).next = L.next := by cases p <;> rfl

lemma setPprev_pprev : (L.setPprev p v).pprev x = if p = some x then v else L.pprev x := by
  cases p with
  | none => simp [Links.setPprev]
  | some y =>
    by_cases hx : x = y
    · subst hx
      simp [Links.setPprev]
    · simp [Links.setPprev,hx,Ne.symm hx]

variable [DecidableEq β]

def Links.store (L : Links β α) : Slot β α → Option α → Links β α
  | .head b, v => { L with head := update L.head b v }
  | .next a, v => { L with next := update L.next a v }

def Links.link (L : Links β α) (b : β) (a : α) : Links β α :=
  let L₁ := { L with next := update L.next a (L.head b) }
  let L₂ := L₁.setPprev (L₁.next a) (some (.next a))
  (L₂.store (.head b) (some a)).setPprev (some a) (some (.head b))

def Links.unlink (L : Links β α) (a : α) : Option (Links β α) :=
  (L.pprev a).map fun l =>
    let L₁ := L.store l (L.next a)
    let L₂ := L₁.setPprev (L₁.next a) (some l)
    { L₂ with next := update L₂.next a none, pprev := update L₂.pprev a none }

lemma link_pprev : (L.link b a).pprev x =
    if a = x then some (.head b) else if L.head b = some x then some (.next a) else L.pprev x := by
  simp [Links.link,setPprev_pprev,Links.store]

/-- Linking puts a cell that is in no bucket in front of one. -/
lemma Chained.link (h : Chained L t) (ha : ∀ c, a ∉ t c) :
    Chained (L.link b a) (update t b (a :: t b)) where
  chain c := by
    have hnext : ∀ x ∈ t c, (L.link b a).next x = L.next x := fun x hx => by
      have : x ≠ a := by rintro rfl; exact ha c hx
      simp [Links.link,Links.store,this]
    by_cases hc : c = b
    · subst hc
      rw [update_self]
      refine ⟨by simp [Links.link,Links.store],?_⟩
      have : (L.link c a).next a = L.head c := by simp [Links.link,Links.store]
      rw [this]
      exact (h.chain c).congr hnext
    · rw [update_of_ne hc]
      have : (L.link b a).head c = L.head c := by simp [Links.link,Links.store,hc]
      rw [this]
      exact (h.chain c).congr hnext
  pprev c pre x post ht := by
    rw [link_pprev]
    by_cases hc : c = b
    · subst hc
      rw [update_self] at ht
      obtain ⟨rfl,hcons⟩ | ⟨pre',rfl,ht'⟩ := List.cons_eq_append_iff.mp ht
      · obtain ⟨rfl,-⟩ := List.cons_eq_cons.mp hcons
        simp
      have hx : a ≠ x := by
        rintro rfl
        exact ha c (by simp [ht'])
      rw [if_neg hx]
      cases pre' with
      | nil => simp [h.head_eq,ht',slotAfter]
      | cons y pre' =>
        have hyx : y ≠ x := by
          have := h.nodup c
          rw [ht'] at this
          rintro rfl
          simp at this
        have hlast : slotAfter c (a :: y :: pre') = slotAfter c (y :: pre') := by
          simp [slotAfter,List.getLast?_cons_cons]
        rw [if_neg (by simp [h.head_eq,ht',hyx]),h.pprev c _ x post ht',hlast]
    rw [update_of_ne hc] at ht
    have hx : x ∈ t c := by simp [ht]
    rw [if_neg (by rintro rfl; exact ha c hx),if_neg,h.pprev c pre x post ht]
    intro hb
    rw [h.head_eq] at hb
    exact hc (h.apart c b x hx (List.mem_of_mem_head? hb))
  nodup c := by
    by_cases hc : c = b
    · subst hc
      rw [update_self]
      exact List.nodup_cons.mpr ⟨ha c,h.nodup c⟩
    · rw [update_of_ne hc]
      exact h.nodup c
  apart c d x hc hd := by
    by_cases hcb : c = b <;> by_cases hdb : d = b <;> simp only [hcb,hdb,update_self,
      update_of_ne,ne_eq,not_false_eq_true,List.mem_cons] at hc hd ⊢
    · obtain rfl | hc := hc
      · exact absurd hd (ha d)
      · exact h.apart b d x hc hd
    · obtain rfl | hd := hd
      · exact absurd hc (ha c)
      · exact hcb (h.apart c b x hc hd)
    · exact h.apart c d x hc hd

section

variable (h : Chained L t) (ht : t b = pre ++ a :: post)
include h ht

/-- What `unlink` leaves in the three fields. -/
lemma Chained.unlink_eq :
    ∃ L', L.unlink a = some L' ∧
      L'.head = (L.store (slotAfter b pre) post.head?).head ∧
      L'.next = update (L.store (slotAfter b pre) post.head?).next a none ∧
      ∀ x, L'.pprev x = if x = a then none
        else if post.head? = some x then some (slotAfter b pre) else L.pprev x := by
  have hnext := h.next_eq ht
  have hself : (L.store (slotAfter b pre) (L.next a)).next a = L.next a := by
    cases hl : pre.getLast? with
    | none => simp [slotAfter,hl,Links.store]
    | some y =>
      have hy : a ≠ y := (h.ne_of_mem_pre ht y (List.mem_of_getLast? hl)).symm
      simp [slotAfter,hl,Links.store,hy]
  have hback : ∀ l v, (L.store l v).pprev = L.pprev := fun l v => by cases l <;> rfl
  refine ⟨_,by rw [Links.unlink,h.pprev b pre a post ht]; rfl,?_,?_,fun x => ?_⟩
  · simp [hnext]
  · simp [hnext]
  by_cases hx : x = a
  · subst hx
    simp
  · rw [hnext] at hself
    simp only [update_of_ne hx,if_neg hx,setPprev_pprev,hself,hnext,hback]

/-- The heads and links of `unlink` hold the chains without the cell. -/
lemma Chained.chain_store (c : β) :
    Chain (update (L.store (slotAfter b pre) post.head?).next a none)
      ((L.store (slotAfter b pre) post.head?).head c) (update t b (pre ++ post) c) := by
  have hnd : (pre ++ a :: post).Nodup := ht ▸ h.nodup b
  have hpre := h.ne_of_mem_pre ht
  by_cases hc : c = b
  · subst hc
    rw [update_self]
    have hchain := h.chain c
    rw [ht,Chain,seg_append] at hchain
    obtain ⟨q,h1,rfl,h2⟩ := hchain
    rw [h.next_eq ht] at h2
    have hpost : ∀ x ∈ post, x ≠ a ∧ x ∉ pre := fun x hx =>
      ⟨by rintro rfl; exact (List.nodup_cons.mp hnd.of_append_right).1 hx,fun hp =>
        List.disjoint_of_nodup_append hnd hp (List.mem_cons_of_mem _ hx)⟩
    obtain rfl | ⟨pre',x,rfl⟩ := List.eq_nil_or_concat pre
    · simp only [slotAfter_nil,Links.store,update_self,List.nil_append]
      exact h2.congr fun x hx => update_of_ne (hpost x hx).1 _ _
    simp only [List.concat_eq_append,slotAfter_concat,Links.store] at h1 hnd hpost hpre ⊢
    have hx : x ∉ pre' := by
      have := hnd.of_append_left
      rw [List.nodup_append] at this
      exact fun hp => this.2.2 x hp x (by simp) rfl
    have hseg := h1.retarget hx post.head?
    refine seg_append.mpr ⟨post.head?,hseg.congr fun y hy => ?_,h2.congr fun y hy => ?_⟩
    · exact update_of_ne (hpre y hy) _ _
    · rw [update_of_ne (hpost y hy).1,update_of_ne]
      rintro rfl
      exact (hpost y hy).2 (by simp)
  rw [update_of_ne hc]
  have hother : ∀ x ∈ t c, x ∉ t b := fun x hx hb => hc (h.apart c b x hx hb)
  cases hl : pre.getLast? with
  | none =>
    simp only [slotAfter,hl,Links.store,update_of_ne hc]
    refine (h.chain c).congr fun x hx => update_of_ne ?_ _ _
    rintro rfl
    exact hother x hx (by simp [ht])
  | some y =>
    simp only [slotAfter,hl,Links.store]
    refine (h.chain c).congr fun x hx => ?_
    rw [update_of_ne,update_of_ne]
    · rintro rfl
      exact hother x hx (by simp [ht,List.mem_of_getLast? hl])
    · rintro rfl
      exact hother x hx (by simp [ht])

/-- The cell behind the one unlinked gets its back link, the others keep theirs. -/
lemma Chained.pprev_without {c : β} {pre1 post1 : List α} {x : α}
    (hx : update t b (pre ++ post) c = pre1 ++ x :: post1) :
    (if post.head? = some x then some (slotAfter b pre) else L.pprev x) =
      some (slotAfter c pre1) := by
  have hnd : (pre ++ a :: post).Nodup := ht ▸ h.nodup b
  by_cases hc : c = b
  · subst hc
    rw [update_self] at hx
    obtain ⟨r,rfl,hr⟩ | ⟨r,rfl,hr⟩ := List.append_eq_append_iff.mp hx
    · cases r with
      | nil =>
        obtain ⟨rfl⟩ : post = x :: post1 := by simpa using hr
        simp
      | cons y r =>
        obtain rfl : post = y :: (r ++ x :: post1) := by simpa using hr
        rw [if_neg,h.pprev c (pre ++ a :: y :: r) x post1 (by simp [ht])]
        · simp [slotAfter,List.getLast?_append,List.getLast?_cons]
        · rintro hyx
          obtain rfl : y = x := by simpa using hyx
          have := hnd.of_append_right
          simp at this
    cases r with
    | nil =>
      obtain rfl : post = x :: post1 := by simpa using hr.symm
      simp
    | cons y r =>
      obtain ⟨rfl,rfl⟩ : x = y ∧ post1 = r ++ post := by simpa using hr
      rw [if_neg,h.pprev c pre1 x (r ++ a :: post) (by simp [ht])]
      intro hpx
      rw [List.nodup_append] at hnd
      exact hnd.2.2 x (by simp) x (List.mem_cons_of_mem _ (List.mem_of_mem_head? hpx)) rfl
  rw [update_of_ne hc] at hx
  have hxc : x ∈ t c := by simp [hx]
  rw [if_neg,h.pprev c pre1 x post1 hx]
  intro hpx
  exact hc (h.apart c b x hxc (by simp [ht,List.mem_of_mem_head? hpx]))

omit [DecidableEq α] in
lemma Chained.mem_without {c : β} {x : α} (hx : x ∈ update t b (pre ++ post) c) : x ∈ t c ∧ x ≠ a := by
  by_cases hc : c = b
  · subst hc
    rw [update_self] at hx
    refine ⟨by rw [ht]; simp at hx ⊢; tauto,?_⟩
    rintro rfl
    exact (List.nodup_middle.mp (ht ▸ h.nodup c)).notMem hx
  · rw [update_of_ne hc] at hx
    refine ⟨hx,?_⟩
    rintro rfl
    exact hc (h.apart c b x hx (by simp [ht]))

/-- Unlinking takes a cell out of its bucket and leaves the rest as it was. -/
lemma Chained.unlink :
    ∃ L', L.unlink a = some L' ∧ Chained L' (update t b (pre ++ post)) := by
  obtain ⟨L',hL',hhead,hnext,hpprev⟩ := h.unlink_eq ht
  refine ⟨L',hL',fun c => ?_,fun c pre1 x post1 hx => ?_,fun c => ?_,fun c d x hc hd => ?_⟩
  · rw [hhead,hnext]
    exact h.chain_store ht c
  · have hmem : x ∈ update t b (pre ++ post) c := by simp [hx]
    rw [hpprev,if_neg (h.mem_without ht hmem).2]
    exact h.pprev_without ht hx
  · by_cases hc : c = b
    · subst hc
      rw [update_self]
      exact (List.nodup_middle.mp (ht ▸ h.nodup c)).of_cons
    · rw [update_of_ne hc]
      exact h.nodup c
  · exact h.apart c d x (h.mem_without ht hc).1 (h.mem_without ht hd).1

end

end HashChain
