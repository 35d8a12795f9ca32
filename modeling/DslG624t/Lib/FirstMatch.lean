import Mathlib

/-!
# First-match rule lists

A list of rules is scanned from its head.
-/

namespace FirstMatch

open List

variable {α β : Type*}

def scan (p : α → Bool) (out : α → β) (mark : α → α) (dflt : β) : List α → β × List α
  | [] => (dflt,[])
  | a :: l =>
    if p a then (out a, mark a :: l)
    else ((scan p out mark dflt l).1, a :: (scan p out mark dflt l).2)

/-- `r` is the answer of the first element of `l` with `P`, or the default if there is none. -/
structure Decides (P : α → Prop) (out : α → β) (mark : α → α) (dflt : β) (l : List α)
    (r : β × List α) : Prop where
  hit : ∀ before a after, l = before ++ a :: after → (∀ b ∈ before, ¬ P b) → P a →
    r = (out a, before ++ mark a :: after)
  miss : (∀ a ∈ l, ¬ P a) → r = (dflt,l)

def Guarded (P Q : α → Prop) (l : List α) : Prop :=
  ∀ before a after, l = before ++ a :: after → P a → ∃ b ∈ before, Q b

section

variable {p q : α → Bool} {out : α → β} {mark : α → α} {dflt : β} {a : α} {l : List α}

lemma scan_cons_of_pos (h : p a = true) (l : List α) :
    scan p out mark dflt (a :: l) = (out a, mark a :: l) := by
  simp [scan,h]

lemma scan_cons_of_neg (h : p a = false) (l : List α) :
    scan p out mark dflt (a :: l) =
      ((scan p out mark dflt l).1, a :: (scan p out mark dflt l).2) := by
  simp [scan,h]

lemma scan_append_of_neg {before : List α} (h : ∀ b ∈ before, p b = false) (l : List α) :
    scan p out mark dflt (before ++ l) =
      ((scan p out mark dflt l).1,before ++ (scan p out mark dflt l).2) := by
  induction before with
  | nil => rfl
  | cons b before ih =>
    obtain ⟨hb,hbs⟩ := forall_mem_cons.mp h
    rw [cons_append,scan_cons_of_neg hb,ih hbs]
    rfl

lemma scan_of_forall_neg (h : ∀ a ∈ l, p a = false) : scan p out mark dflt l = (dflt,l) := by
  have h' := @scan_append_of_neg α β p out mark dflt l h []
  simpa [scan] using h'

lemma decides_scan (l : List α) :
    Decides (fun a => p a = true) out mark dflt l (scan p out mark dflt l) where
  hit := by
    rintro before a after rfl hb ha
    rw [scan_append_of_neg (fun b hm => by simpa using hb b hm),scan_cons_of_pos ha]
  miss h := scan_of_forall_neg fun a ha => by simpa using h a ha

/-- Either nothing in `l` fires, or `l` splits at the first element that does. -/
lemma exists_first (p : α → Bool) (l : List α) :
    (∀ a ∈ l, p a = false) ∨
      ∃ before a after, l = before ++ a :: after ∧ (∀ b ∈ before, p b = false) ∧ p a = true := by
  induction l with
  | nil => exact .inl (by simp)
  | cons x l ih =>
    cases hx : p x with
    | true => exact .inr ⟨[],x,l,rfl,by simp,hx⟩
    | false =>
      obtain h | ⟨before,a,after,rfl,hb,ha⟩ := ih
      · exact .inl (forall_mem_cons.mpr ⟨hx,h⟩)
      · exact .inr ⟨x :: before,a,after,rfl,forall_mem_cons.mpr ⟨hx,hb⟩,ha⟩

lemma decides_iff {r : β × List α} :
    Decides (fun a => p a = true) out mark dflt l r ↔ r = scan p out mark dflt l := by
  constructor
  · intro h
    obtain hn | ⟨before,a,after,hl,hb,ha⟩ := exists_first p l
    · rw [scan_of_forall_neg hn]
      exact h.miss fun a ha => by simp [hn a ha]
    · have hb' : ∀ b ∈ before, ¬ p b = true := fun b hm => by simp [hb b hm]
      rw [h.hit before a after hl hb' ha]
      exact ((decides_scan l).hit before a after hl hb' ha).symm
  · rintro rfl
    exact decides_scan l

lemma guarded_cons {P Q : α → Prop} : Guarded P Q (a :: l) ↔ ¬ P a ∧ (Q a ∨ Guarded P Q l) := by
  constructor
  · intro h
    refine ⟨fun ha => by simpa using h [] a l rfl ha,?_⟩
    by_cases hq : Q a
    · exact .inl hq
    refine .inr fun before x after hl hx => ?_
    obtain ⟨b,hb,hbq⟩ := h (a :: before) x after (by rw [hl]; rfl) hx
    rcases mem_cons.mp hb with rfl | hb
    · exact absurd hbq hq
    · exact ⟨b,hb,hbq⟩
  rintro ⟨ha,hq⟩ before x after hl hx
  cases before with
  | nil =>
    obtain ⟨rfl,-⟩ := cons.inj hl
    exact absurd hx ha
  | cons b before =>
    obtain ⟨rfl,rfl⟩ := cons.inj hl
    obtain hq | hg := hq
    · exact ⟨a,by simp,hq⟩
    · obtain ⟨y,hy,hyq⟩ := hg before x after rfl hx
      exact ⟨y,mem_cons_of_mem _ hy,hyq⟩

/-- Two scans agree exactly when every element the conditions judge differently
stands behind one that fires under the second. -/
lemma scan_eq_scan_iff (hm : ∀ a, mark a ≠ a) (l : List α) :
    scan p out mark dflt l = scan q out mark dflt l ↔
      Guarded (fun a => p a ≠ q a) (fun a => q a = true) l := by
  induction l with
  | nil => simp [scan,Guarded]
  | cons a l ih =>
    rw [guarded_cons,← ih]
    -- Where the conditions differ at the head, one scan marks it and the other does not.
    cases hp : p a <;> cases hq : q a <;> simp [scan,hp,hq,Prod.ext_iff,hm,(hm a).symm]

end

lemma ne_cons_eraseP {q : α → Bool} {a : α} (ha : q a = false) (l : List α) :
    l ≠ a :: l.eraseP q := by
  induction l with
  | nil => nofun
  | cons b l ih =>
    intro h
    obtain ⟨rfl,hl⟩ := cons.inj h
    rw [eraseP_cons_of_neg (by simp [ha])] at hl
    exact ih hl

/-- Two tests remove the same element if and only if they first hold at the same place. -/
lemma eraseP_eq_eraseP_iff (p q : α → Bool) (l : List α) :
    l.eraseP p = l.eraseP q ↔ l.findIdx p = l.findIdx q := by
  induction l with
  | nil => simp
  | cons a l ih =>
    rw [findIdx_cons,findIdx_cons,eraseP_cons,eraseP_cons]
    cases hp : p a with
    | true =>
      cases hq : q a with
      | true => simp
      | false => simpa using ne_cons_eraseP hq l
    | false =>
      cases hq : q a with
      | true => simpa using (ne_cons_eraseP hp l).symm
      | false => simpa using ih

end FirstMatch
