import Mathlib

/-!
# NUL-terminated strings in byte memory

A C string is what a byte list holds before its first NUL.
-/

namespace CString

abbrev Bytes := List UInt8

def ofString (s : String) : Bytes := s.toList.map fun c => UInt8.ofNat c.toNat

def cstr (m : Bytes) : Bytes := m.takeWhile (· ≠ 0)

def strlen (m : Bytes) : ℕ := (cstr m).length

def NulFree (s : Bytes) : Prop := (0 : UInt8) ∉ s

instance (s : Bytes) : Decidable (NulFree s) := inferInstanceAs (Decidable (¬ _))

def strcmp : Bytes → Bytes → ℤ
  | [], [] => 0
  | [], b :: _ => -(b.toNat : ℤ)
  | a :: _, [] => a.toNat
  | a :: as, b :: bs =>
    if a = b then (if a = 0 then 0 else strcmp as bs) else (a.toNat : ℤ)-b.toNat

variable {a : UInt8} {s : Bytes}

@[simp] lemma cstr_nil : cstr [] = [] := rfl

@[simp] lemma cstr_zero (m : Bytes) : cstr (0 :: m) = [] := by simp [cstr]

lemma cstr_cons (ha : a ≠ 0) (m : Bytes) : cstr (a :: m) = a :: cstr m := by
  simp [cstr,ha]

@[simp] lemma nulFree_cons : NulFree (a :: s) ↔ a ≠ 0 ∧ NulFree s := by
  simp [NulFree,eq_comm]

/-- Reading past a NUL-free string continues with whatever is stored behind it. -/
lemma cstr_append (hs : NulFree s) (m : Bytes) : cstr (s ++ m) = s ++ cstr m := by
  induction s with
  | nil => rfl
  | cons a s ih =>
    obtain ⟨ha,hs⟩ := nulFree_cons.mp hs
    rw [List.cons_append,cstr_cons ha,ih hs,List.cons_append]

lemma cstr_append_nul (hs : NulFree s) (m : Bytes) : cstr (s ++ 0 :: m) = s := by
  rw [cstr_append hs,cstr_zero,List.append_nil]

lemma cstr_eq_self (hs : NulFree s) : cstr s = s := by
  simpa using cstr_append hs []

private lemma toNat_eq_zero : a.toNat = 0 ↔ a = 0 := by
  constructor
  · intro h
    exact UInt8.toNat_inj.mp (by simpa using h)
  · rintro rfl
    rfl

lemma strcmp_eq_zero_iff (a b : Bytes) : strcmp a b = 0 ↔ cstr a = cstr b := by
  induction a generalizing b with
  | nil =>
    cases b with
    | nil => simp [strcmp]
    | cons y b =>
      by_cases hy : y = 0
      · simp [strcmp,hy]
      · have : y.toNat ≠ 0 := fun h => hy (toNat_eq_zero.mp h)
        simp [strcmp,cstr_cons hy,this]
  | cons x a ih =>
    cases b with
    | nil =>
      by_cases hx : x = 0
      · simp [strcmp,hx]
      · have : x.toNat ≠ 0 := fun h => hx (toNat_eq_zero.mp h)
        simp [strcmp,cstr_cons hx,this]
    | cons y b =>
      by_cases hxy : x = y
      · subst y
        by_cases hx : x = 0
        · simp [strcmp,hx]
        · simp [strcmp,hx,cstr_cons hx,ih]
      have hne : x.toNat ≠ y.toNat := fun h => hxy (UInt8.toNat_inj.mp h)
      have hsub : (x.toNat : ℤ)-y.toNat ≠ 0 := by omega
      simp only [strcmp,if_neg hxy,hsub,false_iff]
      -- The first bytes differ, so at most one of them is the terminator.
      by_cases hx : x = 0
      · subst x
        rw [cstr_zero,cstr_cons (Ne.symm hxy)]
        simp
      rw [cstr_cons hx]
      by_cases hy : y = 0
      · simp [hy]
      · rw [cstr_cons hy]
        simp [hxy]

end CString
