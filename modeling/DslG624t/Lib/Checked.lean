import DslG624t.Lib.CString
import DslG624t.Lib.Word

/-!
# Programs that stop at their first access outside a buffer

A program over fixed buffers is run in `Except`: an access that leaves its buffer ends the run
with an error, so a run that returns made every access in bounds.
-/

namespace Checked

open List

open CString (Bytes)

variable {ε α β : Type}

def Ensures (x : Except ε α) (post : α → Prop) : Prop := ∃ a, x = .ok a ∧ post a

variable {post : α → Prop}

variable (e : ε) (b : Bytes) (p n : ℕ) (a : α)

@[simp]
lemma ensures_ok : Ensures (.ok a : Except ε α) post ↔ post a := by
  constructor
  · rintro ⟨a',h,hpost⟩
    cases h
    exact hpost
  · intro h
    exact ⟨a,rfl,h⟩

@[simp]
lemma ensures_pure : Ensures (pure a : Except ε α) post ↔ post a := ensures_ok a

@[simp]
lemma ensures_error : Ensures (.error e : Except ε α) post ↔ False :=
  iff_false_intro nofun

@[simp]
lemma ensures_bind (x : Except ε β) (f : β → Except ε α) :
    Ensures (x >>= f) post ↔ Ensures x fun b => Ensures (f b) post := by
  cases x with
  | error e => exact (ensures_error e).trans (ensures_error e).symm
  | ok b =>
    rw [ensures_ok]
    exact Iff.rfl

@[simp]
lemma ensures_map (f : β → α) (x : Except ε β) :
    Ensures (f <$> x) post ↔ Ensures x fun b => post (f b) := by
  cases x with
  | error e => exact (ensures_error e).trans (ensures_error e).symm
  | ok b =>
    rw [ensures_ok]
    exact ensures_ok (f b)

lemma ensures_ite (c : Prop) [Decidable c] (x y : Except ε α) :
    Ensures (if c then x else y) post ↔ (c → Ensures x post) ∧ (¬ c → Ensures y post) := by
  split <;> simp [*]

lemma ensures_true_iff (x : Except ε α) : Ensures x (fun _ => True) ↔ ∃ a, x = .ok a := by
  simp [Ensures]

lemma ensures_const (x : Except ε α) (c : Prop) :
    Ensures x (fun _ => c) ↔ Ensures x (fun _ => True) ∧ c := by
  simp [Ensures]

def Inside (b : Bytes) (p n : ℕ) : Prop := ∀ i < n, (p+i) % 2 ^ 32 < b.length

instance (b : Bytes) (p n : ℕ) : Decidable (Inside b p n) :=
  inferInstanceAs (Decidable (∀ i < n, _))

def byteAt (b : Bytes) (p : ℕ) : UInt8 := b.getD (p % 2 ^ 32) 0

def bytesAt (b : Bytes) : ℕ → ℕ → Bytes
  | _, 0 => []
  | p, n+1 => byteAt b p :: bytesAt b (p+1) n

def valueAt (b : Bytes) (p n : ℕ) : ℕ := Endian.value (bytesAt b p n)

def peek (e : ε) (b : Bytes) (p n : ℕ) : Except ε Bytes :=
  if Inside b p n then .ok (bytesAt b p n) else .error e

def peekValue (e : ε) (b : Bytes) (p n : ℕ) : Except ε ℕ :=
  if Inside b p n then .ok (valueAt b p n) else .error e

@[simp]
lemma length_bytesAt : (bytesAt b p n).length = n := by
  induction n generalizing p with
  | zero => rfl
  | succ n ih => rw [bytesAt,length_cons,ih]

lemma bytesAt_append (pre s post : Bytes) (h : pre.length+s.length < 2 ^ 32) :
    bytesAt (pre ++ (s ++ post)) pre.length s.length = s := by
  induction s generalizing pre with
  | nil => rfl
  | cons c s ih =>
    rw [length_cons] at h
    have hrest := ih (pre ++ [c]) (by simp; omega)
    rw [length_cons,bytesAt,byteAt,Nat.mod_eq_of_lt (by omega)]
    simpa using hrest

@[simp]
lemma ensures_peek (post : Bytes → Prop) :
    Ensures (peek e b p n) post ↔ Inside b p n ∧ post (bytesAt b p n) := by
  unfold peek
  split <;> simp [*]

@[simp]
lemma ensures_peekValue (post : ℕ → Prop) :
    Ensures (peekValue e b p n) post ↔ Inside b p n ∧ post (valueAt b p n) := by
  unfold peekValue
  split <;> simp [*]

/-- Away from the end of the address space, being inside is a matter of length. -/
lemma inside_iff {p n : ℕ} (hn : 0 < n) (hp : p+n ≤ 2 ^ 32) (b : Bytes) :
    Inside b p n ↔ p+n ≤ b.length := by
  constructor
  · intro h
    have := h (n-1) (by omega)
    omega
  · intro h i hi
    omega

lemma Inside.part {b : Bytes} {p n k c : ℕ} (h : Inside b p n) (hk : c+k ≤ n) :
    Inside b (p+c) k := by
  intro i hi
  rw [add_assoc]
  exact h (c+i) (by omega)

lemma inside_add (p m n : ℕ) : Inside b p (m+n) ↔ Inside b p m ∧ Inside b (p+m) n := by
  constructor
  · intro h
    exact ⟨fun i hi => h i (by omega),h.part (le_refl _)⟩
  rintro ⟨hm,hn⟩ i hi
  by_cases him : i < m
  · exact hm i him
  · have := hn (i-m) (by omega)
    rwa [show p+m+(i-m) = p+i by omega] at this

def memcmp (e : ε) (b : Bytes) : Bytes → ℕ → Except ε Bool
  | [], _ => pure true
  | c :: cs, p => do
    let x ← peek e b p 1
    if x = [c] then memcmp e b cs (p+1) else pure false

def Comparable (b : Bytes) (s : Bytes) (p : ℕ) : Prop :=
  ∀ k < s.length, bytesAt b p k = s.take k → Inside b (p+k) 1

lemma comparable_cons (c : UInt8) (cs : Bytes) (p : ℕ) :
    Comparable b (c :: cs) p ↔
      Inside b p 1 ∧ (byteAt b p = c → Comparable b cs (p+1)) := by
  constructor
  · intro h
    refine ⟨h 0 (Nat.succ_pos _) rfl,fun hc k hk heq => ?_⟩
    rw [add_assoc,add_comm 1 k]
    apply h (k+1) (Nat.succ_lt_succ hk)
    rw [bytesAt,hc,heq,take_succ_cons]
  rintro ⟨h0,htail⟩ k hk heq
  cases k with
  | zero => exact h0
  | succ k =>
    rw [bytesAt,take_succ_cons] at heq
    obtain ⟨hc,hrest⟩ := cons.inj heq
    rw [add_comm k 1,← add_assoc]
    exact htail hc k (Nat.lt_of_succ_lt_succ hk) hrest

@[simp]
lemma ensures_memcmp (b s : Bytes) (p : ℕ) (post : Bool → Prop) :
    Ensures (memcmp e b s p) post ↔
      Comparable b s p ∧ post (decide (bytesAt b p s.length = s)) := by
  induction s generalizing p with
  | nil => simp [memcmp,Comparable,bytesAt]
  | cons c cs ih =>
    rw [memcmp,ensures_bind,ensures_peek,comparable_cons,and_assoc]
    refine and_congr_right fun _ => ?_
    rw [bytesAt,bytesAt,length_cons,bytesAt]
    by_cases hc : byteAt b p = c
    · simp [hc,ih]
    · simp [hc]

def patch {n : ℕ} (c : Fin n → UInt8) (off : ℕ) (bs : Bytes) : Fin n → UInt8 := fun i =>
  if off ≤ i ∧ i < off+bs.length then bs.getD (i-off) 0 else c i

def poke {n : ℕ} (e : ε) (c : Fin n → UInt8) (off : ℕ) (bs : Bytes) :
    Except ε (Fin n → UInt8) :=
  if off+bs.length ≤ n then .ok (patch c off bs) else .error e

@[simp]
lemma ensures_poke {n : ℕ} (c : Fin n → UInt8) (off : ℕ) (bs : Bytes)
    (post : (Fin n → UInt8) → Prop) :
    Ensures (poke e c off bs) post ↔ off+bs.length ≤ n ∧ post (patch c off bs) := by
  unfold poke
  split <;> simp [*]

/-- The run stops with one of the errors that are allowed, or returns what satisfies `post`. -/
def Allows (allowed : ε → Prop) (x : Except ε α) (post : α → Prop) : Prop :=
  match x with
  | .error e => allowed e
  | .ok a => post a

variable {allowed : ε → Prop}

lemma Allows.bind {x : Except ε β} {f : β → Except ε α} {mid : β → Prop} (hx : Allows allowed x mid)
    (hf : ∀ b,mid b → Allows allowed (f b) post) : Allows allowed (x >>= f) post := by
  cases x with
  | error e => exact hx
  | ok b => exact hf b hx

lemma Allows.of_ok {x : Except ε α} {a : α} (h : Allows allowed x post) (hx : x = .ok a) : post a := by
  rw [hx] at h
  exact h

lemma Allows.foldlM {f : α → β → Except ε α} (hf : ∀ a b,post a → Allows allowed (f a b) post) (bs : List β)
    {a : α} (ha : post a) : Allows allowed (bs.foldlM f a) post := by
  induction bs generalizing a with
  | nil => exact ha
  | cons b bs ih =>
    rw [foldlM_cons]
    exact (hf a b ha).bind fun a' ha' => ih ha'

end Checked
