import Mathlib

/-!
# Scripts over a device and a lock

A script asks a device questions, one after the other, and goes on with the answers.
-/

/-- `fault` ends the calling process, `spin` goes on for ever. -/
inductive Script (Q : Type) (A : Q → Type) (α : Type)
  | ret (a : α)
  | fault
  | spin
  | lock (k : Script Q A α)
  | unlock (k : Script Q A α)
  | ask (q : Q) (k : A q → Script Q A α)

namespace Script

open List

variable {Q : Type} {A : Q → Type} {α β : Type}

protected def bind : Script Q A α → (α → Script Q A β) → Script Q A β
  | .ret a, f => f a
  | .fault, _ => .fault
  | .spin, _ => .spin
  | .lock k, f => .lock (k.bind f)
  | .unlock k, f => .unlock (k.bind f)
  | .ask q k, f => .ask q fun a => (k a).bind f

instance : Monad (Script Q A) where
  pure := .ret
  bind := Script.bind

def query (q : Q) : Script Q A (A q) := .ask q .ret

def acquire : Script Q A Unit := .lock (.ret ())

def release : Script Q A Unit := .unlock (.ret ())

abbrev Device (Q : Type) (A : Q → Type) : Type := ℕ → (q : Q) → A q

/-- How a run ends, and whether the lock is set then. -/
inductive End (α : Type)
  | returned (busy : Bool) (a : α)
  | faulted (busy : Bool)
  | relocked
  | spinning
  deriving DecidableEq

/-- The questions that were asked with their answers, and the end. -/
structure Run (Q : Type) (A : Q → Type) (α : Type) where
  answers : List (Sigma A)
  result : End α

def run (dev : Device Q A) : Bool → ℕ → Script Q A α → Run Q A α
  | busy, _, .ret a => ⟨[],.returned busy a⟩
  | busy, _, .fault => ⟨[],.faulted busy⟩
  | _, _, .spin => ⟨[],.spinning⟩
  | true, _, .lock _ => ⟨[],.relocked⟩
  | false, n, .lock k => run dev true n k
  | _, n, .unlock k => run dev false n k
  | busy, n, .ask q k =>
    let r := run dev busy (n+1) (k (dev n q))
    ⟨⟨q,dev n q⟩ :: r.answers,r.result⟩

/-- A run that goes on with `f` where it returned. -/
def Run.andThen (dev : Device Q A) (n : ℕ) (r : Run Q A α) (f : α → Script Q A β) : Run Q A β :=
  match r.result with
  | .returned busy a =>
    let r' := run dev busy (n+r.answers.length) (f a)
    ⟨r.answers ++ r'.answers,r'.result⟩
  | .faulted busy => ⟨r.answers,.faulted busy⟩
  | .relocked => ⟨r.answers,.relocked⟩
  | .spinning => ⟨r.answers,.spinning⟩

variable {p : Script Q A α} {f : α → Script Q A β} {q : Q}

lemma run_bind (dev : Device Q A) (busy : Bool) (n : ℕ) (p : Script Q A α)
    (f : α → Script Q A β) :
    run dev busy n (p >>= f) = (run dev busy n p).andThen dev n f := by
  show run dev busy n (p.bind f) = _
  induction p generalizing busy n with
  | ret a => rfl
  | fault => rfl
  | spin => rfl
  | lock k ih =>
    cases busy with
    | true => rfl
    | false => exact ih true n
  | unlock k ih => exact ih false n
  | ask q k ih =>
    have h := ih (dev n q) busy (n+1)
    simp only [Script.bind,run,h,Run.andThen]
    split <;> simp [add_assoc,add_comm 1]

@[simp]
lemma run_query_bind (dev : Device Q A) (busy : Bool) (n : ℕ) (q : Q)
    (f : A q → Script Q A α) :
    run dev busy n (query q >>= f) =
      ⟨⟨q,dev n q⟩ :: (run dev busy (n+1) (f (dev n q))).answers,
        (run dev busy (n+1) (f (dev n q))).result⟩ := rfl

@[simp]
lemma run_acquire_bind (dev : Device Q A) (n : ℕ) (f : Unit → Script Q A α) :
    run dev false n (acquire >>= f) = run dev true n (f ()) := rfl

lemma mem_answers_bind {dev : Device Q A} {busy : Bool} {n : ℕ} {x : Sigma A}
    (h : x ∈ (run dev busy n p).answers) (f : α → Script Q A β) :
    x ∈ (run dev busy n (p >>= f)).answers := by
  rw [run_bind,Run.andThen]
  split
  · exact mem_append_left _ h
  all_goals exact h

/-- Started with the lock free, the script returns `a` with the lock free. -/
def Computes (dev : Device Q A) (p : Script Q A α) (a : α) : Prop :=
  ∀ n, (run dev false n p).result = .returned false a

lemma Computes.pure (dev : Device Q A) (a : α) : Computes dev (pure a) a := fun _ => rfl

lemma Computes.query {dev : Device Q A} {a : A q} (h : ∀ n, dev n q = a) :
    Computes dev (query q) a := fun n => congrArg (End.returned false) (h n)

lemma Computes.bind {dev : Device Q A} {a : α} {b : β} (hp : Computes dev p a)
    (hf : Computes dev (f a) b) : Computes dev (p >>= f) b := by
  intro n
  rw [run_bind,Run.andThen,hp n]
  exact hf _

/-- Every question and every answer to it are in `P`. -/
def Each (P : Sigma A → Prop) : Script Q A α → Prop
  | .ret _ => True
  | .fault => True
  | .spin => True
  | .lock k => Each P k
  | .unlock k => Each P k
  | .ask q k => ∀ a, P ⟨q,a⟩ ∧ Each P (k a)

variable {P : Sigma A → Prop}

lemma Each.run (hp : Each P p) (dev : Device Q A) (busy : Bool) (n : ℕ) :
    ∀ x ∈ (run dev busy n p).answers, P x := by
  induction p generalizing busy n with
  | ret a => simp [Script.run]
  | fault => simp [Script.run]
  | spin => simp [Script.run]
  | lock k ih =>
    cases busy with
    | true => simp [Script.run]
    | false => exact ih hp true n
  | unlock k ih => exact ih hp false n
  | ask q k ih =>
    obtain ⟨hq,hk⟩ := hp (dev n q)
    simpa [Script.run,hq] using ih _ hk busy (n+1)

lemma Each.bind (hp : Each P p) (hf : ∀ a, Each P (f a)) : Each P (p >>= f) := by
  show Each P (p.bind f)
  induction p with
  | ret a => exact hf a
  | fault => trivial
  | spin => trivial
  | lock k ih => exact ih hp
  | unlock k ih => exact ih hp
  | ask q k ih => exact fun a => ⟨(hp a).1,ih a (hp a).2⟩

lemma Each.query (hq : ∀ a, P ⟨q,a⟩) : Each P (Script.query q) :=
  fun a => ⟨hq a,trivial⟩

/-- The lock was not asked for by its holder, and whoever is done with the call has not kept
it. -/
def End.Clean : End α → Prop
  | .returned busy _ => busy = false
  | .faulted busy => busy = false
  | .relocked => False
  | .spinning => True

variable (bad : Sigma A → Prop)

/-- From a free lock a run is clean if and only if it has met no bad answer, and from one
that is taken it is never clean. -/
structure Leaks (p : Script Q A α) : Prop where
  free : ∀ dev n, (run dev false n p).result.Clean ↔ ∀ x ∈ (run dev false n p).answers, ¬ bad x
  taken : ∀ dev n, ¬ (run dev true n p).result.Clean

def Releases (p : Script Q A α) : Prop :=
  ∀ dev n, (run dev true n p).result.Clean ↔ ∀ x ∈ (run dev true n p).answers, ¬ bad x

/-- The script leaves the lock alone, and no answer to its questions is bad. -/
def Quiet : Script Q A α → Prop
  | .ret _ => True
  | .spin => True
  | .ask q k => ∀ a, ¬ bad ⟨q,a⟩ ∧ Quiet (k a)
  | .fault => False
  | .lock _ => False
  | .unlock _ => False

variable {bad}

lemma Leaks.pure (a : α) : Leaks bad (pure a : Script Q A α) where
  free _ _ := iff_of_true rfl (by simp [run,Pure.pure])
  taken _ _ := nofun

lemma Leaks.fault : Leaks bad (.fault : Script Q A α) where
  free _ _ := iff_of_true rfl (by simp [run])
  taken _ _ := nofun

lemma Leaks.query (hq : ∀ a, ¬ bad ⟨q,a⟩) : Leaks bad (query q) where
  free dev n := iff_of_true rfl (by simpa [run,Script.query] using hq (dev n q))
  taken _ _ := nofun

lemma Leaks.bind (hp : Leaks bad p) (hf : ∀ a, Leaks bad (f a)) : Leaks bad (p >>= f) := by
  constructor
  · intro dev n
    rw [run_bind,Run.andThen]
    have h := hp.free dev n
    cases hr : (run dev false n p).result with
    | returned busy a =>
      simp only [hr,End.Clean] at h
      simp only [forall_mem_append,← h]
      cases busy with
      | false => simpa using (hf a).free dev _
      | true => simpa using (hf a).taken dev _
    | faulted busy => rwa [hr] at h
    | relocked => rwa [hr] at h
    | spinning => rwa [hr] at h
  intro dev n
  rw [run_bind,Run.andThen]
  have h := hp.taken dev n
  cases hr : (run dev true n p).result with
  | returned busy a =>
    simp only [hr,End.Clean,Bool.not_eq_false] at h
    subst h
    exact (hf a).taken dev _
  | faulted busy => rwa [hr] at h
  | relocked => exact id
  | spinning => simp [hr,End.Clean] at h

/-- A critical section. -/
lemma Leaks.acquire {f : Unit → Script Q A α} (h : Releases bad (f ())) :
    Leaks bad (acquire >>= f) where
  free dev n := h dev n
  taken _ _ := id

lemma Releases.release {f : Unit → Script Q A α} (h : Leaks bad (f ())) :
    Releases bad (release >>= f) := h.free

/-- A question whose bad answers make the script keep the lock. -/
lemma Releases.query {f : A q → Script Q A α}
    (hbad : ∀ a, bad ⟨q,a⟩ → ∀ dev n, ¬ (run dev true n (f a)).result.Clean)
    (hgood : ∀ a, ¬ bad ⟨q,a⟩ → Releases bad (f a)) : Releases bad (Script.query q >>= f) := by
  intro dev n
  show (run dev true (n+1) (f (dev n q))).result.Clean ↔
    ∀ x ∈ ⟨q,dev n q⟩ :: (run dev true (n+1) (f (dev n q))).answers, ¬ bad x
  rw [forall_mem_cons]
  by_cases hb : bad ⟨q,dev n q⟩
  · simp [hb,hbad _ hb dev (n+1)]
  · simp [hb,hgood _ hb dev (n+1)]

lemma Quiet.run (hp : Quiet bad p) (dev : Device Q A) (busy : Bool) (n : ℕ) :
    (∀ x ∈ (run dev busy n p).answers, ¬ bad x) ∧
      ((∃ a, (run dev busy n p).result = .returned busy a) ∨
        (run dev busy n p).result = .spinning) := by
  induction p generalizing n with
  | ret a => simp [Script.run]
  | spin => simp [Script.run]
  | ask q k ih =>
    obtain ⟨hq,hk⟩ := hp (dev n q)
    have h := ih _ hk (n+1)
    simpa [Script.run,hq] using h
  | fault => exact hp.elim
  | lock k ih => exact hp.elim
  | unlock k ih => exact hp.elim

lemma Releases.bind (hp : Quiet bad p) (hf : ∀ a, Releases bad (f a)) : Releases bad (p >>= f) := by
  intro dev n
  obtain ⟨hans,⟨a,hr⟩ | hr⟩ := hp.run dev true n
  · rw [run_bind,Run.andThen,hr]
    simp only [forall_mem_append]
    rw [and_iff_right hans]
    exact hf a dev _
  · rw [run_bind,Run.andThen,hr]
    exact iff_of_true trivial hans

lemma Quiet.query (hq : ∀ a, ¬ bad ⟨q,a⟩) : Quiet bad (Script.query q) :=
  fun a => ⟨hq a,trivial⟩

lemma Quiet.bind (hp : Quiet bad p) (hf : ∀ a, Quiet bad (f a)) : Quiet bad (p >>= f) := by
  show Quiet bad (p.bind f)
  induction p with
  | ret a => exact hf a
  | spin => trivial
  | ask q k ih => exact fun a => ⟨(hp a).1,ih a (hp a).2⟩
  | fault => exact hp.elim
  | lock k ih => exact hp.elim
  | unlock k ih => exact hp.elim

end Script
