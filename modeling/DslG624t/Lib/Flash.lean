import DslG624t.Lib.CString

/-!
# NOR flash

A flash is a list of bytes.
-/

namespace Flash

open List

open CString (Bytes)

def erased : UInt8 := 0xFF

def program (m : Bytes) (o : ℕ) (b : UInt8) : Bytes := m.modify o (· &&& b)

def programAll (m : Bytes) (ws : List (ℕ × UInt8)) : Bytes :=
  ws.foldl (fun m w => program m w.1 w.2) m

def writesAt : ℕ → Bytes → List (ℕ × UInt8)
  | _, [] => []
  | o, b :: bs => (o,b) :: writesAt (o+1) bs

def erase (m : Bytes) (n : ℕ) : Bytes := List.replicate n erased ++ m.drop n

variable {bs : Bytes} {k n : ℕ}

@[simp] lemma programAll_nil (m : Bytes) : programAll m [] = m := rfl

lemma programAll_cons (m : Bytes) (w : ℕ × UInt8) (ws : List (ℕ × UInt8)) :
    programAll m (w :: ws) = programAll (program m w.1 w.2) ws := rfl

lemma programAll_append (m : Bytes) (ws ws' : List (ℕ × UInt8)) :
    programAll m (ws ++ ws') = programAll (programAll m ws) ws' := foldl_append

/-- A prefix of the writes stores a prefix of the bytes. -/
lemma program_append (pre : Bytes) (x : UInt8) (post : Bytes) (b : UInt8) :
    program (pre ++ x :: post) pre.length b = pre ++ (x &&& b) :: post := by
  induction pre with
  | nil => rfl
  | cons a pre ih => exact congrArg (a :: ·) ih

lemma programAll_writesAt (pre mid post bs : Bytes) (h : mid.length = bs.length) :
    programAll (pre ++ (mid ++ post)) (writesAt pre.length bs) =
      pre ++ (List.zipWith (· &&& ·) mid bs ++ post) := by
  induction bs generalizing pre mid with
  | nil => simp [writesAt,length_eq_zero_iff.mp h]
  | cons b bs ih =>
    obtain ⟨x,mid,rfl⟩ := exists_cons_of_length_eq_add_one h
    have hlen : mid.length = bs.length := by simpa using h
    rw [writesAt,programAll_cons,cons_append,program_append]
    have hpre : pre ++ (x &&& b) :: (mid ++ post) = (pre ++ [x &&& b]) ++ (mid ++ post) := by simp
    have hnext : pre.length+1 = (pre ++ [x &&& b]).length := by simp
    rw [hpre,hnext,ih (pre ++ [x &&& b]) mid hlen]
    simp

lemma erased_and (b : UInt8) : erased &&& b = b := by
  refine UInt8.toBitVec_inj.mp ?_
  exact BitVec.allOnes_and

lemma zipWith_erased (bs : Bytes) :
    List.zipWith (· &&& ·) (List.replicate bs.length erased) bs = bs := by
  induction bs with
  | nil => rfl
  | cons b bs ih =>
    rw [length_cons,replicate_succ,zipWith_cons_cons,ih,erased_and]

lemma programAll_writesAt_erased (pre post bs : Bytes) :
    programAll (pre ++ (List.replicate bs.length erased ++ post)) (writesAt pre.length bs) =
      pre ++ (bs ++ post) := by
  rw [programAll_writesAt _ _ _ _ (by simp),zipWith_erased]

/-- Storing what is there already changes nothing. -/
lemma programAll_writesAt_self (pre bs post : Bytes) :
    programAll (pre ++ (bs ++ post)) (writesAt pre.length bs) = pre ++ (bs ++ post) := by
  rw [programAll_writesAt _ _ _ _ rfl]
  have hself : zipWith (· &&& ·) bs bs = bs := by
    induction bs with
    | nil => rfl
    | cons b bs ih => rw [zipWith_cons_cons,ih,UInt8.and_self]
  rw [hself]

end Flash
