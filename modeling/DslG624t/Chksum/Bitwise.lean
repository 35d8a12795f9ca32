import DslG624t.Chksum.Sum

/-!
# The checksum bit by bit
-/

namespace DslG624t.Chksum

open CString List

def bitsOf (bytes : Bytes) : List Bool := bytes.flatMap fun b => Crc.msbs 8 b.toBitVec

def lengthDigits (n : ℕ) : Bytes := (Nat.digits 0x100 n).map UInt8.ofNat

lemma lengthBytes_eq (n : ℕ) : lengthBytes n = lengthDigits n := by
  induction n using Nat.strongRecOn with
  | ind n ih =>
    rw [lengthBytes,lengthDigits]
    split
    · next h => rw [h,Nat.digits_zero,map_nil]
    next h =>
    have hbyte : UInt8.ofNat (n % 0x100) = UInt8.ofNat n := by
      apply UInt8.toNat_inj.mp
      simp
    rw [Nat.digits_def' (by decide) (by omega),map_cons,ih _ (by omega),hbyte]
    rfl

lemma foldl_crcStep_eq_feedBits (crc : BitVec 32) (bytes : Bytes) :
    bytes.foldl crcStep crc = Crc.feedBits poly crc (bitsOf bytes) := by
  rw [foldl_crcStep,Crc.feed_eq_feedBits (by decide),flatMap_map]
  rfl

lemma cksum_eq_feedBits (bytes : Bytes) :
    cksum bytes = ~~~ Crc.feedBits poly 0 (bitsOf (bytes ++ lengthDigits bytes.length)) := by
  rw [cksum,← foldl_append,foldl_crcStep_eq_feedBits,lengthBytes_eq]

theorem sums_agree {bytes : Bytes} (hsize : bytes.length < 0x80000000) :
    csCalcBufSum bytes = ~~~ Crc.feedBits poly 0 (bitsOf (bytes ++ lengthDigits bytes.length)) ∧
      ∀ d pos, bytes.length ≤ d.readable →
        (csCalcSum d false ⟨bytes,pos⟩).1 = .sum (csCalcBufSum bytes) := by
  rw [csCalcBufSum_eq]
  refine ⟨cksum_eq_feedBits bytes,fun d pos hread => ?_⟩
  have hlen : bytes.length < 0x10000000000000000 := by omega
  rw [csCalcSum_eq hread hlen,kept,if_pos (.inl rfl),Option.elim_some]

/-- A block of 64 KiB and one byte more. -/
theorem sums_agree_two_blocks :
    (csCalcSum ⟨65537,0⟩ false ⟨replicate 65537 0x5A,0⟩).1 =
      .sum (csCalcBufSum (replicate 65537 0x5A)) :=
  (sums_agree (by rw [length_replicate]; decide)).2 _ _ (le_of_eq length_replicate)

def Burst (a b : Bytes) : Prop :=
  ∃ p, ∀ i, (bitsOf a)[i]? ≠ (bitsOf b)[i]? → p ≤ i ∧ i < p+32

lemma length_bitsOf (bytes : Bytes) : (bitsOf bytes).length = 8*bytes.length := by
  simp [bitsOf,Crc.msbs,length_flatMap,mul_comm]

lemma bitsOf_injective : Function.Injective bitsOf := by
  intro a b h
  induction a generalizing b with
  | nil =>
    have hlen := congrArg length h
    rw [length_bitsOf,length_bitsOf,length_nil] at hlen
    exact (eq_nil_of_length_eq_zero (by omega)).symm
  | cons x a ih =>
    cases b with
    | nil => cases h
    | cons y b =>
      obtain ⟨hxy,hab⟩ := append_inj h (by simp [Crc.msbs])
      have hbit : x.toBitVec = y.toBitVec := by
        apply BitVec.eq_of_getMsbD_eq
        intro i hi
        exact map_inj_left.mp hxy i (mem_range.mpr hi)
      rw [UInt8.toBitVec_inj.mp hbit,ih hab]

lemma bitsOf_append (a b : Bytes) : bitsOf (a ++ b) = bitsOf a ++ bitsOf b := flatMap_append

lemma cksum_ne_of_burst {a b : Bytes} (hlen : a.length = b.length) (hne : a ≠ b)
    (hburst : Burst a b) : cksum a ≠ cksum b := by
  obtain ⟨p,hp⟩ := hburst
  have hbits : (bitsOf a).length = (bitsOf b).length := by rw [length_bitsOf,length_bitsOf,hlen]
  rw [ne_eq,cksum_inj hlen,foldl_crcStep_eq_feedBits,foldl_crcStep_eq_feedBits]
  exact Crc.feedBits_ne_of_burst (by decide) hbits (bitsOf_injective.ne hne) hp 0

/-- Four bytes in the middle. -/
lemma burst_middle (p t : Bytes) {x y : Bytes} (hx : x.length = 4) (hy : y.length = 4) :
    Burst (p ++ x ++ t) (p ++ y ++ t) := by
  refine ⟨8*p.length,fun i hi => ?_⟩
  have hlx := length_bitsOf x
  have hly := length_bitsOf y
  have hlp := length_bitsOf p
  simp only [bitsOf_append,append_assoc,getElem?_append] at hi
  by_contra hc
  apply hi
  split
  · rfl
  · rw [if_neg (by omega),if_neg (by omega),hlx,hly,hx,hy]

end DslG624t.Chksum
