import Mathlib

/-!
# Words of 32 bits in byte memory
-/

inductive Endian
  | little
  | big
  deriving DecidableEq

namespace Endian

open BitVec List

def encode (e : Endian) (w : ℕ) : List UInt8 :=
  let bytes := [UInt8.ofNat w,UInt8.ofNat (w / 0x100),UInt8.ofNat (w / 0x10000),
    UInt8.ofNat (w / 0x1000000)]
  match e with
  | .little => bytes
  | .big => bytes.reverse

def value : List UInt8 → ℕ
  | [] => 0
  | b :: bs => b.toNat+0x100*value bs

def decode (e : Endian) (m : List UInt8) : ℕ :=
  match e with
  | .little => value (m.take 4)
  | .big => value (m.take 4).reverse

variable (e : Endian)

@[simp]
lemma length_encode (w : ℕ) : (e.encode w).length = 4 := by
  cases e <;> rfl

lemma decode_encode {w : ℕ} (h : w < 0x100000000) (m : List UInt8) :
    e.decode (e.encode w ++ m) = w := by
  cases e <;>
  · simp [decode,encode,value]
    omega

lemma encode_injective : Function.Injective fun x : BitVec 32 => e.encode x.toNat := by
  intro x y h
  have hx := e.decode_encode x.isLt []
  rw [show e.encode x.toNat = _ from h,e.decode_encode y.isLt] at hx
  exact eq_of_toNat_eq hx.symm

lemma value_lt (m : List UInt8) : value m < 0x100 ^ m.length := by
  induction m with
  | nil => decide
  | cons b m ih =>
    have hb := b.toNat_lt
    rw [value,length_cons,pow_succ]
    omega

lemma decode_lt (m : List UInt8) : e.decode m < 0x100000000 := by
  have hpow : 0x100 ^ (m.take 4).length ≤ 0x100 ^ 4 :=
    Nat.pow_le_pow_right (by decide) (length_take_le 4 m)
  cases e with
  | little => exact lt_of_lt_of_le (value_lt _) hpow
  | big => exact lt_of_lt_of_le (value_lt _) (by rwa [length_reverse])

lemma encode_decode {m : List UInt8} (h : 4 ≤ m.length) : e.encode (e.decode m) = m.take 4 := by
  obtain ⟨a,b,c,d,hm⟩ := length_eq_four.mp (length_take_of_le h)
  have ha := a.toNat_lt
  have hb := b.toNat_lt
  have hc := c.toNat_lt
  have hd := d.toNat_lt
  cases e <;>
  · simp only [decode,encode,value,hm,List.reverse_cons,List.reverse_nil,List.nil_append,
      List.cons_append,List.cons.injEq,and_true,← UInt8.toNat_inj,UInt8.toNat_ofNat']
    omega

lemma decode_append {m : List UInt8} (h : 4 ≤ m.length) (m' : List UInt8) :
    e.decode (m ++ m') = e.decode m := by
  cases e <;> simp only [decode,take_append_of_le_length h]

/-- One byte of a word. -/
lemma toBitVec_ofNat_div (x : BitVec 32) (i : ℕ) :
    (UInt8.ofNat (x.toNat / 2 ^ i)).toBitVec = (x >>> i).setWidth 8 := by
  apply eq_of_toNat_eq
  rw [toNat_setWidth,toNat_ushiftRight,Nat.shiftRight_eq_div_pow]
  rfl

lemma encode_eq (x : BitVec 32) :
    (e.encode x.toNat).map UInt8.toBitVec =
      match e with
      | .little => [x.setWidth 8,(x >>> 8).setWidth 8,(x >>> 16).setWidth 8,(x >>> 24).setWidth 8]
      | .big => [(x >>> 24).setWidth 8,(x >>> 16).setWidth 8,
          (x >>> 8).setWidth 8,x.setWidth 8] := by
  have h0 := toBitVec_ofNat_div x 0
  rw [Nat.pow_zero,Nat.div_one,ushiftRight_zero] at h0
  cases e with
  | little =>
    dsimp only
    rw [← h0,← toBitVec_ofNat_div x 8,← toBitVec_ofNat_div x 16,← toBitVec_ofNat_div x 24]
    rfl
  | big =>
    dsimp only
    rw [← h0,← toBitVec_ofNat_div x 8,← toBitVec_ofNat_div x 16,← toBitVec_ofNat_div x 24]
    rfl

lemma encode_xor (x y : BitVec 32) :
    (e.encode (x ^^^ y).toNat).map UInt8.toBitVec =
      List.zipWith (· ^^^ ·) ((e.encode x.toNat).map UInt8.toBitVec)
        ((e.encode y.toNat).map UInt8.toBitVec) := by
  rw [encode_eq,encode_eq,encode_eq]
  cases e <;> simp [ushiftRight_xor_distrib,setWidth_xor]

end Endian
