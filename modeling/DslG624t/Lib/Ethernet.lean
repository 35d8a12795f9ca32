import Mathlib

/-!
# Ethernet addresses and byte order

The six-byte hardware address as it lies in a frame, and the 16-bit loads and
swaps a little-endian host performs on frame bytes.
-/

namespace Ethernet

open BitVec

/-- A hardware address, first transmitted byte first. -/
structure Mac where
  b0 : UInt8
  b1 : UInt8
  b2 : UInt8
  b3 : UInt8
  b4 : UInt8
  b5 : UInt8
  deriving DecidableEq, Repr

def Mac.bytes (a : Mac) : List UInt8 := [a.b0,a.b1,a.b2,a.b3,a.b4,a.b5]

def load16 (lo hi : UInt8) : ℕ := lo.toNat+256*hi.toNat

def htons (x : UInt16) : UInt16 := (x <<< 8) ||| (x >>> 8)

lemma load16_inj {a b c d : UInt8} : load16 a b = load16 c d ↔ a = c ∧ b = d := by
  constructor
  · intro h
    have ha := a.toNat_lt
    have hc := c.toNat_lt
    simp only [load16] at h
    exact ⟨UInt8.toNat_inj.mp (by omega),UInt8.toNat_inj.mp (by omega)⟩
  · rintro ⟨rfl,rfl⟩
    rfl

lemma htons_htons (x : UInt16) : htons (htons x) = x := by
  apply UInt16.toBitVec_inj.mp
  apply eq_of_getLsbD_eq
  intro i hi
  have h8 : (UInt16.toBitVec 8 % 16).toNat = 8 := rfl
  simp only [htons,UInt16.toBitVec_or,UInt16.toBitVec_shiftLeft,UInt16.toBitVec_shiftRight,
    shiftLeft_eq',ushiftRight_eq',h8,getLsbD_or,getLsbD_shiftLeft,getLsbD_ushiftRight]
  -- Each bit comes from exactly one of the two shifts, and comes back from the other.
  by_cases hlt : i < 8
  · have h1 : 8+i-8 = i := by omega
    have h2 : x.toBitVec.getLsbD (8+(8+i)) = false := getLsbD_of_ge _ _ (by omega)
    simp [hlt,h1,h2,show 8+i < 16 by omega]
  · have h1 : 8+(i-8) = i := by omega
    have h2 : x.toBitVec.getLsbD (8+(8+i)) = false := getLsbD_of_ge _ _ (by omega)
    simp [hlt,hi,h1,h2,show i-8 < 8 by omega,show ¬ 8+i < 16 by omega]

end Ethernet
