import DslG624t.Lib.Word

/-!
# Sums with end-around carry

Numbers below `m` are added and the carry is added again.
-/

namespace OnesSum

open List

def add (m s w : ℕ) : ℕ := (s+w) % m+(s+w) / m

def sum (m : ℕ) (ws : List ℕ) : ℕ := ws.foldl (add m) 0

variable {m s w : ℕ} {ws : List ℕ} {bytes : List UInt8} {n : ℕ}

def words (e : Endian) : ℕ → List UInt8 → List ℕ
  | 0, _ => []
  | n+1, bytes => e.decode bytes :: words e n (bytes.drop 4)

def half : List UInt8 → ℕ
  | a :: b :: _ => 0x100*a.toNat+b.toNat
  | _ => 0

def halves : ℕ → List UInt8 → List ℕ
  | 0, _ => []
  | n+1, bytes => half bytes :: halves n (bytes.drop 2)

variable (e : Endian)

end OnesSum
