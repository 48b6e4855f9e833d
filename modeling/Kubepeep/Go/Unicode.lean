import Mathlib

/-!
# Runes

`unicode.IsControl`, `unicode.IsSpace` and `strings.TrimSpace`.
-/

namespace Kubepeep.Go

/-- Category Cc. -/
def IsControl (c : Char) : Bool :=
  c.toNat < 0x20 || (0x7f ≤ c.toNat && c.toNat < 0xa0)

/-- The property `White_Space`. -/
def IsSpace (c : Char) : Bool :=
  (0x09 ≤ c.toNat && c.toNat ≤ 0x0d) || c.toNat == 0x20 || c.toNat == 0x85 || c.toNat == 0xa0 ||
    c.toNat == 0x1680 || (0x2000 ≤ c.toNat && c.toNat ≤ 0x200a) || c.toNat == 0x2028 ||
    c.toNat == 0x2029 || c.toNat == 0x202f || c.toNat == 0x205f || c.toNat == 0x3000

def TrimSpace (s : String) : String :=
  .ofList ((s.toList.dropWhile IsSpace).reverse.dropWhile IsSpace).reverse

end Kubepeep.Go
