import ArithAsm.Proofs.Printing
import Mathlib.Algebra.Group.Nat.Defs

/-! Decimal digits. The text of a number ends with its remainder by ten, behind the text of
its quotient; for a number of 64 bits, the quotient is a product with a reciprocal. -/
namespace ArithAsm.Processor

/-- `2 ^ 67 / 10`, rounded up. -/
def reciprocal : UInt64 := 0xCCCCCCCCCCCCCCCD

/-- The byte of a decimal digit. -/
def digitByte (digit : Nat) : UInt8 :=
  .ofNat (48 + digit)

private theorem encode_digitChar : ∀ digit < 10,
    String.utf8EncodeChar (Nat.digitChar digit) = [digitByte digit] := by
  decide

theorem encode_repr_of_lt {n : Nat} (small : n < 10) : Utf8.encode n.repr = [digitByte n] := by
  rw [Utf8.encode, Nat.toList_repr, Nat.toDigits_of_lt_base small, List.flatMap_singleton,
    encode_digitChar n small]

/-- A number of more digits is written as its tenth and the last digit. -/
theorem encode_repr_of_le {n : Nat} (large : 10 ≤ n) :
    Utf8.encode n.repr = Utf8.encode (n / 10).repr ++ [digitByte (n % 10)] := by
  rw [Utf8.encode, Utf8.encode, Nat.toList_repr, Nat.toList_repr,
    Nat.toDigits_of_base_le (by omega) large, List.flatMap_append, List.flatMap_singleton,
    encode_digitChar _ (Nat.mod_lt _ (by omega))]

theorem length_encode_repr_le {n digits : Nat} (bound : n < 10 ^ (digits + 1)) :
    (Utf8.encode n.repr).length ≤ digits + 1 := by
  induction digits generalizing n with
  | zero =>
    rw [encode_repr_of_lt (by simpa using bound)]
    exact Nat.le_refl _
  | succ digits ih =>
    by_cases small : n < 10
    · rw [encode_repr_of_lt small, List.length_singleton]
      omega
    · rw [encode_repr_of_le (Nat.le_of_not_lt small), List.length_append, List.length_singleton]
      have tenth : n / 10 < 10 ^ (digits + 1) := by
        rw [Nat.pow_succ] at bound
        omega
      have shorter := ih tenth
      omega

/-- The upper half of the product with the reciprocal, shifted, is the exact quotient for
every number of 64 bits. -/
theorem quotient_of_reciprocal (n : UInt64) :
    UInt64.ofNat (n.toNat * reciprocal.toNat / UInt64.size) >>> 3 = n / 10 := by
  have bound := n.toNat_lt
  have high : n.toNat * 14757395258967641293 / 18446744073709551616 < 18446744073709551616 := by omega
  have exact : n.toNat * 14757395258967641293 / 18446744073709551616 / 8 = n.toNat / 10 := by omega
  apply UInt64.toNat_inj.mp
  simpa [reciprocal, UInt64.size, UInt64.toNat_shiftRight, Nat.shiftRight_eq_div_pow,
    Nat.mod_eq_of_lt high] using exact

theorem remainder_of_quotient (n : UInt64) :
    n - (n / 10 + n / 10 * 4 + (n / 10 + n / 10 * 4)) = n % 10 := by
  have bound := n.toNat_lt
  apply UInt64.toNat_inj.mp
  simp only [UInt64.toNat_sub, UInt64.toNat_add, UInt64.toNat_mul, UInt64.toNat_div, UInt64.toNat_mod,
    UInt64.reduceToNat]
  omega

end ArithAsm.Processor
