import Mathlib.Data.UInt

set_option autoImplicit false

/-! # Sums of machine words -/

namespace Shared

theorem toNat_add_of_lt {a b : UInt64} (fits : a.toNat + b.toNat < 2 ^ 64) :
    (a + b).toNat = a.toNat + b.toNat := by
  rw [UInt64.toNat_add, Nat.mod_eq_of_lt fits]

theorem toNat_add_of_le {a b : UInt64} (wraps : 2 ^ 64 ≤ a.toNat + b.toNat) :
    (a + b).toNat = a.toNat + b.toNat - 2 ^ 64 := by
  have := a.toNat_lt
  have := b.toNat_lt
  rw [UInt64.toNat_add]
  omega

theorem toNat_sub_of_le {a b : UInt64} (le : b.toNat ≤ a.toNat) :
    (a - b).toNat = a.toNat - b.toNat := by
  have := a.toNat_lt
  rw [UInt64.toNat_sub]
  omega

theorem toNat_sum (words : List UInt64) :
    words.sum.toNat = (words.map UInt64.toNat).sum % 2 ^ 64 := by
  induction words with
  | nil => rfl
  | cons word rest ih =>
    rw [List.sum_cons, UInt64.toNat_add, ih, List.map_cons, List.sum_cons]
    omega

theorem sum_eq_zero_iff {words : List UInt64} (small : (words.map UInt64.toNat).sum < 2 ^ 64) :
    words.sum = 0 ↔ ∀ word ∈ words, word = 0 := by
  rw [← UInt64.toNat_inj, toNat_sum, Nat.mod_eq_of_lt small, UInt64.toNat_zero,
    List.sum_eq_zero_iff_forall_eq_nat]
  simp [← UInt64.toNat_inj]

end Shared
