import Mathlib.Algebra.GroupWithZero.Nat
import Mathlib.Tactic.Common

/-!
# Checked machine arithmetic

Sums, differences and products of machine words that are given only where they fit. Each is the sum,
the difference or the product of the numbers.
-/

namespace Checked

def add (m n : UInt64) : Option UInt64 := if m.toNat + n.toNat < 2 ^ 64 then some (m + n) else none

def sub (m n : UInt64) : Option UInt64 := if n ≤ m then some (m - n) else none

def mul (m n : UInt64) : Option UInt64 := if m.toNat * n.toNat < 2 ^ 64 then some (m * n) else none

variable {m n r : UInt64}

lemma add_eq_some : add m n = some r ↔ r.toNat = m.toNat + n.toNat := by
  rw [add]
  split
  · rename_i hfits
    have hsum : (m + n).toNat = m.toNat + n.toNat := by
      rw [UInt64.toNat_add]
      exact Nat.mod_eq_of_lt hfits
    rw [Option.some.injEq, ← UInt64.toNat_inj, hsum]
    exact eq_comm
  · rename_i hfits
    refine ⟨fun h => absurd h (by simp), fun h => absurd ?_ hfits⟩
    rw [← h]
    exact r.toNat_lt

lemma sub_eq_some : sub m n = some r ↔ r.toNat + n.toNat = m.toNat := by
  rw [sub]
  split
  · rename_i hle
    have hle' := UInt64.le_iff_toNat_le.mp hle
    rw [Option.some.injEq, ← UInt64.toNat_inj, UInt64.toNat_sub_of_le m n hle]
    omega
  · rename_i hle
    refine ⟨fun h => absurd h (by simp), fun h => absurd ?_ hle⟩
    rw [UInt64.le_iff_toNat_le, ← h]
    exact Nat.le_add_left _ _

end Checked
