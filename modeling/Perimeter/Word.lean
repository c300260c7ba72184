/-!
# Machine words

Coordinates and counters are integers, and the few places where a product or a sum of caller-chosen
numbers can leave the range of a signed 64-bit word reduce it with `wrap64`. Labels of regions are kept
in 32 bits, which `wrap32` reduces to. Everything else is exact, so reasoning happens over `Int`.
-/

namespace Perimeter

/-- The number of values of a 64-bit word. -/
def wordModulus : Nat := 18446744073709551616

/-- The integer `n` fits a signed 64-bit word. -/
def FitsWord (n : Int) : Prop := -9223372036854775808 ≤ n ∧ n < 9223372036854775808

instance (n : Int) : Decidable (FitsWord n) :=
  inferInstanceAs (Decidable (_ ∧ _))

/-- The integer congruent to `n` modulo `2 ^ 64` that fits a signed 64-bit word. -/
def wrap64 (n : Int) : Int :=
  if FitsWord n then n else n.bmod wordModulus

theorem wrap64_eq_self {n : Int} (h : FitsWord n) : wrap64 n = n := by
  rw [wrap64, if_pos h]

/-- Differences of numbers of at most 62 bits are exact. -/
theorem wrap64_sub_eq {m n : Int} (hm : m.natAbs < 4611686018427387904)
    (hn : n.natAbs < 4611686018427387904) : wrap64 (m - n) = m - n :=
  wrap64_eq_self (by simp only [FitsWord]; omega)

theorem fitsWord_wrap64 (n : Int) : FitsWord (wrap64 n) := by
  simp only [wrap64]
  split
  · assumption
  · simp only [FitsWord, wordModulus, Int.bmod]
    omega

/-- The number of values of a 32-bit word. -/
def halfWordModulus : Nat := 4294967296

/-- The integer congruent to `n` modulo `2 ^ 32` that fits a signed 32-bit word. -/
def wrap32 (n : Int) : Int := n.bmod halfWordModulus

theorem wrap32_eq_self {n : Int} (h : -2147483648 ≤ n ∧ n < 2147483648) : wrap32 n = n := by
  simp only [wrap32, halfWordModulus, Int.bmod]
  omega

/-- The absolute value of a word. The least word has no positive counterpart and stays as it is. -/
def wordAbs (n : Int) : Int := if n < 0 then wrap64 (-n) else n

end Perimeter
