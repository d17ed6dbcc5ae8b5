import Mathlib.Data.Rat.Floor
import Mathlib.Tactic.Linarith

/-!
# Rounding to the nearest, ties to even

`round` on exact rationals: it stays between any two multiples of the unit that its
argument lies between.
-/

namespace VirtualPerson

set_option autoImplicit false

/-- `round(x)` -/
def roundHalfEven (x : ℚ) : Int :=
  let d := x - ⌊x⌋
  if d < 1 / 2 then ⌊x⌋
  else if 1 / 2 < d then ⌊x⌋ + 1
  else if ⌊x⌋ % 2 = 0 then ⌊x⌋
  else ⌊x⌋ + 1

/-- `round(x, digits)` -/
def roundTo (digits : Nat) (x : ℚ) : ℚ := roundHalfEven (x * 10 ^ digits) / 10 ^ digits

theorem floor_le_roundHalfEven (x : ℚ) : ⌊x⌋ ≤ roundHalfEven x := by
  unfold roundHalfEven
  dsimp only
  split_ifs <;> omega

theorem roundHalfEven_le_floor_add_one (x : ℚ) : roundHalfEven x ≤ ⌊x⌋ + 1 := by
  unfold roundHalfEven
  dsimp only
  split_ifs <;> omega

theorem roundHalfEven_intCast (n : Int) : roundHalfEven n = n := by
  simp [roundHalfEven]

theorem le_roundHalfEven {n : Int} {x : ℚ} (h : (n : ℚ) ≤ x) : n ≤ roundHalfEven x :=
  (Int.le_floor.mpr h).trans (floor_le_roundHalfEven x)

theorem roundHalfEven_le {n : Int} {x : ℚ} (h : x ≤ n) : roundHalfEven x ≤ n := by
  rcases h.eq_or_lt with rfl | hlt
  · rw [roundHalfEven_intCast]
  · have hfloor : ⌊x⌋ < n := Int.floor_lt.mpr hlt
    have := roundHalfEven_le_floor_add_one x
    omega

section RoundTo

variable {digits : Nat} {n : Int} {x : ℚ}

theorem le_roundTo (h : (n : ℚ) / 10 ^ digits ≤ x) : (n : ℚ) / 10 ^ digits ≤ roundTo digits x := by
  have hpos : (0 : ℚ) < 10 ^ digits := by positivity
  have hle : n ≤ roundHalfEven (x * 10 ^ digits) := le_roundHalfEven ((div_le_iff₀ hpos).mp h)
  rw [roundTo]
  gcongr

theorem roundTo_le (h : x ≤ (n : ℚ) / 10 ^ digits) : roundTo digits x ≤ (n : ℚ) / 10 ^ digits := by
  have hpos : (0 : ℚ) < 10 ^ digits := by positivity
  have hle : roundHalfEven (x * 10 ^ digits) ≤ n := roundHalfEven_le ((le_div_iff₀ hpos).mp h)
  rw [roundTo]
  gcongr

end RoundTo

end VirtualPerson
