import Mathlib.Algebra.Order.Ring.Rat
import VirtualPerson.Python.Value

/-!
# Floats

Comparison and arithmetic as IEEE 754 has them, without the rounding.
-/

namespace VirtualPerson

set_option autoImplicit false

namespace PyFloat

/-- `a < b`; a comparison with a NaN is false. -/
def lt : PyFloat → PyFloat → Bool
  | .finite a, .finite b => decide (a < b)
  | .finite _, .inf negative => !negative
  | .inf negative, .finite _ => negative
  | .inf a, .inf b => a && !b
  | _, _ => false

/-- `a <= b` -/
def le : PyFloat → PyFloat → Bool
  | .finite a, .finite b => decide (a ≤ b)
  | .finite _, .inf negative => !negative
  | .inf negative, .finite _ => negative
  | .inf a, .inf b => a || !b
  | _, _ => false

def neg : PyFloat → PyFloat
  | .finite a => .finite (-a)
  | .inf negative => .inf !negative
  | .nan => .nan

/-- The order of a numpy sort, where a NaN is greater than any number. -/
def sortsBefore : PyFloat → PyFloat → Bool
  | .nan, _ => false
  | _, .nan => true
  | a, b => lt a b

def add : PyFloat → PyFloat → PyFloat
  | .finite a, .finite b => .finite (a + b)
  | .finite _, .inf negative => .inf negative
  | .inf negative, .finite _ => .inf negative
  | .inf a, .inf b => if a = b then .inf a else .nan
  | _, _ => .nan

/-- `q * x` for a finite positive `q` -/
def scale (q : ℚ) : PyFloat → PyFloat
  | .finite a => .finite (q * a)
  | x => x

/-- `min(max(x, 0.0), 1.0)`; both give their first argument back unless the second is
strictly beyond it. -/
def clamp (x : PyFloat) : PyFloat :=
  let low := if lt x (.finite 0) then .finite 0 else x
  if lt (.finite 1) low then .finite 1 else low

variable {x y z : PyFloat}

theorem clamp_finite (h : x ≠ .nan) : ∃ q, clamp x = .finite q := by
  cases x with
  | finite a =>
    unfold clamp
    dsimp only
    split
    · exact ⟨0, rfl⟩
    · split
      · exact ⟨1, rfl⟩
      · exact ⟨a, rfl⟩
  | inf negative =>
    cases negative
    · exact ⟨1, rfl⟩
    · exact ⟨0, rfl⟩
  | nan => exact absurd rfl h

theorem lt_asymm (h : lt x y = true) : lt y x = false := by
  cases x <;> cases y <;> simp_all [lt, le_of_lt]

theorem not_lt_trans (hy : y ≠ .nan) (hxy : lt x y = false) (hyz : lt y z = false) :
    lt x z = false := by
  cases x with
  | nan => rfl
  | finite a =>
    cases y with
    | nan => exact absurd rfl hy
    | finite b =>
      cases z with
      | nan => rfl
      | finite c =>
        simp only [lt, decide_eq_false_iff_not, not_lt] at hxy hyz ⊢
        exact hyz.trans hxy
      | inf negative => exact hyz
    | inf negative =>
      cases z <;> simp_all [lt]
  | inf negative =>
    cases y with
    | nan => exact absurd rfl hy
    | _ => cases z <;> simp_all [lt]

theorem le_iff_not_lt (hx : x ≠ .nan) (hy : y ≠ .nan) : le x y = true ↔ lt y x = false := by
  cases x with
  | nan => exact absurd rfl hx
  | finite a => cases y <;> simp_all [lt, le]
  | inf a =>
    cases y with
    | nan => exact absurd rfl hy
    | finite b => simp [lt, le]
    | inf b => cases a <;> cases b <;> simp [lt, le]

/-- A stable sort by falling keys. -/
theorem pairwise_mergeSort {α : Type} (f : α → PyFloat) (xs : List α) (h : ∀ a ∈ xs, f a ≠ .nan) :
    (xs.mergeSort fun a b => !lt (f a) (f b)).Pairwise fun a b => le (f b) (f a) = true := by
  -- sort the list as one of elements whose keys compare
  let r (a b : { a // f a ≠ .nan }) : Bool := !lt (f a) (f b)
  have htrans (a b c : { a // f a ≠ .nan }) (hab : r a b = true) (hbc : r b c = true) : r a c = true := by
    simp only [r, Bool.not_eq_true'] at hab hbc ⊢
    exact not_lt_trans b.2 hab hbc
  have htotal (a b : { a // f a ≠ .nan }) : (r a b || r b a) = true := by
    cases hab : lt (f a) (f b) with
    | false => simp [r, hab]
    | true => simp [r, lt_asymm hab]
  have hsorted := List.pairwise_mergeSort htrans htotal (xs.attachWith _ h)
  have hval : ((xs.attachWith _ h).mergeSort r).map Subtype.val =
      xs.mergeSort fun a b => !lt (f a) (f b) := by
    rw [List.map_mergeSort (s := fun a b => !lt (f a) (f b)) (fun a _ b _ => rfl),
      List.attachWith_map_subtype_val]
  rw [← hval, List.pairwise_map]
  apply hsorted.imp
  intro a b hab
  rw [le_iff_not_lt b.2 a.2]
  simpa [r] using hab

theorem nan_not_le (x : PyFloat) : le .nan x = false := by cases x <;> rfl

end PyFloat

end VirtualPerson
