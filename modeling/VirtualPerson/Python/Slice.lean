import Mathlib.Data.List.DropRight

/-!
# Python slices

Slices of a list to its end, and the last elements of a list that is pushed to and cut.
-/

namespace VirtualPerson

set_option autoImplicit false

variable {α β : Type}

/-- `xs[start:]` -/
def sliceFrom (start : Int) (xs : List α) : List α :=
  xs.drop (if start < 0 then xs.length + start else start).toNat

/-- `xs[-limit:] if limit else xs` -/
def limited (limit : Option Int) (xs : List α) : List α :=
  match limit with
  | none => xs
  | some n => if n = 0 then xs else sliceFrom (-n) xs

theorem sliceFrom_map (f : α → β) (start : Int) (xs : List α) :
    sliceFrom start (xs.map f) = (sliceFrom start xs).map f := by
  simp [sliceFrom, List.map_drop]

theorem limited_map (f : α → β) (limit : Option Int) (xs : List α) :
    limited limit (xs.map f) = (limited limit xs).map f := by
  cases limit with
  | none => rfl
  | some n =>
    unfold limited
    dsimp only
    split
    · rfl
    · exact sliceFrom_map f (-n) xs

theorem sliceFrom_neg {n : Int} (hn : 0 < n) (xs : List α) : sliceFrom (-n) xs = xs.rtake n.toNat := by
  rw [sliceFrom, if_pos (by omega), List.rtake]
  congr 1
  omega

theorem length_rtake (n : Nat) (xs : List α) : (xs.rtake n).length = min n xs.length := by
  rw [List.rtake, List.length_drop]
  omega

theorem rtake_append_rtake (n : Nat) (xs ys : List α) :
    (xs.rtake n ++ ys).rtake n = (xs ++ ys).rtake n := by
  have hmin : min (n - ys.reverse.length) n = n - ys.reverse.length := Nat.min_eq_left (Nat.sub_le _ _)
  simp only [List.rtake_eq_reverse_take_reverse, List.reverse_append, List.reverse_reverse,
    List.take_append, List.take_take, hmin]

theorem eq_rtake_of_suffix {xs ys : List α} (h : xs <:+ ys) : xs = ys.rtake xs.length := by
  obtain ⟨zs, rfl⟩ := h
  simp [List.rtake]

end VirtualPerson
