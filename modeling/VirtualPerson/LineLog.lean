import Mathlib.Data.List.Infix
import Mathlib.Logic.Basic

/-!
# Logs of lines

A file that only grows by whole lines, of which some do not come whole: an append may write
nothing, or the beginning of its line and a piece of the symbol after it. What the lines of the
file are then. Nothing here mentions a program.
-/

namespace VirtualPerson

set_option autoImplicit false

universe u

namespace LineLog

/-- How an append ended; `cut k torn` leaves the first `k` symbols of the line and `torn` of the next one,
without a break. -/
inductive Outcome (α : Type u) where
  | written
  | failed
  | cut (k : Nat) (torn : List α)

variable {α : Type u} {nl : α} {entries : List (List α × Outcome α)} {line pending : List α}

def Outcome.isCut : Outcome α → Bool
  | .cut _ _ => true
  | _ => false

def Outcome.torn : Outcome α → List α
  | .cut _ torn => torn
  | _ => []

/-- What an append leaves in the file -/
def left (nl : α) : List α × Outcome α → List α
  | (line, .written) => line ++ [nl]
  | (_, .failed) => []
  | (line, .cut k torn) => line.take k ++ torn

def append (nl : α) (file : List α) (entry : List α × Outcome α) : List α := file ++ left nl entry

theorem foldl_append (file : List α) (entries : List (List α × Outcome α)) :
    entries.foldl (append nl) file = file ++ entries.flatMap (left nl) := by
  induction entries generalizing file with
  | nil => exact (List.append_nil file).symm
  | cons e entries ih => rw [List.foldl_cons, ih, List.flatMap_cons, append, List.append_assoc]

/-- The lines of the file, the last of them without a break; `pending` was left by a cut. -/
def lines (pending : List α) : List (List α × Outcome α) → List (List α)
  | [] => [pending]
  | (line, .written) :: entries => (pending ++ line) :: lines [] entries
  | (_, .failed) :: entries => lines pending entries
  | (line, .cut k torn) :: entries => lines (pending ++ (line.take k ++ torn)) entries

/-- The lines that stand in the file on their own -/
def clean (whole : Bool) : List (List α × Outcome α) → List (List α)
  | [] => []
  | (line, .written) :: entries => if whole then line :: clean true entries else clean true entries
  | (_, .failed) :: entries => clean whole entries
  | (_, .cut _ _) :: entries => clean false entries

theorem splitOn_lines [DecidableEq α] (hpending : nl ∉ pending)
    (h : ∀ e ∈ entries, nl ∉ e.1 ∧ nl ∉ e.2.torn) :
    (pending ++ entries.flatMap (left nl)).splitOn nl = lines pending entries := by
  induction entries generalizing pending with
  | nil =>
    rw [List.flatMap_nil, List.append_nil]
    exact List.splitOn_eq_singleton hpending
  | cons e entries ih =>
    have hrest : ∀ e ∈ entries, nl ∉ e.1 ∧ nl ∉ e.2.torn := fun e he => h e (List.mem_cons_of_mem _ he)
    obtain ⟨hline, htorn⟩ := h e List.mem_cons_self
    obtain ⟨line, outcome⟩ := e
    rw [List.flatMap_cons]
    cases outcome with
    | written =>
      have hwhole : nl ∉ pending ++ line := by
        rw [List.mem_append]
        exact fun hmem => hmem.elim hpending hline
      have hnext := ih List.not_mem_nil hrest
      rw [List.nil_append] at hnext
      have htext : pending ++ (left nl (line, .written) ++ entries.flatMap (left nl)) =
          (pending ++ line) ++ nl :: entries.flatMap (left nl) := by
        simp [left]
      rw [htext, List.splitOn_append_cons_self_of_not_mem hwhole, hnext]
      rfl
    | failed =>
      exact ih hpending hrest
    | cut k torn =>
      rw [left, lines, ← List.append_assoc]
      apply ih _ hrest
      rw [List.mem_append, List.mem_append]
      rintro (hmem | hmem | hmem)
      · exact hpending hmem
      · exact hline (List.mem_of_mem_take hmem)
      · exact htorn hmem

theorem clean_sublist (entries : List (List α × Outcome α)) :
    (clean true entries).Sublist (lines [] entries) ∧
      ∀ pending, (clean false entries).Sublist (lines pending entries) := by
  induction entries with
  | nil => exact ⟨List.nil_sublist _, fun _ => List.nil_sublist _⟩
  | cons e entries ih =>
    obtain ⟨line, outcome⟩ := e
    cases outcome with
    | written => exact ⟨ih.1.cons_cons line, fun pending => ih.1.cons _⟩
    | failed => exact ih
    | cut k torn => exact ⟨ih.2 _, fun pending => ih.2 _⟩

/-- Without a cut all lines stand on their own, but for the empty one at the end. -/
theorem lines_eq (h : ∀ e ∈ entries, e.2.isCut = false) :
    lines [] entries = clean true entries ++ [[]] := by
  induction entries with
  | nil => rfl
  | cons e entries ih =>
    have hrest := ih fun e he => h e (List.mem_cons_of_mem _ he)
    have houtcome := h e List.mem_cons_self
    obtain ⟨line, outcome⟩ := e
    cases outcome with
    | written => exact congrArg (line :: ·) hrest
    | failed => exact hrest
    | cut k torn => cases houtcome

end LineLog

end VirtualPerson
