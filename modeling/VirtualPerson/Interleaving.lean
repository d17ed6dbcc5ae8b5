import Mathlib.Data.List.Basic
import VirtualPerson.Transition

/-!
# Systems side by side

Any number of copies of one system, each of which joins in an initial state, whose steps
lie between one another in every order. What one copy did is a run of the system.
-/

namespace VirtualPerson

set_option autoImplicit false

universe u v

namespace System

variable {σ : Type u} {ℓ : Type v} {A : System σ ℓ} {ss : List σ} {ls : List (Nat × Option ℓ)}

/-- A label is a copy with what it does; `none` is its joining. -/
def pool (A : System σ ℓ) : System (List σ) (Nat × Option ℓ) where
  init ss := ss = []
  step ss l ss' :=
    match l with
    | (i, none) => i = ss.length ∧ ∃ s, A.init s ∧ ss' = ss ++ [s]
    | (i, some l) => ∃ s t, ss[i]? = some s ∧ A.step s l t ∧ ss' = ss.set i t

/-- What the `i`-th copy did. -/
def ofCopy (i : Nat) (ls : List (Nat × Option ℓ)) : List ℓ :=
  ls.filterMap fun l => if l.1 = i then l.2 else none

theorem ofCopy_append (i : Nat) (ls ms : List (Nat × Option ℓ)) :
    ofCopy i (ls ++ ms) = ofCopy i ls ++ ofCopy i ms := List.filterMap_append

theorem ofCopy_self (i : Nat) (l : ℓ) : ofCopy i [(i, some l)] = [l] := by simp [ofCopy]

theorem ofCopy_other {i j : Nat} (h : j ≠ i) (l : Option ℓ) : ofCopy i [(j, l)] = [] := by
  simp [ofCopy, h]

theorem ofCopy_join (i j : Nat) : ofCopy i [(j, (none : Option ℓ))] = [] := by simp [ofCopy]

/-- Each copy is where its own run has led, and those still to join have done nothing. -/
def EachRuns (A : System σ ℓ) (ss : List σ) (ls : List (Nat × Option ℓ)) : Prop :=
  (∀ i s, ss[i]? = some s → ∃ s₀, A.init s₀ ∧ A.Run s₀ (ofCopy i ls) s) ∧
    ∀ i, ss.length ≤ i → ofCopy i ls = []

theorem EachRuns.step {ss' : List σ} {l : Nat × Option ℓ} (h : EachRuns A ss ls)
    (hst : A.pool.step ss l ss') : EachRuns A ss' (ls ++ [l]) := by
  obtain ⟨hruns, hlater⟩ := h
  obtain ⟨i, l⟩ := l
  cases l with
  | none =>
    obtain ⟨rfl, s, hs, rfl⟩ := hst
    constructor
    · intro j t hj
      rw [ofCopy_append, ofCopy_join, List.append_nil]
      by_cases hlt : j < ss.length
      · rw [List.getElem?_append_left hlt] at hj
        exact hruns j t hj
      · rw [List.getElem?_append_right (by omega)] at hj
        obtain ⟨-, rfl⟩ := List.getElem?_eq_some_iff.mp hj
        rw [hlater j (by omega)]
        refine ⟨s, hs, ?_⟩
        simpa using System.Run.nil s
    · intro j hj
      rw [List.length_append, List.length_singleton] at hj
      rw [ofCopy_append, ofCopy_join, hlater j (by omega)]
      rfl
  | some l =>
    obtain ⟨s, t, hs, hst, rfl⟩ := hst
    have hlt : i < ss.length := (List.getElem?_eq_some_iff.mp hs).1
    constructor
    · intro j u hj
      rw [ofCopy_append]
      by_cases heq : i = j
      · subst heq
        rw [List.getElem?_set_self hlt] at hj
        cases hj
        obtain ⟨s₀, hs₀, hrun⟩ := hruns i s hs
        rw [ofCopy_self]
        exact ⟨s₀, hs₀, hrun.append (.single hst)⟩
      · rw [List.getElem?_set_ne heq] at hj
        rw [ofCopy_other heq, List.append_nil]
        exact hruns j u hj
    · intro j hj
      rw [List.length_set] at hj
      rw [ofCopy_append, ofCopy_other (by omega), hlater j hj]
      rfl

/-- What any copy did is what the system can do alone. -/
theorem run_of_pool (h : A.pool.Run [] ls ss) (i : Nat) :
    ofCopy i ls = [] ∨ ∃ s₀ s, A.init s₀ ∧ A.Run s₀ (ofCopy i ls) s := by
  have hstart : EachRuns A [] [] := by
    constructor
    · intro i s hs
      rw [List.getElem?_nil] at hs
      cases hs
    · exact fun i _ => rfl
  obtain ⟨hruns, hlater⟩ := h.invariant_labels (I := EachRuns A) (fun hi hst => hi.step hst) hstart
  rw [List.nil_append] at hruns hlater
  by_cases hlt : i < ss.length
  · obtain ⟨s₀, hs₀, hrun⟩ := hruns i ss[i] (List.getElem?_eq_getElem hlt)
    exact .inr ⟨s₀, ss[i], hs₀, hrun⟩
  · exact .inl (hlater i (by omega))

end System

end VirtualPerson
