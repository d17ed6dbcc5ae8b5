import Mathlib.Logic.Basic

/-!
# Bounded retries

A task is tried until a try succeeds or a counter reaches its limit. A try that fails
advances the counter or leaves it as it is.
-/

namespace VirtualPerson

set_option autoImplicit false

namespace Retry

inductive Try where
  | success
  | advance
  | stall

inductive Rung where
  | climbing (count : Nat)
  | succeeded (runs : Nat)
  | exhausted (runs : Nat)

def Rung.next (limit runs : Nat) (tried : Nat → Try) : Rung → Rung
  | .climbing count =>
    match tried count with
    | .success => .succeeded (runs + 1)
    | .advance => if count + 1 < limit then .climbing (count + 1) else .exhausted (runs + 1)
    | .stall => .climbing count
  | r => r

/-- Where `n` tries lead; `tries i count` tells how try number `i` ends at a count. -/
def after (tries : Nat → Nat → Try) (limit : Nat) : Nat → Rung
  | 0 => .climbing 0
  | n + 1 => (after tries limit n).next limit n (tries n)

variable {tries : Nat → Nat → Try} {limit n r count : Nat}

theorem climbing_of_succ (h : after tries limit (n + 1) = .climbing count) :
    ∃ c, after tries limit n = .climbing c ∧
      ((tries n c = .advance ∧ count = c + 1 ∧ c + 1 < limit) ∨ (tries n c = .stall ∧ count = c)) := by
  rw [after] at h
  cases hn : after tries limit n with
  | succeeded r =>
    rw [hn] at h
    cases h
  | exhausted r =>
    rw [hn] at h
    cases h
  | climbing c =>
    refine ⟨c, rfl, ?_⟩
    rw [hn, Rung.next] at h
    cases htry : tries n c with
    | success =>
      rw [htry] at h
      cases h
    | advance =>
      rw [htry] at h
      dsimp only at h
      split at h
      · rename_i hlt
        cases h
        exact .inl ⟨rfl, rfl, hlt⟩
      · cases h
    | stall =>
      rw [htry] at h
      cases h
      exact .inr ⟨rfl, rfl⟩

theorem climbing_bounds (hlimit : 0 < limit) (h : after tries limit n = .climbing count) :
    count ≤ n ∧ count < limit := by
  induction n generalizing count with
  | zero =>
    cases h
    exact ⟨Nat.le_refl 0, hlimit⟩
  | succ n ih =>
    obtain ⟨c, hc, ⟨-, rfl, hlt⟩ | ⟨-, rfl⟩⟩ := climbing_of_succ h
    · have := (ih hc).1
      omega
    · have := ih hc
      omega

theorem exhausted_of_climbing (h : after tries limit n = .climbing count)
    (htry : tries n count = .advance) (hlast : limit ≤ count + 1) :
    after tries limit (n + 1) = .exhausted (n + 1) := by
  rw [after, h, Rung.next, htry]
  exact if_neg (Nat.not_lt.mpr hlast)

theorem climbing_of_climbing (h : after tries limit n = .climbing count)
    (htry : tries n count = .advance) (hnext : count + 1 < limit) :
    after tries limit (n + 1) = .climbing (count + 1) := by
  rw [after, h, Rung.next, htry]
  exact if_pos hnext

/-- Behind an exhausted counter lies its last advance. -/
theorem exhausted_inv (h : after tries limit n = .exhausted r) :
    ∃ i c, r = i + 1 ∧ after tries limit i = .climbing c ∧ tries i c = .advance ∧ limit ≤ c + 1 := by
  induction n with
  | zero => cases h
  | succ n ih =>
    rw [after] at h
    cases hn : after tries limit n with
    | succeeded r' =>
      rw [hn] at h
      cases h
    | exhausted r' =>
      rw [hn] at h
      cases h
      exact ih hn
    | climbing c =>
      rw [hn, Rung.next] at h
      cases htry : tries n c with
      | success =>
        rw [htry] at h
        cases h
      | stall =>
        rw [htry] at h
        cases h
      | advance =>
        rw [htry] at h
        dsimp only at h
        split at h
        · cases h
        · rename_i hlt
          cases h
          exact ⟨n, c, rfl, hn, htry, Nat.not_lt.mp hlt⟩

/-- A first success among the first `limit` tries ends the climb, whatever the failures before it
did to the counter. -/
theorem succeeded_of_first (hlimit : n < limit) (hfirst : ∀ c, tries n c = .success)
    (hbefore : ∀ i < n, ∀ c, tries i c ≠ .success) : after tries limit (n + 1) = .succeeded (n + 1) := by
  have hclimb : ∀ i ≤ n, ∃ c, after tries limit i = .climbing c ∧ c ≤ i := by
    intro i
    induction i with
    | zero => exact fun _ => ⟨0, rfl, Nat.le_refl 0⟩
    | succ i ih =>
      intro hi
      obtain ⟨c, hc, hle⟩ := ih (by omega)
      cases htry : tries i c with
      | success => exact absurd htry (hbefore i (by omega) c)
      | advance => exact ⟨c + 1, climbing_of_climbing hc htry (by omega), by omega⟩
      | stall =>
        refine ⟨c, ?_, by omega⟩
        rw [after, hc, Rung.next, htry]
  obtain ⟨c, hc, -⟩ := hclimb n (Nat.le_refl n)
  rw [after, hc, Rung.next, hfirst c]

/-- The counter keeps up with the tries only if each of them advances it. -/
theorem advance_of_climbing_self (hlimit : 0 < limit) (h : after tries limit n = .climbing n) :
    ∀ i < n, tries i i = .advance := by
  induction n with
  | zero => exact fun i hi => absurd hi (Nat.not_lt_zero i)
  | succ n ih =>
    obtain ⟨c, hc, ⟨htry, hcount, -⟩ | ⟨-, hcount⟩⟩ := climbing_of_succ h
    · obtain rfl : c = n := by omega
      intro i hi
      rcases Nat.lt_succ_iff_lt_or_eq.mp hi with hi | rfl
      · exact ih hc i hi
      · exact htry
    · have := (climbing_bounds hlimit hc).1
      omega

theorem climbing_self (hall : ∀ i < limit, tries i i = .advance) (hn : n < limit) :
    after tries limit n = .climbing n := by
  induction n with
  | zero => rfl
  | succ n ih => exact climbing_of_climbing (ih (by omega)) (hall n (by omega)) hn

/-- The tries end at the limit exactly where each of them advances the counter. -/
theorem exhausted_limit_iff (hlimit : 0 < limit) :
    (∃ n, after tries limit n = .exhausted limit) ↔ ∀ i < limit, tries i i = .advance := by
  constructor
  · intro h
    obtain ⟨n, h⟩ := h
    obtain ⟨i, c, hi, hc, htry, hlast⟩ := exhausted_inv h
    have hbounds := climbing_bounds hlimit hc
    obtain rfl : c = i := by omega
    intro j hj
    rcases Nat.lt_succ_iff_lt_or_eq.mp (hi ▸ hj) with hj | rfl
    · exact advance_of_climbing_self hlimit hc j hj
    · exact htry
  · intro hall
    obtain ⟨l, rfl⟩ : ∃ l, limit = l + 1 := ⟨limit - 1, by omega⟩
    exact ⟨l + 1, exhausted_of_climbing (climbing_self hall (Nat.lt_succ_self l))
      (hall l (Nat.lt_succ_self l)) (Nat.le_refl _)⟩

theorem after_of_stall (h : ∀ i, tries i 0 = .stall) (n : Nat) : after tries limit n = .climbing 0 := by
  induction n with
  | zero => rfl
  | succ n ih => rw [after, ih, Rung.next, h]

end Retry

end VirtualPerson
