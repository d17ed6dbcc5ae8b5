import Mathlib.Algebra.BigOperators.Group.List.Basic
import Mathlib.Algebra.Order.Field.Basic
import Mathlib.Tactic.Linarith
import Mathlib.Tactic.Ring

/-!
# Credit accounts

An account holds at most `capacity`, earns at most `rate` per unit of time and never
goes negative. What is charged to it in any window of time is then bounded, whatever
the account does otherwise. Left alone, it reaches a credit at a time that settling it on the
way does not move.
-/

namespace VirtualPerson

set_option autoImplicit false

universe u

structure Charge (K : Type u) where
  time : K
  amount : K

section Account

variable {K : Type u} [Field K] [LinearOrder K]

/-- Histories of an account: the credit left, the time of the last charge and the
charges in order. An account opens with at most its capacity. -/
inductive Account (capacity rate : K) : K → K → List (Charge K) → Prop where
  | opened {credit time : K} (hle : credit ≤ capacity) : Account capacity rate credit time []
  | charge {credit credit' time : K} {cs : List (Charge K)} (c : Charge K)
      (hacc : Account capacity rate credit time cs) (htime : time ≤ c.time) (hnonneg : 0 ≤ credit')
      (hcap : credit' + c.amount ≤ capacity)
      (hearn : credit' + c.amount ≤ credit + rate * (c.time - time)) :
      Account capacity rate credit' c.time (cs ++ [c])

def spent (s t : K) (cs : List (Charge K)) : K :=
  ((cs.filter fun c => s ≤ c.time ∧ c.time ≤ t).map Charge.amount).sum

theorem spent_concat (s t : K) (cs : List (Charge K)) (c : Charge K) :
    spent s t (cs ++ [c]) = spent s t cs + if s ≤ c.time ∧ c.time ≤ t then c.amount else 0 := by
  unfold spent
  rw [List.filter_append, List.map_append, List.sum_append]
  by_cases h : s ≤ c.time ∧ c.time ≤ t <;> simp [h]

namespace Account

variable {capacity rate credit time s t : K} {cs : List (Charge K)}

theorem time_le (h : Account capacity rate credit time cs) : ∀ c ∈ cs, c.time ≤ time := by
  induction h with
  | opened _ => simp
  | charge c _ htime _ _ _ ih =>
    intro c' hc'
    rcases List.mem_append.mp hc' with hc' | hc'
    · exact (ih c' hc').trans htime
    · rw [List.mem_singleton.mp hc']

theorem spent_eq_zero (h : Account capacity rate credit time cs) (hs : time < s) :
    spent s t cs = 0 := by
  have hnone : (cs.filter fun c => s ≤ c.time ∧ c.time ≤ t) = [] := by
    rw [List.filter_eq_nil_iff]
    intro c hc
    have hlt : c.time < s := (h.time_le c hc).trans_lt hs
    simp [not_le.mpr hlt]
  rw [spent, hnone]
  rfl

/-- A window that ends after the last charge sees what a window up to it sees. -/
theorem spent_eq_of_le (h : Account capacity rate credit time cs) (ht : time ≤ t) :
    spent s t cs = spent s time cs := by
  unfold spent
  congr 2
  apply List.filter_congr
  intro c hc
  have hle := h.time_le c hc
  simp [hle, hle.trans ht]

variable [IsStrictOrderedRing K]

/-- Credit and charges together never exceed what the window could provide. -/
theorem spent_add_credit_le (hrate : 0 ≤ rate) (h : Account capacity rate credit time cs) :
    s ≤ time → spent s time cs + credit ≤ capacity + rate * (time - s) := by
  induction h with
  | @opened credit time hle =>
    intro hs
    have : 0 ≤ rate * (time - s) := mul_nonneg hrate (sub_nonneg.mpr hs)
    simp only [spent, List.filter_nil, List.map_nil, List.sum_nil]
    linarith
  | @charge credit credit' time cs c hacc htime _ hcap hearn ih =>
    intro hs
    rw [spent_concat, if_pos ⟨hs, le_refl _⟩, hacc.spent_eq_of_le htime]
    by_cases hlast : s ≤ time
    · have hih := ih hlast
      have hsplit : rate * (c.time - s) = rate * (time - s) + rate * (c.time - time) := by ring
      linarith
    · rw [hacc.spent_eq_zero (not_le.mp hlast)]
      have : 0 ≤ rate * (c.time - s) := mul_nonneg hrate (sub_nonneg.mpr hs)
      linarith

/-- In every window from `s` to `t` at most `capacity + rate * (t - s)` is charged. -/
theorem spent_le (hcap₀ : 0 ≤ capacity) (hrate : 0 ≤ rate)
    (h : Account capacity rate credit time cs) (hst : s ≤ t) :
    spent s t cs ≤ capacity + rate * (t - s) := by
  have hwindow : 0 ≤ rate * (t - s) := mul_nonneg hrate (sub_nonneg.mpr hst)
  induction h with
  | opened _ =>
    simp only [spent, List.filter_nil, List.map_nil, List.sum_nil]
    linarith
  | @charge credit credit' time cs c hacc htime hnonneg hcap hearn ih =>
    by_cases hin : s ≤ c.time ∧ c.time ≤ t
    · have hfull := (Account.charge c hacc htime hnonneg hcap hearn).spent_add_credit_le hrate hin.1
      rw [← (Account.charge c hacc htime hnonneg hcap hearn).spent_eq_of_le hin.2] at hfull
      have hmono : rate * (c.time - s) ≤ rate * (t - s) :=
        mul_le_mul_of_nonneg_left (by linarith [hin.2]) hrate
      linarith
    · rw [spent_concat, if_neg hin, add_zero]
      exact ih

end Account

end Account

section Waiting

variable {K : Type u} [Field K] [LinearOrder K] [IsStrictOrderedRing K]
variable {rate goal credit time now : K}

/-- When an account that is not charged comes to hold `goal`. -/
def readyAt (rate goal credit time : K) : K := time + (goal - credit) / rate

theorem readyAt_settled (hrate : 0 < rate) :
    readyAt rate goal (credit + rate * (now - time)) now = readyAt rate goal credit time := by
  have hcancel : rate * (now - time) / rate = now - time := mul_div_cancel_left₀ _ hrate.ne'
  unfold readyAt
  rw [← sub_sub, sub_div, hcancel]
  ring

theorem readyAt_le_iff (hrate : 0 < rate) :
    readyAt rate goal credit time ≤ now ↔ goal ≤ credit + rate * (now - time) := by
  unfold readyAt
  rw [← le_sub_iff_add_le', div_le_iff₀ hrate]
  constructor
  · intro h
    linarith
  · intro h
    linarith

end Waiting

end VirtualPerson
