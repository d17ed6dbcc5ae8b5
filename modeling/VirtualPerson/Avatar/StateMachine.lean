import Mathlib.Tactic.Cases

/-!
# The conversation state machine

The avatar's states and the transitions between them. An illegal transition keeps
the state; every state may return to `idle`.
-/

namespace VirtualPerson

set_option autoImplicit false

inductive AvatarState where
  | idle
  | listening
  | thinking
  | speaking
  deriving DecidableEq

namespace AvatarState

def allowed : AvatarState → List AvatarState
  | .idle => [.listening, .thinking, .speaking]
  | .listening => [.thinking, .idle]
  | .thinking => [.speaking, .idle]
  | .speaking => [.idle, .thinking, .listening]

def transition (state newState : AvatarState) : AvatarState :=
  if newState ≠ state ∧ newState ∉ .idle :: state.allowed then state else newState

@[simp] theorem transition_idle (a : AvatarState) : a.transition .idle = .idle := by
  simp [transition]

@[simp] theorem transition_thinking (a : AvatarState) : a.transition .thinking = .thinking := by
  cases a <;> rfl

theorem transition_eq_or (a b : AvatarState) : a.transition b = a ∨ a.transition b = b := by
  unfold transition
  split
  · exact .inl rfl
  · exact .inr rfl

/-- Only a transition to `idle` makes the avatar idle. -/
theorem transition_ne_idle {a b : AvatarState} (ha : a ≠ .idle) (hb : b ≠ .idle) :
    a.transition b ≠ .idle := by
  rcases transition_eq_or a b with h | h
  · rw [h]
    exact ha
  · rw [h]
    exact hb

end AvatarState

end VirtualPerson
