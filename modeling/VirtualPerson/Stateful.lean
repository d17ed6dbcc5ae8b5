import Mathlib.Logic.Basic

/-!
# Stateful programs that may raise

What a bind, a handler and a program on a part of the state do, by their results. An
exception keeps the state it was raised in.
-/

namespace VirtualPerson

set_option autoImplicit false

namespace Stateful

variable {ε σ τ α β : Type}

/-- The state a program leaves, whether it returned or raised. -/
def final : EStateM.Result ε σ α → σ
  | .ok _ s => s
  | .error _ s => s

/-- What a computation returns or raises. -/
def toExcept : EStateM.Result ε σ α → Except ε α
  | .ok a _ => .ok a
  | .error e _ => .error e

/-- A program on a part of the state. -/
def zoom (get : σ → τ) (put : τ → σ → σ) (p : EStateM ε τ α) : EStateM ε σ α := fun s =>
  match p (get s) with
  | .ok a t => .ok a (put t s)
  | .error e t => .error e (put t s)

/-- `except e: h e` for the exceptions that `caught` accepts. -/
def handling (caught : ε → Bool) (p : EStateM ε σ α) (h : ε → EStateM ε σ α) : EStateM ε σ α :=
  tryCatch p fun e => if caught e then h e else throw e

variable {p : EStateM ε σ α} {f : α → EStateM ε σ β} {s s' : σ} {a : α} {b : β} {e : ε}

theorem bind_run :
    (p >>= f) s = match p s with
      | .ok a t => f a t
      | .error e t => .error e t := rfl

theorem pure_run : (pure a : EStateM ε σ α) s = .ok a s := rfl

theorem get_run : (get : EStateM ε σ σ) s = .ok s s := rfl

theorem set_run {t : σ} : (set t : EStateM ε σ PUnit) s = .ok ⟨⟩ t := rfl

theorem modify_run {m : σ → σ} : (modify m : EStateM ε σ PUnit) s = .ok ⟨⟩ (m s) := rfl

theorem tryCatch_run {h : ε → EStateM ε σ α} :
    tryCatch p h s = match p s with
      | .ok a t => .ok a t
      | .error e t => h e t := by
  change EStateM.tryCatch p h s = _
  delta EStateM.tryCatch
  cases p s <;> rfl

theorem handling_run {caught : ε → Bool} {h : ε → EStateM ε σ α} :
    handling caught p h s = match p s with
      | .ok a t => .ok a t
      | .error e t => if caught e then h e t else .error e t := by
  rw [handling, tryCatch_run]
  cases p s with
  | ok a t => rfl
  | error e t =>
    dsimp only
    split <;> rfl

theorem bind_eq_ok : (p >>= f) s = .ok b s' ↔ ∃ a t, p s = .ok a t ∧ f a t = .ok b s' := by
  rw [bind_run]
  constructor
  · intro h
    split at h
    · rename_i a t hp
      exact ⟨a, t, hp, h⟩
    · cases h
  · intro h
    obtain ⟨a, t, hp, hf⟩ := h
    rw [hp]
    exact hf

theorem pure_eq_ok {a' : α} : (pure a : EStateM ε σ α) s = .ok a' s' ↔ a = a' ∧ s = s' := by
  rw [pure_run, EStateM.Result.ok.injEq]

theorem zoom_eq_ok {get : σ → τ} {put : τ → σ → σ} {q : EStateM ε τ α} :
    zoom get put q s = .ok a s' ↔ ∃ t, q (get s) = .ok a t ∧ s' = put t s := by
  unfold zoom
  constructor
  · intro h
    split at h
    · rename_i a' t hq
      cases h
      exact ⟨t, hq, rfl⟩
    · cases h
  · intro h
    obtain ⟨t, hq, rfl⟩ := h
    rw [hq]

theorem final_bind :
    final ((p >>= f) s) = match p s with
      | .ok a t => final (f a t)
      | .error _ t => t := by
  rw [bind_run]
  cases p s <;> rfl

theorem final_zoom {get : σ → τ} {put : τ → σ → σ} {q : EStateM ε τ α} :
    final (zoom get put q s) = put (final (q (get s))) s := by
  unfold zoom
  cases q (get s) <;> rfl

/-- The program keeps `I`, exceptions included, and what it returns satisfies `Q`. -/
def Ensures (I : σ → Prop) (p : EStateM ε σ α) (Q : α → Prop) : Prop :=
  ∀ s, I s → I (final (p s)) ∧ ∀ a t, p s = .ok a t → Q a

abbrev Keeps (I : σ → Prop) (p : EStateM ε σ α) : Prop := Ensures I p fun _ => True

section Ensures

variable {I : σ → Prop} {J : τ → Prop} {Q Q' : α → Prop} {R : β → Prop}

theorem Ensures.mono (h : Ensures I p Q) (himp : ∀ a, Q a → Q' a) : Ensures I p Q' :=
  fun s hs => ⟨(h s hs).1, fun a t hp => himp a ((h s hs).2 a t hp)⟩

theorem Ensures.keeps (h : Ensures I p Q) : Keeps I p := h.mono fun _ _ => trivial

theorem Ensures.pure (h : Q a) : Ensures I (pure a : EStateM ε σ α) Q := by
  intro s hs
  refine ⟨hs, fun a' t hp => ?_⟩
  obtain ⟨rfl, -⟩ := pure_eq_ok.mp hp
  exact h

theorem Keeps.pure (a : α) : Keeps I (pure a : EStateM ε σ α) := Ensures.pure trivial

theorem Ensures.throw (e : ε) : Ensures I (throw e : EStateM ε σ α) Q :=
  fun _ hs => ⟨hs, fun _ _ hp => by cases hp⟩

theorem Ensures.bind (hp : Ensures I p Q) (hf : ∀ a, Q a → Ensures I (f a) R) : Ensures I (p >>= f) R := by
  intro s hs
  obtain ⟨hfinal, hvalue⟩ := hp s hs
  rw [bind_run]
  cases hrun : p s with
  | ok a t =>
    rw [hrun] at hfinal
    exact hf a (hvalue a t hrun) t hfinal
  | error e t =>
    rw [hrun] at hfinal
    exact ⟨hfinal, fun _ _ h => by cases h⟩

theorem Keeps.bind (hp : Keeps I p) (hf : ∀ a, Ensures I (f a) R) : Ensures I (p >>= f) R :=
  Ensures.bind hp fun a _ => hf a

theorem Ensures.get : Ensures I (get : EStateM ε σ σ) I := by
  intro s hs
  refine ⟨hs, fun a t hp => ?_⟩
  cases hp
  exact hs

theorem Ensures.of_ok (h : Ensures I p Q) (hs : I s) (hrun : p s = .ok a s') : I s' := by
  have hfinal := (h s hs).1
  rwa [hrun] at hfinal

theorem Keeps.modify {m : σ → σ} (h : ∀ s, I s → I (m s)) : Keeps I (modify m : EStateM ε σ PUnit) :=
  fun s hs => ⟨h s hs, fun _ _ _ => trivial⟩

theorem Ensures.ofExcept {x : Except ε α} (h : ∀ a, x = .ok a → Q a) :
    Ensures I (MonadExcept.ofExcept x : EStateM ε σ α) Q := by
  cases x with
  | error e => exact .throw e
  | ok a => exact .pure (h a rfl)

theorem Keeps.ofExcept (x : Except ε α) : Keeps I (MonadExcept.ofExcept x : EStateM ε σ α) :=
  Ensures.ofExcept fun _ _ => trivial

theorem Ensures.handling {caught : ε → Bool} {h : ε → EStateM ε σ α} (hp : Ensures I p Q)
    (hh : ∀ e, Ensures I (h e) Q) : Ensures I (handling caught p h) Q := by
  intro s hs
  obtain ⟨hfinal, hvalue⟩ := hp s hs
  rw [Stateful.handling, tryCatch_run]
  cases hrun : p s with
  | ok a t =>
    rw [hrun] at hfinal
    refine ⟨hfinal, fun a' t' heq => ?_⟩
    cases heq
    exact hvalue a t hrun
  | error e t =>
    rw [hrun] at hfinal
    dsimp only
    split
    · exact hh e t hfinal
    · exact Ensures.throw e t hfinal

theorem Ensures.zoom {get : σ → τ} {put : τ → σ → σ} {q : EStateM ε τ α} (hq : Ensures J q Q)
    (hget : ∀ s, I s → J (get s)) (hput : ∀ s t, I s → J t → I (put t s)) :
    Ensures I (zoom get put q) Q := by
  intro s hs
  obtain ⟨hfinal, hvalue⟩ := hq (get s) (hget s hs)
  rw [final_zoom]
  refine ⟨hput s _ hs hfinal, fun a t hrun => ?_⟩
  obtain ⟨t', hrun', -⟩ := zoom_eq_ok.mp hrun
  exact hvalue a t' hrun'

end Ensures

end Stateful

end VirtualPerson
