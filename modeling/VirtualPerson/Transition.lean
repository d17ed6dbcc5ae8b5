import Mathlib.Data.List.Induction
import Mathlib.Logic.Relation

/-!
# Labelled transition systems

Runs, reachable states and the two rules every component below uses: an
inductive invariant holds in every reachable state, and a measure that each step
lowers bounds the length of every run. Nothing here mentions a program.
-/

namespace VirtualPerson

set_option autoImplicit false

universe u v

structure System (σ : Type u) (ℓ : Type v) where
  init : σ → Prop
  step : σ → ℓ → σ → Prop

namespace System

variable {σ : Type u} {ℓ : Type v} {A : System σ ℓ} {s t w : σ} {l : ℓ} {ls ms : List ℓ}

/-- A finite run; the labels stand in the order of the steps. -/
inductive Run (A : System σ ℓ) : σ → List ℓ → σ → Prop where
  | nil (s : σ) : Run A s [] s
  | cons {s t w : σ} {l : ℓ} {ls : List ℓ} : A.step s l t → Run A t ls w → Run A s (l :: ls) w

def Reachable (A : System σ ℓ) (t : σ) : Prop := ∃ s ls, A.init s ∧ A.Run s ls t

/-- The same system, its steps limited to those whose source state meets a condition. -/
def restrict (A : System σ ℓ) (cond : σ → ℓ → Prop) : System σ ℓ where
  init := A.init
  step s l t := cond s l ∧ A.step s l t

theorem Run.single (h : A.step s l t) : A.Run s [l] t := .cons h (.nil t)

theorem Run.append (h : A.Run s ls t) (h' : A.Run t ms w) : A.Run s (ls ++ ms) w := by
  induction h with
  | nil => exact h'
  | cons hst _ ih => exact .cons hst (ih h')

theorem Run.of_append (h : A.Run s (ls ++ ms) w) : ∃ t, A.Run s ls t ∧ A.Run t ms w := by
  induction ls generalizing s with
  | nil => exact ⟨s, .nil s, h⟩
  | cons l ls ih =>
    cases h with
    | cons hst hrest =>
      obtain ⟨t, hls, hms⟩ := ih hrest
      exact ⟨t, .cons hst hls, hms⟩

theorem Run.of_restrict {cond : σ → ℓ → Prop} (h : (A.restrict cond).Run s ls t) : A.Run s ls t := by
  induction h with
  | nil => exact .nil _
  | cons hst _ ih => exact .cons hst.2 ih

/-- A property preserved by every step is preserved by every run. -/
theorem Run.invariant {I : σ → Prop} (hstep : ∀ {s l t}, I s → A.step s l t → I t)
    (h : A.Run s ls t) (hs : I s) : I t := by
  induction h with
  | nil => exact hs
  | cons hst _ ih => exact ih (hstep hs hst)

/-- A run property that grows by one label at a time, along steps between states
satisfying an invariant. -/
theorem Run.invariant_labels {I : σ → List ℓ → Prop}
    (hstep : ∀ {s l t ls}, I s ls → A.step s l t → I t (ls ++ [l]))
    (h : A.Run s ms t) : ∀ {ls}, I s ls → I t (ls ++ ms) := by
  induction h with
  | nil => intro ls hs; simpa using hs
  | cons hst _ ih =>
    intro ls hs
    simpa using ih (hstep hs hst)

/-- A run whose steps all meet `P`, a condition on the labels before the step, its own label and its
target. -/
inductive RunWith (A : System σ ℓ) (P : List ℓ → ℓ → σ → Prop) : σ → List ℓ → σ → Prop where
  | nil (s : σ) : RunWith A P s [] s
  | snoc {s t w : σ} {l : ℓ} {ls : List ℓ} :
      RunWith A P s ls t → A.step t l w → P ls l w → RunWith A P s (ls ++ [l]) w

theorem RunWith.run {P : List ℓ → ℓ → σ → Prop} (h : A.RunWith P s ls t) : A.Run s ls t := by
  induction h with
  | nil => exact .nil _
  | snoc _ hst _ ih => exact ih.append (.single hst)

theorem RunWith.last {P : List ℓ → ℓ → σ → Prop} (h : A.RunWith P s (ls ++ [l]) w) :
    ∃ t, A.RunWith P s ls t ∧ A.step t l w ∧ P ls l w := by
  generalize hms : ls ++ [l] = ms at h
  cases h with
  | nil => simp at hms
  | snoc hrun hst hp =>
    obtain ⟨rfl, hl⟩ := List.append_inj' hms rfl
    cases hl
    exact ⟨_, hrun, hst, hp⟩

/-- Where the labels alone settle the condition. -/
theorem Run.runWith {P : List ℓ → ℓ → σ → Prop} (h : A.Run s ls t)
    (hlabels : ∀ l ∈ ls, ∀ before w, P before l w) : A.RunWith P s ls t := by
  induction ls using List.reverseRecOn generalizing t with
  | nil =>
    cases h
    exact .nil s
  | append_singleton ls l ih =>
    obtain ⟨u, hbefore, hlast⟩ := h.of_append
    cases hlast with
    | cons hst hnil =>
      cases hnil
      apply RunWith.snoc _ hst
      · exact hlabels l (by simp) ls t
      · exact ih hbefore fun l hl => hlabels l (by simp [hl])

/-- Where the one condition gives the other at every step of a run. -/
theorem RunWith.imp {P Q : List ℓ → ℓ → σ → Prop} (h : A.RunWith P s ls t)
    (himp : ∀ {ls t l w}, A.Run s ls t → A.step t l w → P ls l w → Q ls l w) : A.RunWith Q s ls t := by
  induction h with
  | nil => exact .nil _
  | snoc hrun hst hp ih => exact .snoc ih hst (himp hrun.run hst hp)

theorem Reachable.of_init (h : A.init s) : A.Reachable s := ⟨s, [], h, .nil s⟩

theorem Reachable.step (h : A.Reachable s) (hst : A.step s l t) : A.Reachable t := by
  obtain ⟨s₀, ls, h0, hrun⟩ := h
  exact ⟨s₀, ls ++ [l], h0, hrun.append (.single hst)⟩

theorem Reachable.invariant {I : σ → Prop} (hinit : ∀ {s}, A.init s → I s)
    (hstep : ∀ {s l t}, I s → A.step s l t → I t) (h : A.Reachable t) : I t := by
  obtain ⟨s, ls, h0, hrun⟩ := h
  exact hrun.invariant hstep (hinit h0)

theorem Run.length_le {I : σ → Prop} (m : σ → Nat)
    (hstep : ∀ {s l t}, I s → A.step s l t → I t ∧ m t < m s)
    (h : A.Run s ls t) (hs : I s) : ls.length + m t ≤ m s := by
  induction h with
  | nil => simp
  | cons hst _ ih =>
    obtain ⟨ht, hlt⟩ := hstep hs hst
    have := ih ht
    simp only [List.length_cons]
    omega

end System

/-- Where steps break a property exactly when they are bad, it holds all along a sequence of
steps that contains no bad one, and only then. -/
theorem always_iff_no_bad {σ : Type u} {ι : Type v} {step : σ → ι → σ} {I P : σ → Prop}
    {bad : σ → ι → Prop} (hinv : ∀ {s i}, I s → I (step s i))
    (hstep : ∀ {s i}, I s → P s → (P (step s i) ↔ ¬ bad s i)) (is : List ι) :
    ∀ {s : σ}, I s → P s →
      ((∀ before, before <+: is → P (before.foldl step s)) ↔
        ∀ before i, before ++ [i] <+: is → ¬ bad (before.foldl step s) i) := by
  induction is with
  | nil =>
    intro s _ hP
    constructor
    · intro _ before i hpre
      exact absurd (List.prefix_nil.mp hpre) (List.append_ne_nil_of_right_ne_nil before (by simp))
    · intro _ before hpre
      rw [List.prefix_nil.mp hpre]
      exact hP
  | cons i is ih =>
    intro s hI hP
    by_cases hbad : bad s i
    · constructor
      · intro hall
        have hnext : P (step s i) := hall [i] (List.prefix_append [i] is)
        exact absurd hbad ((hstep hI hP).mp hnext)
      · intro hnone
        exact absurd hbad (hnone [] i (List.prefix_append [i] is))
    · have hnext : P (step s i) := (hstep hI hP).mpr hbad
      have hrest := ih (hinv hI) hnext
      constructor
      · intro hall before j hpre
        cases before with
        | nil =>
          obtain ⟨rfl, -⟩ := List.cons_prefix_cons.mp hpre
          exact hbad
        | cons k before =>
          obtain ⟨rfl, htail⟩ := List.cons_prefix_cons.mp hpre
          apply hrest.mp _ before j htail
          intro before' hpre'
          exact hall (k :: before') (List.cons_prefix_cons.mpr ⟨rfl, hpre'⟩)
      · intro hnone before hpre
        cases before with
        | nil => exact hP
        | cons k before =>
          obtain ⟨rfl, htail⟩ := List.cons_prefix_cons.mp hpre
          apply hrest.mpr _ before htail
          intro before' j hpre'
          exact hnone (k :: before') j (List.cons_prefix_cons.mpr ⟨rfl, hpre'⟩)

section Since

variable {ℓ : Type u} {mark mark' reset : ℓ → Prop} {ls : List ℓ} {l : ℓ}

/-- A mark was made that no reset has followed. -/
def Since (mark reset : ℓ → Prop) (ls : List ℓ) : Prop :=
  ∃ before l after, ls = before ++ l :: after ∧ mark l ∧ ∀ x ∈ after, ¬ reset x

theorem Since.mark_last (h : mark l) : Since mark reset (ls ++ [l]) :=
  ⟨ls, l, [], rfl, h, by simp⟩

theorem Since.snoc (h : Since mark reset ls) (hl : ¬ reset l) : Since mark reset (ls ++ [l]) := by
  obtain ⟨before, m, after, rfl, hm, hafter⟩ := h
  refine ⟨before, m, after ++ [l], by simp, hm, ?_⟩
  intro x hx
  rcases List.mem_append.mp hx with hx | hx
  · exact hafter x hx
  · rw [List.mem_singleton.mp hx]
    exact hl

theorem since_concat : Since mark reset (ls ++ [l]) ↔ mark l ∨ Since mark reset ls ∧ ¬ reset l := by
  constructor
  · intro ⟨before, m, after, heq, hm, hafter⟩
    rcases List.eq_nil_or_concat after with rfl | ⟨after, x, rfl⟩
    · obtain ⟨-, hl⟩ := List.append_inj' heq rfl
      cases hl
      exact .inl hm
    · rw [List.concat_eq_append, ← List.cons_append, ← List.append_assoc] at heq
      obtain ⟨rfl, hl⟩ := List.append_inj' heq rfl
      cases hl
      exact .inr ⟨⟨before, m, after, rfl, hm, fun y hy => hafter y (by simp [hy])⟩, hafter l (by simp)⟩
  · rintro (h | ⟨h, hl⟩)
    · exact .mark_last h
    · exact h.snoc hl

theorem Since.of_reset {before after : List ℓ} (h : Since mark reset (before ++ l :: after))
    (hreset : reset l) (hmark : ¬ mark l) : Since mark reset after := by
  obtain ⟨front, m, back, heq, hm, hback⟩ := h
  rcases List.append_eq_append_iff.mp heq with ⟨mid, -, hmid⟩ | ⟨mid, -, hmid⟩
  · cases mid with
    | nil =>
      cases hmid
      exact absurd hm hmark
    | cons x mid =>
      cases hmid
      exact ⟨mid, m, back, rfl, hm, hback⟩
  · cases mid with
    | nil =>
      cases hmid
      exact absurd hm hmark
    | cons x mid =>
      cases hmid
      exact absurd hreset (hback l (List.mem_append_right mid List.mem_cons_self))

theorem Since.mono (h : Since mark reset ls) (himp : ∀ x, mark x → mark' x) : Since mark' reset ls := by
  obtain ⟨before, m, after, hls, hm, hafter⟩ := h
  exact ⟨before, m, after, hls, himp m hm, hafter⟩

end Since

/-- Every label meets a condition on itself and on the labels before it. -/
def AllAlong {ℓ : Type u} (Q : List ℓ → ℓ → Prop) (ls : List ℓ) : Prop :=
  ∀ before l after, ls = before ++ l :: after → Q before l

section AllAlong

variable {ℓ : Type u} {Q : List ℓ → ℓ → Prop} {ls : List ℓ} {l : ℓ}

theorem allAlong_nil : AllAlong Q [] := by
  intro before l after h
  exact absurd h.symm (List.append_ne_nil_of_right_ne_nil before (List.cons_ne_nil l after))

theorem allAlong_concat : AllAlong Q (ls ++ [l]) ↔ AllAlong Q ls ∧ Q ls l := by
  constructor
  · intro h
    refine ⟨?_, h ls l [] rfl⟩
    rintro before m after rfl
    exact h before m (after ++ [l]) (by simp)
  · intro ⟨hls, hl⟩ before m after heq
    rcases List.eq_nil_or_concat after with rfl | ⟨after, x, rfl⟩
    · obtain ⟨rfl, hm⟩ := List.append_inj' heq rfl
      cases hm
      exact hl
    · rw [List.concat_eq_append, ← List.cons_append, ← List.append_assoc] at heq
      obtain ⟨rfl, -⟩ := List.append_inj' heq rfl
      exact hls before m after rfl

end AllAlong

end VirtualPerson
