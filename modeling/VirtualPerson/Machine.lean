import Mathlib.Data.List.Basic

/-!
# Machines that answer

A machine takes one input at a time, answers it and moves on. Two rules: machines whose
states stay related answer alike, and an observer whose view of the state some inputs never
change cannot tell whether they were made. Nothing here mentions a program.
-/

namespace VirtualPerson

set_option autoImplicit false

structure Machine (σ ι ο : Type) where
  step : ι → σ → ο × σ

namespace Machine

variable {σ τ ι κ ο : Type}

/-- The answers to a sequence of inputs, in their order. -/
def answers (M : Machine σ ι ο) : List ι → σ → List ο
  | [], _ => []
  | i :: is, s => (M.step i s).1 :: answers M is (M.step i s).2

def final (M : Machine σ ι ο) : List ι → σ → σ
  | [], s => s
  | i :: is, s => final M is (M.step i s).2

/-- The answers to those inputs that an observer makes. -/
def observed (M : Machine σ ι ο) (sees : ι → Bool) : List ι → σ → List ο
  | [], _ => []
  | i :: is, s =>
    let rest := observed M sees is (M.step i s).2
    if sees i then (M.step i s).1 :: rest else rest

/-- Two machines, the second given each input in a translation, answer alike. -/
theorem answers_eq_of_simulation {M : Machine σ ι ο} {N : Machine τ κ ο} {f : ι → κ}
    (cond : ι → Prop) (rel : σ → τ → Prop)
    (hstep : ∀ {i s t}, cond i → rel s t →
      (M.step i s).1 = (N.step (f i) t).1 ∧ rel (M.step i s).2 (N.step (f i) t).2) :
    ∀ {is : List ι} {s : σ} {t : τ}, (∀ i ∈ is, cond i) → rel s t →
      M.answers is s = N.answers (is.map f) t := by
  intro is
  induction is with
  | nil =>
    intro s t _ _
    rfl
  | cons i is ih =>
    intro s t hcond hrel
    obtain ⟨hanswer, hnext⟩ := hstep (hcond i List.mem_cons_self) hrel
    have hrest := ih (fun j hj => hcond j (List.mem_cons_of_mem i hj)) hnext
    rw [answers, List.map_cons, answers, hanswer, hrest]

/-- In states that stay good, a machine may answer each input by itself. -/
theorem answers_eq_map {M : Machine σ ι ο} {f : ι → ο} (cond : ι → Prop) (good : σ → Prop)
    (hstep : ∀ {i s}, cond i → good s → (M.step i s).1 = f i ∧ good (M.step i s).2) :
    ∀ {is : List ι} {s : σ}, (∀ i ∈ is, cond i) → good s → M.answers is s = is.map f := by
  intro is
  induction is with
  | nil =>
    intro s _ _
    rfl
  | cons i is ih =>
    intro s hcond hgood
    obtain ⟨hanswer, hnext⟩ := hstep (hcond i List.mem_cons_self) hgood
    have hrest := ih (fun j hj => hcond j (List.mem_cons_of_mem i hj)) hnext
    rw [answers, List.map_cons, hanswer, hrest]

/-- The states that such machines end in are related as well. -/
theorem final_of_simulation {M : Machine σ ι ο} {N : Machine τ κ ο} {f : ι → κ}
    (cond : ι → Prop) (rel : σ → τ → Prop)
    (hstep : ∀ {i s t}, cond i → rel s t → rel (M.step i s).2 (N.step (f i) t).2) :
    ∀ {is : List ι} {s : σ} {t : τ}, (∀ i ∈ is, cond i) → rel s t →
      rel (M.final is s) (N.final (is.map f) t) := by
  intro is
  induction is with
  | nil =>
    intro s t _ hrel
    exact hrel
  | cons i is ih =>
    intro s t hcond hrel
    exact ih (fun j hj => hcond j (List.mem_cons_of_mem i hj))
      (hstep (hcond i List.mem_cons_self) hrel)

/-- Inputs that never change what an observer can come to see may be left out. -/
theorem observed_filter {M : Machine σ ι ο} {sees hidden : ι → Bool} (rel : σ → σ → Prop)
    (hhidden : ∀ {i s t}, hidden i = true → rel s t → rel (M.step i s).2 t)
    (hstep : ∀ {i s t}, rel s t → rel (M.step i s).2 (M.step i t).2)
    (hsees : ∀ {i s t}, sees i = true → rel s t →
      hidden i = false ∧ (M.step i s).1 = (M.step i t).1) :
    ∀ (is : List ι) {s t : σ}, rel s t →
      M.observed sees is s = M.observed sees (is.filter fun i => !hidden i) t := by
  intro is
  induction is with
  | nil =>
    intro s t _
    rfl
  | cons i is ih =>
    intro s t hrel
    cases hh : hidden i with
    | true =>
      have hseen : sees i = false := by
        rw [Bool.eq_false_iff]
        intro hs
        exact absurd ((hsees hs hrel).1.symm.trans hh) Bool.false_ne_true
      rw [List.filter_cons_of_neg (by simp [hh]), observed, hseen]
      exact ih (hhidden hh hrel)
    | false =>
      rw [List.filter_cons_of_pos (by simp [hh]), observed, observed, ih (hstep hrel)]
      cases hs : sees i with
      | false => rfl
      | true => rw [(hsees hs hrel).2]

end Machine

end VirtualPerson
