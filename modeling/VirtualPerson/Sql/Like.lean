import Mathlib.Data.List.Infix
import Mathlib.Tactic.Common

/-!
# LIKE

The pattern language of SQL's `LIKE` over any alphabet, what a pattern without special
characters selects, and a text that a pattern always selects.
-/

namespace VirtualPerson

set_option autoImplicit false

universe u

structure LikeSyntax (α : Type u) where
  /-- Stands for any text. -/
  many : α
  /-- Stands for any one character. -/
  one : α
  escape : α
  many_ne_escape : many ≠ escape

inductive LikeToken (α : Type u) where
  | many
  | one
  | lit (c : α)

namespace LikeToken

variable {α : Type u} [DecidableEq α] {ts : List (LikeToken α)} {t : List α}

def fits : List (LikeToken α) → List α → Bool
  | [], t => t.isEmpty
  | .many :: ts, t => t.tails.any (fits ts)
  | .one :: _, [] => false
  | .one :: ts, _ :: t => fits ts t
  | .lit _ :: _, [] => false
  | .lit c :: ts, d :: t => c == d && fits ts t

theorem fits_many : fits (.many :: ts) t = true ↔ ∃ u v, t = u ++ v ∧ fits ts v = true := by
  simp only [fits, List.any_eq_true, List.mem_tails]
  constructor
  · rintro ⟨v, ⟨u, rfl⟩, hv⟩
    exact ⟨u, v, rfl, hv⟩
  · rintro ⟨u, v, rfl, hv⟩
    exact ⟨v, ⟨u, rfl⟩, hv⟩

theorem fits_lits (s : List α) :
    fits (s.map .lit ++ ts) t = true ↔ ∃ u, t = s ++ u ∧ fits ts u = true := by
  induction s generalizing t with
  | nil => simp
  | cons c s ih =>
    cases t with
    | nil => simp [fits]
    | cons d t =>
      simp only [List.map_cons, List.cons_append, fits, Bool.and_eq_true, beq_iff_eq, ih]
      constructor
      · rintro ⟨rfl, u, rfl, hu⟩
        exact ⟨u, rfl, hu⟩
      · rintro ⟨u, hu, hfits⟩
        cases hu
        exact ⟨rfl, u, rfl, hfits⟩

/-- A literal text between two `many` is looked for as a substring. -/
theorem fits_infix (s : List α) :
    fits (.many :: (s.map .lit ++ [.many])) t = true ↔ s <:+: t := by
  have hany (v : List α) : fits [.many] v = true := fits_many.mpr ⟨v, [], by simp, rfl⟩
  rw [fits_many]
  simp only [fits_lits]
  constructor
  · rintro ⟨u, _, rfl, v, rfl, -⟩
    exact ⟨u, v, by simp⟩
  · rintro ⟨u, v, rfl⟩
    exact ⟨u, s ++ v, by simp, v, rfl, hany v⟩

/-- The shortest text of a pattern: nothing for `many`, a filler for `one`. -/
def sample (filler : α) : List (LikeToken α) → List α
  | [] => []
  | .many :: ts => sample filler ts
  | .one :: ts => filler :: sample filler ts
  | .lit c :: ts => c :: sample filler ts

theorem fits_sample (filler : α) (ts : List (LikeToken α)) : fits ts (sample filler ts) = true := by
  induction ts with
  | nil => rfl
  | cons a ts ih =>
    cases a with
    | many => exact fits_many.mpr ⟨[], _, rfl, ih⟩
    | one => exact ih
    | lit c => simp [sample, fits, ih]

end LikeToken

namespace LikeSyntax

variable {α : Type u} [DecidableEq α] (σ : LikeSyntax α)

/-- The tokens of a pattern; `escaped` behind an escape. An escape at the very end is an error in
SQL. -/
def tokens : (escaped : Bool) → List α → List (LikeToken α)
  | _, [] => []
  | true, c :: p => .lit c :: tokens false p
  | false, c :: p =>
    if c = σ.escape then tokens true p
    else if c = σ.many then .many :: tokens false p
    else if c = σ.one then .one :: tokens false p
    else .lit c :: tokens false p

/-- `text LIKE pattern` -/
def like (text pattern : List α) : Bool := LikeToken.fits (σ.tokens false pattern) text

def Special (c : α) : Prop := c = σ.escape ∨ c = σ.many ∨ c = σ.one

instance : DecidablePred σ.Special := fun _ => inferInstanceAs (Decidable (_ ∨ _ ∨ _))

variable {σ} {s t p : List α} {filler : α}

theorem tokens_append_of_plain (hs : ∀ c ∈ s, ¬ σ.Special c) :
    σ.tokens false (s ++ p) = s.map .lit ++ σ.tokens false p := by
  induction s with
  | nil => rfl
  | cons c s ih =>
    rw [List.forall_mem_cons] at hs
    obtain ⟨hc, hs⟩ := hs
    obtain ⟨hescape, hmany, hone⟩ : c ≠ σ.escape ∧ c ≠ σ.many ∧ c ≠ σ.one := by
      simpa [Special, not_or] using hc
    simp [tokens, ih hs, hescape, hmany, hone]

theorem tokens_many (p : List α) : σ.tokens false (σ.many :: p) = .many :: σ.tokens false p := by
  simp [tokens, σ.many_ne_escape]

/-- Without special characters, `LIKE` between two `many` is the search for a substring. -/
theorem like_infix (hs : ∀ c ∈ s, ¬ σ.Special c) :
    σ.like t (σ.many :: s ++ [σ.many]) = true ↔ s <:+: t := by
  rw [like, List.cons_append, tokens_many, tokens_append_of_plain hs, tokens_many]
  exact LikeToken.fits_infix s

/-- An escape counts twice: even one that makes the closing `many` literal is a loss. -/
def weight (σ : LikeSyntax α) : List α → Nat
  | [] => 0
  | c :: s => (if c = σ.escape then 2 else if σ.Special c then 1 else 0) + weight σ s

theorem weight_append (s t : List α) : σ.weight (s ++ t) = σ.weight s + σ.weight t := by
  induction s with
  | nil => simp [weight]
  | cons c s ih =>
    simp only [List.cons_append, weight, ih]
    omega

theorem weight_le_of_infix (h : s <:+: t) : σ.weight s ≤ σ.weight t := by
  obtain ⟨u, v, rfl⟩ := h
  rw [weight_append, weight_append]
  omega

def sample (σ : LikeSyntax α) (filler : α) (escaped : Bool) (p : List α) : List α :=
  LikeToken.sample filler (σ.tokens escaped (p ++ [σ.many]))

theorem like_sample (filler : α) (p : List α) :
    σ.like (σ.sample filler false p) (σ.many :: p ++ [σ.many]) = true := by
  rw [like, List.cons_append, tokens_many]
  exact LikeToken.fits_sample filler (.many :: σ.tokens false (p ++ [σ.many]))

theorem sample_nil (filler : α) : σ.sample filler false [] = [] := by
  rw [sample, List.nil_append, tokens_many]
  rfl

theorem sample_escaped_nil (filler : α) : σ.sample filler true [] = [σ.many] := rfl

theorem sample_escaped_cons (filler c : α) (p : List α) :
    σ.sample filler true (c :: p) = c :: σ.sample filler false p := rfl

theorem sample_cons (filler c : α) (p : List α) :
    σ.sample filler false (c :: p) =
      if c = σ.escape then σ.sample filler true p
      else if c = σ.many then σ.sample filler false p
      else if c = σ.one then filler :: σ.sample filler false p
      else c :: σ.sample filler false p := by
  simp only [sample, List.cons_append, tokens]
  repeat' split
  all_goals rfl

theorem mem_sample {c : α} {escaped : Bool} (h : c ∈ σ.sample filler escaped p) :
    c ∈ p ∨ c = filler ∨ c = σ.many := by
  induction p generalizing escaped with
  | nil =>
    cases escaped with
    | false =>
      rw [sample_nil] at h
      cases h
    | true => exact .inr (.inr (List.mem_singleton.mp h))
  | cons d p ih =>
    have hrest {b : Bool} (h : c ∈ σ.sample filler b p) : c ∈ d :: p ∨ c = filler ∨ c = σ.many :=
      (ih h).imp_left (List.mem_cons_of_mem d)
    cases escaped with
    | true =>
      rcases List.mem_cons.mp h with rfl | h
      · exact .inl List.mem_cons_self
      · exact hrest h
    | false =>
      rw [sample_cons] at h
      split at h
      · exact hrest h
      · split at h
        · exact hrest h
        · split at h
          · rcases List.mem_cons.mp h with rfl | h
            · exact .inr (.inl rfl)
            · exact hrest h
          · rcases List.mem_cons.mp h with rfl | h
            · exact .inl List.mem_cons_self
            · exact hrest h

theorem weight_cons_plain {c : α} (hc : ¬ σ.Special c) (s : List α) :
    σ.weight (c :: s) = σ.weight s := by
  have hescape : c ≠ σ.escape := fun h => hc (.inl h)
  simp [weight, hc, hescape]

theorem weight_special {c : α} (hc : σ.Special c) (s : List α) :
    σ.weight s < σ.weight (c :: s) := by
  simp only [weight, if_pos hc]
  split <;> omega

/-- Whatever is special in a pattern is missing from its sample. -/
theorem weight_sample (hfiller : ¬ σ.Special filler) (p : List α) :
    (σ.weight (σ.sample filler false p) ≤ σ.weight p ∧
        ((∃ c ∈ p, σ.Special c) → σ.weight (σ.sample filler false p) < σ.weight p)) ∧
      σ.weight (σ.sample filler true p) ≤ σ.weight p + 1 := by
  induction p with
  | nil =>
    rw [sample_nil, sample_escaped_nil]
    refine ⟨⟨Nat.le_refl _, by simp⟩, ?_⟩
    simp only [weight, if_neg σ.many_ne_escape]
    split <;> omega
  | cons c p ih =>
    obtain ⟨⟨hle, hlt⟩, hescaped⟩ := ih
    constructor
    · by_cases hc : σ.Special c
      · have hdrop : σ.weight (σ.sample filler false (c :: p)) < σ.weight (c :: p) := by
          have hspecial := weight_special hc p
          rw [sample_cons]
          split
          · rename_i hesc
            simp only [weight, if_pos hesc] at hspecial ⊢
            omega
          · split
            · omega
            · split
              · rw [weight_cons_plain hfiller]
                omega
              · rename_i hesc hmany hone
                exact absurd hc (by simp [Special, hesc, hmany, hone])
        exact ⟨Nat.le_of_lt hdrop, fun _ => hdrop⟩
      · have hplain : σ.sample filler false (c :: p) = c :: σ.sample filler false p := by
          obtain ⟨hesc, hmany, hone⟩ : c ≠ σ.escape ∧ c ≠ σ.many ∧ c ≠ σ.one := by
            simpa [Special, not_or] using hc
          rw [sample_cons, if_neg hesc, if_neg hmany, if_neg hone]
        rw [hplain, weight_cons_plain hc, weight_cons_plain hc]
        refine ⟨hle, ?_⟩
        rintro ⟨d, hd, hspecial⟩
        rcases List.mem_cons.mp hd with rfl | hd
        · exact absurd hspecial hc
        · exact hlt ⟨d, hd, hspecial⟩
    · rw [sample_escaped_cons]
      simp only [weight]
      omega

/-- A pattern with a special character selects a text that it does not occur in. -/
theorem not_infix_sample (hfiller : ¬ σ.Special filler) (hp : ∃ c ∈ p, σ.Special c)
    (hs : σ.weight s = σ.weight p) : ¬ s <:+: σ.sample filler false p := by
  intro h
  have hle := weight_le_of_infix (σ := σ) h
  have hlt := (weight_sample hfiller p).1.2 hp
  omega

end LikeSyntax

end VirtualPerson
