import VirtualPerson.Python.Str

/-!
# Words

`str.split()` without arguments: the maximal runs of non-whitespace.
-/

namespace VirtualPerson

set_option autoImplicit false

/-- `text.split()` -/
def PyStr.split (s : PyStr) : List PyStr := (s.splitOnP isSpace).filter fun w => w ≠ []

namespace PyStr

theorem of_mem_splitOnP {p : Nat → Bool} {s w : PyStr} (h : w ∈ s.splitOnP p) :
    ∀ c ∈ w, c ∈ s ∧ p c = false := by
  induction s generalizing w with
  | nil =>
    rw [List.splitOnP_nil] at h
    rw [List.mem_singleton.mp h]
    nofun
  | cons c s ih =>
    have hrest {v : PyStr} (hv : v ∈ s.splitOnP p) : ∀ d ∈ v, d ∈ c :: s ∧ p d = false :=
      fun d hd => (ih hv d hd).imp_left (List.mem_cons_of_mem c)
    rw [List.splitOnP_cons_eq_if_modifyHead] at h
    by_cases hc : p c = true
    · rw [if_pos hc] at h
      rcases List.mem_cons.mp h with rfl | h
      · nofun
      · exact hrest h
    · rw [if_neg hc] at h
      cases hsplit : s.splitOnP p with
      | nil => exact absurd hsplit (List.splitOnP_ne_nil p s)
      | cons v vs =>
        rw [hsplit, List.modifyHead_cons] at h
        rcases List.mem_cons.mp h with rfl | h
        · intro d hd
          rcases List.mem_cons.mp hd with rfl | hd
          · exact ⟨List.mem_cons_self, by simpa using hc⟩
          · exact hrest (hsplit ▸ List.mem_cons_self) d hd
        · exact hrest (hsplit ▸ List.mem_cons_of_mem _ h)

/-- A word is not empty and holds no whitespace. -/
theorem word_of_mem_split {s w : PyStr} (h : w ∈ split s) : w ≠ [] ∧ ∀ c ∈ w, isSpace c = false := by
  obtain ⟨hmem, hne⟩ := List.mem_filter.mp h
  exact ⟨by simpa using hne, fun c hc => (of_mem_splitOnP hmem c hc).2⟩

section Separators

variable {x : Nat} {s u v : PyStr}

theorem split_append_space (hx : isSpace x = true) (u v : PyStr) :
    split (u ++ x :: v) = split u ++ split v := by
  rw [split, List.splitOnP_append_cons u v hx, List.filter_append]
  rfl

theorem split_space_cons (hx : isSpace x = true) (s : PyStr) : split (x :: s) = split s :=
  split_append_space hx [] s

theorem split_of_spaces (hv : ∀ c ∈ v, isSpace c = true) : split v = [] := by
  induction v with
  | nil => rfl
  | cons c v ih =>
    rw [split_space_cons (hv c List.mem_cons_self)]
    exact ih fun d hd => hv d (List.mem_cons_of_mem c hd)

theorem split_append_spaces (hv : ∀ c ∈ v, isSpace c = true) : split (u ++ v) = split u := by
  cases v with
  | nil => rw [List.append_nil]
  | cons c v =>
    have hrest := split_of_spaces fun d hd => hv d (List.mem_cons_of_mem c hd)
    rw [split_append_space (hv c List.mem_cons_self), hrest, List.append_nil]

theorem split_spaces_append (hu : ∀ c ∈ u, isSpace c = true) : split (u ++ v) = split v := by
  induction u with
  | nil => rfl
  | cons c u ih =>
    rw [List.cons_append, split_space_cons (hu c List.mem_cons_self)]
    exact ih fun d hd => hu d (List.mem_cons_of_mem c hd)

@[simp] theorem split_strip (s : PyStr) : split (strip s) = split s := by
  have hfront : split (lstrip s) = split s := by
    conv_rhs => rw [← List.takeWhile_append_dropWhile (p := isSpace) (l := s)]
    rw [split_spaces_append fun c hc => List.mem_takeWhile_imp hc, lstrip]
  rw [← hfront]
  conv_rhs => rw [← List.rdropWhile_append_rtakeWhile (p := isSpace) (l := lstrip s)]
  rw [split_append_spaces fun c hc => List.mem_rtakeWhile_imp hc, strip]

theorem split_intercalate (hx : isSpace x = true) (ss : List PyStr) :
    split ([x].intercalate ss) = ss.flatMap split := by
  induction ss with
  | nil => rfl
  | cons s ss ih =>
    cases ss with
    | nil => simp
    | cons t ss =>
      rw [List.intercalate_cons_cons, List.append_assoc, List.singleton_append,
        split_append_space hx, ih, ← List.flatMap_cons]

/-- The words of a text are those of its fields at a separator that is whitespace. -/
theorem split_eq_flatMap_splitOn (hx : isSpace x = true) (s : PyStr) :
    split s = (s.splitOn x).flatMap split := by
  rw [← split_intercalate hx, List.intercalate_splitOn]

end Separators

/-- How many words start in the text; `space` tells whether whitespace or nothing stands before it. -/
def starts : Bool → PyStr → Nat
  | _, [] => 0
  | space, c :: s => (if space && !isSpace c then 1 else 0) + starts (isSpace c) s

section Starts

variable {b : Bool} {s u v w : PyStr}

theorem starts_eq (s : PyStr) :
    (split s).length = starts true s ∧
      ((s.splitOnP isSpace).tail.filter fun w => w ≠ []).length = starts false s := by
  induction s with
  | nil => exact ⟨rfl, rfl⟩
  | cons c s ih =>
    obtain ⟨hall, htail⟩ := ih
    unfold split at hall ⊢
    rw [List.splitOnP_cons_eq_if_modifyHead]
    by_cases hc : isSpace c = true
    · simpa [hc, starts] using hall
    · cases hsplit : s.splitOnP isSpace with
      | nil => exact absurd hsplit (List.splitOnP_ne_nil isSpace s)
      | cons w ws =>
        rw [hsplit, List.tail_cons] at htail
        rw [if_neg hc, List.modifyHead_cons, List.filter_cons_of_pos (by simp), List.length_cons,
          List.tail_cons, htail]
        simp [hc, starts]
        omega

theorem length_split (s : PyStr) : (split s).length = starts true s := (starts_eq s).1

theorem starts_le (b : Bool) (s : PyStr) : starts b s ≤ starts true s := by
  cases s with
  | nil => exact Nat.le_refl 0
  | cons c s => cases b <;> simp [starts]

theorem starts_append_le (b : Bool) (u v : PyStr) : starts b (u ++ v) ≤ starts b u + starts true v := by
  induction u generalizing b with
  | nil => simpa [starts] using starts_le b v
  | cons c u ih =>
    have := ih (isSpace c)
    simp only [List.cons_append, starts]
    omega

/-- Two texts glued together at a letter of each lose a word. -/
theorem starts_append_lt (hu : ∃ c, u.getLast? = some c ∧ isSpace c = false)
    (hv : ∃ c, v.head? = some c ∧ isSpace c = false) :
    starts b (u ++ v) < starts b u + starts true v := by
  obtain ⟨c, hlast, hc⟩ := hu
  obtain ⟨d, hhead, hd⟩ := hv
  induction u generalizing b with
  | nil => cases hlast
  | cons a u ih =>
    cases u with
    | nil =>
      have hac : a = c := by simpa using hlast
      cases v with
      | nil => cases hhead
      | cons e v =>
        cases hhead
        simp [starts, hac, hc, hd]
    | cons a' u =>
      have := ih (b := isSpace a) (by simpa using hlast)
      simp only [List.cons_append, starts] at this ⊢
      omega

theorem spaces_of_starts_eq_zero (h : starts true s = 0) : ∀ c ∈ s, isSpace c = true := by
  induction s with
  | nil => nofun
  | cons c s ih =>
    by_cases hc : isSpace c = true
    · simp only [starts, hc, Bool.not_true, Bool.and_false] at h
      intro d hd
      rcases List.mem_cons.mp hd with rfl | hd
      · exact hc
      · exact ih (by simpa using h) d hd
    · simp [starts, hc] at h

theorem split_eq_nil_iff : split s = [] ↔ ∀ c ∈ s, isSpace c = true := by
  constructor
  · intro h
    apply spaces_of_starts_eq_zero
    rw [← length_split, h, List.length_nil]
  · exact split_of_spaces

/-- Texts without a separator between them have no more words together than apart. -/
theorem length_split_flatten_le (ss : List PyStr) :
    (split ss.flatten).length ≤ (ss.flatMap split).length := by
  induction ss with
  | nil => exact Nat.le_refl 0
  | cons s ss ih =>
    have happend := starts_append_le true s ss.flatten
    rw [length_split] at ih
    rw [List.flatten_cons, length_split, List.flatMap_cons, List.length_append, length_split]
    omega

end Starts

theorem head_strip {s : PyStr} {c : Nat} (h : (strip s).head? = some c) : isSpace c = false := by
  rw [← lstrip_strip] at h
  have hhead := List.head?_dropWhile_not isSpace (strip s)
  unfold lstrip at h
  rw [h] at hhead
  exact hhead

theorem last_strip {s : PyStr} {c : Nat} (h : (strip s).getLast? = some c) : isSpace c = false := by
  have hne : strip s ≠ [] := by
    intro hnil
    rw [hnil] at h
    cases h
  rw [List.getLast?_eq_some_getLast hne] at h
  cases h
  exact Bool.eq_false_iff.mpr (List.rdropWhile_last_not isSpace (lstrip s) hne)

end PyStr

end VirtualPerson
