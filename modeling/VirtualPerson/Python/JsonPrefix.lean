import VirtualPerson.Python.JsonLayout

/-!
# JSON texts that go on

What a list, a dict or a string is read as does not depend on what follows it, so none of their texts
is the beginning of a longer one, and a text that lacks its end cannot be read.
-/

namespace VirtualPerson

set_option autoImplicit false

namespace Json

theorem expect_append {c : Nat} {s r : PyStr} (h : expect c s = some r) (u : PyStr) :
    expect c (s ++ u) = some (r ++ u) := by
  cases s with
  | nil => cases h
  | cons x s =>
    rw [expect] at h
    split at h
    · rename_i hx
      cases h
      exact if_pos hx
    · cases h

theorem expect_append_none {c : Nat} {s : PyStr} (hs : s ≠ []) (h : expect c s = none) (u : PyStr) :
    expect c (s ++ u) = none := by
  cases s with
  | nil => exact absurd rfl hs
  | cons x s =>
    rw [expect] at h
    split at h
    · cases h
    · rename_i hx
      exact if_neg hx

theorem skipWs_append {s : PyStr} (h : skipWs s ≠ []) (u : PyStr) : skipWs (s ++ u) = skipWs s ++ u := by
  induction s with
  | nil => exact absurd rfl h
  | cons c s ih =>
    unfold skipWs at h ih ⊢
    rw [List.cons_append, List.dropWhile_cons, List.dropWhile_cons]
    rw [List.dropWhile_cons] at h
    split
    · rename_i hc
      rw [if_pos hc] at h
      exact ih h
    · rfl

theorem ne_nil_of_expect {c : Nat} {s r : PyStr} (h : expect c s = some r) : s ≠ [] := by
  rintro rfl
  cases h

theorem pieces_append {s r : PyStr} {ps : List Piece} (h : pieces s = some (ps, r)) (u : PyStr) :
    pieces (s ++ u) = some (ps, r ++ u) := by
  fun_induction pieces s generalizing ps r with
  | case1 => cases h
  | case2 s =>
    cases h
    rw [List.cons_append, pieces.eq_def]
    rfl
  | case3 => cases h
  | case4 a b c d s _ ih =>
    obtain ⟨a', ha, h⟩ := Option.bind_eq_some_iff.mp h
    obtain ⟨b', hb, h⟩ := Option.bind_eq_some_iff.mp h
    obtain ⟨c', hc, h⟩ := Option.bind_eq_some_iff.mp h
    obtain ⟨d', hd, h⟩ := Option.bind_eq_some_iff.mp h
    obtain ⟨⟨qs, rest⟩, hs, h⟩ := Option.bind_eq_some_iff.mp h
    cases h
    simp only [List.cons_append, pieces, ha, hb, hc, hd, ih hs]
    rfl
  | case5 => cases h
  | case6 e s hne _ ih =>
    obtain ⟨x, hx, h⟩ := Option.bind_eq_some_iff.mp h
    obtain ⟨⟨qs, rest⟩, hs, h⟩ := Option.bind_eq_some_iff.mp h
    cases h
    rw [List.cons_append, List.cons_append, pieces_short hne hx, ih hs]
    rfl
  | case7 => cases h
  | case8 c s hquote hslash hctl ih =>
    obtain ⟨⟨qs, rest⟩, hs, h⟩ := Option.bind_eq_some_iff.mp h
    cases h
    rw [List.cons_append, pieces_plain hquote hslash hctl, ih hs]
    rfl

theorem scanString_append {s t r : PyStr} (h : scanString s = some (t, r)) (u : PyStr) :
    scanString (s ++ u) = some (t, r ++ u) := by
  obtain ⟨⟨ps, r'⟩, hs, heq⟩ := Option.map_eq_some_iff.mp h
  cases heq
  rw [scanString, pieces_append hs u]
  rfl

/-- White space, a comma or a closing bracket comes next. -/
def Closed (r : PyStr) : Prop := ∃ c s, r = c :: s ∧ (isWs c = true ∨ c = 0x2C ∨ c = 0x5D ∨ c = 0x7D)

theorem Closed.append {r : PyStr} (h : Closed r) (u : PyStr) : Closed (r ++ u) := by
  obtain ⟨c, s, rfl, hc⟩ := h
  exact ⟨c, s ++ u, rfl, hc⟩

theorem Closed.ends {r : PyStr} (h : Closed r) : Ends r := by
  obtain ⟨c, s, rfl, hc⟩ := h
  intro d hd
  cases hd
  simp only [isWs, Bool.or_eq_true, beq_iff_eq] at hc
  rcases hc with (((rfl | rfl) | rfl) | rfl) | rfl | rfl | rfl <;> decide

theorem closed_of_expect {c : Nat} (hc : c = 0x2C ∨ c = 0x5D ∨ c = 0x7D) {s r : PyStr}
    (h : expect c (skipWs s) = some r) : Closed s := by
  cases s with
  | nil => cases h
  | cons x s =>
    refine ⟨x, s, rfl, ?_⟩
    by_cases hx : isWs x = true
    · exact .inl hx
    · rw [skipWs_cons (by simpa using hx), expect] at h
      split at h
      · rename_i heq
        exact .inr (heq ▸ hc)
      · cases h

/-- Digits that do not reach the end go no further. -/
theorem spanDigits_append {s : PyStr} (h : s.dropWhile isDigit ≠ []) (u : PyStr) :
    (s ++ u).takeWhile isDigit = s.takeWhile isDigit ∧
      (s ++ u).dropWhile isDigit = s.dropWhile isDigit ++ u := by
  induction s with
  | nil => exact absurd rfl h
  | cons c s ih =>
    rw [List.dropWhile_cons] at h
    cases hc : isDigit c with
    | false => simp [hc]
    | true =>
      rw [if_pos hc] at h
      obtain ⟨htake, hdrop⟩ := ih h
      simp only [List.cons_append, List.takeWhile_cons, List.dropWhile_cons, hc, if_true, htake, hdrop,
        and_self]

theorem integerPart_append {s ds r : PyStr} (h : integerPart s = (ds, r)) (hr : r ≠ []) (u : PyStr) :
    integerPart (s ++ u) = (ds, r ++ u) := by
  cases s with
  | nil =>
    cases h
    exact absurd rfl hr
  | cons c s =>
    unfold integerPart at h ⊢
    rw [List.cons_append, List.head?_cons] at *
    by_cases hc : some c = some 0x30
    · rw [if_pos hc] at h ⊢
      cases h
      rfl
    · rw [if_neg hc] at h ⊢
      cases h
      obtain ⟨htake, hdrop⟩ := spanDigits_append hr u
      rw [List.cons_append] at htake hdrop
      rw [htake, hdrop]

theorem fraction_append {s ds r : PyStr} (h : fraction s = (ds, r)) (hds : ds ≠ []) (hr : r ≠ [])
    (u : PyStr) :
    fraction (s ++ u) = (ds, r ++ u) := by
  cases s with
  | nil =>
    cases h
    exact absurd rfl hr
  | cons c s =>
    rw [fraction] at h
    split at h
    · rename_i hc
      cases h
      obtain ⟨htake, hdrop⟩ := spanDigits_append hr u
      rw [List.cons_append, fraction, htake, hdrop, if_pos hc]
    · cases h
      exact absurd rfl hds

theorem fraction_cons {c : Nat} (hc : c ≠ 0x2E) (s : PyStr) : fraction (c :: s) = ([], c :: s) :=
  if_neg fun h => hc h.1

theorem fraction_nil {s r : PyStr} (h : fraction s = ([], r)) : r = s := by
  cases s with
  | nil =>
    cases h
    rfl
  | cons c s =>
    rw [fraction] at h
    split at h
    · rename_i hc
      exact absurd (Prod.mk.inj h).1 hc.2
    · exact (Prod.mk.inj h).2.symm

/-- A text without the sign that may open it -/
def unsigned (s : PyStr) : PyStr := if s.head? = some 0x2D ∨ s.head? = some 0x2B then s.drop 1 else s

theorem unsigned_append {s : PyStr} (hs : s ≠ []) (u : PyStr) : unsigned (s ++ u) = unsigned s ++ u := by
  unfold unsigned
  rw [List.head?_append_of_ne_nil _ hs]
  split
  · exact List.drop_append_of_le_length (List.length_pos_iff.mpr hs)
  · rfl

theorem exponent_cons (c : Nat) (s : PyStr) :
    exponent (c :: s) =
      if (c = 0x65 ∨ c = 0x45) ∧ (unsigned s).takeWhile isDigit ≠ [] then
        (some (if s.head? = some 0x2D then -(natOf ((unsigned s).takeWhile isDigit) : Int)
          else natOf ((unsigned s).takeWhile isDigit)), (unsigned s).dropWhile isDigit)
      else (none, c :: s) := rfl

theorem exponent_none {s r : PyStr} (h : exponent s = (none, r)) : r = s := by
  cases s with
  | nil =>
    cases h
    rfl
  | cons c s =>
    rw [exponent_cons] at h
    by_cases hc : (c = 0x65 ∨ c = 0x45) ∧ (unsigned s).takeWhile isDigit ≠ []
    · rw [if_pos hc] at h
      cases (Prod.mk.inj h).1
    · rw [if_neg hc] at h
      exact (Prod.mk.inj h).2.symm

theorem exponent_append {s r : PyStr} {e : Int} (h : exponent s = (some e, r)) (hr : r ≠ []) (u : PyStr) :
    (∃ c t, s = c :: t ∧ c ≠ 0x2E) ∧ exponent (s ++ u) = (some e, r ++ u) := by
  cases s with
  | nil => cases (Prod.mk.inj h).1
  | cons c s =>
    rw [exponent_cons] at h
    by_cases hc : (c = 0x65 ∨ c = 0x45) ∧ (unsigned s).takeWhile isDigit ≠ []
    · rw [if_pos hc] at h
      obtain ⟨he, hrest⟩ := Prod.mk.inj h
      have hs : s ≠ [] := by
        rintro rfl
        exact hc.2 rfl
      rw [← hrest] at hr
      obtain ⟨htake, hdrop⟩ := spanDigits_append hr u
      refine ⟨⟨c, s, rfl, by rcases hc.1 with rfl | rfl <;> decide⟩, ?_⟩
      rw [List.cons_append, exponent_cons, List.head?_append_of_ne_nil _ hs, unsigned_append hs, htake,
        hdrop, if_pos hc, he, hrest]
    · rw [if_neg hc] at h
      cases (Prod.mk.inj h).1

/-- A number without its minus sign -/
def magnitude (s : PyStr) : PyStr := if s.head? = some 0x2D then s.drop 1 else s

theorem magnitude_append {s : PyStr} (hs : s ≠ []) (u : PyStr) : magnitude (s ++ u) = magnitude s ++ u := by
  unfold magnitude
  rw [List.head?_append_of_ne_nil _ hs]
  split
  · exact List.drop_append_of_le_length (List.length_pos_iff.mpr hs)
  · rfl

section Parts

variable {s int r₀ frac r₁ r₂ : PyStr} {exp : Option Int}

theorem number_none (hi : integerPart (magnitude s) = ([], r₀)) : number s = none := by
  unfold magnitude at hi
  simp only [number, hi, if_true]

theorem number_parts (hi : integerPart (magnitude s) = (int, r₀)) (hne : int ≠ [])
    (hf : fraction r₀ = (frac, r₁)) (he : exponent r₁ = (exp, r₂)) :
    number s =
      if frac = [] ∧ exp = none then
        some (.int ((if s.head? = some 0x2D then -1 else 1) * natOf int), r₀)
      else
        some (.float (.finite (decimal ((if s.head? = some 0x2D then -1 else 1) * natOf (int ++ frac))
          (exp.getD 0 - frac.length))), r₂) := by
  unfold magnitude at hi
  simp only [number, hi, hne, if_false, hf, he]

end Parts

theorem number_append {s r : PyStr} {v : PyVal} (h : number s = some (v, r)) (hr : Closed r) (u : PyStr) :
    number (s ++ u) = some (v, r ++ u) := by
  have hnil : r ≠ [] := by
    rintro rfl
    obtain ⟨c, t, heq, -⟩ := hr
    cases heq
  have hs : s ≠ [] := by
    rintro rfl
    cases h
  rcases hi : integerPart (magnitude s) with ⟨int, r₀⟩
  rcases hf : fraction r₀ with ⟨frac, r₁⟩
  rcases he : exponent r₁ with ⟨exp, r₂⟩
  have hne : int ≠ [] := by
    rintro rfl
    rw [number_none hi] at h
    cases h
  have hi' (hr₀ : r₀ ≠ []) : integerPart (magnitude (s ++ u)) = (int, r₀ ++ u) := by
    rw [magnitude_append hs]
    exact integerPart_append hi hr₀ u
  have hhead : (s ++ u).head? = s.head? := List.head?_append_of_ne_nil _ hs
  rw [number_parts hi hne hf he] at h
  by_cases hint : frac = [] ∧ exp = none
  · rw [if_pos hint] at h
    cases h
    have hends := (hr.append u).ends
    rw [number_parts (hi' hnil) hne (fraction_of_ends hends) (exponent_of_ends hends), hhead]
    rfl
  · rw [if_neg hint] at h
    cases h
    have hr₁ : r₁ ≠ [] := by
      rintro rfl
      cases he
      exact hnil rfl
    have hr₀ : r₀ ≠ [] := by
      rintro rfl
      cases hf
      exact hr₁ rfl
    have hfrac : fraction (r₀ ++ u) = (frac, r₁ ++ u) := by
      by_cases hfr : frac = []
      · subst hfr
        cases exp with
        | none => exact absurd ⟨rfl, rfl⟩ hint
        | some e =>
          obtain ⟨⟨c, t, rfl, hc⟩, -⟩ := exponent_append he hnil u
          rw [← fraction_nil hf, List.cons_append]
          exact fraction_cons hc (t ++ u)
      · exact fraction_append hf hfr hr₁ u
    have hexp : exponent (r₁ ++ u) = (exp, r ++ u) := by
      cases exp with
      | none =>
        obtain rfl := exponent_none he
        exact exponent_of_ends (hr.append u).ends
      | some e => exact (exponent_append he hnil u).2
    rw [number_parts (hi' hr₀) hne hfrac hexp, hhead, if_neg hint]

theorem number_head {s r : PyStr} {v : PyVal} (h : number s = some (v, r)) :
    ∃ c t, isDigit c = true ∧ (s = c :: t ∨ s = 0x2D :: c :: t) := by
  have hdigit : ∃ c t, isDigit c = true ∧ magnitude s = c :: t := by
    rcases hi : integerPart (magnitude s) with ⟨int, r₀⟩
    cases hm : magnitude s with
    | nil =>
      rw [hm] at hi
      cases hi
      rw [number_none (s := s) (by rw [hm]; rfl)] at h
      cases h
    | cons c t =>
      refine ⟨c, t, ?_, rfl⟩
      by_contra hc
      have hzero : c ≠ 0x30 := by
        rintro rfl
        exact hc rfl
      have hnone : integerPart (magnitude s) = ([], c :: t) := by
        rw [hm, integerPart, if_neg (by simpa using hzero)]
        simp [hc]
      rw [number_none hnone] at h
      cases h
  obtain ⟨c, t, hc, hm⟩ := hdigit
  refine ⟨c, t, hc, ?_⟩
  unfold magnitude at hm
  split at hm
  · rename_i hminus
    obtain ⟨s', rfl⟩ := List.head?_eq_some_iff.mp hminus
    exact .inr (congrArg (0x2D :: ·) hm)
  · exact .inl hm

theorem literal_extend {s r : PyStr} {v : PyVal} (h : literal s = some (v, r)) (u : PyStr) :
    literal (s ++ u) = some (v, r ++ u) := by
  obtain ⟨l, hfind, heq⟩ := Option.map_eq_some_iff.mp h
  have hprefix : l.1 <+: s := by simpa using List.find?_some hfind
  obtain ⟨t, rfl⟩ := hprefix
  have hl := List.mem_of_find?_eq_some hfind
  rw [literal_append hl] at h
  cases h
  rw [List.append_assoc]
  exact literal_append hl (r ++ u)

theorem literal_of_number {s r : PyStr} {v : PyVal} (h : number s = some (v, r)) (u : PyStr) :
    literal (s ++ u) = none := by
  have hfirst : ∀ l ∈ literals, ∀ c ∈ l.1.head?, isDigit c = false := by decide
  have hsecond : ∀ l ∈ literals, ∀ c ∈ l.1.tail.head?, isDigit c = false := by decide
  have hlong : ∀ l ∈ literals, 2 ≤ l.1.length := by decide
  obtain ⟨c, t, hc, hs⟩ := number_head h
  rw [literal, Option.map_eq_none_iff, List.find?_eq_none]
  intro l hl
  rw [decide_eq_true_iff]
  intro hprefix
  obtain ⟨a, b, w, hw⟩ : ∃ a b w, l.1 = a :: b :: w := by
    have htwo := hlong l hl
    rcases hm : l.1 with _ | ⟨a, _ | ⟨b, w⟩⟩
    · rw [hm] at htwo
      exact absurd htwo (by decide)
    · rw [hm, List.length_singleton] at htwo
      omega
    · exact ⟨a, b, w, rfl⟩
  have ha := hfirst l hl a (by rw [hw]; rfl)
  have hb := hsecond l hl b (by rw [hw]; rfl)
  rw [hw] at hprefix
  rcases hs with rfl | rfl
  · rw [(List.cons_prefix_cons.mp hprefix).1, hc] at ha
    cases ha
  · rw [(List.cons_prefix_cons.mp (List.cons_prefix_cons.mp hprefix).2).1, hc] at hb
    cases hb

def isNumber : PyVal → Bool
  | .int _ => true
  | .float (.finite _) => true
  | _ => false

theorem isNumber_of_number {s r : PyStr} {v : PyVal} (h : number s = some (v, r)) : isNumber v = true := by
  rcases hi : integerPart (magnitude s) with ⟨int, r₀⟩
  rcases hf : fraction r₀ with ⟨frac, r₁⟩
  rcases he : exponent r₁ with ⟨exp, r₂⟩
  by_cases hne : int = []
  · subst hne
    rw [number_none hi] at h
    cases h
  · rw [number_parts hi hne hf he] at h
    by_cases hint : frac = [] ∧ exp = none
    · rw [if_pos hint] at h
      cases h
      rfl
    · rw [if_neg hint] at h
      cases h
      rfl

/-- What was read stays read when the text goes on, and more fuel changes nothing. -/
structure GoesOn (n : Nat) : Prop where
  value : ∀ {s v r}, value n s = some (v, r) → isNumber v = false ∨ Closed r →
    ∀ m, n ≤ m → ∀ u, Json.value m (s ++ u) = some (v, r ++ u)
  elements : ∀ {s vs r}, elements n s = some (vs, r) →
    ∀ m, n ≤ m → ∀ u, Json.elements m (s ++ u) = some (vs, r ++ u)
  members : ∀ {s d d' r}, members n d s = some (d', r) →
    ∀ m, n ≤ m → ∀ u, Json.members m d (s ++ u) = some (d', r ++ u)

namespace GoesOn

variable {n : Nat}

theorem value_step (ih : GoesOn n) {s r : PyStr} {v : PyVal} (h : Json.value (n + 1) s = some (v, r))
    (hv : isNumber v = false ∨ Closed r) (m : Nat) (hm : n + 1 ≤ m) (u : PyStr) :
    Json.value m (s ++ u) = some (v, r ++ u) := by
  obtain ⟨m, rfl⟩ : ∃ k, m = k + 1 := ⟨m - 1, by omega⟩
  have hle : n ≤ m := by omega
  cases s with
  | nil => cases h
  | cons c s =>
    rw [Json.value.eq_def] at h
    rw [List.cons_append, Json.value.eq_def]
    dsimp only at h ⊢
    by_cases hquote : c = 0x22
    · rw [if_pos hquote] at h ⊢
      obtain ⟨⟨t, r'⟩, hs, heq⟩ := Option.map_eq_some_iff.mp h
      cases heq
      rw [scanString_append hs u]
      rfl
    rw [if_neg hquote] at h ⊢
    by_cases hdict : c = 0x7B
    · rw [if_pos hdict] at h ⊢
      cases he : expect 0x7D (skipWs s) with
      | some r' =>
        rw [he] at h
        cases h
        rw [skipWs_append (ne_nil_of_expect he), expect_append he u]
      | none =>
        rw [he] at h
        obtain ⟨⟨d, r'⟩, hd, heq⟩ := Option.map_eq_some_iff.mp h
        cases heq
        have hne : skipWs s ≠ [] := by
          intro hnil
          rw [hnil] at hd
          cases n <;> cases hd
        rw [skipWs_append hne, expect_append_none hne he, ih.members hd m hle u]
        rfl
    rw [if_neg hdict] at h ⊢
    by_cases hlist : c = 0x5B
    · rw [if_pos hlist] at h ⊢
      cases he : expect 0x5D (skipWs s) with
      | some r' =>
        rw [he] at h
        cases h
        rw [skipWs_append (ne_nil_of_expect he), expect_append he u]
      | none =>
        rw [he] at h
        obtain ⟨⟨vs, r'⟩, hd, heq⟩ := Option.map_eq_some_iff.mp h
        cases heq
        have hne : skipWs s ≠ [] := by
          intro hnil
          rw [hnil] at hd
          cases n with
          | zero => cases hd
          | succ n => cases n <;> cases hd
        rw [skipWs_append hne, expect_append_none hne he, ih.elements hd m hle u]
        rfl
    rw [if_neg hlist] at h ⊢
    rw [← List.cons_append]
    cases hl : literal (c :: s) with
    | some p =>
      rw [hl] at h
      cases h
      rw [literal_extend hl u]
      rfl
    | none =>
      rw [hl] at h
      have hnum : number (c :: s) = some (v, r) := h
      have hclosed : Closed r := by
        rcases hv with hv | hv
        · rw [isNumber_of_number hnum] at hv
          cases hv
        · exact hv
      rw [literal_of_number hnum u, number_append hnum hclosed u]
      rfl

theorem elements_step (ih : GoesOn n) {s r : PyStr} {vs : List PyVal}
    (h : Json.elements (n + 1) s = some (vs, r)) (m : Nat) (hm : n + 1 ≤ m) (u : PyStr) :
    Json.elements m (s ++ u) = some (vs, r ++ u) := by
  obtain ⟨m, rfl⟩ : ∃ k, m = k + 1 := ⟨m - 1, by omega⟩
  have hle : n ≤ m := by omega
  rw [Json.elements] at h
  obtain ⟨⟨v, s₁⟩, hv, h⟩ := Option.bind_eq_some_iff.mp h
  dsimp only at h
  rw [Json.elements]
  cases hcomma : expect 0x2C (skipWs s₁) with
  | some s₂ =>
    rw [hcomma] at h
    obtain ⟨⟨vs', r'⟩, hvs, heq⟩ := Option.map_eq_some_iff.mp h
    cases heq
    have hclosed := closed_of_expect (.inl rfl) hcomma
    have hne : skipWs s₂ ≠ [] := by
      intro hnil
      rw [hnil] at hvs
      cases n with
      | zero => cases hvs
      | succ n => cases n <;> cases hvs
    simp only [ih.value hv (.inr hclosed) m hle u, Option.bind_eq_bind, Option.bind_some,
      skipWs_append (ne_nil_of_expect hcomma), expect_append hcomma u, skipWs_append hne,
      ih.elements hvs m hle u, Option.map_some]
  | none =>
    rw [hcomma] at h
    obtain ⟨r', hend, heq⟩ := Option.map_eq_some_iff.mp h
    cases heq
    have hclosed := closed_of_expect (.inr (.inl rfl)) hend
    have hne := ne_nil_of_expect hend
    simp only [ih.value hv (.inr hclosed) m hle u, Option.bind_eq_bind, Option.bind_some,
      skipWs_append hne, expect_append_none hne hcomma, expect_append hend u, Option.map_some]

theorem members_step (ih : GoesOn n) {s r : PyStr} {d d' : PyDict}
    (h : Json.members (n + 1) d s = some (d', r)) (m : Nat) (hm : n + 1 ≤ m) (u : PyStr) :
    Json.members m d (s ++ u) = some (d', r ++ u) := by
  obtain ⟨m, rfl⟩ : ∃ k, m = k + 1 := ⟨m - 1, by omega⟩
  have hle : n ≤ m := by omega
  rw [Json.members] at h
  obtain ⟨s₁, hquote, h⟩ := Option.bind_eq_some_iff.mp h
  obtain ⟨⟨k, s₂⟩, hk, h⟩ := Option.bind_eq_some_iff.mp h
  obtain ⟨s₃, hcolon, h⟩ := Option.bind_eq_some_iff.mp h
  obtain ⟨⟨v, s₄⟩, hv, h⟩ := Option.bind_eq_some_iff.mp h
  dsimp only at h
  have hcolon_ne := ne_nil_of_expect hcolon
  have hvalue_ne : skipWs s₃ ≠ [] := by
    intro hnil
    rw [hnil] at hv
    cases n <;> cases hv
  rw [Json.members]
  simp only [expect_append hquote u, scanString_append hk u, skipWs_append hcolon_ne,
    expect_append hcolon u, skipWs_append hvalue_ne, Option.bind_eq_bind, Option.bind_some]
  cases hcomma : expect 0x2C (skipWs s₄) with
  | some s₅ =>
    rw [hcomma] at h
    dsimp only at h
    have hclosed := closed_of_expect (.inl rfl) hcomma
    have hne : skipWs s₅ ≠ [] := by
      intro hnil
      rw [hnil] at h
      cases n <;> cases h
    simp only [ih.value hv (.inr hclosed) m hle u, Option.bind_some, skipWs_append (ne_nil_of_expect hcomma),
      expect_append hcomma u, skipWs_append hne, ih.members h m hle u]
  | none =>
    rw [hcomma] at h
    obtain ⟨r', hend, heq⟩ := Option.map_eq_some_iff.mp h
    cases heq
    have hclosed := closed_of_expect (.inr (.inr rfl)) hend
    have hne := ne_nil_of_expect hend
    simp only [ih.value hv (.inr hclosed) m hle u, Option.bind_some, skipWs_append hne,
      expect_append_none hne hcomma, expect_append hend u, Option.map_some]

end GoesOn

theorem goesOn (n : Nat) : GoesOn n := by
  induction n with
  | zero => exact ⟨(fun h => by cases h), (fun h => by cases h), (fun h => by cases h)⟩
  | succ n ih => exact ⟨ih.value_step, ih.elements_step, ih.members_step⟩

/-- What a list, a dict or a string opens with -/
def Opens (c : Nat) : Prop := c = 0x22 ∨ c = 0x7B ∨ c = 0x5B

theorem Opens.not_number {n c : Nat} (hc : Opens c) {s r : PyStr} {v : PyVal}
    (h : value n (c :: s) = some (v, r)) : isNumber v = false := by
  cases n with
  | zero => cases h
  | succ n =>
    rw [value.eq_def] at h
    dsimp only at h
    rcases hc with rfl | rfl | rfl
    · obtain ⟨p, -, heq⟩ := Option.map_eq_some_iff.mp h
      cases heq
      rfl
    · simp only [Nat.reduceEqDiff, if_false, if_true] at h
      split at h
      · cases h
        rfl
      · obtain ⟨p, -, heq⟩ := Option.map_eq_some_iff.mp h
        cases heq
        rfl
    · simp only [Nat.reduceEqDiff, if_false, if_true] at h
      split at h
      · cases h
        rfl
      · obtain ⟨p, -, heq⟩ := Option.map_eq_some_iff.mp h
        cases heq
        rfl

theorem Opens.not_space {c : Nat} (hc : Opens c) : isWs c = false := by
  rcases hc with rfl | rfl | rfl <;> decide

theorem skipWs_eq_nil {s : PyStr} (h : skipWs s = []) : Space s := List.dropWhile_eq_nil_iff.mp h

/-- A list, a dict or a string that lacks its end cannot be read. -/
theorem loads_cut {c : Nat} {s u : PyStr} {v : PyVal} (hc : Opens c) (hu : ¬ Space u)
    (h : loads (c :: s ++ u) = some v) : loads (c :: s) = none := by
  rw [Option.eq_none_iff_forall_ne_some]
  intro w hw
  rw [loads, skipWs_cons hc.not_space] at hw
  obtain ⟨⟨w', r⟩, hread, hw⟩ := Option.bind_eq_some_iff.mp hw
  dsimp only at hw
  split at hw
  · rename_i hr
    have hlen : (c :: s).length + 1 ≤ (c :: s ++ u).length + 1 := by simp
    have hmore := (goesOn _).value hread (.inl (hc.not_number hread)) _ hlen u
    rw [loads, List.cons_append, skipWs_cons hc.not_space, ← List.cons_append, hmore] at h
    simp only [Option.bind_eq_bind, Option.bind_some] at h
    split at h
    · rename_i hnil
      exact hu fun x hx => skipWs_eq_nil hnil x (List.mem_append_right r hx)
    · cases h
  · cases hw

end Json

end VirtualPerson
