import VirtualPerson.Python.Json

/-!
# JSON round trips

A value whose text keeps it is what `json.loads` makes of what `json.dumps` wrote.
-/

namespace VirtualPerson

set_option autoImplicit false

namespace Json

theorem literal_append {l : PyStr × PyVal} (hl : l ∈ literals) (rest : PyStr) :
    literal (l.1 ++ rest) = some (l.2, rest) := by
  simp only [literals, List.mem_cons, List.not_mem_nil, or_false] at hl
  rcases hl with rfl | rfl | rfl | rfl | rfl | rfl <;>
    simp [literal, literals, str, List.find?, List.cons_prefix_cons]

/-- A number's text does not go on with what follows it. -/
def Ends (rest : PyStr) : Prop :=
  ∀ c ∈ rest.head?, isDigit c = false ∧ c ≠ 0x2E ∧ c ≠ 0x65 ∧ c ≠ 0x45

def digits (n : Nat) : PyStr := (Nat.toDigits 10 n).map Char.toNat

theorem isDigit_of_mem_digits {n c : Nat} (h : c ∈ digits n) : isDigit c = true := by
  obtain ⟨x, hx, rfl⟩ := List.mem_map.mp h
  have hdigit := Nat.isDigit_of_mem_toDigits (by decide) (by decide) hx
  rw [Char.isDigit, Bool.and_eq_true, decide_eq_true_iff, decide_eq_true_iff] at hdigit
  rw [isDigit, Bool.and_eq_true, decide_eq_true_iff, decide_eq_true_iff]
  exact hdigit

theorem natOf_digits (n : Nat) : natOf (digits n) = n := by
  have h : natOf (digits n) = Nat.ofDigitChars 10 (Nat.toDigits 10 n) 0 := by
    rw [natOf, digits, List.foldl_map, Nat.ofDigitChars_eq_foldl]
    rfl
  rw [h, Nat.ofDigitChars_ten_toDigits]

theorem digits_zero : digits 0 = [0x30] := by decide

theorem digits_ne_nil (n : Nat) : digits n ≠ [] := by
  simp [digits, Nat.toDigits_ne_nil]

theorem digits_head {n : Nat} (hn : 0 < n) : (digits n).head? ≠ some 0x30 := by
  induction n using Nat.strong_induction_on with
  | h n ih =>
    by_cases hlt : n < 10
    · have hall : ∀ k < 10, 0 < k → (digits k).head? ≠ some 0x30 := by decide
      exact hall n hlt hn
    · have hsplit : digits n = digits (n / 10) ++ digits (n % 10) := by
        rw [digits, Nat.toDigits_of_base_le (by decide) (by omega), List.map_append]
        rw [digits, digits, Nat.toDigits_of_lt_base (n := n % 10) (by omega)]
      rw [hsplit, List.head?_append_of_ne_nil _ (digits_ne_nil _)]
      exact ih (n / 10) (by omega) (by omega)

theorem str_toString_nat (n : Nat) : str (toString (n : Int)) = digits n := by
  rw [digits, ← Nat.toList_repr]
  rfl

theorem str_toString_neg (n : Nat) : str (toString (Int.negSucc n)) = 0x2D :: digits (n + 1) := by
  rw [digits, ← Nat.toList_repr]
  change ("-" ++ Nat.repr (n + 1)).toList.map Char.toNat = _
  rw [String.toList_append]
  rfl

theorem takeWhile_digits {ds rest : PyStr} (hds : ∀ c ∈ ds, isDigit c = true) (hrest : Ends rest) :
    (ds ++ rest).takeWhile isDigit = ds ∧ (ds ++ rest).dropWhile isDigit = rest := by
  have htake : rest.takeWhile isDigit = [] := by
    cases rest with
    | nil => rfl
    | cons c rest => simp [(hrest c rfl).1]
  have hdrop : rest.dropWhile isDigit = rest := by
    cases rest with
    | nil => rfl
    | cons c rest => simp [(hrest c rfl).1]
  rw [List.takeWhile_append_of_pos hds, List.dropWhile_append_of_pos hds, htake, hdrop]
  simp

theorem integerPart_digits (n : Nat) {rest : PyStr} (hrest : Ends rest) :
    integerPart (digits n ++ rest) = (digits n, rest) := by
  unfold integerPart
  rcases Nat.eq_zero_or_pos n with rfl | hn
  · simp [digits_zero]
  · rw [List.head?_append_of_ne_nil _ (digits_ne_nil n), if_neg (digits_head hn)]
    obtain ⟨htake, hdrop⟩ := takeWhile_digits (fun c => isDigit_of_mem_digits (n := n)) hrest
    rw [htake, hdrop]

theorem fraction_of_ends {rest : PyStr} (h : Ends rest) : fraction rest = ([], rest) := by
  cases rest with
  | nil => rfl
  | cons c rest => simp [fraction, (h c rfl).2.1]

theorem exponent_of_ends {rest : PyStr} (h : Ends rest) : exponent rest = (none, rest) := by
  cases rest with
  | nil => rfl
  | cons c rest => simp [exponent, (h c rfl).2.2]

theorem number_int (i : Int) {rest : PyStr} (hrest : Ends rest) :
    number (str (toString i) ++ rest) = some (.int i, rest) := by
  cases i with
  | ofNat n =>
    have hsign : (digits n ++ rest).head? ≠ some 0x2D := by
      rw [List.head?_append_of_ne_nil _ (digits_ne_nil n)]
      intro h
      have := isDigit_of_mem_digits (List.mem_of_mem_head? h)
      revert this
      decide
    rw [Int.ofNat_eq_natCast, str_toString_nat]
    simp only [number, hsign, if_false, integerPart_digits n hrest, digits_ne_nil, fraction_of_ends hrest,
      exponent_of_ends hrest, and_self, if_true, natOf_digits]
    simp
  | negSucc n =>
    rw [str_toString_neg]
    simp only [number, List.cons_append, List.head?_cons, if_true, List.drop_succ_cons, List.drop_zero,
      integerPart_digits (n + 1) hrest, digits_ne_nil, if_false, fraction_of_ends hrest,
      exponent_of_ends hrest, and_self, natOf_digits]
    rw [show (-1 : Int) * ((n + 1 : Nat) : Int) = Int.negSucc n by omega]

mutual

/-- Values that a text keeps: no object, no finite float, `Stable` strings, distinct keys. -/
def Plain : PyVal → Bool
  | .float (.finite _) => false
  | .object _ => false
  | .str s => Stable s
  | .list vs => plainItems vs
  | .dict es => (es.map Prod.fst).Nodup && plainEntries es
  | _ => true

def plainItems : List PyVal → Bool
  | [] => true
  | v :: vs => Plain v && plainItems vs

def plainEntries : List (PyStr × PyVal) → Bool
  | [] => true
  | (k, v) :: es => Stable k && Plain v && plainEntries es

end

/-- What a written value starts with. -/
def Starts (t : PyStr) : Prop := ∃ c s, t = c :: s ∧ isWs c = false ∧ c ≠ 0x5D ∧ c ≠ 0x7D

/-- The text of a float is ASCII and reads back as it, whatever follows. -/
structure Reads (repr : ℚ → PyStr) (q : ℚ) : Prop where
  starts : Starts (repr q)
  ascii : ∀ c ∈ repr q, c < 128
  value : ∀ n rest, Ends rest → value (n + 1) (repr q ++ rest) = some (.float (.finite q), rest)

mutual

/-- Values that their text keeps: `Plain`, but for finite floats that read back. -/
def Exact (repr : ℚ → PyStr) : PyVal → Prop
  | .float (.finite q) => Reads repr q
  | .object _ => False
  | .str s => Stable s = true
  | .list vs => exactItems repr vs
  | .dict es => (es.map Prod.fst).Nodup ∧ exactEntries repr es
  | _ => True

def exactItems (repr : ℚ → PyStr) : List PyVal → Prop
  | [] => True
  | v :: vs => Exact repr v ∧ exactItems repr vs

def exactEntries (repr : ℚ → PyStr) : List (PyStr × PyVal) → Prop
  | [] => True
  | (k, v) :: es => Stable k = true ∧ Exact repr v ∧ exactEntries repr es

end

mutual

theorem Exact.of_plain (repr : ℚ → PyStr) (v : PyVal) (h : Plain v = true) : Exact repr v := by
  cases v with
  | float x =>
    cases x with
    | finite q => simp [Plain] at h
    | _ => trivial
  | object id => simp [Plain] at h
  | str s => exact h
  | list vs => exact exactItems_of_plain repr vs h
  | dict es =>
    rw [Plain, Bool.and_eq_true, decide_eq_true_iff] at h
    exact ⟨h.1, exactEntries_of_plain repr es h.2⟩
  | _ => trivial

theorem exactItems_of_plain (repr : ℚ → PyStr) (vs : List PyVal) (h : plainItems vs = true) :
    exactItems repr vs := by
  cases vs with
  | nil => trivial
  | cons v vs =>
    rw [plainItems, Bool.and_eq_true] at h
    exact ⟨Exact.of_plain repr v h.1, exactItems_of_plain repr vs h.2⟩

theorem exactEntries_of_plain (repr : ℚ → PyStr) (es : List (PyStr × PyVal))
    (h : plainEntries es = true) : exactEntries repr es := by
  cases es with
  | nil => trivial
  | cons e es =>
    obtain ⟨k, v⟩ := e
    rw [plainEntries, Bool.and_eq_true, Bool.and_eq_true] at h
    exact ⟨h.1.1, Exact.of_plain repr v h.1.2, exactEntries_of_plain repr es h.2⟩

end

theorem skipWs_cons {c : Nat} (hc : isWs c = false) (s : PyStr) : skipWs (c :: s) = c :: s :=
  List.dropWhile_cons_of_neg (by simp [hc])

theorem Starts.skipWs {t : PyStr} (h : Starts t) (rest : PyStr) : skipWs (t ++ rest) = t ++ rest := by
  obtain ⟨c, s, rfl, hws, -, -⟩ := h
  exact skipWs_cons hws (s ++ rest)

theorem Starts.expect {t : PyStr} (h : Starts t) (rest : PyStr) :
    expect 0x5D (t ++ rest) = none ∧ expect 0x7D (t ++ rest) = none := by
  obtain ⟨c, s, rfl, -, hlist, hdict⟩ := h
  exact ⟨if_neg hlist, if_neg hdict⟩

theorem int_head (i : Int) : ∃ c s, str (toString i) = c :: s ∧ (c = 0x2D ∨ isDigit c = true) := by
  cases i with
  | ofNat n =>
    rw [Int.ofNat_eq_natCast, str_toString_nat]
    cases hd : digits n with
    | nil => exact absurd hd (digits_ne_nil n)
    | cons c s => exact ⟨c, s, rfl, .inr (isDigit_of_mem_digits (hd ▸ List.mem_cons_self))⟩
  | negSucc n => exact ⟨_, _, str_toString_neg n, .inl rfl⟩

theorem isDigit_iff {c : Nat} : isDigit c = true ↔ 0x30 ≤ c ∧ c ≤ 0x39 := by
  rw [isDigit, Bool.and_eq_true, decide_eq_true_iff, decide_eq_true_iff]

theorem starts_int (i : Int) : Starts (str (toString i)) := by
  obtain ⟨c, s, heq, hc⟩ := int_head i
  rw [isDigit_iff] at hc
  have hws : isWs c = false := by
    rw [isWs]
    simp only [Bool.or_eq_false_iff, beq_eq_false_iff_ne]
    omega
  exact ⟨c, s, heq, hws, by omega, by omega⟩

theorem starts_of_dumps {repr : ℚ → PyStr} {ascii : Bool} {v : PyVal} {t : PyStr} (hv : Exact repr v)
    (h : dumps repr ascii v = some t) : Starts t := by
  cases v with
  | pyNone =>
    cases h
    exact ⟨_, _, rfl, by decide, by decide, by decide⟩
  | bool b =>
    cases h
    cases b <;> exact ⟨_, _, rfl, by decide, by decide, by decide⟩
  | int i =>
    cases h
    exact starts_int i
  | float x =>
    cases x with
    | finite q =>
      cases h
      exact hv.starts
    | inf negative =>
      cases h
      cases negative <;> exact ⟨_, _, rfl, by decide, by decide, by decide⟩
    | nan =>
      cases h
      exact ⟨_, _, rfl, by decide, by decide, by decide⟩
  | str s =>
    cases h
    exact ⟨_, _, rfl, by decide, by decide, by decide⟩
  | list vs =>
    rw [dumps] at h
    obtain ⟨ts, -, rfl⟩ := Option.map_eq_some_iff.mp h
    exact ⟨_, _, rfl, by decide, by decide, by decide⟩
  | dict es =>
    rw [dumps] at h
    obtain ⟨ts, -, rfl⟩ := Option.map_eq_some_iff.mp h
    exact ⟨_, _, rfl, by decide, by decide, by decide⟩
  | object id => cases h

theorem literal_int (i : Int) (rest : PyStr) : literal (str (toString i) ++ rest) = none := by
  have hdigit (n : Nat) (s : PyStr) {c : Nat} {l : PyStr} (hc : isDigit c = false) :
      ¬ (c :: l) <+: digits n ++ s := by
    intro h
    cases hd : digits n with
    | nil => exact absurd hd (digits_ne_nil n)
    | cons d ds =>
      rw [hd, List.cons_append, List.cons_prefix_cons] at h
      rw [h.1, isDigit_of_mem_digits (n := n) (hd ▸ List.mem_cons_self)] at hc
      cases hc
  rw [literal, Option.map_eq_none_iff, List.find?_eq_none]
  intro l hl
  rw [decide_eq_true_iff]
  simp only [literals, List.mem_cons, List.not_mem_nil, or_false] at hl
  cases i with
  | ofNat n =>
    rw [Int.ofNat_eq_natCast, str_toString_nat]
    rcases hl with rfl | rfl | rfl | rfl | rfl | rfl <;> exact hdigit n rest (by decide)
  | negSucc n =>
    rw [str_toString_neg, List.cons_append]
    rcases hl with rfl | rfl | rfl | rfl | rfl | rfl
    case inr.inr.inr.inr.inr =>
      intro h
      exact hdigit (n + 1) rest (c := 0x49) (by decide) (List.cons_prefix_cons.mp h).2
    all_goals
      intro h
      exact absurd (List.cons_prefix_cons.mp h).1 (by decide)

/-- What may follow a value: what a list, a dict or the text's end puts there. -/
theorem ends_cons {c : Nat} {s : PyStr} (h : c = 0x2C ∨ c = 0x5D ∨ c = 0x7D) : Ends (c :: s) := by
  intro d hd
  cases hd
  rcases h with rfl | rfl | rfl <;> decide

theorem ends_nil : Ends [] := by
  intro c hc
  cases hc

theorem value_scalar {t : PyStr} (n : Nat) (h : ∀ c ∈ t.head?, c ≠ 0x22 ∧ c ≠ 0x7B ∧ c ≠ 0x5B)
    (hne : t ≠ []) :
    value (n + 1) t = (literal t).or (number t) := by
  cases t with
  | nil => exact absurd rfl hne
  | cons c s =>
    obtain ⟨hquote, hdict, hlist⟩ := h c rfl
    rw [value.eq_def]
    simp [hquote, hdict, hlist]

theorem value_of_literal {l : PyStr × PyVal} (hl : l ∈ literals) (n : Nat) (rest : PyStr) :
    value (n + 1) (l.1 ++ rest) = some (l.2, rest) := by
  have hhead : ∀ l ∈ literals, l.1 ≠ [] ∧ ∀ c ∈ l.1.head?, c ≠ 0x22 ∧ c ≠ 0x7B ∧ c ≠ 0x5B := by
    decide
  obtain ⟨hne, hfirst⟩ := hhead l hl
  rw [value_scalar n (by rwa [List.head?_append_of_ne_nil _ hne]) (by simp [hne]),
    literal_append hl rest, Option.some_or]

theorem value_int (i : Int) (n : Nat) {rest : PyStr} (hrest : Ends rest) :
    value (n + 1) (str (toString i) ++ rest) = some (.int i, rest) := by
  obtain ⟨c, s, heq, hc⟩ := int_head i
  have hfirst : ∀ d ∈ (str (toString i) ++ rest).head?, d ≠ 0x22 ∧ d ≠ 0x7B ∧ d ≠ 0x5B := by
    rw [heq, isDigit_iff] at *
    intro d hd
    cases hd
    omega
  have hne : str (toString i) ++ rest ≠ [] := by
    rw [heq]
    exact List.cons_ne_nil c _
  rw [value_scalar n hfirst hne, literal_int, Option.none_or, number_int i hrest]

theorem value_str (n : Nat) (ascii : Bool) {s : PyStr} (hs : Stable s = true) (rest : PyStr) :
    value (n + 1) (quote ascii s ++ rest) = some (.str s, rest) := by
  have hscan := scanString_quote ascii hs rest
  rw [quote, List.append_assoc, List.append_assoc, List.singleton_append, List.singleton_append,
    value.eq_def]
  simp [hscan]

theorem value_list (n : Nat) {s : PyStr} (h : Starts s) (rest : PyStr) :
    value (n + 1) (0x5B :: (s ++ rest)) = (elements n (s ++ rest)).map fun p => (.list p.1, p.2) := by
  rw [value.eq_def]
  simp only [h.skipWs, (h.expect rest).1]
  rfl

theorem value_dict (n : Nat) {s : PyStr} (h : Starts s) (rest : PyStr) :
    value (n + 1) (0x7B :: (s ++ rest)) = (members n [] (s ++ rest)).map fun p => (.dict p.1, p.2) := by
  rw [value.eq_def]
  simp only [h.skipWs, (h.expect rest).2]
  rfl

theorem elements_last {n : Nat} {s rest : PyStr} {v : PyVal} (hv : value n s = some (v, 0x5D :: rest)) :
    elements (n + 1) s = some ([v], rest) := by
  rw [elements, hv]
  rfl

theorem elements_more {n : Nat} {s s' : PyStr} {v : PyVal} (hv : value n s = some (v, 0x2C :: s')) :
    elements (n + 1) s = (elements n (skipWs s')).map fun p => (v :: p.1, p.2) := by
  rw [elements, hv]
  rfl

theorem expect_self (c : Nat) (s : PyStr) : expect c (c :: s) = some s := if_pos rfl

theorem entry_append (ascii : Bool) (k t rest : PyStr) :
    entry ascii k t ++ rest =
      0x22 :: (k.flatMap (escape ascii) ++ 0x22 :: 0x3A :: 0x20 :: (t ++ rest)) := by
  simp [entry, quote, str]

theorem members_last {n : Nat} (d : PyDict) (ascii : Bool) {k t rest rest' : PyStr} {v : PyVal}
    (hk : Stable k = true) (ht : Starts t) (hv : value n (t ++ rest) = some (v, 0x7D :: rest')) :
    members (n + 1) d (entry ascii k t ++ rest) = some (PyDict.set d k v, rest') := by
  have hws : skipWs (0x20 :: (t ++ rest)) = t ++ rest := ht.skipWs rest
  rw [entry_append, members]
  simp only [expect_self, Option.bind_eq_bind, Option.bind_some, scanString_quote ascii hk,
    skipWs_cons (c := 0x3A) (by decide), hws, hv]
  rfl

theorem members_more {n : Nat} (d : PyDict) (ascii : Bool) {k t rest rest' : PyStr} {v : PyVal}
    (hk : Stable k = true) (ht : Starts t) (hv : value n (t ++ rest) = some (v, 0x2C :: rest')) :
    members (n + 1) d (entry ascii k t ++ rest) = members n (PyDict.set d k v) (skipWs rest') := by
  have hws : skipWs (0x20 :: (t ++ rest)) = t ++ rest := ht.skipWs rest
  rw [entry_append, members]
  simp only [expect_self, Option.bind_eq_bind, Option.bind_some, scanString_quote ascii hk,
    skipWs_cons (c := 0x3A) (by decide), hws, hv]
  rfl

theorem set_of_notMem {d : PyDict} {k : PyStr} (v : PyVal) (h : k ∉ d.map Prod.fst) :
    PyDict.set d k v = d ++ [(k, v)] := by
  induction d with
  | nil => rfl
  | cons e es ih =>
    rw [List.map_cons, List.mem_cons, not_or] at h
    have htail : Assoc.set es k v = es ++ [(k, v)] := ih h.2
    rw [PyDict.set, Assoc.set, if_neg (Ne.symm h.1), htail, List.cons_append]

theorem starts_intercalate {t : PyStr} (h : Starts t) (ts : List PyStr) :
    Starts (List.intercalate (str ", ") (t :: ts)) := by
  obtain ⟨c, s, rfl, hc⟩ := h
  cases ts with
  | nil => exact ⟨c, s, by simp [List.intercalate], hc⟩
  | cons t' ts =>
    rw [List.intercalate_cons_of_ne_nil (List.cons_ne_nil t' ts)]
    exact ⟨c, _, rfl, hc⟩

theorem starts_entry (ascii : Bool) (k t : PyStr) : Starts (entry ascii k t) :=
  ⟨0x22, _, rfl, by decide, by decide, by decide⟩

section Written

variable {repr : ℚ → PyStr} {ascii : Bool} {ts : List PyStr}

theorem dumpsItems_cons {v : PyVal} {vs : List PyVal} (h : dumpsItems repr ascii (v :: vs) = some ts) :
    ∃ t ts', ts = t :: ts' ∧ dumps repr ascii v = some t ∧ dumpsItems repr ascii vs = some ts' := by
  rw [dumpsItems] at h
  obtain ⟨t, ht, h⟩ := Option.bind_eq_some_iff.mp h
  obtain ⟨ts', hts, h⟩ := Option.bind_eq_some_iff.mp h
  cases h
  exact ⟨t, ts', rfl, ht, hts⟩

theorem dumpsEntries_cons {k : PyStr} {v : PyVal} {es : List (PyStr × PyVal)}
    (h : dumpsEntries repr ascii ((k, v) :: es) = some ts) :
    ∃ t ts', ts = entry ascii k t :: ts' ∧ dumps repr ascii v = some t ∧
      dumpsEntries repr ascii es = some ts' := by
  rw [dumpsEntries] at h
  obtain ⟨t, ht, h⟩ := Option.bind_eq_some_iff.mp h
  obtain ⟨ts', hts, h⟩ := Option.bind_eq_some_iff.mp h
  cases h
  exact ⟨t, ts', rfl, ht, hts⟩

theorem starts_items {vs : List PyVal} (hne : vs ≠ []) (hv : exactItems repr vs)
    (h : dumpsItems repr ascii vs = some ts) :
    ts ≠ [] ∧ Starts (List.intercalate (str ", ") ts) := by
  cases vs with
  | nil => exact absurd rfl hne
  | cons v vs =>
    obtain ⟨t, ts', rfl, ht, -⟩ := dumpsItems_cons h
    exact ⟨List.cons_ne_nil t ts', starts_intercalate (starts_of_dumps hv.1 ht) ts'⟩

theorem starts_entries {es : List (PyStr × PyVal)} (hne : es ≠ [])
    (h : dumpsEntries repr ascii es = some ts) :
    ts ≠ [] ∧ Starts (List.intercalate (str ", ") ts) := by
  cases es with
  | nil => exact absurd rfl hne
  | cons e es =>
    obtain ⟨t, ts', rfl, -, -⟩ := dumpsEntries_cons h
    exact ⟨List.cons_ne_nil _ ts', starts_intercalate (starts_entry ascii e.1 t) ts'⟩

end Written

mutual

theorem value_dumps (repr : ℚ → PyStr) (ascii : Bool) (v : PyVal) {t rest : PyStr} {n : Nat}
    (hv : Exact repr v) (h : dumps repr ascii v = some t) (hn : t.length ≤ n) (hrest : Ends rest) :
    value n (t ++ rest) = some (v, rest) := by
  cases n with
  | zero =>
    obtain ⟨c, s, rfl, -⟩ := starts_of_dumps hv h
    cases hn
  | succ n =>
    cases v with
    | pyNone =>
      cases h
      exact value_of_literal (l := (str "null", .pyNone)) (by simp [literals]) n rest
    | bool b =>
      cases h
      cases b with
      | false => exact value_of_literal (l := (str "false", .bool false)) (by simp [literals]) n rest
      | true => exact value_of_literal (l := (str "true", .bool true)) (by simp [literals]) n rest
    | int i =>
      cases h
      exact value_int i n hrest
    | float x =>
      cases x with
      | finite q =>
        cases h
        exact hv.value n rest hrest
      | inf negative =>
        cases h
        cases negative with
        | false =>
          exact value_of_literal (l := (str "Infinity", .float (.inf false))) (by simp [literals]) n rest
        | true =>
          exact value_of_literal (l := (str "-Infinity", .float (.inf true))) (by simp [literals]) n rest
      | nan =>
        cases h
        exact value_of_literal (l := (str "NaN", .float .nan)) (by simp [literals]) n rest
    | str s =>
      cases h
      exact value_str n ascii hv rest
    | list vs =>
      rw [dumps] at h
      obtain ⟨ts, hts, rfl⟩ := Option.map_eq_some_iff.mp h
      by_cases hne : vs = []
      · subst hne
        cases hts
        rfl
      · have hstarts := (starts_items hne hv hts).2
        have hlen : (List.intercalate (str ", ") ts).length < n := by
          simp only [List.length_append, List.length_cons, List.length_nil] at hn
          omega
        have hread := elements_dumps repr ascii vs rest hne hv hts hlen
        rw [List.append_assoc, List.append_assoc, List.singleton_append, List.singleton_append,
          value_list n hstarts, hread, Option.map_some]
    | dict es =>
      rw [dumps] at h
      obtain ⟨ts, hts, rfl⟩ := Option.map_eq_some_iff.mp h
      by_cases hne : es = []
      · subst hne
        cases hts
        rfl
      · have hstarts := (starts_entries hne hts).2
        have hlen : (List.intercalate (str ", ") ts).length < n := by
          simp only [List.length_append, List.length_cons, List.length_nil] at hn
          omega
        have hread := members_dumps repr ascii es rest [] hne hv.2 (by simpa using hv.1) hts hlen
        rw [List.append_assoc, List.append_assoc, List.singleton_append, List.singleton_append,
          value_dict n hstarts, hread, Option.map_some, List.nil_append]
    | object id => cases h

theorem elements_dumps (repr : ℚ → PyStr) (ascii : Bool) (vs : List PyVal) {ts : List PyStr}
    (rest : PyStr) {n : Nat} (hne : vs ≠ []) (hv : exactItems repr vs)
    (h : dumpsItems repr ascii vs = some ts) (hn : (List.intercalate (str ", ") ts).length < n) :
    elements n (List.intercalate (str ", ") ts ++ 0x5D :: rest) = some (vs, rest) := by
  cases n with
  | zero => cases hn
  | succ n =>
    cases vs with
    | nil => exact absurd rfl hne
    | cons v vs =>
      obtain ⟨t, ts, rfl, ht, hts⟩ := dumpsItems_cons h
      by_cases hlast : vs = []
      · subst hlast
        cases hts
        rw [List.intercalate_singleton] at hn ⊢
        exact elements_last
          (value_dumps repr ascii v hv.1 ht (Nat.le_of_lt_succ hn) (ends_cons (.inr (.inl rfl))))
      · obtain ⟨hts_ne, hstarts⟩ := starts_items hlast hv.2 hts
        rw [List.intercalate_cons_of_ne_nil hts_ne] at hn ⊢
        have hsep : (str ", ").length = 2 := rfl
        rw [List.length_append, List.length_append, hsep] at hn
        have hread := elements_dumps repr ascii vs rest (n := n) hlast hv.2 hts (by omega)
        have hfirst := value_dumps repr ascii v hv.1 ht (n := n) (by omega)
          (ends_cons (s := 0x20 :: (List.intercalate (str ", ") ts ++ 0x5D :: rest)) (.inl rfl))
        have htext : t ++ str ", " ++ List.intercalate (str ", ") ts ++ 0x5D :: rest =
            t ++ 0x2C :: 0x20 :: (List.intercalate (str ", ") ts ++ 0x5D :: rest) := by
          simp [str]
        have hws : skipWs (0x20 :: (List.intercalate (str ", ") ts ++ 0x5D :: rest)) =
            List.intercalate (str ", ") ts ++ 0x5D :: rest := hstarts.skipWs (0x5D :: rest)
        rw [htext, elements_more hfirst, hws, hread, Option.map_some]

theorem members_dumps (repr : ℚ → PyStr) (ascii : Bool) (es : List (PyStr × PyVal)) {ts : List PyStr}
    (rest : PyStr) {n : Nat} (d : PyDict) (hne : es ≠ []) (hv : exactEntries repr es)
    (hkeys : ((d ++ es).map Prod.fst).Nodup)
    (h : dumpsEntries repr ascii es = some ts) (hn : (List.intercalate (str ", ") ts).length < n) :
    members n d (List.intercalate (str ", ") ts ++ 0x7D :: rest) = some (d ++ es, rest) := by
  cases n with
  | zero => cases hn
  | succ n =>
    cases es with
    | nil => exact absurd rfl hne
    | cons e es =>
      obtain ⟨k, v⟩ := e
      obtain ⟨hk, hval, htail⟩ := hv
      obtain ⟨t, ts, rfl, ht, hts⟩ := dumpsEntries_cons h
      have hstart := starts_of_dumps hval ht
      have hlen : t.length ≤ (entry ascii k t).length := by
        rw [entry, List.length_append]
        exact Nat.le_add_left _ _
      have hset : PyDict.set d k v = d ++ [(k, v)] := by
        apply set_of_notMem
        rw [List.map_append, List.map_cons] at hkeys
        intro hmem
        exact (List.nodup_append.mp hkeys).2.2 k hmem k List.mem_cons_self rfl
      by_cases hlast : es = []
      · subst hlast
        cases hts
        rw [List.intercalate_singleton] at hn ⊢
        have hfirst := value_dumps repr ascii v hval ht (n := n) (by omega)
          (ends_cons (s := rest) (.inr (.inr rfl)))
        rw [members_last d ascii hk hstart hfirst, hset]
      · obtain ⟨hts_ne, hstarts⟩ := starts_entries hlast hts
        rw [List.intercalate_cons_of_ne_nil hts_ne] at hn ⊢
        have hsep : (str ", ").length = 2 := rfl
        rw [List.length_append, List.length_append, hsep] at hn
        have hread := members_dumps repr ascii es rest (n := n) (d ++ [(k, v)]) hlast htail
          (by simpa using hkeys) hts (by omega)
        have hfirst := value_dumps repr ascii v hval ht (n := n) (by omega)
          (ends_cons (s := 0x20 :: (List.intercalate (str ", ") ts ++ 0x7D :: rest)) (.inl rfl))
        have htext : entry ascii k t ++ str ", " ++ List.intercalate (str ", ") ts ++ 0x7D :: rest =
            entry ascii k t ++ 0x2C :: 0x20 :: (List.intercalate (str ", ") ts ++ 0x7D :: rest) := by
          simp [str]
        have hws : skipWs (0x20 :: (List.intercalate (str ", ") ts ++ 0x7D :: rest)) =
            List.intercalate (str ", ") ts ++ 0x7D :: rest := hstarts.skipWs (0x7D :: rest)
        rw [htext, members_more d ascii hk hstart hfirst, hset, hws, hread, List.append_assoc,
          List.singleton_append]

end

/-- An integer is written in digits, behind a minus sign where it is negative. -/
theorem forall_int {P : Nat → Prop} (hminus : P 0x2D) (hdigit : ∀ c, 0x30 ≤ c → c ≤ 0x39 → P c) (i : Int) :
    ∀ c ∈ str (toString i), P c := by
  have hdigits (n c : Nat) (hc : c ∈ digits n) : P c := by
    obtain ⟨hlow, hhigh⟩ := isDigit_iff.mp (isDigit_of_mem_digits hc)
    exact hdigit c hlow hhigh
  intro c hc
  cases i with
  | ofNat n =>
    rw [Int.ofNat_eq_natCast, str_toString_nat] at hc
    exact hdigits n c hc
  | negSucc n =>
    rw [str_toString_neg] at hc
    rcases List.mem_cons.mp hc with rfl | hc
    · exact hminus
    · exact hdigits (n + 1) c hc

theorem int_ascii (i : Int) : ∀ c ∈ str (toString i), c < 128 :=
  forall_int (by omega) (fun c _ hhigh => by omega) i

theorem int_printable (i : Int) : ∀ c ∈ str (toString i), 0x20 ≤ c :=
  forall_int (by omega) (fun c hlow _ => by omega) i

section Characters

variable {P : Nat → Prop} {ascii : Bool}

theorem forall_intercalate (hsep : ∀ c ∈ str ", ", P c) {ts : List PyStr} (h : ∀ t ∈ ts, ∀ c ∈ t, P c) :
    ∀ c ∈ List.intercalate (str ", ") ts, P c := by
  induction ts with
  | nil => simp [List.intercalate]
  | cons t ts ih =>
    have hrest := ih fun t' ht' => h t' (List.mem_cons_of_mem t ht')
    cases ts with
    | nil => simpa using h t List.mem_cons_self
    | cons t' ts =>
      rw [List.intercalate_cons_of_ne_nil (List.cons_ne_nil t' ts)]
      intro c hc
      rcases List.mem_append.mp hc with hc | hc
      · rcases List.mem_append.mp hc with hc | hc
        · exact h t List.mem_cons_self c hc
        · exact hsep c hc
      · exact hrest c hc

theorem forall_entry (hsep : ∀ c ∈ str ": ", P c) {k t : PyStr} (hk : ∀ c ∈ quote ascii k, P c)
    (ht : ∀ c ∈ t, P c) : ∀ c ∈ entry ascii k t, P c := by
  intro c hc
  rcases List.mem_append.mp hc with hc | hc
  · rcases List.mem_append.mp hc with hc | hc
    · exact hk c hc
    · exact hsep c hc
  · exact ht c hc

theorem forall_enclosed {a b : Nat} {t : PyStr} (ha : P a) (hb : P b) (ht : ∀ c ∈ t, P c) :
    ∀ c ∈ [a] ++ t ++ [b], P c := by
  intro c hc
  rcases List.mem_append.mp hc with hc | hc
  · rcases List.mem_append.mp hc with hc | hc
    · rwa [List.mem_singleton.mp hc]
    · exact ht c hc
  · rwa [List.mem_singleton.mp hc]

end Characters

mutual

theorem dumps_ascii {repr : ℚ → PyStr} (v : PyVal) (hv : Exact repr v) :
    ∃ t, dumps repr true v = some t ∧ ∀ c ∈ t, c < 128 := by
  cases v with
  | pyNone => exact ⟨_, rfl, by decide⟩
  | bool b => exact ⟨_, rfl, by cases b <;> decide⟩
  | int i => exact ⟨_, rfl, int_ascii i⟩
  | float x =>
    cases x with
    | finite q => exact ⟨_, rfl, hv.ascii⟩
    | inf negative => exact ⟨_, rfl, by cases negative <;> decide⟩
    | nan => exact ⟨_, rfl, by decide⟩
  | str s => exact ⟨_, rfl, quote_ascii (Stable.lt hv)⟩
  | list vs =>
    obtain ⟨ts, hts, hascii⟩ := dumpsItems_ascii vs hv
    refine ⟨_, by rw [dumps, hts, Option.map_some], ?_⟩
    exact forall_enclosed (by decide) (by decide) (forall_intercalate (by decide) hascii)
  | dict es =>
    obtain ⟨ts, hts, hascii⟩ := dumpsEntries_ascii es hv.2
    refine ⟨_, by rw [dumps, hts, Option.map_some], ?_⟩
    exact forall_enclosed (by decide) (by decide) (forall_intercalate (by decide) hascii)
  | object id => exact hv.elim

theorem dumpsItems_ascii {repr : ℚ → PyStr} (vs : List PyVal) (hv : exactItems repr vs) :
    ∃ ts, dumpsItems repr true vs = some ts ∧ ∀ t ∈ ts, ∀ c ∈ t, c < 128 := by
  cases vs with
  | nil => exact ⟨[], rfl, fun _ ht => absurd ht List.not_mem_nil⟩
  | cons v vs =>
    obtain ⟨t, ht, hascii⟩ := dumps_ascii v hv.1
    obtain ⟨ts, hts, hrest⟩ := dumpsItems_ascii vs hv.2
    refine ⟨t :: ts, by simp [dumpsItems, ht, hts], ?_⟩
    exact List.forall_mem_cons.mpr ⟨hascii, hrest⟩

theorem dumpsEntries_ascii {repr : ℚ → PyStr} (es : List (PyStr × PyVal))
    (hv : exactEntries repr es) :
    ∃ ts, dumpsEntries repr true es = some ts ∧ ∀ t ∈ ts, ∀ c ∈ t, c < 128 := by
  cases es with
  | nil => exact ⟨[], rfl, fun _ ht => absurd ht List.not_mem_nil⟩
  | cons e es =>
    obtain ⟨k, v⟩ := e
    obtain ⟨hk, hval, htail⟩ := hv
    obtain ⟨t, ht, hascii⟩ := dumps_ascii v hval
    obtain ⟨ts, hts, hrest⟩ := dumpsEntries_ascii es htail
    refine ⟨entry true k t :: ts, by simp [dumpsEntries, ht, hts], ?_⟩
    exact List.forall_mem_cons.mpr
      ⟨forall_entry (by decide) (quote_ascii (Stable.lt hk)) hascii, hrest⟩

end

section Printable

variable {repr : ℚ → PyStr} {ascii : Bool}

mutual

/-- No control character is written, so no line break. -/
theorem dumps_printable (hrepr : ∀ q, ∀ c ∈ repr q, 0x20 ≤ c) (v : PyVal) {t : PyStr}
    (h : dumps repr ascii v = some t) : ∀ c ∈ t, 0x20 ≤ c := by
  cases v with
  | pyNone =>
    cases h
    decide
  | bool b =>
    cases h
    cases b <;> decide
  | int i =>
    cases h
    exact int_printable i
  | float x =>
    cases x with
    | finite q =>
      cases h
      exact hrepr q
    | inf negative =>
      cases h
      cases negative <;> decide
    | nan =>
      cases h
      decide
  | str s =>
    cases h
    exact quote_printable ascii s
  | list vs =>
    rw [dumps] at h
    obtain ⟨ts, hts, rfl⟩ := Option.map_eq_some_iff.mp h
    refine forall_enclosed (by decide) (by decide) ?_
    exact forall_intercalate (by decide) (dumpsItems_printable hrepr vs hts)
  | dict es =>
    rw [dumps] at h
    obtain ⟨ts, hts, rfl⟩ := Option.map_eq_some_iff.mp h
    refine forall_enclosed (by decide) (by decide) ?_
    exact forall_intercalate (by decide) (dumpsEntries_printable hrepr es hts)
  | object id => cases h

theorem dumpsItems_printable (hrepr : ∀ q, ∀ c ∈ repr q, 0x20 ≤ c) (vs : List PyVal) {ts : List PyStr}
    (h : dumpsItems repr ascii vs = some ts) : ∀ t ∈ ts, ∀ c ∈ t, 0x20 ≤ c := by
  cases vs with
  | nil =>
    cases h
    exact fun _ ht => absurd ht List.not_mem_nil
  | cons v vs =>
    obtain ⟨t, ts', rfl, ht, hts⟩ := dumpsItems_cons h
    exact List.forall_mem_cons.mpr ⟨dumps_printable hrepr v ht, dumpsItems_printable hrepr vs hts⟩

theorem dumpsEntries_printable (hrepr : ∀ q, ∀ c ∈ repr q, 0x20 ≤ c)
    (es : List (PyStr × PyVal)) {ts : List PyStr} (h : dumpsEntries repr ascii es = some ts) :
    ∀ t ∈ ts, ∀ c ∈ t, 0x20 ≤ c := by
  cases es with
  | nil =>
    cases h
    exact fun _ ht => absurd ht List.not_mem_nil
  | cons e es =>
    obtain ⟨k, v⟩ := e
    obtain ⟨t, ts', rfl, ht, hts⟩ := dumpsEntries_cons h
    have hentry := forall_entry (by decide) (quote_printable ascii k) (dumps_printable hrepr v ht)
    exact List.forall_mem_cons.mpr ⟨hentry, dumpsEntries_printable hrepr es hts⟩

end

end Printable

theorem loads_dumps_exact {repr : ℚ → PyStr} {ascii : Bool} {v : PyVal} {t : PyStr}
    (hv : Exact repr v) (h : dumps repr ascii v = some t) : loads t = some v := by
  have hws : skipWs t = t := by simpa using (starts_of_dumps hv h).skipWs []
  have hread := value_dumps repr ascii v hv h (Nat.le_succ _) ends_nil
  rw [List.append_nil] at hread
  rw [loads, hws, hread]
  rfl

/-- `json.loads(json.dumps(v))` is `v`. -/
theorem loads_dumps {repr : ℚ → PyStr} {ascii : Bool} {v : PyVal} {t : PyStr} (hv : Plain v = true)
    (h : dumps repr ascii v = some t) : loads t = some v :=
  loads_dumps_exact (.of_plain repr v hv) h

end Json

end VirtualPerson
