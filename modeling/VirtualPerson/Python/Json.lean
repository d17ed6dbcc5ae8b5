import VirtualPerson.Python.Value

/-!
# JSON texts

`json.dumps` and `json.loads` between values and texts. A float's digits are a parameter of
the writer, and the reader takes a decimal as the rational it spells.
-/

namespace VirtualPerson

set_option autoImplicit false

namespace Json

def hexDigit (n : Nat) : Nat := if n < 10 then 0x30 + n else 0x57 + n

def unicodeEscape (n : Nat) : PyStr :=
  [0x5C, 0x75, hexDigit (n / 4096), hexDigit (n / 256 % 16), hexDigit (n / 16 % 16),
    hexDigit (n % 16)]

/-- The characters with an escape of two characters, and its second character. -/
def shortEscapes : List (Nat × Nat) :=
  [(0x22, 0x22), (0x5C, 0x5C), (0x0A, 0x6E), (0x0D, 0x72), (0x09, 0x74), (0x0C, 0x66), (0x08, 0x62)]

def high (c : Nat) : Nat := 0xD800 + (c - 0x10000) / 0x400
def low (c : Nat) : Nat := 0xDC00 + (c - 0x10000) % 0x400

/-- One character of a string literal; `ascii` is `ensure_ascii`. -/
def escape (ascii : Bool) (c : Nat) : PyStr :=
  match Assoc.get? shortEscapes c with
  | some e => [0x5C, e]
  | none =>
    if 0x20 ≤ c ∧ (c ≤ 0x7E ∨ ascii = false) then [c]
    else if c < 0x10000 then unicodeEscape c
    else unicodeEscape (high c) ++ unicodeEscape (low c)

def quote (ascii : Bool) (s : PyStr) : PyStr := [0x22] ++ s.flatMap (escape ascii) ++ [0x22]

/-- A piece of a string literal: a character, or the number of a `\u` escape. -/
inductive Piece where
  | char (c : Nat)
  | unit (n : Nat)

def isHigh (n : Nat) : Bool := 0xD800 ≤ n && n ≤ 0xDBFF
def isLow (n : Nat) : Bool := 0xDC00 ≤ n && n ≤ 0xDFFF

/-- A `\u` escape of a high surrogate is joined with one of a low surrogate after it. -/
def join : List Piece → PyStr
  | [] => []
  | .char c :: ps => c :: join ps
  | .unit n :: .unit m :: ps =>
    if isHigh n && isLow m then (0x10000 + (n - 0xD800) * 0x400 + (m - 0xDC00)) :: join ps
    else n :: join (.unit m :: ps)
  | .unit n :: ps => n :: join ps

def unhex (c : Nat) : Option Nat :=
  if 0x30 ≤ c ∧ c ≤ 0x39 then some (c - 0x30)
  else if 0x61 ≤ c ∧ c ≤ 0x66 then some (c - 0x57)
  else if 0x41 ≤ c ∧ c ≤ 0x46 then some (c - 0x37)
  else none

def unescapes : List (Nat × Nat) :=
  [(0x22, 0x22), (0x5C, 0x5C), (0x2F, 0x2F), (0x62, 0x08), (0x66, 0x0C), (0x6E, 0x0A), (0x72, 0x0D),
    (0x74, 0x09)]

/-- The pieces of a literal up to its closing quote, and the text after it. -/
def pieces : PyStr → Option (List Piece × PyStr)
  | [] => none
  | c :: s =>
    if c = 0x22 then some ([], s)
    else if c = 0x5C then
      match s with
      | [] => none
      | e :: s =>
        if e = 0x75 then
          match s with
          | a :: b :: c :: d :: s => do
            let n := (← unhex a) * 4096 + (← unhex b) * 256 + (← unhex c) * 16 + (← unhex d)
            let (ps, rest) ← pieces s
            return (.unit n :: ps, rest)
          | _ => none
        else do
          let x ← Assoc.get? unescapes e
          let (ps, rest) ← pieces s
          return (.char x :: ps, rest)
    else if c < 0x20 then none
    else do
      let (ps, rest) ← pieces s
      return (.char c :: ps, rest)

/-- The string after an opening quote. -/
def scanString (s : PyStr) : Option (PyStr × PyStr) := (pieces s).map fun p => (join p.1, p.2)

/-- What `escape` writes, piece by piece. -/
def written (ascii : Bool) (c : Nat) : List Piece :=
  if (Assoc.get? shortEscapes c).isSome ∨ (0x20 ≤ c ∧ (c ≤ 0x7E ∨ ascii = false)) then [.char c]
  else if c < 0x10000 then [.unit c]
  else [.unit (high c), .unit (low c)]

/-- Code points of which no high surrogate stands right before a low one: reading joins such a pair. -/
def Stable : PyStr → Bool
  | [] => true
  | c :: s => c < 0x110000 && !(isHigh c && s.head?.any isLow) && Stable s

theorem unhex_hexDigit : ∀ n < 16, unhex (hexDigit n) = some n := by decide

theorem unescape_of_short {c e : Nat} (h : Assoc.get? shortEscapes c = some e) :
    e ≠ 0x75 ∧ Assoc.get? unescapes e = some c := by
  obtain ⟨p, hfind, rfl⟩ := Option.map_eq_some_iff.mp h
  have hkey : p.1 = c := by simpa using List.find?_some hfind
  subst hkey
  have hall : ∀ p ∈ shortEscapes, p.2 ≠ 0x75 ∧ Assoc.get? unescapes p.2 = some p.1 := by decide
  exact hall p (List.mem_of_find?_eq_some hfind)

theorem pieces_plain {c : Nat} (hquote : c ≠ 0x22) (hslash : c ≠ 0x5C) (hctl : ¬ c < 0x20) (s : PyStr) :
    pieces (c :: s) = (pieces s).map fun p => (.char c :: p.1, p.2) := by
  rw [pieces.eq_def]
  simp only [hquote, hslash, hctl, if_false]
  cases pieces s <;> rfl

theorem pieces_short {e x : Nat} (hne : e ≠ 0x75) (hun : Assoc.get? unescapes e = some x) (s : PyStr) :
    pieces (0x5C :: e :: s) = (pieces s).map fun p => (.char x :: p.1, p.2) := by
  rw [pieces.eq_def]
  simp only [hne, hun, if_false]
  cases pieces s <;> rfl

theorem pieces_unicodeEscape {n : Nat} (hn : n < 0x10000) (s : PyStr) :
    pieces (unicodeEscape n ++ s) = (pieces s).map fun p => (.unit n :: p.1, p.2) := by
  have hsum : n / 4096 * 4096 + n / 256 % 16 * 256 + n / 16 % 16 * 16 + n % 16 = n := by omega
  simp only [unicodeEscape, List.cons_append, List.nil_append, pieces,
    unhex_hexDigit (n / 4096) (by omega), unhex_hexDigit (n / 256 % 16) (by omega),
    unhex_hexDigit (n / 16 % 16) (by omega), unhex_hexDigit (n % 16) (by omega)]
  cases pieces s with
  | none => rfl
  | some p => simp [hsum]

theorem pieces_escape (ascii : Bool) {c : Nat} (hc : c < 0x110000) (s : PyStr) :
    pieces (escape ascii c ++ s) = (pieces s).map fun p => (written ascii c ++ p.1, p.2) := by
  unfold escape written
  cases hshort : Assoc.get? shortEscapes c with
  | some e =>
    obtain ⟨hne, hun⟩ := unescape_of_short hshort
    simpa using pieces_short hne hun s
  | none =>
    simp only [Option.isSome_none, Bool.false_eq_true, false_or]
    split
    · rename_i hplain
      have hquote : c ≠ 0x22 := fun h => by simp [h, shortEscapes, Assoc.get?] at hshort
      have hslash : c ≠ 0x5C := fun h => by simp [h, shortEscapes, Assoc.get?] at hshort
      exact pieces_plain hquote hslash (by omega) s
    · split
      · rename_i hbmp
        exact pieces_unicodeEscape hbmp s
      · have hhigh : high c < 0x10000 := by unfold high; omega
        have hlow : low c < 0x10000 := by unfold low; omega
        rw [List.append_assoc, pieces_unicodeEscape hhigh, pieces_unicodeEscape hlow]
        cases pieces s <;> rfl

theorem pieces_quote (ascii : Bool) {s : PyStr} (hs : ∀ c ∈ s, c < 0x110000) (rest : PyStr) :
    pieces (s.flatMap (escape ascii) ++ 0x22 :: rest) = some (s.flatMap (written ascii), rest) := by
  induction s with
  | nil =>
    rw [List.flatMap_nil, List.nil_append, pieces.eq_def]
    rfl
  | cons c s ih =>
    have htail := ih fun x hx => hs x (List.mem_cons_of_mem _ hx)
    rw [List.flatMap_cons, List.append_assoc, pieces_escape ascii (hs c List.mem_cons_self), htail]
    rfl

theorem join_unit {n : Nat} {ps : List Piece}
    (h : isHigh n = true → ∀ m qs, ps = .unit m :: qs → isLow m = false) :
    join (.unit n :: ps) = n :: join ps := by
  cases ps with
  | nil => rfl
  | cons p ps =>
    cases p with
    | char c => rfl
    | unit m =>
      rw [join]
      cases hn : isHigh n with
      | false => simp
      | true => simp [h hn m ps rfl]

/-- Only a low surrogate is written as the code unit of one. -/
theorem isLow_of_written {ascii : Bool} {c m : Nat} {ps : List Piece} (hc : c < 0x110000)
    (h : written ascii c = .unit m :: ps) (hm : isLow m = true) : isLow c = true := by
  unfold written at h
  split at h
  · cases h
  · split at h
    · cases h
      exact hm
    · cases h
      rw [isLow, Bool.and_eq_true, decide_eq_true_iff, high] at hm
      omega

theorem join_surrogates {c : Nat} (h₁ : 0x10000 ≤ c) (h₂ : c < 0x110000) (ps : List Piece) :
    join (.unit (high c) :: .unit (low c) :: ps) = c :: join ps := by
  have hhigh : isHigh (high c) = true := by
    rw [isHigh, Bool.and_eq_true, decide_eq_true_iff, decide_eq_true_iff, high]
    omega
  have hlow : isLow (low c) = true := by
    rw [isLow, Bool.and_eq_true, decide_eq_true_iff, decide_eq_true_iff, low]
    omega
  have hc : 0x10000 + (high c - 0xD800) * 0x400 + (low c - 0xDC00) = c := by
    unfold high low
    omega
  rw [join, hhigh, hlow, hc]
  rfl

theorem join_written_append (ascii : Bool) {c : Nat} {ps : List Piece} (hc : c < 0x110000)
    (h : isHigh c = true → ∀ m qs, ps = .unit m :: qs → isLow m = false) :
    join (written ascii c ++ ps) = c :: join ps := by
  unfold written
  split
  · rfl
  · split
    · exact join_unit h
    · rename_i hbig
      exact join_surrogates (Nat.le_of_not_lt hbig) hc ps

theorem Stable.lt {s : PyStr} (h : Stable s = true) : ∀ c ∈ s, c < 0x110000 := by
  induction s with
  | nil => simp
  | cons c s ih =>
    simp only [Stable, Bool.and_eq_true, decide_eq_true_eq] at h
    intro x hx
    rcases List.mem_cons.mp hx with rfl | hx
    · exact h.1.1
    · exact ih h.2 x hx

theorem join_written (ascii : Bool) {s : PyStr} (hs : Stable s = true) :
    join (s.flatMap (written ascii)) = s := by
  induction s with
  | nil => rfl
  | cons c s ih =>
    have hlt := Stable.lt hs
    simp only [Stable, Bool.and_eq_true, decide_eq_true_eq] at hs
    obtain ⟨⟨hc, hpair⟩, hs⟩ := hs
    rw [List.flatMap_cons, join_written_append ascii hc, ih hs]
    -- after a high surrogate the next character is not a low one
    intro hhigh m qs heq
    cases s with
    | nil => cases heq
    | cons x s =>
      have hx : isLow x = false := by simpa [hhigh] using hpair
      have hxlt : x < 0x110000 := hlt x (by simp)
      cases hw : written ascii x with
      | nil =>
        unfold written at hw
        split at hw
        · cases hw
        · split at hw <;> cases hw
      | cons p ps =>
        rw [List.flatMap_cons, hw] at heq
        cases heq
        rw [Bool.eq_false_iff]
        intro hm
        rw [isLow_of_written hxlt hw hm] at hx
        cases hx

/-- Reading back a string that was written. -/
theorem scanString_quote (ascii : Bool) {s : PyStr} (hs : Stable s = true) (rest : PyStr) :
    scanString (s.flatMap (escape ascii) ++ 0x22 :: rest) = some (s, rest) := by
  rw [scanString, pieces_quote ascii (Stable.lt hs), Option.map_some, join_written ascii hs]

theorem hexDigit_lt {n : Nat} (h : n < 16) : hexDigit n < 128 := by
  unfold hexDigit
  split <;> omega

theorem unicodeEscape_ascii {n : Nat} (h : n < 0x10000) : ∀ x ∈ unicodeEscape n, x < 128 := by
  intro x hx
  have h₁ := hexDigit_lt (n := n / 4096) (by omega)
  have h₂ := hexDigit_lt (n := n / 256 % 16) (by omega)
  have h₃ := hexDigit_lt (n := n / 16 % 16) (by omega)
  have h₄ := hexDigit_lt (n := n % 16) (by omega)
  simp only [unicodeEscape, List.mem_cons, List.not_mem_nil, or_false] at hx
  omega

/-- `ensure_ascii` -/
theorem quote_ascii {s : PyStr} (hs : ∀ c ∈ s, c < 0x110000) : ∀ x ∈ quote true s, x < 128 := by
  have hescape {c : Nat} (hc : c < 0x110000) : ∀ x ∈ escape true c, x < 128 := by
    intro x hx
    unfold escape at hx
    split at hx
    · rename_i e he
      obtain ⟨p, hp, rfl⟩ := Option.map_eq_some_iff.mp he
      have hall : ∀ p ∈ shortEscapes, p.2 < 128 := by decide
      have := hall p (List.mem_of_find?_eq_some hp)
      simp only [List.mem_cons, List.not_mem_nil, or_false] at hx
      omega
    · split at hx
      · rename_i hplain
        rw [List.mem_singleton] at hx
        rcases hplain.2 with hle | hfalse
        · omega
        · cases hfalse
      · split at hx
        · rename_i hbmp
          exact unicodeEscape_ascii hbmp x hx
        · rcases List.mem_append.mp hx with hx | hx
          · exact unicodeEscape_ascii (by unfold high; omega) x hx
          · exact unicodeEscape_ascii (by unfold low; omega) x hx
  intro x hx
  rw [quote, List.mem_append, List.mem_append, List.mem_flatMap] at hx
  rcases hx with (hx | ⟨c, hc, hx⟩) | hx
  · rw [List.mem_singleton] at hx
    omega
  · exact hescape (hs c hc) x hx
  · rw [List.mem_singleton] at hx
    omega

theorem unicodeEscape_printable (n : Nat) : ∀ x ∈ unicodeEscape n, 0x20 ≤ x := by
  have hdigit (m : Nat) : 0x20 ≤ hexDigit m := by
    unfold hexDigit
    split <;> omega
  simp only [unicodeEscape, List.forall_mem_cons, List.not_mem_nil, false_implies, implies_true, and_true]
  exact ⟨by decide, by decide, hdigit _, hdigit _, hdigit _, hdigit _⟩

theorem escape_printable (ascii : Bool) (c : Nat) : ∀ x ∈ escape ascii c, 0x20 ≤ x := by
  intro x hx
  unfold escape at hx
  split at hx
  · rename_i e he
    obtain ⟨p, hp, rfl⟩ := Option.map_eq_some_iff.mp he
    have hall : ∀ p ∈ shortEscapes, 0x20 ≤ p.2 := by decide
    have := hall p (List.mem_of_find?_eq_some hp)
    simp only [List.mem_cons, List.not_mem_nil, or_false] at hx
    omega
  · split at hx
    · rename_i hplain
      rw [List.mem_singleton.mp hx]
      exact hplain.1
    · split at hx
      · exact unicodeEscape_printable c x hx
      · rcases List.mem_append.mp hx with hx | hx
        · exact unicodeEscape_printable _ x hx
        · exact unicodeEscape_printable _ x hx

theorem quote_printable (ascii : Bool) (s : PyStr) : ∀ x ∈ quote ascii s, 0x20 ≤ x := by
  intro x hx
  rw [quote, List.mem_append, List.mem_append, List.mem_flatMap] at hx
  rcases hx with (hx | ⟨c, -, hx⟩) | hx
  · rw [List.mem_singleton.mp hx]
    decide
  · exact escape_printable ascii c x hx
  · rw [List.mem_singleton.mp hx]
    decide

theorem Stable.of_ascii {s : PyStr} (h : ∀ c ∈ s, c < 128) : Stable s = true := by
  induction s with
  | nil => rfl
  | cons c s ih =>
    have hc := h c List.mem_cons_self
    have hhigh : isHigh c = false := by
      rw [Bool.eq_false_iff]
      intro hhigh
      rw [isHigh, Bool.and_eq_true, decide_eq_true_iff] at hhigh
      omega
    have hlt : c < 0x110000 := by omega
    rw [Stable, ih fun x hx => h x (List.mem_cons_of_mem c hx), hhigh]
    simp [hlt]

def isDigit (c : Nat) : Bool := 0x30 ≤ c && c ≤ 0x39

def natOf (ds : PyStr) : Nat := ds.foldl (fun n d => 10 * n + (d - 0x30)) 0

/-- `0|[1-9][0-9]*` at the head of the text, and what follows it. -/
def integerPart (s : PyStr) : PyStr × PyStr :=
  if s.head? = some 0x30 then ([0x30], s.drop 1) else (s.takeWhile isDigit, s.dropWhile isDigit)

/-- `(\.[0-9]+)?`: the digits, none where there is no fraction. -/
def fraction : PyStr → PyStr × PyStr
  | [] => ([], [])
  | c :: s =>
    if c = 0x2E ∧ s.takeWhile isDigit ≠ [] then (s.takeWhile isDigit, s.dropWhile isDigit)
    else ([], c :: s)

/-- `([eE][-+]?[0-9]+)?` -/
def exponent : PyStr → Option Int × PyStr
  | [] => (none, [])
  | c :: s =>
    let signed := s.head? = some 0x2D ∨ s.head? = some 0x2B
    let t := if signed then s.drop 1 else s
    let n := natOf (t.takeWhile isDigit)
    if (c = 0x65 ∨ c = 0x45) ∧ t.takeWhile isDigit ≠ [] then
      (some (if s.head? = some 0x2D then -n else n), t.dropWhile isDigit)
    else (none, c :: s)

def decimal (m e : Int) : ℚ :=
  if 0 ≤ e then mkRat (m * Nat.pow 10 e.toNat) 1 else mkRat m (Nat.pow 10 (-e).toNat)

def number (s : PyStr) : Option (PyVal × PyStr) :=
  let negative := s.head? = some 0x2D
  let (int, r) := integerPart (if negative then s.drop 1 else s)
  if int = [] then none
  else
    let (frac, r₁) := fraction r
    let (exp, r₂) := exponent r₁
    let sign : Int := if negative then -1 else 1
    if frac = [] ∧ exp = none then some (.int (sign * natOf int), r)
    else
      some (.float (.finite (decimal (sign * natOf (int ++ frac)) (exp.getD 0 - frac.length))), r₂)

def literals : List (PyStr × PyVal) :=
  [(str "null", .pyNone), (str "true", .bool true), (str "false", .bool false),
    (str "NaN", .float .nan), (str "Infinity", .float (.inf false)),
    (str "-Infinity", .float (.inf true))]

/-- One entry of a dict's text. -/
def entry (ascii : Bool) (k t : PyStr) : PyStr := quote ascii k ++ str ": " ++ t

mutual

/-- `json.dumps`; `repr` is `float.__repr__`. -/
def dumps (repr : ℚ → PyStr) (ascii : Bool) : PyVal → Option PyStr
  | .pyNone => some (str "null")
  | .bool b => some (if b then str "true" else str "false")
  | .int i => some (str (toString i))
  | .float (.finite q) => some (repr q)
  | .float (.inf negative) => some (if negative then str "-Infinity" else str "Infinity")
  | .float .nan => some (str "NaN")
  | .str s => some (quote ascii s)
  | .list vs =>
    (dumpsItems repr ascii vs).map fun ts => [0x5B] ++ List.intercalate (str ", ") ts ++ [0x5D]
  | .dict es =>
    (dumpsEntries repr ascii es).map fun ts => [0x7B] ++ List.intercalate (str ", ") ts ++ [0x7D]
  | .object _ => none

def dumpsItems (repr : ℚ → PyStr) (ascii : Bool) : List PyVal → Option (List PyStr)
  | [] => some []
  | v :: vs => do
    let t ← dumps repr ascii v
    let ts ← dumpsItems repr ascii vs
    return t :: ts

def dumpsEntries (repr : ℚ → PyStr) (ascii : Bool) : List (PyStr × PyVal) → Option (List PyStr)
  | [] => some []
  | (k, v) :: es => do
    let t ← dumps repr ascii v
    let ts ← dumpsEntries repr ascii es
    return entry ascii k t :: ts

end

def isWs (c : Nat) : Bool := c == 0x20 || c == 0x09 || c == 0x0A || c == 0x0D

def skipWs (s : PyStr) : PyStr := s.dropWhile isWs

def expect (c : Nat) : PyStr → Option PyStr
  | [] => none
  | x :: s => if x = c then some s else none

def literal (s : PyStr) : Option (PyVal × PyStr) :=
  (literals.find? fun l => decide (l.1 <+: s)).map fun l => (l.2, s.drop l.1.length)

mutual

/-- The value at the head of the text; the number bounds the depth of the recursion. -/
def value : Nat → PyStr → Option (PyVal × PyStr)
  | 0, _ => none
  | _, [] => none
  | n + 1, c :: s =>
    if c = 0x22 then (scanString s).map fun p => (.str p.1, p.2)
    else if c = 0x7B then
      match expect 0x7D (skipWs s) with
      | some r => some (.dict [], r)
      | none => (members n [] (skipWs s)).map fun p => (.dict p.1, p.2)
    else if c = 0x5B then
      match expect 0x5D (skipWs s) with
      | some r => some (.list [], r)
      | none => (elements n (skipWs s)).map fun p => (.list p.1, p.2)
    else (literal (c :: s)).orElse fun _ => number (c :: s)

def members : Nat → PyDict → PyStr → Option (PyDict × PyStr)
  | 0, _, _ => none
  | n + 1, d, s => do
    let s ← expect 0x22 s
    let (k, s) ← scanString s
    let s ← expect 0x3A (skipWs s)
    let (v, s) ← value n (skipWs s)
    match expect 0x2C (skipWs s) with
    | some r => members n (PyDict.set d k v) (skipWs r)
    | none => (expect 0x7D (skipWs s)).map fun r => (PyDict.set d k v, r)

def elements : Nat → PyStr → Option (List PyVal × PyStr)
  | 0, _ => none
  | n + 1, s => do
    let (v, s) ← value n s
    match expect 0x2C (skipWs s) with
    | some r => (elements n (skipWs r)).map fun p => (v :: p.1, p.2)
    | none => (expect 0x5D (skipWs s)).map fun r => ([v], r)

end

def loads (s : PyStr) : Option PyVal := do
  let (v, rest) ← value (s.length + 1) (skipWs s)
  if skipWs rest = [] then some v else none

end Json

end VirtualPerson
