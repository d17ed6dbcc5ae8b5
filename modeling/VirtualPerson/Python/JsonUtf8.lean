import VirtualPerson.Python.JsonLayout

/-!
# JSON texts in UTF-8

A text written without `ensure_ascii` has a character of every string in it, so where UTF-8 can encode
it, reading it back gives the value it was written for.
-/

namespace VirtualPerson

set_option autoImplicit false

namespace Json

mutual

/-- A value that a text can spell: no object, no finite float, distinct keys -/
def Tidy : PyVal → Bool
  | .float (.finite _) => false
  | .object _ => false
  | .list vs => tidyItems vs
  | .dict es => (es.map Prod.fst).Nodup && tidyEntries es
  | _ => true

def tidyItems : List PyVal → Bool
  | [] => true
  | v :: vs => Tidy v && tidyItems vs

def tidyEntries : List (PyStr × PyVal) → Bool
  | [] => true
  | (_, v) :: es => Tidy v && tidyEntries es

end

variable {repr : ℚ → PyStr} {ascii : Bool} {indent : Nat}

mutual

theorem Tidy.written (repr : ℚ → PyStr) (ascii : Bool) (indent level : Nat) (v : PyVal) (h : Tidy v = true) :
    ∃ t, dumpsIndent repr ascii indent level v = some t := by
  cases v with
  | float x =>
    cases x with
    | finite q => simp [Tidy] at h
    | _ => exact ⟨_, rfl⟩
  | object id => simp [Tidy] at h
  | list vs =>
    cases vs with
    | nil => exact ⟨_, rfl⟩
    | cons v vs =>
      obtain ⟨ts, hts⟩ := tidyItems_written repr ascii indent (level + 1) (v :: vs) h
      exact ⟨_, by rw [dumpsIndent, hts]; rfl⟩
  | dict es =>
    cases es with
    | nil => exact ⟨_, rfl⟩
    | cons e es =>
      rw [Tidy, Bool.and_eq_true] at h
      obtain ⟨ts, hts⟩ := tidyEntries_written repr ascii indent (level + 1) (e :: es) h.2
      exact ⟨_, by rw [dumpsIndent, hts]; rfl⟩
  | _ => exact ⟨_, rfl⟩

theorem tidyItems_written (repr : ℚ → PyStr) (ascii : Bool) (indent level : Nat) (vs : List PyVal)
    (h : tidyItems vs = true) : ∃ ts, dumpsIndentItems repr ascii indent level vs = some ts := by
  cases vs with
  | nil => exact ⟨[], rfl⟩
  | cons v vs =>
    rw [tidyItems, Bool.and_eq_true] at h
    obtain ⟨t, ht⟩ := Tidy.written repr ascii indent level v h.1
    obtain ⟨ts, hts⟩ := tidyItems_written repr ascii indent level vs h.2
    exact ⟨t :: ts, by rw [dumpsIndentItems, ht, hts]; rfl⟩

theorem tidyEntries_written (repr : ℚ → PyStr) (ascii : Bool) (indent level : Nat)
    (es : List (PyStr × PyVal)) (h : tidyEntries es = true) :
    ∃ ts, dumpsIndentEntries repr ascii indent level es = some ts := by
  cases es with
  | nil => exact ⟨[], rfl⟩
  | cons e es =>
    obtain ⟨k, v⟩ := e
    rw [tidyEntries, Bool.and_eq_true] at h
    obtain ⟨t, ht⟩ := Tidy.written repr ascii indent level v h.1
    obtain ⟨ts, hts⟩ := tidyEntries_written repr ascii indent level es h.2
    exact ⟨entry ascii k t :: ts, by rw [dumpsIndentEntries, ht, hts]; rfl⟩

end

/-- A character that UTF-8 encodes -/
def Scalar (c : Nat) : Prop := c < 0x110000 ∧ isHigh c = false ∧ isLow c = false

/-- What UTF-8 has a byte sequence for -/
def encodable (t : PyStr) : Bool := t.all fun c => c < 0x110000 && !isHigh c && !isLow c

theorem encodable_iff {t : PyStr} : encodable t = true ↔ ∀ c ∈ t, Scalar c := by
  simp only [encodable, List.all_eq_true, Scalar, Bool.and_eq_true, decide_eq_true_eq, Bool.not_eq_true',
    and_assoc]

theorem scalar_of_lt {c : Nat} (h : c < 0x80) : Scalar c := by
  refine ⟨by omega, ?_, ?_⟩
  · rw [isHigh, Bool.and_eq_false_iff, decide_eq_false_iff_not]
    omega
  · rw [isLow, Bool.and_eq_false_iff, decide_eq_false_iff_not]
    omega

theorem Stable.of_scalar {s : PyStr} (h : ∀ c ∈ s, Scalar c) : Stable s = true := by
  induction s with
  | nil => rfl
  | cons c s ih =>
    obtain ⟨hlt, hhigh, -⟩ := h c List.mem_cons_self
    rw [Stable, ih fun x hx => h x (List.mem_cons_of_mem c hx), hhigh]
    simp [hlt]

/-- Without `ensure_ascii` a character that UTF-8 lacks is written as it is. -/
theorem escape_of_not_scalar {c : Nat} (h : ¬ Scalar c) : escape false c = [c] := by
  have hge : 0x80 ≤ c := Nat.le_of_not_lt fun hlt => h (scalar_of_lt hlt)
  have hshort : Assoc.get? shortEscapes c = none := by
    rw [Assoc.get?, Option.map_eq_none_iff, List.find?_eq_none]
    have hall : ∀ p ∈ shortEscapes, p.1 < 0x80 := by decide
    intro p hp heq
    have hlt := hall p hp
    have hkey : p.1 = c := by simpa using heq
    omega
  have hplain : 0x20 ≤ c ∧ (c ≤ 0x7E ∨ false = false) := ⟨by omega, .inr rfl⟩
  rw [escape, hshort]
  exact if_pos hplain

theorem stable_of_quote {s : PyStr} (h : ∀ c ∈ quote false s, Scalar c) : Stable s = true := by
  apply Stable.of_scalar
  intro c hc
  by_contra hbad
  have hmem : c ∈ quote false s := by
    rw [quote, List.mem_append, List.mem_append, List.mem_flatMap]
    exact .inl (.inr ⟨c, hc, by rw [escape_of_not_scalar hbad]; exact List.mem_singleton_self c⟩)
  exact hbad (h c hmem)

theorem mem_intercalate {sep t : PyStr} {ts : List PyStr} (ht : t ∈ ts) {c : Nat} (hc : c ∈ t) :
    c ∈ List.intercalate sep ts := by
  induction ts with
  | nil => cases ht
  | cons t' ts ih =>
    cases ts with
    | nil =>
      rw [List.intercalate_singleton, ← List.mem_singleton.mp ht]
      exact hc
    | cons t'' ts =>
      rw [List.intercalate_cons_cons, List.mem_append, List.mem_append]
      rcases List.mem_cons.mp ht with rfl | ht
      · exact .inl (.inl hc)
      · exact .inr (ih ht)

theorem mem_enclosed {a b level c : Nat} {t : PyStr} {ts : List PyStr} (ht : t ∈ ts) (hc : c ∈ t) :
    c ∈ [a] ++ lines indent level ts ++ [b] := by
  rw [lines]
  simp only [List.mem_append]
  exact .inl (.inr (.inl (.inr (mem_intercalate ht hc))))

mutual

theorem plain_of_scalar (level : Nat) (v : PyVal) {t : PyStr} (hv : Tidy v = true)
    (h : dumpsIndent repr false indent level v = some t) (ht : ∀ c ∈ t, Scalar c) : Plain v = true := by
  cases v with
  | float x =>
    cases x with
    | finite q => simp [Tidy] at hv
    | _ => rfl
  | object id => simp [Tidy] at hv
  | str s =>
    cases h
    exact stable_of_quote ht
  | list vs =>
    cases vs with
    | nil => rfl
    | cons v vs =>
      rw [dumpsIndent] at h
      obtain ⟨ts, hts, rfl⟩ := Option.map_eq_some_iff.mp h
      exact plainItems_of_scalar (level + 1) (v :: vs) hv hts fun t hmem c hc => ht c (mem_enclosed hmem hc)
  | dict es =>
    cases es with
    | nil => rfl
    | cons e es =>
      rw [Tidy, Bool.and_eq_true] at hv
      rw [dumpsIndent] at h
      obtain ⟨ts, hts, rfl⟩ := Option.map_eq_some_iff.mp h
      rw [Plain, Bool.and_eq_true]
      exact ⟨hv.1, plainEntries_of_scalar (level + 1) (e :: es) hv.2 hts
        fun t hmem c hc => ht c (mem_enclosed hmem hc)⟩
  | _ => rfl

theorem plainItems_of_scalar (level : Nat) (vs : List PyVal) {ts : List PyStr} (hv : tidyItems vs = true)
    (h : dumpsIndentItems repr false indent level vs = some ts) (ht : ∀ t ∈ ts, ∀ c ∈ t, Scalar c) :
    plainItems vs = true := by
  cases vs with
  | nil => rfl
  | cons v vs =>
    obtain ⟨t, ts', rfl, hfirst, hrest⟩ := dumpsIndentItems_cons h
    rw [tidyItems, Bool.and_eq_true] at hv
    rw [plainItems, Bool.and_eq_true]
    exact ⟨plain_of_scalar level v hv.1 hfirst (ht t List.mem_cons_self),
      plainItems_of_scalar level vs hv.2 hrest fun t' hmem => ht t' (List.mem_cons_of_mem t hmem)⟩

theorem plainEntries_of_scalar (level : Nat) (es : List (PyStr × PyVal)) {ts : List PyStr}
    (hv : tidyEntries es = true) (h : dumpsIndentEntries repr false indent level es = some ts)
    (ht : ∀ t ∈ ts, ∀ c ∈ t, Scalar c) : plainEntries es = true := by
  cases es with
  | nil => rfl
  | cons e es =>
    obtain ⟨k, v⟩ := e
    obtain ⟨t, ts', rfl, hfirst, hrest⟩ := dumpsIndentEntries_cons h
    rw [tidyEntries, Bool.and_eq_true] at hv
    have hentry := ht (entry false k t) List.mem_cons_self
    have hkey : Stable k = true := by
      apply stable_of_quote
      intro c hc
      exact hentry c (by rw [entry, List.append_assoc]; exact List.mem_append_left _ hc)
    have hval : Plain v = true := by
      apply plain_of_scalar level v hv.1 hfirst
      intro c hc
      exact hentry c (by rw [entry]; exact List.mem_append_right _ hc)
    rw [plainEntries, hkey, hval]
    exact plainEntries_of_scalar level es hv.2 hrest fun t' hmem => ht t' (List.mem_cons_of_mem _ hmem)

end

/-- `json.loads` of a file to which `json.dumps(..., ensure_ascii=False, indent=indent)` went. -/
theorem loads_encodable {v : PyVal} {t : PyStr} (hv : Tidy v = true)
    (h : dumpsIndent repr false indent 0 v = some t) (ht : encodable t = true) : loads t = some v :=
  loads_dumpsIndent (.of_plain repr v (plain_of_scalar 0 v hv h (encodable_iff.mp ht))) h

end Json

end VirtualPerson
