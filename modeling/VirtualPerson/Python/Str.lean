import Mathlib.Data.List.DropRight
import Mathlib.Data.List.Infix

/-!
# Python strings

A `str` is a sequence of code points, lone surrogates included, so it is a list
of numbers here. Only the operations the program calls are defined.
-/

namespace VirtualPerson

set_option autoImplicit false

abbrev PyStr := List Nat

def str (s : String) : PyStr := s.toList.map Char.toNat

/-- `str.isspace` on one code point; `str.strip` and the class `\s` use the same set. -/
def isSpace (c : Nat) : Bool :=
  (0x09 ≤ c && c ≤ 0x0D) || (0x1C ≤ c && c ≤ 0x20) || c == 0x85 || c == 0xA0 || c == 0x1680 ||
    (0x2000 ≤ c && c ≤ 0x200A) || c == 0x2028 || c == 0x2029 || c == 0x202F || c == 0x205F ||
    c == 0x3000

namespace PyStr

def lstrip (s : PyStr) : PyStr := s.dropWhile isSpace

def strip (s : PyStr) : PyStr := (lstrip s).rdropWhile isSpace

/-- `re.sub(r"\s+", " ", s)`; `prev` tells whether a space was just written. -/
def collapse (prev : Bool) : PyStr → PyStr
  | [] => []
  | c :: s =>
    if isSpace c then
      if prev then collapse true s else 0x20 :: collapse true s
    else c :: collapse false s

/-- Whether the code point stands in the text, as in a regex class. -/
def oneOf (s : String) (c : Nat) : Bool := (str s).elem c

/-- `needle in s` -/
def contains (s needle : PyStr) : Bool := decide (needle <:+: s)

/-- `s or default` -/
def orElse (s default : PyStr) : PyStr := if s = [] then default else s

/-- `a <= b`, by code points -/
def le : PyStr → PyStr → Bool
  | [], _ => true
  | _ :: _, [] => false
  | a :: s, b :: t => a < b || (a == b && le s t)

/-- The text with all whitespace deleted. -/
def solid (s : PyStr) : PyStr := s.filter fun c => !isSpace c

@[simp] theorem solid_nil : solid [] = [] := rfl

@[simp] theorem solid_append (s t : PyStr) : solid (s ++ t) = solid s ++ solid t := by
  simp [solid]

theorem solid_eq_nil_iff {s : PyStr} : solid s = [] ↔ ∀ c ∈ s, isSpace c = true := by
  simp [solid, List.filter_eq_nil_iff]

theorem solid_lstrip (s : PyStr) : solid (lstrip s) = solid s := by
  unfold lstrip
  conv_rhs => rw [← List.takeWhile_append_dropWhile (p := isSpace) (l := s), solid_append]
  have hspace : solid (s.takeWhile isSpace) = [] :=
    solid_eq_nil_iff.mpr fun c hc => List.mem_takeWhile_imp hc
  rw [hspace, List.nil_append]

theorem solid_rdropWhile (s : PyStr) : solid (s.rdropWhile isSpace) = solid s := by
  have h := solid_lstrip s.reverse
  unfold solid lstrip at h
  unfold solid List.rdropWhile
  rw [List.filter_reverse, h, List.filter_reverse, List.reverse_reverse]

@[simp] theorem solid_strip (s : PyStr) : solid (strip s) = solid s := by
  rw [strip, solid_rdropWhile, solid_lstrip]

theorem strip_eq_nil_iff {s : PyStr} : strip s = [] ↔ solid s = [] := by
  constructor
  · intro h
    rw [← solid_strip, h, solid_nil]
  · intro h
    have hl : lstrip s = [] := by
      rw [lstrip, List.dropWhile_eq_nil_iff]
      exact solid_eq_nil_iff.mp h
    simp [strip, hl]

theorem lstrip_append {s t : PyStr} (h : solid s = []) : lstrip (s ++ t) = lstrip t := by
  have hs : s.dropWhile isSpace = [] := List.dropWhile_eq_nil_iff.mpr (solid_eq_nil_iff.mp h)
  simp [lstrip, List.dropWhile_append, hs]

theorem strip_append {s t : PyStr} (h : solid s = []) : strip (s ++ t) = strip t := by
  rw [strip, strip, lstrip_append h]

theorem lstrip_strip (s : PyStr) : lstrip (strip s) = strip s := by
  have hfront : strip s <+: lstrip s := List.rdropWhile_prefix isSpace (lstrip s)
  rw [lstrip, List.dropWhile_eq_self_iff]
  intro hpos
  have hlen : 0 < (lstrip s).length := Nat.lt_of_lt_of_le hpos hfront.length_le
  have hself : (lstrip s).dropWhile isSpace = lstrip s := List.dropWhile_idempotent isSpace s
  have hhead := List.dropWhile_eq_self_iff.mp hself hlen
  rwa [hfront.getElem hpos]

@[simp] theorem strip_strip (s : PyStr) : strip (strip s) = strip s := by
  have h : strip (strip s) = (strip s).rdropWhile isSpace := by rw [strip, lstrip_strip]
  rw [h]
  exact List.rdropWhile_idempotent isSpace (lstrip s)

theorem strip_eq_self {s : PyStr} (hhead : ∀ c, s.head? = some c → isSpace c = false)
    (hlast : ∀ c, s.getLast? = some c → isSpace c = false) : strip s = s := by
  have hl : lstrip s = s := by
    cases s with
    | nil => rfl
    | cons c s => simp [lstrip, hhead c rfl]
  rw [strip, hl]
  rcases List.eq_nil_or_concat s with rfl | ⟨s, c, rfl⟩
  · rfl
  · rw [List.concat_eq_append] at hlast ⊢
    have hc : isSpace c = false := hlast c List.getLast?_concat
    exact List.rdropWhile_concat_neg isSpace s c (by simp [hc])

theorem le_refl (s : PyStr) : le s s = true := by
  induction s with
  | nil => rfl
  | cons a s ih => simp [le, ih]

theorem le_total (s t : PyStr) : (le s t || le t s) = true := by
  induction s generalizing t with
  | nil => rfl
  | cons a s ih =>
    cases t with
    | nil => rfl
    | cons b t =>
      have hrest := ih t
      simp only [le, Bool.or_eq_true, Bool.and_eq_true, decide_eq_true_eq, beq_iff_eq] at hrest ⊢
      rcases Nat.lt_trichotomy a b with hab | hab | hab
      · exact Or.inl (Or.inl hab)
      · exact hrest.imp (fun h => Or.inr ⟨hab, h⟩) fun h => Or.inr ⟨hab.symm, h⟩
      · exact Or.inr (Or.inl hab)

theorem le_trans {s t u : PyStr} (hst : le s t = true) (htu : le t u = true) : le s u = true := by
  induction s generalizing t u with
  | nil => rfl
  | cons a s ih =>
    cases t with
    | nil => cases hst
    | cons b t =>
      cases u with
      | nil => cases htu
      | cons c u =>
        have hrest := ih (t := t) (u := u)
        simp only [le, Bool.or_eq_true, Bool.and_eq_true, decide_eq_true_eq, beq_iff_eq] at hst htu ⊢
        rcases hst with hab | ⟨hab, hst⟩
        · omega
        · rcases htu with hbc | ⟨hbc, htu⟩
          · omega
          · exact Or.inr ⟨hab.trans hbc, hrest hst htu⟩

end PyStr

/-- `str.lower`. What it does outside ASCII is left open. -/
structure CaseMap where
  lower : PyStr → PyStr
  ascii : ∀ s : PyStr, (∀ c ∈ s, c < 128) →
    lower s = s.map fun c => if 65 ≤ c && c ≤ 90 then c + 32 else c

def CaseMap.asciiOnly : CaseMap where
  lower s := s.map fun c => if 65 ≤ c && c ≤ 90 then c + 32 else c
  ascii _ _ := rfl

end VirtualPerson
