import VirtualPerson.Python.Str

/-!
# Base64

`base64.b64encode` and `base64.b64decode`, which skips what is no digit and stops at a
complete padding.
-/

namespace VirtualPerson

set_option autoImplicit false

namespace Base64

def alphabet : PyStr := str "ABCDEFGHIJKLMNOPQRSTUVWXYZabcdefghijklmnopqrstuvwxyz0123456789+/"

def pad : Nat := 0x3D

def digit (n : Nat) : Nat := alphabet.getD n pad

def undigit (c : Nat) : Option Nat := alphabet.idxOf? c

def encode : List UInt8 → PyStr
  | [] => []
  | [a] => [digit (a.toNat / 4), digit (a.toNat % 4 * 16), pad, pad]
  | [a, b] =>
    [digit (a.toNat / 4), digit (a.toNat % 4 * 16 + b.toNat / 16), digit (b.toNat % 16 * 4), pad]
  | a :: b :: c :: bs =>
    digit (a.toNat / 4) :: digit (a.toNat % 4 * 16 + b.toNat / 16) ::
      digit (b.toNat % 16 * 4 + c.toNat / 64) :: digit (c.toNat % 64) :: encode bs

/-- The rest of the text, after `quad` digits of a group that leave the bits `left`, and `pads`
signs of padding since. -/
def decodeFrom (quad left pads : Nat) : PyStr → Option (List UInt8)
  | [] => if quad = 0 then some [] else none
  | c :: s =>
    if c = pad then
      if 2 ≤ quad ∧ 4 ≤ quad + (pads + 1) then some []
      else decodeFrom quad left (if 2 ≤ quad then pads + 1 else pads) s
    else
      match undigit c with
      | none => decodeFrom quad left pads s
      | some d =>
        match quad with
        | 0 => decodeFrom 1 d 0 s
        | 1 => (decodeFrom 2 (d % 16) 0 s).map (UInt8.ofNat (left * 4 + d / 16) :: ·)
        | 2 => (decodeFrom 3 (d % 4) 0 s).map (UInt8.ofNat (left * 16 + d / 4) :: ·)
        | _ => (decodeFrom 0 0 0 s).map (UInt8.ofNat (left * 64 + d) :: ·)

/-- `none` where it raises. -/
def decode (s : PyStr) : Option (List UInt8) :=
  if s.all (· < 128) then decodeFrom 0 0 0 s else none

theorem undigit_digit : ∀ n < 64, undigit (digit n) = some n ∧ digit n ≠ pad ∧ digit n < 128 := by
  decide

section Digits

variable {n left pads : Nat} (hn : n < 64) (s : PyStr)
include hn

theorem decodeFrom_zero : decodeFrom 0 left pads (digit n :: s) = decodeFrom 1 n 0 s := by
  obtain ⟨hdigit, hpad, -⟩ := undigit_digit n hn
  simp only [decodeFrom, if_neg hpad, hdigit]

theorem decodeFrom_one : decodeFrom 1 left pads (digit n :: s) =
    (decodeFrom 2 (n % 16) 0 s).map (UInt8.ofNat (left * 4 + n / 16) :: ·) := by
  obtain ⟨hdigit, hpad, -⟩ := undigit_digit n hn
  simp only [decodeFrom, if_neg hpad, hdigit]

theorem decodeFrom_two : decodeFrom 2 left pads (digit n :: s) =
    (decodeFrom 3 (n % 4) 0 s).map (UInt8.ofNat (left * 16 + n / 4) :: ·) := by
  obtain ⟨hdigit, hpad, -⟩ := undigit_digit n hn
  simp only [decodeFrom, if_neg hpad, hdigit]

theorem decodeFrom_three : decodeFrom 3 left pads (digit n :: s) =
    (decodeFrom 0 0 0 s).map (UInt8.ofNat (left * 64 + n) :: ·) := by
  obtain ⟨hdigit, hpad, -⟩ := undigit_digit n hn
  simp only [decodeFrom, if_neg hpad, hdigit]

end Digits

theorem ofNat_eq {n : Nat} {a : UInt8} (h : n = a.toNat) : UInt8.ofNat n = a := by
  rw [h, UInt8.ofNat_toNat]

theorem decodeFrom_encode (bs : List UInt8) : decodeFrom 0 0 0 (encode bs) = some bs := by
  induction bs using encode.induct with
  | case1 => rfl
  | case2 a =>
    have ha := a.toNat_lt
    have hbyte : UInt8.ofNat (a.toNat / 4 * 4 + a.toNat % 4 * 16 / 16) = a := ofNat_eq (by omega)
    have hpad : decodeFrom 2 (a.toNat % 4 * 16 % 16) 0 [pad, pad] = some [] := rfl
    rw [encode, decodeFrom_zero (by omega), decodeFrom_one (by omega), hpad, hbyte, Option.map_some]
  | case3 a b =>
    have ha := a.toNat_lt
    have hb := b.toNat_lt
    have hfirst : UInt8.ofNat (a.toNat / 4 * 4 + (a.toNat % 4 * 16 + b.toNat / 16) / 16) = a :=
      ofNat_eq (by omega)
    have hsecond : UInt8.ofNat
        ((a.toNat % 4 * 16 + b.toNat / 16) % 16 * 16 + b.toNat % 16 * 4 / 4) = b :=
      ofNat_eq (by omega)
    have hpad : decodeFrom 3 (b.toNat % 16 * 4 % 4) 0 [pad] = some [] := rfl
    rw [encode, decodeFrom_zero (by omega), decodeFrom_one (by omega), decodeFrom_two (by omega), hpad,
      hfirst, hsecond, Option.map_some, Option.map_some]
  | case4 a b c bs ih =>
    have ha := a.toNat_lt
    have hb := b.toNat_lt
    have hc := c.toNat_lt
    have hfirst : UInt8.ofNat (a.toNat / 4 * 4 + (a.toNat % 4 * 16 + b.toNat / 16) / 16) = a :=
      ofNat_eq (by omega)
    have hsecond : UInt8.ofNat ((a.toNat % 4 * 16 + b.toNat / 16) % 16 * 16 +
        (b.toNat % 16 * 4 + c.toNat / 64) / 4) = b := ofNat_eq (by omega)
    have hthird : UInt8.ofNat ((b.toNat % 16 * 4 + c.toNat / 64) % 4 * 64 + c.toNat % 64) = c :=
      ofNat_eq (by omega)
    rw [encode, decodeFrom_zero (by omega), decodeFrom_one (by omega), decodeFrom_two (by omega),
      decodeFrom_three (by omega), ih, hfirst, hsecond, hthird, Option.map_some, Option.map_some,
      Option.map_some]

theorem encode_ascii (bs : List UInt8) : ∀ c ∈ encode bs, c < 128 := by
  have hpad : pad < 128 := by decide
  have hdigit {n : Nat} (hn : n < 64) : digit n < 128 := (undigit_digit n hn).2.2
  induction bs using encode.induct with
  | case1 => simp [encode]
  | case2 a =>
    have ha := a.toNat_lt
    simp only [encode, List.forall_mem_cons, List.not_mem_nil, false_implies, implies_true, and_true]
    exact ⟨hdigit (by omega), hdigit (by omega), hpad, hpad⟩
  | case3 a b =>
    have ha := a.toNat_lt
    have hb := b.toNat_lt
    simp only [encode, List.forall_mem_cons, List.not_mem_nil, false_implies, implies_true, and_true]
    exact ⟨hdigit (by omega), hdigit (by omega), hdigit (by omega), hpad⟩
  | case4 a b c bs ih =>
    have ha := a.toNat_lt
    have hb := b.toNat_lt
    have hc := c.toNat_lt
    simp only [encode, List.forall_mem_cons]
    exact ⟨hdigit (by omega), hdigit (by omega), hdigit (by omega), hdigit (by omega), ih⟩

theorem decode_encode (bs : List UInt8) : decode (encode bs) = some bs := by
  have hall : (encode bs).all (· < 128) = true := by
    rw [List.all_eq_true]
    intro c hc
    exact decide_eq_true (encode_ascii bs c hc)
  rw [decode, if_pos hall, decodeFrom_encode]

end Base64

end VirtualPerson
