import VirtualPerson.Python.Words

/-!
# Regular expressions

`re.sub` and `re.match` for patterns that are sequences of repeated character classes,
assertions and at most one group. Repetition is greedy and is taken back step by step.
-/

namespace VirtualPerson

set_option autoImplicit false

inductive Atom where
  /-- `[...]{lo,hi}`, with no bound above for `none` -/
  | rep (p : Nat → Bool) (lo : Nat) (hi : Option Nat)
  /-- `([...]{lo,hi})` -/
  | group (p : Nat → Bool) (lo : Nat) (hi : Option Nat)
  /-- `^` -/
  | start
  /-- `$` -/
  | stop
  /-- `(?:^|[...])` -/
  | startOr (p : Nat → Bool)
  /-- `(?<![...])` -/
  | notBehind (p : Nat → Bool)
  /-- `(?![...])` -/
  | notAhead (p : Nat → Bool)
  /-- `(?=[...])` -/
  | ahead (p : Nat → Bool)

abbrev Regex := List Atom

/-- A match: its length, and what the group has matched. -/
structure Match where
  len : Nat
  group : PyStr

namespace Regex

/-- `[cs]` -/
def one (cs : String) : Atom := .rep (PyStr.oneOf cs) 1 (some 1)

/-- `[cs]+` -/
def many (cs : String) : Atom := .rep (PyStr.oneOf cs) 1 none

/-- The class `[^cs]` -/
def noneOf (cs : String) (c : Nat) : Bool := !PyStr.oneOf cs c

/-- How often a class can be repeated at the head of the text, the greediest choice first. -/
def counts (p : Nat → Bool) (lo : Nat) (hi : Option Nat) (s : PyStr) : List Nat :=
  let run := (s.takeWhile p).length
  let most := match hi with
    | none => run
    | some k => min k run
  ((List.range (most + 1)).filter (lo ≤ ·)).reverse

/-- The match at the head of the text `s`, which follows the code point `prev`. -/
def matchAt : Regex → (prev : Option Nat) → (s : PyStr) → Option Match
  | [], _, _ => some { len := 0, group := [] }
  | .rep p lo hi :: r, prev, s =>
    (counts p lo hi s).findSome? fun n =>
      (matchAt r ((s.take n).getLast?.or prev) (s.drop n)).map fun m => { m with len := n + m.len }
  | .group p lo hi :: r, prev, s =>
    (counts p lo hi s).findSome? fun n =>
      (matchAt r ((s.take n).getLast?.or prev) (s.drop n)).map fun m =>
        { len := n + m.len, group := s.take n }
  | .start :: r, prev, s => if prev = none then matchAt r prev s else none
  | .stop :: r, prev, s => if s = [] ∨ s = [0x0A] then matchAt r prev s else none
  | .startOr p :: r, prev, s =>
    (if prev = none then matchAt r prev s else none).or
      (if s.head?.any p then (matchAt r s.head? s.tail).map fun m => { m with len := 1 + m.len }
        else none)
  | .notBehind p :: r, prev, s => if prev.any p then none else matchAt r prev s
  | .notAhead p :: r, prev, s => if s.head?.any p then none else matchAt r prev s
  | .ahead p :: r, prev, s => if s.head?.any p then matchAt r prev s else none

/-- `re.sub(r, repl, s)`, the group in the hands of `repl`; `skip` code points are inside the last
match. No pattern of the program matches the empty text. -/
def sub (r : Regex) (repl : PyStr → PyStr) : (skip : Nat) → (prev : Option Nat) → PyStr → PyStr
  | _, _, [] => []
  | skip + 1, _, c :: s => sub r repl skip (some c) s
  | 0, prev, c :: s =>
    match matchAt r prev (c :: s) with
    | some ⟨n + 1, g⟩ => repl g ++ sub r repl n (some c) s
    | _ => c :: sub r repl 0 (some c) s

def replace (r : Regex) (repl : PyStr → PyStr) (s : PyStr) : PyStr := sub r repl 0 none s

/-- `re.match(r, s) is not None` -/
def isMatch (r : Regex) (s : PyStr) : Bool := (matchAt r none s).isSome

end Regex

/-- Every match of the atom holds a character of the class. -/
def Atom.Needs (p : Nat → Bool) : Atom → Prop
  | .rep q lo _ => 0 < lo ∧ ∀ c, q c = true → p c = true
  | .group q lo _ => 0 < lo ∧ ∀ c, q c = true → p c = true
  | _ => False

namespace Regex

def Needs (p : Nat → Bool) (r : Regex) : Prop := ∃ a ∈ r, a.Needs p

section Matches

variable {p q : Nat → Bool} {lo n : Nat} {hi : Option Nat} {r : Regex} {prev : Option Nat}
  {s : PyStr} {m : Match}

theorem mem_counts (h : n ∈ counts q lo hi s) : lo ≤ n ∧ n ≤ (s.takeWhile q).length := by
  simp only [counts, List.mem_reverse, List.mem_filter, List.mem_range, decide_eq_true_eq] at h
  obtain ⟨hlt, hlo⟩ := h
  refine ⟨hlo, ?_⟩
  cases hi with
  | none =>
    simp only at hlt
    omega
  | some k =>
    simp only at hlt
    omega

/-- What the repetition has matched is of the class. -/
theorem of_mem_take_counts (h : n ∈ counts q lo hi s) : ∀ c ∈ s.take n, q c = true := by
  intro c hc
  have hle := (mem_counts h).2
  have hpre : s.take n <+: s.takeWhile q := by
    apply List.prefix_of_prefix_length_le (List.take_prefix n s) (List.takeWhile_prefix q)
    simp only [List.length_take]
    omega
  exact List.mem_takeWhile_imp (hpre.subset hc)

/-- A repetition in front matches characters of its class, and the rest of the pattern goes on behind
them. -/
theorem exists_of_rep {k : Nat → Match → Match} (hk : ∀ n m, (k n m).len = n + m.len)
    (h : ((counts q lo hi s).findSome? fun n =>
      (matchAt r ((s.take n).getLast?.or prev) (s.drop n)).map (k n)) = some m) :
    ∃ n ∈ counts q lo hi s, ∃ m' prev', matchAt r prev' (s.drop n) = some m' ∧
      m.len = n + m'.len := by
  obtain ⟨n, hn, hm⟩ := List.exists_of_findSome?_eq_some h
  obtain ⟨m', hm', rfl⟩ := Option.map_eq_some_iff.mp hm
  exact ⟨n, hn, m', _, hm', hk n m'⟩

theorem exists_mem_take_add {n k : Nat} (h : ∃ c ∈ (s.drop n).take k, p c = true) :
    ∃ c ∈ s.take (n + k), p c = true := by
  obtain ⟨c, hc, hp⟩ := h
  rw [List.take_add]
  exact ⟨c, List.mem_append_right _ hc, hp⟩

theorem exists_of_counts (hlo : 0 < lo) (hq : ∀ c, q c = true → p c = true)
    (hn : n ∈ counts q lo hi s) (k : Nat) : ∃ c ∈ s.take (n + k), p c = true := by
  obtain ⟨hle, hrun⟩ := mem_counts hn
  have hlen := (List.takeWhile_prefix q (l := s)).length_le
  cases s with
  | nil =>
    simp only [List.length_nil] at hlen
    omega
  | cons c s =>
    have hmem : c ∈ (c :: s).take n := by
      cases n with
      | zero => omega
      | succ n => simp
    refine ⟨c, ?_, hq c (of_mem_take_counts hn c hmem)⟩
    rw [List.take_add]
    exact List.mem_append_left _ hmem

theorem exists_of_needs (hr : r.Needs p) (h : matchAt r prev s = some m) :
    ∃ c ∈ s.take m.len, p c = true := by
  induction r generalizing prev s m with
  | nil =>
    obtain ⟨a, ha, -⟩ := hr
    cases ha
  | cons a r ih =>
    have hrest : ¬ a.Needs p → Needs p r := by
      intro hnot
      obtain ⟨b, hb, hneeds⟩ := hr
      rcases List.mem_cons.mp hb with rfl | hb
      · exact absurd hneeds hnot
      · exact ⟨b, hb, hneeds⟩
    have hrep {q : Nat → Bool} {lo : Nat} {hi : Option Nat} (ha : a.Needs p ↔ 0 < lo ∧ ∀ c, q c → p c)
        {k : Nat → Match → Match} (hk : ∀ n m, (k n m).len = n + m.len)
        (h : ((counts q lo hi s).findSome? fun n =>
          (matchAt r ((s.take n).getLast?.or prev) (s.drop n)).map (k n)) = some m) :
        ∃ c ∈ s.take m.len, p c = true := by
      obtain ⟨n, hn, m', prev', hm', hlen⟩ := exists_of_rep hk h
      rw [hlen]
      by_cases hneeds : a.Needs p
      · obtain ⟨hlo, hq⟩ := ha.mp hneeds
        exact exists_of_counts hlo hq hn m'.len
      · exact exists_mem_take_add (ih (hrest hneeds) hm')
    cases a with
    | rep q lo hi => exact hrep Iff.rfl (fun _ _ => rfl) h
    | group q lo hi => exact hrep Iff.rfl (fun _ _ => rfl) h
    | startOr q =>
      rcases Option.or_eq_some_iff.mp h with h | ⟨-, h⟩
      · split at h
        · exact ih (hrest id) h
        · cases h
      · split at h
        · obtain ⟨m', hm', rfl⟩ := Option.map_eq_some_iff.mp h
          rw [← List.drop_one] at hm'
          exact exists_mem_take_add (ih (hrest id) hm')
        · cases h
    | _ =>
      unfold matchAt at h
      split at h
      · first
          | exact ih (hrest id) h
          | cases h
      · first
          | exact ih (hrest id) h
          | cases h

end Matches

section Sub

variable {p : Nat → Bool} {r : Regex} {repl : PyStr → PyStr} {prev : Option Nat} {skip : Nat}
  {s t : PyStr}

theorem sub_eq_self (hr : r.Needs p) (hs : ∀ c ∈ s, p c = false) : sub r repl 0 prev s = s := by
  induction s generalizing prev with
  | nil => rfl
  | cons c s ih =>
    unfold sub
    split
    · rename_i n g hm
      obtain ⟨d, hd, hp⟩ := exists_of_needs hr hm
      rw [hs d (List.mem_of_mem_take hd)] at hp
      cases hp
    · rw [ih fun d hd => hs d (List.mem_cons_of_mem c hd)]

/-- Where a pattern needs a character that the text lacks, nothing is replaced. -/
theorem replace_eq_self (hr : r.Needs p) (hs : ∀ c ∈ s, p c = false) : replace r repl s = s :=
  sub_eq_self hr hs

theorem isMatch_eq_false (hr : r.Needs p) (hs : ∀ c ∈ s, p c = false) : isMatch r s = false := by
  unfold isMatch
  cases hm : matchAt r none s with
  | none => rfl
  | some m =>
    obtain ⟨d, hd, hp⟩ := exists_of_needs hr hm
    rw [hs d (List.mem_of_mem_take hd)] at hp
    cases hp

theorem mem_of_mem_sub {c : Nat} (h : c ∈ sub r (fun _ => t) skip prev s) : c ∈ s ∨ c ∈ t := by
  induction s generalizing skip prev with
  | nil => cases skip <;> cases h
  | cons d s ih =>
    cases skip with
    | succ skip => exact (ih h).imp_left (List.mem_cons_of_mem d)
    | zero =>
      unfold sub at h
      split at h
      · rcases List.mem_append.mp h with h | h
        · exact .inr h
        · exact (ih h).imp_left (List.mem_cons_of_mem d)
      · rcases List.mem_cons.mp h with rfl | h
        · exact .inl List.mem_cons_self
        · exact (ih h).imp_left (List.mem_cons_of_mem d)

/-- Every match of the pattern is whitespace. -/
def Blank (r : Regex) : Prop :=
  ∀ {prev s m}, matchAt r prev s = some m → ∀ c ∈ s.take m.len, isSpace c = true

theorem blank_rep {lo : Nat} {hi : Option Nat} (hp : ∀ c, p c = true → isSpace c = true) :
    Blank [.rep p lo hi] := by
  intro prev s m hm c hc
  obtain ⟨n, hn, m', prev', hm', hlen⟩ := exists_of_rep (fun _ _ => rfl) hm
  cases hm'
  rw [hlen] at hc
  exact hp c (of_mem_take_counts hn c hc)

/-- Whitespace for whitespace leaves the words of a text as they are. -/
theorem split_sub {x : Nat} (hr : r.Blank) (hx : isSpace x = true) (s : PyStr) :
    (∀ prev u, (u ++ sub r (fun _ => [x]) 0 prev s).split = (u ++ s).split) ∧
      ∀ skip prev, (∀ c ∈ s.take skip, isSpace c = true) →
        (sub r (fun _ => [x]) skip prev s).split = s.split := by
  induction s with
  | nil =>
    constructor
    · intro prev u
      rfl
    · intro skip prev _
      cases skip <;> rfl
  | cons c s ih =>
    obtain ⟨ihcopy, ihskip⟩ := ih
    have hcopy : ∀ prev u, (u ++ sub r (fun _ => [x]) 0 prev (c :: s)).split = (u ++ c :: s).split := by
      intro prev u
      unfold sub
      split
      · rename_i n g hm
        have hblank := hr hm
        simp only [List.take_succ_cons, List.forall_mem_cons] at hblank
        rw [List.singleton_append, PyStr.split_append_space hx, ihskip n (some c) hblank.2,
          PyStr.split_append_space hblank.1]
      · have := ihcopy (some c) (u ++ [c])
        rwa [List.append_assoc, List.append_assoc] at this
    refine ⟨hcopy, ?_⟩
    intro skip prev hskip
    cases skip with
    | zero => exact hcopy prev []
    | succ skip =>
      simp only [List.take_succ_cons, List.forall_mem_cons] at hskip
      rw [PyStr.split_space_cons hskip.1]
      exact ihskip skip (some c) hskip.2

theorem split_replace {x : Nat} (hr : r.Blank) (hx : isSpace x = true) (s : PyStr) :
    (replace r (fun _ => [x]) s).split = s.split := (split_sub hr hx s).1 none []

end Sub

end Regex

end VirtualPerson
