import VirtualPerson.Python.Regex

/-!
# The text that is spoken

`_clean_for_tts` takes emoji and markdown out of a text before it is synthesized, line by
line, and puts the lines together again.
-/

namespace VirtualPerson

set_option autoImplicit false

open Regex

namespace TtsText

/-- The classes `\w` and `\d`. -/
structure CharClasses where
  word : Nat → Bool
  digit : Nat → Bool

/-- `re.sub(pattern, repl, text)` -/
structure Rewrite where
  pattern : Regex
  repl : PyStr → PyStr

def Rewrite.apply (text : PyStr) (w : Rewrite) : PyStr := w.pattern.replace w.repl text

/-- `r"\1"` -/
def content : PyStr → PyStr := id

def erased : PyStr → PyStr := fun _ => []

def blank : PyStr → PyStr := fun _ => [0x20]

/-- The class of `_EMOJI_RE` -/
def isEmoji (c : Nat) : Bool :=
  (0x1F600 ≤ c && c ≤ 0x1F64F) || (0x1F300 ≤ c && c ≤ 0x1F5FF) || (0x1F680 ≤ c && c ≤ 0x1F6FF) ||
    (0x1F1E0 ≤ c && c ≤ 0x1F1FF) || (0x1F900 ≤ c && c ≤ 0x1F9FF) || (0x1FA00 ≤ c && c ≤ 0x1FA6F) ||
    (0x1FA70 ≤ c && c ≤ 0x1FAFF) || (0x2702 ≤ c && c ≤ 0x27B0) || (0xFE00 ≤ c && c ≤ 0xFE0F) ||
    c == 0x200D || (0x1F3FB ≤ c && c ≤ 0x1F3FF)

def emojiRe : Regex := [.rep isEmoji 1 none]

def stripEmoji (text : PyStr) : PyStr := PyStr.strip (emojiRe.replace erased text)

/-- `^---+\s*$` -/
def ruleRe : Regex := [.start, one "-", one "-", many "-", .rep isSpace 0 none, .stop]

/-- `^#{1,6}\s+` -/
def headerRe : Regex := [.start, .rep (PyStr.oneOf "#") 1 (some 6), .rep isSpace 1 none]

/-- `c([^c]+)c` -/
def singleRe (c : String) : Regex := [one c, .group (noneOf c) 1 none, one c]

/-- `cc([^c]+)cc` -/
def doubleRe (c : String) : Regex := [one c, one c, .group (noneOf c) 1 none, one c, one c]

/-- `^\s*[-*+]\s+` -/
def bulletRe : Regex := [.start, .rep isSpace 0 none, one "-*+", .rep isSpace 1 none]

/-- `^\s*\d+\.\s+` -/
def numberRe (u : CharClasses) : Regex :=
  [.start, .rep isSpace 0 none, .rep u.digit 1 none, one ".", .rep isSpace 1 none]

/-- `\[([^\]]+)\]\([^)]+\)` -/
def linkRe : Regex :=
  [one "[", .group (noneOf "]") 1 none, one "]", one "(", .rep (noneOf ")") 1 none, one ")"]

/-- What is done to a line, in this order. -/
def lineRewrites (u : CharClasses) : List Rewrite :=
  [⟨headerRe, erased⟩, ⟨doubleRe "*", content⟩, ⟨singleRe "*", content⟩, ⟨doubleRe "_", content⟩,
    ⟨singleRe "_", content⟩, ⟨doubleRe "~", content⟩, ⟨singleRe "`", content⟩, ⟨bulletRe, erased⟩,
    ⟨numberRe u, erased⟩, ⟨linkRe, content⟩]

/-- The loop body: what is left of a line, if anything. -/
def stripLine (u : CharClasses) (line : PyStr) : Option PyStr :=
  let line := PyStr.strip line
  if ruleRe.isMatch line then none
  else if line = [] then none
  else
    let line := PyStr.strip ((lineRewrites u).foldl Rewrite.apply line)
    if line = [] then none else some line

/-- `"".join(cleaned)` -/
def stripMarkdown (u : CharClasses) (text : PyStr) : PyStr :=
  ((text.splitOn 0x0A).filterMap (stripLine u)).flatten

/-- `(?<!\w)c{1,n}(?!\w)` -/
def tokenRe (u : CharClasses) (c : String) (n : Nat) : Regex :=
  [.notBehind u.word, .rep (PyStr.oneOf c) 1 (some n), .notAhead u.word]

/-- `(?:^|\s)[\-•]\s+(?=\S)` -/
def joinedBulletRe : Regex :=
  [.startOr isSpace, one "-•", .rep isSpace 1 none, .ahead fun c => !isSpace c]

def textRewrites (u : CharClasses) : List Rewrite :=
  [⟨[many "\t\r"], blank⟩, ⟨[.rep isSpace 1 none], blank⟩,
    ⟨tokenRe u "#" 6, blank⟩, ⟨tokenRe u "*" 3, blank⟩, ⟨tokenRe u "-" 4, blank⟩,
    ⟨joinedBulletRe, blank⟩, ⟨[.rep isSpace 2 none], blank⟩]

def cleanForTts (u : CharClasses) (text : PyStr) : PyStr :=
  PyStr.strip ((textRewrites u).foldl Rewrite.apply (stripMarkdown u (stripEmoji text)))

/-- Every pattern of markdown needs one of these. -/
def markers : String := "#*_~`-+.[•"

def isMarker (c : Nat) : Bool := PyStr.oneOf markers c

/-- No emoji and no markers; letters, digits and whitespace are neither. -/
def Plain (text : PyStr) : Prop := ∀ c ∈ text, isEmoji c = false ∧ isMarker c = false

section Patterns

variable {u : CharClasses} {cs : String} {hi : Option Nat} {r : Regex}

theorem needs_marker (hr : .rep (PyStr.oneOf cs) 1 hi ∈ r) (hcs : ∀ c ∈ str cs, c ∈ str markers) :
    r.Needs isMarker := by
  refine ⟨_, hr, Nat.one_pos, ?_⟩
  intro c hc
  exact List.elem_eq_true_of_mem (hcs c (List.mem_of_elem_eq_true hc))

theorem ruleRe_needs : ruleRe.Needs isMarker :=
  needs_marker (.tail _ (.head _)) (by decide)

theorem singleRe_needs (hcs : ∀ c ∈ str cs, c ∈ str markers) : (singleRe cs).Needs isMarker :=
  needs_marker (.head _) hcs

theorem doubleRe_needs (hcs : ∀ c ∈ str cs, c ∈ str markers) : (doubleRe cs).Needs isMarker :=
  needs_marker (.head _) hcs

theorem tokenRe_needs (n : Nat) (hcs : ∀ c ∈ str cs, c ∈ str markers) :
    (tokenRe u cs n).Needs isMarker :=
  needs_marker (.tail _ (.head _)) hcs

theorem lineRewrites_need : ∀ w ∈ lineRewrites u, w.pattern.Needs isMarker := by
  simp only [lineRewrites, List.forall_mem_cons]
  refine ⟨?_, ?_, ?_, ?_, ?_, ?_, ?_, ?_, ?_, ?_, nofun⟩
  · exact needs_marker (.tail _ (.head _)) (by decide)
  · exact doubleRe_needs (by decide)
  · exact singleRe_needs (by decide)
  · exact doubleRe_needs (by decide)
  · exact singleRe_needs (by decide)
  · exact doubleRe_needs (by decide)
  · exact singleRe_needs (by decide)
  · exact needs_marker (.tail _ (.tail _ (.head _))) (by decide)
  · exact needs_marker (.tail _ (.tail _ (.tail _ (.head _)))) (by decide)
  · exact needs_marker (.head _) (by decide)

/-- A rewrite that leaves the words of plain text alone. -/
def Rewrite.Gentle (w : Rewrite) : Prop :=
  w.repl = blank ∧ (w.pattern.Needs isMarker ∨ w.pattern.Blank)

theorem textRewrites_gentle : ∀ w ∈ textRewrites u, w.Gentle := by
  simp only [textRewrites, List.forall_mem_cons]
  refine ⟨⟨rfl, .inr ?_⟩, ⟨rfl, .inr ?_⟩, ⟨rfl, .inl ?_⟩, ⟨rfl, .inl ?_⟩, ⟨rfl, .inl ?_⟩,
    ⟨rfl, .inl ?_⟩, ⟨rfl, .inr ?_⟩, nofun⟩
  · apply blank_rep
    intro c hc
    have hmem : c ∈ str "\t\r" := List.mem_of_elem_eq_true hc
    have hall : ∀ d ∈ str "\t\r", isSpace d = true := by decide
    exact hall c hmem
  · exact blank_rep fun c hc => hc
  · exact tokenRe_needs 6 (by decide)
  · exact tokenRe_needs 3 (by decide)
  · exact tokenRe_needs 4 (by decide)
  · exact needs_marker (.tail _ (.head _)) (by decide)
  · exact blank_rep fun c hc => hc

end Patterns

section Pipeline

variable {u : CharClasses} {s t text : PyStr} {w : Rewrite} {ws : List Rewrite}

theorem Plain.subset (hs : Plain s) (h : ∀ c ∈ t, c ∈ s) : Plain t := fun c hc => hs c (h c hc)

theorem Plain.strip (hs : Plain s) : Plain (PyStr.strip s) := by
  apply hs.subset
  intro c hc
  exact (List.dropWhile_sublist _).subset ((List.rdropWhile_prefix _ _).subset hc)

theorem Plain.no_marker (hs : Plain s) : ∀ c ∈ s, isMarker c = false := fun c hc => (hs c hc).2

theorem stripEmoji_plain (h : Plain text) : stripEmoji text = PyStr.strip text := by
  have hneeds : emojiRe.Needs isEmoji := ⟨_, .head _, Nat.one_pos, fun _ hc => hc⟩
  rw [stripEmoji, replace_eq_self hneeds fun c hc => (h c hc).1]

theorem foldl_apply_eq_self (hws : ∀ w ∈ ws, w.pattern.Needs isMarker) (hs : Plain s) :
    ws.foldl Rewrite.apply s = s := by
  induction ws with
  | nil => rfl
  | cons w ws ih =>
    have hw : w.apply s = s := replace_eq_self (hws w List.mem_cons_self) hs.no_marker
    rw [List.foldl_cons, hw]
    exact ih fun w hw => hws w (List.mem_cons_of_mem _ hw)

theorem Rewrite.Gentle.apply (hw : w.Gentle) (hs : Plain s) :
    Plain (w.apply s) ∧ (w.apply s).split = s.split := by
  obtain ⟨hrepl, hneeds | hblank⟩ := hw
  · rw [Rewrite.apply, replace_eq_self hneeds hs.no_marker]
    exact ⟨hs, rfl⟩
  · rw [Rewrite.apply, hrepl]
    refine ⟨?_, split_replace hblank rfl s⟩
    intro c hc
    rcases mem_of_mem_sub hc with hc | hc
    · exact hs c hc
    · rw [List.mem_singleton.mp hc]
      decide

theorem split_foldl_apply (hws : ∀ w ∈ ws, w.Gentle) (hs : Plain s) :
    (ws.foldl Rewrite.apply s).split = s.split := by
  induction ws generalizing s with
  | nil => rfl
  | cons w ws ih =>
    obtain ⟨hplain, hsplit⟩ := (hws w List.mem_cons_self).apply hs
    rw [List.foldl_cons, ih (fun w hw => hws w (List.mem_cons_of_mem _ hw)) hplain, hsplit]

/-- The lines of a text that are not blank, stripped. -/
def bodies (text : PyStr) : List PyStr :=
  ((text.splitOn 0x0A).map PyStr.strip).filter fun line => line ≠ []

theorem stripLine_plain (hs : Plain s) :
    stripLine u s = if PyStr.strip s = [] then none else some (PyStr.strip s) := by
  have hrule : ruleRe.isMatch (PyStr.strip s) = false := isMatch_eq_false ruleRe_needs hs.strip.no_marker
  simp only [stripLine, hrule, foldl_apply_eq_self lineRewrites_need hs.strip, PyStr.strip_strip]
  by_cases h : PyStr.strip s = [] <;> simp [h]

theorem Plain.line (hs : Plain s) {line : PyStr} (h : line ∈ s.splitOn 0x0A) : Plain line :=
  hs.subset fun c hc => (PyStr.of_mem_splitOnP h c hc).1

theorem stripMarkdown_plain (hs : Plain s) : stripMarkdown u s = (bodies s).flatten := by
  have hlines : ∀ lines : List PyStr, (∀ line ∈ lines, Plain line) →
      lines.filterMap (stripLine u) = (lines.map PyStr.strip).filter fun line => line ≠ [] := by
    intro lines hplain
    induction lines with
    | nil => rfl
    | cons line lines ih =>
      rw [List.forall_mem_cons] at hplain
      rw [List.filterMap_cons, stripLine_plain hplain.1, List.map_cons, List.filter_cons, ih hplain.2]
      by_cases h : PyStr.strip line = [] <;> simp [h]
  rw [stripMarkdown, hlines _ fun line hline => hs.line hline, bodies]

theorem Plain.flatten_bodies (hs : Plain s) : Plain (bodies s).flatten := by
  intro c hc
  obtain ⟨body, hbody, hc⟩ := List.mem_flatten.mp hc
  obtain ⟨line, hline, rfl⟩ := List.mem_map.mp (List.mem_filter.mp hbody).1
  exact (hs.line hline).strip c hc

/-- On plain text the pipeline only takes the lines apart and puts them together again. -/
theorem split_cleanForTts (h : Plain text) :
    (cleanForTts u text).split = PyStr.split (bodies (PyStr.strip text)).flatten := by
  rw [cleanForTts, PyStr.split_strip, stripEmoji_plain h, stripMarkdown_plain h.strip,
    split_foldl_apply textRewrites_gentle h.strip.flatten_bodies]

theorem split_bodies (s : PyStr) : (bodies s).flatMap PyStr.split = PyStr.split s := by
  have hlines : ∀ lines : List PyStr,
      ((lines.map PyStr.strip).filter fun line => line ≠ []).flatMap PyStr.split =
        lines.flatMap PyStr.split := by
    intro lines
    induction lines with
    | nil => rfl
    | cons line lines ih =>
      rw [List.map_cons, List.filter_cons, List.flatMap_cons]
      by_cases h : PyStr.strip line = []
      · have hline : PyStr.split line = [] := by
          rw [← PyStr.split_strip, h]
          rfl
        simpa [h, hline] using ih
      · simpa [h] using ih
  rw [bodies, hlines, ← PyStr.split_eq_flatMap_splitOn rfl]

theorem bodies_append (s t : PyStr) :
    bodies (s ++ 0x0A :: t) = bodies s ++ bodies t := by
  rw [bodies, List.splitOn, List.splitOnP_append_cons s t (by rfl), List.map_append,
    List.filter_append]
  rfl

theorem bodies_of_one_line (hs : 0x0A ∉ s) : (bodies s).flatten = PyStr.strip s := by
  rw [bodies, List.splitOn_eq_singleton hs]
  by_cases h : PyStr.strip s = [] <;> simp [h]

theorem bodies_ne_nil (hs : ∃ c ∈ s, isSpace c = false) : bodies s ≠ [] := by
  obtain ⟨c, hc, hspace⟩ := hs
  intro hnil
  have hsplit := split_bodies s
  rw [hnil] at hsplit
  have hall := PyStr.split_eq_nil_iff.mp hsplit.symm c hc
  rw [hspace] at hall
  cases hall

theorem ends_of_mem_bodies {body : PyStr} (h : body ∈ bodies s) :
    (∃ c, body.head? = some c ∧ isSpace c = false) ∧
      ∃ c, body.getLast? = some c ∧ isSpace c = false := by
  obtain ⟨hmem, hne⟩ := List.mem_filter.mp h
  obtain ⟨line, -, rfl⟩ := List.mem_map.mp hmem
  rw [decide_eq_true_eq] at hne
  have hhead := List.head?_eq_some_head hne
  have hlast := List.getLast?_eq_some_getLast hne
  exact ⟨⟨_, hhead, PyStr.head_strip hhead⟩, ⟨_, hlast, PyStr.last_strip hlast⟩⟩

/-- Where two lines or more are not blank, the join costs a word. -/
theorem length_split_bodies_lt (h : 2 ≤ (bodies s).length) :
    (PyStr.split (bodies s).flatten).length < (PyStr.split s).length := by
  rw [← split_bodies s]
  have hends {body : PyStr} (hbody : body ∈ bodies s) := ends_of_mem_bodies hbody
  revert hends h
  cases bodies s with
  | nil => simp
  | cons first rest =>
    cases rest with
    | nil => simp
    | cons second rest =>
      intro _ hends
      obtain ⟨c, hhead, hc⟩ := (hends (.tail _ (.head _))).1
      have hglue := PyStr.starts_append_lt (b := true) (v := second ++ rest.flatten)
        (hends (.head _)).2 ⟨c, by rw [List.head?_append, hhead]; rfl, hc⟩
      have hrest := PyStr.length_split_flatten_le (second :: rest)
      rw [List.flatten_cons, PyStr.length_split] at hrest
      rw [List.flatten_cons, List.flatten_cons, PyStr.length_split, List.flatMap_cons,
        List.length_append, PyStr.length_split first]
      omega

/-- The first and the last line of a stripped text are not blank. -/
theorem two_le_length_bodies (h : 0x0A ∈ PyStr.strip s) : 2 ≤ (bodies (PyStr.strip s)).length := by
  obtain ⟨first, rest, hs⟩ := List.append_of_mem h
  have hfirst : bodies first ≠ [] := by
    cases first with
    | nil => cases PyStr.head_strip (s := s) (by rw [hs]; rfl)
    | cons c first =>
      exact bodies_ne_nil ⟨c, List.mem_cons_self, PyStr.head_strip (s := s) (by rw [hs]; rfl)⟩
  have hrest : bodies rest ≠ [] := by
    rcases List.eq_nil_or_concat rest with rfl | ⟨rest, c, rfl⟩
    · cases PyStr.last_strip (s := s) (by rw [hs]; exact List.getLast?_concat)
    · apply bodies_ne_nil ⟨c, by simp, PyStr.last_strip (s := s) ?_⟩
      rw [hs, List.concat_eq_append, ← List.cons_append, ← List.append_assoc]
      exact List.getLast?_concat
  rw [hs, bodies_append, List.length_append]
  have := List.length_pos_iff.mpr hfirst
  have := List.length_pos_iff.mpr hrest
  omega

/-- Cleaning plain text keeps its words exactly when, trimmed, it has no line break: the join puts
nothing between two lines. -/
theorem words_kept_iff (u : CharClasses) (h : Plain text) :
    PyStr.split (cleanForTts u text) = PyStr.split text ↔ 0x0A ∉ PyStr.strip text := by
  rw [split_cleanForTts h, ← PyStr.split_strip text]
  constructor
  · intro heq hbreak
    have hlt := length_split_bodies_lt (two_le_length_bodies hbreak)
    rw [heq] at hlt
    exact Nat.lt_irrefl _ hlt
  · intro hone
    rw [bodies_of_one_line hone, PyStr.split_strip]

end Pipeline

def asciiClasses : CharClasses where
  word c := (0x30 ≤ c && c ≤ 0x39) || (0x41 ≤ c && c ≤ 0x5A) || (0x61 ≤ c && c ≤ 0x7A) || c == 0x5F
  digit c := 0x30 ≤ c && c ≤ 0x39

theorem words_kept_iff_padded :
    Plain (str " say 42\n") ∧
      (PyStr.split (cleanForTts asciiClasses (str " say 42\n")) = PyStr.split (str " say 42\n") ↔
        0x0A ∉ PyStr.strip (str " say 42\n")) := by
  have hplain : Plain (str " say 42\n") := by
    unfold Plain
    decide
  exact ⟨hplain, words_kept_iff asciiClasses hplain⟩

/-- Two lines are read as one word. -/
theorem not_words_kept :
    ¬ ∀ (u : CharClasses) (text : PyStr), Plain text →
      PyStr.split (cleanForTts u text) = PyStr.split text := by
  intro hall
  have hplain : Plain (str "a\nb") := by
    unfold Plain
    decide
  have h := hall asciiClasses (str "a\nb") hplain
  have hglued : cleanForTts asciiClasses (str "a\nb") = str "ab" := by decide
  rw [hglued] at h
  revert h
  decide

end TtsText

end VirtualPerson
