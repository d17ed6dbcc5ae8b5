import Mathlib.Data.List.Sort
import VirtualPerson.Python.Str

/-!
# The sentence chunker

`SentenceChunker` cuts a stream of text deltas into segments to be spoken. Its
segments and its buffer together hold all the text it was given, up to whitespace.
-/

namespace VirtualPerson

set_option autoImplicit false

def runLength (p : Nat → Bool) (s : PyStr) : Nat := (s.takeWhile p).length

/-- `[。！？!?；：]+|\.{3,}|[\r\n]+` at the head of the text: the length of the match, 0 for none. -/
def sentenceEndLen : PyStr → Nat
  | [] => 0
  | c :: s =>
    if PyStr.oneOf "。！？!?；：" c then runLength (PyStr.oneOf "。！？!?；：") (c :: s)
    else if c = 0x2E then
      let dots := runLength (· == 0x2E) (c :: s)
      if 3 ≤ dots then dots else 0
    else runLength (PyStr.oneOf "\r\n") (c :: s)

/-- `[，、；]+` at the head of the text -/
def clauseLen (s : PyStr) : Nat := runLength (PyStr.oneOf "，、；") s

/-- `[m.end() for m in re.finditer(s)]`; `skip` code points are inside the last match. -/
def finditerEnds (matchLen : PyStr → Nat) : (skip pos : Nat) → PyStr → List Nat
  | _, _, [] => []
  | skip + 1, pos, _ :: s => finditerEnds matchLen skip (pos + 1) s
  | 0, pos, c :: s =>
    match matchLen (c :: s) with
    | 0 => finditerEnds matchLen 0 (pos + 1) s
    | n + 1 => (pos + n + 1) :: finditerEnds matchLen n (pos + 1) s

structure SentenceChunker where
  buf : PyStr
  softLimitChars : Nat
  firstChunkEmitted : Bool

namespace SentenceChunker

def init (softLimitChars : Int) : SentenceChunker :=
  { buf := [], softLimitChars := (max 20 softLimitChars).toNat, firstChunkEmitted := false }

def firstSoftLimitChars : Nat := 12

/-- `buf[i:j].strip()` -/
def segment (buf : PyStr) (i j : Nat) : PyStr := PyStr.strip ((buf.take j).drop i)

/-- The loop over the matches once the first chunk is out: the segments and the new cursor. -/
def cutAll (buf : PyStr) : (cursor : Nat) → List Nat → List PyStr × Nat
  | cursor, [] => ([], cursor)
  | cursor, e :: es =>
    let (out, cursor') := cutAll buf e es
    (if segment buf cursor e = [] then out else segment buf cursor e :: out, cursor')

/-- The same loop before that: it stops at its first non-blank segment. -/
def cutFirst (buf : PyStr) : (cursor : Nat) → List Nat → List PyStr × Nat
  | cursor, [] => ([], cursor)
  | cursor, e :: es =>
    if segment buf cursor e = [] then cutFirst buf e es else ([segment buf cursor e], e)

/-- `window.rfind(c)` -/
def rfind (window : PyStr) (c : Nat) : Option Nat :=
  (window.reverse.findIdx? (· = c)).map (window.length - 1 - ·)

/-- Where a buffer without sentence punctuation is cut. -/
def softSplit (firstChunkEmitted : Bool) (limit : Nat) (buf : PyStr) : Nat :=
  let window := buf.take limit
  let puncts := if firstChunkEmitted then str "，、" else str "，、；"
  match puncts.foldl (fun best c => max best (rfind window c)) none with
  | some i => i + 1
  | none => (rfind window 0x20).getD limit

def activeSoftLimit (c : SentenceChunker) : Nat :=
  if c.firstChunkEmitted then c.softLimitChars else firstSoftLimitChars

/-- First stage: a clause for the first chunk, sentences afterwards. -/
def cutFirstStage (c : SentenceChunker) : List PyStr × SentenceChunker :=
  if c.firstChunkEmitted then
    let (out, cursor) := cutAll c.buf 0 (finditerEnds sentenceEndLen 0 0 c.buf)
    (out, { c with buf := c.buf.drop cursor })
  else
    let (out, cursor) := cutFirst c.buf 0 (finditerEnds clauseLen 0 0 c.buf)
    (out, { c with buf := c.buf.drop cursor, firstChunkEmitted := !out.isEmpty })

/-- Second stage: the sentences left after the first chunk. -/
def cutSentences (c : SentenceChunker) : List PyStr × SentenceChunker :=
  if c.firstChunkEmitted && !c.buf.isEmpty then
    let (out, cursor) := cutAll c.buf 0 (finditerEnds sentenceEndLen 0 0 c.buf)
    (out, { c with buf := c.buf.drop cursor })
  else ([], c)

/-- Third stage: a long buffer is cut at a pause, at a space or at the limit. -/
def cutSoft (c : SentenceChunker) : List PyStr × SentenceChunker :=
  if c.activeSoftLimit ≤ c.buf.length then
    let splitAt := softSplit c.firstChunkEmitted c.activeSoftLimit c.buf
    let seg := PyStr.strip (c.buf.take splitAt)
    let rest := PyStr.lstrip (c.buf.drop splitAt)
    if seg = [] then ([], { c with buf := rest })
    else ([seg], { c with buf := rest, firstChunkEmitted := true })
  else ([], c)

def push (c : SentenceChunker) (delta : PyStr) : List PyStr × SentenceChunker :=
  if delta = [] then ([], c)
  else
    let (out₁, c₁) := cutFirstStage { c with buf := c.buf ++ delta }
    let (out₂, c₂) := cutSentences c₁
    let (out₃, c₃) := cutSoft c₂
    (out₁ ++ out₂ ++ out₃, c₃)

def flush (c : SentenceChunker) : PyStr × SentenceChunker :=
  (PyStr.strip c.buf, { c with buf := [] })

def pushAll (c : SentenceChunker) : List PyStr → List PyStr × SentenceChunker
  | [] => ([], c)
  | delta :: deltas =>
    let (out, c') := push c delta
    let (outs, c'') := pushAll c' deltas
    (out ++ outs, c'')

/-- The texts of the `chat_partial` messages of a streaming turn. -/
def chatPartials (softLimitChars : Int) (deltas : List PyStr) : List PyStr :=
  let (out, c) := pushAll (init softLimitChars) deltas
  if (flush c).1 = [] then out else out ++ [(flush c).1]

end SentenceChunker

section Finditer

variable {matchLen : PyStr → Nat}

theorem lt_of_mem_finditerEnds {s : PyStr} {skip pos e : Nat}
    (h : e ∈ finditerEnds matchLen skip pos s) : pos + skip < e := by
  induction s generalizing skip pos with
  | nil => cases skip <;> cases h
  | cons c s ih =>
    cases skip with
    | succ skip =>
      have := ih h
      omega
    | zero =>
      unfold finditerEnds at h
      split at h
      · have := ih h
        omega
      · rcases List.mem_cons.mp h with rfl | h
        · omega
        · have := ih h
          omega

theorem finditerEnds_sorted (s : PyStr) (skip pos : Nat) :
    (finditerEnds matchLen skip pos s).Pairwise (· ≤ ·) := by
  induction s generalizing skip pos with
  | nil => cases skip <;> exact .nil
  | cons c s ih =>
    cases skip with
    | succ skip => exact ih skip (pos + 1)
    | zero =>
      unfold finditerEnds
      split
      · exact ih 0 (pos + 1)
      · rename_i n _
        refine List.pairwise_cons.mpr ⟨fun e he => ?_, ih n (pos + 1)⟩
        have := lt_of_mem_finditerEnds he
        omega

theorem cursor_sorted (matchLen : PyStr → Nat) (s : PyStr) :
    (0 :: finditerEnds matchLen 0 0 s).Pairwise (· ≤ ·) :=
  List.pairwise_cons.mpr ⟨fun _ _ => Nat.zero_le _, finditerEnds_sorted s 0 0⟩

end Finditer

namespace SentenceChunker

variable {buf : PyStr} {c : SentenceChunker} {delta : PyStr} {deltas : List PyStr}

theorem solid_take_segment (buf : PyStr) {i j : Nat} (h : i ≤ j) :
    PyStr.solid (buf.take i) ++ PyStr.solid (segment buf i j) = PyStr.solid (buf.take j) := by
  have hsplit : buf.take j = buf.take i ++ (buf.take j).drop i := by
    have htake : (buf.take j).take i = buf.take i := by rw [List.take_take, Nat.min_eq_left h]
    rw [← htake, List.take_append_drop]
  rw [segment, PyStr.solid_strip, ← PyStr.solid_append, ← hsplit]

theorem solid_cutAll (buf : PyStr) {es : List Nat} {cursor : Nat} (h : (cursor :: es).Pairwise (· ≤ ·)) :
    PyStr.solid (buf.take cursor) ++ PyStr.solid (cutAll buf cursor es).1.flatten =
      PyStr.solid (buf.take (cutAll buf cursor es).2) := by
  induction es generalizing cursor with
  | nil => simp [cutAll]
  | cons e es ih =>
    obtain ⟨hle, htail⟩ := List.pairwise_cons.mp h
    have hcut := solid_take_segment buf (hle e List.mem_cons_self)
    have hih := ih htail
    simp only [cutAll]
    split
    · rename_i hblank
      rw [hblank, PyStr.solid_nil, List.append_nil] at hcut
      rw [hcut]
      exact hih
    · rw [List.flatten_cons, PyStr.solid_append, ← List.append_assoc, hcut]
      exact hih

theorem solid_cutFirst (buf : PyStr) {es : List Nat} {cursor : Nat} (h : (cursor :: es).Pairwise (· ≤ ·)) :
    PyStr.solid (buf.take cursor) ++ PyStr.solid (cutFirst buf cursor es).1.flatten =
      PyStr.solid (buf.take (cutFirst buf cursor es).2) := by
  induction es generalizing cursor with
  | nil => simp [cutFirst]
  | cons e es ih =>
    obtain ⟨hle, htail⟩ := List.pairwise_cons.mp h
    have hcut := solid_take_segment buf (hle e List.mem_cons_self)
    simp only [cutFirst]
    split
    · rename_i hblank
      rw [hblank, PyStr.solid_nil, List.append_nil] at hcut
      rw [hcut]
      exact ih htail
    · simpa using hcut

/-- What a stage gives out and keeps holds the text it was given. -/
def Conserves (c : SentenceChunker) (r : List PyStr × SentenceChunker) : Prop :=
  PyStr.solid r.1.flatten ++ PyStr.solid r.2.buf = PyStr.solid c.buf ∧ ∀ seg ∈ r.1, seg ≠ []

theorem nonblank_cutAll {es : List Nat} {cursor : Nat} :
    ∀ seg ∈ (cutAll buf cursor es).1, seg ≠ [] := by
  induction es generalizing cursor with
  | nil => simp [cutAll]
  | cons e es ih =>
    simp only [cutAll]
    split
    · exact ih
    · rename_i hseg
      intro seg hmem
      rcases List.mem_cons.mp hmem with rfl | hmem
      · exact hseg
      · exact ih seg hmem

theorem nonblank_cutFirst {es : List Nat} {cursor : Nat} :
    ∀ seg ∈ (cutFirst buf cursor es).1, seg ≠ [] := by
  induction es generalizing cursor with
  | nil => simp [cutFirst]
  | cons e es ih =>
    simp only [cutFirst]
    split
    · exact ih
    · rename_i hseg
      intro seg hmem
      rw [List.mem_singleton.mp hmem]
      exact hseg

theorem solid_take_append_drop (out : PyStr) {cursor : Nat}
    (h : out = PyStr.solid (buf.take cursor)) :
    out ++ PyStr.solid (buf.drop cursor) = PyStr.solid buf := by
  rw [h, ← PyStr.solid_append, List.take_append_drop]

theorem conserves_cutFirstStage (c : SentenceChunker) : Conserves c (cutFirstStage c) := by
  unfold cutFirstStage
  split
  · refine ⟨solid_take_append_drop _ ?_, nonblank_cutAll⟩
    simpa using solid_cutAll c.buf (cursor_sorted sentenceEndLen c.buf)
  · refine ⟨solid_take_append_drop _ ?_, nonblank_cutFirst⟩
    simpa using solid_cutFirst c.buf (cursor_sorted clauseLen c.buf)

theorem conserves_cutSentences (c : SentenceChunker) : Conserves c (cutSentences c) := by
  unfold cutSentences
  split
  · refine ⟨solid_take_append_drop _ ?_, nonblank_cutAll⟩
    simpa using solid_cutAll c.buf (cursor_sorted sentenceEndLen c.buf)
  · exact ⟨rfl, fun seg hseg => by cases hseg⟩

theorem conserves_cutSoft (c : SentenceChunker) : Conserves c (cutSoft c) := by
  unfold cutSoft
  split
  · set splitAt := softSplit c.firstChunkEmitted c.activeSoftLimit c.buf
    have hsplit : PyStr.solid (PyStr.strip (c.buf.take splitAt)) ++
        PyStr.solid (PyStr.lstrip (c.buf.drop splitAt)) = PyStr.solid c.buf := by
      rw [PyStr.solid_strip, PyStr.solid_lstrip, ← PyStr.solid_append, List.take_append_drop]
    simp only
    split
    · rename_i hblank
      rw [hblank] at hsplit
      exact ⟨hsplit, fun seg hseg => by cases hseg⟩
    · rename_i hseg
      refine ⟨by simpa using hsplit, fun seg hmem => ?_⟩
      rw [List.mem_singleton.mp hmem]
      exact hseg
  · exact ⟨rfl, fun seg hseg => by cases hseg⟩

theorem Conserves.trans {r : List PyStr × SentenceChunker} {r' : List PyStr × SentenceChunker}
    (h : Conserves c r) (h' : Conserves r.2 r') : Conserves c (r.1 ++ r'.1, r'.2) := by
  refine ⟨?_, fun seg hseg => ?_⟩
  · rw [List.flatten_append, PyStr.solid_append, List.append_assoc, h'.1, h.1]
  · rcases List.mem_append.mp hseg with hseg | hseg
    · exact h.2 seg hseg
    · exact h'.2 seg hseg

theorem conserves_push (c : SentenceChunker) (delta : PyStr) :
    Conserves { c with buf := c.buf ++ delta } (push c delta) := by
  unfold push
  split
  · rename_i hnil
    exact ⟨by simp [hnil], fun seg hseg => by cases hseg⟩
  · exact ((conserves_cutFirstStage _).trans (conserves_cutSentences _)).trans (conserves_cutSoft _)

theorem conserves_pushAll (c : SentenceChunker) (deltas : List PyStr) :
    Conserves { c with buf := c.buf ++ deltas.flatten } (pushAll c deltas) := by
  induction deltas generalizing c with
  | nil => exact ⟨by simp [pushAll], fun seg hseg => by cases hseg⟩
  | cons delta deltas ih =>
    obtain ⟨hsolid, hnonblank⟩ := conserves_push c delta
    obtain ⟨hsolid', hnonblank'⟩ := ih (push c delta).2
    refine ⟨?_, fun seg hseg => ?_⟩
    · simp only [pushAll, List.flatten_append, PyStr.solid_append, List.append_assoc]
      rw [hsolid']
      simp only [PyStr.solid_append, List.flatten_cons]
      rw [← List.append_assoc, hsolid, PyStr.solid_append, List.append_assoc]
    · rcases List.mem_append.mp hseg with hseg | hseg
      · exact hnonblank seg hseg
      · exact hnonblank' seg hseg

/-- The segments of the pushes and the final flush spell the deltas up to whitespace, no
segment is empty, and so the `chat_partial` texts spell the final text. -/
theorem segments_spell_deltas (softLimitChars : Int) (deltas : List PyStr) :
    PyStr.solid ((pushAll (init softLimitChars) deltas).1.flatten ++
        (flush (pushAll (init softLimitChars) deltas).2).1) = PyStr.solid deltas.flatten ∧
      (∀ seg ∈ (pushAll (init softLimitChars) deltas).1, seg ≠ []) ∧
      PyStr.solid (chatPartials softLimitChars deltas).flatten =
        PyStr.solid (PyStr.strip deltas.flatten) := by
  obtain ⟨hsolid, hnonblank⟩ := conserves_pushAll (init softLimitChars) deltas
  have hspell : PyStr.solid ((pushAll (init softLimitChars) deltas).1.flatten ++
      (flush (pushAll (init softLimitChars) deltas).2).1) = PyStr.solid deltas.flatten := by
    rw [PyStr.solid_append, flush, PyStr.solid_strip, hsolid]
    simp [init]
  refine ⟨hspell, hnonblank, ?_⟩
  rw [PyStr.solid_strip, ← hspell]
  simp only [chatPartials]
  split
  · rename_i hblank
    rw [hblank, List.append_nil]
  · simp

example : ((init 24).push (str "你好，我在。第二句...")).1 =
    [str "你好，", str "我在。", str "第二句..."] := by decide

end SentenceChunker

end VirtualPerson
