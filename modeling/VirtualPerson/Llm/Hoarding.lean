import VirtualPerson.Llm.Streaming
import VirtualPerson.Transition

/-!
# What the chunker keeps

A push cuts at every sentence end but makes at most one soft cut, so its buffer stays below
the soft limit exactly as long as the text behind the last punctuation fits into one cut.
-/

namespace VirtualPerson

set_option autoImplicit false

section Finditer

variable {matchLen : PyStr → Nat}

theorem finditerEnds_eq_nil_iff {s : PyStr} {skip pos pos' : Nat} :
    finditerEnds matchLen skip pos s = [] ↔ finditerEnds matchLen 0 pos' (s.drop skip) = [] := by
  induction s generalizing skip pos pos' with
  | nil => cases skip <;> simp [finditerEnds]
  | cons c s ih =>
    cases skip with
    | succ skip =>
      rw [finditerEnds, List.drop_succ_cons]
      exact ih
    | zero =>
      rw [List.drop_zero]
      simp only [finditerEnds]
      cases matchLen (c :: s) with
      | zero =>
        have hhere : finditerEnds matchLen 0 (pos + 1) s = [] ↔ finditerEnds matchLen 0 0 s = [] := ih
        have hthere : finditerEnds matchLen 0 (pos' + 1) s = [] ↔ finditerEnds matchLen 0 0 s = [] := ih
        exact hhere.trans hthere.symm
      | succ n => simp

theorem finditerEnds_drop_last {s : PyStr} {skip pos pos' e : Nat}
    (h : (finditerEnds matchLen skip pos s).getLast? = some e) :
    finditerEnds matchLen 0 pos' (s.drop (e - pos)) = [] := by
  induction s generalizing skip pos with
  | nil => cases skip <;> cases h
  | cons c s ih =>
    have hlater {skip : Nat} (h : (finditerEnds matchLen skip (pos + 1) s).getLast? = some e) :
        finditerEnds matchLen 0 pos' ((c :: s).drop (e - pos)) = [] := by
      have hlt := lt_of_mem_finditerEnds (List.mem_of_getLast? h)
      have hdrop : e - pos = e - (pos + 1) + 1 := by omega
      rw [hdrop, List.drop_succ_cons]
      exact ih h
    cases skip with
    | succ skip => exact hlater h
    | zero =>
      unfold finditerEnds at h
      split at h
      · exact hlater h
      · rename_i n _
        cases hrest : (finditerEnds matchLen n (pos + 1) s).getLast? with
        | none =>
          rw [List.getLast?_cons, hrest] at h
          cases h
          have hdrop : pos + n + 1 - pos = n + 1 := by omega
          rw [Option.getD_none, hdrop, List.drop_succ_cons]
          exact finditerEnds_eq_nil_iff.mp (List.getLast?_eq_none_iff.mp hrest)
        | some e' =>
          rw [List.getLast?_cons, hrest] at h
          cases h
          exact hlater hrest

theorem exists_mem_take_clause {s : PyStr} {pos e : Nat}
    (h : (finditerEnds clauseLen 0 pos s).head? = some e) :
    ∃ c ∈ s.take (e - pos), PyStr.oneOf "，、；" c = true := by
  induction s generalizing pos with
  | nil => cases h
  | cons c s ih =>
    unfold finditerEnds at h
    split at h
    · have hlt := lt_of_mem_finditerEnds (List.mem_of_mem_head? h)
      have htake : e - pos = e - (pos + 1) + 1 := by omega
      obtain ⟨d, hd, hclause⟩ := ih h
      rw [htake, List.take_succ_cons]
      exact ⟨d, List.mem_cons_of_mem _ hd, hclause⟩
    · rename_i n hlen
      cases h
      have htake : pos + n + 1 - pos = n + 1 := by omega
      rw [htake, List.take_succ_cons]
      refine ⟨c, List.mem_cons_self, ?_⟩
      by_contra hc
      simp [clauseLen, runLength, hc] at hlen

end Finditer

namespace SentenceChunker

variable {c : SentenceChunker} {delta : PyStr}

/-- The text behind the last sentence punctuation. -/
def afterSentences (s : PyStr) : PyStr :=
  s.drop ((finditerEnds sentenceEndLen 0 0 s).getLast?.getD 0)

/-- The text that no punctuation cuts, and whether a chunk is out before it. -/
def unpunctuated (emitted : Bool) (text : PyStr) : Bool × PyStr :=
  if emitted then (true, afterSentences text)
  else match (finditerEnds clauseLen 0 0 text).head? with
    | none => (false, text)
    | some e => (true, afterSentences (text.drop e))

def limitOf (softLimitChars : Nat) (emitted : Bool) : Nat :=
  if emitted then softLimitChars else firstSoftLimitChars

/-- A text that reaches the limit, and so does what one soft cut leaves of it. -/
def OutlastsCut (softLimitChars : Nat) (emitted : Bool) (text : PyStr) : Prop :=
  let splitAt := softSplit emitted (limitOf softLimitChars emitted) text
  let emitted' := emitted || !(PyStr.strip (text.take splitAt)).isEmpty
  limitOf softLimitChars emitted ≤ text.length ∧
    limitOf softLimitChars emitted' ≤ (PyStr.lstrip (text.drop splitAt)).length

def Overlong (c : SentenceChunker) (delta : PyStr) : Prop :=
  let (emitted, text) := unpunctuated c.firstChunkEmitted (c.buf ++ delta)
  OutlastsCut c.softLimitChars emitted text

theorem cutAll_cursor (buf : PyStr) (cursor : Nat) (es : List Nat) :
    (cutAll buf cursor es).2 = es.getLast?.getD cursor := by
  induction es generalizing cursor with
  | nil => rfl
  | cons e es ih =>
    simp only [cutAll, List.getLast?_cons, Option.getD_some]
    exact ih e

theorem afterSentences_idem (s : PyStr) : afterSentences (afterSentences s) = afterSentences s := by
  have hnone : finditerEnds sentenceEndLen 0 0 (afterSentences s) = [] := by
    unfold afterSentences
    cases hlast : (finditerEnds sentenceEndLen 0 0 s).getLast? with
    | none => exact List.getLast?_eq_none_iff.mp hlast
    | some e => exact finditerEnds_drop_last hlast
  conv_lhs => rw [afterSentences, hnone]
  rfl

theorem segment_clause_ne_nil {buf : PyStr} {e : Nat}
    (h : (finditerEnds clauseLen 0 0 buf).head? = some e) : segment buf 0 e ≠ [] := by
  obtain ⟨d, hd, hclause⟩ := exists_mem_take_clause h
  intro hnil
  have hspace := PyStr.solid_eq_nil_iff.mp (PyStr.strip_eq_nil_iff.mp hnil) d hd
  have hmem : d ∈ str "，、；" := by simpa [PyStr.oneOf] using hclause
  have hall : ∀ x ∈ str "，、；", isSpace x = false := by decide
  rw [hall d hmem] at hspace
  cases hspace

/-- A clause is never blank, so the first one is the first chunk. -/
theorem cutFirst_clause {buf : PyStr} {e : Nat} (h : (finditerEnds clauseLen 0 0 buf).head? = some e) :
    cutFirst buf 0 (finditerEnds clauseLen 0 0 buf) = ([segment buf 0 e], e) := by
  have hseg := segment_clause_ne_nil h
  obtain ⟨es, hes⟩ := List.head?_eq_some_iff.mp h
  rw [hes, cutFirst, if_neg hseg]

theorem cutSentences_emitted (h : c.firstChunkEmitted = true) :
    (cutSentences c).2 = { c with buf := afterSentences c.buf } := by
  unfold cutSentences
  split
  · rw [afterSentences, ← cutAll_cursor]
  · rename_i hempty
    have hbuf : c.buf = [] := by simpa [h] using hempty
    obtain ⟨buf, limit, emitted⟩ := c
    cases hbuf
    rfl

/-- The stages that cut at punctuation leave the unpunctuated text. -/
theorem cutPunctuation_eq (c : SentenceChunker) :
    (cutSentences (cutFirstStage c).2).2 =
      { c with
        buf := (unpunctuated c.firstChunkEmitted c.buf).2
        firstChunkEmitted := (unpunctuated c.firstChunkEmitted c.buf).1 } := by
  cases hemitted : c.firstChunkEmitted with
  | true =>
    have hfirst : (cutFirstStage c).2 = { c with buf := afterSentences c.buf } := by
      rw [cutFirstStage, if_pos hemitted, afterSentences, ← cutAll_cursor]
    rw [hfirst]
    have hsecond := cutSentences_emitted (c := { c with buf := afterSentences c.buf }) hemitted
    rw [hsecond, afterSentences_idem]
    simp [unpunctuated, hemitted]
  | false =>
    have hne : ¬ c.firstChunkEmitted = true := by simp [hemitted]
    cases hclause : (finditerEnds clauseLen 0 0 c.buf).head? with
    | none =>
      have hends : finditerEnds clauseLen 0 0 c.buf = [] := List.head?_eq_none_iff.mp hclause
      have hfirst : (cutFirstStage c).2 = c := by
        rw [cutFirstStage, if_neg hne, hends]
        simp [cutFirst, hemitted.symm]
      rw [hfirst, cutSentences, if_neg (by simp [hemitted])]
      have hself : c = { c with firstChunkEmitted := false } := by rw [← hemitted]
      simpa [unpunctuated, hclause] using hself
    | some e =>
      have hfirst : (cutFirstStage c).2 = { c with buf := c.buf.drop e, firstChunkEmitted := true } := by
        rw [cutFirstStage, if_neg hne, cutFirst_clause hclause]
        rfl
      rw [hfirst, cutSentences_emitted rfl]
      simp [unpunctuated, hclause]

/-- The buffer, and with it what `flush` returns, is shorter than the active soft limit. -/
structure Bounded (c : SentenceChunker) : Prop where
  buf : c.buf.length < c.activeSoftLimit
  tail : (flush c).1.length < c.activeSoftLimit

theorem length_flush_le (c : SentenceChunker) : (flush c).1.length ≤ c.buf.length :=
  ((List.rdropWhile_prefix _ _).length_le).trans (List.dropWhile_suffix _).length_le

theorem bounded_iff : Bounded c ↔ c.buf.length < c.activeSoftLimit := by
  constructor
  · exact fun h => h.buf
  · intro h
    have := length_flush_le c
    exact ⟨h, by omega⟩

theorem bounded_cutSoft_iff (c : SentenceChunker) :
    Bounded (cutSoft c).2 ↔ ¬ OutlastsCut c.softLimitChars c.firstChunkEmitted c.buf := by
  have hlimit (c : SentenceChunker) :
      c.activeSoftLimit = limitOf c.softLimitChars c.firstChunkEmitted := rfl
  rw [bounded_iff, cutSoft, OutlastsCut, hlimit c]
  set splitAt := softSplit c.firstChunkEmitted (limitOf c.softLimitChars c.firstChunkEmitted) c.buf
  by_cases hlong : limitOf c.softLimitChars c.firstChunkEmitted ≤ c.buf.length
  · rw [if_pos hlong]
    dsimp only
    by_cases hseg : PyStr.strip (c.buf.take splitAt) = []
    · rw [if_pos hseg, hseg, hlimit]
      simp [hlong]
    · rw [if_neg hseg, hlimit, List.isEmpty_eq_false_iff.mpr hseg]
      simp [hlong]
  · rw [if_neg hlong, hlimit]
    simp [hlong]
    omega

theorem firstSoftLimit_le {softLimitChars : Nat} (h : 20 ≤ softLimitChars) (emitted : Bool) :
    firstSoftLimitChars ≤ limitOf softLimitChars emitted := by
  cases emitted with
  | false => exact Nat.le_refl _
  | true =>
    change 12 ≤ softLimitChars
    omega

theorem limitOf_mono {softLimitChars : Nat} (h : 20 ≤ softLimitChars) {emitted emitted' : Bool}
    (hmono : emitted = true → emitted' = true) :
    limitOf softLimitChars emitted ≤ limitOf softLimitChars emitted' := by
  cases emitted with
  | false => exact firstSoftLimit_le h emitted'
  | true => rw [hmono rfl]

theorem unpunctuated_suffix (emitted : Bool) (text : PyStr) :
    (unpunctuated emitted text).2 <:+ text ∧ (emitted = true → (unpunctuated emitted text).1 = true) := by
  unfold unpunctuated
  split
  · exact ⟨List.drop_suffix _ _, fun _ => rfl⟩
  · rename_i hemitted
    refine ⟨?_, fun h => absurd h hemitted⟩
    split
    · exact List.suffix_refl _
    · exact (List.drop_suffix _ _).trans (List.drop_suffix _ _)

/-- A push keeps the bound unless the unpunctuated text outlasts its one soft cut. -/
theorem bounded_push_iff (hsoft : 20 ≤ c.softLimitChars) (hbounded : Bounded c) :
    Bounded (push c delta).2 ↔ ¬ Overlong c delta := by
  by_cases hdelta : delta = []
  · -- nothing new: the text is shorter than the limit it is measured by
    subst hdelta
    have hpush : (push c []).2 = c := rfl
    rw [hpush]
    simp only [hbounded, true_iff]
    intro hoverlong
    obtain ⟨hsuffix, hemitted⟩ := unpunctuated_suffix c.firstChunkEmitted (c.buf ++ [])
    have hle := hsuffix.length_le
    have hlimit := limitOf_mono hsoft hemitted
    have hlong : limitOf c.softLimitChars (unpunctuated c.firstChunkEmitted (c.buf ++ [])).1 ≤
        (unpunctuated c.firstChunkEmitted (c.buf ++ [])).2.length := hoverlong.1
    have hshort : c.buf.length < limitOf c.softLimitChars c.firstChunkEmitted := hbounded.buf
    rw [List.append_nil] at hle hlimit hlong
    omega
  · have hcut := cutPunctuation_eq { c with buf := c.buf ++ delta }
    rw [push, if_neg hdelta]
    dsimp only
    rw [hcut]
    exact bounded_cutSoft_iff _

def pushText (c : SentenceChunker) (delta : PyStr) : SentenceChunker := (push c delta).2

theorem softLimitChars_push (c : SentenceChunker) (delta : PyStr) :
    (push c delta).2.softLimitChars = c.softLimitChars := by
  by_cases hdelta : delta = []
  · rw [push, if_pos hdelta]
  · rw [push, if_neg hdelta]
    dsimp only
    rw [cutPunctuation_eq, cutSoft]
    split
    · dsimp only
      split <;> rfl
    · rfl

theorem bounded_init (softLimitChars : Int) : Bounded (init softLimitChars) :=
  bounded_iff.mpr (by decide : 0 < 12)

/-- Pushing deltas one after the other, the text still buffered is always shorter than the
active soft limit, and so is what `flush` would return, if and only if no delta
leaves an unpunctuated text that outlasts the one soft cut of its push. -/
theorem never_hoards_iff (softLimitChars : Int) (deltas : List PyStr) :
    (∀ before, before <+: deltas → Bounded (before.foldl pushText (init softLimitChars))) ↔
      ∀ before delta, before ++ [delta] <+: deltas →
        ¬ Overlong (before.foldl pushText (init softLimitChars)) delta := by
  have hsoft : 20 ≤ (init softLimitChars).softLimitChars := by
    change 20 ≤ (max 20 softLimitChars).toNat
    omega
  apply always_iff_no_bad (I := fun c => 20 ≤ c.softLimitChars) _ _ deltas hsoft
    (bounded_init softLimitChars)
  · intro c delta hc
    rw [pushText, softLimitChars_push]
    exact hc
  · exact fun hc hbounded => bounded_push_iff hc hbounded

/-- One delta of forty letters leaves 28 of them in the buffer, at a limit of 20. -/
theorem not_never_hoards : ¬ ∀ (softLimitChars : Int) (deltas : List PyStr), ∀ before,
    before <+: deltas → Bounded (before.foldl pushText (init softLimitChars)) := by
  intro h
  have hbuf := (h 20 [List.replicate 40 0x61] [List.replicate 40 0x61] (List.prefix_refl _)).buf
  exact absurd hbuf (by decide)

end SentenceChunker

end VirtualPerson
