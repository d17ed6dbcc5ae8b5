import VirtualPerson.Transition

/-!
# The always-on microphone

One session of `startAlwaysOnMic`: the recorder hands over a chunk every 100 ms, and the
tick loop flushes what has come in as a segment. A flush waits once or twice for the bytes
of a blob, and the recorder does not wait with it.
-/

namespace VirtualPerson

set_option autoImplicit false

namespace Client

abbrev Bytes := List UInt8

/-- The Cluster element ID of WebM -/
def cluster : Bytes := [0x1f, 0x43, 0xb6, 0x75]

/-- The bytes before the first Cluster element, all of them where there is none. -/
def extractWebmHeaderPrefix (bytes : Bytes) : Bytes :=
  match (List.range (bytes.length - 3)).find? fun i => (bytes.drop i).take 4 = cluster with
  | some i => bytes.take i
  | none => bytes

inductive Flush where
  /-- None is under way; the tick loop runs. -/
  | idle
  /-- In the first `await blob.arrayBuffer()`; the blob holds these chunks. -/
  | first (read : List Bytes)
  /-- In the second, behind a header. -/
  | second (head : Bytes) (read : List Bytes)
  /-- The tick loop is over. -/
  | ended

/-- How chunks leave `_chunks`. -/
inductive Disposal where
  /-- The payload given to the callback: a header, if one was put in front, and the chunks. -/
  | sent (head : Option Bytes) (chunks : List Bytes)
  | small (head : Option Bytes) (chunks : List Bytes)
  | stopped (chunks : List Bytes)

def Disposal.chunks : Disposal → List Bytes
  | .sent _ chunks => chunks
  | .small _ chunks => chunks
  | .stopped chunks => chunks

structure Mic where
  /-- `_recorder`, `_autoConfig` and `_autoSegmentCallback` are set. -/
  live : Bool
  chunks : List Bytes
  headerPrefix : Option Bytes
  flush : Flush
  /-- All chunks so far, in recording order. -/
  recorded : List Bytes
  disposals : List Disposal

inductive MicEvent where
  | data (chunk : Bytes)
  | flush
  /-- The second blob is made of what is in `_chunks` by then. -/
  | reread
  /-- The bytes are there: `_chunks = []` and the rest of the flush. -/
  | clear
  /-- `arrayBuffer` rejects, or `_recorder.mimeType` finds no recorder. -/
  | throw
  /-- `stopAlwaysOnMic`, by the user or by the recorder's `onstop` -/
  | stop

namespace Mic

def started : Mic :=
  { live := true, chunks := [], headerPrefix := none, flush := .idle, recorded := [], disposals := [] }

def buffer (head : Option Bytes) (read : List Bytes) : Bytes := head.getD [] ++ read.flatten

/-- The end of a flush, from `_chunks = []` on. After a stop there is no callback to call. -/
def finish (minBlobBytes : Nat) (s : Mic) (head : Option Bytes) (read : List Bytes) : Mic :=
  { s with
    chunks := []
    flush := if s.live then .idle else .ended
    disposals :=
      if !s.live then s.disposals
      else if buffer head read = [] ∨ (buffer head read).length < minBlobBytes then
        s.disposals ++ [.small head read]
      else s.disposals ++ [.sent head read] }

def stopped (s : Mic) : Mic :=
  { s with
    live := false
    chunks := []
    flush := match s.flush with
      | .idle => .ended
      | f => f
    disposals := s.disposals ++ [.stopped s.chunks] }

end Mic

/-- One step of the session. The tick loop awaits each flush before it can call the next. -/
inductive MicStep (minBlobBytes : Nat) : Mic → MicEvent → Mic → Prop where
  | data {s : Mic} {chunk : Bytes} (hsize : chunk ≠ []) :
      MicStep minBlobBytes s (.data chunk)
        { s with chunks := s.chunks ++ [chunk], recorded := s.recorded ++ [chunk] }
  | noData {s : Mic} : MicStep minBlobBytes s (.data []) s
  | flush {s : Mic} (hlive : s.live = true) (hflush : s.flush = .idle) (hchunks : s.chunks ≠ []) :
      MicStep minBlobBytes s .flush { s with flush := .first s.chunks }
  | flushNothing {s : Mic} (hlive : s.live = true) (hflush : s.flush = .idle)
      (hchunks : s.chunks = []) : MicStep minBlobBytes s .flush s
  | clearFirst {s : Mic} {read : List Bytes} (hflush : s.flush = .first read)
      (hhead : s.headerPrefix = none) :
      MicStep minBlobBytes s .clear
        ({ s with headerPrefix := some (extractWebmHeaderPrefix read.flatten) }.finish
          minBlobBytes none read)
  | reread {s : Mic} {read : List Bytes} {head : Bytes} (hflush : s.flush = .first read)
      (hhead : s.headerPrefix = some head) (hlive : s.live = true) :
      MicStep minBlobBytes s .reread { s with flush := .second head s.chunks }
  | noRecorder {s : Mic} {read : List Bytes} {head : Bytes} (hflush : s.flush = .first read)
      (hhead : s.headerPrefix = some head) (hstopped : s.live = false) :
      MicStep minBlobBytes s .throw { s with flush := .ended }
  | clearSecond {s : Mic} {read : List Bytes} {head : Bytes} (hflush : s.flush = .second head read) :
      MicStep minBlobBytes s .clear (s.finish minBlobBytes (some head) read)
  | rejectFirst {s : Mic} {read : List Bytes} (hflush : s.flush = .first read) :
      MicStep minBlobBytes s .throw { s with flush := .ended }
  | rejectSecond {s : Mic} {read : List Bytes} {head : Bytes} (hflush : s.flush = .second head read) :
      MicStep minBlobBytes s .throw { s with flush := .ended }
  | stop {s : Mic} : MicStep minBlobBytes s .stop s.stopped

def micSystem (minBlobBytes : Nat) : System Mic MicEvent where
  init s := s = .started
  step := MicStep minBlobBytes

def Mic.kept (s : Mic) : List Bytes := s.disposals.flatMap Disposal.chunks ++ s.chunks

/-- Every recorded chunk stands, in recording order, in one segment, in one discarded whole or in
`_chunks`. -/
structure Mic.Accounted (minBlobBytes : Nat) (s : Mic) : Prop where
  whole : s.recorded = s.kept
  small : ∀ head read, .small head read ∈ s.disposals →
    (Mic.buffer head read).length < minBlobBytes

namespace MicEvent

def Records : MicEvent → Prop
  | .data chunk => chunk ≠ []
  | _ => False

/-- What is in `_chunks` now is in a blob, or gone with the session. -/
def Settles : MicEvent → Prop
  | .flush => True
  | .reread => True
  | .stop => True
  | _ => False

end MicEvent

open MicEvent

/-- Nothing was recorded between the copy of `_chunks` and their clearing. -/
def NothingBetween (es : List MicEvent) : Prop :=
  AllAlong (fun before e => e = .clear → ¬ Since Records Settles before) es

def Flush.read : Flush → Option (List Bytes)
  | .first read => some read
  | .second _ read => some read
  | _ => none

/-- What the flush under way is to take out of `_chunks`: after a stop nothing is left of it. -/
def Mic.base (s : Mic) (read : List Bytes) : List Bytes := if s.live then read else []

/-- Nothing is lost before a chunk comes in too late, and from then on something is. -/
def Balance (s : Mic) (es : List MicEvent) : Prop :=
  (NothingBetween es → s.recorded = s.kept) ∧ (¬ NothingBetween es → s.kept.length < s.recorded.length)

structure MicInv (minBlobBytes : Nat) (s : Mic) (es : List MicEvent) : Prop where
  sized : ∀ c ∈ s.chunks, c ≠ []
  copied : ∀ read, s.flush.read = some read → (read ≠ [] ∧ ∀ c ∈ read, c ≠ []) ∧
    ∃ late, s.chunks = s.base read ++ late ∧ (late ≠ [] ↔ Since Records Settles es)
  small : ∀ head read, .small head read ∈ s.disposals →
    (Mic.buffer head read).length < minBlobBytes
  balance : Balance s es

section Steps

variable {minBlobBytes : Nat} {s t : Mic} {e : MicEvent} {es : List MicEvent} {read late : List Bytes}
  {head : Option Bytes}

theorem nothingBetween_concat (he : e ≠ .clear) : NothingBetween (es ++ [e]) ↔ NothingBetween es := by
  unfold NothingBetween
  rw [allAlong_concat]
  exact and_iff_left fun h => absurd h he

theorem nothingBetween_clear :
    NothingBetween (es ++ [.clear]) ↔ NothingBetween es ∧ ¬ Since Records Settles es := by
  unfold NothingBetween
  rw [allAlong_concat]
  exact and_congr_right fun _ => ⟨fun h => h rfl, fun h _ => h⟩

theorem Balance.keep (h : Balance s es) (he : e ≠ .clear) (new : List Bytes)
    (hkept : t.kept = s.kept ++ new) (hrecorded : t.recorded = s.recorded ++ new) :
    Balance t (es ++ [e]) := by
  unfold Balance
  rw [nothingBetween_concat he, hkept, hrecorded, List.append_left_inj, List.length_append,
    List.length_append, Nat.add_lt_add_iff_right]
  exact h

/-- A clearing takes away what came in late. -/
theorem Balance.clear (h : Balance s es) (hkept : s.kept = t.kept ++ late)
    (hrecorded : t.recorded = s.recorded) (hlate : late ≠ [] ↔ Since Records Settles es) :
    Balance t (es ++ [.clear]) := by
  unfold Balance
  rw [nothingBetween_clear, hrecorded, ← hlate]
  constructor
  · intro ⟨hes, hnone⟩
    rw [h.1 hes, hkept, not_not.mp hnone, List.append_nil]
  · intro hbad
    have hle : t.kept.length + late.length = s.kept.length := by rw [hkept, List.length_append]
    by_cases hes : NothingBetween es
    · have hpos : 0 < late.length := List.length_pos_iff.mpr fun hnil => hbad ⟨hes, not_not.mpr hnil⟩
      rw [h.1 hes]
      omega
    · have := h.2 hes
      omega

theorem kept_stopped (s : Mic) : s.stopped.kept = s.kept := by
  simp [Mic.kept, Mic.stopped, Disposal.chunks]

theorem kept_finish (s : Mic) (head : Option Bytes) (read : List Bytes) :
    (s.finish minBlobBytes head read).kept = s.disposals.flatMap Disposal.chunks ++ s.base read := by
  unfold Mic.kept Mic.finish Mic.base
  cases s.live with
  | false => simp
  | true =>
    by_cases h : Mic.buffer head read = [] ∨ (Mic.buffer head read).length < minBlobBytes
    · simp [h, Disposal.chunks]
    · simp [h, Disposal.chunks]

theorem buffer_ne_nil (hread : read ≠ []) (hsized : ∀ c ∈ read, c ≠ []) :
    Mic.buffer head read ≠ [] := by
  cases read with
  | nil => exact absurd rfl hread
  | cons c read =>
    have := hsized c List.mem_cons_self
    simp [Mic.buffer, this]

theorem small_finish {hd : Option Bytes} {chunks : List Bytes} (hread : read ≠ [])
    (hsized : ∀ c ∈ read, c ≠ [])
    (h : .small hd chunks ∈ (s.finish minBlobBytes head read).disposals) :
    .small hd chunks ∈ s.disposals ∨ (Mic.buffer hd chunks).length < minBlobBytes := by
  simp only [Mic.finish] at h
  split at h
  · exact .inl h
  · split at h
    · rename_i hsmall
      rcases List.mem_append.mp h with h | h
      · exact .inl h
      · cases List.mem_singleton.mp h
        exact .inr (hsmall.resolve_left (buffer_ne_nil hread hsized))
    · rcases List.mem_append.mp h with h | h
      · exact .inl h
      · cases List.mem_singleton.mp h

theorem micInv_started : MicInv minBlobBytes .started [] := by
  constructor
  · exact nofun
  · exact nofun
  · exact nofun
  · exact ⟨fun _ => rfl, fun h => absurd allAlong_nil h⟩

theorem since_skip (hrecords : ¬ e.Records) (hsettles : ¬ e.Settles) :
    Since Records Settles (es ++ [e]) ↔ Since Records Settles es := by
  rw [since_concat]
  simp [hrecords, hsettles]

theorem not_since_settles (hrecords : ¬ e.Records) (hsettles : e.Settles) :
    ¬ Since Records Settles (es ++ [e]) := by
  rw [since_concat]
  simp [hrecords, hsettles]

theorem MicInv.data (h : MicInv minBlobBytes s es) {chunk : Bytes} (hsize : chunk ≠ []) :
    MicInv minBlobBytes
      { s with chunks := s.chunks ++ [chunk], recorded := s.recorded ++ [chunk] }
      (es ++ [.data chunk]) := by
  constructor
  · intro c hc
    rcases List.mem_append.mp hc with hc | hc
    · exact h.sized c hc
    · rw [List.mem_singleton.mp hc]
      exact hsize
  · intro read hread
    obtain ⟨hsized, late, hchunks, -⟩ := h.copied read hread
    refine ⟨hsized, late ++ [chunk], ?_, iff_of_true (by simp) (.mark_last hsize)⟩
    simp only [hchunks, List.append_assoc]
    rfl
  · exact h.small
  · exact h.balance.keep nofun [chunk] (by simp [Mic.kept]) rfl

/-- No flush is under way afterwards, and `_chunks` is what it was. -/
theorem MicInv.rest (h : MicInv minBlobBytes s es) (he : e ≠ .clear) {f : Flush}
    (hf : f.read = none) : MicInv minBlobBytes { s with flush := f } (es ++ [e]) := by
  constructor
  · exact h.sized
  · intro read hread
    cases hf.symm.trans hread
  · exact h.small
  · exact h.balance.keep he [] (List.append_nil _).symm (List.append_nil _).symm

/-- A blob is made of `_chunks`. -/
theorem MicInv.copy (h : MicInv minBlobBytes s es) (he : e ≠ .clear) (hrecords : ¬ e.Records)
    (hsettles : e.Settles) (hlive : s.live = true) (hchunks : s.chunks ≠ []) {f : Flush}
    (hf : f.read = some s.chunks) : MicInv minBlobBytes { s with flush := f } (es ++ [e]) := by
  constructor
  · exact h.sized
  · intro read hread
    cases hf.symm.trans hread
    refine ⟨⟨hchunks, h.sized⟩, [], ?_, iff_of_false (by simp) (not_since_settles hrecords hsettles)⟩
    simp [Mic.base, hlive]
  · exact h.small
  · exact h.balance.keep he [] (List.append_nil _).symm (List.append_nil _).symm

theorem MicInv.finish (h : MicInv minBlobBytes s es) (hread : s.flush.read = some read)
    (p : Option Bytes) :
    MicInv minBlobBytes ({ s with headerPrefix := p }.finish minBlobBytes head read)
      (es ++ [.clear]) := by
  obtain ⟨⟨hne, hsized⟩, late, hchunks, hlate⟩ := h.copied read hread
  constructor
  · exact nofun
  · intro read' hread'
    simp only [Mic.finish] at hread'
    split at hread' <;> cases hread'
  · intro hd chunks hmem
    rcases small_finish hne hsized hmem with hmem | hsmall
    · exact h.small hd chunks hmem
    · exact hsmall
  · refine h.balance.clear ?_ rfl hlate
    rw [kept_finish]
    simp [Mic.kept, Mic.base, hchunks]

theorem MicInv.stopped (h : MicInv minBlobBytes s es) :
    MicInv minBlobBytes s.stopped (es ++ [.stop]) := by
  constructor
  · exact nofun
  · intro read hread
    have hread' : s.flush.read = some read := by
      revert hread
      unfold Mic.stopped
      cases s.flush <;> exact id
    refine ⟨(h.copied read hread').1, [], rfl, ?_⟩
    exact iff_of_false (by simp) (not_since_settles nofun trivial)
  · intro hd chunks hmem
    rcases List.mem_append.mp hmem with hmem | hmem
    · exact h.small hd chunks hmem
    · cases List.mem_singleton.mp hmem
  · exact h.balance.keep nofun [] (by rw [kept_stopped, List.append_nil]) (List.append_nil _).symm

theorem MicInv.noData (h : MicInv minBlobBytes s es) : MicInv minBlobBytes s (es ++ [.data []]) := by
  constructor
  · exact h.sized
  · intro read hread
    obtain ⟨hsized, late, hchunks, hlate⟩ := h.copied read hread
    have hskip : Since Records Settles (es ++ [.data []]) ↔ Since Records Settles es :=
      since_skip (e := .data []) (fun h => h rfl) nofun
    exact ⟨hsized, late, hchunks, hlate.trans hskip.symm⟩
  · exact h.small
  · exact h.balance.keep nofun [] (List.append_nil _).symm (List.append_nil _).symm

theorem MicInv.chunks_ne_nil (h : MicInv minBlobBytes s es) (hlive : s.live = true)
    (hread : s.flush.read = some read) : s.chunks ≠ [] := by
  obtain ⟨⟨hne, -⟩, late, hchunks, -⟩ := h.copied read hread
  rw [hchunks, Mic.base, if_pos hlive]
  exact List.append_ne_nil_of_left_ne_nil hne late

theorem micInv_step (h : MicInv minBlobBytes s es) (hst : MicStep minBlobBytes s e t) :
    MicInv minBlobBytes t (es ++ [e]) := by
  cases hst with
  | data hsize => exact h.data hsize
  | noData => exact h.noData
  | flush hlive hflush hchunks =>
    refine h.copy ?_ ?_ ?_ hlive hchunks rfl
    · exact nofun
    · exact nofun
    · trivial
  | flushNothing hlive hflush hchunks =>
    have hrest := h.rest (e := .flush) (f := s.flush) nofun (by rw [hflush]; rfl)
    exact hrest
  | clearFirst hflush hhead => exact h.finish (by rw [hflush]; rfl) _
  | reread hflush hhead hlive =>
    refine h.copy ?_ ?_ ?_ hlive ?_ rfl
    · exact nofun
    · exact nofun
    · trivial
    · exact h.chunks_ne_nil hlive (by rw [hflush]; rfl)
  | noRecorder hflush hhead hstopped => exact h.rest (e := .throw) nofun rfl
  | clearSecond hflush => exact h.finish (by rw [hflush]; rfl) s.headerPrefix
  | rejectFirst hflush => exact h.rest (e := .throw) nofun rfl
  | rejectSecond hflush => exact h.rest (e := .throw) nofun rfl
  | stop => exact h.stopped

end Steps

/-- Over every run of a session, no chunk is lost exactly when none is recorded between the copy of
`_chunks` that a flush sends and its clearing of `_chunks`. -/
theorem accounted_iff (minBlobBytes : Nat) {s : Mic} {es : List MicEvent}
    (hrun : (micSystem minBlobBytes).Run .started es s) :
    s.Accounted minBlobBytes ↔ NothingBetween es := by
  have h : MicInv minBlobBytes s es :=
    hrun.invariant_labels (I := MicInv minBlobBytes) micInv_step micInv_started
  constructor
  · intro hall
    by_contra hnot
    have hlt := h.balance.2 hnot
    rw [hall.whole] at hlt
    exact Nat.lt_irrefl _ hlt
  · intro hnone
    exact ⟨h.balance.1 hnone, h.small⟩

def quietEvents : List MicEvent :=
  [.data [1], .data [2], .flush, .clear, .data [3], .flush, .reread, .clear, .data [4]]

theorem accounted_iff_quiet : ∃ s, (micSystem 1).Run .started quietEvents s ∧
    (s.Accounted 1 ↔ NothingBetween quietEvents) := by
  have hrun : (micSystem 1).Run .started quietEvents
      { live := true
        chunks := [[4]]
        headerPrefix := some [1, 2]
        flush := .idle
        recorded := [[1], [2], [3], [4]]
        disposals := [.sent none [[1], [2]], .sent (some [1, 2]) [[3]]] } := by
    refine .cons (.data (by simp)) (.cons (.data (by simp)) ?_)
    refine .cons (.flush rfl rfl (by simp [Mic.started])) (.cons (.clearFirst rfl rfl) ?_)
    refine .cons (.data (by simp)) (.cons (.flush rfl rfl (by simp [Mic.finish])) ?_)
    refine .cons (.reread rfl rfl rfl) (.cons (.clearSecond rfl) ?_)
    exact .cons (.data (by simp)) (.nil _)
  exact ⟨_, hrun, accounted_iff 1 hrun⟩

/-- A chunk that comes in while the first flush waits is in no segment and no longer pending. -/
theorem not_accounted :
    ¬ ∀ (minBlobBytes : Nat) (s : Mic) (es : List MicEvent),
      (micSystem minBlobBytes).Run .started es s → s.Accounted minBlobBytes := by
  intro hall
  have hrun : (micSystem 1).Run .started [.data [1], .flush, .data [2], .clear]
      { live := true
        chunks := []
        headerPrefix := some [1]
        flush := .idle
        recorded := [[1], [2]]
        disposals := [.sent none [[1]]] } := by
    refine .cons (.data (by simp)) (.cons (.flush rfl rfl (by simp [Mic.started])) ?_)
    exact .cons (.data (by simp)) (.cons (.clearFirst rfl rfl) (.nil _))
  have h := (hall 1 _ _ hrun).whole
  revert h
  decide

end Client

end VirtualPerson
