import VirtualPerson.Ws.ProtocolV2

/-!
# Barging in on a streamed turn

`token.cancel()` may come at any point of `run`. The token is looked at before each fragment and
before each synthesis, and only the look before a fragment sends a `turn_interrupt`.
-/

namespace VirtualPerson

set_option autoImplicit false

namespace StreamingTurnOrchestrator

def isTurnInterrupt : ProtocolEvent → Bool
  | .turnInterrupt _ => true
  | _ => false

/-- No `chat_partial`, `audio_chunk` or `viseme_chunk` is started. -/
def Silent (tr : List OrchestratorSig.Event) : Prop := ∀ e ∈ sends tr, isTurnInterrupt e = true

def interrupts (tr : List OrchestratorSig.Event) : Nat := (sends tr).countP isTurnInterrupt

def isNext : OrchestratorSig.Event → Bool
  | ⟨.next, _⟩ => true
  | _ => false

/-- How often the stream was waited for. -/
def waits (tr : List OrchestratorSig.Event) : Nat := tr.countP isNext

/-- `token.cancel()` is called once the operations of `before` have begun; the last of them may
still be under way. -/
structure CancelledAt (before after : List OrchestratorSig.Event) : Prop where
  live : ∀ ev ∈ before, TokenReads false ev
  late : ∀ ev ∈ after, TokenReads true ev

/-- The cancellation silences the turn, and the client is told of it once. -/
structure Silenced (before after : List OrchestratorSig.Event) : Prop where
  silent : Silent after
  told : interrupts (before ++ after) = 1

/-- The operation under way leads to a chunk that is started without another look at the token: a look
that lets one through, a synthesis that succeeds, or an `audio_chunk` before its `viseme_chunk`. -/
def Committed : OrchestratorSig.Event → List OrchestratorSig.Event → Prop
  | ⟨.cancelled, _⟩, ⟨.send _, _⟩ :: _ => True
  | ⟨.cancelled, _⟩, ⟨.synthesize _, .ok _⟩ :: _ => True
  | ⟨.synthesize _, .ok _⟩, _ => True
  | ⟨.send (.audioChunk _ _ _ _), _⟩, _ => True
  | _, _ => False

/-- The cancellation is in time: no chunk follows from what is under way, and a fragment is still to
come that `run` looks at the token for. -/
structure InTime (fragments : List PyStr) (before after : List OrchestratorSig.Event) : Prop where
  free : ∀ ev ∈ before.getLast?, ¬ Committed ev after
  -- without the operation under way, which may be the wait itself
  awaited : waits before.dropLast < fragments.length

section Lists

variable {tr tr' : List OrchestratorSig.Event}

theorem silent_append : Silent (tr ++ tr') ↔ Silent tr ∧ Silent tr' := by
  rw [Silent, sends_append, List.forall_mem_append]
  rfl

theorem interrupts_append (tr tr' : List OrchestratorSig.Event) :
    interrupts (tr ++ tr') = interrupts tr + interrupts tr' := by
  rw [interrupts, sends_append, List.countP_append]
  rfl

theorem waits_append (tr tr' : List OrchestratorSig.Event) :
    waits (tr ++ tr') = waits tr + waits tr' := List.countP_append

theorem silent_of_sends (h : sends tr = []) : Silent tr := by
  rw [Silent, h]
  nofun

theorem interrupts_of_sends (h : sends tr = []) : interrupts tr = 0 := by
  rw [interrupts, h]
  rfl

end Lists

section OnSpeech

variable (um : UpperMap) (wavMs : Nat → Int)

/-- The part of `_synthesize_and_send` after the synthesis. -/
def onSpeech (seq timeOffsetMs : Int) (isLast : Bool) :
    Except PyExc (List UInt8 × List PhonemeStamp) → OrchestratorM Int
  | .error e => if e.isException then .ret timeOffsetMs else .raise e
  | .ok (audio, phonemes) => do
    let mime ← Prog.lift (detectMime audio)
    send (makeAudioChunk audio seq mime isLast)
    send (makeVisemeChunk (LipSync.buildVisemeTimeline um phonemes (35 / 100)) seq timeOffsetMs)
    return timeOffsetMs + estimateDurationMs wavMs audio mime

theorem synthesizeAndSend_eq (text : PyStr) (seq timeOffsetMs : Int) (isLast : Bool) :
    synthesizeAndSend um wavMs text seq timeOffsetMs isLast = .op .cancelled fun (b : Bool) =>
      if b then .ret timeOffsetMs
      else .op (.synthesize text) (onSpeech um wavMs seq timeOffsetMs isLast) := rfl

/-- What is sent for an answer, in a run that returns. -/
inductive Answered :
    Except PyExc (List UInt8 × List PhonemeStamp) → List OrchestratorSig.Event → Prop where
  | failed (e : PyExc) : Answered (.error e) []
  | spoken (result : List UInt8 × List PhonemeStamp) (seq offset : Int) (mime chunk : PyStr)
      (isLast : Bool) (timeline : List VisemeFrame) : Answered (.ok result)
      [⟨.send (.audioChunk seq mime isLast chunk), .ok ()⟩,
        ⟨.send (.visemeChunk seq offset timeline), .ok ()⟩]

variable {um wavMs}

theorem meets_onSpeech {fair : OrchestratorSig.Event → Prop} (seq offset : Int) (isLast : Bool)
    (ans : Except PyExc (List UInt8 × List PhonemeStamp)) :
    Prog.Meets fair (fun _ tr => Answered ans tr) (fun _ _ => True)
      (onSpeech um wavMs seq offset isLast ans) := by
  cases ans with
  | error e =>
    rw [onSpeech]
    split
    · exact Prog.meets_ret (.failed e)
    · exact Prog.meets_raise trivial
  | ok result =>
    obtain ⟨audio, phonemes⟩ := result
    rw [onSpeech]
    cases detectMime audio with
    | error e => exact Prog.meets_raise trivial
    | ok mime =>
      apply meets_send fun _ => trivial
      apply meets_send fun _ => trivial
      exact Prog.meets_ret (.spoken _ _ _ _ _ _ _)

end OnSpeech

section Late

variable {um : UpperMap} {wavMs : Nat → Int}

/-- Returning runs in which every look finds the token cancelled. -/
abbrev Late {α : Type} (Q : α → List OrchestratorSig.Event → Prop) (prog : OrchestratorM α) : Prop :=
  Prog.Meets (TokenReads true) Q (fun _ _ => True) prog

/-- What a cancelled turn sends that still waits for these fragments. -/
def bargeIn (fragments : List PyStr) : List ProtocolEvent :=
  if fragments = [] then [] else [makeTurnInterrupt "user_barge_in"]

theorem late_synthesizeAndSend (text : PyStr) (seq offset : Int) (isLast : Bool) :
    Late (fun _ tr => tr = [⟨.cancelled, true⟩])
      (synthesizeAndSend um wavMs text seq offset isLast) := by
  apply meets_look
  exact Prog.meets_ret rfl

/-- Past the look at its fragment the `chat_partial` is sent, and nothing else. -/
theorem late_onFragment (p : Progress) (fragment : PyStr) :
    Late (fun _ tr => ∃ tail, tr = ⟨.send (makeChatPartial fragment (p.seq + 1)), .ok ()⟩ :: tail ∧
      sends tail = []) (onFragment um wavMs p fragment) := by
  apply meets_send fun _ => trivial
  by_cases hboundary : isSentenceBoundary (p.buffer ++ fragment) = true
  · rw [if_pos hboundary, if_neg (solid_boundary hboundary)]
    apply (late_synthesizeAndSend _ (p.seq + 1) p.offset false).bind
    rintro offset before rfl
    exact Prog.meets_ret ⟨_, rfl, rfl⟩
  · rw [if_neg hboundary]
    exact Prog.meets_ret ⟨_, rfl, rfl⟩

theorem late_consume (p : Progress) (fragments : List PyStr) :
    Late (fun _ tr => sends tr = bargeIn fragments) (consume um wavMs p fragments) := by
  cases fragments with
  | nil =>
    apply meets_awaitNext fun _ => trivial
    exact Prog.meets_ret rfl
  | cons fragment fragments =>
    apply meets_awaitNext fun _ => trivial
    apply meets_look
    apply meets_send fun _ => trivial
    exact Prog.meets_ret rfl

theorem late_flushRemainder (p : Progress) :
    Late (fun _ tr => sends tr = []) (flushRemainder um wavMs p) := by
  rw [flushRemainder]
  split
  · exact Prog.meets_ret rfl
  · apply meets_look
    exact Prog.meets_ret rfl

end Late

section Live

variable {um : UpperMap} {wavMs : Nat → Int} {tr tr' : List OrchestratorSig.Event} {m n : Nat}

/-- Exchanges of a turn that goes on: no interrupt is sent, and the stream is waited for `n` times. -/
structure GoesOn (n : Nat) (tr : List OrchestratorSig.Event) : Prop where
  interrupts : interrupts tr = 0
  waits : waits tr = n

theorem GoesOn.append (h : GoesOn m tr) (h' : GoesOn n tr') : GoesOn (m + n) (tr ++ tr') where
  interrupts := by rw [interrupts_append, h.interrupts, h'.interrupts]
  waits := by rw [waits_append, h.waits, h'.waits]

/-- Returning runs in which every look finds the token live. -/
abbrev Live {α : Type} (Q : α → List OrchestratorSig.Event → Prop) (prog : OrchestratorM α) : Prop :=
  Prog.Meets (TokenReads false) Q (fun _ _ => True) prog

theorem live_synthesizeAndSend (text : PyStr) (seq offset : Int) (isLast : Bool) :
    Live (fun _ tr => GoesOn 0 tr) (synthesizeAndSend um wavMs text seq offset isLast) := by
  rw [synthesizeAndSend_eq]
  apply meets_look
  apply Prog.meets_op
  intro ans _
  apply (meets_onSpeech seq offset isLast ans).imp _ (fun _ _ _ => trivial)
  intro _ tr hanswered
  cases hanswered with
  | failed e => exact ⟨rfl, rfl⟩
  | spoken => exact ⟨rfl, rfl⟩

theorem live_onFragment (p : Progress) (fragment : PyStr) :
    Live (fun _ tr => GoesOn 0 tr) (onFragment um wavMs p fragment) := by
  apply meets_send fun _ => trivial
  by_cases hboundary : isSentenceBoundary (p.buffer ++ fragment) = true
  · rw [if_pos hboundary, if_neg (solid_boundary hboundary)]
    apply (live_synthesizeAndSend _ (p.seq + 1) p.offset false).bind
    intro offset before hbefore
    apply Prog.meets_ret
    rw [List.append_nil]
    exact ⟨hbefore.interrupts, hbefore.waits⟩
  · rw [if_neg hboundary]
    exact Prog.meets_ret ⟨rfl, rfl⟩

theorem live_consume (p : Progress) (fragments : List PyStr) :
    Live (fun _ tr => GoesOn (fragments.length + 1) tr) (consume um wavMs p fragments) := by
  induction fragments generalizing p with
  | nil =>
    apply meets_awaitNext fun _ => trivial
    exact Prog.meets_ret ⟨rfl, rfl⟩
  | cons fragment fragments ih =>
    apply meets_awaitNext fun _ => trivial
    apply meets_look
    apply (live_onFragment p fragment).bind
    intro p' before hfirst
    apply (ih p').imp _ (fun _ _ _ => trivial)
    intro p'' after hrest
    have hlook : GoesOn 1 [⟨.next, .ok ()⟩, ⟨.cancelled, false⟩] := ⟨rfl, rfl⟩
    have hall := (hlook.append hfirst).append hrest
    rw [List.length_cons, Nat.add_comm]
    exact hall

end Live

section Cut

variable {um : UpperMap} {wavMs : Nat → Int} {m n : Nat}
variable {front before after tail : List OrchestratorSig.Event} {ev : OrchestratorSig.Event}

/-- The token is cancelled while `ev` is under way, with up to `n` fragments to wait for. Whatever
follows is silent unless `ev` is committed, and an interrupt comes where a fragment does. -/
structure Interruption (n : Nat) (before : List OrchestratorSig.Event) (ev : OrchestratorSig.Event)
    (after : List OrchestratorSig.Event) : Prop where
  unsaid : interrupts (before ++ [ev]) = 0
  silent : ∀ rest, Silent rest → (Silent (after ++ rest) ↔ ¬ Committed ev (after ++ rest))
  told : interrupts after = if waits before < n then 1 else 0

theorem Interruption.of_free (hunsaid : interrupts (before ++ [ev]) = 0) (hsends : sends after = [])
    (hfree : ∀ rest, ¬ Committed ev (after ++ rest)) : Interruption 0 before ev after where
  unsaid := hunsaid
  silent rest hrest := by
    constructor
    · intro _
      exact hfree rest
    · intro _
      exact silent_append.mpr ⟨silent_of_sends hsends, hrest⟩
  told := interrupts_of_sends hsends

theorem Interruption.of_committed (hunsaid : interrupts (before ++ [ev]) = 0)
    (hloud : ¬ Silent after) (hinterrupts : interrupts after = 0)
    (hcommitted : ∀ rest, Committed ev (after ++ rest)) : Interruption 0 before ev after where
  unsaid := hunsaid
  silent rest _ := by
    constructor
    · intro hsilent
      exact absurd (silent_append.mp hsilent).1 hloud
    · intro hfree
      exact absurd (hcommitted rest) hfree
  told := hinterrupts

/-- The exchanges before, seen from further back. -/
theorem Interruption.behind {w : Nat} (h : Interruption n before ev after) (hfront : GoesOn w front)
    (hwaits : ∀ k, w + k < m ↔ k < n) : Interruption m (front ++ before) ev after where
  unsaid := by rw [List.append_assoc, interrupts_append, hfront.interrupts, h.unsaid]
  silent := h.silent
  told := by
    rw [h.told, waits_append, hfront.waits]
    exact if_congr (hwaits _).symm rfl rfl

theorem Interruption.quiet (h : Interruption n before ev after) (htail : sends tail = []) :
    Interruption n before ev (after ++ tail) where
  unsaid := h.unsaid
  silent rest hrest := by
    rw [List.append_assoc]
    exact h.silent _ (silent_append.mpr ⟨silent_of_sends htail, hrest⟩)
  told := by rw [interrupts_append, h.told, interrupts_of_sends htail, Nat.add_zero]

theorem silent_bargeIn {fragments : List PyStr} (htail : sends tail = bargeIn fragments) :
    Silent tail ∧ interrupts tail = if 0 < fragments.length then 1 else 0 := by
  rw [Silent, interrupts, htail, bargeIn]
  cases fragments with
  | nil => exact ⟨nofun, rfl⟩
  | cons fragment fragments =>
    rw [if_neg (List.cons_ne_nil _ _), if_pos (by simp)]
    exact ⟨List.forall_mem_singleton.mpr rfl, rfl⟩

/-- A cancellation within the work on one fragment is noticed at the next. -/
theorem Interruption.noticed {fragments : List PyStr} (h : Interruption 0 before ev after)
    (hbefore : waits before = 0) (htail : sends tail = bargeIn fragments) :
    Interruption fragments.length before ev (after ++ tail) := by
  obtain ⟨hsilent, hinterrupts⟩ := silent_bargeIn htail
  refine ⟨h.unsaid, ?_, ?_⟩
  · intro rest hrest
    rw [List.append_assoc]
    exact h.silent _ (silent_append.mpr ⟨hsilent, hrest⟩)
  · rw [interrupts_append, h.told, hinterrupts, hbefore]
    exact Nat.zero_add _

abbrev Cuts {α : Type} (n : Nat) (prog : OrchestratorM α) : Prop :=
  Prog.Splits (TokenReads false) (TokenReads true) (fun _ => Interruption n) prog

/-- The work on one fragment, during which the stream is not waited for. -/
abbrev CutsWithin {α : Type} (prog : OrchestratorM α) : Prop :=
  Prog.Splits (TokenReads false) (TokenReads true)
    (fun _ before ev after => Interruption 0 before ev after ∧ waits before = 0) prog

theorem not_silent_of_sends {e : ProtocolEvent} {events : List ProtocolEvent}
    (hsends : sends after = e :: events) (he : isTurnInterrupt e = false) : ¬ Silent after := by
  intro hsilent
  have htrue := hsilent e (by rw [hsends]; exact List.mem_cons_self)
  rw [he] at htrue
  cases htrue

section Operations

variable {α : Type} {f : Unit → OrchestratorM α}
variable {Q : α → List OrchestratorSig.Event → OrchestratorSig.Event → List OrchestratorSig.Event → Prop}

/-- The cancellation comes while the operation is under way, or later. -/
theorem splits_look {f : Bool → OrchestratorM α}
    (hnow : Late (fun a after => Q a [] ⟨.cancelled, false⟩ after) (f false))
    (hlater : Prog.Splits (TokenReads false) (TokenReads true)
      (fun a before ev after => Q a (⟨.cancelled, false⟩ :: before) ev after) (f false)) :
    Prog.Splits (TokenReads false) (TokenReads true) Q (cancelled >>= f) := by
  apply Prog.splits_op
  · intro b hb
    cases (show b = false from hb)
    exact hnow
  · intro b hb
    cases (show b = false from hb)
    exact hlater

theorem splits_awaitNext (hnow : Late (fun a after => Q a [] ⟨.next, .ok ()⟩ after) (f ()))
    (hlater : Prog.Splits (TokenReads false) (TokenReads true)
      (fun a before ev after => Q a (⟨.next, .ok ()⟩ :: before) ev after) (f ())) :
    Prog.Splits (TokenReads false) (TokenReads true) Q (awaitNext >>= f) := by
  apply Prog.splits_op
  · intro ans _
    cases ans with
    | error x => exact Prog.meets_raise trivial
    | ok _ => exact hnow
  · intro ans _
    cases ans with
    | error x => exact Prog.splits_raise x
    | ok _ => exact hlater

theorem splits_send {e : ProtocolEvent}
    (hnow : Late (fun a after => Q a [] ⟨.send e, .ok ()⟩ after) (f ()))
    (hlater : Prog.Splits (TokenReads false) (TokenReads true)
      (fun a before ev after => Q a (⟨.send e, .ok ()⟩ :: before) ev after) (f ())) :
    Prog.Splits (TokenReads false) (TokenReads true) Q (send e >>= f) := by
  apply Prog.splits_op
  · intro ans _
    cases ans with
    | error x => exact Prog.meets_raise trivial
    | ok _ => exact hnow
  · intro ans _
    cases ans with
    | error x => exact Prog.splits_raise x
    | ok _ => exact hlater

end Operations

theorem cuts_onSpeech (seq offset : Int) (isLast : Bool)
    (ans : Except PyExc (List UInt8 × List PhonemeStamp)) :
    CutsWithin (onSpeech um wavMs seq offset isLast ans) := by
  cases ans with
  | error e =>
    rw [onSpeech]
    split
    · exact Prog.splits_ret _
    · exact Prog.splits_raise _
  | ok result =>
    obtain ⟨audio, phonemes⟩ := result
    rw [onSpeech]
    cases detectMime audio with
    | error e => exact Prog.splits_raise _
    | ok mime =>
      apply splits_send
      · apply meets_send fun _ => trivial
        apply Prog.meets_ret
        exact ⟨.of_committed rfl (not_silent_of_sends rfl rfl) rfl fun _ => trivial, rfl⟩
      · apply splits_send
        · exact Prog.meets_ret ⟨.of_free rfl rfl fun _ => id, rfl⟩
        · exact Prog.splits_ret _

theorem cuts_synthesizeAndSend (text : PyStr) (seq offset : Int) (isLast : Bool) :
    CutsWithin (synthesizeAndSend um wavMs text seq offset isLast) := by
  rw [synthesizeAndSend_eq]
  apply splits_look
  · -- between the look and the synthesis that it lets through
    apply Prog.meets_op
    intro ans _
    apply (meets_onSpeech seq offset isLast ans).imp _ (fun _ _ _ => trivial)
    intro _ tr hanswered
    cases hanswered with
    | failed e => exact ⟨.of_free rfl rfl fun _ => id, rfl⟩
    | spoken => exact ⟨.of_committed rfl (not_silent_of_sends rfl rfl) rfl fun _ => trivial, rfl⟩
  · apply Prog.splits_op
    · intro ans _
      apply (meets_onSpeech seq offset isLast ans).imp _ (fun _ _ _ => trivial)
      intro _ tr hanswered
      cases hanswered with
      | failed e => exact ⟨.of_free rfl rfl fun _ => id, rfl⟩
      | spoken => exact ⟨.of_committed rfl (not_silent_of_sends rfl rfl) rfl fun _ => trivial, rfl⟩
    · intro ans _
      refine (cuts_onSpeech seq offset isLast ans).imp ?_
      intro _ before ev after h
      have hfront : GoesOn 0 [⟨.cancelled, false⟩, ⟨.synthesize text, ans⟩] := ⟨rfl, rfl⟩
      exact ⟨h.1.behind hfront (by omega), h.2⟩

theorem cuts_onFragment (p : Progress) (fragment : PyStr) :
    CutsWithin (onFragment um wavMs p fragment) := by
  have hfront : GoesOn 0 [⟨.send (makeChatPartial fragment (p.seq + 1)), .ok ()⟩] := ⟨rfl, rfl⟩
  apply splits_send
  · by_cases hboundary : isSentenceBoundary (p.buffer ++ fragment) = true
    · rw [if_pos hboundary, if_neg (solid_boundary hboundary)]
      apply (late_synthesizeAndSend _ (p.seq + 1) p.offset false).bind
      rintro offset before rfl
      exact Prog.meets_ret ⟨.of_free rfl rfl fun _ => id, rfl⟩
    · rw [if_neg hboundary]
      exact Prog.meets_ret ⟨.of_free rfl rfl fun _ => id, rfl⟩
  · by_cases hboundary : isSentenceBoundary (p.buffer ++ fragment) = true
    · rw [if_pos hboundary, if_neg (solid_boundary hboundary)]
      refine Prog.Splits.bind (live_synthesizeAndSend _ (p.seq + 1) p.offset false)
        (cuts_synthesizeAndSend _ (p.seq + 1) p.offset false) ?_ ?_
      · intro offset before ev after h
        apply Prog.meets_ret
        rw [List.append_nil]
        exact ⟨h.1.behind hfront (by omega), h.2⟩
      · intro offset front _
        exact Prog.splits_ret _
    · rw [if_neg hboundary]
      exact Prog.splits_ret _

theorem cuts_consume (p : Progress) (fragments : List PyStr) :
    Cuts fragments.length (consume um wavMs p fragments) := by
  induction fragments generalizing p with
  | nil =>
    apply splits_awaitNext
    · exact Prog.meets_ret (.of_free rfl rfl fun _ => id)
    · exact Prog.splits_ret p
  | cons fragment fragments ih =>
    apply splits_awaitNext
    · -- while the fragment is waited for
      apply meets_look
      apply meets_send fun _ => trivial
      apply Prog.meets_ret
      refine ⟨rfl, fun rest hrest => ?_, rfl⟩
      constructor
      · exact fun _ => id
      · intro _
        exact List.forall_mem_cons.mpr ⟨rfl, hrest⟩
    · apply splits_look
      · -- between the look and the `chat_partial`
        apply (late_onFragment p fragment).bind
        rintro p' _ ⟨tail, rfl, htail⟩
        apply (late_consume p' fragments).imp _ (fun _ _ _ => trivial)
        intro _ rest hrest
        have hcommitted : Interruption 0 [] ⟨.cancelled, false⟩
            (⟨.send (makeChatPartial fragment (p.seq + 1)), .ok ()⟩ :: tail) := by
          refine .of_committed rfl (not_silent_of_sends rfl rfl) ?_ fun _ => trivial
          exact (interrupts_append [_] tail).trans (by rw [interrupts_of_sends htail]; rfl)
        have hfront : GoesOn 1 [⟨.next, .ok ()⟩] := ⟨rfl, rfl⟩
        exact (hcommitted.noticed rfl hrest).behind hfront (by rw [List.length_cons]; omega)
      · refine Prog.Splits.bind (live_onFragment p fragment) (cuts_onFragment p fragment) ?_ ?_
        · intro p' before ev after h
          apply (late_consume p' fragments).imp _ (fun _ _ _ => trivial)
          intro _ rest hrest
          have hfront : GoesOn 1 [⟨.next, .ok ()⟩, ⟨.cancelled, false⟩] := ⟨rfl, rfl⟩
          exact (h.1.noticed h.2 hrest).behind hfront (by rw [List.length_cons]; omega)
        · intro p' front hfirst
          refine (ih p').imp ?_
          intro _ before ev after h
          have hlook : GoesOn 1 [⟨.next, .ok ()⟩, ⟨.cancelled, false⟩] := ⟨rfl, rfl⟩
          exact h.behind (hlook.append hfirst) (by rw [List.length_cons]; omega)

theorem cuts_flushRemainder (p : Progress) : Cuts 0 (flushRemainder um wavMs p) := by
  rw [flushRemainder]
  split
  · exact Prog.splits_ret ()
  · apply splits_look
    · apply (late_synthesizeAndSend _ (p.seq + 1) p.offset true).bind
      rintro offset _ rfl
      exact Prog.meets_ret (.of_free rfl rfl fun _ => id)
    · refine Prog.Splits.bind (live_synthesizeAndSend _ (p.seq + 1) p.offset true)
        (cuts_synthesizeAndSend _ (p.seq + 1) p.offset true) ?_ ?_
      · intro offset before ev after h
        apply Prog.meets_ret
        rw [List.append_nil]
        have hfront : GoesOn 0 [⟨.cancelled, false⟩] := ⟨rfl, rfl⟩
        exact h.1.behind hfront (by omega)
      · intro offset front _
        exact Prog.splits_ret ()

/-- What `run` does inside its `try`. -/
def turn (um : UpperMap) (wavMs : Nat → Int) (seq : Int) (fragments : List PyStr) :
    OrchestratorM PyStr := do
  let p ← consume um wavMs { buffer := [], fullText := [], offset := 0, seq } fragments
  flushRemainder um wavMs p
  return p.fullText

theorem cuts_turn (seq : Int) (fragments : List PyStr) :
    Cuts fragments.length (turn um wavMs seq fragments) := by
  rw [turn]
  refine Prog.Splits.bind (live_consume _ fragments) (cuts_consume _ fragments) ?_ ?_
  · intro p before ev after h
    apply (late_flushRemainder p).bind
    intro _ tail htail
    apply Prog.meets_ret
    rw [List.append_nil]
    exact h.quiet htail
  · intro p front hfront
    have hany : Live (fun _ _ => True) (flushRemainder um wavMs p) := by
      intro _ _ _ _
      exact ⟨fun _ _ => trivial, fun _ _ => trivial⟩
    refine Prog.Splits.bind hany (cuts_flushRemainder p) ?_ ?_
    · intro _ before ev after h
      apply Prog.meets_ret
      rw [List.append_nil]
      exact h.behind hfront (by omega)
    · intro _ _ _
      exact Prog.splits_ret _

theorem late_turn (seq : Int) (fragments : List PyStr) :
    Late (fun _ tr => sends tr = bargeIn fragments) (turn um wavMs seq fragments) := by
  rw [turn]
  apply (late_consume _ fragments).bind
  intro p before hbefore
  apply (late_flushRemainder p).bind
  intro _ after hafter
  apply Prog.meets_ret
  rw [List.append_nil, sends_append, hbefore, hafter, List.append_nil]

/-- A run that returns never comes to the handler, which re-raises. -/
theorem runs_turn {seq : Int} {fragments : List PyStr} {text : PyStr}
    {tr : List OrchestratorSig.Event} (hrun : Prog.Runs (run um wavMs seq fragments) tr (.ok text)) :
    Prog.Runs (turn um wavMs seq fragments) tr (.ok text) := by
  apply Prog.Runs.of_catching hrun
  intro e tr a hraised
  split at hraised
  · obtain ⟨ans, rest, -, hrest⟩ := Prog.runs_op_iff.mp hraised
    cases ans with
    | error e' => cases (Prog.runs_raise_iff.mp hrest).2
    | ok _ => cases (Prog.runs_raise_iff.mp hrest).2
  · cases (Prog.runs_raise_iff.mp hraised).2

theorem Interruption.silenced_iff {fragments : List PyStr}
    (h : Interruption fragments.length before ev after) :
    Silenced (before ++ [ev]) after ↔ InTime fragments (before ++ [ev]) after := by
  have hsilent : Silent after ↔ ¬ Committed ev after := by
    have hnil := h.silent [] nofun
    rwa [List.append_nil] at hnil
  have hsaid : interrupts (before ++ [ev] ++ after) =
      if waits before < fragments.length then 1 else 0 := by
    rw [interrupts_append, h.unsaid, h.told, Nat.zero_add]
  constructor
  · intro hsilenced
    constructor
    · intro ev' hev'
      rw [List.getLast?_concat] at hev'
      cases hev'
      exact hsilent.mp hsilenced.silent
    · rw [List.dropLast_concat]
      by_contra hlate
      have htold := hsilenced.told
      rw [hsaid, if_neg hlate] at htold
      cases htold
  · intro htime
    constructor
    · exact hsilent.mpr (htime.free ev (by rw [List.getLast?_concat]; rfl))
    · have hawaited := htime.awaited
      rw [List.dropLast_concat] at hawaited
      rw [hsaid, if_pos hawaited]

/-- Before `run` starts. -/
theorem silenced_nil_iff {fragments : List PyStr} (hsends : sends after = bargeIn fragments) :
    Silenced [] after ↔ InTime fragments [] after := by
  obtain ⟨hsilent, hinterrupts⟩ := silent_bargeIn hsends
  constructor
  · intro hsilenced
    refine ⟨nofun, ?_⟩
    change 0 < fragments.length
    by_contra hnone
    have htold : interrupts after = 1 := hsilenced.told
    rw [hinterrupts, if_neg hnone] at htold
    cases htold
  · intro htime
    have hcome : 0 < fragments.length := htime.awaited
    refine ⟨hsilent, ?_⟩
    rw [List.nil_append, hinterrupts, if_pos hcome]

end Cut

/-- When the token is cancelled at some point of a turn, no chunk is started any more and exactly one
`turn_interrupt` is sent, if and only if what is under way leads to no chunk and another fragment
comes. -/
theorem run_silenced_iff (um : UpperMap) (wavMs : Nat → Int) (seq : Int) (fragments : List PyStr)
    (before after : List OrchestratorSig.Event) (text : PyStr)
    (hrun : Prog.Runs (run um wavMs seq fragments) (before ++ after) (.ok text))
    (hcancel : CancelledAt before after) :
    Silenced before after ↔ InTime fragments before after := by
  have hturn := runs_turn hrun
  rcases List.eq_nil_or_concat before with rfl | ⟨before, ev, rfl⟩
  · have hsends := (late_turn seq fragments after _ hturn hcancel.late).1 text rfl
    exact silenced_nil_iff hsends
  · rw [List.concat_eq_append] at *
    obtain ⟨hlive, hev⟩ := List.forall_mem_append.mp hcancel.live
    rw [List.append_assoc] at hturn
    have hcut := cuts_turn seq fragments before ev after text hturn hlive
      (List.forall_mem_singleton.mp hev) hcancel.late
    exact hcut.silenced_iff

/-- The user barges in while the second fragment is waited for. -/
theorem run_silenced_hi : Silenced
    [⟨.next, .ok ()⟩, ⟨.cancelled, false⟩, ⟨.send (makeChatPartial (str "Hi") 1), .ok ()⟩,
      ⟨.next, .ok ()⟩]
    [⟨.cancelled, true⟩, ⟨.send (makeTurnInterrupt "user_barge_in"), .ok ()⟩,
      ⟨.cancelled, true⟩] := by
  refine (run_silenced_iff .asciiOnly (fun n => n / 44) 0 [str "Hi", str " Yo"] _ _ (str "Hi")
    ?_ ⟨?_, ?_⟩).mpr ⟨?_, ?_⟩
  · iterate 7 apply Prog.Runs.op
    exact .ret _
  · simp only [List.forall_mem_cons]
    exact ⟨trivial, rfl, trivial, trivial, nofun⟩
  · simp only [List.forall_mem_cons]
    exact ⟨rfl, trivial, rfl, nofun⟩
  · simp [Committed]
  · decide

/-- The user barges in while the service speaks. The chunks are sent all the same, and the client
never learns that the turn is over. -/
theorem run_silenced_fails : ∃ before after : List OrchestratorSig.Event,
    Prog.Runs (run .asciiOnly (fun n => n / 44) 0 [str "Hi!"]) (before ++ after) (.ok (str "Hi!")) ∧
      CancelledAt before after ∧
      before.getLast? = some ⟨.synthesize (str "Hi!"), .ok ([0x49, 0x44], [])⟩ ∧
      (sends after).length = 2 ∧ interrupts (before ++ after) = 0 ∧ ¬ Silenced before after := by
  refine ⟨[⟨.next, .ok ()⟩, ⟨.cancelled, false⟩, ⟨.send (makeChatPartial (str "Hi!") 1), .ok ()⟩,
      ⟨.cancelled, false⟩, ⟨.synthesize (str "Hi!"), .ok ([0x49, 0x44], [])⟩],
    [⟨.send (makeAudioChunk [0x49, 0x44] 1 (str "application/octet-stream") false), .ok ()⟩,
      ⟨.send (makeVisemeChunk (LipSync.buildVisemeTimeline .asciiOnly [] (35 / 100)) 1 0), .ok ()⟩,
      ⟨.next, .ok ()⟩], ?_, ⟨?_, ?_⟩, rfl, rfl, rfl, ?_⟩
  · iterate 8 apply Prog.Runs.op
    exact .ret _
  · simp only [List.forall_mem_cons]
    exact ⟨trivial, rfl, trivial, rfl, trivial, nofun⟩
  · simp only [List.forall_mem_cons]
    exact ⟨trivial, trivial, trivial, nofun⟩
  · intro hsilenced
    have htold : 0 = 1 := hsilenced.told
    cases htold

end StreamingTurnOrchestrator

end VirtualPerson
