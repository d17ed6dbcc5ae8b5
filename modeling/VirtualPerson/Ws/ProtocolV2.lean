import VirtualPerson.Program
import VirtualPerson.Python.Base64
import VirtualPerson.Python.Value
import VirtualPerson.Voice.LipSync

/-!
# Streaming protocol v2

`StreamingTurnOrchestrator`: the fragments of a reply are numbered and sent one by one,
sentences are spoken as they complete, and the audio is scheduled one chunk behind the other.
-/

namespace VirtualPerson

set_option autoImplicit false

/-- The events of the protocol, as the `make_` functions build them. -/
inductive ProtocolEvent where
  | chatPartial (seq : Int) (fragment : PyStr)
  | audioChunk (seq : Int) (mime : PyStr) (isLast : Bool) (chunk : PyStr)
  | visemeChunk (seq : Int) (timeOffsetMs : Int) (timeline : List VisemeFrame)
  | turnInterrupt (reason : PyStr)

def makeChatPartial (textFragment : PyStr) (seq : Int) : ProtocolEvent := .chatPartial seq textFragment

def makeAudioChunk (audio : List UInt8) (seq : Int) (mime : PyStr) (isLast : Bool) : ProtocolEvent :=
  .audioChunk seq mime isLast (Base64.encode audio)

def makeVisemeChunk (timeline : List VisemeFrame) (seq timeOffsetMs : Int) : ProtocolEvent :=
  .visemeChunk seq timeOffsetMs timeline

def makeTurnInterrupt (reason : String) : ProtocolEvent := .turnInterrupt (str reason)

def PyExc.indexError : PyExc := .builtin "IndexError"

/-- What a turn asks of its surroundings. Each wait may be answered by an exception. -/
inductive OrchestratorOp where
  /-- the wait for the next fragment, or for the end of the stream -/
  | next
  /-- a look at `token.cancelled` -/
  | cancelled
  | send (e : ProtocolEvent)
  | synthesize (text : PyStr)

def OrchestratorOp.Ans : OrchestratorOp → Type
  | .next => Except PyExc Unit
  | .cancelled => Bool
  | .send _ => Except PyExc Unit
  | .synthesize _ => Except PyExc (List UInt8 × List PhonemeStamp)

abbrev OrchestratorSig : Sig := ⟨OrchestratorOp, OrchestratorOp.Ans⟩

abbrev OrchestratorM := Prog OrchestratorSig PyExc

namespace StreamingTurnOrchestrator

def sentenceEnds : PyStr := str ".!?。！？"

/-- `_is_sentence_boundary` -/
def isSentenceBoundary (text : PyStr) : Bool :=
  match (text.rdropWhile isSpace).getLast? with
  | none => false
  | some c => sentenceEnds.elem c

/-- `audio_bytes[0] == 0xFF and (audio_bytes[1] & 0xE0) == 0xE0` -/
def frameSync : List UInt8 → Except PyExc Bool
  | [] => .error .indexError
  | [first] => if first = 0xFF then .error .indexError else .ok false
  | first :: second :: _ => .ok (first == 0xFF && second &&& 0xE0 == 0xE0)

/-- `_detect_mime` -/
def detectMime (audio : List UInt8) : Except PyExc PyStr :=
  if audio = [] then .ok (str "audio/wav")
  else
    let magic := audio.take 4
    if magic.take 3 = [0x49, 0x44, 0x33] then .ok (str "audio/mpeg")
    else
      match frameSync audio with
      | .error e => .error e
      | .ok true => .ok (str "audio/mpeg")
      | .ok false =>
        if magic = [0x52, 0x49, 0x46, 0x46] then .ok (str "audio/wav")
        else if magic = [0x4F, 0x67, 0x67, 0x53] then .ok (str "audio/ogg")
        else .ok (str "application/octet-stream")

section Run

variable (um : UpperMap)
/- `int(n / 2 / 22050 * 1000)`, which is computed in floating point -/
variable (wavMs : Nat → Int)

/-- `_estimate_duration_ms` -/
def estimateDurationMs (audio : List UInt8) (mime : PyStr) : Int :=
  if audio = [] then 0
  else if mime = str "audio/mpeg" then audio.length * 8 / 128
  else if mime = str "audio/wav" then wavMs (audio.length - 44)
  else audio.length / 32

def awaitNext : OrchestratorM Unit := .op .next fun (ans : Except PyExc Unit) => Prog.lift ans

def cancelled : OrchestratorM Bool := .op .cancelled fun (ans : Bool) => .ret ans

def send (e : ProtocolEvent) : OrchestratorM Unit :=
  .op (.send e) fun (ans : Except PyExc Unit) => Prog.lift ans

/-- `_synthesize_and_send`: the new time offset. -/
def synthesizeAndSend (text : PyStr) (seq timeOffsetMs : Int) (isLast : Bool) : OrchestratorM Int := do
  if ← cancelled then return timeOffsetMs
  else
    .op (.synthesize text) fun (ans : Except PyExc (List UInt8 × List PhonemeStamp)) =>
      match ans with
      | .error e => if e.isException then .ret timeOffsetMs else .raise e
      | .ok (audio, phonemes) => do
        let visemes := LipSync.buildVisemeTimeline um phonemes (35 / 100)
        let mime ← Prog.lift (detectMime audio)
        let chunkDurationMs := estimateDurationMs wavMs audio mime
        send (makeAudioChunk audio seq mime isLast)
        send (makeVisemeChunk visemes seq timeOffsetMs)
        return timeOffsetMs + chunkDurationMs

/-- The local variables of `run`, and the counter of its token. -/
structure Progress where
  buffer : PyStr
  fullText : PyStr
  offset : Int
  seq : Int

/-- A fragment as it comes in: numbered, sent, and spoken when it ends a sentence. -/
def onFragment (p : Progress) (fragment : PyStr) : OrchestratorM Progress := do
  let buffer := p.buffer ++ fragment
  let fullText := p.fullText ++ fragment
  let seq := p.seq + 1
  send (makeChatPartial fragment seq)
  if isSentenceBoundary buffer then
    let sentence := PyStr.strip buffer
    if sentence = [] then return { buffer := [], fullText, offset := p.offset, seq }
    else do
      let offset ← synthesizeAndSend um wavMs sentence seq p.offset false
      return { buffer := [], fullText, offset, seq }
  else return { buffer, fullText, offset := p.offset, seq }

/-- `async for fragment in token_stream` -/
def consume (p : Progress) : List PyStr → OrchestratorM Progress
  | [] => do
    awaitNext
    return p
  | fragment :: fragments => do
    awaitNext
    if ← cancelled then
      send (makeTurnInterrupt "user_barge_in")
      return p
    else do
      let p' ← onFragment um wavMs p fragment
      consume p' fragments

/-- What is left in the buffer is spoken at the end. -/
def flushRemainder (p : Progress) : OrchestratorM Unit := do
  if PyStr.strip p.buffer = [] then return ()
  else if ← cancelled then return ()
  else do
    let _ ← synthesizeAndSend um wavMs (PyStr.strip p.buffer) (p.seq + 1) p.offset true
    return ()

/-- `run` on a stream of these fragments, with the token's counter at `seq`. -/
def run (seq : Int) (fragments : List PyStr) : OrchestratorM PyStr :=
  Prog.catching
    (do
      let p ← consume um wavMs { buffer := [], fullText := [], offset := 0, seq } fragments
      flushRemainder um wavMs p
      return p.fullText)
    fun e =>
      if e.name = str "CancelledError" then do
        send (makeTurnInterrupt "cancelled")
        .raise e
      else .raise e

end Run

/-- The turn is never cancelled, the sends succeed, and the speech service gives audio whose
type can be read or raises what `except Exception` catches. -/
def Undisturbed : OrchestratorSig.Event → Prop
  | ⟨.next, ans⟩ => ans = .ok ()
  | ⟨.cancelled, ans⟩ => ans = false
  | ⟨.send _, ans⟩ => ans = .ok ()
  | ⟨.synthesize _, .error e⟩ => e.isException = true
  | ⟨.synthesize _, .ok (audio, _)⟩ => audio.length ≠ 1

/-- A look at `token.cancelled` finds it at `flag`. -/
def TokenReads (flag : Bool) : OrchestratorSig.Event → Prop
  | ⟨.cancelled, ans⟩ => ans = flag
  | _ => True

def sent : OrchestratorSig.Event → Option ProtocolEvent
  | ⟨.send e, _⟩ => some e
  | _ => none

def sends (tr : List OrchestratorSig.Event) : List ProtocolEvent := tr.filterMap sent

def synthesized : OrchestratorSig.Event → Option PyStr
  | ⟨.synthesize text, _⟩ => some text
  | _ => none

/-- The texts given to the speech service. -/
def spokenTexts (tr : List OrchestratorSig.Event) : List PyStr := tr.filterMap synthesized

def fragmentOf : ProtocolEvent → Option (Int × PyStr)
  | .chatPartial seq fragment => some (seq, fragment)
  | _ => none

def audioSeq : ProtocolEvent → Option Int
  | .audioChunk seq _ _ _ => some seq
  | _ => none

/-- The fragments, numbered from `seq + 1` on. -/
def numbered (seq : Int) : List PyStr → List (Int × PyStr)
  | [] => []
  | fragment :: fragments => (seq + 1, fragment) :: numbered (seq + 1) fragments

section Schedule

variable (wavMs : Nat → Int)

/-- `_estimate_duration_ms` of an audio chunk as it was sent; the other events take no time. -/
def playTime : ProtocolEvent → Int
  | .audioChunk _ mime _ chunk => estimateDurationMs wavMs ((Base64.decode chunk).getD []) mime
  | _ => 0

/-- The events keep the numbering and the schedule of a turn. A viseme chunk starts when the audio
sent before its own has played. -/
structure InStep (seq : Int) (fragments : List PyStr) (events : List ProtocolEvent) : Prop where
  partials : events.filterMap fragmentOf = numbered seq fragments
  paired : ∀ before after s mime isLast chunk,
    events = before ++ .audioChunk s mime isLast chunk :: after →
    ∃ offset timeline rest, after = .visemeChunk s offset timeline :: rest
  scheduled : ∀ before after s offset timeline,
    events = before ++ .visemeChunk s offset timeline :: after →
    ∃ front mime isLast chunk, before = front ++ [.audioChunk s mime isLast chunk] ∧
      offset = (front.map (playTime wavMs)).sum
  rising : (events.filterMap audioSeq).Pairwise (· < ·)

/-- What is still sent once audio has been numbered up to `low` and plays up to `offset`. -/
inductive Script : (low offset : Int) → List ProtocolEvent → Prop where
  | done (low offset : Int) : Script low offset []
  | text {low offset : Int} {events : List ProtocolEvent} (seq : Int) (fragment : PyStr) :
      Script low offset events → Script low offset (.chatPartial seq fragment :: events)
  | speech {low offset : Int} {events : List ProtocolEvent} (seq : Int) (mime : PyStr)
      (isLast : Bool) (chunk : PyStr) (timeline : List VisemeFrame) : low < seq →
      Script seq (offset + playTime wavMs (.audioChunk seq mime isLast chunk)) events →
      Script low offset
        (.audioChunk seq mime isLast chunk :: .visemeChunk seq offset timeline :: events)

variable {wavMs} {low low' offset : Int} {events : List ProtocolEvent}

theorem Script.mono (h : Script wavMs low' offset events) (hle : low ≤ low') :
    Script wavMs low offset events := by
  induction h with
  | done => exact .done _ _
  | text seq fragment _ ih => exact .text seq fragment (ih hle)
  | speech seq mime isLast chunk timeline hlt hrest _ =>
    exact .speech seq mime isLast chunk timeline (by omega) hrest

theorem Script.paired (h : Script wavMs low offset events) :
    ∀ before after s mime isLast chunk,
      events = before ++ .audioChunk s mime isLast chunk :: after →
      ∃ offset timeline rest, after = .visemeChunk s offset timeline :: rest := by
  induction h with
  | done => simp
  | text seq fragment _ ih =>
    intro before after s mime isLast chunk heq
    cases before with
    | nil => cases heq
    | cons e before =>
      obtain ⟨-, heq⟩ := List.cons.inj heq
      exact ih before after s mime isLast chunk heq
  | speech seq mime isLast chunk timeline _ _ ih =>
    intro before after s mime' isLast' chunk' heq
    cases before with
    | nil =>
      cases heq
      exact ⟨_, timeline, _, rfl⟩
    | cons e before =>
      obtain ⟨-, heq⟩ := List.cons.inj heq
      cases before with
      | nil => cases heq
      | cons e' before =>
        obtain ⟨-, heq⟩ := List.cons.inj heq
        exact ih before after s mime' isLast' chunk' heq

theorem Script.scheduled (h : Script wavMs low offset events) :
    ∀ before after s off timeline,
      events = before ++ .visemeChunk s off timeline :: after →
      ∃ front mime isLast chunk, before = front ++ [.audioChunk s mime isLast chunk] ∧
        off = offset + (front.map (playTime wavMs)).sum := by
  induction h with
  | done => simp
  | text seq fragment _ ih =>
    intro before after s off timeline heq
    cases before with
    | nil => cases heq
    | cons e before =>
      obtain ⟨rfl, hrest⟩ := List.cons.inj heq
      obtain ⟨front, mime, isLast, chunk, rfl, hoff⟩ := ih before after s off timeline hrest
      refine ⟨.chatPartial seq fragment :: front, mime, isLast, chunk, rfl, ?_⟩
      simpa [playTime] using hoff
  | speech seq mime isLast chunk timeline _ _ ih =>
    intro before after s off timeline' heq
    cases before with
    | nil => cases heq
    | cons e before =>
      obtain ⟨rfl, htail⟩ := List.cons.inj heq
      cases before with
      | nil =>
        cases htail
        exact ⟨[], mime, isLast, chunk, rfl, by simp⟩
      | cons e' before =>
        obtain ⟨rfl, hrest⟩ := List.cons.inj htail
        obtain ⟨front, mime', isLast', chunk', rfl, hoff⟩ := ih before after s off timeline' hrest
        refine ⟨_ :: _ :: front, mime', isLast', chunk', rfl, ?_⟩
        rw [hoff, List.map_cons, List.map_cons, List.sum_cons, List.sum_cons]
        change _ = _ + (_ + (0 + _))
        ring

theorem Script.rising (h : Script wavMs low offset events) :
    (events.filterMap audioSeq).Pairwise (· < ·) ∧ ∀ s ∈ events.filterMap audioSeq, low < s := by
  induction h with
  | done => exact ⟨.nil, nofun⟩
  | text seq fragment _ ih => exact ih
  | speech seq mime isLast chunk timeline hlt _ ih =>
    obtain ⟨hpair, hlow⟩ := ih
    change List.Pairwise (· < ·) (seq :: _) ∧ ∀ s ∈ seq :: _, _
    refine ⟨List.pairwise_cons.mpr ⟨hlow, hpair⟩, ?_⟩
    intro s hs
    rcases List.mem_cons.mp hs with rfl | hs
    · exact hlt
    · exact hlt.trans (hlow s hs)

end Schedule

section Operations

variable {α : Type} {flag : Bool} {fair : OrchestratorSig.Event → Prop} {e : ProtocolEvent}
variable {ok : α → List OrchestratorSig.Event → Prop} {exc : PyExc → List OrchestratorSig.Event → Prop}

theorem meets_look {f : Bool → OrchestratorM α}
    (h : Prog.Meets (TokenReads flag) (fun a tr => ok a (⟨.cancelled, flag⟩ :: tr))
      (fun x tr => exc x (⟨.cancelled, flag⟩ :: tr)) (f flag)) :
    Prog.Meets (TokenReads flag) ok exc (cancelled >>= f) := by
  apply Prog.meets_op
  intro b hb
  cases (show b = flag from hb)
  exact h

theorem meets_awaitNext {f : Unit → OrchestratorM α} (hraise : ∀ x, exc x [⟨.next, .error x⟩])
    (hnext : Prog.Meets fair (fun a tr => ok a (⟨.next, .ok ()⟩ :: tr))
      (fun x tr => exc x (⟨.next, .ok ()⟩ :: tr)) (f ())) :
    Prog.Meets fair ok exc (awaitNext >>= f) := by
  apply Prog.meets_op
  intro ans _
  cases ans with
  | error x => exact Prog.meets_raise (hraise x)
  | ok _ => exact hnext

theorem meets_send {f : Unit → OrchestratorM α} (hraise : ∀ x, exc x [⟨.send e, .error x⟩])
    (hsent : Prog.Meets fair (fun a tr => ok a (⟨.send e, .ok ()⟩ :: tr))
      (fun x tr => exc x (⟨.send e, .ok ()⟩ :: tr)) (f ())) :
    Prog.Meets fair ok exc (send e >>= f) := by
  apply Prog.meets_op
  intro ans _
  cases ans with
  | error x => exact Prog.meets_raise (hraise x)
  | ok _ => exact hsent

section Undisturbed

variable {Q : α → List OrchestratorSig.Event → Prop} {f : Unit → OrchestratorM α}

theorem yields_look {f : Bool → OrchestratorM α}
    (h : Prog.Yields Undisturbed (fun a tr => Q a (⟨.cancelled, false⟩ :: tr)) (f false)) :
    Prog.Yields Undisturbed Q (cancelled >>= f) := by
  apply Prog.yields_op
  intro b hb
  cases (show b = false from hb)
  exact h

theorem yields_awaitNext
    (h : Prog.Yields Undisturbed (fun a tr => Q a (⟨.next, .ok ()⟩ :: tr)) (f ())) :
    Prog.Yields Undisturbed Q (awaitNext >>= f) := by
  apply Prog.yields_op
  intro ans hans
  cases (show ans = .ok () from hans)
  exact h

theorem yields_send
    (h : Prog.Yields Undisturbed (fun a tr => Q a (⟨.send e, .ok ()⟩ :: tr)) (f ())) :
    Prog.Yields Undisturbed Q (send e >>= f) := by
  apply Prog.yields_op
  intro ans hans
  cases (show ans = .ok () from hans)
  exact h

end Undisturbed

end Operations

section Steps

variable {um : UpperMap} {wavMs : Nat → Int} {p p' p'' : Progress} {fragment : PyStr}
variable {fragments fragments' : List PyStr} {tr tr' : List OrchestratorSig.Event}

theorem detectMime_ok {audio : List UInt8} (h : audio.length ≠ 1) :
    ∃ mime, detectMime audio = .ok mime := by
  match audio with
  | [] => exact ⟨_, rfl⟩
  | [a] => exact absurd rfl h
  | a :: b :: rest =>
    unfold detectMime
    rw [if_neg (List.cons_ne_nil _ _)]
    dsimp only [frameSync]
    split_ifs
    · exact ⟨_, rfl⟩
    all_goals cases a == 0xFF && b &&& 0xE0 == 0xE0 <;> exact ⟨_, rfl⟩

theorem solid_boundary {text : PyStr} (h : isSentenceBoundary text = true) : PyStr.strip text ≠ [] := by
  intro hblank
  have hsolid := PyStr.strip_eq_nil_iff.mp hblank
  have hnil : text.rdropWhile isSpace = [] := by
    rw [List.rdropWhile_eq_nil_iff]
    exact PyStr.solid_eq_nil_iff.mp hsolid
  rw [isSentenceBoundary, hnil] at h
  cases h

theorem sends_append (tr tr' : List OrchestratorSig.Event) : sends (tr ++ tr') = sends tr ++ sends tr' :=
  List.filterMap_append

theorem spokenTexts_append (tr tr' : List OrchestratorSig.Event) :
    spokenTexts (tr ++ tr') = spokenTexts tr ++ spokenTexts tr' := List.filterMap_append

theorem numbered_append (seq : Int) (fragments fragments' : List PyStr) :
    numbered seq (fragments ++ fragments') =
      numbered seq fragments ++ numbered (seq + fragments.length) fragments' := by
  induction fragments generalizing seq with
  | nil => simp [numbered]
  | cons fragment fragments ih =>
    rw [List.cons_append, numbered, ih, numbered, List.cons_append, List.length_cons]
    congr 3
    push_cast
    ring

/-- What one synthesis sends, whether it succeeds or fails. -/
structure Speaks (wavMs : Nat → Int) (text : PyStr) (seq offset offset' : Int)
    (tr : List OrchestratorSig.Event) : Prop where
  partials : (sends tr).filterMap fragmentOf = []
  spoken : spokenTexts tr = [text]
  script : ∀ low events, low < seq → Script wavMs seq offset' events →
    Script wavMs low offset (sends tr ++ events)

/-- How far a turn has come after more fragments. -/
structure Advances (wavMs : Nat → Int) (p : Progress) (fragments : List PyStr) (p' : Progress)
    (tr : List OrchestratorSig.Event) : Prop where
  fullText : p'.fullText = p.fullText ++ fragments.flatten
  seq : p'.seq = p.seq + fragments.length
  partials : (sends tr).filterMap fragmentOf = numbered p.seq fragments
  spoken : PyStr.solid (spokenTexts tr).flatten ++ PyStr.solid p'.buffer =
    PyStr.solid p.buffer ++ PyStr.solid fragments.flatten
  script : ∀ events, Script wavMs p'.seq p'.offset events →
    Script wavMs p.seq p.offset (sends tr ++ events)

theorem Advances.trans (h : Advances wavMs p fragments p' tr)
    (h' : Advances wavMs p' fragments' p'' tr') :
    Advances wavMs p (fragments ++ fragments') p'' (tr ++ tr') where
  fullText := by rw [h'.fullText, h.fullText, List.flatten_append, List.append_assoc]
  seq := by
    rw [h'.seq, h.seq, List.length_append]
    push_cast
    ring
  partials := by
    rw [sends_append, List.filterMap_append, h.partials, h'.partials, numbered_append, h.seq]
  spoken := by
    rw [spokenTexts_append, List.flatten_append, PyStr.solid_append, List.append_assoc, h'.spoken,
      ← List.append_assoc, h.spoken, List.flatten_append, PyStr.solid_append, List.append_assoc]
  script events hevents := by
    rw [sends_append, List.append_assoc]
    exact h.script _ (h'.script events hevents)

/-- Exchanges that send nothing and speak nothing. -/
theorem Advances.quiet (hsends : sends tr = []) (hspoken : spokenTexts tr = []) :
    Advances wavMs p [] p tr where
  fullText := by simp
  seq := by simp
  partials := by rw [hsends]; rfl
  spoken := by rw [hspoken]; simp
  script events hevents := by rw [hsends]; exact hevents

theorem yields_synthesizeAndSend (text : PyStr) (seq offset : Int) (isLast : Bool) :
    Prog.Yields Undisturbed (fun offset' tr => Speaks wavMs text seq offset offset' tr)
      (synthesizeAndSend um wavMs text seq offset isLast) := by
  apply yields_look
  apply Prog.yields_op
  intro ans hans
  cases ans with
  | error e =>
    have hexc : e.isException = true := hans
    dsimp only
    rw [if_pos hexc]
    apply Prog.yields_ret
    exact ⟨rfl, rfl, fun low events hlow hevents => hevents.mono hlow.le⟩
  | ok result =>
    obtain ⟨audio, phonemes⟩ := result
    obtain ⟨mime, hmime⟩ := detectMime_ok (show audio.length ≠ 1 from hans)
    dsimp only
    rw [hmime]
    apply yields_send
    apply yields_send
    apply Prog.yields_ret
    refine ⟨rfl, rfl, fun low events hlow hevents => ?_⟩
    have htime : playTime wavMs (makeAudioChunk audio seq mime isLast) =
        estimateDurationMs wavMs audio mime := by
      rw [makeAudioChunk, playTime, Base64.decode_encode]
      rfl
    rw [← htime] at hevents
    exact .speech seq mime isLast _ _ hlow hevents

theorem yields_onFragment (p : Progress) (fragment : PyStr) :
    Prog.Yields Undisturbed (fun p' tr => Advances wavMs p [fragment] p' tr)
      (onFragment um wavMs p fragment) := by
  apply yields_send
  have hnumber : numbered p.seq [fragment] = [(p.seq + 1, fragment)] := rfl
  by_cases hboundary : isSentenceBoundary (p.buffer ++ fragment) = true
  · rw [if_pos hboundary, if_neg (solid_boundary hboundary)]
    apply (yields_synthesizeAndSend _ (p.seq + 1) p.offset false).bind
    intro offset before hspeaks
    apply Prog.yields_ret
    constructor
    · simp
    · simp
    · rw [hnumber, List.append_nil]
      exact congrArg (List.cons (p.seq + 1, fragment)) hspeaks.partials
    · have hspoken : spokenTexts (before ++ []) = [PyStr.strip (p.buffer ++ fragment)] := by
        rw [List.append_nil, hspeaks.spoken]
      change PyStr.solid (spokenTexts (before ++ [])).flatten ++ _ = _
      rw [hspoken]
      simp
    · intro events hevents
      rw [List.append_nil]
      have hlow : p.seq < p.seq + 1 := by omega
      exact .text _ _ (hspeaks.script p.seq events hlow hevents)
  · rw [if_neg hboundary]
    apply Prog.yields_ret
    constructor
    · simp
    · simp
    · exact hnumber.symm
    · change [] ++ PyStr.solid (p.buffer ++ fragment) = _
      simp
    · intro events hevents
      have hlow : p.seq ≤ p.seq + 1 := by omega
      exact .text _ _ (hevents.mono hlow)

theorem yields_consume (p : Progress) (fragments : List PyStr) :
    Prog.Yields Undisturbed (fun p' tr => Advances wavMs p fragments p' tr)
      (consume um wavMs p fragments) := by
  induction fragments generalizing p with
  | nil =>
    apply yields_awaitNext
    apply Prog.yields_ret
    exact .quiet rfl rfl
  | cons fragment fragments ih =>
    apply yields_awaitNext
    apply yields_look
    apply (yields_onFragment p fragment).bind
    intro p' before hadvances
    apply (ih p').imp
    intro p'' after hrest
    have hquiet : Advances wavMs p [] p [⟨.next, .ok ()⟩, ⟨.cancelled, false⟩] := .quiet rfl rfl
    exact (hquiet.trans hadvances).trans hrest

/-- How a turn ends once its stream is consumed. -/
structure Ends (wavMs : Nat → Int) (p : Progress) (tr : List OrchestratorSig.Event) : Prop where
  partials : (sends tr).filterMap fragmentOf = []
  spoken : PyStr.solid (spokenTexts tr).flatten = PyStr.solid p.buffer
  script : Script wavMs p.seq p.offset (sends tr)

theorem yields_flushRemainder (p : Progress) :
    Prog.Yields Undisturbed (fun _ tr => Ends wavMs p tr) (flushRemainder um wavMs p) := by
  by_cases hblank : PyStr.strip p.buffer = []
  · rw [flushRemainder, if_pos hblank]
    apply Prog.yields_ret
    have hsolid := PyStr.strip_eq_nil_iff.mp hblank
    exact ⟨rfl, by rw [hsolid]; rfl, .done _ _⟩
  · rw [flushRemainder, if_neg hblank]
    apply yields_look
    apply (yields_synthesizeAndSend _ (p.seq + 1) p.offset true).bind
    intro offset before hspeaks
    apply Prog.yields_ret
    constructor
    · rw [List.append_nil]
      exact hspeaks.partials
    · rw [List.append_nil]
      change PyStr.solid (spokenTexts before).flatten = _
      rw [hspeaks.spoken]
      simp
    · have hlow : p.seq < p.seq + 1 := by omega
      have hscript := hspeaks.script p.seq [] hlow (.done _ _)
      rw [List.append_nil] at hscript ⊢
      exact hscript

end Steps

/-- A turn that is never cancelled returns its fragments joined, sends and schedules everything in
step, and gives the speech service the whole text, up to whitespace. -/
theorem run_inStep (um : UpperMap) (wavMs : Nat → Int) (seq : Int) (fragments : List PyStr)
    (tr : List OrchestratorSig.Event) (r : Except PyExc PyStr)
    (hrun : Prog.Runs (run um wavMs seq fragments) tr r) (hfair : ∀ ev ∈ tr, Undisturbed ev) :
    r = .ok fragments.flatten ∧ InStep wavMs seq fragments (sends tr) ∧
      PyStr.solid (spokenTexts tr).flatten = PyStr.solid fragments.flatten := by
  set start : Progress := { buffer := [], fullText := [], offset := 0, seq }
  have hyields : Prog.Yields Undisturbed (fun text tr => text = fragments.flatten ∧
      InStep wavMs seq fragments (sends tr) ∧
      PyStr.solid (spokenTexts tr).flatten = PyStr.solid fragments.flatten)
      (run um wavMs seq fragments) := by
    apply Prog.Yields.catching
    apply (yields_consume start fragments).bind
    intro p before hadvances
    apply (yields_flushRemainder p).bind
    intro _ after hends
    apply Prog.yields_ret
    have hscript : Script wavMs seq 0 (sends (before ++ after)) := by
      rw [sends_append]
      exact hadvances.script _ hends.script
    rw [List.append_nil]
    refine ⟨hadvances.fullText, ⟨?_, hscript.paired, ?_, hscript.rising.1⟩, ?_⟩
    · rw [sends_append, List.filterMap_append, hadvances.partials, hends.partials, List.append_nil]
    · intro front back s offset timeline heq
      obtain ⟨front', mime, isLast, chunk, hfront, hoffset⟩ :=
        hscript.scheduled front back s offset timeline heq
      exact ⟨front', mime, isLast, chunk, hfront, by rw [hoffset, zero_add]⟩
    · rw [spokenTexts_append, List.flatten_append, PyStr.solid_append, hends.spoken, hadvances.spoken]
      rfl
  obtain ⟨text, hr, htext, hrest⟩ := hyields tr r hrun hfair
  exact ⟨by rw [hr, htext], hrest⟩

/-- Every text is spoken as the two bytes `ID`. -/
def twoBytes : (o : OrchestratorSig.Op) → OrchestratorSig.Ans o
  | .next => Except.ok ()
  | .cancelled => false
  | .send _ => Except.ok ()
  | .synthesize _ => Except.ok ([0x49, 0x44], [])

theorem undisturbed_twoBytes (o : OrchestratorSig.Op) : Undisturbed ⟨o, twoBytes o⟩ := by
  cases o with
  | synthesize text =>
    change (2 : Nat) ≠ 1
    decide
  | _ => rfl

theorem run_inStep_hi :
    (Prog.answered twoBytes (run .asciiOnly (fun n => n / 44) 7 [str "Hi", str "! Yo"])).2 =
        .ok (str "Hi! Yo") ∧
      InStep (fun n => n / 44) 7 [str "Hi", str "! Yo"]
        (sends (Prog.answered twoBytes (run .asciiOnly (fun n => n / 44) 7 [str "Hi", str "! Yo"])).1) ∧
      PyStr.solid (spokenTexts (Prog.answered twoBytes
        (run .asciiOnly (fun n => n / 44) 7 [str "Hi", str "! Yo"])).1).flatten =
        PyStr.solid (str "Hi! Yo") :=
  run_inStep .asciiOnly (fun n => n / 44) 7 [str "Hi", str "! Yo"] _ _ (Prog.runs_answered twoBytes _)
    (Prog.forall_mem_answered undisturbed_twoBytes _)

end StreamingTurnOrchestrator

end VirtualPerson
