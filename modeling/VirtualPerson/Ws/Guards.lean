import VirtualPerson.Chat.OutputSafety
import VirtualPerson.Ws.Observed

/-!
# The echo guards

One handler serves every connection, and keeps one time of the last audio and one last response
for all of them. What they drop is told by what was sent to whom.
-/

namespace VirtualPerson

set_option autoImplicit false

variable {V : Type}

namespace EchoGuards

/-- The guard state of the handler. -/
structure EchoGuard where
  lastAudioSendMs : ℚ
  lastResponseText : PyStr

/-- A `_send_audio_response` that got through. -/
def sendsAudio : ServingEvent V → Bool
  | .turn (.send .audio (.ok _)) => true
  | .turn (.worker (.audio (.ok _))) => true
  | _ => false

/-- The response of a turn, once it is sent. -/
def sendsResponse : ServingEvent V → Option PyStr
  | .turn (.send (.chat response) (.ok _)) => some response
  | _ => none

def EchoGuard.after (g : EchoGuard) (now : ℚ) (e : ServingEvent V) : EchoGuard where
  lastAudioSendMs := if sendsAudio e then now else g.lastAudioSendMs
  lastResponseText := (sendsResponse e).getD g.lastResponseText

/-- What the clock and the guard state answer. -/
def EchoGuard.Answers (g : EchoGuard) (now : ℚ) : ServingEvent V → Prop
  | .call ⟨.monotonicMs, a⟩ => a = .ok now
  | .call ⟨.lastAudioSendMs, a⟩ => a = .ok g.lastAudioSendMs
  | .call ⟨.lastResponseText, a⟩ => a = .ok g.lastResponseText
  | _ => True

/-- The handler with the frames in progress, each on its connection. -/
structure Hub (V : Type) where
  guard : EchoGuard
  clock : ℚ
  conns : List Nat
  serving : List (Serving V)

/-- What happens to a frame, on which connection and when; no event for its arrival. -/
structure Moment (V : Type) where
  frame : Nat
  conn : Nat
  time : ℚ
  event : Option (ServingEvent V)

section System

variable (h : AvatarWebSocketHandler) (cfg : ServerConfig) (rt : ChatRuntime)

/-- The frames of all connections in every order of their steps, under a clock that never goes back. -/
def hubSystem (V : Type) : System (Hub V) (Moment V) where
  init s := s.guard = { lastAudioSendMs := 0, lastResponseText := [] } ∧ s.conns = [] ∧ s.serving = []
  step s l s' :=
    s.clock ≤ l.time ∧ s'.clock = l.time ∧
      (servingSystem h cfg rt V).pool.step s.serving (l.frame, l.event) s'.serving ∧
        match l.event with
        | none => s'.conns = s.conns ++ [l.conn] ∧ s'.guard = s.guard
        | some e =>
          s.conns[l.frame]? = some l.conn ∧ s'.conns = s.conns ∧ s.guard.Answers l.time e ∧
            s'.guard = s.guard.after l.time e

end System

namespace Moment

def audio (m : Moment V) : Bool := m.event.any sendsAudio

def response (m : Moment V) : Option PyStr := m.event.bind sendsResponse

def clockRead (m : Moment V) : Option ℚ :=
  match m.event with
  | some (.call ⟨.monotonicMs, .ok now⟩) => some now
  | _ => none

def transcript (m : Moment V) : Option PyStr :=
  match m.event with
  | some (.call ⟨.transcribe _ _, .ok text⟩) => some text
  | _ => none

end Moment

/-- The handler's clock when it took up the frame. -/
def lookedAt (frame : Nat) (ls : List (Moment V)) : Option ℚ :=
  (ls.filterMap fun m => if m.frame = frame then m.clockRead else none).getLast?

def heard (frame : Nat) (ls : List (Moment V)) : Option PyStr :=
  (ls.filterMap fun m => if m.frame = frame then m.transcript else none).getLast?

/-- Such audio was sent less than `POST_TTS_HOLDOFF_MS` before. -/
def AudioWithin (such : Moment V → Prop) (now : ℚ) (ls : List (Moment V)) : Prop :=
  ∃ m ∈ ls, m.audio = true ∧ such m ∧ now - m.time < 1500

/-- The last response that was sent. -/
def lastResponse (ls : List (Moment V)) : PyStr := (ls.filterMap Moment.response).getLast?.getD []

/-- The moments of one connection. -/
def ofConn (conn : Nat) (ls : List (Moment V)) : List (Moment V) := ls.filter fun m => m.conn = conn

/-- The client is told next that its audio was not understood. -/
def Dropping (s : Serving V) : Prop := ∃ error, s.nextCall = some (.send (.transcript [] (some error)))

def ReadsAudioTime (l : Moment V) : Prop := ∃ a, l.event = some (.call ⟨.lastAudioSendMs, a⟩)

def ReadsResponse (l : Moment V) : Prop := ∃ a, l.event = some (.call ⟨.lastResponseText, a⟩)

/-- The frame of the moment is dropped. -/
def Dropped (l : Moment V) (s : Hub V) : Prop := ∃ s₁, s.serving[l.frame]? = some s₁ ∧ Dropping s₁

/-- What a frame is dropped for was sent to its own connection. -/
structure Own (cm : CaseMap) (ls : List (Moment V)) (l : Moment V) (s : Hub V) : Prop where
  holdoff : ReadsAudioTime l → Dropped l s →
    ∃ now, lookedAt l.frame ls = some now ∧ AudioWithin (fun m => m.conn = l.conn) now ls
  echo : ReadsResponse l → Dropped l s →
    ∃ text, heard l.frame ls = some text ∧ isEcho cm (lastResponse (ofConn l.conn ls)) text = true

/-- Whoever else is spoken to, the guards would drop the frame for its own connection as well. The
handler takes a time of 0 for no audio. -/
structure Apart (cm : CaseMap) (ls : List (Moment V)) (l : Moment V) : Prop where
  holdoff : ReadsAudioTime l → ∀ now, lookedAt l.frame ls = some now →
    AudioWithin (fun m => 0 < m.time) now ls → AudioWithin (fun m => m.conn = l.conn) now ls
  echo : ReadsResponse l → ∀ text, heard l.frame ls = some text →
    isEcho cm (lastResponse ls) text = true → isEcho cm (lastResponse (ofConn l.conn ls)) text = true

/-- Where the handler stands with a frame. -/
inductive Ear where
  | idle
  /-- Between the clock and the time of the last audio. -/
  | looking (now : ℚ)
  /-- Between the STT and the last response. -/
  | hearing (text : PyStr)
  | dropping
  | passing

def holdsOff (now last : ℚ) : Bool := decide (0 < last ∧ now - last < 1500)

/-- A failed call ends the frame. -/
def attend (cm : CaseMap) (m : Ear) (ev : (AppSig V).Event) : Option Ear :=
  match m, ev with
  | .idle, ⟨.monotonicMs, .ok now⟩ => some (.looking now)
  | .idle, ⟨.transcribe _ _, .ok text⟩ => some (.hearing text)
  | .idle, ⟨.lastAudioSendMs, _⟩ => none
  | .idle, ⟨.lastResponseText, _⟩ => none
  | .idle, _ => some .idle
  | .looking now, ⟨.lastAudioSendMs, .ok last⟩ =>
    some (if holdsOff now last then .dropping else .passing)
  | .looking _, ⟨.lastAudioSendMs, .error _⟩ => some .idle
  | .hearing text, ⟨.lastResponseText, .ok last⟩ =>
    some (if isEcho cm last text then .dropping else .passing)
  | .hearing _, ⟨.lastResponseText, .error _⟩ => some .idle
  | .hearing text, ⟨.send _, .ok _⟩ => some (.hearing text)
  | .hearing _, ⟨.send _, .error _⟩ => some .idle
  | .hearing _, ⟨.sendState _, _⟩ => some .idle
  | .dropping, ⟨.send (.transcript [] (some _)), _⟩ => some .idle
  | .passing, ⟨.send (.transcript _ none), _⟩ => some .idle
  | .passing, ⟨.sendState _, _⟩ => some .idle
  | _, _ => none

section Attend

variable {cm : CaseMap}

theorem attend_telling {o : AppOp V} (ho : Telling o) (a : Except PyExc o.Result) :
    attend cm .idle ⟨o, a⟩ = some .idle := by
  cases o with
  | allow callerId => rfl
  | send m => rfl
  | sendState target => rfl
  | _ => exact ho.elim

theorem attend_working {o : AppOp V} (ho : Calls.Working o) (a : Except PyExc o.Result) :
    attend cm .idle ⟨o, a⟩ = some .idle := by
  cases o <;> first | rfl | exact ho.elim

theorem observes_guards : Calls.Observes (V := V) (attend cm) .idle := by
  constructor
  · exact fun o ho a => attend_working ho a
  · intro userId message response
    apply Prog.Keeps.bind
    · exact fun a => ⟨.idle, rfl, Prog.keeps_lift a⟩
    · intro _ a
      exact ⟨.idle, rfl, Prog.keeps_lift a⟩

end Attend

section Handle

variable (h : AvatarWebSocketHandler) (cfg : ServerConfig) (rt : ChatRuntime)

theorem keeps_telling {α : Type} {p : AppM V α} (hp : p.Only Telling) :
    Prog.Keeps (attend rt.cm) .idle p := hp.keeps fun _ ho a => attend_telling ho a

theorem dropping_giveUp : Midway (attend rt.cm) .idle .dropping (giveUp : AppM V Next) := by
  intro a
  refine ⟨.idle, rfl, ?_⟩
  apply Prog.Keeps.bind
  · exact Prog.keeps_lift a
  intro _
  apply Prog.Keeps.bind
  · exact keeps_telling rt (Calls.only_perform trivial)
  · intro _
    exact Prog.keeps_pure _

theorem hearing_giveUp (text : PyStr) :
    Midway (attend rt.cm) .idle (.hearing text) (giveUp : AppM V Next) := by
  intro a
  cases a with
  | error e => exact ⟨.idle, rfl, rfl⟩
  | ok u =>
    refine ⟨.hearing text, rfl, ?_⟩
    intro b
    refine ⟨.idle, rfl, ?_⟩
    apply Prog.Keeps.bind
    · exact Prog.keeps_lift b
    · intro _
      exact Prog.keeps_pure _

theorem hearing_transcribed (userId text : PyStr) :
    Midway (attend rt.cm) .idle (.hearing text) (transcribed rt userId text : AppM V Next) := by
  intro a
  cases a with
  | error e => exact ⟨.idle, rfl, rfl⟩
  | ok u =>
    refine ⟨.hearing text, rfl, ?_⟩
    change Midway (attend rt.cm) .idle (.hearing text) (if text ≠ [] ∧ ¬ str "[stt" <+: text then _ else _)
    split
    · intro b
      cases b with
      | error e => exact ⟨.idle, rfl, rfl⟩
      | ok last =>
        refine ⟨_, rfl, ?_⟩
        change Midway (attend rt.cm) .idle (if isEcho rt.cm last text then .dropping else .passing)
          (if isEcho rt.cm last text then giveUp else _)
        cases isEcho rt.cm last text with
        | true => exact dropping_giveUp rt
        | false =>
          intro c
          refine ⟨.idle, rfl, ?_⟩
          apply Prog.Keeps.bind
          · exact Prog.keeps_lift c
          · intro _
            exact Prog.keeps_pure _
    · exact hearing_giveUp rt text

theorem keeps_spoken (peer : Option PyStr) (chunk : List UInt8) (userId : PyStr)
    (sttLanguage : Option PyStr) :
    Prog.Keeps (attend rt.cm) .idle (spoken h cfg rt peer chunk userId sttLanguage : AppM V Next) := by
  apply Prog.Keeps.bind
  · exact keeps_telling rt (only_rateLimitOk h cfg peer userId)
  intro ok
  cases ok with
  | false => exact Prog.keeps_pure _
  | true =>
    intro a
    cases a with
    | error e => exact ⟨.idle, rfl, rfl⟩
    | ok text => exact ⟨.hearing text, rfl, hearing_transcribed rt userId text⟩

theorem passing_listened (peer chunk : Option PyStr) (userId : PyStr) (sttLanguage : Option PyStr) :
    Midway (attend rt.cm) .idle .passing
      (listened h cfg rt peer chunk userId sttLanguage : AppM V Next) := by
  intro a
  refine ⟨.idle, rfl, ?_⟩
  apply Prog.Keeps.bind
  · exact Prog.keeps_lift a
  intro _
  apply Prog.Keeps.bind
  · exact keeps_telling rt (Calls.only_perform trivial)
  intro _
  apply Prog.Keeps.bind
  · exact Prog.keeps_lift _
  intro bytes
  apply Prog.Keeps.bind
  · exact fun b => ⟨.idle, rfl, Prog.keeps_lift b⟩
  intro segments
  split
  · apply Prog.Keeps.bind
    · exact keeps_telling rt (Calls.only_perform trivial)
    · intro _
      exact keeps_telling rt only_giveUp
  · exact keeps_spoken h cfg rt peer bytes userId sttLanguage

/-- The holdoff's answer and the automaton's are the same. -/
theorem held_frame (now last : ℚ) (peer chunk : Option PyStr) (userId : PyStr)
    (sttLanguage : Option PyStr) :
    Midway (attend rt.cm) .idle (if holdsOff now last then .dropping else .passing)
      (if 0 < last ∧ now - last < 1500 then giveUp
        else listened h cfg rt peer chunk userId sttLanguage : AppM V Next) := by
  unfold holdsOff
  by_cases hholds : 0 < last ∧ now - last < 1500
  · rw [decide_eq_true hholds, if_pos hholds]
    exact dropping_giveUp rt
  · rw [decide_eq_false hholds, if_neg hholds]
    exact passing_listened h cfg rt peer chunk userId sttLanguage

theorem keeps_handle (peer : Option PyStr) (frame : WsFrame) :
    Prog.Keeps (attend rt.cm) .idle (handle h cfg rt peer frame : AppM V Next) := by
  cases frame with
  | chat text userId =>
    apply Prog.Keeps.bind
    · exact keeps_telling rt (only_rateLimitOk h cfg peer _)
    · intro ok
      split <;> exact Prog.keeps_pure _
  | audio chunk userId sttLanguage =>
    intro a
    cases a with
    | error e => exact ⟨.idle, rfl, rfl⟩
    | ok now =>
      refine ⟨.looking now, rfl, ?_⟩
      intro b
      cases b with
      | error e => exact ⟨.idle, rfl, rfl⟩
      | ok last =>
        refine ⟨_, rfl, ?_⟩
        exact held_frame h cfg rt now last peer chunk (userId.getD (str "ws_user")) sttLanguage
  | micStart =>
    apply Prog.Keeps.bind
    · exact keeps_telling rt (Calls.only_perform trivial)
    · intro _
      exact Prog.keeps_pure _
  | micStop =>
    apply Prog.Keeps.bind
    · exact keeps_telling rt (Calls.only_perform trivial)
    · intro _
      exact Prog.keeps_pure _
  | other => exact Prog.keeps_pure _

theorem observer_guards : Observer (V := V) h cfg rt (attend rt.cm) .idle where
  pipelines := observes_guards
  serve i := by
    cases i with
    | http client body =>
      apply keeps_http observes_guards
      intro o ho a
      cases o with
      | allow callerId => rfl
      | enqueue userId => rfl
      | _ => exact ho.elim
    | ws peer frame => exact keeps_handle h cfg rt peer frame
  yields m m' text hread := by
    cases m with
    | idle => exact (Option.some.inj hread).symm
    | _ => cases hread

end Handle

section Tells

variable {cm : CaseMap} {m m' : Ear}

/-- The time of the last audio is read between the clock and the frame's fate. -/
theorem attend_audioTime {last : ℚ} (h : attend (V := V) cm m ⟨.lastAudioSendMs, .ok last⟩ = some m') :
    ∃ now, m = .looking now ∧ m' = if holdsOff now last then .dropping else .passing := by
  cases m with
  | looking now => exact ⟨now, rfl, (Option.some.inj h).symm⟩
  | _ => cases h

theorem attend_lastResponse {last : PyStr}
    (h : attend (V := V) cm m ⟨.lastResponseText, .ok last⟩ = some m') :
    ∃ text, m = .hearing text ∧ m' = if isEcho cm last text then .dropping else .passing := by
  cases m with
  | hearing text => exact ⟨text, rfl, (Option.some.inj h).symm⟩
  | _ => cases h

variable {ms : Nat → Ear} {ss : List (Serving V)} {i : Nat}

theorem attend_dropping {o : AppOp V} {a : Except PyExc o.Result}
    (h : (attend cm .dropping ⟨o, a⟩).isSome = true) :
    ∃ error, o = .send (.transcript [] (some error)) := by
  cases o with
  | send msg =>
    cases msg with
    | transcript text error =>
      cases text with
      | cons c cs => cases h
      | nil =>
        cases error with
        | none => cases h
        | some error => exact ⟨error, rfl⟩
    | _ => cases h
  | _ => cases h

/-- After it has read the guard, the handler drops the frame or not, as the automaton says. -/
theorem dropping_iff (ho : Observed (attend cm) .idle ms ss) {b : Bool}
    (hm : ms i = if b then .dropping else .passing) :
    (∃ s, ss[i]? = some s ∧ Dropping s) ↔ b = true := by
  have hne : ms i ≠ .idle := by
    rw [hm]
    cases b <;> nofun
  obtain ⟨s, hs, o, hnext, haccepts⟩ := ho.upcoming hne
  have hread := haccepts (.error .typeError)
  rw [hm] at hread
  cases b with
  | true =>
    obtain ⟨error, rfl⟩ := attend_dropping hread
    exact iff_of_true ⟨s, hs, error, hnext⟩ rfl
  | false =>
    apply iff_of_false
    · intro hdrop
      obtain ⟨s₁, hs₁, error, hnext₁⟩ := hdrop
      cases hs.symm.trans hs₁
      cases hnext.symm.trans hnext₁
      cases hread
    · nofun

theorem attend_looking {now : ℚ} {ev : (AppSig V).Event} (h : attend cm m ev = some (.looking now)) :
    ev = ⟨.monotonicMs, .ok now⟩ := by
  unfold attend at h
  split at h
  case h_1 =>
    cases h
    rfl
  all_goals first
    | cases h
    | (split at h <;> cases h)

theorem attend_hearing {text : PyStr} {ev : (AppSig V).Event}
    (h : attend cm m ev = some (.hearing text)) :
    (∃ chunk language, ev = ⟨.transcribe chunk language, .ok text⟩) ∨
      (m = .hearing text ∧ ∃ msg a, ev = ⟨.send msg, a⟩) := by
  unfold attend at h
  split at h
  case h_2 =>
    cases h
    exact .inl ⟨_, _, rfl⟩
  case h_10 =>
    cases h
    exact .inr ⟨rfl, _, _, rfl⟩
  all_goals first
    | cases h
    | (split at h <;> cases h)

end Tells

section Sent

variable {ls : List (Moment V)} {l : Moment V}

theorem getLast?_filterMap_concat {α β : Type} (f : α → Option β) (xs : List α) (x : α) :
    ((xs ++ [x]).filterMap f).getLast? = (f x).or (xs.filterMap f).getLast? := by
  rw [List.filterMap_append]
  cases hx : f x <;> simp [hx]

theorem lookedAt_concat (i : Nat) : lookedAt i (ls ++ [l]) =
    (if l.frame = i then l.clockRead else none).or (lookedAt i ls) :=
  getLast?_filterMap_concat _ ls l

theorem heard_concat (i : Nat) : heard i (ls ++ [l]) =
    (if l.frame = i then l.transcript else none).or (heard i ls) :=
  getLast?_filterMap_concat _ ls l

theorem lastResponse_concat : lastResponse (ls ++ [l]) = l.response.getD (lastResponse ls) := by
  unfold lastResponse
  rw [getLast?_filterMap_concat]
  cases l.response <;> rfl

/-- The time of the last audio, 0 while there is none. -/
def LastAudio (t : ℚ) (ls : List (Moment V)) : Prop :=
  (t = 0 ∧ ∀ m ∈ ls, m.audio = false) ∨
    ((∃ m ∈ ls, m.audio = true ∧ m.time = t) ∧ ∀ m ∈ ls, m.audio = true → m.time ≤ t)

theorem LastAudio.concat {t : ℚ} (h : LastAudio t ls) (hpast : ∀ m ∈ ls, m.time ≤ l.time) :
    LastAudio (if l.audio then l.time else t) (ls ++ [l]) := by
  cases hl : l.audio with
  | true =>
    refine .inr ⟨⟨l, by simp, hl, rfl⟩, ?_⟩
    intro m hm _
    rcases List.mem_append.mp hm with hm | hm
    · exact hpast m hm
    · rw [List.mem_singleton.mp hm]
      exact le_rfl
  | false =>
    have hmem {m : Moment V} (hm : m ∈ ls ++ [l]) : m ∈ ls ∨ m.audio = false := by
      rcases List.mem_append.mp hm with hm | hm
      · exact .inl hm
      · rw [List.mem_singleton.mp hm]
        exact .inr hl
    rcases h with ⟨rfl, hnone⟩ | ⟨⟨m, hm, haudio, htime⟩, hlast⟩
    · refine .inl ⟨rfl, ?_⟩
      intro m hm
      rcases hmem hm with hm | hm
      · exact hnone m hm
      · exact hm
    · refine .inr ⟨⟨m, List.mem_append_left _ hm, haudio, htime⟩, ?_⟩
      intro m' hm' haudio'
      rcases hmem hm' with hm' | hm'
      · exact hlast m' hm' haudio'
      · cases haudio'.symm.trans hm'

theorem holdsOff_iff {t now : ℚ} (h : LastAudio t ls) :
    holdsOff now t = true ↔ AudioWithin (fun m => 0 < m.time) now ls := by
  rw [holdsOff, decide_eq_true_iff]
  constructor
  · intro hholds
    obtain ⟨hpos, hrecent⟩ := hholds
    rcases h with ⟨rfl, -⟩ | ⟨⟨m, hm, haudio, rfl⟩, -⟩
    · exact absurd hpos (lt_irrefl 0)
    · exact ⟨m, hm, haudio, hpos, hrecent⟩
  · intro hwithin
    obtain ⟨m, hm, haudio, hpos, hrecent⟩ := hwithin
    rcases h with ⟨-, hnone⟩ | ⟨-, hlast⟩
    · cases haudio.symm.trans (hnone m hm)
    · have hle := hlast m hm haudio
      exact ⟨lt_of_lt_of_le hpos hle, lt_of_le_of_lt (sub_le_sub_left hle now) hrecent⟩

end Sent

section Runs

variable {h : AvatarWebSocketHandler} {cfg : ServerConfig} {rt : ChatRuntime}
variable {s s' : Hub V} {ls : List (Moment V)} {l : Moment V} {ms : Nat → Ear}

/-- The automata know what the handler heard of their frames, and the guard what it sent. -/
structure Told (cm : CaseMap) (ms : Nat → Ear) (s : Hub V) (ls : List (Moment V)) : Prop where
  observed : Observed (attend cm) .idle ms s.serving
  looking : ∀ i now, ms i = .looking now → lookedAt i ls = some now
  hearing : ∀ i text, ms i = .hearing text → heard i ls = some text
  past : ∀ m ∈ ls, m.time ≤ s.clock
  audio : LastAudio s.guard.lastAudioSendMs ls
  response : s.guard.lastResponseText = lastResponse ls

theorem told_start (cm : CaseMap) (hs : (hubSystem h cfg rt V).init s) :
    Told cm (fun _ => .idle) s [] := by
  obtain ⟨hguard, -, hserving⟩ := hs
  refine ⟨?_, nofun, nofun, nofun, ?_, ?_⟩
  · rw [hserving]
    exact observed_nil
  · rw [hguard]
    exact .inl ⟨rfl, nofun⟩
  · rw [hguard]
    rfl

/-- What a step does to the clock and to the guard. -/
theorem Told.guarded (ht : Told rt.cm ms s ls) (hst : (hubSystem h cfg rt V).step s l s') :
    (∀ m ∈ ls ++ [l], m.time ≤ s'.clock) ∧ LastAudio s'.guard.lastAudioSendMs (ls ++ [l]) ∧
      s'.guard.lastResponseText = lastResponse (ls ++ [l]) := by
  obtain ⟨hclock, hclock', -, hevent⟩ := hst
  have hpast : ∀ m ∈ ls, m.time ≤ l.time := fun m hm => le_trans (ht.past m hm) hclock
  have hguard : s'.guard.lastAudioSendMs = (if l.audio then l.time else s.guard.lastAudioSendMs) ∧
      s'.guard.lastResponseText = l.response.getD s.guard.lastResponseText := by
    unfold Moment.audio Moment.response
    cases he : l.event with
    | none =>
      rw [he] at hevent
      rw [hevent.2]
      exact ⟨rfl, rfl⟩
    | some e =>
      rw [he] at hevent
      rw [hevent.2.2.2]
      exact ⟨rfl, rfl⟩
  refine ⟨?_, ?_, ?_⟩
  · intro m hm
    rw [hclock']
    rcases List.mem_append.mp hm with hm | hm
    · exact hpast m hm
    · rw [List.mem_singleton.mp hm]
  · rw [hguard.1]
    exact ht.audio.concat hpast
  · rw [hguard.2, lastResponse_concat, ht.response]

/-- A step that is no call tells nothing new of any frame. -/
theorem Told.silent (ht : Told rt.cm ms s ls) (hst : (hubSystem h cfg rt V).step s l s')
    (hl : ∀ ev, l.event ≠ some (.call ev)) (hobserved : Observed (attend rt.cm) .idle ms s'.serving) :
    Told rt.cm ms s' (ls ++ [l]) := by
  obtain ⟨hpast, haudio, hresponse⟩ := ht.guarded hst
  have hclock : l.clockRead = none := by
    unfold Moment.clockRead
    split
    · rename_i he
      exact absurd he (hl _)
    · rfl
  have htranscript : l.transcript = none := by
    unfold Moment.transcript
    split
    · rename_i he
      exact absurd he (hl _)
    · rfl
  refine ⟨hobserved, ?_, ?_, hpast, haudio, hresponse⟩
  · intro i now hi
    rw [lookedAt_concat, hclock, ite_self]
    exact ht.looking i now hi
  · intro i text hi
    rw [heard_concat, htranscript, ite_self]
    exact ht.hearing i text hi

theorem Told.call (ht : Told rt.cm ms s ls) (hst : (hubSystem h cfg rt V).step s l s')
    {ev : (AppSig V).Event} (hl : l.event = some (.call ev)) : ∃ m, attend rt.cm (ms l.frame) ev = some m ∧
      Told rt.cm (Function.update ms l.frame m) s' (ls ++ [l]) := by
  obtain ⟨hpast, haudio, hresponse⟩ := ht.guarded hst
  obtain ⟨-, -, hpool, -⟩ := hst
  rw [hl] at hpool
  obtain ⟨m, hm, hobserved⟩ := ht.observed.call hpool
  refine ⟨m, hm, hobserved, ?_, ?_, hpast, haudio, hresponse⟩
  · intro i now hi
    rw [lookedAt_concat]
    by_cases heq : i = l.frame
    · rw [heq, Function.update_self] at hi
      rw [hi] at hm
      obtain rfl := attend_looking hm
      rw [if_pos heq.symm, Moment.clockRead, hl]
      rfl
    · rw [Function.update_of_ne heq] at hi
      rw [if_neg (Ne.symm heq)]
      exact ht.looking i now hi
  · intro i text hi
    rw [heard_concat]
    by_cases heq : i = l.frame
    · rw [heq, Function.update_self] at hi
      rw [hi] at hm
      rw [if_pos heq.symm, Moment.transcript, hl]
      rcases attend_hearing hm with ⟨chunk, language, rfl⟩ | ⟨hbefore, msg, a, rfl⟩
      · rfl
      · rw [← heq] at hbefore
        exact ht.hearing i text hbefore
    · rw [Function.update_of_ne heq] at hi
      rw [if_neg (Ne.symm heq)]
      exact ht.hearing i text hi

theorem told_step (ht : Told rt.cm ms s ls) (hst : (hubSystem h cfg rt V).step s l s') :
    ∃ ms', Told rt.cm ms' s' (ls ++ [l]) := by
  have hobs : Observer (V := V) h cfg rt (attend rt.cm) .idle := observer_guards h cfg rt
  obtain ⟨-, -, hpool, -⟩ := id hst
  cases he : l.event with
  | none =>
    rw [he] at hpool
    refine ⟨ms, ht.silent hst ?_ (ht.observed.join hobs hpool)⟩
    intro ev hev
    cases he.symm.trans hev
  | some e =>
    by_cases hcall : ∃ ev, e = .call ev
    · obtain ⟨ev, rfl⟩ := hcall
      obtain ⟨m, -, ht'⟩ := ht.call hst he
      exact ⟨_, ht'⟩
    · rw [he] at hpool
      have hother : ∀ ev, e ≠ .call ev := fun ev hev => hcall ⟨ev, hev⟩
      refine ⟨ms, ht.silent hst ?_ (ht.observed.silent hobs hother hpool)⟩
      intro ev hev
      cases he.symm.trans hev
      exact hother ev rfl

theorem told_run {s₀ : Hub V} (h₀ : (hubSystem h cfg rt V).init s₀)
    (hrun : (hubSystem h cfg rt V).Run s₀ ls s) : ∃ ms, Told rt.cm ms s ls := by
  have hinv := hrun.invariant_labels (I := fun s ls => ∃ ms, Told rt.cm ms s ls)
    (fun ht hst => ht.elim fun ms ht => told_step ht hst) ⟨_, told_start rt.cm h₀⟩
  rwa [List.nil_append] at hinv

/-- A frame is dropped by the holdoff after audio to anyone. -/
theorem heldOff_iff (ht : Told rt.cm ms s ls) (hst : (hubSystem h cfg rt V).step s l s')
    (hread : ReadsAudioTime l) : ∃ now, lookedAt l.frame ls = some now ∧
      (Dropped l s' ↔ AudioWithin (fun m => 0 < m.time) now ls) := by
  obtain ⟨a, hl⟩ := hread
  obtain ⟨m, hm, ht'⟩ := ht.call hst hl
  obtain ⟨-, -, -, hevent⟩ := hst
  rw [hl] at hevent
  have ha : a = .ok s.guard.lastAudioSendMs := hevent.2.2.1
  rw [ha] at hm
  obtain ⟨now, hnow, rfl⟩ := attend_audioTime hm
  refine ⟨now, ht.looking l.frame now hnow, ?_⟩
  rw [← holdsOff_iff ht.audio]
  exact dropping_iff ht'.observed (Function.update_self _ _ _)

/-- A frame is dropped as the echo of what was said to anyone. -/
theorem echo_iff (ht : Told rt.cm ms s ls) (hst : (hubSystem h cfg rt V).step s l s')
    (hread : ReadsResponse l) : ∃ text, heard l.frame ls = some text ∧
      (Dropped l s' ↔ isEcho rt.cm (lastResponse ls) text = true) := by
  obtain ⟨a, hl⟩ := hread
  obtain ⟨m, hm, ht'⟩ := ht.call hst hl
  obtain ⟨-, -, -, hevent⟩ := hst
  rw [hl] at hevent
  have ha : a = .ok s.guard.lastResponseText := hevent.2.2.1
  rw [ha] at hm
  obtain ⟨text, htext, rfl⟩ := attend_lastResponse hm
  refine ⟨text, ht.hearing l.frame text htext, ?_⟩
  rw [← ht.response]
  exact dropping_iff ht'.observed (Function.update_self _ _ _)

/-- Where a drop is told by what was heard, its owner is told by it too. -/
theorem owed_iff {α : Type} {heard : Option α} {drop : Prop} {any own : α → Prop}
    (h : ∃ x, heard = some x ∧ (drop ↔ any x)) :
    (drop → ∃ x, heard = some x ∧ own x) ↔ ∀ x, heard = some x → any x → own x := by
  obtain ⟨x, hx, hdrop⟩ := h
  rw [hx, hdrop]
  constructor
  · intro howed y hy hany
    obtain rfl := Option.some.inj hy
    obtain ⟨z, hz, hown⟩ := howed hany
    obtain rfl := Option.some.inj hz
    exact hown
  · intro howed hany
    exact ⟨x, rfl, howed x rfl hany⟩

theorem own_iff_apart (ht : Told rt.cm ms s ls) (hst : (hubSystem h cfg rt V).step s l s') :
    Own rt.cm ls l s' ↔ Apart rt.cm ls l := by
  constructor
  · intro hown
    constructor
    · intro hread
      exact (owed_iff (heldOff_iff ht hst hread)).mp (hown.holdoff hread)
    · intro hread
      exact (owed_iff (echo_iff ht hst hread)).mp (hown.echo hread)
  · intro hapart
    constructor
    · intro hread
      exact (owed_iff (heldOff_iff ht hst hread)).mpr (hapart.holdoff hread)
    · intro hread
      exact (owed_iff (echo_iff ht hst hread)).mpr (hapart.echo hread)

end Runs

/-- In every interleaving of frames, every drop is owed to what was sent to the frame's own
connection exactly when, at every look at the guards, audio or a response that another connection
got would drop the frame only where its own would. -/
theorem guards_own_iff (h : AvatarWebSocketHandler) (cfg : ServerConfig) (rt : ChatRuntime)
    {s₀ s : Hub V} {ls : List (Moment V)} (h₀ : (hubSystem h cfg rt V).init s₀) :
    (hubSystem h cfg rt V).RunWith (Own rt.cm) s₀ ls s ↔
      (hubSystem h cfg rt V).RunWith (fun ls l _ => Apart rt.cm ls l) s₀ ls s := by
  constructor
  · intro hrun
    apply hrun.imp
    intro ls t l w hbefore hst hown
    obtain ⟨ms, ht⟩ := told_run h₀ hbefore
    exact (own_iff_apart ht hst).mp hown
  · intro hrun
    apply hrun.imp
    intro ls t l w hbefore hst hapart
    obtain ⟨ms, ht⟩ := told_run h₀ hbefore
    exact (own_iff_apart ht hst).mpr hapart

section Example

def streamConfig : ServerConfig :=
  { llmProvider := str "openai_compat", ollamaModel := [], openaiCompatModel := []
    llmStripThinking := false, wsStreamEnabled := true, rateLimitEnabled := false
    queueEnabled := false, fast := false }

abbrev hub : System (Hub Unit) (Moment Unit) :=
  hubSystem wsHandler streamConfig Chat.asciiRuntime Unit

variable {s : Hub Unit}

theorem step_join (incoming : Incoming) (conn : Nat) {t : ℚ} (ht : s.clock ≤ t) :
    hub.step s ⟨s.serving.length, conn, t, none⟩
      { s with
        clock := t
        conns := s.conns ++ [conn]
        serving := s.serving ++
          [.running (serve wsHandler streamConfig Chat.asciiRuntime incoming)] } :=
  ⟨ht, rfl, ⟨rfl, _, ⟨incoming, rfl⟩, rfl⟩, rfl, rfl⟩

theorem step_event {i conn : Nat} {t : ℚ} {e : ServingEvent Unit} {s₁ s₁' : Serving Unit}
    (hi : s.serving[i]? = some s₁) (hconn : s.conns[i]? = some conn) (ht : s.clock ≤ t)
    (hanswers : s.guard.Answers t e)
    (hst : ServingStep wsHandler streamConfig Chat.asciiRuntime s₁ e s₁') :
    hub.step s ⟨i, conn, t, some e⟩
      { guard := s.guard.after t e, clock := t, conns := s.conns, serving := s.serving.set i s₁' } :=
  ⟨ht, rfl, ⟨s₁, s₁', hi, hst, rfl⟩, hconn, rfl, hanswers, rfl⟩

def startHub : Hub Unit := ⟨⟨0, []⟩, 0, [], []⟩

/-- A turn of connection 0 up to its filler audio. -/
def fillerMoments : List (Moment Unit) :=
  [⟨0, 0, 1000, none⟩, ⟨0, 0, 1000, some .start⟩, ⟨0, 0, 1000, some (.turn .enter)⟩,
    ⟨0, 0, 1000, some (.turn (.send (.state (AvatarState.idle.transition .thinking)) (.ok ())))⟩,
    ⟨0, 0, 1000, some (.turn (.openStream (.ok ())))⟩,
    ⟨0, 0, 2200, some (.turn (.next (.ok (some SafetyService.inputRefusal)) 1200))⟩,
    ⟨0, 0, 2200, some (.turn (.getFiller (fillerLang SafetyService.inputRefusal) (.ok ())))⟩,
    ⟨0, 0, 2200, some (.turn (.visemes (.ok ())))⟩,
    ⟨0, 0, 2300, some (.turn (.send .audio (.ok ())))⟩]

/-- Connection 0 gets its filler, and a frame with audio comes over the connection `conn`. -/
def heardMoments (conn : Nat) : List (Moment Unit) :=
  fillerMoments ++ [⟨1, conn, 2400, none⟩, ⟨1, conn, 2400, some (.call ⟨.monotonicMs, .ok (2400 : ℚ)⟩)⟩]

def lastLook (conn : Nat) : Moment Unit := ⟨1, conn, 2400, some (.call ⟨.lastAudioSendMs, .ok (2300 : ℚ)⟩)⟩

theorem filler_run : ∃ t c, hub.Run startHub fillerMoments ⟨⟨2300, []⟩, 2300, [0], [.turn t c]⟩ := by
  apply Exists.intro
  apply Exists.intro
  refine .cons (step_join (.ws none (.chat (some (str "how to hack")) none)) 0 (by decide)) ?_
  refine .cons (step_event rfl rfl le_rfl trivial (.start (t := Turn.first) ⟨rfl, rfl⟩)) ?_
  refine .cons (step_event rfl rfl le_rfl trivial (.turn id (.enter rfl rfl))) ?_
  refine .cons (step_event rfl rfl le_rfl trivial (.turn id (.thinking (.ok ()) rfl))) ?_
  refine .cons (step_event rfl rfl le_rfl trivial (.turn id (.openStream (.ok ()) rfl))) ?_
  refine .cons (step_event rfl rfl (by decide) trivial
    (.gives (.yielded 1200) (.next (.ok (some SafetyService.inputRefusal)) 1200 rfl rfl))) ?_
  refine .cons (step_event rfl rfl le_rfl trivial (.turn id (.getFiller (.ok ()) rfl))) ?_
  refine .cons (step_event rfl rfl le_rfl trivial (.turn id (.fillerVisemes (.ok ()) rfl))) ?_
  exact .single (step_event rfl rfl (by decide) trivial (.turn id (.fillerAudio (.ok ()) rfl)))

theorem heard_run (conn : Nat) : ∃ s t, hub.Run startHub (heardMoments conn) s ∧
    hub.step s (lastLook conn) t := by
  obtain ⟨t, c, hrun⟩ := filler_run
  have hjoin := step_join (s := ⟨⟨2300, []⟩, 2300, [0], [.turn t c]⟩) (.ws none (.audio none none none))
    conn (show (2300 : ℚ) ≤ 2400 by decide)
  exact ⟨_, _, hrun.append (.cons hjoin (.single (step_event rfl rfl le_rfl rfl (.call _)))),
    step_event rfl rfl le_rfl rfl (.call _)⟩

theorem apart_quiet {conn : Nat} {ls : List (Moment Unit)} {l : Moment Unit}
    (hl : l ∈ heardMoments conn) : Apart Chat.asciiRuntime.cm ls l := by
  have hquiet : ∀ e ∈ (heardMoments conn).map Moment.event,
      (∀ a, e ≠ some (.call ⟨.lastAudioSendMs, a⟩)) ∧ ∀ a, e ≠ some (.call ⟨.lastResponseText, a⟩) := by
    intro e he
    simp only [heardMoments, fillerMoments, List.map_cons, List.map_nil, List.cons_append,
      List.nil_append, List.mem_cons, List.not_mem_nil, or_false] at he
    rcases he with rfl | rfl | rfl | rfl | rfl | rfl | rfl | rfl | rfl | rfl | rfl <;>
      exact ⟨nofun, nofun⟩
  obtain ⟨haudio, hresponse⟩ := hquiet l.event (List.mem_map_of_mem hl)
  exact ⟨fun hread => hread.elim fun a ha => absurd ha (haudio a),
    fun hread => hread.elim fun a ha => absurd ha (hresponse a)⟩

/-- All that was sent is the filler. -/
theorem audioWithin_filler {such : Moment Unit → Prop} (conn : Nat) :
    AudioWithin such 2400 (heardMoments conn) ↔ such ⟨0, 0, 2300, some (.turn (.send .audio (.ok ())))⟩ := by
  have hsent : (heardMoments conn).filter Moment.audio =
      [⟨0, 0, 2300, some (.turn (.send .audio (.ok ())))⟩] := rfl
  constructor
  · intro hwithin
    obtain ⟨m, hm, haudio, hsuch, -⟩ := hwithin
    have hmem := List.mem_filter.mpr ⟨hm, haudio⟩
    rw [hsent] at hmem
    rw [← List.mem_singleton.mp hmem]
    exact hsuch
  · intro hsuch
    exact ⟨⟨0, 0, 2300, some (.turn (.send .audio (.ok ())))⟩, by simp [heardMoments, fillerMoments], rfl,
      hsuch, show (2400 : ℚ) - 2300 < 1500 by decide +kernel⟩

/-- A second frame of connection 0 is dropped for the filler that it got. -/
theorem guards_own_iff_filler : ∃ s, hub.RunWith (Own Chat.asciiRuntime.cm) startHub
    (heardMoments 0 ++ [lastLook 0]) s := by
  obtain ⟨s, t, hrun, hst⟩ := heard_run 0
  refine ⟨t, (guards_own_iff wsHandler streamConfig Chat.asciiRuntime ⟨rfl, rfl, rfl⟩).mpr ?_⟩
  apply System.RunWith.snoc (hrun.runWith fun l hl before w => apart_quiet hl) hst
  constructor
  · intro _ now hnow _
    have hclock : lookedAt 1 (heardMoments 0) = some 2400 := rfl
    cases hnow.symm.trans hclock
    exact (audioWithin_filler 0).mpr rfl
  · intro hread
    cases hread with
    | intro a ha => cases ha

/-- The frame of another connection is dropped for it, too. -/
theorem not_guards_own :
    ¬ ∀ (h : AvatarWebSocketHandler) (cfg : ServerConfig) (rt : ChatRuntime) (V : Type)
      (s₀ s : Hub V) (ls : List (Moment V)), (hubSystem h cfg rt V).init s₀ →
      (hubSystem h cfg rt V).Run s₀ ls s → (hubSystem h cfg rt V).RunWith (Own rt.cm) s₀ ls s := by
  intro hall
  have hinit : hub.init startHub := ⟨rfl, rfl, rfl⟩
  obtain ⟨s, t, hrun, hst⟩ := heard_run 1
  obtain ⟨-, -, -, hown⟩ := (hall _ _ _ _ _ _ _ hinit (hrun.append (.single hst))).last
  obtain ⟨ms, ht⟩ := told_run hinit hrun
  have hapart := (own_iff_apart ht hst).mp hown
  have hany : AudioWithin (fun m => 0 < m.time) 2400 (heardMoments 1) :=
    (audioWithin_filler 1).mpr (show (0 : ℚ) < 2300 by decide)
  have hconn : 0 = 1 := (audioWithin_filler 1).mp (hapart.holdoff ⟨_, rfl⟩ 2400 rfl hany)
  cases hconn

end Example

end EchoGuards

end VirtualPerson
