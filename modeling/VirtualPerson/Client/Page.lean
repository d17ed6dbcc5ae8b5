import VirtualPerson.Client.ChatBox
import VirtualPerson.Client.Socket
import VirtualPerson.Client.Visemes

/-!
# The page

`app.js` between its events: the chunks of speech that play one after another, the mouth,
the chat box, and the microphone that listens on its own and must hear neither the avatar
nor itself. The browser runs one handler at a time, in any order.
-/

namespace VirtualPerson

set_option autoImplicit false

namespace Client

structure AudioItem where
  audioPayload : JsStr
  timeline : List Frame

inductive Outgoing where
  | chat (text : JsStr)
  | audio (chunk : JsStr)
  | micStart

inductive MicMode where
  | manual
  | auto
  deriving DecidableEq

structure Page where
  audioQueue : List AudioItem
  audioPlaying : Bool
  /-- The chunks that an `Audio` was made of and started, in order -/
  played : List AudioItem
  /-- Which of them have brought neither `ended` nor `error`; a `play()` that is rejected brings neither. -/
  sounding : List Nat
  /-- `speaking.stateFlag` -/
  stateFlag : Bool
  /-- `speaking.audioFlag` -/
  audioFlag : Bool
  /-- What `setSpeaking` was called with last -/
  speakingLayer : Bool
  visemes : VisemePlayer
  box : ChatBox
  lastTranscriptErrorAt : Nat
  autoMicGuardUntil : Nat
  autoTurnInFlight : Bool
  autoTurnInFlightSince : Nat
  micMode : MicMode
  /-- The always-on microphone runs. -/
  listening : Bool
  /-- What was handed to `ws.send` -/
  outbox : List Outgoing

/-- The messages of the server that the handler reads; a text that is missing is empty. -/
inductive ServerEvent where
  | chatPartial (role : Role) (text : JsStr)
  | chat (role : Role) (text : JsStr) (final : Bool)
  | state (state : JsStr)
  | transcript (text error : JsStr)
  | audio (chunk : JsStr) (timeline : List Frame)
  | viseme (timeline : List Frame)

/-- `\w` -/
def isWordUnit (c : Nat) : Bool :=
  (0x30 ≤ c && c ≤ 0x39) || (0x41 ≤ c && c ≤ 0x5A) || c == 0x5F || (0x61 ≤ c && c ≤ 0x7A)

/-- `\s` -/
def isSpaceUnit (c : Nat) : Bool :=
  (0x09 ≤ c && c ≤ 0x0D) || c == 0x20 || c == 0xA0 || c == 0x1680 || (0x2000 ≤ c && c ≤ 0x200A) ||
    c == 0x2028 || c == 0x2029 || c == 0x202F || c == 0x205F || c == 0x3000 || c == 0xFEFF

/-- `replace(/^\[[\w]+\|[^\]]*\]\s*/, '')`; no class of the pattern holds the character behind it. -/
def stripPersonaPrefix : JsStr → JsStr
  | 0x5B :: s =>
    match s.takeWhile isWordUnit, s.dropWhile isWordUnit with
    | _ :: _, 0x7C :: tone =>
      match tone.dropWhile (· ≠ 0x5D) with
      | 0x5D :: text => text.dropWhile isSpaceUnit
      | _ => 0x5B :: s
    | _, _ => 0x5B :: s
  | s => s

namespace Page

def start : Page :=
  { audioQueue := [], audioPlaying := false, played := [], sounding := [], stateFlag := false,
    audioFlag := false, speakingLayer := false, visemes := .idle, box := .empty,
    lastTranscriptErrorAt := 0, autoMicGuardUntil := 0, autoTurnInFlight := false,
    autoTurnInFlightSince := 0, micMode := .manual, listening := false, outbox := [] }

def isSpeakingNow (p : Page) : Bool := p.stateFlag || p.audioFlag

def syncSpeakingLayer (p : Page) : Page := { p with speakingLayer := p.isSpeakingNow }

def startVisemeTimeline (p : Page) (timeline : List Frame) (perf : Rat) : Page :=
  { p with
    visemes := p.visemes.start timeline perf
    speakingLayer := if timeline = [] then p.speakingLayer else true }

/-- `atob` tells whether the payload is Base64. Where it is not, the call throws out of the handler,
and the chunk is off the queue. -/
def playNextAudioChunk (atob : JsStr → Bool) (p : Page) (perf : Rat) : Page :=
  if p.audioPlaying then p
  else match p.audioQueue with
    | [] => p
    | item :: rest =>
      if atob item.audioPayload then
        let p := { p with
          audioQueue := rest
          audioPlaying := true
          audioFlag := true
          played := p.played ++ [item]
          sounding := p.sounding ++ [p.played.length] }.syncSpeakingLayer
        if item.timeline = [] then p else p.startVisemeTimeline item.timeline perf
      else { p with audioQueue := rest }

/-- The handler of a chunk that has ended, or that could not be played to its end -/
def finish (atob : JsStr → Bool) (p : Page) (i : Nat) (now : Nat) (perf : Rat) : Page :=
  let p := { p with audioPlaying := false, sounding := p.sounding.filter (· ≠ i) }
  if p.audioQueue ≠ [] then p.playNextAudioChunk atob perf
  else
    let p := { p with audioFlag := false, autoMicGuardUntil := now + 1200 }
    { p with visemes := p.visemes.rest p.isSpeakingNow }.syncSpeakingLayer

def bindAudioPlayback (atob : JsStr → Bool) (p : Page) (item : AudioItem) (perf : Rat) : Page :=
  { p with audioQueue := p.audioQueue ++ [item] }.playNextAudioChunk atob perf

/-- `autoTurnInFlight = false; autoTurnInFlightSince = 0` -/
def release (p : Page) : Page := { p with autoTurnInFlight := false, autoTurnInFlightSince := 0 }

def onState (p : Page) (state : JsStr) : Page :=
  let p := { p with
    box := if state = str "thinking" then p.box.showThinking else p.box.removeThinking
    stateFlag := decide (state = str "speaking") }
  { p with visemes := p.visemes.rest p.isSpeakingNow }.syncSpeakingLayer

def onTranscript (p : Page) (text error : JsStr) (now : Nat) : Page :=
  if text ≠ [] then { p with box := p.box.resetAssistantDraft.addMessage .user text }
  else if error ≠ [] then
    let p := { p.release with autoMicGuardUntil := now + 800 }
    if p.micMode ≠ .auto ∧ p.lastTranscriptErrorAt + 3000 < now then
      { p with box := p.box.addMessage .system error, lastTranscriptErrorAt := now }
    else p
  else p

def onEvent (atob : JsStr → Bool) (p : Page) (e : ServerEvent) (now : Nat) (perf : Rat) : Page :=
  match e with
  | .chatPartial .assistant text =>
    { p with box := p.box.appendAssistantPartial (stripPersonaPrefix text) }
  | .chatPartial _ _ => p
  | .chat .assistant text final =>
    let p := { p with box := p.box.finalizeAssistantMessage (stripPersonaPrefix text) }
    if final then { p.release with autoMicGuardUntil := now + 1200 } else p
  | .chat role text _ => { p with box := p.box.addMessage role (stripPersonaPrefix text) }
  | .state state => p.onState state
  | .transcript text error => p.onTranscript text error now
  | .audio chunk timeline =>
    if chunk ≠ [] then p.bindAudioPlayback atob { audioPayload := chunk, timeline } perf else p
  | .viseme timeline => if timeline ≠ [] then p.startVisemeTimeline timeline perf else p

/-- `sendChatMessage`, on a text that was trimmed -/
def sendChatMessage (p : Page) (text : JsStr) : Page :=
  if text = [] then p
  else { p with
    box := p.box.resetAssistantDraft.addMessage .user text
    outbox := p.outbox ++ [.chat text] }

/-- `updateVisemePlayback`; a timeline that goes takes the speaking layer with it. -/
def updateVisemePlayback (p : Page) (nowMs pulse : Rat) : Page :=
  let visemes := p.visemes.update nowMs p.isSpeakingNow pulse
  let p' := { p with visemes }
  if p.visemes.timeline ≠ [] ∧ visemes.timeline = [] then p'.syncSpeakingLayer else p'

/-- `onSegment`; the clock is read once more where the segment is sent. -/
def onSegment (p : Page) (base64 : JsStr) (now later : Nat) : Page :=
  if base64 = [] ∨ p.isSpeakingNow ∨ now < p.autoMicGuardUntil then p
  else
    let p := if p.autoTurnInFlight ∧ p.autoTurnInFlightSince + 12000 < now then p.release else p
    if p.autoTurnInFlight then p
    else { p with
      autoTurnInFlight := true
      autoTurnInFlightSince := later
      outbox := p.outbox ++ [.audio base64] }

def startAuto (p : Page) (now : Nat) : Page :=
  { p with listening := true, outbox := p.outbox ++ [.micStart], autoMicGuardUntil := now + 500 }

def stopAuto (p : Page) : Page := { p with listening := false, autoTurnInFlight := false }

/-- The end of a recording in manual mode -/
def sendRecording (p : Page) (base64 : JsStr) : Page :=
  if base64 = [] then p else { p with outbox := p.outbox ++ [.audio base64] }

def switchMode (p : Page) : Page :=
  { p.release with
    listening := false
    micMode := if p.micMode = .manual then .auto else .manual }

end Page

inductive PageEvent where
  | message (e : ServerEvent) (now : Nat) (perf : Rat)
  | socketStatus (s : Status)
  | typed (text : JsStr)
  | ended (i : Nat) (now : Nat) (perf : Rat)
  | frame (nowMs pulse : Rat)
  | segment (base64 : JsStr) (now later : Nat)
  | autoStarted (now : Nat)
  | autoStopped
  | recorded (base64 : JsStr)
  | modeSwitched

/-- A chunk ends once; a segment comes while the microphone listens. -/
inductive PageStep (atob : JsStr → Bool) : Page → PageEvent → Page → Prop where
  | message {p : Page} {e : ServerEvent} {now : Nat} {perf : Rat} :
      PageStep atob p (.message e now perf) (p.onEvent atob e now perf)
  | socketStatus {p : Page} {s : Status} : PageStep atob p (.socketStatus s) p.release
  | typed {p : Page} {text : JsStr} : PageStep atob p (.typed text) (p.sendChatMessage text)
  | ended {p : Page} {i now : Nat} {perf : Rat} (hi : i ∈ p.sounding) :
      PageStep atob p (.ended i now perf) (p.finish atob i now perf)
  | frame {p : Page} {nowMs pulse : Rat} :
      PageStep atob p (.frame nowMs pulse) (p.updateVisemePlayback nowMs pulse)
  | segment {p : Page} {base64 : JsStr} {now later : Nat} (hlive : p.listening = true)
      (hclock : now ≤ later) : PageStep atob p (.segment base64 now later) (p.onSegment base64 now later)
  | autoStarted {p : Page} {now : Nat} : PageStep atob p (.autoStarted now) (p.startAuto now)
  | autoStopped {p : Page} : PageStep atob p .autoStopped p.stopAuto
  | recorded {p : Page} {base64 : JsStr} :
      PageStep atob p (.recorded base64) (p.sendRecording base64)
  | modeSwitched {p : Page} : PageStep atob p .modeSwitched p.switchMode

def pageSystem (atob : JsStr → Bool) : System Page PageEvent where
  init p := p = .start
  step := PageStep atob

/-- The chunks that the server sent -/
def arrivals (ls : List PageEvent) : List AudioItem :=
  ls.filterMap fun l => match l with
    | .message (.audio chunk timeline) _ _ =>
      if chunk ≠ [] then some { audioPayload := chunk, timeline } else none
    | _ => none

namespace Page

/-- The playback: what has arrived is played or waits, in order, and one chunk at most sounds. -/
structure Playback (atob : JsStr → Bool) (arrived : List AudioItem) (p : Page) : Prop where
  order : p.played ++ p.audioQueue.filter (fun item => atob item.audioPayload) =
    arrived.filter fun item => atob item.audioPayload
  queued : ∀ item ∈ p.audioQueue, item ∈ arrived
  sounds : p.sounding = if p.audioPlaying then [p.played.length - 1] else []
  flag : p.audioPlaying = true → p.audioFlag = true

/-- Nothing waits while nothing sounds, and the flag is up while something does. -/
def Flowing (p : Page) : Prop :=
  (p.audioPlaying = false → p.audioQueue = []) ∧ p.audioFlag = p.audioPlaying

section Playback

variable {atob : JsStr → Bool} {arrived : List AudioItem} {p q : Page} {item : AudioItem}
  {perf : Rat} {i now : Nat}

/-- What the playback reads of a page -/
def SamePlayback (p q : Page) : Prop :=
  q.audioQueue = p.audioQueue ∧ q.audioPlaying = p.audioPlaying ∧ q.played = p.played ∧
    q.sounding = p.sounding ∧ q.audioFlag = p.audioFlag

theorem Playback.same (h : Playback atob arrived p) (hsame : SamePlayback p q) :
    Playback atob arrived q := by
  obtain ⟨hqueue, hplaying, hplayed, hsounding, hflag⟩ := hsame
  constructor
  · rw [hplayed, hqueue]
    exact h.order
  · rw [hqueue]
    exact h.queued
  · rw [hsounding, hplaying, hplayed]
    exact h.sounds
  · rw [hplaying, hflag]
    exact h.flag

theorem Flowing.same (h : Flowing p) (hsame : SamePlayback p q) : Flowing q := by
  obtain ⟨hqueue, hplaying, -, -, hflag⟩ := hsame
  unfold Flowing
  rw [hqueue, hplaying, hflag]
  exact h

theorem SamePlayback.refl (p : Page) : SamePlayback p p := ⟨rfl, rfl, rfl, rfl, rfl⟩

theorem samePlayback_release (p : Page) : SamePlayback p p.release := ⟨rfl, rfl, rfl, rfl, rfl⟩

theorem samePlayback_onTranscript (p : Page) (text error : JsStr) (now : Nat) :
    SamePlayback p (p.onTranscript text error now) := by
  unfold onTranscript
  split
  · exact ⟨rfl, rfl, rfl, rfl, rfl⟩
  · split
    · dsimp only
      split <;> exact ⟨rfl, rfl, rfl, rfl, rfl⟩
    · exact .refl p

theorem samePlayback_onSegment (p : Page) (base64 : JsStr) (now later : Nat) :
    SamePlayback p (p.onSegment base64 now later) := by
  unfold onSegment
  split
  · exact .refl p
  · dsimp only
    split
    · split <;> exact ⟨rfl, rfl, rfl, rfl, rfl⟩
    · split <;> exact ⟨rfl, rfl, rfl, rfl, rfl⟩

theorem samePlayback_frame (p : Page) (nowMs pulse : Rat) :
    SamePlayback p (p.updateVisemePlayback nowMs pulse) := by
  unfold updateVisemePlayback
  dsimp only
  split <;> exact ⟨rfl, rfl, rfl, rfl, rfl⟩

/-- The next chunk of an idle player starts, or goes where it cannot be read. -/
theorem Playback.next (h : Playback atob arrived p) :
    Playback atob arrived (p.playNextAudioChunk atob perf) := by
  unfold playNextAudioChunk
  split
  · exact h
  · rename_i hidle
    rw [Bool.not_eq_true] at hidle
    split
    · exact h
    · rename_i item rest hqueue
      have hqueued : ∀ item ∈ rest, item ∈ arrived := by
        intro item hitem
        exact h.queued item (by rw [hqueue]; exact List.mem_cons_of_mem _ hitem)
      have horder := h.order
      rw [hqueue] at horder
      split
      · rename_i hok
        have hnext : Playback atob arrived { p with
            audioQueue := rest
            audioPlaying := true
            audioFlag := true
            played := p.played ++ [item]
            sounding := p.sounding ++ [p.played.length] } := by
          refine ⟨?_, hqueued, ?_, fun _ => rfl⟩
          · rw [List.filter_cons_of_pos (by simpa using hok)] at horder
            rw [← horder, List.append_assoc]
            rfl
          · have hsounds := h.sounds
            rw [hidle] at hsounds
            simp [hsounds]
        dsimp only
        split
        · exact hnext.same ⟨rfl, rfl, rfl, rfl, rfl⟩
        · exact hnext.same ⟨rfl, rfl, rfl, rfl, rfl⟩
      · rename_i hbad
        rw [List.filter_cons_of_neg (by simpa using hbad)] at horder
        exact ⟨horder, hqueued, h.sounds, h.flag⟩

theorem Playback.arrive (h : Playback atob arrived p) (item : AudioItem) :
    Playback atob (arrived ++ [item]) { p with audioQueue := p.audioQueue ++ [item] } := by
  refine ⟨?_, ?_, h.sounds, h.flag⟩
  · rw [List.filter_append, List.filter_append, ← h.order, List.append_assoc]
  · intro other hother
    rcases List.mem_append.mp hother with hother | hother
    · exact List.mem_append_left _ (h.queued other hother)
    · exact List.mem_append_right _ hother

/-- The one chunk that sounds is the one that ends. -/
theorem Playback.ended (h : Playback atob arrived p) (hi : i ∈ p.sounding) :
    Playback atob arrived
      { p with audioPlaying := false, sounding := p.sounding.filter (· ≠ i) } := by
  refine ⟨h.order, h.queued, ?_, nofun⟩
  have hsounds := h.sounds
  split at hsounds
  · rw [hsounds, List.mem_singleton] at hi
    simp [hsounds, hi]
  · rw [hsounds] at hi
    cases hi

theorem Playback.finish (h : Playback atob arrived p) (hi : i ∈ p.sounding) :
    Playback atob arrived (p.finish atob i now perf) := by
  unfold Page.finish
  dsimp only
  split
  · exact (h.ended hi).next
  · have hended := h.ended hi
    exact ⟨hended.order, hended.queued, hended.sounds, nofun⟩

/-- Where every chunk can be read, a player that was idle plays the first that waits. -/
theorem flowing_next (hidle : p.audioPlaying = false)
    (hok : ∀ item ∈ p.audioQueue, atob item.audioPayload = true) (hone : p.audioQueue ≠ []) :
    Flowing (p.playNextAudioChunk atob perf) := by
  unfold playNextAudioChunk
  rw [if_neg (by rw [hidle]; exact Bool.false_ne_true)]
  split
  · rename_i hnil
    exact absurd hnil hone
  · rename_i item rest hqueue
    rw [if_pos (hok item (by rw [hqueue]; exact List.mem_cons_self))]
    dsimp only
    split <;> exact ⟨nofun, rfl⟩

theorem Flowing.bind (h : Flowing p) (hok : atob item.audioPayload = true) :
    Flowing (p.bindAudioPlayback atob item perf) := by
  unfold bindAudioPlayback
  by_cases hplaying : p.audioPlaying = true
  · unfold playNextAudioChunk
    rw [if_pos (by exact hplaying)]
    exact ⟨fun hidle => absurd (hplaying.symm.trans hidle) Bool.noConfusion, h.2⟩
  · rw [Bool.not_eq_true] at hplaying
    apply flowing_next
    · exact hplaying
    · intro other hother
      rw [h.1 hplaying, List.nil_append, List.mem_singleton] at hother
      rw [hother]
      exact hok
    · simp

theorem flowing_finish (hok : ∀ item ∈ p.audioQueue, atob item.audioPayload = true) :
    Flowing (p.finish atob i now perf) := by
  unfold Page.finish
  dsimp only
  split
  · rename_i hone
    exact flowing_next rfl hok hone
  · rename_i hnil
    exact ⟨fun _ => not_not.mp hnil, rfl⟩

theorem arrivals_concat (ls : List PageEvent) (l : PageEvent) :
    arrivals (ls ++ [l]) = arrivals ls ++ arrivals [l] := List.filterMap_append

/-- Everything but a chunk that comes or ends leaves the playback as it is. -/
theorem step_playback {l : PageEvent} (hst : PageStep atob p l q) :
    arrivals [l] = [] ∧ SamePlayback p q ∨
      (∃ item perf, arrivals [l] = [item] ∧ q = p.bindAudioPlayback atob item perf) ∨
      ∃ i now perf, l = .ended i now perf ∧ i ∈ p.sounding ∧ q = p.finish atob i now perf := by
  cases hst with
  | @message e now perf =>
    cases e with
    | chatPartial role text => cases role <;> exact .inl ⟨rfl, rfl, rfl, rfl, rfl, rfl⟩
    | chat role text final =>
      cases role with
      | assistant =>
        refine .inl ⟨rfl, ?_⟩
        unfold onEvent
        dsimp only
        split <;> exact ⟨rfl, rfl, rfl, rfl, rfl⟩
      | _ => exact .inl ⟨rfl, rfl, rfl, rfl, rfl, rfl⟩
    | state state => exact .inl ⟨rfl, rfl, rfl, rfl, rfl, rfl⟩
    | transcript text error => exact .inl ⟨rfl, samePlayback_onTranscript p text error now⟩
    | audio chunk timeline =>
      by_cases hchunk : chunk ≠ []
      · refine .inr (.inl ⟨{ audioPayload := chunk, timeline }, perf, ?_, ?_⟩)
        · simp [arrivals, hchunk]
        · simp [onEvent, hchunk]
      · refine .inl ⟨?_, ?_⟩
        · simp [arrivals, not_not.mp hchunk]
        · simp only [onEvent, if_neg hchunk]
          exact .refl p
    | viseme timeline =>
      refine .inl ⟨rfl, ?_⟩
      unfold onEvent
      dsimp only
      split <;> exact ⟨rfl, rfl, rfl, rfl, rfl⟩
  | socketStatus => exact .inl ⟨rfl, samePlayback_release p⟩
  | typed =>
    refine .inl ⟨rfl, ?_⟩
    unfold sendChatMessage
    split <;> exact ⟨rfl, rfl, rfl, rfl, rfl⟩
  | ended hi => exact .inr (.inr ⟨_, _, _, rfl, hi, rfl⟩)
  | frame => exact .inl ⟨rfl, samePlayback_frame p _ _⟩
  | segment => exact .inl ⟨rfl, samePlayback_onSegment p _ _ _⟩
  | autoStarted => exact .inl ⟨rfl, rfl, rfl, rfl, rfl, rfl⟩
  | autoStopped => exact .inl ⟨rfl, rfl, rfl, rfl, rfl, rfl⟩
  | recorded =>
    refine .inl ⟨rfl, ?_⟩
    unfold sendRecording
    split <;> exact ⟨rfl, rfl, rfl, rfl, rfl⟩
  | modeSwitched => exact .inl ⟨rfl, rfl, rfl, rfl, rfl, rfl⟩

theorem Playback.step {ls : List PageEvent} {l : PageEvent} (h : Playback atob (arrivals ls) p)
    (hst : PageStep atob p l q) : Playback atob (arrivals (ls ++ [l])) q := by
  rw [arrivals_concat]
  rcases step_playback hst with ⟨hnil, hsame⟩ | ⟨item, perf, hone, rfl⟩ | ⟨i, now, perf, rfl, hi, rfl⟩
  · rw [hnil, List.append_nil]
    exact h.same hsame
  · rw [hone]
    exact (h.arrive item).next
  · exact (List.append_nil (arrivals ls)).symm ▸ h.finish hi

theorem Flowing.step {ls : List PageEvent} {l : PageEvent} (hplayback : Playback atob (arrivals ls) p)
    (hok : ∀ item ∈ arrivals (ls ++ [l]), atob item.audioPayload = true) (h : Flowing p)
    (hst : PageStep atob p l q) : Flowing q := by
  rw [arrivals_concat] at hok
  rcases step_playback hst with ⟨-, hsame⟩ | ⟨item, perf, hone, rfl⟩ | ⟨i, now, perf, -, -, rfl⟩
  · exact h.same hsame
  · apply h.bind
    apply hok
    rw [hone]
    exact List.mem_append_right _ List.mem_cons_self
  · apply flowing_finish
    intro item hitem
    exact hok item (List.mem_append_left _ (hplayback.queued item hitem))

theorem playback_start : Playback atob (arrivals []) .start := ⟨rfl, nofun, rfl, nofun⟩

theorem Playback.of_run {ls : List PageEvent} (hrun : (pageSystem atob).Run .start ls p) :
    Playback atob (arrivals ls) p :=
  hrun.invariant_labels (I := fun p ls => Playback atob (arrivals ls) p) Playback.step playback_start

end Playback

end Page

/-- Over every run the chunks of speech that can be read are played in the order in which they came,
each once and never two at a time; and where all can be read, none waits while nothing sounds, and
the page takes the avatar for audible exactly while a chunk sounds. -/
theorem chunks_play_in_turn {atob : JsStr → Bool} {p : Page} {ls : List PageEvent}
    (hrun : (pageSystem atob).Run .start ls p) :
    p.played ++ p.audioQueue.filter (fun item => atob item.audioPayload) =
        (arrivals ls).filter (fun item => atob item.audioPayload) ∧
      p.sounding.length ≤ 1 ∧
      ((∀ item ∈ arrivals ls, atob item.audioPayload = true) →
        (p.sounding = [] → p.audioQueue = []) ∧ (p.audioFlag = true ↔ p.sounding ≠ [])) := by
  have hinv : Page.Playback atob (arrivals ls) p ∧
      ((∀ item ∈ arrivals ls, atob item.audioPayload = true) → Page.Flowing p) := by
    have hstart : Page.Playback atob (arrivals []) .start ∧
        ((∀ item ∈ arrivals [], atob item.audioPayload = true) → Page.Flowing .start) :=
      ⟨Page.playback_start, fun _ => ⟨fun _ => rfl, rfl⟩⟩
    refine hrun.invariant_labels (I := fun p ls => Page.Playback atob (arrivals ls) p ∧
      ((∀ item ∈ arrivals ls, atob item.audioPayload = true) → Page.Flowing p)) ?_ hstart
    intro p l q ls h hst
    refine ⟨h.1.step hst, ?_⟩
    intro hok
    apply Page.Flowing.step h.1 hok _ hst
    apply h.2
    intro item hitem
    rw [Page.arrivals_concat] at hok
    exact hok item (List.mem_append_left _ hitem)
  obtain ⟨hplayback, hflowing⟩ := hinv
  have hsounds := hplayback.sounds
  refine ⟨hplayback.order, ?_, ?_⟩
  · rw [hsounds]
    split
    · exact Nat.le_refl 1
    · exact Nat.zero_le 1
  · intro hok
    obtain ⟨hwait, hflag⟩ := hflowing hok
    cases hplaying : p.audioPlaying with
    | true =>
      rw [hplaying] at hsounds hflag
      rw [hsounds, hflag]
      simp
    | false =>
      rw [hplaying] at hsounds hflag
      rw [hsounds, hflag]
      simp [hwait hplaying]

/-- The microphone listens, and the second chunk of a reply comes while the first sounds. -/
def heardEvents : List PageEvent :=
  [.autoStarted 0, .message (.audio [0x41] []) 10 0, .message (.audio [0x42] []) 20 0, .ended 0 1000 0]

/-- The page while the second chunk sounds -/
def heard : Page :=
  (((Page.start.startAuto 0).onEvent (fun _ => true) (.audio [0x41] []) 10 0).onEvent (fun _ => true)
    (.audio [0x42] []) 20 0).finish (fun _ => true) 0 1000 0

theorem heard_run : (pageSystem fun _ => true).Run .start heardEvents heard :=
  .cons .autoStarted (.cons .message (.cons .message (.cons (.ended (by decide)) (.nil _))))

theorem chunks_play_in_turn_heard :
    heard.played.map AudioItem.audioPayload = [[0x41], [0x42]] ∧
      heard.played ++ heard.audioQueue.filter (fun _ => true) =
        (arrivals heardEvents).filter (fun _ => true) ∧
      heard.sounding.length ≤ 1 ∧ (heard.sounding = [] → heard.audioQueue = []) ∧
      (heard.audioFlag = true ↔ heard.sounding ≠ []) := by
  obtain ⟨horder, hone, hflowing⟩ := chunks_play_in_turn heard_run
  exact ⟨rfl, horder, hone, hflowing fun _ _ => rfl⟩

namespace PageEvent

/-- What ends the turn that a segment has begun, as far as the page can tell -/
def Releases : PageEvent → Prop
  | .message (.chat .assistant _ final) _ _ => final = true
  | .message (.transcript text error) _ _ => text = [] ∧ error ≠ []
  | .socketStatus _ => True
  | .autoStopped => True
  | .modeSwitched => True
  | _ => False

/-- What sets the guard -/
def Guards : PageEvent → Prop
  | .message (.chat .assistant _ final) _ _ => final = true
  | .message (.transcript text error) _ _ => text = [] ∧ error ≠ []
  | .ended _ _ _ => True
  | .autoStarted _ => True
  | _ => False

end PageEvent

namespace Page

/-- A segment that comes now is handed to the socket. -/
def SendsAt (p : Page) (base64 : JsStr) (now : Nat) : Prop :=
  base64 ≠ [] ∧ p.isSpeakingNow = false ∧ p.autoMicGuardUntil ≤ now ∧
    (p.autoTurnInFlight = true → p.autoTurnInFlightSince + 12000 < now)

section Segments

variable {atob : JsStr → Bool} {p q r : Page} {l : PageEvent} {ls : List PageEvent} {base64 : JsStr}
  {now later t : Nat}

theorem onSegment_sends (later : Nat) (h : p.SendsAt base64 now) :
    (p.onSegment base64 now later).outbox = p.outbox ++ [.audio base64] ∧
      (p.onSegment base64 now later).autoTurnInFlight = true ∧
      (p.onSegment base64 now later).autoTurnInFlightSince = later := by
  obtain ⟨hne, hsilent, hguard, hlate⟩ := h
  unfold onSegment
  rw [if_neg (by simp [hne, hsilent, hguard])]
  by_cases hflight : p.autoTurnInFlight = true
  · simp [hflight, hlate hflight, release]
  · simp [hflight]

theorem onSegment_else (h : ¬ p.SendsAt base64 now) : p.onSegment base64 now later = p := by
  unfold onSegment
  split
  · rfl
  · rename_i hpass
    rw [not_or, not_or, Bool.not_eq_true, not_lt] at hpass
    obtain ⟨hne, hsilent, hguard⟩ := hpass
    have hflight : ¬ (p.autoTurnInFlight = true → p.autoTurnInFlightSince + 12000 < now) :=
      fun hlate => h ⟨hne, hsilent, hguard, hlate⟩
    rw [Classical.not_imp] at hflight
    simp [hflight.1, hflight.2]

/-- A segment was sent at a time and nothing has ended its turn: the lock is held since then. -/
def HeldSince (t : Nat) (p : Page) : Prop := p.autoTurnInFlight = true ∧ t ≤ p.autoTurnInFlightSince

/-- What the lock is kept in -/
def SameLock (p q : Page) : Prop :=
  q.autoTurnInFlight = p.autoTurnInFlight ∧ q.autoTurnInFlightSince = p.autoTurnInFlightSince

theorem playNext_lock (perf : Rat) :
    SameLock p (p.playNextAudioChunk atob perf) ∧
      (p.playNextAudioChunk atob perf).autoMicGuardUntil = p.autoMicGuardUntil ∧
      (p.audioFlag = true → (p.playNextAudioChunk atob perf).audioFlag = true) := by
  unfold playNextAudioChunk
  split
  · exact ⟨⟨rfl, rfl⟩, rfl, id⟩
  · split
    · exact ⟨⟨rfl, rfl⟩, rfl, id⟩
    · split
      · dsimp only
        split <;> exact ⟨⟨rfl, rfl⟩, rfl, fun _ => rfl⟩
      · exact ⟨⟨rfl, rfl⟩, rfl, id⟩

theorem onSegment_lock (base64 : JsStr) (now later : Nat) :
    (p.onSegment base64 now later).autoMicGuardUntil = p.autoMicGuardUntil ∧
      (p.onSegment base64 now later).audioFlag = p.audioFlag := by
  unfold onSegment
  split
  · exact ⟨rfl, rfl⟩
  · dsimp only
    split
    · split <;> exact ⟨rfl, rfl⟩
    · split <;> exact ⟨rfl, rfl⟩

theorem finish_lock (i now : Nat) (perf : Rat) : SameLock p (p.finish atob i now perf) := by
  unfold finish
  dsimp only
  split
  · exact (playNext_lock perf).1
  · exact ⟨rfl, rfl⟩

theorem onTranscript_lock {text error : JsStr} (hl : ¬ (text = [] ∧ error ≠ [])) :
    SameLock p (p.onTranscript text error now) ∧
      (p.onTranscript text error now).autoMicGuardUntil = p.autoMicGuardUntil := by
  unfold onTranscript
  by_cases htext : text = []
  · have herror : ¬ error ≠ [] := fun herror => hl ⟨htext, herror⟩
    rw [if_neg (not_not.mpr htext), if_neg herror]
    exact ⟨⟨rfl, rfl⟩, rfl⟩
  · rw [if_pos htext]
    exact ⟨⟨rfl, rfl⟩, rfl⟩

/-- A message that ends no turn leaves lock and guard as they are. -/
theorem onEvent_lock {e : ServerEvent} {perf : Rat}
    (hl : ¬ PageEvent.Releases (.message e now perf)) :
    SameLock p (p.onEvent atob e now perf) ∧
      (p.onEvent atob e now perf).autoMicGuardUntil = p.autoMicGuardUntil := by
  cases e with
  | chatPartial role text => cases role <;> exact ⟨⟨rfl, rfl⟩, rfl⟩
  | chat role text final =>
    cases role with
    | assistant =>
      have hfinal : ¬ final = true := hl
      unfold onEvent
      dsimp only
      rw [if_neg hfinal]
      exact ⟨⟨rfl, rfl⟩, rfl⟩
    | _ => exact ⟨⟨rfl, rfl⟩, rfl⟩
  | state state => exact ⟨⟨rfl, rfl⟩, rfl⟩
  | transcript text error => exact onTranscript_lock hl
  | audio chunk timeline =>
    unfold onEvent
    dsimp only
    split
    · let q : Page := { p with audioQueue := p.audioQueue ++ [{ audioPayload := chunk, timeline }] }
      have h : SameLock q (q.playNextAudioChunk atob perf) ∧ _ := playNext_lock perf
      exact ⟨h.1, h.2.1⟩
    · exact ⟨⟨rfl, rfl⟩, rfl⟩
  | viseme timeline =>
    unfold onEvent
    dsimp only
    split <;> exact ⟨⟨rfl, rfl⟩, rfl⟩

/-- No message ends what sounds. -/
theorem onEvent_audioFlag {e : ServerEvent} {perf : Rat} (h : p.audioFlag = true) :
    (p.onEvent atob e now perf).audioFlag = true := by
  have hst : PageStep atob p (.message e now perf) (p.onEvent atob e now perf) := .message
  rcases step_playback hst with
    ⟨-, hsame⟩ | ⟨item, perf', -, heq⟩ | ⟨i, now', perf', hl, -, -⟩
  · exact hsame.2.2.2.2.trans h
  · rw [heq]
    exact (playNext_lock perf').2.2 h
  · cases hl

theorem releases_iff_guards (e : ServerEvent) (now : Nat) (perf : Rat) :
    PageEvent.Releases (.message e now perf) ↔ PageEvent.Guards (.message e now perf) := by
  cases e with
  | chat role text final => cases role <;> exact Iff.rfl
  | _ => exact Iff.rfl

theorem HeldSince.same (h : HeldSince t p) (hsame : SameLock p q) : HeldSince t q := by
  unfold HeldSince
  rw [hsame.1, hsame.2]
  exact h

theorem HeldSince.step (h : HeldSince t p) (hst : PageStep atob p l q) (hl : ¬ l.Releases) :
    HeldSince t q := by
  cases hst with
  | message => exact h.same (onEvent_lock hl).1
  | socketStatus => exact absurd trivial hl
  | typed =>
    apply h.same
    unfold sendChatMessage
    split <;> exact ⟨rfl, rfl⟩
  | ended => exact h.same (finish_lock _ _ _)
  | frame =>
    apply h.same
    unfold updateVisemePlayback
    dsimp only
    split <;> exact ⟨rfl, rfl⟩
  | @segment base64 now later _ hclock =>
    by_cases hsends : p.SendsAt base64 now
    · obtain ⟨-, hflight, hsince⟩ := onSegment_sends later hsends
      refine ⟨hflight, ?_⟩
      have hlate := hsends.2.2.2 h.1
      have hheld := h.2
      omega
    · rw [onSegment_else hsends]
      exact h
  | autoStarted => exact h.same ⟨rfl, rfl⟩
  | autoStopped => exact absurd trivial hl
  | recorded =>
    apply h.same
    unfold sendRecording
    split <;> exact ⟨rfl, rfl⟩
  | modeSwitched => exact absurd trivial hl

theorem HeldSince.run (h : HeldSince t p) (hrun : (pageSystem atob).Run p ls q)
    (hls : ∀ l ∈ ls, ¬ l.Releases) : HeldSince t q := by
  induction hrun with
  | nil => exact h
  | cons hst _ ih =>
    apply ih
    · exact h.step hst (hls _ List.mem_cons_self)
    · exact fun l hl => hls l (List.mem_cons_of_mem _ hl)

theorem sends_of_outbox (h : (p.onSegment base64 now later).outbox ≠ p.outbox) :
    p.SendsAt base64 now := by
  by_contra hnot
  rw [onSegment_else hnot] at h
  exact h rfl

/-- A chunk has ended at a time, and the next one sounds or the guard is set. -/
def Deaf (t : Nat) (p : Page) : Prop := p.audioFlag = true ∨ t + 1200 ≤ p.autoMicGuardUntil

theorem deaf_finish (hflag : p.audioFlag = true) (i t : Nat) (perf : Rat) :
    Deaf t (p.finish atob i t perf) := by
  unfold finish
  dsimp only
  split
  · exact .inl ((playNext_lock perf).2.2 hflag)
  · exact .inr (Nat.le_refl _)

theorem Deaf.step (h : Deaf t p) (hst : PageStep atob p l q) (hl : ¬ l.Guards) : Deaf t q := by
  have keep : ∀ {q : Page}, q.audioFlag = p.audioFlag →
      q.autoMicGuardUntil = p.autoMicGuardUntil → Deaf t q := by
    intro q hflag hguard
    unfold Deaf
    rw [hflag, hguard]
    exact h
  cases hst with
  | @message e now perf =>
    rcases h with hflag | hlate
    · exact .inl (onEvent_audioFlag hflag)
    · right
      rw [(onEvent_lock ((releases_iff_guards e now perf).not.mpr hl)).2]
      exact hlate
  | socketStatus => exact keep rfl rfl
  | typed =>
    unfold sendChatMessage
    split <;> exact keep rfl rfl
  | ended => exact absurd trivial hl
  | frame =>
    unfold updateVisemePlayback
    dsimp only
    split <;> exact keep rfl rfl
  | segment => exact keep (onSegment_lock _ _ _).2 (onSegment_lock _ _ _).1
  | autoStarted => exact absurd trivial hl
  | autoStopped => exact keep rfl rfl
  | recorded =>
    unfold sendRecording
    split <;> exact keep rfl rfl
  | modeSwitched => exact keep rfl rfl

theorem Deaf.run (h : Deaf t p) (hrun : (pageSystem atob).Run p ls q)
    (hls : ∀ l ∈ ls, ¬ l.Guards) : Deaf t q := by
  induction hrun with
  | nil => exact h
  | cons hst _ ih =>
    apply ih
    · exact h.step hst (hls _ List.mem_cons_self)
    · exact fun l hl => hls l (List.mem_cons_of_mem _ hl)

end Segments

end Page

/-- In every run a segment of the microphone is sent only while the avatar is neither heard nor about
to speak and the guard has passed; and until the turn that it begins is over, by the last text of the
reply, a failed transcript, a change of the connection or a switch of the microphone, no other
segment is sent for twelve seconds. -/
theorem segments_take_turns {atob : JsStr → Bool} {p q : Page} {ls : List PageEvent} {base64 : JsStr}
    {now later : Nat} (hrun : (pageSystem atob).Run .start ls p)
    (hst : PageStep atob p (.segment base64 now later) q) (hsent : q.outbox ≠ p.outbox) :
    p.sounding = [] ∧ p.stateFlag = false ∧ p.autoMicGuardUntil ≤ now ∧
      q.outbox = p.outbox ++ [.audio base64] ∧
      ∀ ms r s base64' now' later', (pageSystem atob).Run q ms r → (∀ l ∈ ms, ¬ l.Releases) →
        PageStep atob r (.segment base64' now' later') s → s.outbox ≠ r.outbox →
        later + 12000 < now' := by
  have hplayback := Page.Playback.of_run hrun
  cases hst with
  | segment =>
    have hsends := Page.sends_of_outbox hsent
    obtain ⟨hout, hflight, hsince⟩ := Page.onSegment_sends later hsends
    obtain ⟨-, hsilent, hguard, -⟩ := hsends
    obtain ⟨hstate, haudio⟩ := Bool.or_eq_false_iff.mp hsilent
    refine ⟨?_, hstate, hguard, hout, ?_⟩
    · have hidle : ¬ p.audioPlaying = true := fun hplaying => by
        have hflag := hplayback.flag hplaying
        cases haudio.symm.trans hflag
      rw [hplayback.sounds, if_neg hidle]
    · intro ms r s base64' now' later' hrest hnone hst' hsent'
      have hheld : Page.HeldSince later (p.onSegment base64 now later) := ⟨hflight, hsince.ge⟩
      have hheld' := hheld.run hrest hnone
      cases hst' with
      | segment =>
        have hlate := (Page.sends_of_outbox hsent').2.2.2 hheld'.1
        have hsince' := hheld'.2
        omega

/-- The page after two segments, each of which is sent -/
def twiceHeard : Page :=
  ((Page.start.startAuto 0).onSegment [0x42] 600 600).onSegment [0x43] 12601 12601

theorem segments_take_turns_twice :
    (pageSystem fun _ => true).Run .start [.autoStarted 0, .segment [0x42] 600 600,
      .segment [0x43] 12601 12601]
        twiceHeard ∧
      twiceHeard.outbox = [.micStart, .audio [0x42], .audio [0x43]] ∧ 600 + 12000 < 12601 := by
  have hrun : (pageSystem fun _ => true).Run .start [.autoStarted 0] (Page.start.startAuto 0) :=
    .cons .autoStarted (.nil _)
  have hfirst : PageStep (fun _ => true) (Page.start.startAuto 0) (.segment [0x42] 600 600)
      ((Page.start.startAuto 0).onSegment [0x42] 600 600) := .segment rfl (Nat.le_refl _)
  have hsecond : PageStep (fun _ => true) ((Page.start.startAuto 0).onSegment [0x42] 600 600)
      (.segment [0x43] 12601 12601) twiceHeard := .segment rfl (Nat.le_refl _)
  have hsent : ((Page.start.startAuto 0).onSegment [0x42] 600 600).outbox ≠
      (Page.start.startAuto 0).outbox := fun h => absurd (congrArg List.length h) (by decide)
  have hagain : twiceHeard.outbox ≠ ((Page.start.startAuto 0).onSegment [0x42] 600 600).outbox :=
    fun h => absurd (congrArg List.length h) (by decide)
  have hturns := (segments_take_turns hrun hfirst hsent).2.2.2.2
  exact ⟨hrun.append (.cons hfirst (.single hsecond)), rfl,
    hturns [] _ _ _ _ _ (.nil _) (fun l hl => by cases hl) hsecond hagain⟩

/-- After the end of any chunk, until something else sets the guard, no segment is sent for more than
a second: either the next chunk sounds or the guard stands. -/
theorem echo_window {atob : JsStr → Bool} {p q r s : Page} {ls ms : List PageEvent}
    {base64 : JsStr} {i t now later : Nat} {perf : Rat} (hrun : (pageSystem atob).Run .start ls p)
    (hended : PageStep atob p (.ended i t perf) q) (hrest : (pageSystem atob).Run q ms r)
    (hnone : ∀ l ∈ ms, ¬ l.Guards) (hst : PageStep atob r (.segment base64 now later) s)
    (hsent : s.outbox ≠ r.outbox) : t + 1200 ≤ now := by
  have hplayback := Page.Playback.of_run hrun
  cases hended with
  | ended hi =>
    have hplaying : p.audioPlaying = true := by
      by_contra hidle
      have hsounds := hplayback.sounds
      rw [if_neg hidle] at hsounds
      rw [hsounds] at hi
      cases hi
    have hdeaf := (Page.deaf_finish (hplayback.flag hplaying) i t perf).run hrest hnone
    cases hst with
    | segment =>
      obtain ⟨-, hsilent, hguard, -⟩ := Page.sends_of_outbox hsent
      rcases hdeaf with hflag | hlate
      · cases (Bool.or_eq_false_iff.mp hsilent).2.symm.trans hflag
      · exact Nat.le_trans hlate hguard

/-- The page after the last chunk -/
def fellSilent : Page := heard.finish (fun _ => true) 1 2000 0

theorem echo_window_heard :
    (pageSystem fun _ => true).Run .start (heardEvents ++ [.ended 1 2000 0, .segment [0x43] 3200 3200])
        (fellSilent.onSegment [0x43] 3200 3200) ∧
      (fellSilent.onSegment [0x43] 3200 3200).outbox = fellSilent.outbox ++ [.audio [0x43]] ∧
      2000 + 1200 ≤ 3200 := by
  have hended : PageStep (fun _ => true) heard (.ended 1 2000 0) fellSilent := .ended (by decide)
  have hsegment : PageStep (fun _ => true) fellSilent (.segment [0x43] 3200 3200)
      (fellSilent.onSegment [0x43] 3200 3200) := .segment rfl (Nat.le_refl _)
  have hsent : (fellSilent.onSegment [0x43] 3200 3200).outbox ≠ fellSilent.outbox :=
    fun h => absurd (congrArg List.length h) (by decide)
  exact ⟨heard_run.append (.cons hended (.single hsegment)), rfl,
    echo_window heard_run hended (.nil _) (fun l hl => by cases hl) hsegment hsent⟩

section Parts

variable {atob : JsStr → Bool} {p q : Page} {l : PageEvent}

theorem Page.playNext_parts (perf : Rat) :
    (p.playNextAudioChunk atob perf).box = p.box ∧
      ((p.playNextAudioChunk atob perf).visemes = p.visemes ∨
        ∃ timeline, (p.playNextAudioChunk atob perf).visemes = p.visemes.start timeline perf) := by
  unfold Page.playNextAudioChunk
  split
  · exact ⟨rfl, .inl rfl⟩
  · split
    · exact ⟨rfl, .inl rfl⟩
    · split
      · dsimp only
        split
        · exact ⟨rfl, .inl rfl⟩
        · exact ⟨rfl, .inr ⟨_, rfl⟩⟩
      · exact ⟨rfl, .inl rfl⟩

theorem Page.finish_parts (i now : Nat) (perf : Rat) :
    (p.finish atob i now perf).box = p.box ∧
      ((p.finish atob i now perf).visemes = p.visemes ∨
        (∃ timeline, (p.finish atob i now perf).visemes = p.visemes.start timeline perf) ∨
        ∃ c, (p.finish atob i now perf).visemes = p.visemes.call c) := by
  unfold Page.finish
  dsimp only
  split
  · obtain ⟨hbox, hsame | hstart⟩ := @Page.playNext_parts atob
      { p with audioPlaying := false, sounding := p.sounding.filter (· ≠ i) } perf
    · exact ⟨hbox, .inl hsame⟩
    · exact ⟨hbox, .inr (.inl hstart)⟩
  · exact ⟨rfl, .inr (.inr ⟨.rest _, rfl⟩)⟩

theorem Page.onSegment_parts (base64 : JsStr) (now later : Nat) :
    (p.onSegment base64 now later).box = p.box ∧
      (p.onSegment base64 now later).visemes = p.visemes := by
  unfold Page.onSegment
  split
  · exact ⟨rfl, rfl⟩
  · dsimp only
    split
    · split <;> exact ⟨rfl, rfl⟩
    · split <;> exact ⟨rfl, rfl⟩

theorem Page.onTranscript_parts (text error : JsStr) (now : Nat) :
    (∃ calls : List ChatBoxCall,
        (p.onTranscript text error now).box = calls.foldl ChatBox.call p.box) ∧
      (p.onTranscript text error now).visemes = p.visemes := by
  unfold Page.onTranscript
  split
  · exact ⟨⟨[.resetAssistantDraft, .addMessage .user text], rfl⟩, rfl⟩
  · split
    · dsimp only
      split
      · exact ⟨⟨[.addMessage .system error], rfl⟩, rfl⟩
      · exact ⟨⟨[], rfl⟩, rfl⟩
    · exact ⟨⟨[], rfl⟩, rfl⟩

/-- The chat box of a page is what calls of `chat.js` make of it. -/
theorem step_box (hst : PageStep atob p l q) :
    ∃ calls : List ChatBoxCall, q.box = calls.foldl ChatBox.call p.box := by
  cases hst with
  | @message e now perf =>
    cases e with
    | chatPartial role text =>
      cases role with
      | assistant => exact ⟨[.appendAssistantPartial (stripPersonaPrefix text)], rfl⟩
      | _ => exact ⟨[], rfl⟩
    | chat role text final =>
      cases role with
      | assistant =>
        refine ⟨[.finalizeAssistantMessage (stripPersonaPrefix text)], ?_⟩
        unfold Page.onEvent
        dsimp only
        split <;> rfl
      | user => exact ⟨[.addMessage .user (stripPersonaPrefix text)], rfl⟩
      | system => exact ⟨[.addMessage .system (stripPersonaPrefix text)], rfl⟩
      | other name => exact ⟨[.addMessage (.other name) (stripPersonaPrefix text)], rfl⟩
    | state state =>
      by_cases hthinking : state = str "thinking"
      · refine ⟨[.showThinking], ?_⟩
        change (if state = str "thinking" then _ else _) = _
        rw [if_pos hthinking]
        rfl
      · refine ⟨[.removeThinking], ?_⟩
        change (if state = str "thinking" then _ else _) = _
        rw [if_neg hthinking]
        rfl
    | transcript text error => exact (Page.onTranscript_parts text error now).1
    | audio chunk timeline =>
      refine ⟨[], ?_⟩
      unfold Page.onEvent
      dsimp only
      split
      · exact (Page.playNext_parts perf).1
      · rfl
    | viseme timeline =>
      refine ⟨[], ?_⟩
      unfold Page.onEvent
      dsimp only
      split <;> rfl
  | @typed text =>
    by_cases hnil : text = []
    · refine ⟨[], ?_⟩
      rw [Page.sendChatMessage, if_pos hnil]
      rfl
    · refine ⟨[.resetAssistantDraft, .addMessage .user text], ?_⟩
      rw [Page.sendChatMessage, if_neg hnil]
      rfl
  | ended => exact ⟨[], (Page.finish_parts _ _ _).1⟩
  | frame =>
    refine ⟨[], ?_⟩
    unfold Page.updateVisemePlayback
    dsimp only
    split <;> rfl
  | segment => exact ⟨[], (Page.onSegment_parts _ _ _).1⟩
  | recorded =>
    refine ⟨[], ?_⟩
    unfold Page.sendRecording
    split <;> rfl
  | _ => exact ⟨[], rfl⟩

/-- The player of a page is started or called, or left as it is. -/
theorem step_visemes (hst : PageStep atob p l q) :
    q.visemes = p.visemes ∨ (∃ timeline perf, q.visemes = p.visemes.start timeline perf) ∨
      ∃ c, q.visemes = p.visemes.call c := by
  cases hst with
  | @message e now perf =>
    cases e with
    | chatPartial role text => cases role <;> exact .inl rfl
    | chat role text final =>
      cases role with
      | assistant =>
        left
        unfold Page.onEvent
        dsimp only
        split <;> rfl
      | _ => exact .inl rfl
    | state state => exact .inr (.inr ⟨.rest _, rfl⟩)
    | transcript text error => exact .inl (Page.onTranscript_parts text error now).2
    | audio chunk timeline =>
      unfold Page.onEvent
      dsimp only
      split
      · rcases (@Page.playNext_parts atob
          { p with audioQueue := p.audioQueue ++ [{ audioPayload := chunk, timeline }] }
          perf).2 with hsame | ⟨fs, hstart⟩
        · exact .inl hsame
        · exact .inr (.inl ⟨fs, perf, hstart⟩)
      · exact .inl rfl
    | viseme timeline =>
      unfold Page.onEvent
      dsimp only
      split
      · exact .inr (.inl ⟨timeline, perf, rfl⟩)
      · exact .inl rfl
  | typed =>
    left
    unfold Page.sendChatMessage
    split <;> rfl
  | @ended i now perf =>
    rcases (@Page.finish_parts atob p i now perf).2 with hsame | ⟨fs, hstart⟩ | hcall
    · exact .inl hsame
    · exact .inr (.inl ⟨fs, perf, hstart⟩)
    · exact .inr (.inr hcall)
  | @frame nowMs pulse =>
    refine .inr (.inr ⟨.update nowMs p.isSpeakingNow pulse, ?_⟩)
    unfold Page.updateVisemePlayback
    dsimp only
    split <;> rfl
  | segment => exact .inl (Page.onSegment_parts _ _ _).2
  | recorded =>
    left
    unfold Page.sendRecording
    split <;> rfl
  | _ => exact .inl rfl

end Parts

/-- What starts of timelines and calls of the player can make of it -/
inductive VisemePlayer.Driven : VisemePlayer → Prop where
  | idle : Driven .idle
  | start {v : VisemePlayer} (h : Driven v) (timeline : List Frame) (perf : Rat) :
      Driven (v.start timeline perf)
  | call {v : VisemePlayer} (h : Driven v) (c : VisemeCall) : Driven (v.call c)

/-- Over every run the page does nothing else with its player. -/
theorem run_visemes {atob : JsStr → Bool} {p : Page} {ls : List PageEvent}
    (hrun : (pageSystem atob).Run .start ls p) : p.visemes.Driven := by
  refine hrun.invariant (I := fun p : Page => p.visemes.Driven) ?_ .idle
  intro p l q h hst
  rcases step_visemes hst with hsame | ⟨timeline, perf, hstart⟩ | ⟨c, hcall⟩
  · rwa [hsame]
  · rw [hstart]
    exact .start h timeline perf
  · rw [hcall]
    exact .call h c

/-- Over every run what stands in the chat box is what some calls of `chat.js` have put there. -/
theorem run_box {atob : JsStr → Bool} {p : Page} {ls : List PageEvent}
    (hrun : (pageSystem atob).Run .start ls p) :
    ∃ calls : List ChatBoxCall, p.box = calls.foldl ChatBox.call .empty := by
  refine hrun.invariant (I := fun p : Page => ∃ calls : List ChatBoxCall,
    p.box = calls.foldl ChatBox.call .empty) ?_ ⟨[], rfl⟩
  intro p l q h hst
  obtain ⟨calls, hcalls⟩ := h
  obtain ⟨more, hmore⟩ := step_box hst
  exact ⟨calls ++ more, by rw [hmore, hcalls, List.foldl_append]⟩

end Client

end VirtualPerson
