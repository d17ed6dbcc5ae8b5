import VirtualPerson.Avatar.StateMachine
import VirtualPerson.Llm.Streaming
import VirtualPerson.Ws.TtsWorker

/-!
# A turn

`_process_text_chat` from taking the turn lock to its exit, in streaming and in
non-streaming mode, next to the TTS worker that a streaming turn starts. A label carries
what the call it stands for answered: the LLM, the TTS service, the websocket.
-/

namespace VirtualPerson

set_option autoImplicit false

structure TurnConfig where
  /-- `speed_mode == "fast"` -/
  fast : Bool
  /-- `stream_chat_func` is set. -/
  streaming : Bool
  filler : Bool

def TurnConfig.softLimit (cfg : TurnConfig) : Int := if cfg.fast then 20 else 24

inductive FillerLang where
  | zhCN
  | en

def fillerLang (response : PyStr) : FillerLang :=
  if response.any fun ch => 0x4e00 ≤ ch && ch ≤ 0x9fff then .zhCN else .en

/-- What is sent over the websocket during a turn. -/
inductive Message where
  | state (snapshot : AvatarState)
  | chatPartial (text : PyStr)
  | audio
  /-- The expression that `EmotionMapper.analyze` finds for a text. -/
  | expression (text : PyStr)
  | chat (text : PyStr)

inductive TurnPc where
  | entering
  /-- In `_safe_send_state(websocket, "thinking")`. -/
  | thinking
  | chatting
  | synthesizing (response : PyStr)
  | shaping (response : PyStr)
  | sounding (response : PyStr)
  | opening
  | receiving
  | fetchingFiller (delta : PyStr)
  | shapingFiller (delta : PyStr)
  | soundingFiller (delta : PyStr)
  /-- Before the next `chat_partial`; `last` after the flush. -/
  | telling (sentences : List PyStr) (last : Bool)
  | putting (sentence : PyStr) (rest : List PyStr) (last : Bool)
  | puttingEnd
  /-- In `await worker_task`. -/
  | joining
  /-- In `_safe_send_state(websocket, "speaking")`. -/
  | speaking (response : PyStr)
  | expressing (response : PyStr)
  | replying (response : PyStr)
  /-- In `_safe_send_state(websocket, "idle")`. -/
  | idling
  /-- In the `finally` block. -/
  | leaving (out : Except PyExc Unit)
  | exited (out : Except PyExc Unit)

structure Turn where
  pc : TurnPc
  /-- `_turn_lock` is held. -/
  locked : Bool
  turnInProgress : Bool
  avatar : AvatarState
  lastResponseText : PyStr
  response : PyStr
  chunker : SentenceChunker
  sentFillerAudio : Bool
  /-- `worker_task` with its queue, once created. -/
  worker : Option TtsWorker

inductive TurnEvent where
  | enter
  | send (m : Message) (out : Except PyExc Unit)
  | chat (out : Except PyExc PyStr)
  | synthesize (text : PyStr) (out : Except PyExc Unit)
  | visemes (out : Except PyExc Unit)
  | openStream (out : Except PyExc Unit)
  /-- A `next(iterator)` and the time since the turn started thinking. -/
  | next (out : Except PyExc (Option PyStr)) (elapsedMs : Nat)
  | getFiller (lang : FillerLang) (out : Except PyExc Unit)
  | put (x : Option PyStr)
  | join
  | leave
  | worker (e : TtsEvent)

namespace Turn

/-- Go on with what a call returned; an exception leads to the `finally` block. -/
def after {α : Type} (s : Turn) (out : Except PyExc α) (k : α → Turn) : Turn :=
  match out with
  | .ok a => k a
  | .error e => { s with pc := .leaving (.error e) }

/-- The answer's sentences go out one by one; after the last one comes the end of the stream or the
next delta. -/
def tell (s : Turn) (sentences : List PyStr) (last : Bool) : Turn :=
  { s with
    pc := match sentences with
      | [] => if last then .puttingEnd else .receiving
      | _ => .telling sentences last }

/-- `sentence_chunker.push(delta)` and the loop over what it returns. -/
def push (s : Turn) (delta : PyStr) : Turn :=
  let (sentences, chunker) := s.chunker.push delta
  { s with chunker }.tell sentences false

def flush (s : Turn) : Turn :=
  let (tail, chunker) := s.chunker.flush
  { s with chunker }.tell (if tail = [] then [] else [tail]) true

def fillerDue (cfg : TurnConfig) (s : Turn) (w : TtsWorker) (elapsedMs : Nat) : Bool :=
  cfg.filler && !w.sentFirstAudio && !s.sentFillerAudio && 1200 ≤ elapsedMs

def receive (cfg : TurnConfig) (s : Turn) (w : TtsWorker) (elapsedMs : Nat) : Option PyStr → Turn
  | none => s.flush
  | some delta =>
    let s := { s with response := s.response ++ delta }
    if s.fillerDue cfg w elapsedMs then { s with pc := .fetchingFiller delta } else s.push delta

def joined (s : Turn) (w : TtsWorker) : Turn :=
  { s with
    pc := if w.sentFirstAudio then .expressing (PyStr.strip s.response)
      else .speaking (PyStr.strip s.response) }

end Turn

/-- One step of a turn. The steps of the worker lie between those of the turn in every order, also
after the turn's exit: nothing cancels the task. -/
inductive TurnStep (cfg : TurnConfig) : Turn → TurnEvent → Turn → Prop where
  | enter {s : Turn} (hpc : s.pc = .entering) (hfree : s.locked = false) :
      TurnStep cfg s .enter { s with pc := .thinking, locked := true, turnInProgress := true }
  -- `_safe_send_state` moves the machine before it sends
  | thinking {s : Turn} (out : Except PyExc Unit) (hpc : s.pc = .thinking) :
      TurnStep cfg s (.send (.state (s.avatar.transition .thinking)) out)
        ({ s with avatar := s.avatar.transition .thinking }.after out fun _ =>
          { s with
            avatar := s.avatar.transition .thinking
            pc := if cfg.streaming then .opening else .chatting })
  | chat {s : Turn} (out : Except PyExc PyStr) (hpc : s.pc = .chatting) :
      TurnStep cfg s (.chat out) (s.after out fun response => { s with pc := .speaking response })
  | speaking {s : Turn} {response : PyStr} (out : Except PyExc Unit) (hpc : s.pc = .speaking response) :
      TurnStep cfg s (.send (.state (s.avatar.transition .speaking)) out)
        ({ s with avatar := s.avatar.transition .speaking }.after out fun _ =>
          { s with
            avatar := s.avatar.transition .speaking
            pc := if cfg.streaming then .expressing response else .synthesizing response })
  | synthesize {s : Turn} {response : PyStr} (out : Except PyExc Unit)
      (hpc : s.pc = .synthesizing response) :
      TurnStep cfg s (.synthesize response out)
        (s.after out fun _ => { s with pc := .shaping response })
  | visemes {s : Turn} {response : PyStr} (out : Except PyExc Unit) (hpc : s.pc = .shaping response) :
      TurnStep cfg s (.visemes out) (s.after out fun _ => { s with pc := .sounding response })
  | audio {s : Turn} {response : PyStr} (out : Except PyExc Unit) (hpc : s.pc = .sounding response) :
      TurnStep cfg s (.send .audio out) (s.after out fun _ => { s with pc := .expressing response })
  | openStream {s : Turn} (out : Except PyExc Unit) (hpc : s.pc = .opening) :
      TurnStep cfg s (.openStream out)
        (s.after out fun _ =>
          { s with
            pc := .receiving
            response := []
            chunker := .init cfg.softLimit
            sentFillerAudio := false
            worker := some .start })
  | next {s : Turn} {w : TtsWorker} (out : Except PyExc (Option PyStr)) (elapsedMs : Nat)
      (hpc : s.pc = .receiving) (hw : s.worker = some w) :
      TurnStep cfg s (.next out elapsedMs) (s.after out fun d => s.receive cfg w elapsedMs d)
  | getFiller {s : Turn} {delta : PyStr} (out : Except PyExc Unit)
      (hpc : s.pc = .fetchingFiller delta) :
      TurnStep cfg s (.getFiller (fillerLang s.response) out)
        (s.after out fun _ => { s with pc := .shapingFiller delta })
  | fillerVisemes {s : Turn} {delta : PyStr} (out : Except PyExc Unit)
      (hpc : s.pc = .shapingFiller delta) :
      TurnStep cfg s (.visemes out) (s.after out fun _ => { s with pc := .soundingFiller delta })
  | fillerAudio {s : Turn} {delta : PyStr} (out : Except PyExc Unit)
      (hpc : s.pc = .soundingFiller delta) :
      TurnStep cfg s (.send .audio out)
        (s.after out fun _ => { s with sentFillerAudio := true }.push delta)
  | chatPartial {s : Turn} {sentence : PyStr} {rest : List PyStr} {last : Bool}
      (out : Except PyExc Unit) (hpc : s.pc = .telling (sentence :: rest) last) :
      TurnStep cfg s (.send (.chatPartial sentence) out)
        (s.after out fun _ => { s with pc := .putting sentence rest last })
  | put {s : Turn} {w : TtsWorker} {sentence : PyStr} {rest : List PyStr} {last : Bool}
      (hpc : s.pc = .putting sentence rest last) (hw : s.worker = some w) :
      TurnStep cfg s (.put (some sentence))
        ({ s with worker := some { w with queue := w.queue ++ [some sentence] } }.tell rest last)
  | putEnd {s : Turn} {w : TtsWorker} (hpc : s.pc = .puttingEnd) (hw : s.worker = some w) :
      TurnStep cfg s (.put none)
        { s with pc := .joining, worker := some { w with queue := w.queue ++ [none] } }
  | joinReturned {s : Turn} {w : TtsWorker} (hpc : s.pc = .joining) (hw : s.worker = some w)
      (hret : w.pc = .returned) : TurnStep cfg s .join (s.joined w)
  -- the worker's exception comes out of the `await`
  | joinRaised {s : Turn} {w : TtsWorker} {e : PyExc} (hpc : s.pc = .joining)
      (hw : s.worker = some w) (hraised : w.pc = .raised e) :
      TurnStep cfg s .join { s with pc := .leaving (.error e) }
  | expression {s : Turn} {response : PyStr} (out : Except PyExc Unit)
      (hpc : s.pc = .expressing response) :
      TurnStep cfg s (.send (.expression response) out)
        (s.after out fun _ => { s with pc := .replying response })
  | reply {s : Turn} {response : PyStr} (out : Except PyExc Unit) (hpc : s.pc = .replying response) :
      TurnStep cfg s (.send (.chat response) out)
        (s.after out fun _ => { s with pc := .idling, lastResponseText := response })
  | idle {s : Turn} (out : Except PyExc Unit) (hpc : s.pc = .idling) :
      TurnStep cfg s (.send (.state (s.avatar.transition .idle)) out)
        { s with avatar := s.avatar.transition .idle, pc := .leaving out }
  | leave {s : Turn} {out : Except PyExc Unit} (hpc : s.pc = .leaving out) :
      TurnStep cfg s .leave { s with pc := .exited out, turnInProgress := false, locked := false }
  -- `sent_first_audio` is set where the worker moves the machine to `speaking`
  | worker {s : Turn} {w w' : TtsWorker} {e : TtsEvent} (hw : s.worker = some w)
      (hstep : WorkerStep cfg.fast w e w') :
      TurnStep cfg s (.worker e)
        { s with
          worker := some w'
          avatar := if w.sentFirstAudio = w'.sentFirstAudio then s.avatar
            else s.avatar.transition .speaking }

/-- A turn that waits for the lock, whatever the handler and the state machine were left in. -/
def turnSystem (cfg : TurnConfig) : System Turn TurnEvent where
  init s := s.pc = .entering ∧ s.worker = none
  step := TurnStep cfg

/-- A call that returns. A failed synthesis is caught by the worker, though not by a non-streaming
turn, and a failed send of the final `idle` state comes too late to matter. -/
def TurnEvent.Smooth : TurnEvent → Prop
  | .send (.state .idle) _ => True
  | .send _ out => out.isOk = true
  | .chat out => out.isOk = true
  | .synthesize _ out => out.isOk = true
  | .visemes out => out.isOk = true
  | .openStream out => out.isOk = true
  | .next out _ => out.isOk = true
  | .getFiller _ out => out.isOk = true
  | .worker e => e.Smooth
  | _ => True

def SmoothTurn (es : List TurnEvent) : Prop := ∀ e ∈ es, e.Smooth

/-- What a turn owes once it has exited. -/
structure Turn.CleanedUp (s : Turn) : Prop where
  unlocked : s.locked = false
  notInProgress : s.turnInProgress = false
  noneWaits : ∀ w, s.worker = some w → w.pc ≠ .waiting
  idle : s.avatar = .idle

inductive Phase where
  | before
  | alone
  | beside
  | ended

def TurnPc.phase : TurnPc → Phase
  | .entering => .before
  | .thinking => .before
  | .receiving => .beside
  | .fetchingFiller _ => .beside
  | .shapingFiller _ => .beside
  | .soundingFiller _ => .beside
  | .telling _ _ => .beside
  | .putting _ _ _ => .beside
  | .puttingEnd => .beside
  | .joining => .beside
  | .leaving _ => .ended
  | .exited _ => .ended
  | _ => .alone

namespace Turn

/-- No worker is left to take a step. -/
def WorkerDone (s : Turn) : Prop := ∀ w, s.worker = some w → w.pc = .returned

def WorkerRaised (s : Turn) : Prop := ∃ w e, s.worker = some w ∧ w.pc = .raised e

end Turn

/-- A turn is idle at its end exactly when every call before its last send returned. -/
def TurnInv (s : Turn) (es : List TurnEvent) : Prop :=
  match s.pc.phase with
  | .before => s.worker = none ∧ SmoothTurn es
  | .alone => s.avatar ≠ .idle ∧ s.WorkerDone ∧ SmoothTurn es
  | .beside => s.avatar ≠ .idle ∧ (SmoothTurn es ↔ ¬ s.WorkerRaised)
  | .ended =>
    (∀ out, s.pc = .exited out → s.locked = false ∧ s.turnInProgress = false) ∧
      (s.avatar = .idle ∧ s.WorkerDone ∧ SmoothTurn es ∨ s.avatar ≠ .idle ∧ ¬ SmoothTurn es)

section Invariant

variable {cfg : TurnConfig} {s t : Turn} {e : TurnEvent} {es : List TurnEvent}

theorem turnInv_before (hp : s.pc.phase = .before) :
    TurnInv s es ↔ s.worker = none ∧ SmoothTurn es := by
  rw [TurnInv, hp]

theorem turnInv_alone (hp : s.pc.phase = .alone) :
    TurnInv s es ↔ s.avatar ≠ .idle ∧ s.WorkerDone ∧ SmoothTurn es := by
  rw [TurnInv, hp]

theorem turnInv_beside (hp : s.pc.phase = .beside) :
    TurnInv s es ↔ s.avatar ≠ .idle ∧ (SmoothTurn es ↔ ¬ s.WorkerRaised) := by
  rw [TurnInv, hp]

theorem turnInv_ended (hp : s.pc.phase = .ended) :
    TurnInv s es ↔
      (∀ out, s.pc = .exited out → s.locked = false ∧ s.turnInProgress = false) ∧
        (s.avatar = .idle ∧ s.WorkerDone ∧ SmoothTurn es ∨ s.avatar ≠ .idle ∧ ¬ SmoothTurn es) := by
  rw [TurnInv, hp]

theorem smoothTurn_concat : SmoothTurn (es ++ [e]) ↔ SmoothTurn es ∧ e.Smooth := by
  simp [SmoothTurn, or_imp, forall_and]

theorem turnInv_leaving (x : PyExc) (hpc : t.pc = .leaving (.error x)) (ha : t.avatar ≠ .idle)
    (hes : ¬ SmoothTurn es) : TurnInv t es := by
  refine (turnInv_ended (by rw [hpc]; rfl)).mpr ⟨fun out hout => ?_, .inr ⟨ha, hes⟩⟩
  rw [hpc] at hout
  cases hout

section Calls

variable {α : Type} {out : Except PyExc α} {k : α → Turn}

theorem turnInv_after (ha : s.avatar ≠ .idle) (he : e.Smooth ↔ out.isOk = true)
    (hk : ∀ a, e.Smooth → TurnInv (k a) (es ++ [e])) : TurnInv (s.after out k) (es ++ [e]) := by
  cases out with
  | ok a => exact hk a (he.mpr rfl)
  | error x =>
    refine turnInv_leaving x rfl ha ?_
    intro h
    cases he.mp (smoothTurn_concat.mp h).2

theorem TurnInv.call_alone (h : TurnInv s es) (hp : s.pc.phase = .alone)
    (he : e.Smooth ↔ out.isOk = true)
    (hk : ∀ a, (k a).pc.phase = .alone ∧ (k a).avatar = s.avatar ∧ (k a).worker = s.worker) :
    TurnInv (s.after out k) (es ++ [e]) := by
  obtain ⟨ha, hdone, hes⟩ := (turnInv_alone hp).mp h
  apply turnInv_after ha he
  intro a hsm
  obtain ⟨hpk, hav, hw⟩ := hk a
  refine (turnInv_alone hpk).mpr ⟨hav ▸ ha, ?_, smoothTurn_concat.mpr ⟨hes, hsm⟩⟩
  intro w hkw
  exact hdone w (hw ▸ hkw)

theorem TurnInv.call_beside (h : TurnInv s es) (hp : s.pc.phase = .beside)
    (he : e.Smooth ↔ out.isOk = true)
    (hk : ∀ a, (k a).pc.phase = .beside ∧ (k a).avatar = s.avatar ∧ (k a).worker = s.worker) :
    TurnInv (s.after out k) (es ++ [e]) := by
  obtain ⟨ha, hes⟩ := (turnInv_beside hp).mp h
  apply turnInv_after ha he
  intro a hsm
  obtain ⟨hpk, hav, hw⟩ := hk a
  refine (turnInv_beside hpk).mpr ⟨hav ▸ ha, ?_⟩
  rw [smoothTurn_concat, and_iff_left hsm, hes, Turn.WorkerRaised, Turn.WorkerRaised, hw]

end Calls

/-- The worker is alive after exactly the smooth steps. -/
theorem workerStep_smooth_iff {fast : Bool} {w w' : TtsWorker} {e : TtsEvent}
    (h : WorkerStep fast w e w') : e.Smooth ↔ ∀ x, w'.pc ≠ .raised x := by
  cases h with
  | synthesisFailed x hpc =>
    simp only [TtsEvent.Smooth]
    split
    · rename_i hx
      exact ⟨fun _ => WorkerPc.next_ne_raised _, fun _ => hx⟩
    · rename_i hx
      exact ⟨fun h => absurd h hx, fun h => absurd rfl (h x)⟩
  | shapingRaises x hpc => exact ⟨fun h => h.elim, fun h => absurd rfl (h x)⟩
  | announcingRaises x hpc => exact ⟨fun h => h.elim, fun h => absurd rfl (h x)⟩
  | sendingRaises x hpc => exact ⟨fun h => h.elim, fun h => absurd rfl (h x)⟩
  | mergeEnd hpc hlt hq => exact iff_of_true trivial (WorkerPc.afterMerge_ne_raised _ _)
  | mergeEmpty hpc hlt hq => exact iff_of_true trivial (WorkerPc.afterMerge_ne_raised _ _)
  | mergeFull hpc hle => exact iff_of_true trivial (WorkerPc.afterMerge_ne_raised _ _)
  | sent u hpc => exact iff_of_true trivial (WorkerPc.next_ne_raised _)
  | shaped u hpc =>
    apply iff_of_true trivial
    intro x
    simp only
    split <;> exact fun h => by cases h
  | _ => exact iff_of_true trivial fun x h => by cases h

theorem not_raised_of_step {fast : Bool} {w w' : TtsWorker} {e : TtsEvent}
    (h : WorkerStep fast w e w') (x : PyExc) : w.pc ≠ .raised x := by
  intro hpc
  cases h <;> simp_all

theorem turnInv_init (h : (turnSystem cfg).init s) : TurnInv s [] := by
  obtain ⟨hpc, hw⟩ := h
  exact (turnInv_before (by rw [hpc]; rfl)).mpr ⟨hw, by simp [SmoothTurn]⟩

@[simp] theorem phase_tell (s : Turn) (sentences : List PyStr) (last : Bool) :
    (s.tell sentences last).pc.phase = .beside := by
  cases sentences <;> cases last <;> rfl

theorem receive_frame (s : Turn) (w : TtsWorker) (elapsedMs : Nat) (d : Option PyStr) :
    (s.receive cfg w elapsedMs d).pc.phase = .beside ∧
      (s.receive cfg w elapsedMs d).avatar = s.avatar ∧
      (s.receive cfg w elapsedMs d).worker = s.worker := by
  cases d with
  | none => exact ⟨phase_tell _ _ _, rfl, rfl⟩
  | some delta =>
    simp only [Turn.receive]
    split
    · exact ⟨rfl, rfl, rfl⟩
    · exact ⟨phase_tell _ _ _, rfl, rfl⟩

theorem workerRaised_put {w : TtsWorker} {q : List (Option PyStr)} (hs : s.worker = some w)
    (ht : t.worker = some { w with queue := q }) : t.WorkerRaised ↔ s.WorkerRaised := by
  simp [Turn.WorkerRaised, hs, ht]

theorem TurnInv.put (h : TurnInv s es) (hp : s.pc.phase = .beside) {w : TtsWorker}
    {q : List (Option PyStr)} (hs : s.worker = some w) (he : e.Smooth)
    (hpt : t.pc.phase = .beside) (ha : t.avatar = s.avatar)
    (ht : t.worker = some { w with queue := q }) : TurnInv t (es ++ [e]) := by
  obtain ⟨hav, hes⟩ := (turnInv_beside hp).mp h
  refine (turnInv_beside hpt).mpr ⟨ha ▸ hav, ?_⟩
  rw [smoothTurn_concat, and_iff_left he, hes, workerRaised_put hs ht]

theorem TurnInv.worker (h : TurnInv s es) {w w' : TtsWorker} {e : TtsEvent} {a : AvatarState}
    (hw : s.worker = some w) (hstep : WorkerStep cfg.fast w e w')
    (ha : s.avatar ≠ .idle → a ≠ .idle) :
    TurnInv { s with worker := some w', avatar := a } (es ++ [.worker e]) := by
  have halive : ¬ s.WorkerRaised := by
    intro ⟨v, x, hv, hx⟩
    obtain rfl : w = v := Option.some.inj (hw.symm.trans hv)
    exact not_raised_of_step hstep x hx
  have hnotDone : ¬ s.WorkerDone := fun hdone => TtsWorker.no_step_of_returned (hdone w hw) hstep
  cases hp : s.pc.phase with
  | before =>
    rw [turnInv_before hp, hw] at h
    cases h.1
  | alone => exact absurd ((turnInv_alone hp).mp h).2.1 hnotDone
  | beside =>
    obtain ⟨hav, hes⟩ := (turnInv_beside hp).mp h
    have hp' : ({ s with worker := some w', avatar := a } : Turn).pc.phase = .beside := hp
    refine (turnInv_beside hp').mpr ⟨ha hav, ?_⟩
    rw [smoothTurn_concat, and_iff_right (hes.mpr halive)]
    apply (workerStep_smooth_iff hstep).trans
    simp [Turn.WorkerRaised]
  | ended =>
    obtain ⟨hfree, ⟨-, hdone, -⟩ | ⟨hav, hes⟩⟩ := (turnInv_ended hp).mp h
    · exact absurd hdone hnotDone
    · have hp' : ({ s with worker := some w', avatar := a } : Turn).pc.phase = .ended := hp
      exact (turnInv_ended hp').mpr ⟨hfree, .inr ⟨ha hav, fun h => hes (smoothTurn_concat.mp h).1⟩⟩

theorem smooth_state_iff {a : AvatarState} {out : Except PyExc Unit} (ha : a ≠ .idle) :
    (TurnEvent.send (.state a) out).Smooth ↔ out.isOk = true := by
  cases a with
  | idle => exact absurd rfl ha
  | _ => exact Iff.rfl

theorem turnInv_step (h : TurnInv s es) (hst : TurnStep cfg s e t) : TurnInv t (es ++ [e]) := by
  cases hst with
  | enter hpc hfree =>
    rw [turnInv_before (by rw [hpc]; rfl)] at h
    exact (turnInv_before rfl).mpr ⟨h.1, smoothTurn_concat.mpr ⟨h.2, trivial⟩⟩
  | thinking out hpc =>
    obtain ⟨hw, hes⟩ := (turnInv_before (by rw [hpc]; rfl)).mp h
    have ha : s.avatar.transition .thinking ≠ .idle := by simp
    apply turnInv_after ha (smooth_state_iff ha)
    intro _ hsm
    refine (turnInv_alone (by cases cfg.streaming <;> rfl)).mpr
      ⟨ha, ?_, smoothTurn_concat.mpr ⟨hes, hsm⟩⟩
    intro w hw'
    cases hw.symm.trans hw'
  | chat out hpc =>
    exact h.call_alone (by rw [hpc]; rfl) Iff.rfl fun _ => ⟨rfl, rfl, rfl⟩
  | speaking out hpc =>
    have hp : s.pc.phase = .alone := by rw [hpc]; rfl
    obtain ⟨ha, hdone, hes⟩ := (turnInv_alone hp).mp h
    have ha' := AvatarState.transition_ne_idle (b := .speaking) ha (by decide)
    have h' : TurnInv { s with avatar := s.avatar.transition .speaking } es :=
      (turnInv_alone (s := { s with avatar := s.avatar.transition .speaking }) hp).mpr ⟨ha', hdone, hes⟩
    exact h'.call_alone hp (smooth_state_iff ha') fun _ => ⟨by cases cfg.streaming <;> rfl, rfl, rfl⟩
  | synthesize out hpc =>
    exact h.call_alone (by rw [hpc]; rfl) Iff.rfl fun _ => ⟨rfl, rfl, rfl⟩
  | visemes out hpc =>
    exact h.call_alone (by rw [hpc]; rfl) Iff.rfl fun _ => ⟨rfl, rfl, rfl⟩
  | audio out hpc =>
    exact h.call_alone (by rw [hpc]; rfl) Iff.rfl fun _ => ⟨rfl, rfl, rfl⟩
  | openStream out hpc =>
    obtain ⟨ha, hdone, hes⟩ := (turnInv_alone (by rw [hpc]; rfl)).mp h
    refine turnInv_after ha Iff.rfl fun _ hsm => (turnInv_beside rfl).mpr ⟨ha, ?_⟩
    refine iff_of_true (smoothTurn_concat.mpr ⟨hes, hsm⟩) ?_
    intro ⟨w, x, hw, hx⟩
    cases hw
    cases hx
  | @next w out elapsedMs hpc hw =>
    exact h.call_beside (by rw [hpc]; rfl) Iff.rfl fun d => receive_frame s w elapsedMs d
  | getFiller out hpc =>
    exact h.call_beside (by rw [hpc]; rfl) Iff.rfl fun _ => ⟨rfl, rfl, rfl⟩
  | fillerVisemes out hpc =>
    exact h.call_beside (by rw [hpc]; rfl) Iff.rfl fun _ => ⟨rfl, rfl, rfl⟩
  | fillerAudio out hpc =>
    exact h.call_beside (by rw [hpc]; rfl) Iff.rfl fun _ => ⟨phase_tell _ _ _, rfl, rfl⟩
  | chatPartial out hpc =>
    exact h.call_beside (by rw [hpc]; rfl) Iff.rfl fun _ => ⟨rfl, rfl, rfl⟩
  | put hpc hw => exact h.put (by rw [hpc]; rfl) hw trivial (phase_tell _ _ _) rfl rfl
  | putEnd hpc hw => exact h.put (by rw [hpc]; rfl) hw trivial rfl rfl rfl
  | @joinReturned w hpc hw hret =>
    obtain ⟨ha, hes⟩ := (turnInv_beside (by rw [hpc]; rfl)).mp h
    have hdone : s.WorkerDone := by
      intro v hv
      rw [← Option.some.inj (hw.symm.trans hv)]
      exact hret
    have hsm : SmoothTurn es := by
      rw [hes]
      intro ⟨v, x, hv, hx⟩
      rw [hdone v hv] at hx
      cases hx
    refine (turnInv_alone ?_).mpr ⟨ha, hdone, smoothTurn_concat.mpr ⟨hsm, trivial⟩⟩
    unfold Turn.joined
    split <;> rfl
  | @joinRaised w x hpc hw hraised =>
    obtain ⟨ha, hes⟩ := (turnInv_beside (by rw [hpc]; rfl)).mp h
    refine turnInv_leaving x rfl ha ?_
    intro hsm
    exact hes.mp (smoothTurn_concat.mp hsm).1 ⟨w, x, hw, hraised⟩
  | expression out hpc =>
    exact h.call_alone (by rw [hpc]; rfl) Iff.rfl fun _ => ⟨rfl, rfl, rfl⟩
  | reply out hpc =>
    exact h.call_alone (by rw [hpc]; rfl) Iff.rfl fun _ => ⟨rfl, rfl, rfl⟩
  | idle out hpc =>
    obtain ⟨-, hdone, hes⟩ := (turnInv_alone (by rw [hpc]; rfl)).mp h
    have hsm : (TurnEvent.send (.state (s.avatar.transition .idle)) out).Smooth := by
      rw [AvatarState.transition_idle]
      exact trivial
    refine (turnInv_ended rfl).mpr ⟨?_, .inl ⟨by simp, hdone, smoothTurn_concat.mpr ⟨hes, hsm⟩⟩⟩
    exact fun _ hout => nomatch hout
  | leave hpc =>
    obtain ⟨-, hend⟩ := (turnInv_ended (by rw [hpc]; rfl)).mp h
    refine (turnInv_ended rfl).mpr ⟨fun _ _ => ⟨rfl, rfl⟩, ?_⟩
    rw [smoothTurn_concat, and_iff_left (show TurnEvent.leave.Smooth from trivial)]
    exact hend
  | worker hw hstep =>
    apply h.worker hw hstep
    intro ha
    split
    · exact ha
    · exact AvatarState.transition_ne_idle ha (by decide)

/-- Once a turn has exited, normally or by an exception, and whatever its worker does then, it has
cleaned up after itself exactly when every call before its last send returned, failed syntheses of
the worker apart. -/
theorem turn_cleaned_up_iff (cfg : TurnConfig) {s₀ s : Turn} {es : List TurnEvent}
    {out : Except PyExc Unit} (h₀ : (turnSystem cfg).init s₀) (hrun : (turnSystem cfg).Run s₀ es s)
    (hexit : s.pc = .exited out) : s.CleanedUp ↔ SmoothTurn es := by
  have hinv : TurnInv s es :=
    hrun.invariant_labels (I := TurnInv) (fun hi hst => turnInv_step hi hst) (turnInv_init h₀)
  obtain ⟨hfree, hend⟩ := (turnInv_ended (by rw [hexit]; rfl)).mp hinv
  rcases hend with ⟨ha, hdone, hes⟩ | ⟨ha, hes⟩
  · refine iff_of_true ⟨(hfree out hexit).1, (hfree out hexit).2, ?_, ha⟩ hes
    intro w hw hwait
    rw [hdone w hw] at hwait
    cases hwait
  · exact iff_of_false (fun h => ha h.idle) hes

end Invariant

/-- A streaming turn on a handler just built. -/
def Turn.first : Turn :=
  { pc := .entering
    locked := false
    turnInProgress := false
    avatar := .idle
    lastResponseText := []
    response := []
    chunker := .init 24
    sentFillerAudio := false
    worker := none }

def streamingTurn : TurnConfig := { fast := false, streaming := true, filler := false }

/-- The stream yields two clauses; its end comes while the worker speaks the first. -/
def spokenEvents : List TurnEvent :=
  [.enter, .send (.state .thinking) (.ok ()), .openStream (.ok ()), .next (.ok (some (str "Hi；Ann"))) 0,
    .send (.chatPartial (str "Hi；")) (.ok ()), .put (some (str "Hi；")),
    .worker (.get (some (str "Hi；"))), .worker .mergeEmpty, .worker (.synthesize [str "Hi；"] (.ok ())),
    .next (.ok none) 5, .send (.chatPartial (str "Ann")) (.ok ()), .put (some (str "Ann")), .put none,
    .worker (.visemes (.ok ())), .worker (.speaking (.ok ())), .worker (.audio (.ok ())),
    .worker (.get (some (str "Ann"))), .worker (.get none), .worker (.synthesize [str "Ann"] (.ok ())),
    .worker (.visemes (.ok ())), .worker (.audio (.ok ())), .join,
    .send (.expression (str "Hi；Ann")) (.ok ()), .send (.chat (str "Hi；Ann")) (.ok ()),
    .send (.state .idle) (.ok ()), .leave]

/-- The turn after `spokenEvents` -/
def spokenTurn : Turn :=
  { Turn.first with
    pc := .exited (.ok ())
    lastResponseText := str "Hi；Ann"
    response := str "Hi；Ann"
    chunker := { SentenceChunker.init 24 with firstChunkEmitted := true }
    worker := some { TtsWorker.start with pc := .returned, firstChunkDone := true, sentFirstAudio := true } }

theorem turn_cleaned_up_iff_spoken :
    (turnSystem streamingTurn).Run Turn.first spokenEvents spokenTurn ∧ SmoothTurn spokenEvents ∧
      spokenTurn.CleanedUp := by
  have hrun : (turnSystem streamingTurn).Run Turn.first spokenEvents spokenTurn := by
    refine .cons (.enter rfl rfl) (.cons (.thinking (.ok ()) rfl) ?_)
    refine .cons (.openStream (.ok ()) rfl) (.cons (.next (.ok (some (str "Hi；Ann"))) 0 rfl rfl) ?_)
    refine .cons (.chatPartial (.ok ()) rfl) (.cons (.put rfl rfl) ?_)
    refine .cons (.worker rfl (.getChunk rfl rfl)) (.cons (.worker rfl (.mergeEmpty rfl (by decide) rfl)) ?_)
    refine .cons (.worker rfl (.synthesized () rfl)) (.cons (.next (.ok none) 5 rfl rfl) ?_)
    refine .cons (.chatPartial (.ok ()) rfl) (.cons (.put rfl rfl) (.cons (.putEnd rfl rfl) ?_))
    refine .cons (.worker rfl (.shaped () rfl)) (.cons (.worker rfl (.announced () rfl)) ?_)
    refine .cons (.worker rfl (.sent () rfl)) (.cons (.worker rfl (.getChunk rfl rfl)) ?_)
    refine .cons (.worker rfl (.mergeEnd rfl (by decide) rfl)) (.cons (.worker rfl (.synthesized () rfl)) ?_)
    refine .cons (.worker rfl (.shaped () rfl)) (.cons (.worker rfl (.sent () rfl)) ?_)
    refine .cons (.joinReturned rfl rfl rfl) (.cons (.expression (.ok ()) rfl) ?_)
    refine .cons (.reply (.ok ()) rfl) (.cons (.idle (.ok ()) rfl) ?_)
    exact .cons (.leave rfl) (.nil _)
  have hsmooth : SmoothTurn spokenEvents := by
    simp only [SmoothTurn, spokenEvents, List.forall_mem_cons]
    simp [TurnEvent.Smooth, TtsEvent.Smooth, Except.isOk, Except.toBool]
  exact ⟨hrun, hsmooth, (turn_cleaned_up_iff streamingTurn ⟨rfl, rfl⟩ hrun rfl).mpr hsmooth⟩

/-- The iterator raises at its first `next`: the avatar keeps thinking, and the worker waits for
chunks that never come. -/
theorem not_turn_cleaned_up :
    ¬ ∀ (cfg : TurnConfig) (s₀ s : Turn) (es : List TurnEvent) (out : Except PyExc Unit),
      (turnSystem cfg).init s₀ → (turnSystem cfg).Run s₀ es s → s.pc = .exited out →
        s.CleanedUp := by
  intro hall
  have hrun : (turnSystem streamingTurn).Run Turn.first
      [.enter, .send (.state .thinking) (.ok ()), .openStream (.ok ()),
        .next (.error .valueError) 0, .leave]
      { Turn.first with
        pc := .exited (.error .valueError)
        avatar := .thinking
        worker := some .start } := by
    refine .cons (.enter rfl rfl) (.cons (.thinking (.ok ()) rfl) ?_)
    refine .cons (.openStream (.ok ()) rfl) (.cons (.next (.error .valueError) 0 rfl rfl) ?_)
    exact .cons (.leave rfl) (.nil _)
  cases (hall streamingTurn _ _ _ _ ⟨rfl, rfl⟩ hrun rfl).idle

end VirtualPerson
