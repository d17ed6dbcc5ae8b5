import Mathlib.Data.List.Dedup
import VirtualPerson.Chat.Calls
import VirtualPerson.Interleaving
import VirtualPerson.Python.Base64
import VirtualPerson.Python.Words
import VirtualPerson.Ws.Turn

/-!
# Requests and frames

The `/chat/turn` endpoint and the frames that the websocket handler reads, through the
turns they start, any number of them side by side. A turn takes one token of the rate
limiter before it costs anything.
-/

namespace VirtualPerson

set_option autoImplicit false

/-- What the handler was built with. -/
structure AvatarWebSocketHandler where
  rateLimiter : Bool
  streamChatFunc : Bool
  fillerService : Bool

/-- `ws_handler` -/
def wsHandler : AvatarWebSocketHandler :=
  { rateLimiter := true, streamChatFunc := true, fillerService := true }

structure ServerConfig extends ChatConfig where
  rateLimitEnabled : Bool
  queueEnabled : Bool
  /-- `VOICE_SPEED_MODE` is `fast`. -/
  fast : Bool

def AvatarWebSocketHandler.turnConfig (h : AvatarWebSocketHandler) (cfg : ServerConfig) : TurnConfig :=
  { fast := cfg.fast, streaming := h.streamChatFunc, filler := h.fillerService }

inductive WsFrame where
  | chat (text userId : Option PyStr)
  | audio (chunk userId sttLanguage : Option PyStr)
  | micStart
  | micStop
  | other

/-- What the code of a frame ends with: nothing more, or a turn. -/
inductive Next where
  | done
  | turn (text userId : PyStr)

inductive ChatTurnReply where
  | rateLimited (retryAfter : ℚ)
  | result (r : ChatResult)

section Handle

variable {V : Type} (h : AvatarWebSocketHandler) (cfg : ServerConfig) (rt : ChatRuntime)

/-- `chat_turn` past its gate. -/
def processTurn (body : ChatTurnIn) : AppM V ChatTurnReply := do
  let result ← Calls.runChatTurn cfg.toChatConfig rt body
  if cfg.queueEnabled then
    let _ : Bool ← Calls.handling PyExc.isException (perform (.enqueue body.userId)) fun _ => return false
    return .result result
  else return .result result

/-- `chat_turn`; `client` is the host of the request. -/
def chatTurn (client : Option PyStr) (body : ChatTurnIn) : AppM V ChatTurnReply :=
  if cfg.rateLimitEnabled then do
    let (allowed, retryAfter) ← perform (.allow (client.getD body.userId))
    if allowed then processTurn cfg rt body else return .rateLimited retryAfter
  else processTurn cfg rt body

/-- `_rate_limit_ok`; `peer` is the host of the client. -/
def rateLimitOk (peer : Option PyStr) (userId : PyStr) : AppM V Bool :=
  if !h.rateLimiter || !cfg.rateLimitEnabled then return true
  else do
    let (allowed, _) ← perform (.allow (PyStr.orElse (peer.getD []) userId))
    if allowed then return true
    else do
      perform (.send (.chat (str "我有点忙，稍等一下再说好吗？")))
      perform (.sendState .idle)
      return false

/-- `_echo_overlap`; `last` is `_last_response_text`. -/
def echoOverlap (cm : CaseMap) (last text : PyStr) : ℚ :=
  let words := (PyStr.split (cm.lower text)).dedup
  let respWords := PyStr.split (cm.lower last)
  if words = [] then 0 else (words.filter respWords.contains).length / words.length

def isEcho (cm : CaseMap) (last text : PyStr) : Bool :=
  last ≠ [] && text ≠ [] && decide (3 / 5 < echoOverlap cm last text)

def notUnderstood : HandlerMessage := .transcript [] (some (str "Could not understand audio"))

/-- The frame ends without a turn. -/
def giveUp : AppM V Next := do
  perform (.send notUnderstood)
  perform (.sendState .idle)
  return .done

/-- An audio frame once it is transcribed. -/
def transcribed (userId text : PyStr) : AppM V Next := do
  perform (.send (.status []))
  if text ≠ [] ∧ ¬ str "[stt" <+: text then do
    let last : PyStr ← perform .lastResponseText
    if isEcho rt.cm last text then giveUp
    else do
      perform (.send (.transcript text none))
      return .turn text userId
  else giveUp

/-- An audio frame with speech in it. -/
def spoken (peer : Option PyStr) (chunk : List UInt8) (userId : PyStr) (sttLanguage : Option PyStr) :
    AppM V Next := do
  let ok ← rateLimitOk h cfg peer userId
  if ok then do
    let language := PyStr.orElse (sttLanguage.getD (str "auto")) (str "auto")
    let text : PyStr ← perform (.transcribe chunk language)
    transcribed rt userId text
  else return .done

/-- `base64.b64decode(payload.get("chunk", "")) if payload.get("chunk") else b""` -/
def audioChunk (chunk : Option PyStr) : Except PyExc (List UInt8) :=
  match Base64.decode (chunk.getD []) with
  | some bytes => .ok bytes
  | none => .error .valueError

/-- An audio frame after the holdoff. -/
def listened (peer : Option PyStr) (chunk : Option PyStr) (userId : PyStr)
    (sttLanguage : Option PyStr) : AppM V Next := do
  perform (.sendState .listening)
  perform (.send (.status (str "Processing...")))
  let bytes ← Prog.lift (audioChunk chunk)
  let segments : List ℚ ← perform (.detect bytes)
  if segments = [] then do
    perform (.send (.status []))
    giveUp
  else spoken h cfg rt peer bytes userId sttLanguage

def handleAudio (peer chunk userId sttLanguage : Option PyStr) : AppM V Next := do
  let now : ℚ ← perform .monotonicMs
  let last : ℚ ← perform .lastAudioSendMs
  -- `POST_TTS_HOLDOFF_MS`
  if 0 < last ∧ now - last < 1500 then giveUp
  else listened h cfg rt peer chunk (userId.getD (str "ws_user")) sttLanguage

def handleChat (peer text userId : Option PyStr) : AppM V Next := do
  let ok ← rateLimitOk h cfg peer (userId.getD (str "ws_user"))
  if ok then return .turn (text.getD []) (userId.getD (str "ws_user")) else return .done

/-- The body of the loop of `handle`, up to `_process_text_chat`. -/
def handle (peer : Option PyStr) : WsFrame → AppM V Next
  | .chat text userId => handleChat h cfg peer text userId
  | .audio chunk userId sttLanguage => handleAudio h cfg rt peer chunk userId sttLanguage
  | .micStart => do
    perform (.sendState .listening)
    return .done
  | .micStop => do
    perform (.sendState .thinking)
    return .done
  | .other => return .done

/-- What comes in: a request from a host, or a frame of a peer's connection. -/
inductive Incoming where
  | http (client : Option PyStr) (body : ChatTurnIn)
  | ws (peer : Option PyStr) (frame : WsFrame)

def serve : Incoming → AppM V Next
  | .http client body => do
    let _ ← chatTurn cfg rt client body
    return .done
  | .ws peer frame => handle h cfg rt peer frame

/-- The call of a turn's pipeline: `chat_func` with what it returns as the response, or the iterator of
`stream_chat_func`. -/
inductive Callee (V : Type) where
  | func (p : AppM V PyStr)
  | iterator (p : AppM V Unit)

def callee (userId text : PyStr) : Callee V :=
  if h.streamChatFunc then .iterator (Calls.streamChat cfg.toChatConfig rt userId text)
  else .func do
    let result ← Calls.chatViaPipeline cfg.toChatConfig rt userId text
    return result.response

/-- A call of the pipeline; at a `yield` it stands still. -/
inductive CalleeStep : Callee V → (AppSig V).Event → Callee V → Prop where
  | func {o : AppOp V} {k : Except PyExc o.Result → AppM V PyStr} (a : Except PyExc o.Result) :
      CalleeStep (.func (.op o k)) ⟨o, a⟩ (.func (k a))
  | iterator {o : AppOp V} {k : Except PyExc o.Result → AppM V Unit} (a : Except PyExc o.Result)
      (hyield : ∀ text, o ≠ .yield text) : CalleeStep (.iterator (.op o k)) ⟨o, a⟩ (.iterator (k a))

/-- What the turn gets from its pipeline. -/
inductive CalleeGives : Callee V → TurnEvent → Callee V → Prop where
  | returned (response : PyStr) :
      CalleeGives (.func (.ret response)) (.chat (.ok response)) (.func (.ret response))
  | raised (e : PyExc) : CalleeGives (.func (.raise e)) (.chat (.error e)) (.func (.raise e))
  | yielded {text : PyStr} {k : Except PyExc Unit → AppM V Unit} (elapsedMs : Nat) :
      CalleeGives (.iterator (.op (.yield text) k)) (.next (.ok (some text)) elapsedMs)
        (.iterator (k (.ok ())))
  | ended (u : Unit) (elapsedMs : Nat) :
      CalleeGives (.iterator (.ret u)) (.next (.ok none) elapsedMs) (.iterator (.ret u))
  | failed (e : PyExc) (elapsedMs : Nat) :
      CalleeGives (.iterator (.raise e)) (.next (.error e) elapsedMs) (.iterator (.ret ()))

def TurnEvent.FromCallee : TurnEvent → Prop
  | .chat _ => True
  | .next _ _ => True
  | _ => False

/-- A request or a frame in progress. -/
inductive Serving (V : Type) where
  | running (p : AppM V Next)
  /-- In `_process_text_chat`, or after it while the TTS worker goes on. -/
  | turn (t : Turn) (c : Callee V)

inductive ServingEvent (V : Type) where
  | call (ev : (AppSig V).Event)
  /-- `_process_text_chat` is called. -/
  | start
  | turn (e : TurnEvent)

inductive ServingStep : Serving V → ServingEvent V → Serving V → Prop where
  | call {o : AppOp V} {k : Except PyExc o.Result → AppM V Next} (a : Except PyExc o.Result) :
      ServingStep (.running (.op o k)) (.call ⟨o, a⟩) (.running (k a))
  -- the turn finds the handler and the lock in any state
  | start {text userId : PyStr} {t : Turn} (ht : (turnSystem (h.turnConfig cfg)).init t) :
      ServingStep (.running (.ret (.turn text userId))) .start (.turn t (callee h cfg rt userId text))
  | callee {t : Turn} {c c' : Callee V} {ev : (AppSig V).Event}
      (hpc : t.pc = .chatting ∨ t.pc = .receiving) (hstep : CalleeStep c ev c') :
      ServingStep (.turn t c) (.call ev) (.turn t c')
  | gives {t t' : Turn} {c c' : Callee V} {e : TurnEvent} (hgives : CalleeGives c e c')
      (hstep : TurnStep (h.turnConfig cfg) t e t') : ServingStep (.turn t c) (.turn e) (.turn t' c')
  | turn {t t' : Turn} {c : Callee V} {e : TurnEvent} (hown : ¬ e.FromCallee)
      (hstep : TurnStep (h.turnConfig cfg) t e t') : ServingStep (.turn t c) (.turn e) (.turn t' c)

/-- One request or frame. What the handler's other frames do to its clock, its last response and its
lock shows in the answers. -/
def servingSystem (V : Type) : System (Serving V) (ServingEvent V) where
  init s := ∃ i : Incoming, s = .running (serve h cfg rt i)
  step := ServingStep h cfg rt

end Handle

end VirtualPerson
