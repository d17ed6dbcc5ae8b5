import VirtualPerson.Avatar.StateMachine
import VirtualPerson.Chat.Pipeline
import VirtualPerson.Program

/-!
# The calls of a turn

The chat pipelines as programs that call the services and read what they return or raise,
whatever that is. Answered from the services' state they are the pipelines of the previous
module.
-/

namespace VirtualPerson

set_option autoImplicit false

/-- What the websocket handler sends outside of a turn. -/
inductive HandlerMessage where
  | status (text : PyStr)
  | transcript (text : PyStr) (error : Option PyStr)
  | chat (text : PyStr)

/-- The calls that the code of a request or a frame makes. -/
inductive AppOp (V : Type) where
  /-- `limiter.allow` -/
  | allow (callerId : PyStr)
  /-- `time.monotonic() * 1000` -/
  | monotonicMs
  | lastAudioSendMs
  | lastResponseText
  | send (m : HandlerMessage)
  /-- `_safe_send_state` -/
  | sendState (target : AvatarState)
  /-- `vad_service.detect` -/
  | detect (chunk : List UInt8)
  /-- `stt_service.transcribe` -/
  | transcribe (chunk : List UInt8) (language : PyStr)
  | log (type detail : PyStr)
  | persona
  | listTools
  | executeTool (name : PyStr) (params : PyVal)
  | writeMemory (kind key value : PyStr) (metadata : PyDict)
  /-- `memory.search("name")` -/
  | searchName
  /-- `memory.search(body.message)` -/
  | retrieve (query : PyStr)
  /-- The scores and the staleness that `rank_memories` goes by, at the time of the call. -/
  | rate
  | getSession (userId : PyStr) (limit : Option Int)
  | addSession (userId role content : PyStr)
  /-- `chat` of the configured LLM, the `n`-th time in the turn. -/
  | chat (n : Nat) (systemPrompt userPrompt : PyStr) (history : List SessionTurn)
  | chatStream (systemPrompt userPrompt : PyStr) (history : List SessionTurn)
  /-- A generator's `yield`, which hands a text to the handler. -/
  | yield (text : PyStr)
  /-- `task_queue.enqueue(jobs.CURATE_MEMORIES, ...)` -/
  | enqueue (userId : PyStr)

/-- What the call returns. -/
def AppOp.Result {V : Type} : AppOp V → Type
  | .allow _ => Bool × ℚ
  | .monotonicMs => ℚ
  | .lastAudioSendMs => ℚ
  | .lastResponseText => PyStr
  | .send _ => Unit
  | .sendState _ => Unit
  -- the lengths of the speech segments
  | .detect _ => List ℚ
  | .transcribe _ _ => PyStr
  | .log _ _ => Unit
  | .persona => PersonaProfile
  | .listTools => List (ToolDef (World V))
  | .executeTool _ _ => PyVal
  | .writeMemory _ _ _ _ => MemoryItem
  | .searchName => List MemoryItem
  | .retrieve _ => List MemoryItem
  | .rate => (MemoryItem → ℚ) × (PyStr → PyStr → Bool)
  | .getSession _ _ => List SessionTurn
  | .addSession _ _ _ => Unit
  | .chat _ _ _ _ => PyStr
  -- the deltas and the exception that ends them, if one does
  | .chatStream _ _ _ => List PyStr × Option PyExc
  | .yield _ => Unit
  | .enqueue _ => Bool

/-- Every call may raise. -/
def AppSig (V : Type) : Sig where
  Op := AppOp V
  Ans o := Except PyExc o.Result

abbrev AppM (V : Type) := Prog (AppSig V) PyExc

def perform {V : Type} (o : AppOp V) : AppM V o.Result := .op o Prog.lift

namespace Calls

variable {V : Type}

/-- `except` for the exceptions that `caught` accepts. -/
def handling {α : Type} (caught : PyExc → Bool) (p : AppM V α) (h : PyExc → AppM V α) : AppM V α :=
  p.catching fun e => if caught e then h e else .raise e

def record (userId message response : PyStr) : AppM V Unit := do
  perform (.addSession userId (str "user") message)
  perform (.addSession userId (str "assistant") response)

def maybeCaptureUserName (rt : ChatRuntime) (userId message : PyStr) : AppM V Unit :=
  match NameCapture.nameToStore rt.toTextRules message with
  | none => return ()
  | some name => do
    let item ← perform (.writeMemory (str "profile") (str "name") name
      [(str "source", .str (str "chat_auto_extract")), (str "user_id", .str userId),
        (str "field", .str (str "name"))])
    match PyDict.get? item.metadata (str "filtered") with
    | some v => if v.truthy then return () else logName name
    | none => logName name
where
  logName (name : PyStr) : AppM V Unit :=
    perform (.log (str "memory_write_auto") (str "profile:name=" ++ name ++ str "|user=" ++ userId))

def recallUserName (rt : ChatRuntime) (userId : PyStr) : AppM V (Option PyStr) := do
  let hits ← perform .searchName
  return NameRecall.fromHits rt.cm userId hits

def rememberedName (rt : ChatRuntime) (userId message : PyStr) : AppM V (Option PyStr) := do
  if Chat.asksName rt.cm message then
    let name ← recallUserName rt userId
    return name.filter fun n => n ≠ []
  else return none

def llmCall (cfg : ChatConfig) (n : Nat) (systemPrompt userPrompt : PyStr)
    (history : List SessionTurn) : AppM V (PyStr × PyStr) := do
  let raw ← perform (.chat n systemPrompt userPrompt history)
  let modelUsed := if cfg.llmProvider = str "ollama" then cfg.ollamaModel else cfg.openaiCompatModel
  return (if cfg.llmStripThinking then Chat.stripThinking raw else raw, modelUsed)

def toolFollowup (cfg : ChatConfig) (rt : ChatRuntime) (userMessage : PyStr)
    (history : List SessionTurn) (raw modelUsed toolName : PyStr) (toolParams : PyVal) :
    AppM V (PyStr × PyStr × List PyVal) := do
  let result ← perform (.executeTool toolName toolParams)
  let actions := [PyVal.dict
    [(str "tool", .str toolName), (str "params", toolParams), (str "result", result)]]
  handling Chat.toolLoopCatches
    (do
      perform (.log (str "tool_auto_exec") toolName)
      let text ← Prog.lift (rt.jsonDumps result)
      let followup := str "User message: " ++ userMessage ++ str "\nYou called tool '" ++ toolName ++
        str "' and got:\n" ++ text ++ str "\nNow answer the user naturally using this result."
      let persona ← perform .persona
      let (raw2, _) ← llmCall cfg 1 (PersonaService.systemPrompt persona) followup history
      return (raw2, modelUsed, actions))
    fun _ => return (raw, modelUsed, actions)

def toolCallLoop (cfg : ChatConfig) (rt : ChatRuntime) (userMessage memoryContext : PyStr)
    (history : List SessionTurn) : AppM V (PyStr × PyStr × List PyVal) := do
  let tools ← perform .listTools
  let persona ← perform .persona
  let (raw, modelUsed) ← llmCall cfg 0 (PersonaService.systemPrompt persona)
    (Chat.toolPrompt tools userMessage memoryContext) history
  handling Chat.toolLoopCatches
    (do
      match ← Prog.lift (Chat.toolCall rt tools raw) with
      | some (toolName, toolParams) =>
        toolFollowup cfg rt userMessage history raw modelUsed toolName toolParams
      | none => return (raw, modelUsed, []))
    fun _ => return (raw, modelUsed, [])

def draft (cfg : ChatConfig) (rt : ChatRuntime) (body : ChatTurnIn) :
    AppM V (PyStr × PyStr × List PyVal) := do
  let recalled ← perform (.retrieve body.message)
  let (score, stale) ← perform .rate
  let ranked := Curation.rankMemories stale (recalled.map (Curation.ScoredMemory.ofItem score)) 8
  let history ← perform (.getSession body.userId (some 10))
  handling PyExc.isException
    (do
      let (llmText, modelUsed, actions) ← toolCallLoop cfg rt
        (body.message ++ Chat.styleHint body.style) (Chat.memoryContext rt ranked) history
      return (PersonaService.enforce (PyStr.orElse llmText Chat.defaultReply), modelUsed, actions))
    fun _ => return (Chat.fallbackReply body.message ranked.length, str "fallback-rule", [])

def llmTurn (cfg : ChatConfig) (rt : ChatRuntime) (body : ChatTurnIn) : AppM V ChatResult := do
  let (reply, modelUsed, actions) ← draft cfg rt body
  let response := Chat.moderated rt.cm reply
  if SafetyService.checkOutput rt.cm reply ≠ none then
    perform (.log (str "output_safety_refusal") (str "user=" ++ body.userId))
  record body.userId body.message response
  perform (.log (str "chat_turn") (str "user=" ++ body.userId))
  return { ok := true, response, model := some modelUsed, toolActions := actions }

def ruleAnswer (body : ChatTurnIn) (response : PyStr) (model : String) : AppM V ChatResult := do
  record body.userId body.message response
  perform (.log (str "chat_turn") (str "user=" ++ body.userId))
  return { ok := true, response, model := some (str model), toolActions := [] }

def answer (cfg : ChatConfig) (rt : ChatRuntime) (body : ChatTurnIn) :
    Option PyStr → AppM V ChatResult
  | some name => ruleAnswer body (Chat.nameAnswer name) "rule-memory"
  | none =>
    if Chat.asksBackground rt.cm body.message then do
      let persona ← perform .persona
      ruleAnswer body (PersonaService.enforce (PersonaService.shortBackground persona)) "rule-persona"
    else llmTurn cfg rt body

/-- `_run_chat_turn` -/
def runChatTurn (cfg : ChatConfig) (rt : ChatRuntime) (body : ChatTurnIn) : AppM V ChatResult :=
  match SafetyService.check rt.cm body.message with
  | some refusal => do
    perform (.log (str "safety_refusal") body.message)
    return { ok := false, response := refusal, model := none, toolActions := [] }
  | none => do
    maybeCaptureUserName rt body.userId body.message
    let name ← rememberedName rt body.userId body.message
    answer cfg rt body name

def chatViaPipeline (cfg : ChatConfig) (rt : ChatRuntime) (userId message : PyStr) :
    AppM V ChatResult :=
  runChatTurn cfg rt { userId, message, style := none }

def yieldAll : List PyStr → AppM V Unit
  | [] => return ()
  | d :: ds => do
    perform (.yield d)
    yieldAll ds

def yieldPipeline (cfg : ChatConfig) (rt : ChatRuntime) (userId message : PyStr) : AppM V Unit := do
  let result ← chatViaPipeline cfg rt userId message
  yieldAll [result.response]

def recordStream (cfg : ChatConfig) (rt : ChatRuntime) (userId message streamedText : PyStr) :
    AppM V Unit := do
  let response := if cfg.llmStripThinking then Chat.stripThinking streamedText else streamedText
  record userId message (Chat.moderated rt.cm (PyStr.orElse response Chat.defaultReply))
  perform (.log (str "chat_turn") (str "user=" ++ userId ++ str "|stream=1"))

def afterStream (cfg : ChatConfig) (rt : ChatRuntime) (userId message : PyStr) (deltas : List PyStr) :
    Option PyExc → AppM V Unit
  | some e => if e.isException then yieldPipeline cfg rt userId message else .raise e
  | none => recordStream cfg rt userId message deltas.flatten

/-- A stream that cannot be opened is one that breaks off at once. -/
def openStream (systemPrompt message : PyStr) (history : List SessionTurn) :
    AppM V (List PyStr × Option PyExc) :=
  (perform (.chatStream systemPrompt message history)).catching fun e => return ([], some e)

def streamReply (cfg : ChatConfig) (rt : ChatRuntime) (userId message : PyStr) : AppM V Unit := do
  let history ← perform (.getSession userId (some 10))
  let persona ← perform .persona
  let (deltas, failure) ← openStream (PersonaService.systemPrompt persona) message history
  yieldAll deltas
  afterStream cfg rt userId message deltas failure

def streamAnswer (cfg : ChatConfig) (rt : ChatRuntime) (userId message : PyStr) :
    Option PyStr → AppM V Unit
  | some name => do
    record userId message (Chat.nameAnswer name)
    yieldAll [Chat.nameAnswer name]
  | none => streamReply cfg rt userId message

/-- `_stream_chat_via_pipeline` -/
def streamChat (cfg : ChatConfig) (rt : ChatRuntime) (userId message : PyStr) : AppM V Unit :=
  if !cfg.wsStreamEnabled || cfg.llmProvider ≠ str "openai_compat" then
    yieldPipeline cfg rt userId message
  else
    match SafetyService.check rt.cm message with
    | some refusal => yieldAll [refusal]
    | none => do
      maybeCaptureUserName rt userId message
      let name ← rememberedName rt userId message
      streamAnswer cfg rt userId message name

end Calls

end VirtualPerson
