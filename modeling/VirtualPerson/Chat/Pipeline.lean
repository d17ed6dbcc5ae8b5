import Mathlib.Algebra.Order.Ring.Rat
import VirtualPerson.Chat.Names
import VirtualPerson.Chat.Services
import VirtualPerson.Memory.Curation
import VirtualPerson.Proactivity.Service
import VirtualPerson.Session.Service
import VirtualPerson.Stateful
import VirtualPerson.Tools.Registry

/-!
# The chat pipelines

`_run_chat_turn`, which answers a message in one piece, and `_stream_chat_via_pipeline`,
which yields the answer as the LLM writes it. What the LLM, the memory backends and the
tools answer during a call is an input of that call.
-/

namespace VirtualPerson

set_option autoImplicit false

open Stateful

structure ChatConfig where
  llmProvider : PyStr
  ollamaModel : PyStr
  openaiCompatModel : PyStr
  llmStripThinking : Bool
  wsStreamEnabled : Bool

structure ChatRuntime extends TextRules where
  jsonLoads : PyStr → Except PyExc PyVal
  /-- `json.dumps(v, default=str)` -/
  jsonDumps : PyVal → Except PyExc PyStr
  /-- `str(exc)` -/
  excText : PyExc → PyStr
  floatText : ℚ → PyStr

structure ChatTurnIn where
  userId : PyStr
  message : PyStr
  style : Option PyStr

/-- What `_run_chat_turn` returns; `model` and `tool_actions` are left out where the dict lacks them. -/
structure ChatResult where
  ok : Bool
  response : PyStr
  model : Option PyStr
  toolActions : List PyVal

structure NameEnv where
  write : Env
  search : SearchEnv

structure ChatEnv extends NameEnv where
  retrieve : SearchEnv
  stale : PyStr → PyStr → Bool
  /-- The `n`-th `chat` call, by its system prompt, user prompt and history. -/
  llm : Nat → PyStr → PyStr → List SessionTurn → Except PyExc PyStr
  paramsId : Nat

structure StreamEnv extends NameEnv where
  /-- The deltas of `chat_stream` and the exception that ends them, if one does. -/
  stream : PyStr → PyStr → List SessionTurn → List PyStr × Option PyExc
  pipeline : ChatEnv

structure World (V : Type) where
  memory : MemoryService V
  reminders : List Reminder

structure ChatState (V : Type) where
  tools : ToolRegistry (World V)
  sessions : SessionService
  persona : PersonaProfile
  audit : List AuditEvent

abbrev ChatM (V : Type) := EStateM PyExc (ChatState V)

namespace Chat

variable {V : Type}

def onMemory {α : Type} (p : ServiceM V α) : ChatM V α :=
  zoom (fun s => s.tools.world.memory)
    (fun m s => { s with tools := { s.tools with world := { s.tools.world with memory := m } } }) p

def onTools {α : Type} (p : EStateM PyExc (ToolRegistry (World V)) α) : ChatM V α :=
  zoom ChatState.tools (fun t s => { s with tools := t }) p

/-- `audit.log` -/
def log (type detail : PyStr) : ChatM V Unit :=
  modify fun s => { s with audit := s.audit ++ [⟨type, detail⟩] }

/-- The two `sessions.add` calls of a turn. -/
def record (userId message response : PyStr) : ChatM V Unit :=
  modify fun s =>
    { s with
      sessions := (s.sessions.add userId (str "user") message).add userId (str "assistant") response }

/-- The length of the match of `<think>.*?</think>` at the start of the text, if there is one. -/
def thinkLen (s : PyStr) : Option Nat :=
  let opening := str "<think>"
  let closing := str "</think>"
  if opening <+: s then
    let body := s.drop opening.length
    ((List.range (body.length + 1)).find? fun n => decide (closing <+: body.drop n)).map fun n =>
      opening.length + n + closing.length
  else none

/-- `re.sub`, with `skip` characters of a match still to be dropped. -/
def dropThinking : (skip : Nat) → PyStr → PyStr
  | _, [] => []
  | skip + 1, _ :: s => dropThinking skip s
  | 0, c :: s =>
    match thinkLen (c :: s) with
    | some n => dropThinking (n - 1) s
    | none => c :: dropThinking 0 s

def stripThinking (text : PyStr) : PyStr := PyStr.strip (dropThinking 0 text)

def maybeCaptureUserName (rt : ChatRuntime) (vs : VectorStore V) (env : NameEnv)
    (userId message : PyStr) : ChatM V Unit :=
  match NameCapture.nameToStore rt.toTextRules message with
  | none => return ()
  | some name => do
    let item ← onMemory <| MemoryService.write rt.cm vs env.write (str "profile") (str "name") name
      [(str "source", .str (str "chat_auto_extract")), (str "user_id", .str userId),
        (str "field", .str (str "name"))]
    match PyDict.get? item.metadata (str "filtered") with
    | some v => if v.truthy then return () else logName name
    | none => logName name
where
  logName (name : PyStr) : ChatM V Unit :=
    log (str "memory_write_auto") (str "profile:name=" ++ name ++ str "|user=" ++ userId)

def recallUserName (rt : ChatRuntime) (env : NameEnv) (userId : PyStr) : ChatM V (Option PyStr) := do
  let hits ← onMemory <| MemoryService.search rt.cm env.search (str "name")
  return NameRecall.fromHits rt.cm userId hits

def asksName (cm : CaseMap) (message : PyStr) : Bool :=
  [str "my name", str "who am i", str "do you remember my name", str "我的名字",
    str "我叫什么"].any (PyStr.contains (cm.lower message))

def asksBackground (cm : CaseMap) (message : PyStr) : Bool :=
  [str "your background", str "about yourself", str "your story", str "who are you"].any
    (PyStr.contains (cm.lower message))

def rememberedName (rt : ChatRuntime) (env : NameEnv) (userId message : PyStr) :
    ChatM V (Option PyStr) := do
  if asksName rt.cm message then
    let name ← recallUserName rt env userId
    return name.filter fun n => n ≠ []
  else return none

def nameAnswer (name : PyStr) : PyStr := PersonaService.enforce (str "Your name is " ++ name ++ str ".")

def llmCall (cfg : ChatConfig) (env : ChatEnv) (n : Nat) (systemPrompt userPrompt : PyStr)
    (history : List SessionTurn) : ChatM V (PyStr × PyStr) := do
  let raw ← MonadExcept.ofExcept (env.llm n systemPrompt userPrompt history)
  let modelUsed := if cfg.llmProvider = str "ollama" then cfg.ollamaModel else cfg.openaiCompatModel
  return (if cfg.llmStripThinking then stripThinking raw else raw, modelUsed)

/-- `except (json.JSONDecodeError, TypeError, KeyError)` -/
def toolLoopCatches (e : PyExc) : Bool :=
  e.name = str "JSONDecodeError" || e.name = str "TypeError" || e.name = str "KeyError"

def toolPrompt {σ : Type} (tools : List (ToolDef σ)) (userMessage memoryContext : PyStr) : PyStr :=
  str "User message: " ++ userMessage ++ str "\nKnown memory (ranked):\n" ++
    (if memoryContext = [] then str "- none" else memoryContext) ++ str "\n\nAvailable tools:\n" ++
    List.intercalate (str "\n") (tools.map fun t =>
      str "- " ++ t.name ++ str " (" ++ t.risk.value ++ str "): " ++ t.description) ++
    str "\n\nIf a tool would help, respond with ONLY a JSON block like:\n" ++
    str "\x7b\"tool_call\": \x7b\"name\": \"tool_name\", \"params\": \x7b\"key\": \"value\"\x7d\x7d\x7d\n" ++
    str "Otherwise, just answer naturally and helpfully."

/-- The tool call that a reply asks for: the name and the params of `parsed["tool_call"]`. -/
def toolCall {σ : Type} (rt : ChatRuntime) (tools : List (ToolDef σ)) (raw : PyStr) :
    Except PyExc (Option (PyStr × PyVal)) := do
  match ← rt.jsonLoads raw with
  | .dict parsed =>
    match PyDict.get? parsed (str "tool_call") with
    | none => return none
    | some (.dict tc) =>
      match PyDict.getD tc (str "name") (.str []) with
      | .str name =>
        return if (tools.map ToolDef.name).contains name then
          some (name, PyDict.getD tc (str "params") (.dict [])) else none
      | _ => return none
    -- `tc.get` on anything but a dict
    | some _ => throw .attributeError
  | _ => return none

/-- The tool's run and the second LLM call. A caught exception after the tool has run keeps the
first reply and the tool's action. -/
def toolFollowup (cfg : ChatConfig) (rt : ChatRuntime) (env : ChatEnv)
    (userMessage : PyStr) (history : List SessionTurn) (raw modelUsed toolName : PyStr)
    (toolParams : PyVal) : ChatM V (PyStr × PyStr × List PyVal) := do
  let result ← onTools (ToolRegistry.execute rt.excText env.paramsId toolName toolParams false)
  let actions := [PyVal.dict
    [(str "tool", .str toolName), (str "params", toolParams), (str "result", result)]]
  handling toolLoopCatches
    (do
      log (str "tool_auto_exec") toolName
      let text ← MonadExcept.ofExcept (rt.jsonDumps result)
      let followup := str "User message: " ++ userMessage ++ str "\nYou called tool '" ++ toolName ++
        str "' and got:\n" ++ text ++ str "\nNow answer the user naturally using this result."
      let s ← get
      let (raw2, _) ← llmCall cfg env 1 (PersonaService.systemPrompt s.persona) followup history
      return (raw2, modelUsed, actions))
    fun _ => return (raw, modelUsed, actions)

def toolCallLoop (cfg : ChatConfig) (rt : ChatRuntime) (env : ChatEnv)
    (userMessage memoryContext : PyStr) (history : List SessionTurn) :
    ChatM V (PyStr × PyStr × List PyVal) := do
  let s ← get
  let tools := s.tools.listTools
  let (raw, modelUsed) ← llmCall cfg env 0 (PersonaService.systemPrompt s.persona)
    (toolPrompt tools userMessage memoryContext) history
  handling toolLoopCatches
    (do
      match ← MonadExcept.ofExcept (toolCall rt tools raw) with
      | some (toolName, toolParams) =>
        toolFollowup cfg rt env userMessage history raw modelUsed toolName toolParams
      | none => return (raw, modelUsed, []))
    fun _ => return (raw, modelUsed, [])

def defaultReply : PyStr := str "I'm here and ready to help."

def replacement : PyStr :=
  str "I generated a response but it didn't pass safety checks. Let me try again differently."

def memoryContext (rt : ChatRuntime) (ranked : List (Curation.ScoredMemory ℚ)) : PyStr :=
  List.intercalate (str "\n") (ranked.map fun m =>
    str "- [" ++ m.kind ++ str "] " ++ m.key ++ str "=" ++ m.value ++ str " (score=" ++
      rt.floatText m.score ++ str ")")

def styleHint (style : Option PyStr) : PyStr :=
  if style = some (str "thoughtful") then
    str "\nRespond in a detailed, thoughtful manner with reasoning."
  else str "\nRespond concisely."

def fallbackReply (message : PyStr) (hits : Nat) : PyStr :=
  PersonaService.enforce <| str "I got it: " ++ message ++
    if hits = 0 then [] else str " | memory_hits=" ++ str (toString hits)

/-- The reply before its check: the memory retrieval and the LLM call. -/
def draft (cfg : ChatConfig) (rt : ChatRuntime) (env : ChatEnv) (body : ChatTurnIn) :
    ChatM V (PyStr × PyStr × List PyVal) := do
  let recalled ← onMemory <| MemoryService.search rt.cm env.retrieve body.message
  let scored := recalled.map (Curation.ScoredMemory.ofItem env.retrieve.retrievalScore)
  let ranked := Curation.rankMemories env.stale scored 8
  let s ← get
  let history := s.sessions.get body.userId (some 10)
  handling PyExc.isException
    (do
      let (llmText, modelUsed, actions) ← toolCallLoop cfg rt env
        (body.message ++ styleHint body.style) (memoryContext rt ranked) history
      return (PersonaService.enforce (PyStr.orElse llmText defaultReply), modelUsed, actions))
    fun _ => return (fallbackReply body.message ranked.length, str "fallback-rule", [])

def moderated (cm : CaseMap) (response : PyStr) : PyStr :=
  match SafetyService.checkOutput cm response with
  | none => response
  | some _ => PersonaService.enforce replacement

/-- `_run_chat_turn` past the deterministic answers. -/
def llmTurn (cfg : ChatConfig) (rt : ChatRuntime) (env : ChatEnv) (body : ChatTurnIn) :
    ChatM V ChatResult := do
  let (reply, modelUsed, actions) ← draft cfg rt env body
  let response := moderated rt.cm reply
  if SafetyService.checkOutput rt.cm reply ≠ none then
    log (str "output_safety_refusal") (str "user=" ++ body.userId)
  record body.userId body.message response
  log (str "chat_turn") (str "user=" ++ body.userId)
  return { ok := true, response, model := some modelUsed, toolActions := actions }

def ruleAnswer (body : ChatTurnIn) (response : PyStr) (model : String) : ChatM V ChatResult := do
  record body.userId body.message response
  log (str "chat_turn") (str "user=" ++ body.userId)
  return { ok := true, response, model := some (str model), toolActions := [] }

/-- `_run_chat_turn` past the name handling. -/
def answer (cfg : ChatConfig) (rt : ChatRuntime) (env : ChatEnv) (body : ChatTurnIn) :
    Option PyStr → ChatM V ChatResult
  | some name => ruleAnswer body (nameAnswer name) "rule-memory"
  | none =>
    if asksBackground rt.cm body.message then do
      let s ← get
      ruleAnswer body (PersonaService.enforce (PersonaService.shortBackground s.persona))
        "rule-persona"
    else llmTurn cfg rt env body

def runChatTurn (cfg : ChatConfig) (rt : ChatRuntime) (vs : VectorStore V) (env : ChatEnv)
    (body : ChatTurnIn) : ChatM V ChatResult :=
  match SafetyService.check rt.cm body.message with
  | some refusal => do
    log (str "safety_refusal") body.message
    return { ok := false, response := refusal, model := none, toolActions := [] }
  | none => do
    maybeCaptureUserName rt vs env.toNameEnv body.userId body.message
    let name ← rememberedName rt env.toNameEnv body.userId body.message
    answer cfg rt env body name

def chatViaPipeline (cfg : ChatConfig) (rt : ChatRuntime) (vs : VectorStore V) (env : ChatEnv)
    (userId message : PyStr) : ChatM V ChatResult :=
  runChatTurn cfg rt vs env { userId, message, style := none }

structure Gen (V : Type) where
  chat : ChatState V
  yielded : List PyStr

abbrev GenM (V : Type) := EStateM PyExc (Gen V)

def onChat {α : Type} (p : ChatM V α) : GenM V α :=
  zoom Gen.chat (fun c g => { g with chat := c }) p

def yieldAll (deltas : List PyStr) : GenM V Unit :=
  modify fun g => { g with yielded := g.yielded ++ deltas }

def yieldPipeline (cfg : ChatConfig) (rt : ChatRuntime) (vs : VectorStore V) (env : StreamEnv)
    (userId message : PyStr) : GenM V Unit := do
  let result ← onChat (chatViaPipeline cfg rt vs env.pipeline userId message)
  yieldAll [result.response]

/-- What is remembered of a stream that ended well; the client has its deltas already. -/
def recordStream (cfg : ChatConfig) (rt : ChatRuntime) (userId message streamedText : PyStr) :
    ChatM V Unit := do
  let response := if cfg.llmStripThinking then stripThinking streamedText else streamedText
  record userId message (moderated rt.cm (PyStr.orElse response defaultReply))
  log (str "chat_turn") (str "user=" ++ userId ++ str "|stream=1")

/-- The end of the stream; where it broke off the pipeline takes over. -/
def afterStream (cfg : ChatConfig) (rt : ChatRuntime) (vs : VectorStore V) (env : StreamEnv)
    (userId message : PyStr) (deltas : List PyStr) : Option PyExc → GenM V Unit
  | some e => if e.isException then yieldPipeline cfg rt vs env userId message else throw e
  | none => onChat (recordStream cfg rt userId message deltas.flatten)

def streamReply (cfg : ChatConfig) (rt : ChatRuntime) (vs : VectorStore V) (env : StreamEnv)
    (userId message : PyStr) : GenM V Unit := do
  let g ← get
  let (deltas, failure) := env.stream (PersonaService.systemPrompt g.chat.persona) message
    (g.chat.sessions.get userId (some 10))
  yieldAll deltas
  afterStream cfg rt vs env userId message deltas failure

/-- `_stream_chat_via_pipeline` past the name handling. -/
def streamAnswer (cfg : ChatConfig) (rt : ChatRuntime) (vs : VectorStore V) (env : StreamEnv)
    (userId message : PyStr) : Option PyStr → GenM V Unit
  | some name => do
    onChat (record userId message (nameAnswer name))
    yieldAll [nameAnswer name]
  | none => streamReply cfg rt vs env userId message

/-- `_stream_chat_via_pipeline`, consumed to its end -/
def streamChat (cfg : ChatConfig) (rt : ChatRuntime) (vs : VectorStore V) (env : StreamEnv)
    (userId message : PyStr) : GenM V Unit :=
  if !cfg.wsStreamEnabled || cfg.llmProvider ≠ str "openai_compat" then
    yieldPipeline cfg rt vs env userId message
  else
    match SafetyService.check rt.cm message with
    | some refusal => yieldAll [refusal]
    | none => do
      onChat (maybeCaptureUserName rt vs env.toNameEnv userId message)
      let name ← onChat (rememberedName rt env.toNameEnv userId message)
      streamAnswer cfg rt vs env userId message name

end Chat

end VirtualPerson
