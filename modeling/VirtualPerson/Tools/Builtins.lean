import VirtualPerson.Chat.Pipeline

/-!
# The built-in tools

The six tools that `register_builtins` puts into the registry. A handler gets its keyword
arguments from the params, which are any JSON value.
-/

namespace VirtualPerson

set_option autoImplicit false

open Stateful

/-- What the handlers draw and what their services answer during one call. -/
structure ToolEnv where
  write : Env
  search : SearchEnv
  /-- `now.isoformat()` -/
  utc : PyStr
  /-- `now.strftime("%Y-%m-%d %H:%M UTC")` -/
  readable : PyStr
  reminderId : PyStr
  createdAt : Int
  /-- `datetime.now(UTC) + timedelta(minutes=minutes)` -/
  dueAt : (minutes : PyVal) → Except PyExc Int
  /-- `str(v)` -/
  text : PyVal → PyStr

namespace Builtins

variable {V : Type}

/-- The keyword arguments of `handler(**params)`. -/
def kwargs (names : List PyStr) : PyVal → Except PyExc PyDict
  | .dict es => if es.all fun e => names.contains e.1 then .ok es else .error .typeError
  | _ => .error .typeError

/-- An argument `v` of which the callee reads `(v or "")` as a string. -/
def strArg : PyVal → Except PyExc PyStr
  | .str s => .ok s
  | v => if v.truthy then .error .attributeError else .ok []

/-- `v[:80]` -/
def first80 : PyVal → Except PyExc PyVal
  | .str s => .ok (.str (s.take 80))
  | .list vs => .ok (.list (vs.take 80))
  | _ => .error .typeError

def onMemory {α : Type} (p : ServiceM V α) : EStateM PyExc (World V) α :=
  zoom World.memory (fun m w => { w with memory := m }) p

def found (i : MemoryItem) : PyVal :=
  .dict [(str "kind", .str i.kind), (str "key", .str i.key), (str "value", .str i.value)]

def toolSearchMemory (cm : CaseMap) (te : ToolEnv) (params : PyVal) : EStateM PyExc (World V) PyVal := do
  let args ← MonadExcept.ofExcept (kwargs [str "query"] params)
  let query ← MonadExcept.ofExcept (strArg (PyDict.getD args (str "query") (.str [])))
  let items ← onMemory (MemoryService.search cm te.search query)
  return .dict [(str "items", .list ((items.take 10).map found))]

def toolGetTime (te : ToolEnv) (params : PyVal) : EStateM PyExc (World V) PyVal := do
  let _ ← MonadExcept.ofExcept (kwargs [] params)
  return .dict [(str "utc", .str te.utc), (str "readable", .str te.readable)]

/-- What `memory_svc.write` is handed. -/
structure SaveArgs where
  kind : PyStr
  key : PyStr
  value : PyStr

def saveArgs (args : PyDict) : Except PyExc SaveArgs := do
  let kind ← strArg (PyDict.getD args (str "kind") (.str (str "note")))
  let key ← strArg (PyDict.getD args (str "key") (.str []))
  let value ← strArg (PyDict.getD args (str "value") (.str []))
  return { kind, key, value }

def toolSaveMemory (cm : CaseMap) (vs : VectorStore V) (te : ToolEnv) (params : PyVal) :
    EStateM PyExc (World V) PyVal := do
  let args ← MonadExcept.ofExcept (kwargs [str "kind", str "key", str "value"] params)
  let a ← MonadExcept.ofExcept (saveArgs args)
  let _ ← onMemory (MemoryService.write cm vs te.write a.kind a.key a.value [])
  return .dict [(str "saved", .bool true), (str "kind", PyDict.getD args (str "kind") (.str (str "note"))),
    (str "key", PyDict.getD args (str "key") (.str []))]

/-- `add_reminder`; a message that is no string is kept as its text. -/
def addReminder (te : ToolEnv) (message minutes : PyVal) : EStateM PyExc (World V) Unit := do
  let dueAt ← MonadExcept.ofExcept (te.dueAt minutes)
  let text := match message with
    | .str s => s
    | v => te.text v
  modify fun w =>
    { w with
      reminders := w.reminders ++
        [{ id := te.reminderId, message := text, dueAt, createdAt := te.createdAt, fired := false
           reason := str "user-set" }] }

def toolSetReminder (te : ToolEnv) (params : PyVal) : EStateM PyExc (World V) PyVal := do
  let args ← MonadExcept.ofExcept (kwargs [str "message", str "minutes"] params)
  let message := PyDict.getD args (str "message") (.str [])
  let minutes := PyDict.getD args (str "minutes") (.int 30)
  addReminder te message minutes
  return .dict [(str "set", .bool true), (str "message", message), (str "in_minutes", minutes)]

def toolSendMessage (params : PyVal) : EStateM PyExc (World V) PyVal := do
  let args ← MonadExcept.ofExcept (kwargs [str "to", str "text"] params)
  let preview ← MonadExcept.ofExcept (first80 (PyDict.getD args (str "text") (.str [])))
  return .dict [(str "sent", .bool true), (str "to", PyDict.getD args (str "to") (.str [])),
    (str "preview", preview)]

def toolWebSearch (te : ToolEnv) (params : PyVal) : EStateM PyExc (World V) PyVal := do
  let args ← MonadExcept.ofExcept (kwargs [str "query"] params)
  let query := match PyDict.getD args (str "query") (.str []) with
    | .str s => s
    | v => te.text v
  return .dict [(str "results", .list [.str (str "[stub result for '" ++ query ++ str "']")])]

def builtins (cm : CaseMap) (vs : VectorStore V) (te : ToolEnv) : List (ToolDef (World V)) :=
  [{ name := str "search_memory", description := str "Search stored memories by keyword", risk := .read
     handler := some (toolSearchMemory cm te) },
    { name := str "get_time", description := str "Get current UTC time", risk := .read
      handler := some (toolGetTime te) },
    { name := str "save_memory", description := str "Save a fact or note to memory", risk := .write
      handler := some (toolSaveMemory cm vs te) },
    { name := str "set_reminder", description := str "Set a reminder for later", risk := .write
      handler := some (toolSetReminder te) },
    { name := str "send_message", description := str "Send a message to someone (requires confirmation)"
      risk := .external, handler := some toolSendMessage },
    { name := str "web_search", description := str "Search the web (requires confirmation)"
      risk := .external, handler := some (toolWebSearch te) }]

def registerBuiltins (cm : CaseMap) (vs : VectorStore V) (te : ToolEnv) (r : ToolRegistry (World V)) :
    ToolRegistry (World V) :=
  (builtins cm vs te).foldl (fun r t => r.register t.name t.description t.risk t.handler) r

end Builtins

end VirtualPerson
