import VirtualPerson.Chat.OutputSafety
import VirtualPerson.Tools.Builtins
import VirtualPerson.Transition

/-!
# Consent to the storing of secrets

The routes that reach `MemoryService.write`: `/memory/write`, which checks for secrets, and the
`save_memory` tool and the name capture of a chat turn, which do not.
-/

namespace VirtualPerson

set_option autoImplicit false

open Stateful Builtins

structure MemoryWriteIn where
  kind : PyStr
  key : PyStr
  value : PyStr
  metadata : Option PyDict

structure ToolExecIn where
  tool : PyStr
  params : PyVal
  userConfirmed : Bool

namespace Consent

variable {V : Type}

def secretWords : List PyStr := [str "password", str "api_key", str "secret_key", str "token"]

def holdsSecret (cm : CaseMap) (value : PyStr) : Bool :=
  secretWords.any (PyStr.contains (cm.lower value))

def secretError : PyStr :=
  str "Detected possible secret. Use kind='secret' to explicitly store secrets."

def filteredError : PyStr := str "Memory entry filtered as noise or duplicate."

/-- `item.metadata.get("filtered")` -/
def markedFiltered (item : MemoryItem) : Bool :=
  (PyDict.getD item.metadata (str "filtered") .pyNone).truthy

/-- POST `/memory/write` -/
def memoryWrite (rt : ChatRuntime) (vs : VectorStore V) (env : Env) (body : MemoryWriteIn) :
    ChatM V PyVal :=
  if body.kind ≠ str "secret" && holdsSecret rt.cm body.value then do
    Chat.log (str "memory_write_refused") (str "secret-detected:" ++ body.key)
    return .dict [(str "ok", .bool false), (str "error", .str secretError)]
  else do
    let item ← Chat.onMemory <|
      MemoryService.write rt.cm vs env body.kind body.key body.value (body.metadata.getD [])
    if markedFiltered item then
      Chat.log (str "memory_write_filtered") (body.kind ++ str ":" ++ body.key)
      return .dict [(str "ok", .bool false), (str "error", .str filteredError),
        (str "item", .dict item.asdict)]
    Chat.log (str "memory_write") (body.kind ++ str ":" ++ body.key)
    return .dict [(str "ok", .bool true), (str "item", .dict item.asdict)]

def needsConfirmation : PyVal → Bool
  | .dict es => (PyDict.getD es (str "needs_confirmation") .pyNone).truthy
  | _ => false

/-- POST `/tools/execute` -/
def toolsExecute (rt : ChatRuntime) (paramsId : Nat) (body : ToolExecIn) : ChatM V PyVal := do
  let result ← Chat.onTools
    (ToolRegistry.execute rt.excText paramsId body.tool body.params body.userConfirmed)
  Chat.log (if needsConfirmation result then str "tool_confirm" else str "tool_exec") body.tool
  return result

/-- The built-in tools, their handlers in the surroundings of this call. -/
def equip (cm : CaseMap) (vs : VectorStore V) (te : ToolEnv) (s : ChatState V) : ChatState V :=
  { s with tools := registerBuiltins cm vs te { s.tools with tools := [] } }

inductive Request where
  | write (env : Env) (body : MemoryWriteIn)
  | execute (te : ToolEnv) (paramsId : Nat) (body : ToolExecIn)
  | turn (te : ToolEnv) (env : ChatEnv) (body : ChatTurnIn)
  | stream (te : ToolEnv) (env : StreamEnv) (userId message : PyStr)

def Request.run (cfg : ChatConfig) (rt : ChatRuntime) (vs : VectorStore V) (s : ChatState V) :
    Request → ChatState V
  | .write env body => final (memoryWrite rt vs env body s)
  | .execute te paramsId body => final (toolsExecute rt paramsId body (equip rt.cm vs te s))
  | .turn te env body => final (Chat.runChatTurn cfg rt vs env body (equip rt.cm vs te s))
  | .stream te env userId message =>
    (final (Chat.streamChat cfg rt vs env userId message
      { chat := equip rt.cm vs te s, yielded := [] })).chat

def requestSystem (cfg : ChatConfig) (rt : ChatRuntime) (vs : VectorStore V) :
    System (ChatState V) Request where
  init s := s.tools.world.memory.items = []
  step s r s' := s' = r.run cfg rt vs s

/-- The policy: an item that holds a secret says so by its kind. -/
def Consented (cm : CaseMap) (items : List MemoryItem) : Prop :=
  ∀ i ∈ items, holdsSecret cm i.value = true → i.kind = str "secret"

/-- `write` stores no secret under these arguments but as one. -/
def Harmless (cm : CaseMap) (kind key value : PyStr) : Prop :=
  holdsSecret cm value = true →
    MemoryService.kindArg cm kind = str "secret" ∨
      MemoryService.isNoise (MemoryService.kindArg cm kind) (PyStr.strip key) (PyStr.strip value) = true

/-- A tool call, unless it is a `save_memory` that stores a secret under another kind. -/
def HarmlessCall (cm : CaseMap) (tool : PyStr) (params : PyVal) : Prop :=
  tool = str "save_memory" →
    ∀ args a, kwargs [str "kind", str "key", str "value"] (params.orElse (.dict [])) = .ok args →
      saveArgs args = .ok a → Harmless cm a.kind a.key a.value

/-- No name that the message gives holds a secret. -/
def HarmlessName (tr : TextRules) (message : PyStr) : Prop :=
  ∀ name, NameCapture.nameToStore tr message = some name → holdsSecret tr.cm name = false

/-- No first reply of the LLM asks for a harmful call. -/
def HarmlessReplies (cfg : ChatConfig) (rt : ChatRuntime) (vs : VectorStore V) (te : ToolEnv)
    (env : ChatEnv) : Prop :=
  ∀ systemPrompt userPrompt history raw, env.llm 0 systemPrompt userPrompt history = .ok raw →
    ∀ tool params,
      Chat.toolCall rt (builtins rt.cm vs te) (if cfg.llmStripThinking then Chat.stripThinking raw else raw) =
        .ok (some (tool, params)) → HarmlessCall rt.cm tool params

/-- A message that passes the input check gives no harmful name, and leads to no harmful call where
it gets as far as the LLM. -/
def HarmlessTurn (cfg : ChatConfig) (rt : ChatRuntime) (vs : VectorStore V) (te : ToolEnv)
    (env : ChatEnv) (message : PyStr) : Prop :=
  SafetyService.check rt.cm message = none →
    HarmlessName rt.toTextRules message ∧
      (Chat.asksBackground rt.cm message = false → HarmlessReplies cfg rt vs te env)

def Request.Harmless (cfg : ChatConfig) (rt : ChatRuntime) (vs : VectorStore V) : Request → Prop
  | .write .. => True
  | .execute _ _ body => HarmlessCall rt.cm body.tool body.params
  | .turn te env body => HarmlessTurn cfg rt vs te env body.message
  | .stream te env _ message => HarmlessTurn cfg rt vs te env.pipeline message

/-- Whitespace at the ends of a text has no case and gives none to its neighbours. -/
def KeepsSpace (cm : CaseMap) : Prop := ∀ s, cm.lower (PyStr.strip s) = PyStr.strip (cm.lower s)

theorem isInfix_strip (s : PyStr) : PyStr.strip s <:+: s :=
  (List.rdropWhile_prefix isSpace (PyStr.lstrip s)).isInfix.trans (List.dropWhile_suffix isSpace).isInfix

theorem holdsSecret_of_strip {cm : CaseMap} (hcm : KeepsSpace cm) {value : PyStr}
    (h : holdsSecret cm (PyStr.strip value) = true) : holdsSecret cm value = true := by
  obtain ⟨word, hword, hmem⟩ := List.any_eq_true.mp h
  refine List.any_eq_true.mpr ⟨word, hword, ?_⟩
  rw [PyStr.contains, decide_eq_true_iff] at hmem ⊢
  rw [hcm] at hmem
  exact hmem.trans (isInfix_strip _)

section Store

variable {cm : CaseMap} {vs : VectorStore V} {env : Env} {I : MemoryService V → Prop}

theorem keeps_call {α : Type} (default : α) (a : Answer α) : Keeps I (MemoryService.call default a) := by
  cases a with
  | missing => exact .pure _
  | raises e => exact .throw e
  | returns x => exact .pure x

theorem keeps_search (senv : SearchEnv) (query : PyStr) :
    Keeps I (MemoryService.search cm senv query) := by
  unfold MemoryService.search
  apply Ensures.bind .get
  intro s _
  apply Ensures.bind (keeps_call _ _)
  intro pgRows _
  apply Ensures.bind (keeps_call _ _)
  intro neoRows _
  dsimp only
  split
  · split
    · exact Keeps.pure _
    · exact Keeps.pure _
  · exact Keeps.pure _

theorem keeps_write (hcm : KeepsSpace cm) {kind key value : PyStr} (metadata : PyDict)
    (h : Harmless cm kind key value) :
    Keeps (fun m => Consented cm m.items) (MemoryService.write cm vs env kind key value metadata) := by
  intro s hs
  refine ⟨?_, fun _ _ _ => trivial⟩
  rw [MemoryService.write_eq]
  split
  · exact hs
  · rename_i hfiltered
    obtain ⟨createdAt, hitems⟩ := MemoryService.final_append vs env
      (.new env.now env.uid (MemoryService.kindArg cm kind) (PyStr.strip key) (PyStr.strip value) metadata) s
    intro i hi hsecret
    rw [hitems] at hi
    rcases List.mem_append.mp hi with hi | hi
    · exact hs i hi hsecret
    · obtain rfl := List.mem_singleton.mp hi
      rcases h (holdsSecret_of_strip hcm hsecret) with hkind | hnoise
      · exact hkind
      · rw [MemoryService.filtered, hnoise, Bool.true_or] at hfiltered
        exact absurd rfl hfiltered

end Store

section Tools

variable {cm : CaseMap} {vs : VectorStore V} {te : ToolEnv}

def WorldConsented (cm : CaseMap) (w : World V) : Prop := Consented cm w.memory.items

theorem keeps_onMemory {α : Type} {p : ServiceM V α} (h : Keeps (fun m => Consented cm m.items) p) :
    Keeps (WorldConsented cm) (Builtins.onMemory p) :=
  h.zoom (fun _ hw => hw) fun _ _ _ hm => hm

theorem keeps_toolSearchMemory (params : PyVal) :
    Keeps (WorldConsented (V := V) cm) (toolSearchMemory cm te params) := by
  unfold toolSearchMemory
  apply Keeps.bind (.ofExcept _)
  intro args
  apply Keeps.bind (.ofExcept _)
  intro query
  apply Keeps.bind (keeps_onMemory (keeps_search _ _))
  intro items
  exact Keeps.pure _

theorem keeps_toolSaveMemory (hcm : KeepsSpace cm) {params : PyVal}
    (h : ∀ args a, kwargs [str "kind", str "key", str "value"] params = .ok args →
      saveArgs args = .ok a → Harmless cm a.kind a.key a.value) :
    Keeps (WorldConsented cm) (toolSaveMemory cm vs te params) := by
  unfold toolSaveMemory
  apply Ensures.bind (Ensures.ofExcept fun args hargs => hargs)
  intro args hargs
  apply Ensures.bind (Ensures.ofExcept fun a ha => ha)
  intro a ha
  apply Keeps.bind (keeps_onMemory (keeps_write hcm [] (h args a hargs ha)))
  intro _
  exact Keeps.pure _

theorem keeps_toolSetReminder (params : PyVal) :
    Keeps (WorldConsented (V := V) cm) (toolSetReminder te params) := by
  unfold toolSetReminder addReminder
  apply Keeps.bind (.ofExcept _)
  intro args
  apply Keeps.bind
  · apply Keeps.bind (.ofExcept _)
    intro dueAt
    exact Keeps.modify fun w hw => hw
  · intro _
    exact Keeps.pure _

theorem keeps_toolGetTime (params : PyVal) : Keeps (WorldConsented (V := V) cm) (toolGetTime te params) :=
  Keeps.bind (.ofExcept _) fun _ => Keeps.pure _

theorem keeps_toolSendMessage (params : PyVal) :
    Keeps (WorldConsented (V := V) cm) (toolSendMessage params) :=
  Keeps.bind (.ofExcept _) fun _ => Keeps.bind (.ofExcept _) fun _ => Keeps.pure _

theorem keeps_toolWebSearch (params : PyVal) :
    Keeps (WorldConsented (V := V) cm) (toolWebSearch te params) :=
  Keeps.bind (.ofExcept _) fun _ => Keeps.pure _

theorem keeps_handler (hcm : KeepsSpace cm) {t : ToolDef (World V)} (ht : t ∈ builtins cm vs te)
    {params : PyVal} (h : HarmlessCall cm t.name params) {handler : PyVal → EStateM PyExc (World V) PyVal}
    (hhandler : t.handler = some handler) :
    Keeps (WorldConsented cm) (handler (params.orElse (.dict []))) := by
  simp only [builtins, List.mem_cons, List.not_mem_nil, or_false] at ht
  rcases ht with rfl | rfl | rfl | rfl | rfl | rfl <;> cases hhandler
  · exact keeps_toolSearchMemory _
  · exact keeps_toolGetTime _
  · exact keeps_toolSaveMemory hcm (h rfl)
  · exact keeps_toolSetReminder _
  · exact keeps_toolSendMessage _
  · exact keeps_toolWebSearch _

end Tools

section Requests

variable {cfg : ChatConfig} {rt : ChatRuntime} {vs : VectorStore V} {te : ToolEnv}

/-- These tools are registered, and the store keeps the policy. -/
structure Guarded (cm : CaseMap) (tools : List (PyStr × ToolDef (World V))) (s : ChatState V) : Prop where
  tools : s.tools.tools = tools
  consented : WorldConsented cm s.tools.world

def registered (cm : CaseMap) (vs : VectorStore V) (te : ToolEnv) : List (PyStr × ToolDef (World V)) :=
  (builtins cm vs te).map fun t => (t.name, t)

theorem guarded_equip {s : ChatState V} (h : Consented rt.cm s.tools.world.memory.items) :
    Guarded rt.cm (registered rt.cm vs te) (equip rt.cm vs te s) where
  tools := rfl
  consented := h

theorem Guarded.listTools {s : ChatState V} (h : Guarded rt.cm (registered rt.cm vs te) s) :
    s.tools.listTools = builtins rt.cm vs te := by
  rw [ToolRegistry.listTools, h.tools, Assoc.values, registered, List.map_map]
  exact List.map_id _

section Frame

variable {cm : CaseMap} {tools : List (PyStr × ToolDef (World V))}

theorem keeps_log (type detail : PyStr) : Keeps (Guarded cm tools) (Chat.log type detail) :=
  .modify fun _ hs => ⟨hs.tools, hs.consented⟩

theorem keeps_record (userId message response : PyStr) :
    Keeps (Guarded cm tools) (Chat.record userId message response) :=
  .modify fun _ hs => ⟨hs.tools, hs.consented⟩

theorem keeps_chatMemory {α : Type} {p : ServiceM V α} (h : Keeps (fun m => Consented cm m.items) p) :
    Keeps (Guarded cm tools) (Chat.onMemory p) :=
  h.zoom (fun _ hs => hs.consented) fun _ _ hs hm => ⟨hs.tools, hm⟩

end Frame

theorem mem_of_registered {σ : Type} {ts : List (ToolDef σ)} {name : PyStr} {t : ToolDef σ}
    (h : Assoc.get? (ts.map fun t => (t.name, t)) name = some t) : t ∈ ts ∧ t.name = name := by
  obtain ⟨e, hfind, rfl⟩ := Option.map_eq_some_iff.mp h
  have hname := List.find?_some hfind
  obtain ⟨t', ht', rfl⟩ := List.mem_map.mp (List.mem_of_find?_eq_some hfind)
  exact ⟨ht', eq_of_beq hname⟩

theorem worldConsented_worldAfter (hcm : KeepsSpace rt.cm) {name : PyStr} {params : PyVal}
    (h : HarmlessCall rt.cm name params) {r : ToolRegistry (World V)}
    (htools : r.tools = registered rt.cm vs te)
    (hworld : WorldConsented rt.cm r.world) : WorldConsented rt.cm (r.worldAfter name params) := by
  unfold ToolRegistry.worldAfter
  rw [htools]
  cases htool : Assoc.get? (registered rt.cm vs te) name with
  | none => exact hworld
  | some t =>
    obtain ⟨ht, rfl⟩ := mem_of_registered htool
    rw [Option.bind_some]
    cases hhandler : t.handler with
    | none => exact hworld
    | some handler => exact (keeps_handler hcm ht h hhandler r.world hworld).1

/-- A call of a built-in tool keeps the policy unless it is a harmful one. -/
theorem keeps_execute (hcm : KeepsSpace rt.cm) {paramsId : Nat} {name : PyStr} {params : PyVal}
    {userConfirmed : Bool} (h : HarmlessCall rt.cm name params) :
    Keeps (Guarded rt.cm (registered rt.cm vs te))
      (Chat.onTools (ToolRegistry.execute rt.excText paramsId name params userConfirmed)) := by
  intro s hs
  refine ⟨?_, fun _ _ _ => trivial⟩
  rw [Chat.onTools, final_zoom]
  by_cases hasks : s.tools.external name = true ∧ userConfirmed = false
  · obtain ⟨hexternal, rfl⟩ := hasks
    rw [ToolRegistry.execute_asks rt.excText paramsId params hexternal]
    exact ⟨hs.tools, hs.consented⟩
  · have hruns : s.tools.external name = false ∨ userConfirmed = true := by
      cases hexternal : s.tools.external name with
      | false => exact .inl rfl
      | true => exact .inr (by simpa [hexternal] using hasks)
    rw [ToolRegistry.execute_runs rt.excText paramsId params hruns]
    exact ⟨hs.tools, worldConsented_worldAfter hcm h hs.tools hs.consented⟩

theorem kindArg_secret (cm : CaseMap) : MemoryService.kindArg cm (str "secret") = str "secret" := by
  have hstrip : PyStr.strip (PyStr.orElse (str "secret") (str "note")) = str "secret" := by decide
  rw [MemoryService.kindArg, hstrip, cm.ascii _ (by decide)]
  decide

/-- The one route with a check. -/
theorem keeps_memoryWrite (hcm : KeepsSpace rt.cm) {tools : List (PyStr × ToolDef (World V))} (env : Env)
    (body : MemoryWriteIn) : Keeps (Guarded rt.cm tools) (memoryWrite rt vs env body) := by
  unfold memoryWrite
  split
  · apply Keeps.bind (keeps_log _ _)
    intro _
    exact Keeps.pure _
  · rename_i hconsent
    have hharmless : Harmless rt.cm body.kind body.key body.value := by
      intro hsecret
      left
      have hkind : body.kind = str "secret" := by
        by_contra hne
        simp [hne, hsecret] at hconsent
      rw [hkind, kindArg_secret]
    apply Keeps.bind (keeps_chatMemory (keeps_write hcm _ hharmless))
    intro item
    split
    · apply Keeps.bind (keeps_log _ _)
      intro _
      exact Keeps.pure _
    · apply Keeps.bind (keeps_log _ _)
      intro _
      exact Keeps.pure _

theorem keeps_capture (hcm : KeepsSpace rt.cm) {env : NameEnv} {userId message : PyStr}
    (h : HarmlessName rt.toTextRules message) :
    Keeps (Guarded rt.cm (registered rt.cm vs te))
      (Chat.maybeCaptureUserName rt vs env userId message) := by
  unfold Chat.maybeCaptureUserName
  split
  · exact Keeps.pure _
  · rename_i name hname
    have hwrite : Harmless rt.cm (str "profile") (str "name") name := by
      intro hsecret
      rw [h name hname] at hsecret
      cases hsecret
    apply Keeps.bind (keeps_chatMemory (keeps_write hcm _ hwrite))
    intro item
    split
    · split
      · exact Keeps.pure _
      · exact keeps_log _ _
    · exact keeps_log _ _

theorem keeps_rememberedName {env : NameEnv} {userId message : PyStr} :
    Keeps (Guarded rt.cm (registered rt.cm vs te))
      (Chat.rememberedName (V := V) rt env userId message) := by
  unfold Chat.rememberedName Chat.recallUserName
  split
  · apply Keeps.bind
    · apply Keeps.bind (keeps_chatMemory (keeps_search _ _))
      intro hits
      exact Keeps.pure _
    · intro name
      exact Keeps.pure _
  · exact Keeps.pure _

theorem ensures_llmCall {env : ChatEnv} {n : Nat} {systemPrompt userPrompt : PyStr}
    {history : List SessionTurn} :
    Ensures (Guarded rt.cm (registered rt.cm vs te))
      (Chat.llmCall cfg env n systemPrompt userPrompt history) fun r =>
      ∃ raw, env.llm n systemPrompt userPrompt history = .ok raw ∧
        r.1 = if cfg.llmStripThinking then Chat.stripThinking raw else raw := by
  unfold Chat.llmCall
  apply Ensures.bind (Ensures.ofExcept fun raw hraw => hraw)
  intro raw hraw
  exact Ensures.pure ⟨raw, hraw, rfl⟩

theorem keeps_toolFollowup (hcm : KeepsSpace rt.cm) {env : ChatEnv} {userMessage : PyStr}
    {history : List SessionTurn} {raw modelUsed tool : PyStr} {params : PyVal}
    (h : HarmlessCall rt.cm tool params) :
    Keeps (Guarded rt.cm (registered rt.cm vs te))
      (Chat.toolFollowup (V := V) cfg rt env userMessage history raw modelUsed tool params) := by
  unfold Chat.toolFollowup
  apply Keeps.bind (keeps_execute hcm h)
  intro result
  apply Ensures.handling
  · apply Keeps.bind (keeps_log _ _)
    intro _
    apply Keeps.bind (.ofExcept _)
    intro text
    apply Ensures.bind .get
    intro s _
    apply Keeps.bind ensures_llmCall.keeps
    intro reply
    exact Keeps.pure _
  · intro _
    exact Keeps.pure _

theorem keeps_toolCallLoop (hcm : KeepsSpace rt.cm) {env : ChatEnv} {userMessage memoryContext : PyStr}
    {history : List SessionTurn} (h : HarmlessReplies cfg rt vs te env) :
    Keeps (Guarded rt.cm (registered rt.cm vs te))
      (Chat.toolCallLoop cfg rt env userMessage memoryContext history) := by
  unfold Chat.toolCallLoop
  apply Ensures.bind .get
  intro s hs
  apply Ensures.bind ensures_llmCall
  rintro ⟨reply, modelUsed⟩ ⟨raw, hraw, rfl⟩
  rw [hs.listTools] at hraw
  apply Ensures.handling
  · apply Ensures.bind (Ensures.ofExcept fun call hcall => hcall)
    intro call hcall
    rw [hs.listTools] at hcall
    split
    · exact keeps_toolFollowup hcm (h _ _ _ raw hraw _ _ hcall)
    · exact Keeps.pure _
  · intro _
    exact Keeps.pure _

theorem keeps_draft (hcm : KeepsSpace rt.cm) {env : ChatEnv} {body : ChatTurnIn}
    (h : HarmlessReplies cfg rt vs te env) :
    Keeps (Guarded rt.cm (registered rt.cm vs te)) (Chat.draft cfg rt env body) := by
  unfold Chat.draft
  apply Keeps.bind (keeps_chatMemory (keeps_search _ _))
  intro recalled
  apply Ensures.bind .get
  intro s _
  apply Ensures.handling
  · apply Keeps.bind (keeps_toolCallLoop hcm h)
    intro reply
    exact Keeps.pure _
  · intro _
    exact Keeps.pure _

theorem keeps_llmTurn (hcm : KeepsSpace rt.cm) {env : ChatEnv} {body : ChatTurnIn}
    (h : HarmlessReplies cfg rt vs te env) :
    Keeps (Guarded rt.cm (registered rt.cm vs te)) (Chat.llmTurn cfg rt env body) := by
  unfold Chat.llmTurn
  apply Keeps.bind (keeps_draft hcm h)
  intro h
  obtain ⟨reply, modelUsed, actions⟩ := h
  have hrecord (response : PyStr) : Keeps (Guarded rt.cm (registered rt.cm vs te)) (do
      Chat.record body.userId body.message response
      Chat.log (str "chat_turn") (str "user=" ++ body.userId)
      return ({ ok := true, response, model := some modelUsed, toolActions := actions } : ChatResult)) := by
    apply Keeps.bind (keeps_record _ _ _)
    intro _
    apply Keeps.bind (keeps_log _ _)
    intro _
    exact Keeps.pure _
  dsimp only
  split
  · apply Keeps.bind (keeps_log _ _)
    intro _
    exact hrecord _
  · exact hrecord _

theorem keeps_ruleAnswer {tools : List (PyStr × ToolDef (World V))} (body : ChatTurnIn) (response : PyStr)
    (model : String) : Keeps (Guarded rt.cm tools) (Chat.ruleAnswer body response model) := by
  unfold Chat.ruleAnswer
  apply Keeps.bind (keeps_record _ _ _)
  intro _
  apply Keeps.bind (keeps_log _ _)
  intro _
  exact Keeps.pure _

theorem keeps_answer (hcm : KeepsSpace rt.cm) {env : ChatEnv} {body : ChatTurnIn} {name : Option PyStr}
    (h : Chat.asksBackground rt.cm body.message = false → HarmlessReplies cfg rt vs te env) :
    Keeps (Guarded rt.cm (registered rt.cm vs te)) (Chat.answer cfg rt env body name) := by
  unfold Chat.answer
  split
  · exact keeps_ruleAnswer _ _ _
  · split
    · apply Ensures.bind .get
      intro s _
      exact keeps_ruleAnswer _ _ _
    · rename_i hasks
      exact keeps_llmTurn hcm (h (by simpa using hasks))

theorem keeps_runChatTurn (hcm : KeepsSpace rt.cm) {env : ChatEnv} {body : ChatTurnIn}
    (h : HarmlessTurn cfg rt vs te env body.message) :
    Keeps (Guarded rt.cm (registered rt.cm vs te)) (Chat.runChatTurn cfg rt vs env body) := by
  unfold Chat.runChatTurn
  split
  · apply Keeps.bind (keeps_log _ _)
    intro _
    exact Keeps.pure _
  · rename_i hcheck
    obtain ⟨hname, hreplies⟩ := h hcheck
    apply Keeps.bind (keeps_capture hcm hname)
    intro _
    apply Keeps.bind keeps_rememberedName
    intro name
    exact keeps_answer hcm hreplies

def GenGuarded (cm : CaseMap) (tools : List (PyStr × ToolDef (World V))) (g : Chat.Gen V) : Prop :=
  Guarded cm tools g.chat

theorem keeps_onChat {α : Type} {tools : List (PyStr × ToolDef (World V))} {p : ChatM V α}
    (h : Keeps (Guarded rt.cm tools) p) : Keeps (GenGuarded rt.cm tools) (Chat.onChat p) :=
  h.zoom (fun _ hg => hg) fun _ _ _ hs => hs

theorem keeps_yieldAll {tools : List (PyStr × ToolDef (World V))} (deltas : List PyStr) :
    Keeps (GenGuarded rt.cm tools) (Chat.yieldAll deltas) :=
  .modify fun _ hg => hg

theorem keeps_yieldPipeline (hcm : KeepsSpace rt.cm) {env : StreamEnv} {userId message : PyStr}
    (h : HarmlessTurn cfg rt vs te env.pipeline message) :
    Keeps (GenGuarded rt.cm (registered rt.cm vs te))
      (Chat.yieldPipeline cfg rt vs env userId message) := by
  unfold Chat.yieldPipeline
  apply Keeps.bind (keeps_onChat (keeps_runChatTurn hcm h))
  intro result
  exact keeps_yieldAll _

theorem keeps_afterStream (hcm : KeepsSpace rt.cm) {env : StreamEnv} {userId message : PyStr}
    (h : HarmlessTurn cfg rt vs te env.pipeline message) (deltas : List PyStr) (failure : Option PyExc) :
    Keeps (GenGuarded rt.cm (registered rt.cm vs te))
      (Chat.afterStream cfg rt vs env userId message deltas failure) := by
  unfold Chat.afterStream
  split
  · split
    · exact keeps_yieldPipeline hcm h
    · exact .throw _
  · apply keeps_onChat
    unfold Chat.recordStream
    apply Keeps.bind (keeps_record _ _ _)
    intro _
    exact keeps_log _ _

theorem keeps_streamChat (hcm : KeepsSpace rt.cm) {env : StreamEnv} {userId message : PyStr}
    (h : HarmlessTurn cfg rt vs te env.pipeline message) :
    Keeps (GenGuarded rt.cm (registered rt.cm vs te)) (Chat.streamChat cfg rt vs env userId message) := by
  unfold Chat.streamChat
  split
  · exact keeps_yieldPipeline hcm h
  · split
    · exact keeps_yieldAll _
    · rename_i hcheck
      apply Keeps.bind (keeps_onChat (keeps_capture hcm (h hcheck).1))
      intro _
      apply Keeps.bind (keeps_onChat keeps_rememberedName)
      intro name
      unfold Chat.streamAnswer
      split
      · apply Keeps.bind (keeps_onChat (keeps_record _ _ _))
        intro _
        exact keeps_yieldAll _
      · unfold Chat.streamReply
        apply Ensures.bind .get
        intro g _
        apply Keeps.bind (keeps_yieldAll _)
        intro _
        exact keeps_afterStream hcm h _ _

theorem consented_run (hcm : KeepsSpace rt.cm) {r : Request} (h : r.Harmless cfg rt vs) {s : ChatState V}
    (hs : Consented rt.cm s.tools.world.memory.items) :
    Consented rt.cm (r.run cfg rt vs s).tools.world.memory.items := by
  cases r with
  | write env body => exact (keeps_memoryWrite hcm env body s ⟨rfl, hs⟩).1.consented
  | execute te paramsId body =>
    have hcall : Keeps (Guarded rt.cm (registered rt.cm vs te)) (toolsExecute rt paramsId body) := by
      unfold toolsExecute
      apply Keeps.bind (keeps_execute hcm h)
      intro result
      apply Keeps.bind (keeps_log _ _)
      intro _
      exact Keeps.pure _
    exact (hcall _ (guarded_equip hs)).1.consented
  | turn te env body => exact (keeps_runChatTurn hcm h _ (guarded_equip hs)).1.consented
  | stream te env userId message =>
    have hgen : GenGuarded rt.cm (registered rt.cm vs te) ⟨equip rt.cm vs te s, []⟩ := guarded_equip hs
    exact (keeps_streamChat hcm h _ hgen).1.consented

end Requests

/-- Runs of harmless requests keep the policy. -/
theorem reachable_consented {cfg : ChatConfig} {rt : ChatRuntime} {vs : VectorStore V}
    (hcm : KeepsSpace rt.cm) {s : ChatState V}
    (h : ((requestSystem cfg rt vs).restrict fun _ r => r.Harmless cfg rt vs).Reachable s) :
    Consented rt.cm s.tools.world.memory.items := by
  refine h.invariant (I := fun s => Consented rt.cm s.tools.world.memory.items) ?_ ?_
  · intro s hs i hi
    rw [hs] at hi
    cases hi
  · rintro s r s' hs ⟨hharmless, rfl⟩
    exact consented_run hcm hharmless hs

theorem isSpace_lower (c : Nat) : isSpace (if 65 ≤ c && c ≤ 90 then c + 32 else c) = isSpace c := by
  split
  · rename_i hupper
    simp only [Bool.and_eq_true, decide_eq_true_eq] at hupper
    simp only [isSpace]
    grind
  · rfl

theorem keepsSpace_asciiOnly : KeepsSpace .asciiOnly := by
  intro s
  have hspace : (isSpace ∘ fun c : Nat => if 65 ≤ c && c ≤ 90 then c + 32 else c) = isSpace :=
    funext isSpace_lower
  simp only [CaseMap.asciiOnly, PyStr.strip, PyStr.lstrip, List.rdropWhile, List.map_reverse.symm,
    List.dropWhile_map, hspace]

def saving (kind key value : String) : Request :=
  .execute
    { write := .fileOnly [] [], search := .fileOnly, utc := [], readable := [], reminderId := []
      createdAt := 0, dueAt := fun _ => .ok 0, text := fun _ => [] }
    0
    { tool := str "save_memory"
      params := .dict [(str "kind", .str (str kind)), (str "key", .str (str key)),
        (str "value", .str (str value))]
      userConfirmed := false }

def exampleConfig : ChatConfig :=
  { llmProvider := str "ollama", ollamaModel := [], openaiCompatModel := [], llmStripThinking := true
    wsStreamEnabled := false }

theorem harmless_saving {kind key value : String} (h : Harmless .asciiOnly (str kind) (str key) (str value)) :
    (saving kind key value).Harmless exampleConfig Chat.asciiRuntime VectorStore.inert := by
  intro _ args a hargs ha
  cases hargs
  cases ha
  exact h

/-- Two tool calls, one of which stores a secret as such. -/
theorem reachable_consented_wifi :
    ∃ s, ((requestSystem exampleConfig Chat.asciiRuntime .inert).restrict
        fun _ r => r.Harmless exampleConfig Chat.asciiRuntime VectorStore.inert).Reachable s ∧
      s.tools.world.memory.items.length = 2 ∧ Consented .asciiOnly s.tools.world.memory.items := by
  have htea : Harmless .asciiOnly (str "note") (str "tea") (str "green tea") := fun h => by
    revert h
    decide
  have hwifi : Harmless .asciiOnly (str "secret") (str "wifi") (str "password 1234") :=
    fun _ => .inl (by decide)
  have h₀ : ((requestSystem exampleConfig Chat.asciiRuntime .inert).restrict
      fun _ r => r.Harmless exampleConfig Chat.asciiRuntime VectorStore.inert).Reachable Chat.firstState :=
    .of_init rfl
  have h₁ := h₀.step ⟨harmless_saving htea, rfl⟩
  have h₂ := h₁.step ⟨harmless_saving hwifi, rfl⟩
  exact ⟨_, h₂, by rfl, reachable_consented keepsSpace_asciiOnly h₂⟩

/-- The `save_memory` tool stores a password as a note. -/
theorem not_reachable_consented :
    ¬ ∀ s, (requestSystem exampleConfig Chat.asciiRuntime .inert).Reachable s →
      Consented .asciiOnly s.tools.world.memory.items := by
  intro hall
  have h₀ : (requestSystem exampleConfig Chat.asciiRuntime .inert).Reachable Chat.firstState := .of_init rfl
  have h₁ := h₀.step (l := saving "note" "wifi" "password 1234") rfl
  have hnote := hall _ h₁
    { kind := str "note", key := str "wifi", value := str "password 1234", createdAt := [], metadata := []
      uid := [], source := str "memory-file" } List.mem_cons_self (by decide)
  revert hnote
  decide

end Consent

end VirtualPerson
