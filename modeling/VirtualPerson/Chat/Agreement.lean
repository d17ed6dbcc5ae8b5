import VirtualPerson.Chat.Remembered
import VirtualPerson.Chat.Routes
import VirtualPerson.Python.Words

/-!
# Where the two pipelines agree

A stream is asked without the persona's background rule and without the recalled memories.
For an LLM that answers by what it is shown, when a message goes the same way in both, and the deltas
spell the response that `_chat_via_pipeline` returns from the same state.
-/

namespace VirtualPerson

set_option autoImplicit false

open Stateful SafetyService

namespace Chat

variable {V : Type}

/-- What an LLM answers to a question, a memory context and a history. -/
abbrev Replies := (question memoryContext : PyStr) → List SessionTurn → PyStr

/-- The surroundings of a streamed call whose name handling meets what `_run_chat_turn` would. -/
def streamEnv (env : ChatEnv)
    (stream : PyStr → PyStr → List SessionTurn → List PyStr × Option PyExc) : StreamEnv :=
  { toNameEnv := env.toNameEnv, stream, pipeline := env }

/-- Both pipelines ask this LLM; the stream shows it no memory, and ends well. -/
structure Asks (env : ChatEnv)
    (stream : PyStr → PyStr → List SessionTurn → List PyStr × Option PyExc) (s : ChatState V)
    (message : PyStr) (replies : Replies) : Prop where
  chat : ∀ context history,
    env.llm 0 (PersonaService.systemPrompt s.persona)
      (toolPrompt s.tools.listTools (message ++ styleHint none) context) history =
        .ok (replies message context history)
  streams : ∀ history, ∃ deltas,
    stream (PersonaService.systemPrompt s.persona) message history = (deltas, none) ∧
      deltas.flatten = replies message [] history

/-- A reply as the tool loop reads it. -/
def cleaned (cfg : ChatConfig) (reply : PyStr) : PyStr :=
  if cfg.llmStripThinking then stripThinking reply else reply

/-- It is no JSON object with a `tool_call`. -/
def NoToolCall (rt : ChatRuntime) (text : PyStr) : Prop :=
  ∀ parsed, rt.jsonLoads text = .ok (.dict parsed) → PyDict.get? parsed (str "tool_call") = none

/-- The replies hold no tool call and no think block, and pass the check. -/
structure PlainReplies (cfg : ChatConfig) (rt : ChatRuntime) (message : PyStr) (replies : Replies) :
    Prop where
  noToolCall : ∀ context history, NoToolCall rt (cleaned cfg (replies message context history))
  noThinkBlock : ∀ context history, ¬ ThinkBlock (replies message context history)
  passes : ∀ context history, Passes rt.cm (finished cfg (replies message context history))

/-- What `_run_chat_turn` hands out for a plain reply; an exception of `json.loads` other than its
decoding error drops the reply. -/
def handedOut (cfg : ChatConfig) (rt : ChatRuntime) (message : PyStr) (hits : Nat) (reply : PyStr) :
    Option PyStr :=
  match rt.jsonLoads (cleaned cfg reply) with
  | .ok _ => some (finished cfg reply)
  | .error e =>
    if toolLoopCatches e then some (finished cfg reply)
    else if e.isException then some (moderated rt.cm (fallbackReply message hits)) else none

/-- The memories that the message recalls, as the LLM is shown them. -/
def ranking (env : ChatEnv) (recalled : List MemoryItem) : List (Curation.ScoredMemory ℚ) :=
  Curation.rankMemories env.stale (recalled.map (Curation.ScoredMemory.ofItem env.retrieve.retrievalScore)) 8

/-- No white space at either end -/
structure Trimmed (text : PyStr) : Prop where
  head : ∀ c, text.head? = some c → isSpace c = false
  last : ∀ c, text.getLast? = some c → isSpace c = false

/-- The tool loop leaves the reply as it is, and the default text does not take its place. -/
def Unaltered (cfg : ChatConfig) (reply : PyStr) : Prop :=
  reply ≠ [] ∧ (cfg.llmStripThinking = true → Trimmed reply)

/-- A turn without memories hands the reply on. Where `json.loads` raises what the tool loop does not
catch, the text of the fallback takes the reply's place. -/
def HandedOn (cfg : ChatConfig) (rt : ChatRuntime) (message reply : PyStr) : Prop :=
  match rt.jsonLoads (cleaned cfg reply) with
  | .ok _ => Unaltered cfg reply
  | .error e =>
    if toolLoopCatches e then Unaltered cfg reply
    else e.isException = true ∧ moderated rt.cm (fallbackReply message 0) = reply

/-- `_chat_via_pipeline` has nothing to add to the stream: the message is refused or answered with the
name; or it does not ask for the background, no memory is recalled for it, and the LLM's reply is one
that a turn hands on. -/
def AddsNothing (cfg : ChatConfig) (rt : ChatRuntime) (vs : VectorStore V) (env : ChatEnv)
    (userId message : PyStr) (s : ChatState V) (replies : Replies) : Prop :=
  ∀ s₂, Remembers rt vs env.toNameEnv userId message s none s₂ →
    asksBackground rt.cm message = false ∧
      (∃ recalled m, MemoryService.search rt.cm env.retrieve message s₂.tools.world.memory = .ok recalled m ∧
        ranking env recalled = []) ∧
      HandedOn cfg rt message (replies message [] (s.sessions.get userId (some 10)))

section Served

open Calls

variable (cfg : ChatConfig) (rt : ChatRuntime) (vs : VectorStore V) (env : ChatEnv)
variable (stream : PyStr → PyStr → List SessionTurn → List PyStr × Option PyExc)
variable (userId message : PyStr) (s : ChatState V)

/-- The exit of a streamed message, and what the LLM is shown there -/
def streamRoute : Route V :=
  routeOf rt vs (streamEnv env stream) false (Calls.streamChat cfg rt userId message) s

def turnRoute : Route V :=
  routeOf rt vs (streamEnv env stream) true (Calls.chatViaPipeline cfg rt userId message) s

/-- What a streamed call yields is the response of `_chat_via_pipeline` from the same state, by the same
rule, or by the LLM from the same memories and history. -/
def Agrees : Prop :=
  ∀ g b, execServed rt vs (streamEnv env stream) (Calls.streamChat cfg rt userId message)
      ({ chat := s, yielded := [] }, false) = (.ok (), g, b) →
    ∃ r g' b', execServed rt vs (streamEnv env stream) (Calls.chatViaPipeline cfg rt userId message)
        ({ chat := s, yielded := [] }, true) = (.ok r, g', b') ∧
      r.response = g.yielded.flatten ∧
      SameRoute rt s.tools.listTools message (streamRoute cfg rt vs env stream userId message s)
        (turnRoute cfg rt vs env stream userId message s)

end Served

section Loop

variable {cfg : ChatConfig} {rt : ChatRuntime} {vs : VectorStore V} {env : ChatEnv}
variable {s : ChatState V} {raw question context text : PyStr} {history : List SessionTurn}

theorem toolCall_of_noToolCall {σ : Type} (tools : List (ToolDef σ)) (h : NoToolCall rt text) :
    toolCall rt tools text = (rt.jsonLoads text).map fun _ => none := by
  unfold toolCall
  cases hloads : rt.jsonLoads text with
  | error e => rfl
  | ok v =>
    cases v with
    | dict parsed =>
      have hget := h parsed hloads
      simp only [bind, Except.bind]
      rw [hget]
      rfl
    | _ => rfl

def modelUsed (cfg : ChatConfig) : PyStr :=
  if cfg.llmProvider = str "ollama" then cfg.ollamaModel else cfg.openaiCompatModel

theorem toolCallLoop_of_noToolCall
    (hllm : env.llm 0 (PersonaService.systemPrompt s.persona)
      (toolPrompt s.tools.listTools question context) history = .ok raw)
    (hplain : NoToolCall rt (cleaned cfg raw)) :
    toolCallLoop cfg rt env question context history s =
      match rt.jsonLoads (cleaned cfg raw) with
      | .ok _ => .ok (cleaned cfg raw, modelUsed cfg, []) s
      | .error e =>
        if toolLoopCatches e then .ok (cleaned cfg raw, modelUsed cfg, []) s else .error e s := by
  have hcall : llmCall cfg env 0 (PersonaService.systemPrompt s.persona)
      (toolPrompt s.tools.listTools question context) history s =
        .ok (cleaned cfg raw, modelUsed cfg) s := by
    unfold llmCall
    rw [hllm]
    rfl
  unfold toolCallLoop
  simp only [bind_run, get_run, hcall]
  rw [handling_run, bind_run, toolCall_of_noToolCall _ hplain]
  cases rt.jsonLoads (cleaned cfg raw) <;> rfl

theorem moderated_of_passes (h : Passes rt.cm text) : moderated rt.cm text = text := by
  rw [moderated, h]

/-- The reply that leaves `_run_chat_turn`, if one does. -/
theorem draft_of_noToolCall {userId message : PyStr} {recalled : List MemoryItem}
    {m : MemoryService V}
    (hsearch : MemoryService.search rt.cm env.retrieve message s.tools.world.memory = .ok recalled m)
    (hllm : env.llm 0 (PersonaService.systemPrompt s.persona)
      (toolPrompt s.tools.listTools (message ++ styleHint none)
        (memoryContext rt (ranking env recalled))) (s.sessions.get userId (some 10)) = .ok raw)
    (hplain : NoToolCall rt (cleaned cfg raw)) (hpasses : Passes rt.cm (finished cfg raw)) :
    (∃ reply model actions s₃,
      draft cfg rt env { userId, message, style := none } s = .ok (reply, model, actions) s₃ ∧
        moderated rt.cm reply = text) ↔
      handedOut cfg rt message (ranking env recalled).length raw = some text := by
  obtain ⟨s', hrecall, hpersona, htools, hsessions⟩ : ∃ s' : ChatState V,
      onMemory (MemoryService.search rt.cm env.retrieve message) s = .ok recalled s' ∧
        s'.persona = s.persona ∧ s'.tools.listTools = s.tools.listTools ∧
        s'.sessions = s.sessions := by
    rw [onMemory, zoom, hsearch]
    exact ⟨_, rfl, rfl, rfl, rfl⟩
  rw [← hpersona, ← htools, ← hsessions] at hllm
  have hloop := toolCallLoop_of_noToolCall hllm hplain
  unfold draft
  simp only [bind_run, get_run, hrecall]
  unfold ranking at hloop ⊢
  rw [handling_run, bind_run, hloop, handedOut]
  have hreply : moderated rt.cm (PersonaService.enforce (PyStr.orElse (cleaned cfg raw) defaultReply)) =
      finished cfg raw := moderated_of_passes hpasses
  cases rt.jsonLoads (cleaned cfg raw) with
  | ok v => simp [pure_run, hreply]
  | error e =>
    cases hcaught : toolLoopCatches e with
    | true => simp [pure_run, hcaught, hreply]
    | false => cases hexc : e.isException <;> simp [pure_run, hcaught, hexc]

theorem stripThinking_eq_self_iff (h : ¬ ThinkBlock text) : stripThinking text = text ↔ Trimmed text := by
  rw [stripThinking_of_not_thinkBlock h]
  constructor
  · intro hstrip
    constructor
    · intro c hc
      rw [← hstrip] at hc
      exact PyStr.head_strip hc
    · intro c hc
      rw [← hstrip] at hc
      exact PyStr.last_strip hc
  · exact fun htrimmed => PyStr.strip_eq_self htrimmed.head htrimmed.last

theorem cleaned_eq_self_iff (h : ¬ ThinkBlock text) :
    cleaned cfg text = text ↔ (cfg.llmStripThinking = true → Trimmed text) := by
  unfold cleaned
  split
  · rename_i hstrip
    rw [stripThinking_eq_self_iff h]
    exact ⟨fun htrimmed _ => htrimmed, fun htrimmed => htrimmed hstrip⟩
  · rename_i hstrip
    exact ⟨fun _ hstrip' => absurd hstrip' hstrip, fun _ => rfl⟩

/-- The default text is none that would be stripped to nothing. -/
theorem finished_eq_self_iff (h : ¬ ThinkBlock text) : finished cfg text = text ↔ Unaltered cfg text := by
  have hfinished : finished cfg text = PyStr.orElse (cleaned cfg text) defaultReply := rfl
  rw [Unaltered, ← cleaned_eq_self_iff h, hfinished]
  by_cases hempty : cleaned cfg text = []
  · rw [hempty]
    constructor
    · intro hdefault
      have htext : text = defaultReply := hdefault.symm
      have hdefault : ∀ cfg, cleaned cfg defaultReply ≠ [] := by
        intro cfg
        unfold cleaned
        split <;> decide
      rw [htext] at hempty
      exact absurd hempty (hdefault cfg)
    · intro hkept
      exact absurd hkept.2.symm hkept.1
  · have hself : PyStr.orElse (cleaned cfg text) defaultReply = cleaned cfg text := by
      simp [PyStr.orElse, hempty]
    rw [hself]
    constructor
    · intro hkept
      exact ⟨fun hnil => hempty (hkept.trans hnil), hkept⟩
    · exact fun hkept => hkept.2

theorem handedOut_eq_self_iff {message : PyStr} (h : ¬ ThinkBlock raw) :
    handedOut cfg rt message 0 raw = some raw ↔ HandedOn cfg rt message raw := by
  unfold handedOut HandedOn
  cases rt.jsonLoads (cleaned cfg raw) with
  | ok v =>
    dsimp only
    rw [Option.some_inj]
    exact finished_eq_self_iff h
  | error e =>
    dsimp only
    split
    · rw [Option.some_inj]
      exact finished_eq_self_iff h
    · split
      · rename_i hexc
        rw [Option.some_inj]
        exact ⟨fun hreply => ⟨hexc, hreply⟩, fun hreply => hreply.2⟩
      · rename_i hexc
        simp [hexc]

theorem exit_reply_iff {body : ChatTurnIn} {s₂ : ChatState V}
    (hrem : Remembers rt vs env.toNameEnv body.userId body.message s none s₂)
    (hasks : asksBackground rt.cm body.message = false) :
    Exit cfg rt vs env body s text ↔ ∃ reply model actions s₃,
      draft cfg rt env body s₂ = .ok (reply, model, actions) s₃ ∧ moderated rt.cm reply = text := by
  constructor
  · intro h
    cases h with
    | refused hcheck => cases hrem.1.symm.trans hcheck
    | name hname => cases (hrem.unique hname).1
    | background _ hasks' => cases hasks'.symm.trans hasks
    | reply h _ hdraft =>
      obtain ⟨-, rfl⟩ := hrem.unique h
      exact ⟨_, _, _, _, hdraft, rfl⟩
  · intro h
    obtain ⟨reply, model, actions, s₃, hdraft, rfl⟩ := h
    exact .reply hrem hasks hdraft

end Loop

section Agreement

variable {cfg : ChatConfig} {rt : ChatRuntime} {vs : VectorStore V} {env : ChatEnv}
variable {stream : PyStr → PyStr → List SessionTurn → List PyStr × Option PyExc}
variable {userId message : PyStr} {s s₂ : ChatState V} {g : Gen V} {replies : Replies}

theorem listTools_of_remembers {name : Option PyStr} {nenv : NameEnv}
    (h : Remembers rt vs nenv userId message s name s₂) : s₂.tools.listTools = s.tools.listTools := by
  have hI : Apart fun t : ChatState V => t.tools.listTools = s.tools.listTools :=
    ⟨fun _ _ ht => ht, fun _ _ ht => ht⟩
  exact hI.remembers h rfl

/-- What a stream yields where no name answers the message. -/
theorem streamAnswer_of_asks (hasks : Asks env stream s message replies)
    (hrem : Remembers rt vs env.toNameEnv userId message s none s₂) :
    ∃ g, streamAnswer cfg rt vs (streamEnv env stream) userId message none
        { chat := s₂, yielded := [] } = .ok () g ∧
      g.yielded.flatten = replies message [] (s.sessions.get userId (some 10)) := by
  obtain ⟨hpersona, hsessions⟩ := hrem.frame
  obtain ⟨deltas, hstream, hflatten⟩ := hasks.streams (s.sessions.get userId (some 10))
  rw [← hpersona, ← hsessions] at hstream
  exact ⟨_, streamAnswer_none (streamEnv env stream) hstream, hflatten⟩

theorem addsNothing_iff (hrem : Remembers rt vs env.toNameEnv userId message s none s₂) :
    AddsNothing cfg rt vs env userId message s replies ↔
      asksBackground rt.cm message = false ∧
        (∃ recalled m, MemoryService.search rt.cm env.retrieve message s₂.tools.world.memory =
          .ok recalled m ∧ ranking env recalled = []) ∧
        HandedOn cfg rt message (replies message [] (s.sessions.get userId (some 10))) := by
  constructor
  · exact fun h => h s₂ hrem
  · intro h s' hrem'
    obtain ⟨-, rfl⟩ := hrem.unique hrem'
    exact h

theorem yielded_name {senv : StreamEnv} {n : PyStr}
    (h : streamAnswer cfg rt vs senv userId message (some n) { chat := s, yielded := [] } = .ok () g) :
    g.yielded.flatten = nameAnswer n := by
  cases h
  exact List.append_nil (nameAnswer n)

section Streaming

variable (hstream : ¬ (!cfg.wsStreamEnabled || cfg.llmProvider ≠ str "openai_compat") = true)

include hstream

/-- The calls of both pipelines end as the pipelines do. -/
theorem agrees_iff_pipelines :
    Agrees cfg rt vs env stream userId message s ↔
      ∀ g, streamChat cfg rt vs (streamEnv env stream) userId message { chat := s, yielded := [] } =
          .ok () g →
        Exit cfg rt vs env { userId, message, style := none } s g.yielded.flatten ∧
          Calls.SameRoute rt s.tools.listTools message (streamRoute cfg rt vs env stream userId message s)
            (turnRoute cfg rt vs env stream userId message s) := by
  have hturn : Calls.execServed rt vs (streamEnv env stream) (Calls.chatViaPipeline cfg rt userId message)
      ({ chat := s, yielded := [] }, true) = _ :=
    Calls.serves_runChatTurn cfg { userId, message, style := none } { chat := s, yielded := [] }
  obtain ⟨b', hends⟩ : ∃ b', Calls.EndsAs rt vs (streamEnv env stream)
      (!cfg.wsStreamEnabled || cfg.llmProvider ≠ str "openai_compat") b'
      (Calls.streamChat cfg rt userId message)
      (streamChat cfg rt vs (streamEnv env stream) userId message) { chat := s, yielded := [] } :=
    Calls.endsAs_streamChat cfg userId message { chat := s, yielded := [] }
  rw [eq_false_of_ne_true hstream] at hends
  constructor
  · intro h g hg
    obtain ⟨r, g', b, hr, hresponse, hroute⟩ := h g b' (hends.trans (by rw [hg]; rfl))
    refine ⟨runChatTurn_exit_iff.mp ?_, hroute⟩
    obtain ⟨hrun, -⟩ := Calls.leaving_eq_ok.mp (hturn.symm.trans hr)
    obtain ⟨s', hrun, -⟩ := zoom_eq_ok.mp hrun
    exact ⟨r, s', hrun, hresponse⟩
  · intro h g b hg
    obtain ⟨hrun, -⟩ := Calls.leaving_eq_ok.mp (hends.symm.trans hg)
    obtain ⟨hexit, hroute⟩ := h g hrun
    obtain ⟨r, s', hr, hresponse⟩ := runChatTurn_exit_iff.mpr hexit
    have hserved := hturn.trans (congrArg (Calls.leaving true) (Calls.onChat_run hr))
    exact ⟨r, { chat := s', yielded := [] }, true, hserved, hresponse, hroute⟩

theorem agrees_of_refused {refusal : PyStr} (hcheck : check rt.cm message = some refusal) :
    Agrees cfg rt vs env stream userId message s := by
  rw [agrees_iff_pipelines hstream]
  intro g hg
  unfold streamChat at hg
  rw [if_neg hstream, hcheck] at hg
  cases hg
  constructor
  · have hexit : Exit cfg rt vs env { userId, message, style := none } s refusal := .refused hcheck
    rwa [← List.append_nil refusal] at hexit
  · rw [streamRoute, turnRoute, Calls.routeOf_streamChat_refused hstream hcheck, Calls.chatViaPipeline,
      Calls.routeOf_runChatTurn_refused hcheck]
    trivial

/-- Past the name handling, both pipelines are where it has left them. -/
theorem agrees_iff_of_remembers {name : Option PyStr}
    (hrem : Remembers rt vs env.toNameEnv userId message s name s₂) :
    Agrees cfg rt vs env stream userId message s ↔
      ∀ g, streamAnswer cfg rt vs (streamEnv env stream) userId message name
          { chat := s₂, yielded := [] } = .ok () g →
        Exit cfg rt vs env { userId, message, style := none } s g.yielded.flatten ∧
          Calls.SameRoute rt s.tools.listTools message
            (Calls.routeOf rt vs (streamEnv env stream) false
              (Calls.streamAnswer cfg rt userId message name) s₂)
            (Calls.routeOf rt vs (streamEnv env stream) true
              (Calls.answer cfg rt { userId, message, style := none } name) s₂) := by
  have hends : streamChat cfg rt vs (streamEnv env stream) userId message { chat := s, yielded := [] } =
      streamAnswer cfg rt vs (streamEnv env stream) userId message name { chat := s₂, yielded := [] } :=
    streamChat_of_remembers hstream hrem
  have hstreamed : streamRoute cfg rt vs env stream userId message s =
      Calls.routeOf rt vs (streamEnv env stream) false (Calls.streamAnswer cfg rt userId message name) s₂ :=
    Calls.routeOf_streamChat hstream hrem
  have hturn : turnRoute cfg rt vs env stream userId message s =
      Calls.routeOf rt vs (streamEnv env stream) true
        (Calls.answer cfg rt { userId, message, style := none } name) s₂ :=
    Calls.routeOf_runChatTurn hrem
  rw [agrees_iff_pipelines hstream, hends, hstreamed, hturn]

theorem agrees_of_name {n : PyStr} (hrem : Remembers rt vs env.toNameEnv userId message s (some n) s₂) :
    Agrees cfg rt vs env stream userId message s := by
  rw [agrees_iff_of_remembers hstream hrem]
  intro g hg
  rw [Calls.routeOf_streamAnswer_name, Calls.routeOf_answer_name, yielded_name hg]
  exact ⟨.name hrem, trivial⟩

theorem not_agrees_of_background (hasks : Asks env stream s message replies)
    (hrem : Remembers rt vs env.toNameEnv userId message s none s₂)
    (hbackground : asksBackground rt.cm message = true) :
    ¬ Agrees cfg rt vs env stream userId message s := by
  rw [agrees_iff_of_remembers hstream hrem]
  intro h
  obtain ⟨g, hg, -⟩ := streamAnswer_of_asks hasks hrem
  have hroute := (h g hg).2
  rw [Calls.routeOf_answer_background hbackground] at hroute
  exact hroute

/-- Where the LLM answers both, it must be shown no memory, and its reply must be handed on. -/
theorem agrees_iff_of_reply (hasks : Asks env stream s message replies)
    (hplain : PlainReplies cfg rt message replies)
    (hrem : Remembers rt vs env.toNameEnv userId message s none s₂)
    (hbackground : asksBackground rt.cm message = false) :
    Agrees cfg rt vs env stream userId message s ↔
      (∃ recalled m, MemoryService.search rt.cm env.retrieve message s₂.tools.world.memory =
          .ok recalled m ∧ ranking env recalled = []) ∧
        HandedOn cfg rt message (replies message [] (s.sessions.get userId (some 10))) := by
  obtain ⟨g, hg, hyielded⟩ := streamAnswer_of_asks hasks hrem
  have honly {P : Gen V → Prop} : (∀ g', streamAnswer cfg rt vs (streamEnv env stream) userId message none
      { chat := s₂, yielded := [] } = .ok () g' → P g') ↔ P g := by
    constructor
    · exact fun h => h g hg
    · intro h g' hg'
      cases hg.symm.trans hg'
      exact h
  rw [agrees_iff_of_remembers hstream hrem, honly, hyielded, exit_reply_iff hrem hbackground]
  cases hsearch : MemoryService.search rt.cm env.retrieve message s₂.tools.world.memory with
  | error e m =>
    constructor
    · intro h
      obtain ⟨⟨reply, model, actions, s₃, hdraft, -⟩, -⟩ := h
      obtain ⟨recalled, t, hrecall, -⟩ := bind_eq_ok.mp hdraft
      rw [onMemory, zoom, hsearch] at hrecall
      cases hrecall
    · intro h
      obtain ⟨⟨recalled, m', h, -⟩, -⟩ := h
      cases h
  | ok recalled m =>
    have hllm := hasks.chat (memoryContext rt (ranking env recalled)) (s.sessions.get userId (some 10))
    rw [← hrem.frame.1, ← hrem.frame.2, ← listTools_of_remembers hrem] at hllm
    have hroute : Calls.routeOf rt vs (streamEnv env stream) true
        (Calls.answer cfg rt { userId, message, style := none } none) s₂ = _ :=
      Calls.routeOf_answer_llm hbackground hsearch
    rw [draft_of_noToolCall hsearch hllm (hplain.noToolCall _ _) (hplain.passes _ _), hroute,
      Calls.routeOf_streamAnswer_llm, hrem.frame.2, listTools_of_remembers hrem]
    constructor
    · intro h
      obtain ⟨hhanded, hroute⟩ := h
      have hnone : ranking env recalled = [] := Calls.sameRoute_llm_iff.mp hroute
      rw [hnone] at hhanded
      exact ⟨⟨recalled, m, rfl, hnone⟩, (handedOut_eq_self_iff (hplain.noThinkBlock _ _)).mp hhanded⟩
    · intro h
      obtain ⟨⟨recalled', m', hsame, hnone⟩, hhanded⟩ := h
      cases hsame
      refine ⟨?_, Calls.sameRoute_llm_iff.mpr hnone⟩
      rw [hnone]
      exact (handedOut_eq_self_iff (hplain.noThinkBlock _ _)).mpr hhanded

end Streaming

/-- A message goes the same way in both pipelines, and the deltas spell the response, exactly where the
turn has nothing to add to the stream. -/
theorem agrees_iff (hws : cfg.wsStreamEnabled = true) (hprovider : cfg.llmProvider = str "openai_compat")
    (hasks : Asks env stream s message replies) (hplain : PlainReplies cfg rt message replies) :
    Agrees cfg rt vs env stream userId message s ↔
      AddsNothing cfg rt vs env userId message s replies := by
  have hstream : ¬ (!cfg.wsStreamEnabled || cfg.llmProvider ≠ str "openai_compat") = true := by
    simp [hws, hprovider]
  cases hcheck : check rt.cm message with
  | some refusal =>
    refine iff_of_true (agrees_of_refused hstream hcheck) fun s₂ hrem => ?_
    cases hcheck.symm.trans hrem.1
  | none =>
    by_cases hex : ∃ name s₂, Remembers rt vs env.toNameEnv userId message s name s₂
    · obtain ⟨name, s₂, hrem⟩ := hex
      cases name with
      | some n =>
        refine iff_of_true (agrees_of_name hstream hrem) fun s' hrem' => ?_
        cases (hrem.unique hrem').1
      | none =>
        rw [addsNothing_iff hrem]
        cases hbackground : asksBackground rt.cm message with
        | true => simp [not_agrees_of_background hstream hasks hrem hbackground]
        | false => simp [agrees_iff_of_reply hstream hasks hplain hrem hbackground]
    · refine iff_of_true ?_ fun s₂ hrem => absurd ⟨none, s₂, hrem⟩ hex
      rw [agrees_iff_pipelines hstream]
      intro g hg
      obtain ⟨name, s₂, hrem, -⟩ := remembers_of_streamChat ⟨hws, hprovider⟩ hcheck hg
      exact absurd ⟨name, s₂, hrem⟩ hex

end Agreement

/-- An LLM that answers everything alike. -/
def constantEnv (reply : PyStr) : ChatEnv :=
  { (streaming []).pipeline with llm := fun _ _ _ _ => .ok reply }

theorem asks_constant (s : ChatState Unit) (message reply : PyStr) :
    Asks (constantEnv reply) (fun _ _ _ => ([reply], none)) s message (fun _ _ _ => reply) where
  chat _ _ := rfl
  streams _ := ⟨[reply], rfl, List.append_nil reply⟩

theorem plainReplies_hello (message : PyStr) :
    PlainReplies streamingConfig asciiRuntime message (fun _ _ _ => str "Hello") where
  noToolCall _ _ := fun _ h => by cases h
  noThinkBlock _ _ := not_thinkBlock_of_not_mem (by decide)
  passes _ _ := by decide

/-- A user who has talked before, and of whom nothing is remembered -/
def talkedState : ChatState Unit :=
  { firstState with sessions := recorded firstState.sessions (str "u") (str "hello") (str "Hello") }

theorem agrees_iff_hello :
    Agrees streamingConfig asciiRuntime .inert (constantEnv (str "Hello"))
      (fun _ _ _ => ([str "Hello"], none)) (str "u") (str "hi") talkedState := by
  refine (agrees_iff rfl rfl (asks_constant talkedState (str "hi") (str "Hello"))
    (plainReplies_hello _)).mpr ?_
  intro s₂ hrem
  have hsame : Remembers asciiRuntime .inert (constantEnv (str "Hello")).toNameEnv (str "u") (str "hi")
      talkedState none talkedState := ⟨rfl, talkedState, rfl, rfl⟩
  obtain ⟨-, rfl⟩ := hrem.unique hsame
  refine ⟨rfl, ⟨[], _, rfl, ?_⟩, ?_⟩
  · simp [ranking, Curation.rankMemories, Curation.dedupMemories, Assoc.values]
  change Unaltered streamingConfig (str "Hello")
  refine ⟨by decide, fun _ => ⟨?_, ?_⟩⟩
  · intro c hc
    cases hc
    rfl
  · intro c hc
    cases hc
    rfl

/-- A stream answers "who are you" with the LLM's words, the other pipeline with the background. -/
theorem not_agrees :
    ¬ ∀ (V : Type) (cfg : ChatConfig) (rt : ChatRuntime) (vs : VectorStore V) (env : ChatEnv)
      (stream : PyStr → PyStr → List SessionTurn → List PyStr × Option PyExc)
      (userId message : PyStr) (s : ChatState V) (replies : Replies),
      cfg.wsStreamEnabled = true → cfg.llmProvider = str "openai_compat" →
      Asks env stream s message replies → PlainReplies cfg rt message replies →
        Agrees cfg rt vs env stream userId message s := by
  intro hall
  have hagrees := hall Unit streamingConfig asciiRuntime .inert _ _ (str "u") (str "who are you")
    firstState _ rfl rfl (asks_constant firstState _ (str "Hello")) (plainReplies_hello _)
  obtain ⟨r, g, b, hturn, hr, -⟩ := hagrees _ _ rfl
  cases hturn
  revert hr
  decide

end Chat

end VirtualPerson
