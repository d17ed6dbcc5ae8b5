import VirtualPerson.Chat.Answered
import VirtualPerson.Chat.Keeping
import VirtualPerson.Chat.OutputSafety

/-!
# The route of a message

Which exit answers a message and what the LLM is shown, read off the calls that a pipeline makes
when the services' state answers them.
-/

namespace VirtualPerson

set_option autoImplicit false

open Stateful SafetyService

/-- Refused, answered by one of the rules, or put to the LLM by a call -/
inductive Route (V : Type) where
  | refused
  | name
  | background
  | llm (asked : AppOp V)

namespace Calls

variable {V : Type}

def asksLlm : AppOp V → Bool
  | .chat _ _ _ _ => true
  | .chatStream _ _ _ => true
  | _ => false

def readsPersona : AppOp V → Bool
  | .persona => true
  | _ => false

def records : AppOp V → Bool
  | .addSession _ _ _ => true
  | _ => false

/-- The route that calls show. Of the answers without the LLM only the background reads the persona, and
only the refusal is not recorded. -/
def route (tr : List (AppSig V).Event) : Route V :=
  match tr.find? fun ev => asksLlm ev.op with
  | some ev => .llm ev.op
  | none =>
    if tr.any fun ev => readsPersona ev.op then .background
    else if tr.any fun ev => records ev.op then .name
    else .refused

theorem route_naming_append {tr tr' : List (AppSig V).Event} (h : ∀ ev ∈ tr, Naming ev.op) :
    route (tr ++ tr') = route tr' := by
  induction tr with
  | nil => rfl
  | cons ev tr ih =>
    obtain ⟨hev, htr⟩ := List.forall_mem_cons.mp h
    rw [← ih htr]
    obtain ⟨o, a⟩ := ev
    cases o <;> first | rfl | exact hev.elim

/-- What follows the first call of the LLM does not matter. -/
theorem route_of_prefix {tr tr' : List (AppSig V).Event} {o : AppOp V} (h : tr <+: tr')
    (htr : route tr = .llm o) : route tr' = .llm o := by
  obtain ⟨more, rfl⟩ := h
  unfold route at htr ⊢
  rw [List.find?_append]
  cases hfind : tr.find? fun ev => asksLlm ev.op with
  | some ev =>
    rw [hfind] at htr
    exact htr
  | none =>
    rw [hfind] at htr
    dsimp only at htr
    split at htr
    · cases htr
    · split at htr <;> cases htr

/-- The LLM is shown these memories, and this history. A stream shows it none. -/
def Shows (rt : ChatRuntime) (tools : List (ToolDef (World V))) (message : PyStr)
    (ranked : List (Curation.ScoredMemory ℚ)) (history : List SessionTurn) : AppOp V → Prop
  | .chat _ _ userPrompt history' =>
    userPrompt = Chat.toolPrompt tools (message ++ Chat.styleHint none) (Chat.memoryContext rt ranked) ∧
      history' = history
  | .chatStream _ userPrompt history' => userPrompt = message ∧ ranked = [] ∧ history' = history
  | _ => False

/-- The same exit, at which the LLM is shown the same memories and history -/
def SameRoute (rt : ChatRuntime) (tools : List (ToolDef (World V))) (message : PyStr) :
    Route V → Route V → Prop
  | .refused, .refused => True
  | .name, .name => True
  | .background, .background => True
  | .llm o, .llm o' => ∃ ranked history,
      Shows rt tools message ranked history o ∧ Shows rt tools message ranked history o'
  | _, _ => False

section Shown

variable {rt : ChatRuntime} {ranked : List (Curation.ScoredMemory ℚ)}

theorem toolPrompt_inj {σ : Type} {tools : List (ToolDef σ)} {question context context' : PyStr} :
    Chat.toolPrompt tools question context = Chat.toolPrompt tools question context' ↔
      (if context = [] then str "- none" else context) =
        if context' = [] then str "- none" else context' := by
  simp only [Chat.toolPrompt, List.append_assoc, List.append_cancel_left_eq, List.append_cancel_right_eq]

/-- A memory's line begins with a bracket. -/
theorem memoryContext_cons (m : Curation.ScoredMemory ℚ) (ms : List (Curation.ScoredMemory ℚ)) :
    ∃ t, Chat.memoryContext rt (m :: ms) = str "- [" ++ t := by
  unfold Chat.memoryContext
  cases ms with
  | nil =>
    simp only [List.map_cons, List.map_nil, List.intercalate_singleton, List.append_assoc]
    exact ⟨_, rfl⟩
  | cons m' ms =>
    simp only [List.map_cons, List.intercalate_cons_cons, List.append_assoc]
    exact ⟨_, rfl⟩

/-- The LLM can tell whether it is shown a memory. -/
theorem toolPrompt_memoryContext {σ : Type} {tools : List (ToolDef σ)} {question : PyStr} :
    Chat.toolPrompt tools question (Chat.memoryContext rt ranked) = Chat.toolPrompt tools question [] ↔
      ranked = [] := by
  rw [toolPrompt_inj]
  cases ranked with
  | nil => simp [Chat.memoryContext]
  | cons m ms =>
    obtain ⟨t, ht⟩ : ∃ t, Chat.memoryContext rt (m :: ms) = str "- [" ++ t := memoryContext_cons m ms
    rw [ht]
    simp [str]

theorem sameRoute_llm_iff {tools : List (ToolDef (World V))} {message systemPrompt : PyStr}
    {history : List SessionTurn} :
    SameRoute rt tools message (.llm (.chatStream systemPrompt message history))
        (.llm (.chat 0 systemPrompt
          (Chat.toolPrompt tools (message ++ Chat.styleHint none) (Chat.memoryContext rt ranked)) history)) ↔
      ranked = [] := by
  constructor
  · intro h
    obtain ⟨shown, history', ⟨-, rfl, -⟩, hprompt, -⟩ := h
    exact toolPrompt_memoryContext.mp hprompt
  · intro h
    rw [h]
    exact ⟨[], history, ⟨rfl, rfl, rfl⟩, rfl, rfl⟩

end Shown

section Served

variable {cfg : ChatConfig} {rt : ChatRuntime} {vs : VectorStore V} {env : StreamEnv} {body : ChatTurnIn}
variable {userId message : PyStr} {s s₂ : ChatState V} {b : Bool}

/-- The route of a program from a state of the services -/
def routeOf {α : Type} (rt : ChatRuntime) (vs : VectorStore V) (env : StreamEnv) (b : Bool) (p : AppM V α)
    (s : ChatState V) : Route V :=
  route (Prog.calls (serveCall rt vs env) p ({ chat := s, yielded := [] }, b))

theorem leaving_eq_ok {α : Type} {res : EStateM.Result PyExc (Chat.Gen V) α} {a : α} {g : Chat.Gen V}
    {b' : Bool} : leaving b res = (.ok a, g, b') ↔ res = .ok a g ∧ b = b' := by
  cases res <;> simp [leaving, and_assoc]

theorem onChat_run {α : Type} {q : ChatM V α} {a : α} (h : q s = .ok a s₂) :
    Chat.onChat q { chat := s, yielded := [] } = .ok a { chat := s₂, yielded := [] } := by
  rw [Chat.onChat, zoom, h]

theorem exec_of_serves {α : Type} {p : AppM V α} {q : ChatM V α} {a : α} (h : Serves rt vs env b p q)
    (hq : q s = .ok a s₂) :
    Prog.exec (serveCall rt vs env) p ({ chat := s, yielded := [] }, b) =
      (.ok a, { chat := s₂, yielded := [] }, b) := by
  have hends : execServed rt vs env p ({ chat := s, yielded := [] }, b) = _ := h { chat := s, yielded := [] }
  unfold execServed at hends
  rw [hends, onChat_run hq]
  rfl

/-- The name handling shows nothing of the route. -/
theorem routeOf_naming {α : Type} {name : Option PyStr} {f : Option PyStr → AppM V α}
    (h : Chat.Remembers rt vs (env.names b) userId message s name s₂) :
    routeOf rt vs env b
        (do
          maybeCaptureUserName rt userId message
          let name ← rememberedName rt userId message
          f name) s =
      routeOf rt vs env b (f name) s₂ := by
  obtain ⟨-, s₁, hcapture, hname⟩ := h
  unfold routeOf
  rw [Prog.calls_bind (exec_of_serves (serves_maybeCaptureUserName userId message) hcapture),
    route_naming_append (only_maybeCaptureUserName rt userId message).calls,
    Prog.calls_bind (exec_of_serves (serves_rememberedName userId message) hname),
    route_naming_append (only_rememberedName rt userId message).calls]

theorem routeOf_runChatTurn_refused {refusal : PyStr} (h : check rt.cm body.message = some refusal) :
    routeOf rt vs env b (runChatTurn cfg rt body) s = .refused := by
  unfold runChatTurn
  rw [h]
  rfl

theorem routeOf_runChatTurn {name : Option PyStr}
    (h : Chat.Remembers rt vs (env.names b) body.userId body.message s name s₂) :
    routeOf rt vs env b (runChatTurn cfg rt body) s = routeOf rt vs env b (answer cfg rt body name) s₂ := by
  unfold runChatTurn
  rw [h.1]
  exact routeOf_naming h

theorem routeOf_answer_name (n : PyStr) :
    routeOf rt vs env b (answer cfg rt body (some n)) s = .name := rfl

theorem routeOf_answer_background (h : Chat.asksBackground rt.cm body.message = true) :
    routeOf rt vs env b (answer cfg rt body none) s = .background := by
  unfold answer
  dsimp only
  rw [if_pos h]
  rfl

section Asking

variable {o : AppOp V} {α β : Type} {p : AppM V α}

theorem routeOf_bind (h : routeOf rt vs env b p s = .llm o) (f : α → AppM V β) :
    routeOf rt vs env b (p >>= f) s = .llm o :=
  route_of_prefix (Prog.calls_prefix_bind p f) h

/-- A search shows nothing of the route either. -/
theorem routeOf_retrieve {query : PyStr} {recalled : List MemoryItem}
    {f : (AppOp.retrieve query : AppOp V).Result → AppM V α} (h :
      serveCall rt vs env (.retrieve query) ({ chat := s, yielded := [] }, b) =
        (.ok recalled, { chat := s₂, yielded := [] }, b)) :
    routeOf rt vs env b (perform (.retrieve query) >>= f) s = routeOf rt vs env b (f recalled) s₂ := by
  let st : Chat.Gen V × Bool := ({ chat := s, yielded := [] }, b)
  let served := serveCall rt vs env (.retrieve query) st
  change route (⟨.retrieve query, served.1⟩ ::
    Prog.calls (serveCall rt vs env) (Prog.lift served.1 >>= f) served.2) = _
  have hserved : served = (.ok recalled, { chat := s₂, yielded := [] }, b) := h
  rw [hserved]
  rfl

end Asking

theorem routeOf_answer_llm {recalled : List MemoryItem} {m : MemoryService V}
    (h : Chat.asksBackground rt.cm body.message = false)
    (hsearch : MemoryService.search rt.cm env.pipeline.retrieve body.message s.tools.world.memory =
      .ok recalled m) :
    routeOf rt vs env b (answer cfg rt body none) s =
      .llm (.chat 0 (PersonaService.systemPrompt s.persona)
        (Chat.toolPrompt s.tools.listTools (body.message ++ Chat.styleHint body.style)
          (Chat.memoryContext rt (Curation.rankMemories env.pipeline.stale
            (recalled.map (Curation.ScoredMemory.ofItem env.pipeline.retrieve.retrievalScore)) 8)))
        (s.sessions.get body.userId (some 10))) := by
  let s' : ChatState V :=
    { s with tools := { s.tools with world := { s.tools.world with memory := m } } }
  have hrecall : Chat.onMemory (MemoryService.search rt.cm env.pipeline.retrieve body.message) s =
      .ok recalled s' := by
    rw [Chat.onMemory, zoom, hsearch]
  have hserve : serveCall rt vs env (.retrieve body.message) ({ chat := s, yielded := [] }, b) =
      (.ok recalled, { chat := s', yielded := [] }, b) := congrArg (leaving b) (onChat_run hrecall)
  unfold answer
  dsimp only
  rw [if_neg (by simp [h])]
  apply routeOf_bind
  exact (routeOf_retrieve hserve).trans rfl

theorem routeOf_streamChat_refused {refusal : PyStr}
    (hstream : ¬ (!cfg.wsStreamEnabled || cfg.llmProvider ≠ str "openai_compat") = true)
    (h : check rt.cm message = some refusal) :
    routeOf rt vs env b (streamChat cfg rt userId message) s = .refused := by
  unfold streamChat
  rw [if_neg hstream, h]
  rfl

theorem routeOf_streamChat {name : Option PyStr}
    (hstream : ¬ (!cfg.wsStreamEnabled || cfg.llmProvider ≠ str "openai_compat") = true)
    (h : Chat.Remembers rt vs (env.names b) userId message s name s₂) :
    routeOf rt vs env b (streamChat cfg rt userId message) s =
      routeOf rt vs env b (streamAnswer cfg rt userId message name) s₂ := by
  unfold streamChat
  rw [if_neg hstream, h.1]
  exact routeOf_naming h

theorem routeOf_streamAnswer_name (n : PyStr) :
    routeOf rt vs env b (streamAnswer cfg rt userId message (some n)) s = .name := rfl

theorem routeOf_streamAnswer_llm :
    routeOf rt vs env b (streamAnswer cfg rt userId message none) s =
      .llm (.chatStream (PersonaService.systemPrompt s.persona) message
        (s.sessions.get userId (some 10))) := rfl

end Served

end Calls

end VirtualPerson
