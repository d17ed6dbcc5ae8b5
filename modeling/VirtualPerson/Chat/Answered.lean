import VirtualPerson.Chat.Calls

/-!
# The pipelines, answered

A server that answers the calls from the state of the services. Run on it, the programs of
`Calls` end as the chat pipelines do and leave the same state.
-/

namespace VirtualPerson

set_option autoImplicit false

open Stateful

/-- What the name calls meet: those of the stream, or those of the pipeline it falls back on. -/
def StreamEnv.names (env : StreamEnv) (inPipeline : Bool) : NameEnv :=
  if inPipeline then env.pipeline.toNameEnv else env.toNameEnv

namespace Calls

variable {V α β : Type}

section Server

variable (rt : ChatRuntime) (vs : VectorStore V) (env : StreamEnv)

def answers (inPipeline : Bool) : (o : AppOp V) → Chat.GenM V o.Result
  | .log type detail => Chat.onChat (Chat.log type detail)
  | .persona => Chat.onChat do return (← get).persona
  | .listTools => Chat.onChat do return (← get).tools.listTools
  | .executeTool name params => Chat.onChat <| Chat.onTools <|
    ToolRegistry.execute rt.excText env.pipeline.paramsId name params false
  | .writeMemory kind key value metadata => Chat.onChat <| Chat.onMemory <|
    MemoryService.write rt.cm vs (env.names inPipeline).write kind key value metadata
  | .searchName => Chat.onChat <| Chat.onMemory <|
    MemoryService.search rt.cm (env.names inPipeline).search (str "name")
  | .retrieve query => Chat.onChat <| Chat.onMemory <|
    MemoryService.search rt.cm env.pipeline.retrieve query
  | .rate => pure (env.pipeline.retrieve.retrievalScore, env.pipeline.stale)
  | .getSession userId limit => Chat.onChat do return (← get).sessions.get userId limit
  | .addSession userId role content => Chat.onChat <|
    modify fun s => { s with sessions := s.sessions.add userId role content }
  | .chat n systemPrompt userPrompt history => Chat.onChat <|
    MonadExcept.ofExcept (env.pipeline.llm n systemPrompt userPrompt history)
  | .chatStream systemPrompt userPrompt history => pure (env.stream systemPrompt userPrompt history)
  | .yield text => Chat.yieldAll [text]
  -- no other call is made by the pipelines
  | _ => throw PyExc.attributeError

/-- What follows the opening of the stream is the pipeline's. -/
def inPipelineAfter (inPipeline : Bool) : AppOp V → Bool
  | .chatStream _ _ _ => true
  | _ => inPipeline

/-- The services a program leaves, and whether the stream's own calls are over. -/
def leaving (inPipeline : Bool) :
    EStateM.Result PyExc (Chat.Gen V) α → Except PyExc α × (Chat.Gen V × Bool)
  | .ok a g => (.ok a, g, inPipeline)
  | .error e g => (.error e, g, inPipeline)

def serveCall (o : (AppSig V).Op) (s : Chat.Gen V × Bool) :
    (AppSig V).Ans o × (Chat.Gen V × Bool) :=
  leaving (inPipelineAfter s.2 o) (answers rt vs env s.2 o s.1)

def execServed (p : AppM V α) (s : Chat.Gen V × Bool) : Except PyExc α × (Chat.Gen V × Bool) :=
  Prog.exec (serveCall rt vs env) p s

/-- `p`, answered, ends as `q` does from `g` and leaves what `q` leaves. -/
def EndsAs (b b' : Bool) (p : AppM V α) (q : Chat.GenM V α) (g : Chat.Gen V) : Prop :=
  execServed rt vs env p (g, b) = leaving b' (q g)

/-- So it does from everywhere. -/
def Realizes (b : Bool) (p : AppM V α) (q : Chat.GenM V α) : Prop :=
  ∀ g, EndsAs rt vs env b b p q g

/-- The same of a program on the services. -/
abbrev Serves (b : Bool) (p : AppM V α) (q : ChatM V α) : Prop :=
  Realizes rt vs env b p (Chat.onChat q)

end Server

variable {rt : ChatRuntime} {vs : VectorStore V} {env : StreamEnv} {b b' : Bool}

section Rules

variable {p : AppM V α} {q : Chat.GenM V α} {g g' : Chat.Gen V}

theorem EndsAs.congr {q' : Chat.GenM V α} (h : EndsAs rt vs env b b' p q g) (hq : q g = q' g) :
    EndsAs rt vs env b b' p q' g := by
  unfold EndsAs at h ⊢
  rw [h, hq]

theorem Realizes.congr {q' : Chat.GenM V α} (h : Realizes rt vs env b p q) (hq : ∀ g, q g = q' g) :
    Realizes rt vs env b p q' := fun g => (h g).congr (hq g)

theorem EndsAs.bind_ok {b'' : Bool} {a : α} {f : α → AppM V β} {f' : α → Chat.GenM V β}
    (h : EndsAs rt vs env b b' p q g) (hq : q g = .ok a g')
    (hf : EndsAs rt vs env b' b'' (f a) (f' a) g') :
    EndsAs rt vs env b b'' (p >>= f) (q >>= f') g := by
  unfold EndsAs execServed at *
  rw [Prog.exec_bind, h, bind_run, hq]
  exact hf

theorem EndsAs.bind_error {e : PyExc} {f : α → AppM V β} {f' : α → Chat.GenM V β}
    (h : EndsAs rt vs env b b' p q g) (hq : q g = .error e g') :
    EndsAs rt vs env b b' (p >>= f) (q >>= f') g := by
  unfold EndsAs execServed at *
  rw [Prog.exec_bind, h, bind_run, hq]
  rfl

theorem Realizes.bind {f : α → AppM V β} {f' : α → Chat.GenM V β} (h : Realizes rt vs env b p q)
    (hf : ∀ a, Realizes rt vs env b (f a) (f' a)) :
    Realizes rt vs env b (p >>= f) (q >>= f') := by
  intro g
  cases hq : q g with
  | ok a g' => exact (h g).bind_ok hq (hf a g')
  | error e g' => exact (h g).bind_error hq

/-- What follows may open the stream. -/
theorem Realizes.ends_bind {f : α → AppM V β} {f' : α → Chat.GenM V β}
    (h : Realizes rt vs env b p q) (hf : ∀ a g', ∃ b', EndsAs rt vs env b b' (f a) (f' a) g') :
    ∃ b', EndsAs rt vs env b b' (p >>= f) (q >>= f') g := by
  cases hq : q g with
  | ok a g' =>
    obtain ⟨b', hrest⟩ := hf a g'
    exact ⟨b', (h g).bind_ok hq hrest⟩
  | error e g' => exact ⟨b, (h g).bind_error hq⟩

theorem Realizes.handling {caught : PyExc → Bool} {f : PyExc → AppM V α}
    {f' : PyExc → Chat.GenM V α} (h : Realizes rt vs env b p q)
    (hf : ∀ e, Realizes rt vs env b (f e) (f' e)) :
    Realizes rt vs env b (Calls.handling caught p f) (Stateful.handling caught q f') := by
  intro g
  have hp : execServed rt vs env p (g, b) = leaving b (q g) := h g
  unfold EndsAs execServed at *
  rw [Calls.handling, Prog.exec_catching, hp, handling_run]
  cases q g with
  | ok a g' => rfl
  | error e g' =>
    dsimp only [leaving]
    split
    · exact hf e g'
    · rfl

theorem endsAs_perform (o : AppOp V) :
    EndsAs rt vs env b (inPipelineAfter b o) (perform o) (answers rt vs env b o) g := by
  change execServed rt vs env (Prog.lift (serveCall rt vs env o (g, b)).1)
    (serveCall rt vs env o (g, b)).2 = _
  unfold serveCall
  dsimp only
  cases answers rt vs env b o g with
  | ok a g' => rfl
  | error e g' => rfl

/-- A program that is answered `a` and leaves the services as they are goes on with `a`. -/
theorem EndsAs.of_read {b'' : Bool} {a : α} {f : α → AppM V β} {q : Chat.GenM V β}
    (hp : execServed rt vs env p (g, b) = (.ok a, g, b')) (h : EndsAs rt vs env b' b'' (f a) q g) :
    EndsAs rt vs env b b'' (p >>= f) q g := by
  unfold EndsAs execServed at *
  rw [Prog.exec_bind, hp]
  exact h

/-- `p` serves `q` where the services are in state `s`. -/
def ServesAt (rt : ChatRuntime) (vs : VectorStore V) (env : StreamEnv) (b : Bool) (p : AppM V α)
    (q : ChatM V α) (s : ChatState V) : Prop :=
  ∀ yielded, EndsAs rt vs env b b p (Chat.onChat q) ⟨s, yielded⟩

theorem serves_get {q : ChatState V → ChatM V α} (h : ∀ s, ServesAt rt vs env b p (q s) s) :
    Serves rt vs env b p (get >>= q) := fun g => h g.chat g.yielded

theorem servesAt_read {q : ChatM V α} {s : ChatState V} (o : AppOp V) (f : o.Result → AppM V α)
    (a : o.Result)
    (ho : ∀ yielded, execServed rt vs env (perform o) (⟨s, yielded⟩, b) = (.ok a, ⟨s, yielded⟩, b))
    (h : ServesAt rt vs env b (f a) q s) : ServesAt rt vs env b (perform o >>= f) q s :=
  fun yielded => EndsAs.of_read (ho yielded) (h yielded)

theorem Serves.bind {p : AppM V α} {q : ChatM V α} {f : α → AppM V β} {f' : α → ChatM V β}
    (h : Serves rt vs env b p q) (hf : ∀ a, Serves rt vs env b (f a) (f' a)) :
    Serves rt vs env b (p >>= f) (q >>= f') := by
  apply (Realizes.bind h hf).congr
  intro g
  simp only [Chat.onChat, zoom, bind_run]
  cases q g.chat with
  | ok a c => cases f' a c <;> rfl
  | error e c => rfl

theorem Serves.handling {caught : PyExc → Bool} {p : AppM V α} {q : ChatM V α}
    {f : PyExc → AppM V α} {f' : PyExc → ChatM V α} (h : Serves rt vs env b p q)
    (hf : ∀ e, Serves rt vs env b (f e) (f' e)) :
    Serves rt vs env b (Calls.handling caught p f) (Stateful.handling caught q f') := by
  apply (Realizes.handling h hf).congr
  intro g
  simp only [Chat.onChat, zoom, handling_run]
  cases q g.chat with
  | ok a c => rfl
  | error e c =>
    dsimp only
    split
    · cases f' e c <;> rfl
    · rfl

theorem serves_pure (a : α) : Serves rt vs env b (pure a) (pure a) := fun _ => rfl

theorem serves_lift (r : Except PyExc α) :
    Serves rt vs env b (Prog.lift r) (MonadExcept.ofExcept r) := by
  cases r with
  | ok a => exact fun _ => rfl
  | error e => exact fun _ => rfl

/-- A call outside of the stream does what its answer does. -/
theorem realizes_perform (o : AppOp V) (ho : inPipelineAfter b o = b) :
    Realizes rt vs env b (perform o) (answers rt vs env b o) := by
  intro g
  have h : EndsAs rt vs env b (inPipelineAfter b o) (perform o) (answers rt vs env b o) g :=
    endsAs_perform o
  rw [ho] at h
  exact h

end Rules

section Pipelines

variable (cfg : ChatConfig)

theorem serves_log (type detail : PyStr) :
    Serves rt vs env b (perform (.log type detail)) (Chat.log type detail) := realizes_perform _ rfl

theorem Serves.servesAt {p : AppM V α} {q : ChatM V α} (h : Serves rt vs env b p q) (s : ChatState V) :
    ServesAt rt vs env b p q s := fun yielded => h ⟨s, yielded⟩

/-- The two `add` calls are one change of the sessions. -/
theorem serves_record (userId message response : PyStr) :
    Serves rt vs env b (record userId message response) (Chat.record userId message response) :=
  fun _ => rfl

/-- The end of every answered turn. -/
theorem serves_ending (userId message response detail : PyStr) (a : α) :
    Serves rt vs env b
      (do
        record userId message response
        perform (.log (str "chat_turn") detail)
        return a)
      (do
        Chat.record userId message response
        Chat.log (str "chat_turn") detail
        return a) := by
  apply Serves.bind
  · exact serves_record _ _ _
  · intro _
    apply Serves.bind
    · exact serves_log _ _
    · exact fun _ => serves_pure a

theorem serves_maybeCaptureUserName (userId message : PyStr) :
    Serves rt vs env b (maybeCaptureUserName rt userId message)
      (Chat.maybeCaptureUserName rt vs (env.names b) userId message) := by
  unfold maybeCaptureUserName Chat.maybeCaptureUserName
  cases NameCapture.nameToStore rt.toTextRules message with
  | none => exact serves_pure ()
  | some name =>
    apply Serves.bind
    · exact realizes_perform _ rfl
    · intro item
      cases PyDict.get? item.metadata (str "filtered") with
      | some v =>
        dsimp only
        split
        · exact serves_pure ()
        · exact serves_log _ _
      | none => exact serves_log _ _

theorem serves_rememberedName (userId message : PyStr) :
    Serves rt vs env b (rememberedName rt userId message)
      (Chat.rememberedName rt (env.names b) userId message) := by
  unfold rememberedName Chat.rememberedName
  split
  · apply Serves.bind
    · apply Serves.bind
      · exact realizes_perform _ rfl
      · exact fun hits => serves_pure _
    · exact fun name => serves_pure _
  · exact serves_pure none

theorem serves_llmCall (n : Nat) (systemPrompt userPrompt : PyStr) (history : List SessionTurn) :
    Serves rt vs env b (llmCall cfg n systemPrompt userPrompt history)
      (Chat.llmCall cfg env.pipeline n systemPrompt userPrompt history) := by
  apply Serves.bind
  · exact realizes_perform _ rfl
  · exact fun raw => serves_pure _

theorem serves_toolFollowup (userMessage : PyStr) (history : List SessionTurn)
    (raw modelUsed toolName : PyStr) (toolParams : PyVal) :
    Serves rt vs env b
      (toolFollowup cfg rt userMessage history raw modelUsed toolName toolParams)
      (Chat.toolFollowup cfg rt env.pipeline userMessage history raw modelUsed toolName
        toolParams) := by
  apply Serves.bind
  · exact realizes_perform _ rfl
  · intro result
    apply Serves.handling
    · apply Serves.bind
      · exact serves_log _ _
      · intro _
        apply Serves.bind
        · exact serves_lift _
        · intro text
          apply serves_get
          intro s
          apply servesAt_read .persona _ s.persona fun _ => rfl
          apply Serves.servesAt
          apply Serves.bind
          · exact serves_llmCall cfg 1 _ _ history
          · exact fun _ => serves_pure _
    · exact fun _ => serves_pure _

theorem serves_toolCallLoop (userMessage memoryContext : PyStr) (history : List SessionTurn) :
    Serves rt vs env b (toolCallLoop cfg rt userMessage memoryContext history)
      (Chat.toolCallLoop cfg rt env.pipeline userMessage memoryContext history) := by
  apply serves_get
  intro s
  apply servesAt_read .listTools _ s.tools.listTools fun _ => rfl
  apply servesAt_read .persona _ s.persona fun _ => rfl
  apply Serves.servesAt
  apply Serves.bind
  · exact serves_llmCall cfg 0 _ _ history
  · intro reply
    apply Serves.handling
    · apply Serves.bind
      · exact serves_lift _
      · intro call
        cases call with
        | some call => exact serves_toolFollowup cfg _ _ _ _ _ _
        | none => exact serves_pure _
    · exact fun _ => serves_pure _

theorem serves_draft (body : ChatTurnIn) :
    Serves rt vs env b (draft cfg rt body) (Chat.draft cfg rt env.pipeline body) := by
  apply Serves.bind
  · exact realizes_perform _ rfl
  · intro recalled
    apply serves_get
    intro s
    apply servesAt_read .rate _ (env.pipeline.retrieve.retrievalScore, env.pipeline.stale) fun _ => rfl
    apply servesAt_read (.getSession body.userId (some 10)) _ (s.sessions.get body.userId (some 10))
      fun _ => rfl
    apply Serves.servesAt
    apply Serves.handling
    · apply Serves.bind
      · exact serves_toolCallLoop cfg _ _ _
      · exact fun _ => serves_pure _
    · exact fun _ => serves_pure _

theorem serves_llmTurn (body : ChatTurnIn) :
    Serves rt vs env b (llmTurn cfg rt body) (Chat.llmTurn cfg rt env.pipeline body) := by
  apply Serves.bind
  · exact serves_draft cfg body
  · intro drafted
    dsimp only
    split
    · apply Serves.bind
      · exact serves_log _ _
      · exact fun _ => serves_ending _ _ _ _ _
    · exact serves_ending _ _ _ _ _

theorem serves_ruleAnswer (body : ChatTurnIn) (response : PyStr) (model : String) :
    Serves rt vs env b (ruleAnswer body response model) (Chat.ruleAnswer body response model) :=
  serves_ending _ _ _ _ _

theorem serves_answer (body : ChatTurnIn) (name : Option PyStr) :
    Serves rt vs env b (answer cfg rt body name) (Chat.answer cfg rt env.pipeline body name) := by
  unfold answer Chat.answer
  split
  · exact serves_ruleAnswer body _ _
  · split
    · apply serves_get
      intro s
      apply servesAt_read .persona _ s.persona fun _ => rfl
      exact (serves_ruleAnswer body _ _).servesAt s
    · exact serves_llmTurn cfg body

/-- With no stream's calls ahead of it, `_run_chat_turn` is the pipeline's. -/
theorem serves_runChatTurn (body : ChatTurnIn) :
    Serves rt vs env true (runChatTurn cfg rt body)
      (Chat.runChatTurn cfg rt vs env.pipeline body) := by
  unfold runChatTurn Chat.runChatTurn
  cases SafetyService.check rt.cm body.message with
  | some refusal =>
    apply Serves.bind
    · exact serves_log _ _
    · exact fun _ => serves_pure _
  | none =>
    apply Serves.bind
    · exact serves_maybeCaptureUserName _ _
    · intro _
      apply Serves.bind
      · exact serves_rememberedName _ _
      · exact fun name => serves_answer cfg body name

end Pipelines

section Stream

variable (cfg : ChatConfig) (userId message : PyStr)

theorem realizes_yieldAll (deltas : List PyStr) :
    Realizes rt vs env b (yieldAll deltas) (Chat.yieldAll deltas) := by
  induction deltas with
  | nil =>
    intro g
    change (Except.ok (), g, b) = (Except.ok (), { g with yielded := g.yielded ++ [] }, b)
    rw [List.append_nil]
  | cons d ds ih =>
    have h : Realizes rt vs env b (yieldAll (d :: ds)) (Chat.yieldAll [d] >>= fun _ => Chat.yieldAll ds) :=
      Realizes.bind (realizes_perform (.yield d) rfl) fun _ => ih
    apply h.congr
    intro g
    change EStateM.Result.ok () { g with yielded := g.yielded ++ [d] ++ ds } =
      EStateM.Result.ok () { g with yielded := g.yielded ++ d :: ds }
    rw [List.append_assoc, List.singleton_append]

theorem realizes_yieldPipeline :
    Realizes rt vs env true (yieldPipeline cfg rt userId message)
      (Chat.yieldPipeline cfg rt vs env userId message) := by
  apply Realizes.bind
  · exact serves_runChatTurn cfg _
  · exact fun result => realizes_yieldAll [result.response]

theorem realizes_afterStream (deltas : List PyStr) (failure : Option PyExc) :
    Realizes rt vs env true (afterStream cfg rt userId message deltas failure)
      (Chat.afterStream cfg rt vs env userId message deltas failure) := by
  cases failure with
  | some e =>
    unfold afterStream Chat.afterStream
    dsimp only
    split
    · exact realizes_yieldPipeline cfg userId message
    · exact fun g => rfl
  | none => exact serves_ending _ _ _ _ _

/-- From the opening of the stream on the calls are the pipeline's. -/
theorem endsAs_streamReply (g : Chat.Gen V) :
    EndsAs rt vs env false true (streamReply cfg rt userId message)
      (Chat.streamReply cfg rt vs env userId message) g := by
  let history := g.chat.sessions.get userId (some 10)
  let opened := env.stream (PersonaService.systemPrompt g.chat.persona) message history
  have hrest : Realizes rt vs env true
      (do
        yieldAll opened.1
        afterStream cfg rt userId message opened.1 opened.2)
      (do
        Chat.yieldAll opened.1
        Chat.afterStream cfg rt vs env userId message opened.1 opened.2) := by
    apply Realizes.bind
    · exact realizes_yieldAll opened.1
    · exact fun _ => realizes_afterStream cfg userId message opened.1 opened.2
  apply EndsAs.of_read (a := history) rfl
  apply EndsAs.of_read (a := g.chat.persona) rfl
  apply EndsAs.of_read (a := opened) rfl
  apply (hrest g).congr
  unfold Chat.streamReply
  rw [bind_run (p := get), get_run]

theorem endsAs_streamAnswer (name : Option PyStr) (g : Chat.Gen V) :
    ∃ b', EndsAs rt vs env false b' (streamAnswer cfg rt userId message name)
      (Chat.streamAnswer cfg rt vs env userId message name) g := by
  cases name with
  | some name =>
    apply Realizes.ends_bind
    · exact serves_record _ _ _
    · exact fun _ g' => ⟨false, realizes_yieldAll [Chat.nameAnswer name] g'⟩
  | none => exact ⟨true, endsAs_streamReply cfg userId message g⟩

/-- Without streaming every call is the pipeline's. -/
theorem endsAs_streamChat (g : Chat.Gen V) :
    ∃ b', EndsAs rt vs env (!cfg.wsStreamEnabled || cfg.llmProvider ≠ str "openai_compat") b'
      (streamChat cfg rt userId message) (Chat.streamChat cfg rt vs env userId message) g := by
  unfold streamChat Chat.streamChat
  split
  · rename_i hdisabled
    rw [hdisabled]
    exact ⟨true, realizes_yieldPipeline cfg userId message g⟩
  · rename_i henabled
    rw [eq_false_of_ne_true henabled]
    cases SafetyService.check rt.cm message with
    | some refusal => exact ⟨false, realizes_yieldAll [refusal] g⟩
    | none =>
      apply Realizes.ends_bind
      · exact serves_maybeCaptureUserName _ _
      · intro _ g₁
        apply Realizes.ends_bind
        · exact serves_rememberedName _ _
        · exact fun name g₂ => endsAs_streamAnswer cfg userId message name g₂

end Stream

end Calls

end VirtualPerson
