import VirtualPerson.Chat.Calls

/-!
# What an observer of the pipelines keeps

Both pipelines record a turn by `record` and make their other calls wherever they please. An
automaton that ignores these calls and is where it was after `record` is where it was after
the pipeline.
-/

namespace VirtualPerson

set_option autoImplicit false

namespace Calls

variable {V : Type}

/-- The calls of `maybe_capture_user_name` and `recall_user_name`. -/
def Naming : AppOp V → Prop
  | .writeMemory _ _ _ _ => True
  | .searchName => True
  | .log _ _ => True
  | _ => False

/-- What the pipelines call besides `sessions.add`. -/
def Working : AppOp V → Prop
  | .writeMemory _ _ _ _ => True
  | .searchName => True
  | .log _ _ => True
  | .persona => True
  | .listTools => True
  | .executeTool _ _ => True
  | .retrieve _ => True
  | .rate => True
  | .getSession _ _ => True
  | .chat _ _ _ _ => True
  | .chatStream _ _ _ => True
  | .yield _ => True
  | _ => False

theorem Naming.working {o : AppOp V} (h : Naming o) : Working o := by
  cases o <;> trivial

theorem only_perform {allowed : AppOp V → Prop} {o : AppOp V} (h : allowed o) :
    (perform o).Only allowed := ⟨h, fun a => Prog.only_lift a⟩

theorem only_handling {α : Type} {allowed : AppOp V → Prop} {caught : PyExc → Bool} {p : AppM V α}
    {f : PyExc → AppM V α} (h : p.Only allowed) (hf : ∀ e, (f e).Only allowed) :
    (handling caught p f).Only allowed := by
  apply Prog.Only.catching h
  intro e
  split
  · exact hf e
  · trivial

section Only

variable (cfg : ChatConfig) (rt : ChatRuntime) (userId message : PyStr) (history : List SessionTurn)

theorem only_maybeCaptureUserName :
    (maybeCaptureUserName rt userId message : AppM V Unit).Only Naming := by
  unfold maybeCaptureUserName
  split
  · trivial
  · apply Prog.Only.bind
    · exact only_perform trivial
    · intro item
      split
      · split
        · trivial
        · exact only_perform trivial
      · exact only_perform trivial

theorem only_rememberedName :
    (rememberedName rt userId message : AppM V (Option PyStr)).Only Naming := by
  unfold rememberedName
  split
  · apply Prog.Only.bind
    · apply Prog.Only.bind
      · exact only_perform trivial
      · intro hits
        trivial
    · intro name
      trivial
  · trivial

theorem only_llmCall (n : Nat) (systemPrompt userPrompt : PyStr) :
    (llmCall cfg n systemPrompt userPrompt history : AppM V (PyStr × PyStr)).Only Working := by
  apply Prog.Only.bind
  · exact only_perform trivial
  · intro raw
    trivial

theorem only_toolFollowup (raw modelUsed toolName : PyStr) (toolParams : PyVal) :
    (toolFollowup cfg rt message history raw modelUsed toolName toolParams :
      AppM V (PyStr × PyStr × List PyVal)).Only Working := by
  apply Prog.Only.bind
  · exact only_perform trivial
  intro result
  apply only_handling
  · apply Prog.Only.bind
    · exact only_perform trivial
    intro _
    apply Prog.Only.bind
    · exact Prog.only_lift _
    intro text
    apply Prog.Only.bind
    · exact only_perform trivial
    intro persona
    apply Prog.Only.bind
    · exact only_llmCall cfg history 1 _ _
    · intro reply
      trivial
  · intro e
    trivial

theorem only_toolCallLoop (memoryContext : PyStr) :
    (toolCallLoop cfg rt message memoryContext history :
      AppM V (PyStr × PyStr × List PyVal)).Only Working := by
  apply Prog.Only.bind
  · exact only_perform trivial
  intro tools
  apply Prog.Only.bind
  · exact only_perform trivial
  intro persona
  apply Prog.Only.bind
  · exact only_llmCall cfg history 0 _ _
  intro reply
  apply only_handling
  · apply Prog.Only.bind
    · exact Prog.only_lift _
    · intro call
      split
      · exact only_toolFollowup cfg rt message history _ _ _ _
      · trivial
  · intro e
    trivial

theorem only_draft (body : ChatTurnIn) :
    (draft cfg rt body : AppM V (PyStr × PyStr × List PyVal)).Only Working := by
  apply Prog.Only.bind
  · exact only_perform trivial
  intro recalled
  apply Prog.Only.bind
  · exact only_perform trivial
  intro rating
  apply Prog.Only.bind
  · exact only_perform trivial
  intro history
  apply only_handling
  · apply Prog.Only.bind
    · exact only_toolCallLoop cfg rt _ history _
    · intro reply
      trivial
  · intro e
    trivial

theorem only_yieldAll (deltas : List PyStr) : (yieldAll deltas : AppM V Unit).Only Working := by
  induction deltas with
  | nil => trivial
  | cons d ds ih =>
    apply Prog.Only.bind
    · exact only_perform trivial
    · intro _
      exact ih

theorem only_openStream (systemPrompt : PyStr) :
    (openStream systemPrompt message history : AppM V (List PyStr × Option PyExc)).Only Working := by
  apply Prog.Only.catching
  · exact only_perform trivial
  · intro e
    trivial

end Only

section Keeps

universe w

variable {M : Type w} {next : M → (AppSig V).Event → Option M} {m : M}

theorem keeps_handling {α : Type} {caught : PyExc → Bool} {p : AppM V α} {f : PyExc → AppM V α}
    (h : Prog.Keeps next m p) (hf : ∀ e, Prog.Keeps next m (f e)) :
    Prog.Keeps next m (handling caught p f) := by
  apply h.catching
  intro e
  split
  · exact hf e
  · exact Prog.keeps_raise e

/-- The automaton ignores the pipelines' other calls, and takes note of both `add` calls or of none. -/
structure Observes (next : M → (AppSig V).Event → Option M) (m : M) : Prop where
  working : ∀ o, Working o → ∀ a, next m ⟨o, a⟩ = some m
  record : ∀ userId message response, Prog.Keeps next m (record userId message response)

variable (h : Observes next m) (cfg : ChatConfig) (rt : ChatRuntime) (userId message : PyStr)
  (body : ChatTurnIn)
include h

theorem Observes.only {α : Type} {p : AppM V α} (hp : p.Only Working) : Prog.Keeps next m p :=
  hp.keeps h.working

theorem Observes.perform {o : AppOp V} (ho : Working o) : Prog.Keeps next m (perform o) :=
  h.only (only_perform ho)

/-- The end of every answered turn. -/
theorem keeps_ending {α : Type} (response detail : PyStr) (a : α) : Prog.Keeps next m (do
    Calls.record userId message response
    VirtualPerson.perform (.log (str "chat_turn") detail)
    return a : AppM V α) := by
  apply Prog.Keeps.bind
  · exact h.record userId message response
  intro _
  apply Prog.Keeps.bind
  · exact h.perform trivial
  · intro _
    exact Prog.keeps_pure a

theorem keeps_maybeCaptureUserName :
    Prog.Keeps next m (maybeCaptureUserName rt userId message : AppM V Unit) :=
  h.only ((only_maybeCaptureUserName rt userId message).mono fun _ => Naming.working)

theorem keeps_rememberedName :
    Prog.Keeps next m (rememberedName rt userId message : AppM V (Option PyStr)) :=
  h.only ((only_rememberedName rt userId message).mono fun _ => Naming.working)

theorem keeps_llmTurn : Prog.Keeps next m (llmTurn cfg rt body : AppM V ChatResult) := by
  apply Prog.Keeps.bind
  · exact h.only (only_draft cfg rt body)
  intro reply
  dsimp only
  split
  · apply Prog.Keeps.bind
    · exact h.perform trivial
    · intro _
      exact keeps_ending h _ _ _ _ _
  · exact keeps_ending h _ _ _ _ _

theorem keeps_ruleAnswer (response : PyStr) (model : String) :
    Prog.Keeps next m (ruleAnswer body response model : AppM V ChatResult) :=
  keeps_ending h _ _ _ _ _

theorem keeps_runChatTurn : Prog.Keeps next m (runChatTurn cfg rt body : AppM V ChatResult) := by
  unfold runChatTurn
  split
  · apply Prog.Keeps.bind
    · exact h.perform trivial
    · intro _
      exact Prog.keeps_pure _
  · apply Prog.Keeps.bind
    · exact keeps_maybeCaptureUserName h rt body.userId body.message
    intro _
    apply Prog.Keeps.bind
    · exact keeps_rememberedName h rt body.userId body.message
    intro name
    unfold answer
    split
    · exact keeps_ruleAnswer h body _ _
    · split
      · apply Prog.Keeps.bind
        · exact h.perform trivial
        · intro persona
          exact keeps_ruleAnswer h body _ _
      · exact keeps_llmTurn h cfg rt body

theorem keeps_chatViaPipeline :
    Prog.Keeps next m (chatViaPipeline cfg rt userId message : AppM V ChatResult) :=
  keeps_runChatTurn h cfg rt _

theorem keeps_yieldPipeline :
    Prog.Keeps next m (yieldPipeline cfg rt userId message : AppM V Unit) := by
  apply Prog.Keeps.bind
  · exact keeps_chatViaPipeline h cfg rt userId message
  · intro result
    exact h.only (only_yieldAll _)

theorem keeps_afterStream (deltas : List PyStr) (failure : Option PyExc) :
    Prog.Keeps next m (afterStream cfg rt userId message deltas failure : AppM V Unit) := by
  unfold afterStream
  split
  · split
    · exact keeps_yieldPipeline h cfg rt userId message
    · exact Prog.keeps_raise _
  · apply Prog.Keeps.bind
    · exact h.record userId message _
    · intro _
      exact h.perform trivial

theorem keeps_streamReply :
    Prog.Keeps next m (streamReply cfg rt userId message : AppM V Unit) := by
  apply Prog.Keeps.bind
  · exact h.perform trivial
  intro history
  apply Prog.Keeps.bind
  · exact h.perform trivial
  intro persona
  apply Prog.Keeps.bind
  · exact h.only (only_openStream message history _)
  intro opened
  apply Prog.Keeps.bind
  · exact h.only (only_yieldAll _)
  · intro _
    exact keeps_afterStream h cfg rt userId message _ _

theorem keeps_streamChat :
    Prog.Keeps next m (streamChat cfg rt userId message : AppM V Unit) := by
  unfold streamChat
  split
  · exact keeps_yieldPipeline h cfg rt userId message
  · split
    · exact h.only (only_yieldAll _)
    · apply Prog.Keeps.bind
      · exact keeps_maybeCaptureUserName h rt userId message
      intro _
      apply Prog.Keeps.bind
      · exact keeps_rememberedName h rt userId message
      intro name
      unfold streamAnswer
      split
      · apply Prog.Keeps.bind
        · exact h.record userId message _
        · intro _
          exact h.only (only_yieldAll _)
      · exact keeps_streamReply h cfg rt userId message

end Keeps

end Calls

end VirtualPerson
