import VirtualPerson.Chat.Pipeline

/-!
# What passes the output check

The exits of the two pipelines, and when every text they hand to the client passes
`check_output`: only the LLM exit of `_run_chat_turn` is checked before it is handed out.
-/

namespace VirtualPerson

set_option autoImplicit false

open Stateful SafetyService

namespace SafetyService

theorem passes_nil (cm : CaseMap) : Passes cm [] := passes_of_ascii cm (by simp) (by decide)

theorem passes_inputRefusal (cm : CaseMap) : Passes cm inputRefusal :=
  passes_of_ascii cm (by decide) (by decide)

theorem passes_replacement (cm : CaseMap) : Passes cm Chat.replacement :=
  passes_of_ascii cm (by decide) (by decide +kernel)

end SafetyService

namespace Chat

theorem passes_moderated (cm : CaseMap) (reply : PyStr) : Passes cm (moderated cm reply) := by
  unfold moderated
  split
  · assumption
  · exact passes_replacement cm

section Exits

variable {V : Type} (cfg : ChatConfig) (rt : ChatRuntime) (vs : VectorStore V)

/-- The message is let in, and this name answers it, if any; `s₂` is the state then. -/
def Remembers (env : NameEnv) (userId message : PyStr) (s : ChatState V) (name : Option PyStr)
    (s₂ : ChatState V) : Prop :=
  check rt.cm message = none ∧
    ∃ s₁, maybeCaptureUserName rt vs env userId message s = .ok () s₁ ∧
      rememberedName rt env userId message s₁ = .ok name s₂

/-- The exits of `_run_chat_turn` that hand out a text. -/
inductive Exit (env : ChatEnv) (body : ChatTurnIn) (s : ChatState V) : PyStr → Prop where
  | refused {refusal : PyStr} (h : check rt.cm body.message = some refusal) : Exit env body s refusal
  | name {n : PyStr} {s₂ : ChatState V}
      (h : Remembers rt vs env.toNameEnv body.userId body.message s (some n) s₂) :
      Exit env body s (nameAnswer n)
  | background {s₂ : ChatState V}
      (h : Remembers rt vs env.toNameEnv body.userId body.message s none s₂)
      (hasks : asksBackground rt.cm body.message = true) :
      Exit env body s (PersonaService.shortBackground s₂.persona)
  | reply {s₂ s₃ : ChatState V} {text modelUsed : PyStr} {actions : List PyVal}
      (h : Remembers rt vs env.toNameEnv body.userId body.message s none s₂)
      (hasks : asksBackground rt.cm body.message = false)
      (hdraft : draft cfg rt env body s₂ = .ok (text, modelUsed, actions) s₃) :
      Exit env body s (moderated rt.cm text)

end Exits

variable {V : Type} {cfg : ChatConfig} {rt : ChatRuntime} {vs : VectorStore V}
variable {env : ChatEnv} {body : ChatTurnIn} {s s' : ChatState V} {r : ChatResult} {text : PyStr}

theorem llmTurn_eq {t m : PyStr} {acts : List PyVal} {s₃ : ChatState V}
    (h : draft cfg rt env body s = .ok (t, m, acts) s₃) :
    ∃ s', llmTurn cfg rt env body s =
      .ok { ok := true, response := moderated rt.cm t, model := some m, toolActions := acts } s' := by
  unfold llmTurn
  simp only [bind_run, h]
  split <;> exact ⟨_, rfl⟩

theorem llmTurn_eq_ok_iff :
    (∃ r s', llmTurn cfg rt env body s = .ok r s' ∧ r.response = text) ↔
      ∃ t m acts s₃, draft cfg rt env body s = .ok (t, m, acts) s₃ ∧ moderated rt.cm t = text := by
  constructor
  · intro ⟨r, s', h, hr⟩
    subst hr
    obtain ⟨⟨t, m, acts⟩, s₃, hdraft, -⟩ := bind_eq_ok.mp h
    obtain ⟨s'', hturn⟩ := llmTurn_eq hdraft
    cases hturn.symm.trans h
    exact ⟨t, m, acts, s₃, hdraft, rfl⟩
  · intro h
    obtain ⟨t, m, acts, s₃, hdraft, rfl⟩ := h
    obtain ⟨s', hturn⟩ := llmTurn_eq hdraft
    exact ⟨_, s', hturn, rfl⟩

theorem answer_background (hasks : asksBackground rt.cm body.message = true) :
    ∃ s', answer cfg rt env body none s =
      .ok
        { ok := true
          response := PersonaService.shortBackground s.persona
          model := some (str "rule-persona")
          toolActions := [] } s' := by
  unfold answer
  simp only [hasks, if_true]
  exact ⟨_, rfl⟩

theorem answer_reply (hasks : asksBackground rt.cm body.message = false) :
    answer (V := V) cfg rt env body none = llmTurn cfg rt env body := by
  unfold answer
  simp only [hasks, Bool.false_eq_true, if_false]

theorem runChatTurn_eq_ok_iff (hcheck : check rt.cm body.message = none) :
    runChatTurn cfg rt vs env body s = .ok r s' ↔
      ∃ name s₂, Remembers rt vs env.toNameEnv body.userId body.message s name s₂ ∧
        answer cfg rt env body name s₂ = .ok r s' := by
  unfold runChatTurn
  rw [hcheck]
  constructor
  · intro h
    obtain ⟨_, s₁, hcapture, hrest⟩ := bind_eq_ok.mp h
    obtain ⟨name, s₂, hname, hanswer⟩ := bind_eq_ok.mp hrest
    exact ⟨name, s₂, ⟨hcheck, s₁, hcapture, hname⟩, hanswer⟩
  · intro h
    obtain ⟨name, s₂, ⟨-, s₁, hcapture, hname⟩, hanswer⟩ := h
    exact bind_eq_ok.mpr ⟨(), s₁, hcapture, bind_eq_ok.mpr ⟨name, s₂, hname, hanswer⟩⟩

/-- `_run_chat_turn` hands out exactly the texts of its exits. -/
theorem runChatTurn_exit_iff :
    (∃ r s', runChatTurn cfg rt vs env body s = .ok r s' ∧ r.response = text) ↔
      Exit cfg rt vs env body s text := by
  cases hcheck : check rt.cm body.message with
  | some refusal =>
    have hrun : ∃ s', runChatTurn cfg rt vs env body s =
        .ok { ok := false, response := refusal, model := none, toolActions := [] } s' := by
      unfold runChatTurn
      rw [hcheck]
      exact ⟨_, rfl⟩
    obtain ⟨s'', hrun⟩ := hrun
    constructor
    · intro ⟨r, s', h, hr⟩
      subst hr
      cases hrun.symm.trans h
      exact .refused hcheck
    · intro h
      cases h with
      | refused h => exact ⟨_, s'', hrun, Option.some.inj (hcheck.symm.trans h)⟩
      | name h => cases hcheck.symm.trans h.1
      | background h => cases hcheck.symm.trans h.1
      | reply h => cases hcheck.symm.trans h.1
  | none =>
    simp only [runChatTurn_eq_ok_iff hcheck]
    constructor
    · intro h
      obtain ⟨r, s', ⟨name, s₂, hname, hanswer⟩, rfl⟩ := h
      cases name with
      | some n =>
        cases hanswer
        exact .name hname
      | none =>
        cases hasks : asksBackground rt.cm body.message with
        | true =>
          obtain ⟨s'', hrun⟩ := answer_background (s := s₂) hasks
          cases hrun.symm.trans hanswer
          exact .background hname hasks
        | false =>
          rw [answer_reply hasks] at hanswer
          obtain ⟨t, m, acts, s₃, hdraft, ht⟩ := llmTurn_eq_ok_iff.mp ⟨r, s', hanswer, rfl⟩
          rw [← ht]
          exact .reply hname hasks hdraft
    · intro h
      cases h with
      | refused h => cases hcheck.symm.trans h
      | name h => exact ⟨_, _, ⟨_, _, h, rfl⟩, rfl⟩
      | @background s₂ h hasks =>
        obtain ⟨s', hrun⟩ := answer_background (s := s₂) hasks
        exact ⟨_, s', ⟨none, s₂, h, hrun⟩, rfl⟩
      | @reply s₂ _ _ _ _ h hasks hdraft =>
        obtain ⟨r, s', hturn, hr⟩ := llmTurn_eq_ok_iff.mpr ⟨_, _, _, _, hdraft, rfl⟩
        exact ⟨r, s', ⟨none, s₂, h, (answer_reply hasks).symm ▸ hturn⟩, hr⟩

section Frame

/-- A program that touches neither the persona nor the history. -/
def Frames {α : Type} (p : ChatM V α) : Prop :=
  ∀ s a s', p s = .ok a s' → s'.persona = s.persona ∧ s'.sessions = s.sessions

variable {nenv : NameEnv} {userId message : PyStr} {name name' : Option PyStr} {s₂ s₂' : ChatState V}

theorem Frames.pure {α : Type} (a : α) : Frames (pure a : ChatM V α) := by
  intro s a' s' h
  obtain ⟨-, rfl⟩ := pure_eq_ok.mp h
  exact ⟨rfl, rfl⟩

theorem Frames.bind {α β : Type} {p : ChatM V α} {f : α → ChatM V β} (hp : Frames p)
    (hf : ∀ a, Frames (f a)) : Frames (p >>= f) := by
  intro s b s' h
  obtain ⟨a, t, hpa, hfa⟩ := bind_eq_ok.mp h
  obtain ⟨hpersona, hsessions⟩ := hp s a t hpa
  obtain ⟨hpersona', hsessions'⟩ := hf a t b s' hfa
  exact ⟨hpersona'.trans hpersona, hsessions'.trans hsessions⟩

theorem Frames.onMemory {α : Type} (p : ServiceM V α) : Frames (onMemory p) := by
  intro s a s' h
  obtain ⟨_, -, rfl⟩ := zoom_eq_ok.mp h
  exact ⟨rfl, rfl⟩

theorem Frames.log (type detail : PyStr) : Frames (V := V) (log type detail) := by
  intro s a s' h
  cases h
  exact ⟨rfl, rfl⟩

theorem frames_maybeCaptureUserName :
    Frames (maybeCaptureUserName rt vs nenv userId message) := by
  unfold maybeCaptureUserName
  split
  · exact .pure ()
  · apply Frames.bind (.onMemory _)
    intro item
    split
    · split
      · exact .pure ()
      · exact .log _ _
    · exact .log _ _

theorem frames_rememberedName : Frames (V := V) (rememberedName rt nenv userId message) := by
  unfold rememberedName
  split
  · exact .bind (.bind (.onMemory _) fun _ => .pure _) fun _ => .pure _
  · exact .pure _

theorem Remembers.frame (h : Remembers rt vs nenv userId message s name s₂) :
    s₂.persona = s.persona ∧ s₂.sessions = s.sessions := by
  obtain ⟨-, s₁, hcapture, hname⟩ := h
  obtain ⟨hp, hs⟩ := frames_maybeCaptureUserName _ _ _ hcapture
  obtain ⟨hp', hs'⟩ := frames_rememberedName _ _ _ hname
  exact ⟨hp'.trans hp, hs'.trans hs⟩

theorem Remembers.unique (h : Remembers rt vs nenv userId message s name s₂)
    (h' : Remembers rt vs nenv userId message s name' s₂') : name = name' ∧ s₂ = s₂' := by
  obtain ⟨-, s₁, hcapture, hname⟩ := h
  obtain ⟨-, s₁', hcapture', hname'⟩ := h'
  cases hcapture.symm.trans hcapture'
  cases hname.symm.trans hname'
  exact ⟨rfl, rfl⟩

end Frame

/-- The deterministic answers of `_run_chat_turn` pass, where one of them is given. -/
structure RulesPass (rt : ChatRuntime) (vs : VectorStore V) (env : NameEnv) (body : ChatTurnIn)
    (s : ChatState V) : Prop where
  name : ∀ n s₂, Remembers rt vs env body.userId body.message s (some n) s₂ →
    Passes rt.cm (nameAnswer n)
  background : ∀ s₂, Remembers rt vs env body.userId body.message s none s₂ →
    asksBackground rt.cm body.message = true → Passes rt.cm (PersonaService.shortBackground s.persona)

theorem rulesPass_iff (cfg : ChatConfig) :
    (∀ text, Exit cfg rt vs env body s text → Passes rt.cm text) ↔
      RulesPass rt vs env.toNameEnv body s := by
  constructor
  · intro h
    refine ⟨fun n s₂ hn => h _ (.name hn), fun s₂ hn hasks => ?_⟩
    rw [← hn.frame.1]
    exact h _ (.background hn hasks)
  · intro h text hexit
    cases hexit with
    | refused hcheck =>
      rw [eq_of_check_eq_some hcheck]
      exact passes_inputRefusal rt.cm
    | name hn => exact h.name _ _ hn
    | background hn hasks =>
      rw [hn.frame.1]
      exact h.background _ hn hasks
    | reply => exact passes_moderated rt.cm _

inductive PipelineText (cfg : ChatConfig) (rt : ChatRuntime) (vs : VectorStore V) (env : ChatEnv)
    (body : ChatTurnIn) (s : ChatState V) : PyStr → Prop where
  | answered {text : PyStr} (h : Exit cfg rt vs env body s text) :
      PipelineText cfg rt vs env body s text
  | silent (h : ∀ text, ¬ Exit cfg rt vs env body s text) : PipelineText cfg rt vs env body s []

/-- What follows the deltas of a stream that ended, or broke off with an exception. -/
inductive StreamTail (cfg : ChatConfig) (rt : ChatRuntime) (vs : VectorStore V) (env : ChatEnv)
    (body : ChatTurnIn) (s : ChatState V) : Option PyExc → PyStr → Prop where
  | ended : StreamTail cfg rt vs env body s none []
  | passedOn {e : PyExc} (he : e.isException = false) : StreamTail cfg rt vs env body s (some e) []
  | brokeOff {e : PyExc} {text : PyStr} (he : e.isException = true)
      (h : PipelineText cfg rt vs env body s text) : StreamTail cfg rt vs env body s (some e) text

/-- The name answer passes, and so does the LLM's stream together with what follows it. -/
structure StreamPasses (cfg : ChatConfig) (rt : ChatRuntime) (vs : VectorStore V) (env : StreamEnv)
    (body : ChatTurnIn) (s : ChatState V) : Prop where
  name : ∀ n s₂, Remembers rt vs env.toNameEnv body.userId body.message s (some n) s₂ →
    Passes rt.cm (nameAnswer n)
  stream : ∀ s₂, Remembers rt vs env.toNameEnv body.userId body.message s none s₂ →
    ∀ deltas failure tail,
      env.stream (PersonaService.systemPrompt s.persona) body.message
        (s.sessions.get body.userId (some 10)) = (deltas, failure) →
      StreamTail cfg rt vs env.pipeline body s₂ failure tail → Passes rt.cm (deltas.flatten ++ tail)

inductive ChatCall where
  | turn (env : ChatEnv) (body : ChatTurnIn)
  | stream (env : StreamEnv) (userId message : PyStr)

def ChatCall.handed (cfg : ChatConfig) (rt : ChatRuntime) (vs : VectorStore V) (s : ChatState V) :
    ChatCall → Option PyStr
  | .turn env body => match runChatTurn cfg rt vs env body s with
    | .ok r _ => some r.response
    | .error _ _ => none
  | .stream env userId message =>
    some (final (streamChat cfg rt vs env userId message { chat := s, yielded := [] })).yielded.flatten

/-- What leaves by an exit without a check passes all the same. -/
def ChatCall.UncheckedPass (cfg : ChatConfig) (rt : ChatRuntime) (vs : VectorStore V)
    (s : ChatState V) : ChatCall → Prop
  | .turn env body => RulesPass rt vs env.toNameEnv body s
  | .stream env userId message =>
    if !cfg.wsStreamEnabled || cfg.llmProvider ≠ str "openai_compat" then
      RulesPass rt vs env.pipeline.toNameEnv { userId, message, style := none } s
    else StreamPasses cfg rt vs env { userId, message, style := none } s

section Stream

variable {senv : StreamEnv} {userId message : PyStr} {g : Gen V}

theorem pipelineText_iff :
    PipelineText cfg rt vs env body s text ↔
      text = match runChatTurn cfg rt vs env body s with
        | .ok r _ => r.response
        | .error _ _ => [] := by
  cases hrun : runChatTurn cfg rt vs env body s with
  | ok r s' =>
    have hexit : Exit cfg rt vs env body s r.response := runChatTurn_exit_iff.mp ⟨r, s', hrun, rfl⟩
    constructor
    · intro h
      cases h with
      | answered h =>
        obtain ⟨r', s'', hrun', hr⟩ := runChatTurn_exit_iff.mpr h
        cases hrun.symm.trans hrun'
        exact hr.symm
      | silent h => exact absurd hexit (h _)
    · rintro rfl
      exact .answered hexit
  | error e s' =>
    have hnone (t : PyStr) : ¬ Exit cfg rt vs env body s t := by
      intro h
      obtain ⟨r, s'', hrun', -⟩ := runChatTurn_exit_iff.mpr h
      cases hrun.symm.trans hrun'
    constructor
    · intro h
      cases h with
      | answered h => exact absurd h (hnone _)
      | silent => rfl
    · rintro rfl
      exact .silent hnone

theorem yielded_pipeline (cfg : ChatConfig) (rt : ChatRuntime) (vs : VectorStore V)
    (senv : StreamEnv) (userId message : PyStr) (g : Gen V) :
    ∃ text, PipelineText cfg rt vs senv.pipeline { userId, message, style := none } g.chat text ∧
      (final (yieldPipeline cfg rt vs senv userId message g)).yielded.flatten =
        g.yielded.flatten ++ text := by
  refine ⟨_, pipelineText_iff.mpr rfl, ?_⟩
  unfold yieldPipeline onChat chatViaPipeline
  rw [final_bind]
  cases hrun : runChatTurn cfg rt vs senv.pipeline { userId, message, style := none } g.chat with
  | ok r s' => simp [zoom, hrun, yieldAll, modify_run, final]
  | error e s' => simp [zoom, hrun]

theorem PipelineText.unique {text' : PyStr} (h : PipelineText cfg rt vs env body s text)
    (h' : PipelineText cfg rt vs env body s text') : text = text' :=
  (pipelineText_iff.mp h).trans (pipelineText_iff.mp h').symm

theorem StreamTail.unique {failure : Option PyExc} {tail tail' : PyStr}
    (h : StreamTail cfg rt vs env body s failure tail)
    (h' : StreamTail cfg rt vs env body s failure tail') : tail = tail' := by
  cases h with
  | ended =>
    cases h'
    rfl
  | passedOn he =>
    cases h' with
    | passedOn => rfl
    | brokeOff he' => cases he.symm.trans he'
  | brokeOff he h =>
    cases h' with
    | passedOn he' => cases he.symm.trans he'
    | brokeOff _ h' => exact h.unique h'

/-- The generator yields the deltas, and then what follows them. -/
theorem yielded_streamReply (cfg : ChatConfig) (rt : ChatRuntime) (vs : VectorStore V)
    {deltas : List PyStr} {failure : Option PyExc}
    (hstream : senv.stream (PersonaService.systemPrompt s.persona) message
      (s.sessions.get userId (some 10)) = (deltas, failure)) :
    ∃ tail, StreamTail cfg rt vs senv.pipeline { userId, message, style := none } s failure tail ∧
      (final (streamReply cfg rt vs senv userId message { chat := s, yielded := [] })).yielded.flatten =
        deltas.flatten ++ tail := by
  have hreply : streamReply cfg rt vs senv userId message { chat := s, yielded := [] } =
      afterStream cfg rt vs senv userId message deltas failure { chat := s, yielded := deltas } := by
    simp only [streamReply, bind_run, get_run, hstream]
    rfl
  rw [hreply]
  cases failure with
  | none => exact ⟨[], .ended, by simp [afterStream, onChat, final_zoom]⟩
  | some e =>
    cases he : e.isException with
    | true =>
      obtain ⟨text, htext, hyield⟩ :=
        yielded_pipeline cfg rt vs senv userId message { chat := s, yielded := deltas }
      exact ⟨text, .brokeOff he htext, by simpa [afterStream, he] using hyield⟩
    | false =>
      refine ⟨[], .passedOn he, ?_⟩
      simp only [afterStream, he, Bool.false_eq_true, if_false]
      exact (List.append_nil _).symm

theorem streamChat_of_remembers {name : Option PyStr} {s₂ : ChatState V}
    (hstream : ¬ (!cfg.wsStreamEnabled || cfg.llmProvider ≠ str "openai_compat") = true)
    (h : Remembers rt vs senv.toNameEnv userId message s name s₂) :
    streamChat cfg rt vs senv userId message { chat := s, yielded := [] } =
      streamAnswer cfg rt vs senv userId message name { chat := s₂, yielded := [] } := by
  obtain ⟨hcheck, s₁, hcapture, hname⟩ := h
  unfold streamChat
  rw [if_neg hstream, hcheck]
  simp only [bind_run, onChat, zoom, hcapture, hname]

theorem yielded_of_not_remembers
    (hstream : ¬ (!cfg.wsStreamEnabled || cfg.llmProvider ≠ str "openai_compat") = true)
    (hcheck : check rt.cm message = none)
    (h : ∀ name s₂, ¬ Remembers rt vs senv.toNameEnv userId message s name s₂) :
    (final (streamChat cfg rt vs senv userId message { chat := s, yielded := [] })).yielded = [] := by
  unfold streamChat
  rw [if_neg hstream, hcheck, final_bind]
  cases hcapture : maybeCaptureUserName rt vs senv.toNameEnv userId message s with
  | error e s₁ => simp [onChat, zoom, hcapture]
  | ok u s₁ =>
    cases hname : rememberedName rt senv.toNameEnv userId message s₁ with
    | error e s₂ => simp [onChat, zoom, hcapture, final_bind, hname]
    | ok name s₂ => exact absurd ⟨hcheck, s₁, hcapture, hname⟩ (h name s₂)

theorem stream_passes_iff
    (hstream : ¬ (!cfg.wsStreamEnabled || cfg.llmProvider ≠ str "openai_compat") = true)
    (hcheck : check rt.cm message = none) :
    Passes rt.cm
        (final (streamChat cfg rt vs senv userId message { chat := s, yielded := [] })).yielded.flatten ↔
      StreamPasses cfg rt vs senv { userId, message, style := none } s := by
  by_cases hex : ∃ name s₂, Remembers rt vs senv.toNameEnv userId message s name s₂
  · obtain ⟨name, s₂, hrem⟩ := hex
    rw [streamChat_of_remembers hstream hrem]
    cases name with
    | some n =>
      have hyield : (final (streamAnswer cfg rt vs senv userId message (some n)
          { chat := s₂, yielded := [] })).yielded.flatten = nameAnswer n :=
        List.append_nil (nameAnswer n)
      rw [hyield]
      constructor
      · intro h
        refine ⟨fun n' s' hrem' => ?_, fun s' hrem' => ?_⟩
        · cases (hrem.unique hrem').1
          exact h
        · cases (hrem.unique hrem').1
      · exact fun h => h.name n s₂ hrem
    | none =>
      obtain ⟨hpersona, hsessions⟩ := hrem.frame
      cases hd : senv.stream (PersonaService.systemPrompt s.persona) message
        (s.sessions.get userId (some 10)) with
      | mk deltas failure =>
        rw [← hpersona, ← hsessions] at hd
        obtain ⟨tail, htail, hyield⟩ :=
          yielded_streamReply cfg rt vs hd
        rw [show streamAnswer cfg rt vs senv userId message none =
          streamReply cfg rt vs senv userId message from rfl, hyield]
        rw [hpersona, hsessions] at hd
        constructor
        · intro h
          refine ⟨fun n' s' hrem' => ?_, fun s' hrem' deltas' failure' tail' hd' htail' => ?_⟩
          · cases (hrem.unique hrem').1
          · obtain ⟨-, rfl⟩ := hrem.unique hrem'
            cases hd.symm.trans hd'
            rw [← htail.unique htail']
            exact h
        · exact fun h => h.stream s₂ hrem deltas failure tail hd htail
  · have hnone : ∀ name s₂, ¬ Remembers rt vs senv.toNameEnv userId message s name s₂ :=
      fun name s₂ hrem => hex ⟨name, s₂, hrem⟩
    rw [yielded_of_not_remembers hstream hcheck hnone]
    refine iff_of_true (passes_nil rt.cm) ⟨fun n s₂ hrem => ?_, fun s₂ hrem => ?_⟩
    · exact absurd hrem (hnone _ _)
    · exact absurd hrem (hnone _ _)

theorem disabled_stream_passes_iff
    (hstream : (!cfg.wsStreamEnabled || cfg.llmProvider ≠ str "openai_compat") = true) :
    Passes rt.cm
        (final (streamChat cfg rt vs senv userId message { chat := s, yielded := [] })).yielded.flatten ↔
      RulesPass rt vs senv.pipeline.toNameEnv { userId, message, style := none } s := by
  obtain ⟨text, htext, hyield⟩ :=
    yielded_pipeline cfg rt vs senv userId message { chat := s, yielded := [] }
  unfold streamChat
  rw [if_pos hstream, hyield, ← rulesPass_iff cfg]
  simp only [List.flatten_nil, List.nil_append]
  constructor
  · intro h t hexit
    rw [← htext.unique (.answered hexit)]
    exact h
  · intro h
    cases htext with
    | answered hexit => exact h _ hexit
    | silent => exact passes_nil rt.cm

theorem stream_passes_of_refused {refusal : PyStr}
    (hstream : ¬ (!cfg.wsStreamEnabled || cfg.llmProvider ≠ str "openai_compat") = true)
    (hcheck : check rt.cm message = some refusal) :
    Passes rt.cm
        (final (streamChat cfg rt vs senv userId message { chat := s, yielded := [] })).yielded.flatten ∧
      StreamPasses cfg rt vs senv { userId, message, style := none } s := by
  have hyield : (final (streamChat cfg rt vs senv userId message
      { chat := s, yielded := [] })).yielded.flatten = refusal := by
    unfold streamChat
    rw [if_neg hstream, hcheck]
    exact List.append_nil refusal
  rw [hyield, eq_of_check_eq_some hcheck]
  refine ⟨passes_inputRefusal rt.cm, fun n s₂ hrem => ?_, fun s₂ hrem => ?_⟩
  · cases hcheck.symm.trans hrem.1
  · cases hcheck.symm.trans hrem.1

end Stream

theorem handed_turn_iff :
    (ChatCall.turn env body).handed cfg rt vs s = some text ↔ Exit cfg rt vs env body s text := by
  rw [← runChatTurn_exit_iff]
  cases hrun : runChatTurn cfg rt vs env body s with
  | ok r s' => simp [ChatCall.handed, hrun]
  | error e s' => simp [ChatCall.handed, hrun]

/-- Every assistant text of a call of either pipeline passes `check_output`, whatever the state, the
LLM, the tools and the memory backends do, exactly when what its unchecked exits hand out does. -/
theorem handed_passes_iff (cfg : ChatConfig) (rt : ChatRuntime) (vs : VectorStore V) (s : ChatState V)
    (c : ChatCall) :
    (∀ text, c.handed cfg rt vs s = some text → Passes rt.cm text) ↔ c.UncheckedPass cfg rt vs s := by
  cases c with
  | turn env body =>
    rw [ChatCall.UncheckedPass, ← rulesPass_iff cfg]
    simp only [handed_turn_iff]
  | stream env userId message =>
    simp only [ChatCall.handed, ChatCall.UncheckedPass, Option.some.injEq, forall_eq']
    by_cases hstream : (!cfg.wsStreamEnabled || cfg.llmProvider ≠ str "openai_compat") = true
    · rw [if_pos hstream]
      exact disabled_stream_passes_iff hstream
    · rw [if_neg hstream]
      cases hcheck : check rt.cm message with
      | none => exact stream_passes_iff hstream hcheck
      | some refusal =>
        obtain ⟨hpass, hcond⟩ := stream_passes_of_refused hstream hcheck
        exact iff_of_true hpass hcond

/-- The standard library on ASCII text; nothing parses as JSON. -/
def asciiRuntime : ChatRuntime where
  cm := .asciiOnly
  isWord c := NameCapture.isLetter c || (48 ≤ c && c ≤ 57) || c == 95
  jsonLoads _ := .error (.builtin "JSONDecodeError")
  jsonDumps _ := .ok []
  excText e := e.name
  floatText _ := []

def firstState : ChatState Unit where
  tools := { tools := [], pendingConfirmations := [], world := { memory := .synced [], reminders := [] } }
  sessions := { maxTurns := 20, history := [] }
  persona :=
    { name := str "Ani", occupation := str "waitress", age := 30, backstory := [], tone := []
      values := [], boundaries := [] }
  audit := []

def streaming (deltas : List PyStr) : StreamEnv where
  write := .fileOnly [] []
  search := .fileOnly
  stream _ _ _ := (deltas, none)
  pipeline :=
    { write := .fileOnly [] [], search := .fileOnly, retrieve := .fileOnly, stale := fun _ _ => false
      llm := fun _ _ _ _ => .ok [], paramsId := 0 }

/-- A streamed reply reaches the client before it is checked. -/
theorem not_handed_passes :
    ¬ ∀ (V : Type) (cfg : ChatConfig) (rt : ChatRuntime) (vs : VectorStore V) (s : ChatState V)
      (c : ChatCall) (text : PyStr), c.handed cfg rt vs s = some text → Passes rt.cm text := by
  intro hall
  have hhanded :
      (ChatCall.stream (streaming [str "Here is how to", str " hack."]) (str "u") (str "hi")).handed
        { llmProvider := str "openai_compat", ollamaModel := [], openaiCompatModel := []
          llmStripThinking := true, wsStreamEnabled := true }
        asciiRuntime .inert firstState = some (str "Here is how to hack.") := by
    rfl
  have hpasses := hall _ _ _ _ _ _ _ hhanded
  revert hpasses
  decide

end Chat

end VirtualPerson
