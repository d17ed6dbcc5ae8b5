import VirtualPerson.Chat.OutputSafety

/-!
# What is remembered of a streamed turn

The client has the deltas of a stream before the reply is cleaned, checked and recorded, or
before the other pipeline takes over. Which streams are remembered as they were seen.
-/

namespace VirtualPerson

set_option autoImplicit false

open Stateful SafetyService

namespace Chat

/-- A `<think>` that a `</think>` follows. -/
def ThinkBlock (text : PyStr) : Prop :=
  ∃ before body after, text = before ++ str "<think>" ++ body ++ str "</think>" ++ after

theorem thinkLen_eq_some {s : PyStr} {n : Nat} (h : thinkLen s = some n) :
    ∃ body after, s = str "<think>" ++ body ++ str "</think>" ++ after := by
  unfold thinkLen at h
  dsimp only at h
  split at h
  · rename_i hopen
    obtain ⟨k, hk, -⟩ := Option.map_eq_some_iff.mp h
    obtain ⟨rest, rfl⟩ := hopen
    have hclose := List.find?_some hk
    rw [List.drop_left, decide_eq_true_eq] at hclose
    obtain ⟨after, hafter⟩ := hclose
    refine ⟨rest.take k, after, ?_⟩
    simp only [List.append_assoc, hafter, List.take_append_drop]
  · cases h

theorem thinkLen_block (body after : PyStr) :
    thinkLen (str "<think>" ++ body ++ str "</think>" ++ after) ≠ none := by
  have hdrop : (str "<think>" ++ body ++ str "</think>" ++ after).drop (str "<think>").length =
      body ++ (str "</think>" ++ after) := by
    simp only [List.append_assoc, List.drop_left]
  unfold thinkLen
  dsimp only
  rw [if_pos ⟨body ++ str "</think>" ++ after, by simp only [List.append_assoc]⟩, hdrop]
  intro h
  have hfind := List.find?_eq_none.mp (Option.map_eq_none_iff.mp h) body.length
    (List.mem_range.mpr (by simp only [List.length_append]; omega))
  apply hfind
  rw [List.drop_left, decide_eq_true_eq]
  exact List.prefix_append _ _

theorem thinkBlock_cons_iff {c : Nat} {s : PyStr} :
    ThinkBlock (c :: s) ↔ thinkLen (c :: s) ≠ none ∨ ThinkBlock s := by
  constructor
  · intro ⟨before, body, after, h⟩
    cases before with
    | nil =>
      left
      rw [h]
      exact thinkLen_block body after
    | cons b before =>
      right
      exact ⟨before, body, after, (List.cons.inj h).2⟩
  · intro h
    rcases h with h | ⟨before, body, after, rfl⟩
    · obtain ⟨n, hn⟩ := Option.ne_none_iff_exists'.mp h
      obtain ⟨body, after, hs⟩ := thinkLen_eq_some hn
      exact ⟨[], body, after, hs⟩
    · exact ⟨c :: before, body, after, rfl⟩

theorem dropThinking_sublist (skip : Nat) (s : PyStr) : (dropThinking skip s).Sublist s := by
  induction s generalizing skip with
  | nil => cases skip <;> exact List.Sublist.slnil
  | cons c s ih =>
    cases skip with
    | succ skip => exact (ih skip).cons c
    | zero =>
      unfold dropThinking
      split
      · rename_i n _
        exact (ih (n - 1)).cons c
      · exact (ih 0).cons_cons c

theorem dropThinking_of_not_thinkBlock {s : PyStr} (h : ¬ ThinkBlock s) : dropThinking 0 s = s := by
  induction s with
  | nil => rfl
  | cons c s ih =>
    rw [thinkBlock_cons_iff, not_or, not_not] at h
    unfold dropThinking
    rw [h.1]
    exact congrArg (c :: ·) (ih h.2)

/-- Dropping a block loses at least its `<`. -/
theorem length_solid_dropThinking {s : PyStr} (h : ThinkBlock s) :
    (PyStr.solid (dropThinking 0 s)).length < (PyStr.solid s).length := by
  induction s with
  | nil =>
    obtain ⟨before, body, after, h⟩ := h
    have hlen := congrArg List.length h
    simp [str] at hlen
  | cons c s ih =>
    unfold dropThinking
    cases hlen : thinkLen (c :: s) with
    | some n =>
      obtain ⟨body, after, hs⟩ := thinkLen_eq_some hlen
      have hc : c = 60 := (List.cons.inj hs).1
      have hle := ((dropThinking_sublist (n - 1) s).filter fun d => !isSpace d).length_le
      have hsolid : PyStr.solid (c :: s) = c :: PyStr.solid s := by
        rw [hc]
        rfl
      rw [hsolid, List.length_cons]
      exact Nat.lt_succ_of_le hle
    | none =>
      have hrest := ih ((thinkBlock_cons_iff.mp h).resolve_left fun hne => hne hlen)
      unfold PyStr.solid at hrest ⊢
      simp only [List.filter_cons]
      split
      · exact Nat.succ_lt_succ hrest
      · exact hrest

theorem strip_stripThinking {s : PyStr} :
    PyStr.strip (stripThinking s) = PyStr.strip s ↔ ¬ ThinkBlock s := by
  rw [stripThinking, PyStr.strip_strip]
  constructor
  · intro h hblock
    have hlen := length_solid_dropThinking hblock
    rw [← PyStr.solid_strip, h, PyStr.solid_strip] at hlen
    exact Nat.lt_irrefl _ hlen
  · intro h
    rw [dropThinking_of_not_thinkBlock h]

theorem not_thinkBlock_of_not_mem {s : PyStr} (h : 60 ∉ PyStr.solid s) : ¬ ThinkBlock s := by
  intro h
  obtain ⟨before, body, after, rfl⟩ := h
  apply h
  simp only [PyStr.solid_append]
  have hmem : 60 ∈ PyStr.solid (str "<think>") := by decide
  simp [hmem]

/-- The text of a stream that is remembered as it was seen, but for whitespace at its ends. -/
structure Plain (cfg : ChatConfig) (cm : CaseMap) (text : PyStr) : Prop where
  whole : if cfg.llmStripThinking then ¬ ThinkBlock text ∧ PyStr.solid text ≠ [] else text ≠ []
  passes : Passes cm (if cfg.llmStripThinking then PyStr.strip text else text) ∨
    PyStr.strip text = replacement

section Reply

variable {cfg : ChatConfig} {cm : CaseMap} {text : PyStr}

/-- What the check of a finished stream reads. -/
def finished (cfg : ChatConfig) (text : PyStr) : PyStr :=
  PyStr.orElse (if cfg.llmStripThinking then stripThinking text else text) defaultReply

theorem stripThinking_of_not_thinkBlock (h : ¬ ThinkBlock text) :
    stripThinking text = PyStr.strip text := by
  rw [stripThinking, dropThinking_of_not_thinkBlock h]

theorem not_thinkBlock_of_strip_eq {reply : PyStr} (h : PyStr.strip text = reply)
    (hreply : 60 ∉ PyStr.solid reply) : ¬ ThinkBlock text := by
  apply not_thinkBlock_of_not_mem
  rwa [← PyStr.solid_strip, h]

theorem strip_finished_stripped (hstrip : cfg.llmStripThinking = true) :
    PyStr.strip (finished cfg text) = PyStr.strip text ↔
      ¬ ThinkBlock text ∧ PyStr.solid text ≠ [] := by
  unfold finished PyStr.orElse
  rw [if_pos hstrip]
  by_cases hnil : stripThinking text = []
  · rw [if_pos hnil]
    constructor
    · intro h
      have hblock : ¬ ThinkBlock text := not_thinkBlock_of_strip_eq h.symm (by decide)
      rw [stripThinking_of_not_thinkBlock hblock] at hnil
      rw [hnil] at h
      exact absurd h (by decide)
    · intro ⟨hblock, hsolid⟩
      rw [stripThinking_of_not_thinkBlock hblock] at hnil
      exact absurd (PyStr.strip_eq_nil_iff.mp hnil) hsolid
  · rw [if_neg hnil, strip_stripThinking]
    constructor
    · intro hblock
      refine ⟨hblock, fun hsolid => hnil ?_⟩
      rw [stripThinking_of_not_thinkBlock hblock]
      exact PyStr.strip_eq_nil_iff.mpr hsolid
    · exact And.left

theorem strip_finished_whole (hstrip : cfg.llmStripThinking = false) :
    PyStr.strip (finished cfg text) = PyStr.strip text ↔ text ≠ [] := by
  unfold finished PyStr.orElse
  rw [hstrip, if_neg Bool.false_ne_true]
  by_cases hnil : text = []
  · rw [if_pos hnil, hnil]
    decide
  · rw [if_neg hnil]
    exact iff_of_true rfl hnil

theorem strip_finished :
    PyStr.strip (finished cfg text) = PyStr.strip text ↔
      if cfg.llmStripThinking then ¬ ThinkBlock text ∧ PyStr.solid text ≠ [] else text ≠ [] := by
  cases hstrip : cfg.llmStripThinking with
  | true => exact strip_finished_stripped hstrip
  | false =>
    rw [if_neg Bool.false_ne_true]
    exact strip_finished_whole hstrip

theorem finished_of_whole
    (h : if cfg.llmStripThinking then ¬ ThinkBlock text ∧ PyStr.solid text ≠ [] else text ≠ []) :
    finished cfg text = if cfg.llmStripThinking then PyStr.strip text else text := by
  unfold finished PyStr.orElse
  split at h
  · rename_i hstrip
    simp only [hstrip, if_true]
    rw [stripThinking_of_not_thinkBlock h.1, if_neg (mt PyStr.strip_eq_nil_iff.mp h.2)]
  · rename_i hstrip
    simp only [hstrip]
    exact if_neg h

/-- The replacement itself holds no think block and is not blank. -/
theorem whole_of_replacement (h : PyStr.strip text = replacement) :
    if cfg.llmStripThinking then ¬ ThinkBlock text ∧ PyStr.solid text ≠ [] else text ≠ [] := by
  have hblock : ¬ ThinkBlock text := not_thinkBlock_of_strip_eq h (by decide +kernel)
  have hsolid : PyStr.solid text ≠ [] := by
    intro hnil
    rw [PyStr.strip_eq_nil_iff.mpr hnil] at h
    exact absurd h (by decide)
  split
  · exact ⟨hblock, hsolid⟩
  · intro hnil
    rw [hnil] at hsolid
    exact hsolid rfl

theorem strip_moderated_iff :
    PyStr.strip (moderated cm (finished cfg text)) = PyStr.strip text ↔ Plain cfg cm text := by
  cases hcheck : checkOutput cm (finished cfg text) with
  | none =>
    have hmoderated : moderated cm (finished cfg text) = finished cfg text := by
      rw [moderated, hcheck]
    rw [hmoderated, strip_finished]
    constructor
    · intro h
      refine ⟨h, Or.inl ?_⟩
      rw [← finished_of_whole h]
      exact hcheck
    · exact Plain.whole
  | some refusal =>
    have hmoderated : moderated cm (finished cfg text) = replacement := by
      rw [moderated, hcheck]
      rfl
    have hstrip : PyStr.strip replacement = replacement := by decide +kernel
    rw [hmoderated, hstrip]
    constructor
    · intro h
      exact ⟨whole_of_replacement h.symm, Or.inr h.symm⟩
    · intro h
      rcases h.passes with hpasses | htext
      · rw [← finished_of_whole h.whole] at hpasses
        cases hcheck.symm.trans hpasses
      · exact htext.symm

end Reply

section Sessions

variable {V : Type} {cfg : ChatConfig} {rt : ChatRuntime} {vs : VectorStore V} {env : ChatEnv}
variable {body : ChatTurnIn} {sessions : SessionService} {s s' : ChatState V} {e : PyExc}

/-- The session with a turn's two entries. -/
def recorded (sessions : SessionService) (userId message response : PyStr) : SessionService :=
  (sessions.add userId (str "user") message).add userId (str "assistant") response

abbrev SessionsAre (sessions : SessionService) (s : ChatState V) : Prop := s.sessions = sessions

/-- What neither the memory nor the audit log has a part in. -/
structure Apart (I : ChatState V → Prop) : Prop where
  memory : ∀ s m, I s →
    I { s with tools := { s.tools with world := { s.tools.world with memory := m } } }
  audit : ∀ s events, I s → I { s with audit := events }

theorem apart_sessions : Apart (SessionsAre (V := V) sessions) where
  memory _ _ hs := hs
  audit _ _ hs := hs

section Apart

variable {I : ChatState V → Prop}

theorem Apart.onMemory {α : Type} (hI : Apart I) (p : ServiceM V α) : Keeps I (onMemory p) := by
  intro s hs
  refine ⟨?_, fun _ _ _ => trivial⟩
  rw [Chat.onMemory, final_zoom]
  exact hI.memory _ _ hs

theorem Apart.log (hI : Apart I) (type detail : PyStr) : Keeps I (log type detail) :=
  .modify fun s hs => hI.audit s _ hs

theorem Apart.capture {nenv : NameEnv} {userId message : PyStr} (hI : Apart I) :
    Keeps I (maybeCaptureUserName rt vs nenv userId message) := by
  unfold maybeCaptureUserName
  split
  · exact Keeps.pure _
  · apply Keeps.bind (hI.onMemory _)
    intro item
    split
    · split
      · exact Keeps.pure _
      · exact hI.log _ _
    · exact hI.log _ _

theorem Apart.rememberedName {nenv : NameEnv} {userId message : PyStr} (hI : Apart I) :
    Keeps I (rememberedName rt nenv userId message) := by
  unfold Chat.rememberedName recallUserName
  split
  · apply Keeps.bind
    · exact Keeps.bind (hI.onMemory _) fun _ => Keeps.pure _
    · intro name
      exact Keeps.pure _
  · exact Keeps.pure _

theorem Apart.remembers {nenv : NameEnv} {userId message : PyStr} {name : Option PyStr}
    {s₂ : ChatState V} (hI : Apart I) (h : Remembers rt vs nenv userId message s name s₂)
    (hs : I s) : I s₂ := by
  obtain ⟨-, s₁, hcapture, hname⟩ := h
  exact hI.rememberedName.of_ok (hI.capture.of_ok hs hcapture) hname

end Apart

theorem unsaved_onTools {α : Type} (p : EStateM PyExc (ToolRegistry (World V)) α) :
    Keeps (SessionsAre sessions) (onTools p) := by
  intro s hs
  refine ⟨?_, fun _ _ _ => trivial⟩
  rw [onTools, final_zoom]
  exact hs

theorem unsaved_llmCall {n : Nat} {systemPrompt userPrompt : PyStr} {history : List SessionTurn} :
    Keeps (SessionsAre (V := V) sessions) (llmCall cfg env n systemPrompt userPrompt history) := by
  unfold llmCall
  apply Keeps.bind (.ofExcept _)
  intro raw
  exact Keeps.pure _

theorem unsaved_toolFollowup {userMessage raw modelUsed tool : PyStr} {history : List SessionTurn}
    {params : PyVal} : Keeps (SessionsAre (V := V) sessions)
      (toolFollowup cfg rt env userMessage history raw modelUsed tool params) := by
  unfold toolFollowup
  apply Keeps.bind (unsaved_onTools _)
  intro result
  apply Ensures.handling
  · apply Keeps.bind (apart_sessions.log _ _)
    intro _
    apply Keeps.bind (.ofExcept _)
    intro text
    apply Ensures.bind .get
    intro s _
    apply Keeps.bind unsaved_llmCall
    intro reply
    exact Keeps.pure _
  · intro _
    exact Keeps.pure _

theorem unsaved_toolCallLoop {userMessage memoryContext : PyStr} {history : List SessionTurn} :
    Keeps (SessionsAre (V := V) sessions)
      (toolCallLoop cfg rt env userMessage memoryContext history) := by
  unfold toolCallLoop
  apply Ensures.bind .get
  intro s _
  apply Keeps.bind unsaved_llmCall
  intro reply
  apply Ensures.handling
  · apply Keeps.bind (.ofExcept _)
    intro call
    split
    · exact unsaved_toolFollowup
    · exact Keeps.pure _
  · intro _
    exact Keeps.pure _

theorem unsaved_draft : Keeps (SessionsAre (V := V) sessions) (draft cfg rt env body) := by
  unfold draft
  apply Keeps.bind (apart_sessions.onMemory _)
  intro recalled
  apply Ensures.bind .get
  intro s _
  apply Ensures.handling
  · apply Keeps.bind unsaved_toolCallLoop
    intro reply
    exact Keeps.pure _
  · intro _
    exact Keeps.pure _

theorem sessions_ruleAnswer {response : PyStr} {model : String} {r : ChatResult}
    (h : ruleAnswer body response model s = .ok r s') :
    s'.sessions = recorded s.sessions body.userId body.message r.response := by
  cases h
  rfl

theorem sessions_llmTurn {r : ChatResult} (h : llmTurn cfg rt env body s = .ok r s') :
    s'.sessions = recorded s.sessions body.userId body.message r.response := by
  obtain ⟨⟨reply, modelUsed, actions⟩, t, hdraft, hrest⟩ := bind_eq_ok.mp h
  have ht : t.sessions = s.sessions := unsaved_draft.of_ok rfl hdraft
  dsimp only at hrest
  split at hrest <;> (cases hrest; exact congrArg (recorded · _ _ _) ht)

theorem sessions_answer {name : Option PyStr} {r : ChatResult}
    (h : answer cfg rt env body name s = .ok r s') :
    s'.sessions = recorded s.sessions body.userId body.message r.response := by
  unfold answer at h
  split at h
  · exact sessions_ruleAnswer h
  · split at h
    · exact sessions_ruleAnswer h
    · exact sessions_llmTurn h

/-- `_run_chat_turn` records the text it returns, unless it refuses. -/
theorem sessions_runChatTurn (body : ChatTurnIn) {r : ChatResult} (hcheck : check rt.cm body.message = none)
    (h : runChatTurn cfg rt vs env body s = .ok r s') :
    s'.sessions = recorded s.sessions body.userId body.message r.response := by
  obtain ⟨name, s₂, hrem, hanswer⟩ := (runChatTurn_eq_ok_iff hcheck).mp h
  rw [← hrem.frame.2]
  exact sessions_answer hanswer

end Sessions

section Stream

variable {V : Type} {cfg : ChatConfig} {rt : ChatRuntime} {vs : VectorStore V} {env : StreamEnv}
variable {userId message content : PyStr} {s : ChatState V} {g g' : Gen V} {e : PyExc}

/-- Nothing was seen of a stream that broke off, and one that ended was plain. -/
def Kept (cfg : ChatConfig) (cm : CaseMap) : List PyStr × Option PyExc → Prop
  | (deltas, none) => Plain cfg cm deltas.flatten
  | (deltas, some _) => PyStr.solid deltas.flatten = []

/-- Where the LLM streams the answer, its stream is kept. -/
def SeenInFull (cfg : ChatConfig) (rt : ChatRuntime) (vs : VectorStore V) (env : StreamEnv)
    (userId message : PyStr) (s : ChatState V) : Prop :=
  cfg.wsStreamEnabled = true → cfg.llmProvider = str "openai_compat" →
    ∀ s₂, Remembers rt vs env.toNameEnv userId message s none s₂ →
      Kept cfg rt.cm (env.stream (PersonaService.systemPrompt s.persona) message
        (s.sessions.get userId (some 10)))

/-- The call returns in `g`, and has appended a turn of the assistant with this content. -/
structure Appends (cfg : ChatConfig) (rt : ChatRuntime) (vs : VectorStore V) (env : StreamEnv)
    (userId message : PyStr) (s : ChatState V) (g : Gen V) (content : PyStr) : Prop where
  returns : streamChat cfg rt vs env userId message { chat := s, yielded := [] } = .ok () g
  letIn : check rt.cm message = none
  last : (g.chat.sessions.turnsOf userId).getLast? = some ⟨str "assistant", content⟩

/-- One call's ends: what is added to the session, and what is added to the yielded text. -/
def Adds (userId message : PyStr) (g g' : Gen V) (content seen : PyStr) : Prop :=
  g'.chat.sessions = recorded g.chat.sessions userId message content ∧
    g'.yielded.flatten = g.yielded.flatten ++ seen

theorem adds_yieldPipeline (hcheck : check rt.cm message = none)
    (h : yieldPipeline cfg rt vs env userId message g = .ok () g') :
    ∃ response, Adds userId message g g' response response := by
  obtain ⟨r, t, hchat, hyield⟩ := bind_eq_ok.mp h
  obtain ⟨c, hrun, rfl⟩ := zoom_eq_ok.mp hchat
  cases hyield
  refine ⟨r.response, ?_, ?_⟩
  · exact sessions_runChatTurn { userId, message, style := none } hcheck hrun
  · simp

/-- The end of a stream: the deltas seen, and what follows them. -/
theorem adds_afterStream {deltas : List PyStr} {failure : Option PyExc}
    (hcheck : check rt.cm message = none)
    (h : afterStream cfg rt vs env userId message deltas failure g = .ok () g') :
    ∃ content tail, Adds userId message g g' content tail ∧
      (PyStr.strip content = PyStr.strip (deltas.flatten ++ tail) ↔
        Kept cfg rt.cm (deltas, failure)) := by
  cases failure with
  | none =>
    cases h
    refine ⟨_, [], ⟨rfl, ?_⟩, ?_⟩
    · exact (List.append_nil _).symm
    · rw [List.append_nil]
      exact strip_moderated_iff
  | some e =>
    unfold afterStream at h
    dsimp only at h
    split at h
    · obtain ⟨response, hadds⟩ := adds_yieldPipeline hcheck h
      refine ⟨response, response, hadds, ?_, ?_⟩
      · intro heq
        have hsolid := congrArg PyStr.solid heq
        rw [PyStr.solid_strip, PyStr.solid_strip, PyStr.solid_append] at hsolid
        exact List.append_left_eq_self.mp hsolid.symm
      · intro hblank
        exact (PyStr.strip_append hblank).symm
    · cases h

theorem streamChat_unstreamed (h : ¬ (cfg.wsStreamEnabled = true ∧ cfg.llmProvider = str "openai_compat")) :
    streamChat cfg rt vs env userId message = yieldPipeline (V := V) cfg rt vs env userId message := by
  unfold streamChat
  rw [if_pos]
  rw [Bool.or_eq_true, Bool.not_eq_true', decide_eq_true_eq]
  rcases not_and_or.mp h with hws | hprovider
  · exact Or.inl (Bool.eq_false_iff.mpr hws)
  · exact Or.inr hprovider

/-- A call that returns has come past the name handling. -/
theorem remembers_of_streamChat
    (hstream : cfg.wsStreamEnabled = true ∧ cfg.llmProvider = str "openai_compat")
    (hcheck : check rt.cm message = none)
    (h : streamChat cfg rt vs env userId message { chat := s, yielded := [] } = .ok () g) :
    ∃ name s₂, Remembers rt vs env.toNameEnv userId message s name s₂ ∧
      streamAnswer cfg rt vs env userId message name { chat := s₂, yielded := [] } = .ok () g := by
  unfold streamChat at h
  rw [if_neg (by simp [hstream.1, hstream.2]), hcheck] at h
  obtain ⟨_, g₁, hfirst, h⟩ := bind_eq_ok.mp h
  obtain ⟨s₁, hcapture, rfl⟩ := zoom_eq_ok.mp hfirst
  obtain ⟨name, g₂, hsecond, h⟩ := bind_eq_ok.mp h
  obtain ⟨s₂, hname, rfl⟩ := zoom_eq_ok.mp hsecond
  exact ⟨name, s₂, ⟨hcheck, s₁, hcapture, hname⟩, h⟩

theorem streamAnswer_none (env : StreamEnv) {deltas : List PyStr} {failure : Option PyExc}
    (hstream : env.stream (PersonaService.systemPrompt s.persona) message
      (s.sessions.get userId (some 10)) = (deltas, failure)) :
    streamAnswer cfg rt vs env userId message none { chat := s, yielded := [] } =
      afterStream cfg rt vs env userId message deltas failure { chat := s, yielded := deltas } := by
  unfold streamAnswer streamReply
  simp only [bind_run, get_run, hstream]
  rfl

/-- Past the refusal, a call that returns appends one turn of the assistant. -/
theorem adds_streamChat (hcheck : check rt.cm message = none)
    (h : streamChat cfg rt vs env userId message { chat := s, yielded := [] } = .ok () g) :
    ∃ content, g.chat.sessions = recorded s.sessions userId message content ∧
      (PyStr.strip content = PyStr.strip g.yielded.flatten ↔
        SeenInFull cfg rt vs env userId message s) := by
  by_cases hstream : cfg.wsStreamEnabled = true ∧ cfg.llmProvider = str "openai_compat"
  · obtain ⟨name, s₂, hrem, hrun⟩ := remembers_of_streamChat hstream hcheck h
    obtain ⟨hpersona, hsessions⟩ := hrem.frame
    cases name with
    | some n =>
      cases hrun
      refine ⟨nameAnswer n, congrArg (recorded · _ _ _) hsessions, ?_⟩
      refine iff_of_true (congrArg PyStr.strip (List.append_nil _).symm) ?_
      intro _ _ s' hrem'
      cases (hrem.unique hrem').1
    | none =>
      cases hd : env.stream (PersonaService.systemPrompt s.persona) message
        (s.sessions.get userId (some 10)) with
      | mk deltas failure =>
        have hafter := hd
        rw [← hpersona, ← hsessions] at hafter
        rw [streamAnswer_none env hafter] at hrun
        obtain ⟨content, tail, ⟨hrecorded, hyielded⟩, hiff⟩ := adds_afterStream hcheck hrun
        refine ⟨content, hrecorded.trans (congrArg (recorded · _ _ _) hsessions), ?_⟩
        rw [hyielded, hiff]
        constructor
        · intro hkept _ _ s' _
          rw [hd]
          exact hkept
        · intro hseen
          have hkept := hseen hstream.1 hstream.2 s₂ hrem
          rwa [hd] at hkept
  · rw [streamChat_unstreamed hstream] at h
    obtain ⟨response, hrecorded, hyielded⟩ := adds_yieldPipeline hcheck h
    refine ⟨response, hrecorded, ?_⟩
    rw [hyielded]
    refine iff_of_true rfl ?_
    intro hws hprovider
    exact absurd ⟨hws, hprovider⟩ hstream

theorem eq_of_getLast?_drop {α : Type} {xs : List α} {x y : α} {n : Nat}
    (h : ((xs ++ [x]).drop n).getLast? = some y) : y = x := by
  rw [List.getLast?_drop, List.getLast?_concat] at h
  split at h
  · cases h
  · exact (Option.some.inj h).symm

theorem eq_of_getLast?_add {sessions : SessionService} {role : PyStr} {turn : SessionTurn}
    (h : ((sessions.add userId role content).turnsOf userId).getLast? = some turn) :
    turn = ⟨role, content⟩ := by
  rw [SessionService.turnsOf_add, if_pos rfl, SessionService.trim] at h
  split at h
  · exact eq_of_getLast?_drop h
  · rw [List.getLast?_concat] at h
    exact (Option.some.inj h).symm

/-- The turn that a streamed call appends is, but for whitespace at its ends, the text of all the
deltas it yielded, exactly when the LLM's stream, if one answered, was kept. -/
theorem remembered_eq_seen_iff (h : Appends cfg rt vs env userId message s g content) :
    PyStr.strip content = PyStr.strip g.yielded.flatten ↔
      SeenInFull cfg rt vs env userId message s := by
  obtain ⟨content', hrecorded, hiff⟩ := adds_streamChat h.letIn h.returns
  have hlast := h.last
  rw [hrecorded] at hlast
  cases eq_of_getLast?_add hlast
  exact hiff

end Stream

def streamingConfig : ChatConfig :=
  { llmProvider := str "openai_compat", ollamaModel := [], openaiCompatModel := []
    llmStripThinking := true, wsStreamEnabled := true }

/-- A stream that breaks off after these deltas; `chat` then answers with `reply`. -/
def breakingOff (deltas : List PyStr) (reply : PyStr) : StreamEnv :=
  { streaming deltas with
    stream := fun _ _ _ => (deltas, some (.builtin "ConnectionError"))
    pipeline := { (streaming []).pipeline with llm := fun _ _ _ _ => .ok reply } }

theorem remembered_eq_seen_hello :
    ∃ g, Appends streamingConfig asciiRuntime .inert (streaming [str "Hel", str "lo"]) (str "u")
        (str "hi") firstState g (str "Hello") ∧
      (PyStr.strip (str "Hello") = PyStr.strip g.yielded.flatten ↔
        SeenInFull streamingConfig asciiRuntime .inert (streaming [str "Hel", str "lo"]) (str "u")
          (str "hi") firstState) :=
  have h : Appends streamingConfig asciiRuntime .inert (streaming [str "Hel", str "lo"]) (str "u")
      (str "hi") firstState _ (str "Hello") := ⟨rfl, rfl, rfl⟩
  ⟨_, h, remembered_eq_seen_iff h⟩

/-- The part of a reply that was seen before the stream broke off is not remembered. -/
theorem not_remembered_eq_seen :
    ¬ ∀ (V : Type) (cfg : ChatConfig) (rt : ChatRuntime) (vs : VectorStore V) (env : StreamEnv)
      (userId message content : PyStr) (s : ChatState V) (g : Gen V),
      Appends cfg rt vs env userId message s g content →
        PyStr.strip content = PyStr.strip g.yielded.flatten := by
  intro hall
  have h : Appends streamingConfig asciiRuntime .inert (breakingOff [str "Hel"] (str "Hello"))
      (str "u") (str "hi") firstState _ (str "Hello") := ⟨rfl, rfl, rfl⟩
  have heq := hall _ _ _ _ _ _ _ _ _ _ h
  revert heq
  decide

end Chat

end VirtualPerson
