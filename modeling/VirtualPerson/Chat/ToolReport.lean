import VirtualPerson.Chat.Keeping
import VirtualPerson.Chat.OutputSafety

/-!
# What a turn reports of its tools

A turn reads two replies of the LLM and hands a tool call to the registry between them. What its calls
were answered decides whether the tool has run, whether its action reaches the result, and whether the
first reply does.
-/

namespace VirtualPerson

set_option autoImplicit false

namespace ToolReport

variable {V : Type}

/-- The text of a reply that a turn goes on with. -/
def replyText (cfg : ChatConfig) (raw : PyStr) : PyStr :=
  if cfg.llmStripThinking then Chat.stripThinking raw else raw

/-- What the calls of a turn show of its tool use. -/
structure Reading (V : Type) where
  tools : List (ToolDef (World V))
  /-- The first reply. -/
  first : Option PyStr
  /-- The names that `tools.execute` was called with. -/
  called : List PyStr
  /-- Those of them that it ran, by its own answer. -/
  executed : List PyStr
  /-- What `tools.execute` returned. -/
  result : Option PyVal
  /-- The second reply, empty until there is one. -/
  second : PyStr
  /-- The first exception that a call raised from the tool's on. -/
  failure : Option PyExc
  recalled : List MemoryItem
  /-- How many of the recalled memories were ranked. -/
  hits : Nat

namespace Reading

def start : Reading V where
  tools := []
  first := none
  called := []
  executed := []
  result := none
  second := []
  failure := none
  recalled := []
  hits := 0

def raised (m : Reading V) (e : PyExc) : Reading V :=
  if m.called = [] then m else { m with failure := m.failure.or (some e) }

def note {α : Type} (m : Reading V) (keep : α → Reading V) : Except PyExc α → Reading V
  | .ok a => keep a
  | .error e => m.raised e

def read (cfg : ChatConfig) (m : Reading V) (ev : (AppSig V).Event) : Reading V :=
  match ev with
  | ⟨.listTools, a⟩ => m.note (fun tools => { m with tools }) a
  | ⟨.chat n _ _ _, a⟩ => m.note (fun raw =>
      if n = 0 then { m with first := some (replyText cfg raw) }
      else { m with second := replyText cfg raw }) a
  | ⟨.executeTool name _, a⟩ =>
    let m := { m with
      called := m.called ++ [name]
      executed := if ToolRegistry.ran a then m.executed ++ [name] else m.executed }
    m.note (fun result => { m with result := some result }) a
  | ⟨.retrieve _, a⟩ => m.note (fun recalled => { m with recalled }) a
  | ⟨.rate, a⟩ => m.note (fun (score, stale) =>
      let ranked := Curation.rankMemories stale (m.recalled.map (Curation.ScoredMemory.ofItem score)) 8
      { m with hits := ranked.length }) a
  | ⟨_, a⟩ => m.note (fun _ => m) a

def ofTrace (cfg : ChatConfig) (tr : List (AppSig V).Event) : Reading V := tr.foldl (read cfg) start

/-- How the part of the turn that follows the tool ended: with a reply, or with an exception. -/
def followUp (rt : ChatRuntime) (m : Reading V) (result : PyVal) : Except PyExc PyStr :=
  match m.failure with
  | some e => .error e
  | none => (rt.jsonDumps result).map fun _ => m.second

/-- The first reply is a call of a registered tool. -/
def Calls (rt : ChatRuntime) (m : Reading V) (raw name : PyStr) : Prop :=
  m.first = some raw ∧ ∃ params, Chat.toolCall rt m.tools raw = .ok (some (name, params))

end Reading

/-- The tool that an action names. -/
def actionTool : PyVal → Option PyStr
  | .dict action =>
    match PyDict.get? action (str "tool") with
    | some (.str name) => some name
    | _ => none
  | _ => none

/-- The result names the tools that were executed, and its response is not the raw tool call. -/
structure ToolUseReported (rt : ChatRuntime) (m : Reading V) (r : ChatResult) : Prop where
  tools : r.toolActions.map actionTool = m.executed.map some
  hidden : ∀ raw name, m.Calls rt raw name → r.response ≠ raw

/-- The text reaches the user as something else than the tool call. -/
def Veils (cm : CaseMap) (raw text : PyStr) : Prop := Chat.moderated cm text ≠ raw

/-- What follows the registry's answer is right for it. The action is kept by a second reply, or by an
exception that an `except` around the tool catches, where the tool call itself is the reply that is left:
then the tool must have run. Any other exception drops the action, so then it must not have. -/
def Suits (cm : CaseMap) (message : PyStr) (hits : Nat) (ran : Bool) (raw : PyStr) :
    Except PyExc PyStr → Prop
  | .ok text => ran = true ∧ Veils cm raw (PyStr.orElse text Chat.defaultReply)
  | .error e =>
    if Chat.toolLoopCatches e then ran = true ∧ Veils cm raw (PyStr.orElse raw Chat.defaultReply)
    else ran = false ∧ Veils cm raw (Chat.fallbackReply message hits)

/-- A tool call is answered by the registry, and what follows it suits the answer. -/
def Reading.Suited (rt : ChatRuntime) (message : PyStr) (m : Reading V) : Prop :=
  ∀ raw name, m.Calls rt raw name → ∃ result, m.result = some result ∧
    Suits rt.cm message m.hits (ToolRegistry.ran (.ok result)) raw (m.followUp rt result)

/-- The readings that the runs of a program end with. -/
abbrev Reads {α : Type} (cfg : ChatConfig) (ok : α → Reading V → Prop) (exc : PyExc → Reading V → Prop)
    (p : AppM V α) (m : Reading V) : Prop :=
  p.Follows (fun m ev => some (m.read cfg ev)) ok exc m

section Reads

variable {α β : Type} {cfg : ChatConfig} {m : Reading V}

theorem reads_perform {o : AppOp V} {ok : o.Result → Reading V → Prop}
    {exc : PyExc → Reading V → Prop} (hok : ∀ a, ok a (m.read cfg ⟨o, .ok a⟩))
    (hexc : ∀ e, exc e (m.read cfg ⟨o, .error e⟩)) : Reads cfg ok exc (perform o) m := by
  intro a
  refine ⟨_, rfl, ?_⟩
  cases a with
  | ok a => exact hok a
  | error e => exact hexc e

/-- A call that the reading ignores unless it raises. -/
def Beside : AppOp V → Prop
  | .listTools => False
  | .chat _ _ _ _ => False
  | .executeTool _ _ => False
  | .retrieve _ => False
  | .rate => False
  | _ => True

theorem read_beside {o : AppOp V} (ho : Beside o) (a : o.Result) : m.read cfg ⟨o, .ok a⟩ = m := by
  cases o <;> first | rfl | exact ho.elim

theorem read_beside_raised {o : AppOp V} (ho : Beside o) (e : PyExc) :
    m.read cfg ⟨o, .error e⟩ = m.raised e := by
  cases o <;> first | rfl | exact ho.elim

theorem raised_idle (h : m.called = []) (e : PyExc) : m.raised e = m := if_pos h

theorem reads_beside_bind {o : AppOp V} {f : o.Result → AppM V α} {ok : α → Reading V → Prop}
    {exc : PyExc → Reading V → Prop} (ho : Beside o) (hraised : ∀ e, exc e (m.raised e))
    (hf : ∀ a, Reads cfg ok exc (f a) m) : Reads cfg ok exc (perform o >>= f) m := by
  have hop : Reads cfg (fun _ m' => m' = m) exc (perform o) m := by
    apply reads_perform
    · exact fun a => read_beside ho a
    · intro e
      rw [read_beside_raised ho e]
      exact hraised e
  apply hop.bind
  intro a m' hm'
  rw [hm']
  exact hf a

/-- The `n`-th reply of the LLM. -/
theorem reads_llmCall {n : Nat} {systemPrompt userPrompt : PyStr} {history : List SessionTurn}
    {f : PyStr × PyStr → AppM V α} {ok : α → Reading V → Prop} {exc : PyExc → Reading V → Prop}
    (hraised : ∀ e, exc e (m.raised e))
    (hf : ∀ raw modelUsed, Reads cfg ok exc (f (replyText cfg raw, modelUsed))
      (if n = 0 then { m with first := some (replyText cfg raw) }
        else { m with second := replyText cfg raw })) :
    Reads cfg ok exc (Calls.llmCall cfg n systemPrompt userPrompt history >>= f) m := by
  intro a
  refine ⟨_, rfl, ?_⟩
  cases a with
  | ok raw => exact hf raw _
  | error e => exact hraised e

end Reads

section Loop

variable (cfg : ChatConfig) (rt : ChatRuntime) (message : PyStr) (hits : Nat)

/-- The registry was called once, and this is its answer. -/
structure Answered (raw name : PyStr) (result : PyVal) (m : Reading V) : Prop where
  calls : m.Calls rt raw name
  called : m.called = [name]
  executed : m.executed = if ToolRegistry.ran (.ok result) then [name] else []
  result : m.result = some result
  hits : m.hits = hits

/-- The turn called no tool. -/
structure Uncalled (m : Reading V) : Prop where
  executed : m.executed = []
  calls : ∀ raw name, ¬ m.Calls rt raw name

/-- The turn called a tool, and the registry raised. -/
def Lost (m : Reading V) : Prop :=
  ∃ raw name, m.Calls rt raw name ∧ m.executed = [name] ∧ m.result = none

/-- The registry answered, and an exception that no `except` around the tool catches followed. -/
def Cut (m : Reading V) : Prop :=
  ∃ raw name result e, Answered rt hits raw name result m ∧ m.followUp rt result = .error e ∧
    Chat.toolLoopCatches e = false

def Unreported (m : Reading V) : Prop := Uncalled rt m ∨ Lost rt m

/-- How the part of a turn with the tools raises -/
def Broken (e : PyExc) (m : Reading V) : Prop :=
  Unreported rt m ∨ Chat.toolLoopCatches e = false ∧ Cut rt hits m

/-- The text that is left of the turn's two replies. -/
def Leaves (raw text : PyStr) : Except PyExc PyStr → Prop
  | .ok text' => text = text'
  | .error e => Chat.toolLoopCatches e = true ∧ text = raw

/-- The registry's answer is kept as an action, with the text of one of the replies. -/
def Kept (text : PyStr) (actions : List PyVal) (m : Reading V) : Prop :=
  ∃ raw name result, Answered rt hits raw name result m ∧ actions.map actionTool = [some name] ∧
    Leaves raw text (m.followUp rt result)

/-- Where the loop returns from. -/
def Looped (text : PyStr) (actions : List PyVal) (m : Reading V) : Prop :=
  (Unreported rt m ∧ actions = []) ∨ Kept rt hits text actions m

variable {cfg rt message hits} {m : Reading V} {raw name : PyStr} {result : PyVal}

theorem Reading.Calls.unique {raw' name' : PyStr} (h : m.Calls rt raw name)
    (h' : m.Calls rt raw' name') : raw = raw' ∧ name = name' := by
  obtain ⟨hfirst, params, hcall⟩ := h
  obtain ⟨hfirst', params', hcall'⟩ := h'
  cases hfirst.symm.trans hfirst'
  cases hcall.symm.trans hcall'
  exact ⟨rfl, rfl⟩

theorem Answered.raised (h : Answered rt hits raw name result m) (hfailure : m.failure = none) (e : PyExc) :
    Answered rt hits raw name result (m.raised e) ∧ (m.raised e).followUp rt result = .error e := by
  have hm : m.raised e = { m with failure := some e } := by
    unfold Reading.raised
    rw [h.called, hfailure]
    exact if_neg (List.cons_ne_nil name [])
  rw [hm]
  exact ⟨⟨h.calls, h.called, h.executed, h.result, h.hits⟩, rfl⟩

/-- Between the tool and the second reply. -/
theorem reads_followup {userMessage modelUsed : PyStr} {history : List SessionTurn}
    {actions : List PyVal} (h : Answered rt hits raw name result m) (hfailure : m.failure = none) :
    Reads cfg
      (fun out m' => Answered rt hits raw name result m' ∧ m'.followUp rt result = .ok out.1 ∧
        out.2.2 = actions)
      (fun e m' => Answered rt hits raw name result m' ∧ m'.followUp rt result = .error e)
      (do
        perform (.log (str "tool_auto_exec") name)
        let text ← Prog.lift (rt.jsonDumps result)
        let followup := str "User message: " ++ userMessage ++ str "\nYou called tool '" ++ name ++
          str "' and got:\n" ++ text ++ str "\nNow answer the user naturally using this result."
        let persona ← perform .persona
        let (raw2, _) ← Calls.llmCall cfg 1 (PersonaService.systemPrompt persona) followup history
        return (raw2, modelUsed, actions) : AppM V (PyStr × PyStr × List PyVal)) m := by
  have hraised (e : PyExc) : Answered rt hits raw name result (m.raised e) ∧
      (m.raised e).followUp rt result = .error e := h.raised hfailure e
  apply reads_beside_bind
  · trivial
  · exact hraised
  intro _
  cases hdumps : rt.jsonDumps result with
  | error e =>
    refine ⟨h, ?_⟩
    unfold Reading.followUp
    rw [hfailure, hdumps]
    rfl
  | ok text =>
    apply reads_beside_bind
    · trivial
    · exact hraised
    intro persona
    apply reads_llmCall hraised
    intro raw2 _
    refine ⟨⟨h.calls, h.called, h.executed, h.result, h.hits⟩, ?_, rfl⟩
    unfold Reading.followUp
    dsimp only
    rw [if_neg Nat.one_ne_zero, hfailure, hdumps]
    rfl

/-- The first reply is read, and no tool is called. -/
structure Asked (hits : Nat) (raw : PyStr) (m : Reading V) : Prop where
  first : m.first = some raw
  called : m.called = []
  executed : m.executed = []
  result : m.result = none
  failure : m.failure = none
  hits : m.hits = hits

theorem Asked.uncalled (h : Asked hits raw m)
    (hcall : ∀ call, Chat.toolCall rt m.tools raw ≠ .ok (some call)) : Uncalled rt m := by
  refine ⟨h.executed, ?_⟩
  intro raw' name hcalls
  obtain ⟨hfirst, params, hcalls⟩ := hcalls
  cases h.first.symm.trans hfirst
  exact hcall _ hcalls

theorem Answered.kept {text : PyStr} {actions : List PyVal} (h : Answered rt hits raw name result m)
    (hactions : actions.map actionTool = [some name]) (htext : Leaves raw text (m.followUp rt result)) :
    Looped rt hits text actions m := .inr ⟨raw, name, result, h, hactions, htext⟩

/-- The tool's action is kept by the handler around what follows the tool. -/
theorem reads_handling {p : AppM V (PyStr × PyStr × List PyVal)} {modelUsed : PyStr}
    {actions : List PyVal} (hactions : actions.map actionTool = [some name])
    (hp : Reads cfg
      (fun out m' => Answered rt hits raw name result m' ∧ m'.followUp rt result = .ok out.1 ∧
        out.2.2 = actions)
      (fun e m' => Answered rt hits raw name result m' ∧ m'.followUp rt result = .error e) p m) :
    Reads cfg (fun out => Looped rt hits out.1 out.2.2) (Broken rt hits)
      (Calls.handling Chat.toolLoopCatches p fun _ => return (raw, modelUsed, actions)) m := by
  have hreturned : Reads cfg (fun out => Looped rt hits out.1 out.2.2)
      (fun e m' => Answered rt hits raw name result m' ∧ m'.followUp rt result = .error e) p m := by
    apply hp.imp
    · intro out m' hm'
      obtain ⟨hran, hfollow, hout⟩ := hm'
      apply hran.kept
      · rw [hout]
        exact hactions
      · rw [hfollow]
        exact rfl
    · exact fun _ _ hm' => hm'
  apply hreturned.catching
  intro e m' hm'
  obtain ⟨hran, hfollow⟩ := hm'
  split
  · rename_i he
    apply hran.kept hactions
    rw [hfollow]
    exact ⟨he, rfl⟩
  · rename_i he
    have hcaught := eq_false_of_ne_true he
    exact .inr ⟨hcaught, raw, name, result, e, hran, hfollow, hcaught⟩

theorem reads_toolFollowup {userMessage modelUsed : PyStr} {history : List SessionTurn}
    {params : PyVal} (h : Asked hits raw m)
    (hcall : Chat.toolCall rt m.tools raw = .ok (some (name, params))) :
    Reads cfg (fun out => Looped rt hits out.1 out.2.2) (Broken rt hits)
      (Calls.toolFollowup cfg rt userMessage history raw modelUsed name params) m := by
  have hcalls : m.Calls rt raw name := ⟨h.first, params, hcall⟩
  have hcalled : m.called ++ [name] = [name] := by rw [h.called, List.nil_append]
  have hexecuted : m.executed ++ [name] = [name] := by rw [h.executed, List.nil_append]
  intro a
  refine ⟨_, rfl, ?_⟩
  cases a with
  | error e =>
    -- what the registry raises comes from the tool, and leaves no answer to report
    change Broken rt hits e
      (Reading.raised { m with called := m.called ++ [name], executed := m.executed ++ [name] } e)
    have hne : m.called ++ [name] ≠ [] := by simp
    unfold Reading.raised
    rw [if_neg hne]
    exact .inl (.inr ⟨raw, name, hcalls, hexecuted, h.result⟩)
  | ok result =>
    have hanswered : Answered rt hits raw name result
        { m with
          called := m.called ++ [name]
          executed := if ToolRegistry.ran (.ok result) then m.executed ++ [name] else m.executed
          result := some result } :=
      { calls := hcalls
        called := hcalled
        executed := by
          dsimp only
          rw [hexecuted, h.executed]
        result := rfl
        hits := h.hits }
    exact reads_handling rfl (reads_followup hanswered h.failure)

/-- Before the first reply nothing is read but the tools and the memories. -/
structure Fresh (m : Reading V) : Prop where
  first : m.first = none
  called : m.called = []
  executed : m.executed = []
  result : m.result = none
  failure : m.failure = none

theorem fresh_start : Fresh (Reading.start : Reading V) := ⟨rfl, rfl, rfl, rfl, rfl⟩

theorem Fresh.uncalled (h : Fresh m) : Uncalled rt m := by
  refine ⟨h.executed, ?_⟩
  intro raw name hcalls
  cases h.first.symm.trans hcalls.1

theorem Fresh.raised (h : Fresh m) (e : PyExc) : Broken rt hits e (m.raised e) := by
  rw [raised_idle h.called]
  exact .inl (.inl h.uncalled)

theorem reads_toolCallLoop {userMessage memoryContext : PyStr} {history : List SessionTurn}
    (h : Fresh m) (hhits : m.hits = hits) :
    Reads cfg (fun out => Looped rt hits out.1 out.2.2) (Broken rt hits)
      (Calls.toolCallLoop cfg rt userMessage memoryContext history) m := by
  intro a
  refine ⟨_, rfl, ?_⟩
  cases a with
  | error e => exact h.raised e
  | ok tools =>
    have htools : Fresh { m with tools } := ⟨h.first, h.called, h.executed, h.result, h.failure⟩
    apply reads_beside_bind
    · trivial
    · exact fun e => htools.raised e
    intro persona
    apply reads_llmCall fun e => htools.raised e
    intro raw modelUsed
    have hasked : Asked hits (replyText cfg raw) { m with tools, first := some (replyText cfg raw) } :=
      ⟨rfl, h.called, h.executed, h.result, h.failure, hhits⟩
    refine Prog.Follows.catching ?_ fun e m' (hm' : Broken rt hits e m') => ?_
    · cases hcall : Chat.toolCall rt tools (replyText cfg raw) with
      | error e =>
        refine Or.inl (Or.inl (hasked.uncalled ?_))
        intro call hcall'
        cases hcall.symm.trans hcall'
      | ok call =>
        cases call with
        | none =>
          refine Or.inl ⟨Or.inl (hasked.uncalled ?_), rfl⟩
          intro call hcall'
          cases hcall.symm.trans hcall'
        | some call => exact reads_toolFollowup hasked hcall
    · split
      · rename_i he
        rcases hm' with hunreported | ⟨hcut, -⟩
        · exact .inl ⟨hunreported, rfl⟩
        · cases he.symm.trans hcut
      · exact hm'

/-- The reply of the draft, before its output check. -/
def Drafted (rt : ChatRuntime) (message : PyStr) (hits : Nat) (reply : PyStr) (actions : List PyVal)
    (m : Reading V) : Prop :=
  (Unreported rt m ∧ actions = []) ∨
    (Cut rt hits m ∧ actions = [] ∧ reply = Chat.fallbackReply message hits) ∨
    ∃ text, Kept rt hits text actions m ∧ reply = PyStr.orElse text Chat.defaultReply

theorem reads_draft {body : ChatTurnIn} (h : Fresh m) :
    Reads cfg (fun out m' => ∃ hits, Drafted rt body.message hits out.1 out.2.2 m') (fun _ _ => True)
      (Calls.draft cfg rt body) m := by
  intro a
  refine ⟨_, rfl, ?_⟩
  cases a with
  | error e => trivial
  | ok recalled =>
  intro a
  refine ⟨_, rfl, ?_⟩
  cases a with
  | error e => trivial
  | ok rating =>
  apply reads_beside_bind
  · trivial
  · exact fun _ => trivial
  intro history
  have hfresh : Fresh { m with
      recalled
      hits := (Curation.rankMemories rating.2
        (recalled.map (Curation.ScoredMemory.ofItem rating.1)) 8).length } :=
    ⟨h.first, h.called, h.executed, h.result, h.failure⟩
  apply Prog.Follows.catching
  · apply Prog.Follows.bind (reads_toolCallLoop hfresh rfl)
    intro out m' hm'
    rcases hm' with ⟨hunreported, hactions⟩ | hkept
    · exact ⟨m'.hits, .inl ⟨hunreported, hactions⟩⟩
    · exact ⟨_, .inr (.inr ⟨out.1, hkept, rfl⟩)⟩
  · intro e m' hm'
    split
    · rcases hm' with hunreported | ⟨-, hcut⟩
      · exact ⟨m'.hits, .inl ⟨hunreported, rfl⟩⟩
      · exact ⟨_, .inr (.inl ⟨hcut, rfl, rfl⟩)⟩
    · trivial

/-- The end of a turn: what it reports is settled. -/
def Fair (rt : ChatRuntime) (message : PyStr) (r : ChatResult) (m : Reading V) : Prop :=
  ToolUseReported rt m r ↔ m.Suited rt message

theorem fair_of_uncalled {r : ChatResult} (h : Uncalled rt m) (hactions : r.toolActions = []) :
    Fair rt message r m := by
  apply iff_of_true
  · refine ⟨?_, ?_⟩
    · rw [hactions, h.executed]
      rfl
    · intro raw name hcalls
      exact absurd hcalls (h.calls raw name)
  · intro raw name hcalls
    exact absurd hcalls (h.calls raw name)

theorem fair_of_lost {r : ChatResult} (h : Lost rt m) (hactions : r.toolActions = []) :
    Fair rt message r m := by
  obtain ⟨raw, name, hcalls, hexecuted, hnone⟩ := h
  apply iff_of_false
  · intro hreported
    have htools := hreported.tools
    rw [hactions, hexecuted] at htools
    cases htools
  · intro hsuited
    obtain ⟨result, hresult, -⟩ := hsuited raw name hcalls
    cases hnone.symm.trans hresult

/-- With the registry's answer the report is right where its two parts are. -/
theorem Answered.reported_iff {r : ChatResult} (h : Answered rt hits raw name result m) :
    ToolUseReported rt m r ↔
      r.toolActions.map actionTool = (if ToolRegistry.ran (.ok result) then [some name] else []) ∧
        r.response ≠ raw := by
  have hnames : m.executed.map some = if ToolRegistry.ran (.ok result) then [some name] else [] := by
    rw [h.executed]
    split <;> rfl
  rw [← hnames]
  constructor
  · exact fun hreported => ⟨hreported.tools, hreported.hidden raw name h.calls⟩
  · intro hparts
    obtain ⟨htools, hne⟩ := hparts
    refine ⟨htools, ?_⟩
    intro raw' name' hcalls'
    obtain ⟨rfl, -⟩ := h.calls.unique hcalls'
    exact hne

theorem Answered.suited_iff (h : Answered rt hits raw name result m) :
    m.Suited rt message ↔
      Suits rt.cm message hits (ToolRegistry.ran (.ok result)) raw (m.followUp rt result) := by
  constructor
  · intro hsuited
    obtain ⟨result', hresult', hsuits⟩ := hsuited raw name h.calls
    cases h.result.symm.trans hresult'
    rwa [h.hits] at hsuits
  · intro hsuits raw' name' hcalls'
    obtain ⟨rfl, -⟩ := h.calls.unique hcalls'
    refine ⟨result, h.result, ?_⟩
    rwa [h.hits]

theorem suits_caught {e : PyExc} {ran : Bool} (he : Chat.toolLoopCatches e = true) :
    Suits rt.cm message hits ran raw (.error e) ↔
      ran = true ∧ Veils rt.cm raw (PyStr.orElse raw Chat.defaultReply) := by
  rw [Suits, if_pos he]

theorem suits_cut {e : PyExc} {ran : Bool} (he : Chat.toolLoopCatches e = false) :
    Suits rt.cm message hits ran raw (.error e) ↔
      ran = false ∧ Veils rt.cm raw (Chat.fallbackReply message hits) := by
  rw [Suits, if_neg (by simp [he])]

theorem fair_of_cut {r : ChatResult} (h : Cut rt hits m) (hactions : r.toolActions = [])
    (hresponse : r.response = Chat.moderated rt.cm (Chat.fallbackReply message hits)) :
    Fair rt message r m := by
  obtain ⟨raw, name, result, e, hanswered, hfollow, he⟩ := h
  rw [Fair, hanswered.reported_iff, hanswered.suited_iff, hfollow, suits_cut he, hactions, hresponse]
  cases ToolRegistry.ran (.ok result) <;> simp [Veils]

theorem fair_of_kept {r : ChatResult} {text : PyStr} (h : Kept rt hits text r.toolActions m)
    (hresponse : r.response = Chat.moderated rt.cm (PyStr.orElse text Chat.defaultReply)) :
    Fair rt message r m := by
  obtain ⟨raw, name, result, hanswered, hactions, hleaves⟩ := h
  rw [Fair, hanswered.reported_iff, hanswered.suited_iff, hactions, hresponse]
  cases hfollow : m.followUp rt result with
  | ok text' =>
    rw [hfollow] at hleaves
    cases hleaves
    cases ToolRegistry.ran (.ok result) <;> simp [Suits, Veils]
  | error e =>
    rw [hfollow] at hleaves
    obtain ⟨he, rfl⟩ := hleaves
    rw [suits_caught he]
    cases ToolRegistry.ran (.ok result) <;> simp [Veils]

theorem fair_of_unreported {r : ChatResult} (h : Unreported rt m) (hactions : r.toolActions = []) :
    Fair rt message r m := by
  rcases h with huncalled | hlost
  · exact fair_of_uncalled huncalled hactions
  · exact fair_of_lost hlost hactions

end Loop

section Turn

variable {cfg : ChatConfig} {rt : ChatRuntime} {message : PyStr} {m : Reading V}
  {body : ChatTurnIn}

/-- What follows the reply leaves the reading as it is, or raises. -/
theorem reads_ending {r : ChatResult} {response : PyStr} (h : Fair rt message r m) :
    Reads cfg (Fair rt message) (fun _ _ => True)
      (do
        Calls.record body.userId body.message response
        perform (.log (str "chat_turn") (str "user=" ++ body.userId))
        return r : AppM V ChatResult) m := by
  have hrecord : Reads cfg (fun _ m' => m' = m) (fun _ _ => True)
      (Calls.record body.userId body.message response : AppM V Unit) m := by
    apply reads_beside_bind
    · trivial
    · exact fun _ => trivial
    intro _
    apply reads_perform
    · intro a
      apply read_beside
      trivial
    · exact fun _ => trivial
  apply hrecord.bind
  intro _ m' hm'
  rw [hm']
  apply reads_beside_bind
  · trivial
  · exact fun _ => trivial
  · intro _
    exact h

theorem reads_llmTurn (h : Fresh m) :
    Reads cfg (Fair rt body.message) (fun _ _ => True) (Calls.llmTurn cfg rt body) m := by
  apply Prog.Follows.bind (reads_draft h)
  intro out m' hm'
  obtain ⟨hits, hm'⟩ := hm'
  have hfair : Fair rt body.message
      { ok := true, response := Chat.moderated rt.cm out.1, model := some out.2.1, toolActions := out.2.2 }
      m' := by
    rcases hm' with ⟨hunreported, hactions⟩ | ⟨hcut, hactions, hreply⟩ | ⟨text, hkept, hreply⟩
    · exact fair_of_unreported hunreported hactions
    · apply fair_of_cut hcut hactions
      rw [hreply]
    · apply fair_of_kept hkept
      rw [hreply]
  dsimp only
  split
  · apply reads_beside_bind
    · trivial
    · exact fun _ => trivial
    · intro _
      exact reads_ending hfair
  · exact reads_ending hfair

theorem reads_ruleAnswer (h : Fresh m) (response : PyStr) (model : String) :
    Reads cfg (Fair rt body.message) (fun _ _ => True)
      (Calls.ruleAnswer body response model : AppM V ChatResult) m :=
  reads_ending (fair_of_uncalled h.uncalled rfl)

/-- The name handling shows nothing of a turn that has called no tool. -/
theorem Fresh.names {α β : Type} {p : AppM V α} {f : α → AppM V β} {ok : β → Reading V → Prop}
    (h : Fresh m) (hp : p.Only Calls.Naming) (hf : ∀ a, Reads cfg ok (fun _ _ => True) (f a) m) :
    Reads cfg ok (fun _ _ => True) (p >>= f) m := by
  have hstays : Reads cfg (fun _ m' => m' = m) (fun _ m' => m' = m) p m := by
    apply hp.keeps
    intro o ho a
    have hbeside : Beside o := by cases o <;> trivial
    cases a with
    | ok a => rw [read_beside hbeside]
    | error e => rw [read_beside_raised hbeside, raised_idle h.called]
  apply Prog.Follows.bind (hstays.imp (fun _ _ hm' => hm') fun _ _ _ => trivial)
  intro a m' hm'
  rw [hm']
  exact hf a

theorem reads_runChatTurn (h : Fresh m) :
    Reads cfg (Fair rt body.message) (fun _ _ => True) (Calls.runChatTurn cfg rt body) m := by
  unfold Calls.runChatTurn
  split
  · apply reads_beside_bind
    · trivial
    · exact fun _ => trivial
    · intro _
      exact fair_of_uncalled h.uncalled rfl
  · apply h.names (Calls.only_maybeCaptureUserName rt body.userId body.message)
    intro _
    apply h.names (Calls.only_rememberedName rt body.userId body.message)
    intro name
    unfold Calls.answer
    split
    · exact reads_ruleAnswer h _ _
    · split
      · apply reads_beside_bind
        · trivial
        · exact fun _ => trivial
        · intro persona
          exact reads_ruleAnswer h _ _
      · exact reads_llmTurn h

end Turn

/-- Whatever its calls are answered, a turn reports its tool use exactly when every call of a
registered tool is answered by the registry, and is followed by what suits the answer: after a run a reply
or a caught exception, after an answer that only asks for confirmation an exception that drops the action,
and either way a text that keeps the call from the user. -/
theorem toolUse_reported_iff (cfg : ChatConfig) (rt : ChatRuntime) (body : ChatTurnIn)
    {tr : List (AppSig V).Event} {r : ChatResult}
    (hrun : Prog.Runs (Calls.runChatTurn cfg rt body) tr (.ok r)) :
    ToolUseReported rt (Reading.ofTrace cfg tr) r ↔
      (Reading.ofTrace cfg tr).Suited rt body.message :=
  (reads_runChatTurn fresh_start).returned hrun

def saveMemory : PyStr := str "save_memory"

def sendMessage : PyStr := str "send_message"

def callText (tool : PyStr) : PyStr :=
  str "\x7b\"tool_call\": \x7b\"name\": \"" ++ tool ++ str "\", \"params\": \x7b\"key\": \"city\"\x7d\x7d\x7d"

def callParams : PyVal := .dict [(str "key", .str (str "city"))]

def callValue (tool : PyStr) : PyVal :=
  .dict [(str "tool_call", .dict [(str "name", .str tool), (str "params", callParams)])]

def callRuntime : ChatRuntime :=
  { Chat.asciiRuntime with
    jsonLoads := fun text =>
      if text = callText saveMemory then .ok (callValue saveMemory)
      else if text = callText sendMessage then .ok (callValue sendMessage)
      else .error (.builtin "JSONDecodeError") }

/-- A tool that runs as it is called, and one that waits for a confirmation -/
def callRegistry : ToolRegistry (World Unit) :=
  (Chat.firstState.tools.register saveMemory [] .write none).register sendMessage [] .external none

theorem toolCall_callText :
    Chat.toolCall callRuntime callRegistry.listTools (callText saveMemory) =
      .ok (some (saveMemory, callParams)) := by
  have hloads : callRuntime.jsonLoads (callText saveMemory) = .ok (callValue saveMemory) := by
    simp [callRuntime]
  unfold Chat.toolCall
  rw [hloads]
  rfl

theorem toolCall_sendText :
    Chat.toolCall callRuntime callRegistry.listTools (callText sendMessage) =
      .ok (some (sendMessage, callParams)) := by
  have hne : callText sendMessage ≠ callText saveMemory := by decide
  have hloads : callRuntime.jsonLoads (callText sendMessage) = .ok (callValue sendMessage) := by
    simp [callRuntime, hne]
  unfold Chat.toolCall
  rw [hloads]
  rfl

def callConfig : ChatConfig :=
  { llmProvider := str "openai_compat", ollamaModel := [], openaiCompatModel := str "m"
    llmStripThinking := false, wsStreamEnabled := true }

/-- An LLM that asks for the tool, and the services around it -/
def callAnswers (tool : PyStr) (second : Except PyExc PyStr) : (o : AppOp Unit) → Except PyExc o.Result
  | .listTools => .ok callRegistry.listTools
  | .persona => .ok Chat.firstState.persona
  | .chat n _ _ _ => if n = 0 then .ok (callText tool) else second
  | .executeTool name params =>
    Stateful.toExcept (ToolRegistry.execute PyExc.name 7 name params false callRegistry)
  | .retrieve _ => .ok []
  | .rate => .ok (fun _ => 0, fun _ _ => false)
  | .getSession _ _ => .ok []
  | .log _ _ => .ok ()
  | .addSession _ _ _ => .ok ()
  | _ => .error .attributeError

def callBody : ChatTurnIn := { userId := str "u", message := str "save it", style := none }

def callTurn : AppM Unit ChatResult := Calls.runChatTurn callConfig callRuntime callBody

def callRun (tool : PyStr) (second : Except PyExc PyStr) :
    List (AppSig Unit).Event × Except PyExc ChatResult :=
  Prog.answered (callAnswers tool second) callTurn

def callReading (tool : PyStr) (second : Except PyExc PyStr) : Reading Unit :=
  Reading.ofTrace callConfig (callRun tool second).1

def executes (tool : PyStr) : Except PyExc PyVal :=
  Stateful.toExcept (ToolRegistry.execute PyExc.name 7 tool callParams false callRegistry)

theorem ran_saveMemory : ToolRegistry.ran (executes saveMemory) = true :=
  (ToolRegistry.ran_execute _ _ _).mpr ⟨rfl, .inl rfl⟩

theorem not_ran_sendMessage : ToolRegistry.ran (executes sendMessage) ≠ true := by
  intro hran
  rcases ((ToolRegistry.ran_execute _ _ _).mp hran).2 with hfree | hconfirmed
  · cases hfree
  · cases hconfirmed

/-- A tool that has run is named, and the second reply is what the user gets. A call that waits for its
confirmation is named just the same. -/
theorem toolUse_reported_iff_saved :
    (∃ r, (callRun saveMemory (.ok (str "Saved."))).2 = .ok r ∧
        ToolUseReported callRuntime (callReading saveMemory (.ok (str "Saved."))) r) ∧
      ∃ r, (callRun sendMessage (.ok (str "Sent."))).2 = .ok r ∧
        ¬ ToolUseReported callRuntime (callReading sendMessage (.ok (str "Sent."))) r := by
  constructor
  · have hrun := Prog.runs_answered (callAnswers saveMemory (.ok (str "Saved."))) callTurn
    refine ⟨_, rfl, ?_⟩
    apply (toolUse_reported_iff _ _ _ hrun).mpr
    intro raw name hcalls
    obtain ⟨hfirst, -⟩ := hcalls
    cases hfirst
    refine ⟨_, rfl, ?_, ?_⟩
    · exact ran_saveMemory
    · change Chat.moderated .asciiOnly (str "Saved.") ≠ callText saveMemory
      decide
  · have hrun := Prog.runs_answered (callAnswers sendMessage (.ok (str "Sent."))) callTurn
    refine ⟨_, rfl, ?_⟩
    intro hreported
    have hsuited := (toolUse_reported_iff _ _ _ hrun).mp hreported
    obtain ⟨result, hresult, hran, -⟩ := hsuited (callText sendMessage) sendMessage
      ⟨rfl, callParams, toolCall_sendText⟩
    cases hresult
    exact not_ran_sendMessage hran

set_option maxRecDepth 2000 in
/-- The LLM client cannot decode its second answer: the user is shown the tool call. -/
theorem not_toolUse_reported :
    ¬ ∀ (V : Type) (cfg : ChatConfig) (rt : ChatRuntime) (body : ChatTurnIn)
      (tr : List (AppSig V).Event) (r : ChatResult),
      Prog.Runs (Calls.runChatTurn cfg rt body) tr (.ok r) →
        ToolUseReported rt (Reading.ofTrace cfg tr) r := by
  intro hall
  let run := callRun saveMemory (.error (.builtin "JSONDecodeError"))
  have hrun : Prog.Runs callTurn run.1 run.2 := Prog.runs_answered _ callTurn
  have hended : ∃ r, run.2 = .ok r ∧ r.response = callText saveMemory := ⟨_, rfl, rfl⟩
  obtain ⟨r, hr, hresponse⟩ := hended
  rw [hr] at hrun
  have hcalls : (Reading.ofTrace callConfig run.1).Calls callRuntime (callText saveMemory) saveMemory :=
    ⟨rfl, callParams, toolCall_callText⟩
  exact (hall Unit callConfig callRuntime callBody run.1 r hrun).hidden _ _ hcalls hresponse

end ToolReport

end VirtualPerson
