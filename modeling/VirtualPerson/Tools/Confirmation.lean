import Mathlib.Logic.Function.Basic
import VirtualPerson.Tools.Registry
import VirtualPerson.Transition

/-!
# Confirmations over whole runs

Calls on the registry by clients whose params are objects with addresses. A pending request
keeps its params object alive, so its id names one request as long as it is pending; once it
is confirmed the object can go and its address, and so the id, can come back.
-/

namespace VirtualPerson

set_option autoImplicit false

open Stateful ToolRegistry

structure Invocation where
  tool : PyStr
  risk : RiskTier
  params : PyVal

/-- The world of the handlers with a log of their calls. -/
structure Logged (W : Type) where
  world : W
  log : List Invocation

variable {W : Type}

/-- A handler that writes its calls to the log. -/
def logging (name : PyStr) (risk : RiskTier) (handler : PyVal → EStateM PyExc W PyVal)
    (params : PyVal) : EStateM PyExc (Logged W) PyVal := fun s =>
  match handler params s.world with
  | .ok result w => .ok result { world := w, log := s.log ++ [⟨name, risk, params⟩] }
  | .error e w => .error e { world := w, log := s.log ++ [⟨name, risk, params⟩] }

def ToolDef.logged (tool : ToolDef W) : ToolDef (Logged W) where
  name := tool.name
  description := tool.description
  risk := tool.risk
  handler := tool.handler.map (logging tool.name tool.risk)

/-- The registry, and the objects alive by their addresses. -/
structure ToolState (W : Type) where
  registry : ToolRegistry (Logged W)
  heap : Nat → Option PyVal

inductive ToolEvent (W : Type) where
  | alloc (address : Nat) (value : PyVal)
  | free (address : Nat)
  | register (tool : ToolDef W)
  /-- `address` is the `id()` of `params or {}`; `external` is the tier the tool has. -/
  | execute (name : PyStr) (address : Nat) (params : PyVal) (userConfirmed external : Bool)
      (answer : Except PyExc PyVal) (invoked : List Invocation)
  /-- `accepted` tells whether a pending request was found. -/
  | confirm (confirmId : PyStr) (accepted : Bool) (answer : Except PyExc PyVal)
      (invoked : List Invocation)

namespace ToolEvent

def invoked : ToolEvent W → List Invocation
  | .execute _ _ _ _ _ _ invoked => invoked
  | .confirm _ _ _ invoked => invoked
  | _ => []

/-- A call of the tool with `user_confirmed=True`. -/
def Confirms (tool : PyStr) : ToolEvent W → Prop
  | .execute name _ _ true _ _ _ => name = tool
  | _ => False

/-- A call that asked for a confirmation and returned its id. -/
def Requests (c tool : PyStr) (params : PyVal) : ToolEvent W → Prop
  | .execute name _ passed false _ (.ok (.dict answer)) _ =>
    name = tool ∧ passed.orElse (.dict []) = params ∧
      PyDict.get? answer (str "confirm_id") = some (.str c)
  | _ => False

/-- A call of an external tool without confirmation, with the params object at the address. -/
def Asks (tool : PyStr) (a : Nat) : ToolEvent W → Prop
  | .execute name address _ false true _ _ => name = tool ∧ address = a
  | _ => False

/-- A `confirm` with the id, found or not. -/
def Tries (c : PyStr) : ToolEvent W → Prop
  | .confirm c' _ _ _ => c' = c
  | _ => False

/-- A `confirm` that found its pending request. -/
def Accepts (c : PyStr) : ToolEvent W → Prop
  | .confirm c' accepted _ _ => c' = c ∧ accepted = true
  | _ => False

end ToolEvent

def answerOf {ε σ α : Type} : EStateM.Result ε σ α → Except ε α
  | .ok a _ => .ok a
  | .error e _ => .error e

namespace ToolState

/-- The calls logged on the way to `t`. -/
def invoked (s t : ToolState W) : List Invocation :=
  t.registry.world.log.drop s.registry.world.log.length

/-- A call of `execute`; a stored request keeps its params object alive. -/
def execute (excText : PyExc → PyStr) (s : ToolState W) (name : PyStr) (address : Nat)
    (params : PyVal) (userConfirmed : Bool) : ToolState W where
  registry := final (ToolRegistry.execute excText address name params userConfirmed s.registry)
  heap :=
    if s.registry.external name && !userConfirmed then
      Function.update s.heap address (some (params.orElse (.dict [])))
    else s.heap

def confirm (excText : PyExc → PyStr) (s : ToolState W) (c : PyStr) : ToolState W :=
  { s with registry := final (ToolRegistry.confirm excText c s.registry) }

def pending (s : ToolState W) (c : PyStr) : Option PendingCall :=
  Assoc.get? s.registry.pendingConfirmations c

end ToolState

/-- One event. A new object gets a free address, and one that a request refers to is not freed. -/
inductive ToolStep (excText : PyExc → PyStr) : ToolState W → ToolEvent W → ToolState W → Prop where
  | alloc {s : ToolState W} {a : Nat} (v : PyVal) (hfree : s.heap a = none) :
      ToolStep excText s (.alloc a v) { s with heap := Function.update s.heap a (some v) }
  | free {s : ToolState W} {a : Nat} (hunused : ∀ tool, s.pending (confirmId tool a) = none) :
      ToolStep excText s (.free a) { s with heap := Function.update s.heap a none }
  | register (s : ToolState W) (tool : ToolDef W) :
      ToolStep excText s (.register tool)
        { s with
          registry := s.registry.register tool.name tool.description tool.risk tool.logged.handler }
  | execute {s : ToolState W} (name : PyStr) (a : Nat) (params : PyVal) (userConfirmed : Bool)
      (hobject : s.heap a = if params.truthy then some params else none) :
      ToolStep excText s
        (.execute name a params userConfirmed (s.registry.external name)
          (answerOf (ToolRegistry.execute excText a name params userConfirmed s.registry))
          (s.invoked (s.execute excText name a params userConfirmed)))
        (s.execute excText name a params userConfirmed)
  | confirm (s : ToolState W) (c : PyStr) :
      ToolStep excText s
        (.confirm c (s.pending c).isSome (answerOf (ToolRegistry.confirm excText c s.registry))
          (s.invoked (s.confirm excText c)))
        (s.confirm excText c)

/-- Any sequence of calls on a new registry. -/
def toolSystem (W : Type) (excText : PyExc → PyStr) : System (ToolState W) (ToolEvent W) where
  init s := s.registry.tools = [] ∧ s.registry.pendingConfirmations = [] ∧ s.registry.world.log = [] ∧
    ∀ a, s.heap a = none
  step := ToolStep excText

namespace ToolState

variable {excText : PyExc → PyStr} {s t : ToolState W} {e : ToolEvent W} {ls : List (ToolEvent W)}

/-- The request behind a pending id, made and not confirmed since. -/
abbrev Outstanding (ls : List (ToolEvent W)) (c tool : PyStr) (params : PyVal) : Prop :=
  Since (ToolEvent.Requests c tool params) (ToolEvent.Accepts c) ls

/-- Every handler writes to the log. -/
def Logs (s : ToolState W) : Prop :=
  ∀ name tool, Assoc.get? s.registry.tools name = some tool →
    ∃ base : ToolDef W, base.name = name ∧ tool = base.logged

structure Inv (s : ToolState W) (ls : List (ToolEvent W)) : Prop where
  logs : s.Logs
  pinned : ∀ c p, s.pending c = some p → ∃ a, c = confirmId p.tool a ∧ s.heap a = some p.params
  filled : ∀ c p, s.pending c = some p → p.params.orElse (.dict []) = p.params
  outstanding : ∀ c p, s.pending c = some p →
    Since (fun e => ToolEvent.Requests c p.tool p.params e ∧
      ∃ a, c = confirmId p.tool a ∧ ToolEvent.Asks p.tool a e) (ToolEvent.Accepts c) ls

theorem orElse_orElse (v : PyVal) :
    (v.orElse (.dict [])).orElse (.dict []) = v.orElse (.dict []) := by
  unfold PyVal.orElse
  cases h : v.truthy with
  | true => simp [h]
  | false => rfl

/-- A logged registry calls one handler at most, and logs it under the tool's name and tier. -/
theorem log_worldAfter (hlogs : s.Logs) (name : PyStr) (params : PyVal) :
    ∃ calls, (s.registry.worldAfter name params).log = s.registry.world.log ++ calls ∧
      calls.length ≤ 1 ∧
      ∀ i ∈ calls, i.tool = name ∧ i.params = params.orElse (.dict []) ∧
        (i.risk = .external → s.registry.external name = true) := by
  unfold worldAfter
  cases htool : Assoc.get? s.registry.tools name with
  | none => exact ⟨[], (List.append_nil _).symm, Nat.zero_le 1, by simp⟩
  | some tool =>
    obtain ⟨base, rfl, rfl⟩ := hlogs name tool htool
    cases hh : base.handler with
    | none =>
      have hnone : base.logged.handler = none := by simp [ToolDef.logged, hh]
      rw [Option.bind_some, hnone]
      exact ⟨[], (List.append_nil _).symm, Nat.zero_le 1, by simp⟩
    | some handler =>
      have hsome : base.logged.handler = some (logging base.name base.risk handler) := by
        simp [ToolDef.logged, hh]
      rw [Option.bind_some, hsome]
      refine ⟨[⟨base.name, base.risk, params.orElse (.dict [])⟩], ?_, Nat.le_refl 1, ?_⟩
      · dsimp only
        unfold logging
        cases handler (params.orElse (.dict [])) s.registry.world.world <;> rfl
      · intro i hi
        rw [List.mem_singleton.mp hi]
        exact ⟨rfl, rfl, fun hrisk => external_iff.mpr ⟨base.logged, htool, hrisk⟩⟩

theorem Inv.keep (h : Inv s ls) (hlogs : t.Logs)
    (hpending : ∀ c p, t.pending c = some p → s.pending c = some p ∧ ¬ e.Accepts c)
    (hheap : ∀ c p a, t.pending c = some p → c = confirmId p.tool a → s.heap a = some p.params →
      t.heap a = some p.params) : Inv t (ls ++ [e]) := by
  constructor
  · exact hlogs
  · intro c p hp
    obtain ⟨a, hc, ha⟩ := h.pinned c p (hpending c p hp).1
    exact ⟨a, hc, hheap c p a hp hc ha⟩
  · intro c p hp
    exact h.filled c p (hpending c p hp).1
  · intro c p hp
    exact (h.outstanding c p (hpending c p hp).1).snoc (hpending c p hp).2

theorem pending_confirm (c c' : PyStr) :
    (s.confirm excText c).pending c' = if c' = c then none else s.pending c' := by
  unfold pending confirm
  dsimp only
  cases h : Assoc.get? s.registry.pendingConfirmations c with
  | none =>
    rw [confirm_rejects excText h]
    split
    · rename_i heq
      rw [heq, h]
    · rfl
  | some p =>
    rw [confirm_runs excText h]
    dsimp only
    split
    · rename_i heq
      rw [heq, Assoc.get?_erase_self]
    · rename_i hne
      exact Assoc.get?_erase_ne _ (Ne.symm hne)

theorem tools_confirm (c : PyStr) : (s.confirm excText c).registry.tools = s.registry.tools := by
  unfold confirm
  dsimp only
  cases h : Assoc.get? s.registry.pendingConfirmations c with
  | none => rw [confirm_rejects excText h]
  | some p => rw [confirm_runs excText h]

theorem execute_eq_of_asks {a : Nat} (params : PyVal) {name : PyStr}
    (hexternal : s.registry.external name = true) :
    s.execute excText name a params false =
      { registry :=
          { s.registry with
            pendingConfirmations := Assoc.set s.registry.pendingConfirmations (confirmId name a)
              { tool := name, params := params.orElse (.dict []) } }
        heap := Function.update s.heap a (some (params.orElse (.dict []))) } := by
  unfold execute
  rw [execute_asks excText a params hexternal, hexternal]
  rfl

theorem pending_of_asks {a : Nat} (params : PyVal) {name : PyStr}
    (hexternal : s.registry.external name = true) (c : PyStr) :
    (s.execute excText name a params false).pending c =
      if c = confirmId name a then some { tool := name, params := params.orElse (.dict []) }
      else s.pending c := by
  rw [execute_eq_of_asks params hexternal]
  change Assoc.get? (Assoc.set _ _ _) c = _
  split
  · rename_i hc
    rw [hc, Assoc.get?_set_self]
  · rename_i hc
    exact Assoc.get?_set_ne _ _ (Ne.symm hc)

theorem Inv.params_eq (h : Inv s ls) {a : Nat} {params : PyVal}
    (hobject : s.heap a = if params.truthy then some params else none) {c : PyStr} {p : PendingCall}
    (hp : s.pending c = some p) (hc : c = confirmId p.tool a) :
    p.params = params.orElse (.dict []) := by
  obtain ⟨a', hc', ha'⟩ := h.pinned c p hp
  have haddress : a' = a := (confirmId_inj.mp (hc'.symm.trans hc)).2
  rw [haddress, hobject] at ha'
  unfold PyVal.orElse
  split at ha'
  · rename_i htruthy
    rw [if_pos htruthy]
    exact (Option.some.inj ha').symm
  · cases ha'

theorem Inv.asks (h : Inv s ls) {a : Nat} {params : PyVal} {name : PyStr}
    (hobject : s.heap a = if params.truthy then some params else none)
    (hexternal : s.registry.external name = true)
    (he : e.Requests (confirmId name a) name (params.orElse (.dict []))) (hasks : e.Asks name a)
    (hno : ∀ c, ¬ e.Accepts c) :
    Inv (s.execute excText name a params false) (ls ++ [e]) := by
  have hpending (c : PyStr) : (s.execute excText name a params false).pending c = _ :=
    pending_of_asks params hexternal c
  have hheap : (s.execute excText name a params false).heap =
      Function.update s.heap a (some (params.orElse (.dict []))) := by
    rw [execute_eq_of_asks params hexternal]
  constructor
  · rw [execute_eq_of_asks params hexternal]
    exact h.logs
  · intro c p hp
    rw [hheap]
    rw [hpending] at hp
    split at hp
    · rename_i hc
      cases hp
      exact ⟨a, hc, Function.update_self _ _ _⟩
    · obtain ⟨a', hc, ha'⟩ := h.pinned c p hp
      refine ⟨a', hc, ?_⟩
      by_cases haddress : a' = a
      · rw [haddress, Function.update_self, h.params_eq hobject hp (haddress ▸ hc)]
      · rw [Function.update_of_ne haddress, ha']
  · intro c p hp
    rw [hpending] at hp
    split at hp
    · cases hp
      exact orElse_orElse params
    · exact h.filled c p hp
  · intro c p hp
    rw [hpending] at hp
    split at hp
    · rename_i hc
      cases hp
      rw [hc]
      exact .mark_last ⟨he, a, rfl, hasks⟩
    · exact (h.outstanding c p hp).snoc (hno c)

theorem execute_eq_of_runs {a : Nat} (params : PyVal) {name : PyStr} {userConfirmed : Bool}
    (hruns : s.registry.external name = false ∨ userConfirmed = true) :
    s.execute excText name a params userConfirmed =
      { s with registry := { s.registry with world := s.registry.worldAfter name params } } := by
  unfold execute
  rw [execute_runs excText a params hruns, if_neg]
  rcases hruns with hr | hr <;> simp [hr]

theorem asks_or_runs (s : ToolState W) (name : PyStr) (userConfirmed : Bool) :
    (s.registry.external name = true ∧ userConfirmed = false) ∨
      (s.registry.external name = false ∨ userConfirmed = true) := by
  cases s.registry.external name <;> cases userConfirmed <;> simp

theorem Inv.step (h : Inv s ls) (hst : ToolStep excText s e t) : Inv t (ls ++ [e]) := by
  cases hst with
  | @alloc a v hfree =>
    apply h.keep
    · exact h.logs
    · intro c p hp
      exact ⟨hp, fun hno => hno⟩
    · intro c p a' _ _ ha'
      have hne : a' ≠ a := fun heq => by rw [heq, hfree] at ha'; cases ha'
      exact (Function.update_of_ne hne _ _).trans ha'
  | @free a hunused =>
    apply h.keep
    · exact h.logs
    · intro c p hp
      exact ⟨hp, fun hno => hno⟩
    · intro c p a' hp hc ha'
      have hne : a' ≠ a := by
        intro heq
        rw [heq] at hc
        have hnone := hunused p.tool
        rw [← hc] at hnone
        exact absurd (hp.symm.trans hnone) (Option.some_ne_none p)
      exact (Function.update_of_ne hne _ _).trans ha'
  | register tool =>
    apply h.keep
    · intro name tool' htool'
      by_cases hname : tool.name = name
      · change Assoc.get? (Assoc.set s.registry.tools tool.name tool.logged) name = _ at htool'
        rw [← hname, Assoc.get?_set_self] at htool'
        exact ⟨tool, hname, (Option.some.inj htool').symm⟩
      · change Assoc.get? (Assoc.set s.registry.tools tool.name tool.logged) name = _ at htool'
        rw [Assoc.get?_set_ne _ _ hname] at htool'
        exact h.logs name tool' htool'
    · intro c p hp
      exact ⟨hp, fun hno => hno⟩
    · intro c p a _ _ ha
      exact ha
  | execute name a params userConfirmed hobject =>
    rcases s.asks_or_runs name userConfirmed with ⟨hexternal, rfl⟩ | hruns
    · apply h.asks hobject hexternal
      · rw [execute_asks excText a params hexternal]
        exact ⟨rfl, rfl, rfl⟩
      · rw [hexternal]
        exact ⟨rfl, rfl⟩
      · intro c hno
        exact hno
    · rw [execute_eq_of_runs params hruns]
      apply h.keep
      · exact h.logs
      · intro c p hp
        exact ⟨hp, fun hno => hno⟩
      · intro c p a _ _ ha
        exact ha
  | confirm c =>
    apply h.keep
    · intro name tool htool
      rw [tools_confirm] at htool
      exact h.logs name tool htool
    · intro c' p hp
      rw [pending_confirm] at hp
      split at hp
      · cases hp
      · rename_i hne
        exact ⟨hp, fun hno => hne hno.1.symm⟩
    · intro c' p a _ _ ha
      exact ha

theorem Inv.of_run {s₀ : ToolState W} (h₀ : (toolSystem W excText).init s₀)
    (hrun : (toolSystem W excText).Run s₀ ls s) : Inv s ls := by
  obtain ⟨htools, hpending, -, -⟩ := h₀
  have hnone (c : PyStr) : s₀.pending c = none := by rw [pending, hpending]; rfl
  have hinit : Inv s₀ [] := by
    constructor
    · intro name tool htool
      rw [htools] at htool
      cases htool
    · intro c p hp
      cases (hnone c).symm.trans hp
    · intro c p hp
      cases (hnone c).symm.trans hp
    · intro c p hp
      cases (hnone c).symm.trans hp
  exact hrun.invariant_labels (I := fun s ls => Inv s ls) (fun h hst => h.step hst) hinit

theorem invoked_eq {calls : List Invocation}
    (h : t.registry.world.log = s.registry.world.log ++ calls) : s.invoked t = calls := by
  rw [invoked, h, List.drop_left]

theorem Inv.pending_eq (h : Inv s ls) (hst : ToolStep excText s e t) {c : PyStr} {p p' : PendingCall}
    (hp : s.pending c = some p) (hp' : t.pending c = some p') : p' = p := by
  cases hst with
  | alloc => exact Option.some.inj (hp'.symm.trans hp)
  | free => exact Option.some.inj (hp'.symm.trans hp)
  | register => exact Option.some.inj (hp'.symm.trans hp)
  | execute name a params userConfirmed hobject =>
    rcases s.asks_or_runs name userConfirmed with ⟨hexternal, rfl⟩ | hruns
    · rw [pending_of_asks params hexternal] at hp'
      split at hp'
      · rename_i hc
        cases hp'
        obtain ⟨a', hc', -⟩ := h.pinned c p hp
        obtain ⟨htool, haddress⟩ := confirmId_inj.mp (hc'.symm.trans hc)
        have hparams := h.params_eq hobject hp (haddress ▸ hc')
        obtain ⟨tool, pparams⟩ := p
        cases htool
        cases hparams
        rfl
      · exact Option.some.inj (hp'.symm.trans hp)
    · rw [execute_eq_of_runs params hruns] at hp'
      exact Option.some.inj (hp'.symm.trans hp)
  | confirm c' =>
    rw [pending_confirm] at hp'
    split at hp'
    · cases hp'
    · exact Option.some.inj (hp'.symm.trans hp)

theorem invoked_of_asks {a : Nat} (params : PyVal) {name : PyStr}
    (hexternal : s.registry.external name = true) :
    s.invoked (s.execute excText name a params false) = [] := by
  apply invoked_eq
  rw [execute_eq_of_asks params hexternal, List.append_nil]

theorem invoked_of_runs (hlogs : s.Logs) {a : Nat} (params : PyVal) {name : PyStr}
    {userConfirmed : Bool} (hruns : s.registry.external name = false ∨ userConfirmed = true) :
    (s.invoked (s.execute excText name a params userConfirmed)).length ≤ 1 ∧
      ∀ i ∈ s.invoked (s.execute excText name a params userConfirmed),
        i.tool = name ∧ (i.risk = .external → s.registry.external name = true) := by
  obtain ⟨calls, hlog, hone, hcalls⟩ := log_worldAfter hlogs name params
  have hinvoked : s.invoked (s.execute excText name a params userConfirmed) = calls := by
    apply invoked_eq
    rw [execute_eq_of_runs params hruns]
    exact hlog
  rw [hinvoked]
  exact ⟨hone, fun i hi => ⟨(hcalls i hi).1, (hcalls i hi).2.2⟩⟩

theorem invoked_confirm_none {c : PyStr} (hp : s.pending c = none) :
    s.invoked (s.confirm excText c) = [] := by
  apply invoked_eq
  unfold confirm
  dsimp only
  rw [confirm_rejects excText hp, List.append_nil]

theorem invoked_confirm_some (hlogs : s.Logs) {c : PyStr} {p : PendingCall}
    (hp : s.pending c = some p) :
    (s.invoked (s.confirm excText c)).length ≤ 1 ∧
      ∀ i ∈ s.invoked (s.confirm excText c),
        i.tool = p.tool ∧ i.params = p.params.orElse (.dict []) := by
  obtain ⟨calls, hlog, hone, hcalls⟩ := log_worldAfter hlogs p.tool p.params
  have hinvoked : s.invoked (s.confirm excText c) = calls := by
    apply invoked_eq
    unfold confirm
    dsimp only
    rw [confirm_runs excText hp]
    exact hlog
  rw [hinvoked]
  exact ⟨hone, fun i hi => ⟨(hcalls i hi).1, (hcalls i hi).2.1⟩⟩

/-- What an event calls: one handler at most, and an external one by a confirmed call or on a
pending request. -/
theorem Inv.invoked (h : Inv s ls) (hst : ToolStep excText s e t) :
    e.invoked.length ≤ 1 ∧
      ∀ i ∈ e.invoked, i.risk = .external →
        e.Confirms i.tool ∨
          ∃ c, e.Accepts c ∧ s.pending c = some { tool := i.tool, params := i.params } := by
  cases hst with
  | alloc => exact ⟨Nat.zero_le 1, by simp [ToolEvent.invoked]⟩
  | free => exact ⟨Nat.zero_le 1, by simp [ToolEvent.invoked]⟩
  | register => exact ⟨Nat.zero_le 1, by simp [ToolEvent.invoked]⟩
  | execute name a params userConfirmed hobject =>
    rw [ToolEvent.invoked]
    rcases s.asks_or_runs name userConfirmed with ⟨hexternal, rfl⟩ | hruns
    · rw [invoked_of_asks params hexternal]
      exact ⟨Nat.zero_le 1, by simp⟩
    · obtain ⟨hone, hcalls⟩ := invoked_of_runs h.logs params hruns
      refine ⟨hone, ?_⟩
      intro i hi hrisk
      obtain ⟨hname, hexternal⟩ := hcalls i hi
      left
      rcases hruns with hfalse | rfl
      · rw [hexternal hrisk] at hfalse
        cases hfalse
      · exact hname.symm
  | confirm c =>
    rw [ToolEvent.invoked]
    cases hp : s.pending c with
    | none =>
      rw [invoked_confirm_none hp]
      exact ⟨Nat.zero_le 1, by simp⟩
    | some p =>
      obtain ⟨hone, hcalls⟩ := invoked_confirm_some h.logs hp
      refine ⟨hone, ?_⟩
      intro i hi hrisk
      obtain ⟨hname, hparams⟩ := hcalls i hi
      right
      refine ⟨c, ⟨rfl, rfl⟩, ?_⟩
      rw [hp, hname, hparams, h.filled c p hp]

theorem pending_of_accepts (hst : ToolStep excText s e t) {c : PyStr} (hc : e.Accepts c) :
    ∃ p, s.pending c = some p := by
  cases hst with
  | confirm c' =>
    obtain ⟨rfl, hsome⟩ := hc
    exact Option.isSome_iff_exists.mp hsome
  | _ => cases hc

/-- An external tool runs on a confirmed call or on an outstanding request. -/
theorem external_tools_approved {s₀ : ToolState W} (h₀ : (toolSystem W excText).init s₀)
    (hrun : (toolSystem W excText).Run s₀ ls s) (hst : (toolSystem W excText).step s e t) :
    (∀ i ∈ e.invoked, i.risk = .external →
      e.Confirms i.tool ∨ ∃ c, e.Accepts c ∧ Outstanding ls c i.tool i.params) ∧
    e.invoked.length ≤ 1 ∧
    (∀ c, e.Accepts c → ∃ tool params, Outstanding ls c tool params) ∧
    ∀ c p p', s.pending c = some p → t.pending c = some p' → p' = p := by
  have hinv := Inv.of_run h₀ hrun
  obtain ⟨hone, hexternal⟩ := hinv.invoked hst
  refine ⟨?_, hone, ?_, ?_⟩
  · intro i hi hrisk
    rcases hexternal i hi hrisk with hconfirms | ⟨c, hc, hp⟩
    · exact .inl hconfirms
    · exact .inr ⟨c, hc, (hinv.outstanding c _ hp).mono fun x hx => hx.1⟩
  · intro c hc
    obtain ⟨p, hp⟩ := pending_of_accepts hst hc
    exact ⟨p.tool, p.params, (hinv.outstanding c p hp).mono fun x hx => hx.1⟩
  · intro c p p' hp hp'
    exact hinv.pending_eq hst hp hp'

def empty : ToolState Unit where
  registry := { tools := [], pendingConfirmations := [], world := { world := (), log := [] } }
  heap := fun _ => none

def sendMessage : ToolDef Unit where
  name := str "send_message"
  description := str "Send a message to someone (requires confirmation)"
  risk := .external
  handler := some fun params => pure params

def message (text : String) : PyVal := .dict [(str "text", .str (str text))]

/-- A message that is asked for and then confirmed. -/
theorem external_tools_approved_message :
    ∃ (ls : List (ToolEvent Unit)) (s : ToolState Unit) (e : ToolEvent Unit) (t : ToolState Unit),
      (toolSystem Unit PyExc.name).Run empty ls s ∧ e.invoked.length = 1 ∧
      ((∀ i ∈ e.invoked, i.risk = .external →
        e.Confirms i.tool ∨ ∃ c, e.Accepts c ∧ Outstanding ls c i.tool i.params) ∧
      e.invoked.length ≤ 1 ∧
      (∀ c, e.Accepts c → ∃ tool params, Outstanding ls c tool params) ∧
      ∀ c p p', s.pending c = some p → t.pending c = some p' → p' = p) := by
  have hrun :=
    System.Run.cons (A := toolSystem Unit PyExc.name) (ToolStep.register empty sendMessage) <|
    .cons (ToolStep.alloc (a := 1) (message "hello") rfl) <|
    .cons (ToolStep.execute (str "send_message") 1 (message "hello") false rfl) <| .nil _
  refine ⟨_, _, _, _, hrun, ?_, external_tools_approved ⟨rfl, rfl, rfl, fun _ => rfl⟩ hrun
    (ToolStep.confirm _ (confirmId (str "send_message") 1))⟩
  rfl

end ToolState

end VirtualPerson
