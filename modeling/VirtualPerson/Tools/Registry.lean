import VirtualPerson.Python.Value
import VirtualPerson.Stateful

/-!
# The tool registry

Tools with risk tiers; an external tool waits for a confirmation. Handlers act on
the world `σ` beside the registry.
-/

namespace VirtualPerson

set_option autoImplicit false

inductive RiskTier where
  | read
  | write
  | external
  deriving DecidableEq

def RiskTier.value : RiskTier → PyStr
  | .read => str "read"
  | .write => str "write"
  | .external => str "external"

structure ToolDef (σ : Type) where
  name : PyStr
  description : PyStr
  risk : RiskTier
  /-- `handler(**params)`, the errors of a bad `params` included. -/
  handler : Option (PyVal → EStateM PyExc σ PyVal)

structure PendingCall where
  tool : PyStr
  params : PyVal

structure ToolRegistry (σ : Type) where
  tools : List (PyStr × ToolDef σ)
  pendingConfirmations : List (PyStr × PendingCall)
  world : σ

namespace ToolRegistry

variable {σ : Type}

/-- The tools that `list_tools` describes, in the order of their registration. -/
def listTools (r : ToolRegistry σ) : List (ToolDef σ) := Assoc.values r.tools

/-- `confirm_{name}_{id(params)}` -/
def confirmId (name : PyStr) (paramsId : Nat) : PyStr :=
  str "confirm_" ++ name ++ str "_" ++ str (toString paramsId)

/-- `execute`; `paramsId` is the `id()` of the params. Exceptions of the handler become errors. -/
def execute (excText : PyExc → PyStr) (paramsId : Nat) (name : PyStr) (params : PyVal)
    (userConfirmed : Bool) : EStateM PyExc (ToolRegistry σ) PyVal := fun r =>
  match Assoc.get? r.tools name with
  | none =>
    .ok (.dict [(str "ok", .bool false), (str "error", .str (str "Unknown tool: " ++ name))]) r
  | some tool =>
    let params := params.orElse (.dict [])
    if tool.risk = .external ∧ userConfirmed = false then
      .ok
        (.dict [(str "ok", .bool false), (str "needs_confirmation", .bool true),
          (str "confirm_id", .str (confirmId name paramsId)),
          (str "message", .str (str "Action '" ++ name ++
            str "' requires your confirmation before executing. Reply with confirm_id to approve."))])
        { r with
          pendingConfirmations :=
            Assoc.set r.pendingConfirmations (confirmId name paramsId) { tool := name, params } }
    else
      match tool.handler with
      | none =>
        .ok
          (.dict [(str "ok", .bool true), (str "tool", .str name), (str "risk", .str tool.risk.value),
            (str "result", .str (str "[stub] " ++ name ++ str " executed"))]) r
      | some handler =>
        match handler params r.world with
        | .ok result w =>
          .ok
            (.dict [(str "ok", .bool true), (str "tool", .str name),
              (str "risk", .str tool.risk.value), (str "result", result)])
            { r with world := w }
        | .error e w =>
          if e.isException then
            .ok
              (.dict [(str "ok", .bool false), (str "tool", .str name), (str "error", .str (excText e))])
              { r with world := w }
          else .error e { r with world := w }

def register (r : ToolRegistry σ) (name description : PyStr) (risk : RiskTier)
    (handler : Option (PyVal → EStateM PyExc σ PyVal)) : ToolRegistry σ :=
  { r with tools := Assoc.set r.tools name { name, description, risk, handler } }

/-- `confirm`; a confirmed call takes no `id()`. -/
def confirm (excText : PyExc → PyStr) (confirmId : PyStr) : EStateM PyExc (ToolRegistry σ) PyVal :=
  fun r =>
    match Assoc.get? r.pendingConfirmations confirmId with
    | none =>
      .ok
        (.dict [(str "ok", .bool false),
          (str "error", .str (str "No pending confirmation with that id"))]) r
    | some pending =>
      execute excText 0 pending.tool pending.params true
        { r with pendingConfirmations := Assoc.erase r.pendingConfirmations confirmId }

def external (r : ToolRegistry σ) (name : PyStr) : Bool :=
  (Assoc.get? r.tools name).any fun tool => tool.risk = .external

/-- What an external tool answers to a call without confirmation. -/
def asking (name : PyStr) (paramsId : Nat) : PyVal :=
  .dict [(str "ok", .bool false), (str "needs_confirmation", .bool true),
    (str "confirm_id", .str (confirmId name paramsId)),
    (str "message", .str (str "Action '" ++ name ++
      str "' requires your confirmation before executing. Reply with confirm_id to approve."))]

/-- The world after the tool's handler has run, where it has one. -/
def worldAfter (r : ToolRegistry σ) (name : PyStr) (params : PyVal) : σ :=
  match (Assoc.get? r.tools name).bind ToolDef.handler with
  | none => r.world
  | some handler => Stateful.final (handler (params.orElse (.dict [])) r.world)

/-- Whether the tool has run, by what `execute` answers: only then does the answer name the tool, or an
exception of the handler come through. -/
def ran : Except PyExc PyVal → Bool
  | .ok (.dict answer) => (PyDict.get? answer (str "tool")).isSome
  | .ok _ => false
  | .error _ => true

section Cases

variable (excText : PyExc → PyStr) (paramsId : Nat) {name : PyStr} (params : PyVal)
  {userConfirmed : Bool} {r : ToolRegistry σ}

theorem external_iff :
    r.external name = true ↔ ∃ tool, Assoc.get? r.tools name = some tool ∧ tool.risk = .external := by
  rw [external, Option.any_eq_true]
  simp only [decide_eq_true_eq]

theorem execute_asks (h : r.external name = true) :
    execute excText paramsId name params false r =
      .ok (asking name paramsId)
        { r with
          pendingConfirmations := Assoc.set r.pendingConfirmations (confirmId name paramsId)
            { tool := name, params := params.orElse (.dict []) } } := by
  obtain ⟨tool, htool, hrisk⟩ := external_iff.mp h
  unfold execute
  rw [htool]
  exact if_pos ⟨hrisk, rfl⟩

theorem execute_runs (h : r.external name = false ∨ userConfirmed = true) :
    Stateful.final (execute excText paramsId name params userConfirmed r) =
      { r with world := r.worldAfter name params } := by
  unfold execute worldAfter
  cases htool : Assoc.get? r.tools name with
  | none => rfl
  | some tool =>
    have hrun : ¬ (tool.risk = .external ∧ userConfirmed = false) := by
      intro h
      obtain ⟨hrisk, hconfirmed⟩ := h
      rcases h with hexternal | htrue
      · rw [external_iff.mpr ⟨tool, htool, hrisk⟩] at hexternal
        cases hexternal
      · cases hconfirmed.symm.trans htrue
    dsimp only [Option.bind_some]
    rw [if_neg hrun]
    cases tool.handler with
    | none => rfl
    | some handler =>
      dsimp only
      cases handler (params.orElse (.dict [])) r.world with
      | ok result w => rfl
      | error e w =>
        dsimp only
        split <;> rfl

/-- A registered tool runs, unless it is an external one that waits for its confirmation. -/
theorem ran_execute :
    ran (Stateful.toExcept (execute excText paramsId name params userConfirmed r)) = true ↔
      (Assoc.get? r.tools name).isSome = true ∧ (r.external name = false ∨ userConfirmed = true) := by
  cases htool : Assoc.get? r.tools name with
  | none =>
    have hunknown : ran (Stateful.toExcept (execute excText paramsId name params userConfirmed r)) =
        false := by
      unfold execute
      rw [htool]
      rfl
    simp [hunknown]
  | some tool =>
    by_cases hasked : tool.risk = .external ∧ userConfirmed = false
    · obtain ⟨hrisk, rfl⟩ := hasked
      have hexternal : r.external name = true := external_iff.mpr ⟨tool, htool, hrisk⟩
      have hparked : ran (Stateful.toExcept (execute excText paramsId name params false r)) = false := by
        rw [execute_asks excText paramsId params hexternal]
        rfl
      simp [hparked, hexternal]
    · have hruns : ran (Stateful.toExcept (execute excText paramsId name params userConfirmed r)) = true := by
        unfold execute
        rw [htool]
        dsimp only
        rw [if_neg hasked]
        cases tool.handler with
        | none => rfl
        | some handler =>
          dsimp only
          cases handler (params.orElse (.dict [])) r.world with
          | ok result w => rfl
          | error e w =>
            dsimp only
            split <;> rfl
      have hfree : r.external name = false ∨ userConfirmed = true := by
        rw [external, htool]
        simpa [Decidable.or_iff_not_imp_left] using hasked
      simp [hruns, hfree]

theorem confirm_rejects {c : PyStr} (h : Assoc.get? r.pendingConfirmations c = none) :
    Stateful.final (confirm excText c r) = r := by
  unfold confirm
  rw [h]
  rfl

theorem confirm_runs {c : PyStr} {pending : PendingCall}
    (h : Assoc.get? r.pendingConfirmations c = some pending) :
    Stateful.final (confirm excText c r) =
      { r with
        pendingConfirmations := Assoc.erase r.pendingConfirmations c
        world := r.worldAfter pending.tool pending.params } := by
  unfold confirm
  rw [h]
  exact execute_runs excText 0 pending.params (.inr rfl)

end Cases

theorem append_cons_inj {u : Nat} {xs xs' ds ds' : PyStr} (hds : u ∉ ds) (hds' : u ∉ ds')
    (h : xs ++ u :: ds = xs' ++ u :: ds') : xs = xs' ∧ ds = ds' := by
  have hnil {ys ds ds' : PyStr} (hds : u ∉ ds) (heq : u :: ds = ys ++ u :: ds') :
      ys = [] ∧ ds = ds' := by
    cases ys with
    | nil => exact ⟨rfl, (List.cons.inj heq).2⟩
    | cons y ys =>
      rw [(List.cons.inj heq).2] at hds
      exact absurd (List.mem_append_right ys List.mem_cons_self) hds
  rcases List.append_eq_append_iff.mp h with ⟨ys, rfl, heq⟩ | ⟨ys, rfl, heq⟩
  · obtain ⟨rfl, hrest⟩ := hnil hds heq
    exact ⟨(List.append_nil xs).symm, hrest⟩
  · obtain ⟨rfl, hrest⟩ := hnil hds' heq
    exact ⟨List.append_nil xs', hrest.symm⟩

theorem underscore_notMem (n : Nat) : 0x5F ∉ str (toString n) := by
  intro h
  obtain ⟨c, hc, heq⟩ := List.mem_map.mp h
  have hunderscore : c = '_' := Char.toNat_inj.mp heq
  change c ∈ n.repr.toList at hc
  rw [Nat.toList_repr, hunderscore] at hc
  exact Nat.underscore_not_in_toDigits hc

theorem str_toString_inj {m n : Nat} (h : str (toString m) = str (toString n)) : m = n := by
  have hdigits : m.repr.toList = n.repr.toList :=
    List.map_injective_iff.mpr (fun _ _ => Char.toNat_inj.mp) h
  rw [Nat.toList_repr, Nat.toList_repr] at hdigits
  rw [← Nat.ofDigitChars_ten_toDigits (n := m), hdigits, Nat.ofDigitChars_ten_toDigits]

/-- The digits end where the id ends, so the tool and the object are both read off it. -/
theorem confirmId_inj {n n' : PyStr} {a a' : Nat} :
    confirmId n a = confirmId n' a' ↔ n = n' ∧ a = a' := by
  constructor
  · intro h
    have hunder (name : PyStr) (id : Nat) :
        confirmId name id = (str "confirm_" ++ name) ++ 0x5F :: str (toString id) := by
      simp [confirmId, str]
    rw [hunder, hunder] at h
    obtain ⟨hname, hid⟩ := append_cons_inj (underscore_notMem a) (underscore_notMem a') h
    exact ⟨List.append_cancel_left hname, str_toString_inj hid⟩
  · intro h
    obtain ⟨rfl, rfl⟩ := h
    rfl

end ToolRegistry

end VirtualPerson
