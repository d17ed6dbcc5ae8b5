import VirtualPerson.Chat.Consent
import VirtualPerson.Memory.Undo

/-!
# Acknowledged writes

What POST `/memory/write` and the `save_memory` tool answer, and what they have stored.
-/

namespace VirtualPerson

set_option autoImplicit false

open Stateful Builtins

namespace Consent

variable {V : Type}

/-- The call returned a dict that has `True` under the key. -/
def Says {σ : Type} (key : String) (r : EStateM.Result PyExc σ PyVal) : Prop :=
  ∃ es t, r = .ok (.dict es) t ∧ PyDict.get? es (str key) = some (.bool true)

/-- A new item with the normalised arguments stands at the end. -/
def Added (cm : CaseMap) (kind key value : PyStr) (metadata : PyDict) (before after : List MemoryItem) :
    Prop :=
  ∃ i, after = before ++ [i] ∧ i.kind = MemoryService.kindArg cm kind ∧ i.key = PyStr.strip key ∧
    i.value = PyStr.strip value ∧ i.metadata = metadata

/-- `write` refuses these arguments. -/
def refused (cm : CaseMap) (items : List MemoryItem) (kind key value : PyStr) : Bool :=
  MemoryService.filtered cm items (MemoryService.kindArg cm kind) (PyStr.strip key) (PyStr.strip value)

/-- POST `/memory/write` answers `ok=True` exactly when it has stored the item. -/
def WriteTruthful (rt : ChatRuntime) (vs : VectorStore V) (env : Env) (body : MemoryWriteIn)
    (s : ChatState V) : Prop :=
  Says "ok" (memoryWrite rt vs env body s) ↔
    Added rt.cm body.kind body.key body.value (body.metadata.getD []) s.tools.world.memory.items
      (final (memoryWrite rt vs env body s)).tools.world.memory.items

/-- `save_memory` answers `saved=True` exactly when it has stored the item. -/
def SaveTruthful (cm : CaseMap) (vs : VectorStore V) (te : ToolEnv) (params : PyVal) (w : World V) : Prop :=
  Says "saved" (toolSaveMemory cm vs te params w) ↔
    ∃ args a, kwargs [str "kind", str "key", str "value"] params = .ok args ∧ saveArgs args = .ok a ∧
      Added cm a.kind a.key a.value [] w.memory.items
        (final (toolSaveMemory cm vs te params w)).memory.items

section Writes

variable {cm : CaseMap} {vs : VectorStore V} {env : Env} {kind key value : PyStr} {metadata : PyDict}
variable {items : List MemoryItem} {m : MemoryService V}

theorem not_added_self (items : List MemoryItem) : ¬ Added cm kind key value metadata items items := by
  intro h
  obtain ⟨i, heq, -⟩ := h
  exact absurd (congrArg List.length heq) (by simp)

theorem write_refused (vs : VectorStore V) (env : Env) (metadata : PyDict)
    (h : refused cm m.items kind key value = true) :
    MemoryService.write cm vs env kind key value metadata m =
      .ok (.new env.now env.uid (MemoryService.kindArg cm kind) (PyStr.strip key) (PyStr.strip value)
        (PyDict.set metadata (str "filtered") (.bool true))) m := by
  rw [MemoryService.write_eq]
  exact if_pos h

/-- A write that is not refused stores the item; it returns it where no backend and no flush fails,
and raises elsewhere. -/
theorem write_accepted (vs : VectorStore V) (env : Env) (metadata : PyDict)
    (h : refused cm m.items kind key value = false) :
    Added cm kind key value metadata m.items
        (final (MemoryService.write cm vs env kind key value metadata m)).items ∧
      ((env.Quiet ∧ ∃ i t, MemoryService.write cm vs env kind key value metadata m = .ok i t ∧
          i.metadata = metadata) ∨
        (¬ env.Quiet ∧ ∃ e t, MemoryService.write cm vs env kind key value metadata m = .error e t)) := by
  have heq : MemoryService.write cm vs env kind key value metadata m =
      MemoryService.append vs env (.new env.now env.uid (MemoryService.kindArg cm kind)
        (PyStr.strip key) (PyStr.strip value) metadata) m := by
    rw [MemoryService.write_eq]
    exact if_neg (by simpa [refused] using h)
  rw [heq]
  constructor
  · obtain ⟨createdAt, hitems⟩ := MemoryService.final_append vs env
      (.new env.now env.uid (MemoryService.kindArg cm kind) (PyStr.strip key) (PyStr.strip value)
        metadata) m
    exact ⟨_, hitems, rfl, rfl, rfl, rfl⟩
  · by_cases hquiet : env.Quiet
    · exact .inl ⟨hquiet, _, _, MemoryService.append_quiet hquiet, rfl⟩
    · refine .inr ⟨hquiet, ?_⟩
      cases hrun : MemoryService.append vs env (.new env.now env.uid (MemoryService.kindArg cm kind)
          (PyStr.strip key) (PyStr.strip value) metadata) m with
      | ok i t => exact absurd (MemoryService.quiet_of_append_ok hrun) hquiet
      | error e t => exact ⟨e, t, rfl⟩

end Writes

section Route

variable {rt : ChatRuntime} {vs : VectorStore V} {env : Env} {body : MemoryWriteIn} {s : ChatState V}

/-- The route's check for secrets refuses the request. -/
def secretRefused (cm : CaseMap) (body : MemoryWriteIn) : Bool :=
  body.kind ≠ str "secret" && holdsSecret cm body.value

theorem memoryWrite_secret (h : secretRefused rt.cm body = true) :
    memoryWrite rt vs env body s =
      .ok (.dict [(str "ok", .bool false), (str "error", .str secretError)])
        { s with audit := s.audit ++ [⟨str "memory_write_refused",
          str "secret-detected:" ++ body.key⟩] } := by
  unfold memoryWrite
  exact congrFun (if_pos h) s

theorem memoryWrite_ok {item : MemoryItem} {m : MemoryService V} (hsecret : secretRefused rt.cm body = false)
    (h : MemoryService.write rt.cm vs env body.kind body.key body.value (body.metadata.getD [])
      s.tools.world.memory = .ok item m) :
    ∃ es t, memoryWrite rt vs env body s = .ok (.dict es) t ∧ t.tools.world.memory = m ∧
      PyDict.get? es (str "ok") = some (.bool (!markedFiltered item)) := by
  have hcheck : ¬ (body.kind ≠ str "secret" && holdsSecret rt.cm body.value) = true := by
    simpa [secretRefused] using hsecret
  unfold memoryWrite
  rw [if_neg hcheck]
  simp only [bind_run, Chat.onMemory, zoom, h]
  cases hmark : markedFiltered item with
  | true => exact ⟨_, _, rfl, rfl, rfl⟩
  | false => exact ⟨_, _, rfl, rfl, rfl⟩

theorem memoryWrite_error {e : PyExc} {m : MemoryService V} (hsecret : secretRefused rt.cm body = false)
    (h : MemoryService.write rt.cm vs env body.kind body.key body.value (body.metadata.getD [])
      s.tools.world.memory = .error e m) :
    ∃ t, memoryWrite rt vs env body s = .error e t ∧ t.tools.world.memory = m := by
  have hcheck : ¬ (body.kind ≠ str "secret" && holdsSecret rt.cm body.value) = true := by
    simpa [secretRefused] using hsecret
  unfold memoryWrite
  rw [if_neg hcheck]
  simp only [bind_run, Chat.onMemory, zoom, h]
  exact ⟨_, rfl, rfl⟩

theorem final_memoryWrite (hsecret : secretRefused rt.cm body = false) :
    (final (memoryWrite rt vs env body s)).tools.world.memory =
      final (MemoryService.write rt.cm vs env body.kind body.key body.value (body.metadata.getD [])
        s.tools.world.memory) := by
  cases hwrite : MemoryService.write rt.cm vs env body.kind body.key body.value (body.metadata.getD [])
      s.tools.world.memory with
  | ok item m =>
    obtain ⟨es, t, heq, hmemory, -⟩ := memoryWrite_ok hsecret hwrite
    rw [heq]
    exact hmemory
  | error e m =>
    obtain ⟨t, heq, hmemory⟩ := memoryWrite_error hsecret hwrite
    rw [heq]
    exact hmemory

theorem says_ok {σ : Type} {es : PyDict} {t : σ} {key : String} {b : Bool}
    (h : PyDict.get? es (str key) = some (.bool b)) :
    Says key (.ok (.dict es) t : EStateM.Result PyExc σ PyVal) ↔ b = true := by
  constructor
  · intro hsays
    obtain ⟨es', t', heq, hget⟩ := hsays
    cases heq
    rw [h] at hget
    cases hget
    rfl
  · intro hb
    rw [hb] at h
    exact ⟨es, t, rfl, h⟩

theorem not_says_error {σ : Type} {e : PyExc} {t : σ} {key : String} :
    ¬ Says key (.error e t : EStateM.Result PyExc σ PyVal) := by
  intro hsays
  obtain ⟨es, t', heq, -⟩ := hsays
  cases heq

theorem markedFiltered_set (metadata : PyDict) (i : MemoryItem)
    (h : i.metadata = PyDict.set metadata (str "filtered") (.bool true)) : markedFiltered i = true := by
  rw [markedFiltered, h, PyDict.getD, PyDict.get?_set_self]
  rfl

/-- The client's metadata carries the mark of a refused write. -/
def carriesMark (body : MemoryWriteIn) : Bool :=
  (PyDict.getD (body.metadata.getD []) (str "filtered") .pyNone).truthy

theorem writeTruthful_iff (rt : ChatRuntime) (vs : VectorStore V) (env : Env) (body : MemoryWriteIn)
    (s : ChatState V) :
    WriteTruthful rt vs env body s ↔
      secretRefused rt.cm body = true ∨
      refused rt.cm s.tools.world.memory.items body.kind body.key body.value = true ∨
      (env.Quiet ∧ carriesMark body = false) := by
  unfold WriteTruthful
  cases hsecret : secretRefused rt.cm body with
  | true =>
    rw [memoryWrite_secret hsecret, says_ok (b := false) rfl]
    simp [final, not_added_self]
  | false =>
    rw [final_memoryWrite hsecret]
    cases hrefused : refused rt.cm s.tools.world.memory.items body.kind body.key body.value with
    | true =>
      have hwrite := write_refused vs env (body.metadata.getD []) hrefused
      obtain ⟨es, t, heq, -, hok⟩ := memoryWrite_ok hsecret hwrite
      rw [heq, says_ok hok, markedFiltered_set (body.metadata.getD []) _ rfl, hwrite]
      simp [final, not_added_self]
    | false =>
      obtain ⟨hadded, hrun⟩ := write_accepted vs env (body.metadata.getD []) hrefused
      rcases hrun with ⟨hquiet, i, m, hwrite, hmeta⟩ | ⟨hloud, e, m, hwrite⟩
      · obtain ⟨es, t, heq, -, hok⟩ := memoryWrite_ok hsecret hwrite
        have hmark : markedFiltered i = carriesMark body := by
          rw [markedFiltered, hmeta, carriesMark]
        rw [heq, says_ok hok, hmark]
        simp [hadded, hquiet]
      · obtain ⟨t, heq, -⟩ := memoryWrite_error hsecret hwrite
        rw [heq]
        simp [hadded, hloud, not_says_error]

end Route

section Tool

variable {cm : CaseMap} {vs : VectorStore V} {te : ToolEnv} {params : PyVal} {w : World V}
variable {args : PyDict} {a : SaveArgs}

theorem toolSaveMemory_args (hargs : kwargs [str "kind", str "key", str "value"] params = .ok args)
    (ha : saveArgs args = .ok a) :
    toolSaveMemory cm vs te params w =
      match MemoryService.write cm vs te.write a.kind a.key a.value [] w.memory with
      | .ok _ m =>
        .ok (.dict [(str "saved", .bool true),
          (str "kind", PyDict.getD args (str "kind") (.str (str "note"))),
          (str "key", PyDict.getD args (str "key") (.str []))]) { w with memory := m }
      | .error e m => .error e { w with memory := m } := by
  unfold toolSaveMemory
  rw [hargs]
  simp only [bind_run, MonadExcept.ofExcept, pure_run, ha, Builtins.onMemory, zoom]
  cases MemoryService.write cm vs te.write a.kind a.key a.value [] w.memory <;> rfl

theorem final_toolSaveMemory (hargs : kwargs [str "kind", str "key", str "value"] params = .ok args)
    (ha : saveArgs args = .ok a) :
    (final (toolSaveMemory cm vs te params w)).memory =
      final (MemoryService.write cm vs te.write a.kind a.key a.value [] w.memory) := by
  rw [toolSaveMemory_args hargs ha]
  cases MemoryService.write cm vs te.write a.kind a.key a.value [] w.memory <;> rfl

theorem toolSaveMemory_bad (cm : CaseMap) (vs : VectorStore V) (te : ToolEnv) (w : World V)
    (h : ∀ args a, kwargs [str "kind", str "key", str "value"] params = .ok args → saveArgs args ≠ .ok a) :
    ∃ e, toolSaveMemory cm vs te params w = .error e w := by
  unfold toolSaveMemory
  cases hargs : kwargs [str "kind", str "key", str "value"] params with
  | error e => exact ⟨e, rfl⟩
  | ok args =>
    cases ha : saveArgs args with
    | error e =>
      refine ⟨e, ?_⟩
      simp only [bind_run, MonadExcept.ofExcept, pure_run, ha]
      rfl
    | ok a => exact absurd ha (h args a hargs)

theorem saveTruthful_iff (cm : CaseMap) (vs : VectorStore V) (te : ToolEnv) (params : PyVal) (w : World V) :
    SaveTruthful cm vs te params w ↔
      ∀ args a, kwargs [str "kind", str "key", str "value"] params = .ok args → saveArgs args = .ok a →
        refused cm w.memory.items a.kind a.key a.value = false ∧ te.write.Quiet := by
  unfold SaveTruthful
  by_cases hgood : ∃ args a, kwargs [str "kind", str "key", str "value"] params = .ok args ∧
      saveArgs args = .ok a
  · obtain ⟨args, a, hargs, ha⟩ := hgood
    have honly (P : PyDict → SaveArgs → Prop) :
        (∃ args a, kwargs [str "kind", str "key", str "value"] params = .ok args ∧
          saveArgs args = .ok a ∧ P args a) ↔ P args a := by
      simp [hargs, ha]
    have hall (P : PyDict → SaveArgs → Prop) :
        (∀ args a, kwargs [str "kind", str "key", str "value"] params = .ok args →
          saveArgs args = .ok a → P args a) ↔ P args a := by
      constructor
      · intro h
        exact h args a hargs ha
      · intro hP args' a' hargs' ha'
        obtain rfl := Except.ok.inj (hargs.symm.trans hargs')
        obtain rfl := Except.ok.inj (ha.symm.trans ha')
        exact hP
    rw [honly, hall, final_toolSaveMemory hargs ha, toolSaveMemory_args hargs ha]
    cases hrefused : refused cm w.memory.items a.kind a.key a.value with
    | true =>
      rw [write_refused vs te.write [] hrefused, says_ok rfl]
      simp [final, not_added_self]
    | false =>
      obtain ⟨hadded, hrun⟩ := write_accepted vs te.write [] hrefused
      rcases hrun with ⟨hquiet, i, m, hwrite, -⟩ | ⟨hloud, e, m, hwrite⟩
      · rw [hwrite] at hadded ⊢
        rw [says_ok rfl]
        simp [hadded, hquiet]
      · rw [hwrite] at hadded ⊢
        simp [hadded, hloud, not_says_error]
  · have hbad : ∀ args a, kwargs [str "kind", str "key", str "value"] params = .ok args →
        saveArgs args ≠ .ok a := fun args a hargs ha => hgood ⟨args, a, hargs, ha⟩
    obtain ⟨e, heq⟩ := toolSaveMemory_bad cm vs te w hbad
    rw [heq]
    constructor
    · intro _ args a hargs ha
      exact absurd ha (hbad args a hargs)
    · intro _
      refine ⟨fun hsays => absurd hsays not_says_error, fun hadded => ?_⟩
      obtain ⟨args, a, hargs, ha, -⟩ := hadded
      exact absurd ha (hbad args a hargs)

end Tool

/-- The route tells the truth except where it stores an item whose own metadata carries the mark of
a refused one, the tool except where the write is refused, and either except where the write raises
after it has stored the item. -/
theorem acknowledged_iff (rt : ChatRuntime) (vs : VectorStore V) (env : Env) (body : MemoryWriteIn)
    (s : ChatState V) (te : ToolEnv) (params : PyVal) (w : World V) :
    (WriteTruthful rt vs env body s ↔
      secretRefused rt.cm body = true ∨
        refused rt.cm s.tools.world.memory.items body.kind body.key body.value = true ∨
        (env.Quiet ∧ carriesMark body = false)) ∧
    (SaveTruthful rt.cm vs te params w ↔
      ∀ args a, kwargs [str "kind", str "key", str "value"] params = .ok args → saveArgs args = .ok a →
        refused rt.cm w.memory.items a.kind a.key a.value = false ∧ te.write.Quiet) :=
  ⟨writeTruthful_iff rt vs env body s, saveTruthful_iff rt.cm vs te params w⟩

/-- A request whose metadata says that it was filtered. -/
def markedWrite : MemoryWriteIn where
  kind := str "note"
  key := str "city"
  value := str "Lisbon"
  metadata := some [(str "filtered", .bool true)]

def quietTool : ToolEnv where
  write := .fileOnly [] []
  search := .fileOnly
  utc := []
  readable := []
  reminderId := []
  createdAt := 0
  dueAt _ := .ok 0
  text _ := []

/-- The marked item is stored and reported as filtered; an empty one is not stored and reported as
saved. -/
theorem not_acknowledged :
    ¬ WriteTruthful Chat.asciiRuntime VectorStore.inert (.fileOnly [] []) markedWrite Chat.firstState ∧
      ¬ SaveTruthful .asciiOnly VectorStore.inert quietTool (.dict []) Chat.firstState.tools.world := by
  constructor
  · intro h
    have hcases := (writeTruthful_iff _ _ _ _ _).mp h
    revert hcases
    have hsecret : secretRefused Chat.asciiRuntime.cm markedWrite = false := by decide
    have hrefused : refused Chat.asciiRuntime.cm Chat.firstState.tools.world.memory.items
        markedWrite.kind markedWrite.key markedWrite.value = false := by decide
    have hmark : carriesMark markedWrite = true := by decide
    rw [hsecret, hrefused, hmark]
    simp
  · intro h
    obtain ⟨hrefused, -⟩ := (saveTruthful_iff _ _ _ _ _).mp h _ _ rfl rfl
    revert hrefused
    decide

end Consent

end VirtualPerson
