import VirtualPerson.Memory.Service

/-!
# Calls that raise

Which calls of the memory service leave it as it was when a backend or the flush
raises.
-/

namespace VirtualPerson

set_option autoImplicit false

open MemoryService Stateful

inductive MemoryCall where
  | write (kind key value : PyStr) (metadata : PyDict)
  | delete (kind key : PyStr)
  | eraseAll

namespace MemoryCall

variable {V : Type}

def run (cm : CaseMap) (vs : VectorStore V) (env : Env) : MemoryCall → ServiceM V Unit
  | .write kind key value metadata => do
    let _ ← MemoryService.write cm vs env kind key value metadata
  | .delete kind key => do
    let _ ← MemoryService.delete vs env kind key
  | .eraseAll => do
    let _ ← MemoryService.eraseAll vs env

/-- A database call raises, so that the call stops before the semantic layer and the flush. -/
def DatabaseRaises (env : Env) : Prop :=
  (∃ e, env.postgres = .raises e) ∨ ∃ e, env.neo4j = .raises e

/-- What the service's state must be for a raising call to change nothing: a delete
matches no item; an erase finds no items and does not get to clear an index that
clearing would change; a write has no such state. -/
def Harmless (vs : VectorStore V) (env : Env) (s : MemoryService V) : MemoryCall → Prop
  | .write .. => False
  | .delete kind key => s.items.any (named kind key) = false
  | .eraseAll => s.items = [] ∧
      (DatabaseRaises env ∨
        s.index.map (fun v => if env.indexCleared then vs.deleteAll v else v) = s.index)

end MemoryCall

section Quiet

variable {V : Type} {cm : CaseMap} {vs : VectorStore V} {env : Env} {kind key value : PyStr}
variable {metadata : PyDict} {s t : MemoryService V}

theorem run_write_quiet (henv : env.Quiet)
    (hrun : (MemoryCall.write kind key value metadata).run cm vs env s = .ok () t) :
    (filtered cm s.items (kindArg cm kind) (PyStr.strip key) (PyStr.strip value) = true ∧ t = s) ∨
      (filtered cm s.items (kindArg cm kind) (PyStr.strip key) (PyStr.strip value) = false ∧
        ∃ i, i.uid = env.uid ∧
          t = { items := s.items ++ [i], index := s.index.map (indexItem vs env i)
                file := .ofItems (s.items ++ [i]) }) := by
  unfold MemoryCall.run at hrun
  simp only [bind_run, write_eq] at hrun
  cases hf : filtered cm s.items (kindArg cm kind) (PyStr.strip key) (PyStr.strip value) with
  | true =>
    rw [hf, if_pos rfl] at hrun
    cases hrun
    exact .inl ⟨rfl, rfl⟩
  | false =>
    rw [hf, if_neg (by simp), append_quiet henv] at hrun
    cases hrun
    exact .inr ⟨rfl, _, rfl, rfl⟩

theorem run_delete_quiet (henv : env.Quiet)
    (hrun : (MemoryCall.delete kind key).run cm vs env s = .ok () t) :
    (s.items.any (named kind key) = false ∧ t = s) ∨
      (s.items.any (named kind key) = true ∧
        t = { items := s.items.filter fun i => !named kind key i
              index := s.index.map ((s.items.filter (named kind key)).foldl (unindexItem vs env))
              file := .ofItems (s.items.filter fun i => !named kind key i) }) := by
  unfold MemoryCall.run at hrun
  simp only [bind_run, delete_quiet henv] at hrun
  cases hany : s.items.any (named kind key) with
  | true =>
    rw [hany, if_pos rfl] at hrun
    cases hrun
    exact .inr ⟨rfl, rfl⟩
  | false =>
    have hnone : s.items.filter (named kind key) = [] := by
      rw [List.filter_eq_nil_iff]
      exact List.any_eq_false.mp hany
    rw [hany, if_neg (by simp), kept_eq_self hany, hnone] at hrun
    cases hrun
    refine .inl ⟨rfl, ?_⟩
    cases s with
    | mk items index file => cases index <;> rfl

theorem run_eraseAll_quiet (henv : env.Quiet)
    (hrun : MemoryCall.eraseAll.run cm vs env s = .ok () t) :
    t = { items := [], index := s.index.map fun v => if env.indexCleared then vs.deleteAll v else v
          file := .ofItems [] } := by
  unfold MemoryCall.run at hrun
  simp only [bind_run, eraseAll_quiet henv] at hrun
  cases hrun
  rfl

end Quiet

section Errors

variable {V : Type} {cm : CaseMap} {vs : VectorStore V} {env : Env} {kind key value : PyStr}
variable {metadata : PyDict} {item : MemoryItem} {e : PyExc} {s s' : MemoryService V}

theorem items_of_append_error (h : append vs env item s = .error e s') :
    ∃ createdAt, s'.items = s.items ++ [{ item with createdAt }] := by
  unfold append flushPersisted at h
  cases hpg : env.postgres with
  | raises e' =>
    rw [hpg] at h
    cases h
    exact ⟨item.createdAt, rfl⟩
  | _ =>
    rw [hpg] at h
    cases hneo : env.neo4j with
    | raises e' =>
      rw [hneo] at h
      cases h
      exact ⟨item.createdAt, rfl⟩
    | _ =>
      rw [hneo] at h
      cases hflush : env.flushError with
      | none =>
        rw [hflush] at h
        cases h
      | some e' =>
        rw [hflush] at h
        cases h
        exact ⟨_, rfl⟩

/-- A `delete` that raises has dropped the named items, from the index too if there were
any and the databases had answered. -/
theorem delete_error (h : delete vs env kind key s = .error e s') :
    s'.items = (s.items.filter fun i => !named kind key i) ∧ s'.file = s.file ∧
      (s.items.any (named kind key) = false → s'.index = s.index) := by
  unfold delete flushPersisted at h
  cases hpg : env.postgres with
  | raises e' =>
    rw [hpg] at h
    cases h
    exact ⟨rfl, rfl, fun _ => rfl⟩
  | _ =>
    rw [hpg] at h
    cases hneo : env.neo4j with
    | raises e' =>
      rw [hneo] at h
      cases h
      exact ⟨rfl, rfl, fun _ => rfl⟩
    | _ =>
      rw [hneo] at h
      cases hflush : env.flushError with
      | none =>
        rw [hflush] at h
        simp only [bind_run, get_run, set_run, call, pure_run] at h
        split at h <;> cases h
      | some e' =>
        rw [hflush] at h
        simp only [bind_run, get_run, set_run, call, pure_run] at h
        split at h
        · rename_i hremoved
          cases h
          rw [decide_eq_true_iff, length_kept_lt_iff] at hremoved
          refine ⟨rfl, rfl, fun hnone => ?_⟩
          rw [hremoved] at hnone
          cases hnone
        · cases h

/-- An `eraseAll` that raises has dropped all items, and cleared the index unless a
database call raised first. -/
theorem eraseAll_error (h : eraseAll vs env s = .error e s') :
    (MemoryCall.DatabaseRaises env ∧ s' = { s with items := [] }) ∨
      (¬ MemoryCall.DatabaseRaises env ∧
        s' = { s with
          items := []
          index := s.index.map fun v => if env.indexCleared then vs.deleteAll v else v }) := by
  unfold eraseAll flushPersisted at h
  cases hpg : env.postgres with
  | raises e' =>
    rw [hpg] at h
    cases h
    exact .inl ⟨.inl ⟨e, hpg⟩, rfl⟩
  | _ =>
    rw [hpg] at h
    cases hneo : env.neo4j with
    | raises e' =>
      rw [hneo] at h
      cases h
      exact .inl ⟨.inr ⟨e, hneo⟩, rfl⟩
    | _ =>
      rw [hneo] at h
      cases hflush : env.flushError with
      | none =>
        rw [hflush] at h
        cases h
      | some e' =>
        rw [hflush] at h
        cases h
        exact .inr ⟨by simp [MemoryCall.DatabaseRaises, hpg, hneo], rfl⟩

theorem error_of_run_error {α : Type} {m : ServiceM V α}
    (h : (do let _ ← m) s = EStateM.Result.error e s') : m s = .error e s' := by
  rw [bind_run] at h
  split at h
  · cases h
  · rename_i hm
    cases h
    exact hm

theorem append_of_write_error (h : write cm vs env kind key value metadata s = .error e s') :
    append vs env (.new env.now env.uid (kindArg cm kind) (PyStr.strip key) (PyStr.strip value)
      metadata) s = .error e s' := by
  rw [write_eq] at h
  split at h
  · cases h
  · exact h

/-- A call that raises leaves items, index and file as they were if and only if it was
harmless. -/
theorem raising_call_unchanged_iff (cm : CaseMap) (c : MemoryCall) (h : c.run cm vs env s = .error e s') :
    s' = s ↔ c.Harmless vs env s := by
  cases c with
  | write kind key value metadata =>
    obtain ⟨createdAt, hitems⟩ :=
      items_of_append_error (append_of_write_error (error_of_run_error h))
    refine ⟨fun hs => ?_, fun hfalse => hfalse.elim⟩
    rw [hs] at hitems
    exact absurd (congrArg List.length hitems) (by simp)
  | delete kind key =>
    obtain ⟨hitems, hfile, hindex⟩ := delete_error (error_of_run_error h)
    constructor
    · intro hs
      rw [hs] at hitems
      have hlen : ¬ (s.items.filter fun i => !named kind key i).length < s.items.length := by
        rw [← hitems]
        exact Nat.lt_irrefl _
      rw [length_kept_lt_iff] at hlen
      simpa [MemoryCall.Harmless] using hlen
    · intro hnone
      exact MemoryService.ext (hitems.trans (kept_eq_self hnone)) (hindex hnone) hfile
  | eraseAll =>
    rcases eraseAll_error (error_of_run_error h) with ⟨hdb, rfl⟩ | ⟨hdb, rfl⟩
    · constructor
      · intro hs
        exact ⟨(congrArg MemoryService.items hs).symm, .inl hdb⟩
      · intro h
        obtain ⟨hnil, -⟩ := h
        cases s
        cases hnil
        rfl
    · constructor
      · intro hs
        exact ⟨(congrArg MemoryService.items hs).symm, .inr (congrArg MemoryService.index hs)⟩
      · intro h
        obtain ⟨hnil, hidx⟩ := h
        have hidx' := hidx.resolve_left hdb
        cases s
        cases hnil
        simp only [MemoryService.mk.injEq, and_true, true_and]
        exact hidx'

end Errors

/-- The disk is full. -/
def Env.diskFull : Env :=
  { Env.fileOnly [] [] with flushError := some (.builtin "OSError") }

def Env.postgresDown : Env :=
  { Env.fileOnly [] [] with postgres := .raises (.builtin "OperationalError") }

def cities : List MemoryItem :=
  [.new [] [] (str "note") (str "city") (str "Lisbon") [],
    .new [] [] (str "note") (str "river") (str "Tagus") []]

/-- Postgres refuses the delete of an item nobody has: the other items stay, in the file too. -/
theorem raising_call_unchanged_iff_delete :
    ∃ s', (MemoryCall.delete (str "note") (str "sea")).run .asciiOnly .inert .postgresDown
        (synced cities : MemoryService Unit) = .error (.builtin "OperationalError") s' ∧
      (s' = synced cities ↔
        (MemoryCall.delete (str "note") (str "sea")).Harmless .inert .postgresDown (synced cities)) ∧
      s' = synced cities := by
  have hrun : (MemoryCall.delete (str "note") (str "sea")).run .asciiOnly .inert .postgresDown
      (synced cities : MemoryService Unit) = .error (.builtin "OperationalError") (synced cities) := by
    rfl
  exact ⟨_, hrun, raising_call_unchanged_iff .asciiOnly _ hrun, rfl⟩

/-- A write whose flush fails has changed the items. -/
theorem not_raising_call_unchanged :
    ¬ ∀ (c : MemoryCall) (env : Env) (e : PyExc) (s s' : MemoryService Unit),
      c.run .asciiOnly .inert env s = .error e s' → s' = s := by
  intro hall
  have hs := hall (.write (str "note") (str "city") (str "Lisbon") []) .diskFull
    (.builtin "OSError") (synced [])
    { items := [.new [] [] (str "note") (str "city") (str "Lisbon") []], index := none
      file := .ofItems [] } rfl
  exact absurd (congrArg (List.length ∘ MemoryService.items) hs) (by decide)

end VirtualPerson
