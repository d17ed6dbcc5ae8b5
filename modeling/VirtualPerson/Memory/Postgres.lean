import VirtualPerson.Memory.Duplicates
import VirtualPerson.Memory.PostgresSearch
import VirtualPerson.Sql.Transaction

/-!
# The Postgres store on its one connection

`PostgresMemoryStore` connects once, without autocommit, and never rolls back. A memory service
over it: what the table holds while nothing fails, and what is left after the first failure.
-/

namespace VirtualPerson

set_option autoImplicit false

open MemoryService Stateful

/-- A row of `memory_items`; `created_at` defaults to `NOW()`, the time at which the transaction began. -/
structure PgRow where
  uid : PyStr
  kind : PyStr
  key : PyStr
  value : PyStr
  metadata : PyDict
  createdAt : Int

structure PostgresKit where
  cm : CaseMap
  driver : Sql.Driver PyExc
  /-- What a `JSONB` column gives back of a dict -/
  jsonb : PyDict → PyDict
  /-- `created_at::text` -/
  timestamp : Int → PyStr
  timestamp_ne : ∀ t, timestamp t ≠ []

namespace PostgresMemoryStore

variable (kit : PostgresKit) (x : Sql.Meets PyExc)

/-- `INSERT … ON CONFLICT (uid) DO UPDATE … RETURNING created_at` -/
def insert (kind key value uid : PyStr) (metadata : PyDict) (since : Int) (rows : List PgRow) :
    Int × List PgRow :=
  match rows.find? fun r => r.uid = uid with
  | some old => (old.createdAt, rows.map fun r =>
      if r.uid = uid then { r with kind, key, value, metadata } else r)
  | none => (since, rows ++ [{ uid, kind, key, value, metadata, createdAt := since }])

def write (kind key value uid : PyStr) (metadata : PyDict) :
    EStateM PyExc (Sql.Connection (List PgRow)) (Option PyStr) := do
  let createdAt ← Sql.update kit.driver x (insert kind key value uid (kit.jsonb metadata))
  return some (kit.timestamp createdAt)

def named (kind key : PyStr) (r : PgRow) : Bool := r.kind = kind && r.key = key

def delete (kind key : PyStr) : EStateM PyExc (Sql.Connection (List PgRow)) Unit :=
  Sql.update kit.driver x fun _ rows => ((), rows.filter fun r => !named kind key r)

/-- `TRUNCATE TABLE memory_items` -/
def deleteAll : EStateM PyExc (Sql.Connection (List PgRow)) Unit :=
  Sql.update kit.driver x fun _ _ => ((), [])

def row (r : PgRow) : MemoryRow :=
  { kind := r.kind, key := r.key, value := r.value, createdAt := kit.timestamp r.createdAt
    metadata := r.metadata, uid := r.uid, source := str "postgres" }

/-- The `SELECT`; rows of one `created_at` come in the order of the table here. -/
def found (query : PyStr) (rows : List PgRow) : List MemoryRow :=
  (((rows.filter fun r => selects kit.cm query r.kind r.key r.value).mergeSort
    fun a b => decide (b.createdAt ≤ a.createdAt)).take 100).map (row kit)

def search (query : PyStr) : EStateM PyExc (Sql.Connection (List PgRow)) (List MemoryRow) :=
  Sql.read kit.driver x (found kit query)

end PostgresMemoryStore

/-- A service and the connection of its store. -/
structure StoredMemory (V : Type) where
  service : MemoryService V
  connection : Sql.Connection (List PgRow)

/-- The databases' answers in `env` and `senv` are those of Neo4j; the store gives its own. -/
inductive DatabaseCall where
  | store (env : Env) (call : MemoryCall)
  | search (senv : SearchEnv) (query : PyStr)

/-- Whether the call gets to the store: a write that is refused does not. -/
def MemoryCall.asks (cm : CaseMap) (items : List MemoryItem) : MemoryCall → Bool
  | .write kind key value _ =>
    !filtered cm items (kindArg cm kind) (PyStr.strip key) (PyStr.strip value)
  | _ => true

def DatabaseCall.asks (cm : CaseMap) (items : List MemoryItem) : DatabaseCall → Bool
  | .store _ call => call.asks cm items
  | .search .. => true

def Env.answered (env : Env) (postgres : Answer (Option PyStr)) : Env := { env with postgres }

def Answer.ofResult {σ α : Type} : EStateM.Result PyExc σ α → Answer α
  | .ok a _ => .returns a
  | .error e _ => .raises e

namespace StoredMemory

variable {V : Type} (kit : PostgresKit) (vs : VectorStore V) (x : Sql.Meets PyExc)

/-- What a call of the service asks of its store. -/
def request (uid : PyStr) : MemoryCall → EStateM PyExc (Sql.Connection (List PgRow)) (Option PyStr)
  | .write kind key value metadata =>
    PostgresMemoryStore.write kit x (kindArg kit.cm kind) (PyStr.strip key) (PyStr.strip value) uid
      metadata
  | .delete kind key => do
    PostgresMemoryStore.delete kit x kind key
    return none
  | .eraseAll => do
    PostgresMemoryStore.deleteAll kit x
    return none

/-- The result of the service, with the connection next to its state -/
def beside {α : Type} (c : Sql.Connection (List PgRow)) (run : EStateM.Result PyExc (MemoryService V) α) :
    EStateM.Result PyExc (StoredMemory V) Unit :=
  match run with
  | .ok _ t => .ok () ⟨t, c⟩
  | .error e t => .error e ⟨t, c⟩

def store (env : Env) (call : MemoryCall) : EStateM PyExc (StoredMemory V) Unit := fun s =>
  if call.asks kit.cm s.service.items then
    let r := request kit x env.uid call s.connection
    beside (final r) (call.run kit.cm vs (env.answered (.ofResult r)) s.service)
  else beside s.connection (call.run kit.cm vs env s.service)

def search (senv : SearchEnv) (query : PyStr) : EStateM PyExc (StoredMemory V) Unit := fun s =>
  let r := PostgresMemoryStore.search kit x query s.connection
  beside (final r) (MemoryService.search kit.cm { senv with postgres := .ofResult r } query s.service)

def perform : DatabaseCall → EStateM PyExc (StoredMemory V) Unit
  | .store env call => store kit vs x env call
  | .search senv query => search kit x senv query

/-- The item as the store keeps it -/
def asRow (i : MemoryItem) : MemoryRow :=
  { kind := i.kind, key := i.key, value := i.value, createdAt := i.createdAt
    metadata := kit.jsonb i.metadata, uid := i.uid, source := str "postgres" }

/-- The table holds the items, in their order. -/
def Agrees (s : StoredMemory V) : Prop :=
  s.connection.committed.map (PostgresMemoryStore.row kit) = s.service.items.map (asRow kit)

end StoredMemory

structure DatabaseEvent where
  meets : Sql.Meets PyExc
  call : DatabaseCall
  asked : Bool
  raised : Bool

def StoredMemory.raises {ε σ α : Type} : EStateM.Result ε σ α → Bool
  | .ok .. => false
  | .error .. => true

/-- The calls of one service after its start, one after the other; a call that raises leaves what it has
done. -/
def databaseSystem {V : Type} (kit : PostgresKit) (vs : VectorStore V) :
    System (StoredMemory V) DatabaseEvent where
  init s := s.connection.status = .idle ∧ StoredMemory.Agrees kit s
  step s e t :=
    e.asked = e.call.asks kit.cm s.service.items ∧
      e.raised = StoredMemory.raises (StoredMemory.perform kit vs e.meets e.call s) ∧
      t = final (StoredMemory.perform kit vs e.meets e.call s)

namespace StoredMemory

section Failure

variable {V : Type} {kit : PostgresKit} {vs : VectorStore V} {x : Sql.Meets PyExc} {env : Env}
variable {senv : SearchEnv}
variable {c : Sql.Connection (List PgRow)} {e : PyExc} {event : DatabaseEvent} {es : List DatabaseEvent}
variable {s t w : StoredMemory V} {cm : CaseMap} {m : MemoryService V} {call : MemoryCall}

theorem store_asked (hasks : call.asks kit.cm s.service.items = true) :
    store kit vs x env call s = beside (final (request kit x env.uid call s.connection))
      (call.run kit.cm vs (env.answered (.ofResult (request kit x env.uid call s.connection)))
        s.service) := by
  unfold store
  rw [if_pos hasks]

theorem store_unasked (hasks : call.asks kit.cm s.service.items = false) :
    store kit vs x env call s = beside s.connection (call.run kit.cm vs env s.service) := by
  unfold store
  rw [if_neg (by rw [hasks]; exact Bool.false_ne_true)]

theorem request_stops (h : x.Fails ∨ c.Dead) (uid : PyStr) (call : MemoryCall) :
    ∃ e c', request kit x uid call c = .error e c' ∧ c'.Dead ∧ c'.committed = c.committed := by
  cases call with
  | write kind key value metadata =>
    obtain ⟨e, c', hrun, hkept⟩ := Sql.update_stops h kit.driver (PostgresMemoryStore.insert
      (kindArg kit.cm kind) (PyStr.strip key) (PyStr.strip value) uid (kit.jsonb metadata))
    refine ⟨e, c', ?_, hkept⟩
    rw [request, PostgresMemoryStore.write, bind_run, hrun]
  | delete kind key =>
    obtain ⟨e, c', hrun, hkept⟩ := Sql.update_stops h kit.driver fun _ rows =>
      ((), rows.filter fun r => !PostgresMemoryStore.named kind key r)
    refine ⟨e, c', ?_, hkept⟩
    rw [request, PostgresMemoryStore.delete, bind_run, hrun]
  | eraseAll =>
    obtain ⟨e, c', hrun, hkept⟩ := Sql.update_stops h kit.driver fun _ (_ : List PgRow) => ((), [])
    refine ⟨e, c', ?_, hkept⟩
    rw [request, PostgresMemoryStore.deleteAll, bind_run, hrun]

/-- Where the store raises, so does the call, before it gets to the file. -/
theorem run_raises (vs : VectorStore V) (env : Env) (hpg : env.postgres = .raises e)
    (hasks : call.asks cm m.items = true) :
    ∃ t, call.run cm vs env m = .error e t ∧ t.file = m.file := by
  cases call with
  | write kind key value metadata =>
    have hpassed : filtered cm m.items (kindArg cm kind) (PyStr.strip key) (PyStr.strip value) = false := by
      simpa [MemoryCall.asks] using hasks
    simp only [MemoryCall.run, bind_run, write_eq, hpassed, append, get_run, set_run, hpg]
    exact ⟨_, rfl, rfl⟩
  | delete kind key =>
    simp only [MemoryCall.run, MemoryService.delete, bind_run, get_run, set_run, hpg]
    exact ⟨_, rfl, rfl⟩
  | eraseAll =>
    simp only [MemoryCall.run, MemoryService.eraseAll, bind_run, get_run, set_run, hpg]
    exact ⟨_, rfl, rfl⟩

theorem search_raises {query : PyStr} (hpg : senv.postgres = .raises e) :
    MemoryService.search cm senv query m = .error e m := by
  unfold MemoryService.search
  simp only [bind_run, get_run, hpg]
  rfl

/-- A call that the store does not answer raises and leaves the file and the table alone. -/
theorem perform_stops (vs : VectorStore V) {call : DatabaseCall} (h : x.Fails ∨ s.connection.Dead)
    (hasks : call.asks kit.cm s.service.items = true) :
    raises (perform kit vs x call s) = true ∧ (final (perform kit vs x call s)).connection.Dead ∧
      (final (perform kit vs x call s)).connection.committed = s.connection.committed ∧
      (final (perform kit vs x call s)).service.file = s.service.file := by
  cases call with
  | store env call =>
    obtain ⟨e, c', hrequest, hdead, hcommitted⟩ := request_stops h env.uid call
    obtain ⟨t, hrun, hfile⟩ := run_raises vs (e := e) (env.answered (.raises e)) rfl hasks
    have hperform : store kit vs x env call s = .error e ⟨t, c'⟩ := by
      rw [store_asked hasks, hrequest]
      change beside c' (call.run kit.cm vs (env.answered (.raises e)) s.service) = _
      rw [hrun]
      rfl
    rw [perform, hperform]
    exact ⟨rfl, hdead, hcommitted, hfile⟩
  | search senv query =>
    obtain ⟨e, c', hrequest, hdead, hcommitted⟩ := Sql.read_stops h kit.driver
      (PostgresMemoryStore.found kit query)
    have hperform : search kit x senv query s = .error e ⟨s.service, c'⟩ := by
      unfold search PostgresMemoryStore.search
      rw [hrequest]
      change beside c' (MemoryService.search kit.cm { senv with postgres := .raises e } query s.service) = _
      rw [search_raises rfl]
      rfl
    rw [perform, hperform]
    exact ⟨rfl, hdead, hcommitted, rfl⟩

/-- A write that is refused changes nothing. -/
theorem perform_refused (vs : VectorStore V) (x : Sql.Meets PyExc) (call : DatabaseCall)
    (hasks : call.asks kit.cm s.service.items = false) :
    perform kit vs x call s = .ok () s := by
  cases call with
  | search senv query => cases hasks
  | store env call =>
    cases call with
    | write kind key value metadata =>
      have hrefused : filtered kit.cm s.service.items (kindArg kit.cm kind) (PyStr.strip key)
          (PyStr.strip value) = true := by
        simpa [DatabaseCall.asks, MemoryCall.asks] using hasks
      have hunasked : (MemoryCall.write kind key value metadata).asks kit.cm s.service.items = false := hasks
      have hrun : (MemoryCall.write kind key value metadata).run kit.cm vs env s.service =
          .ok () s.service := by
        simp only [MemoryCall.run, bind_run, write_eq, hrefused]
        rfl
      rw [perform, store_unasked hunasked, hrun]
      rfl
    | delete kind key => cases hasks
    | eraseAll => cases hasks

/-- Nothing has changed outside the process since `s`, and nothing can. -/
structure Stopped (s t : StoredMemory V) : Prop where
  dead : t.connection.Dead
  table : t.connection.committed = s.connection.committed
  file : t.service.file = s.service.file

theorem step_stopped (h : event.meets.Fails ∧ event.asked = true ∨ s.connection.Dead)
    (hst : (databaseSystem kit vs).step s event t) :
    Stopped s t ∧ (event.asked = true → event.raised = true) := by
  obtain ⟨hasked, hraised, rfl⟩ := hst
  cases hasks : event.call.asks kit.cm s.service.items with
  | true =>
    obtain ⟨hraises, hdead, htable, hfile⟩ := perform_stops vs (h.imp_left And.left) hasks
    exact ⟨⟨hdead, htable, hfile⟩, fun _ => hraised.trans hraises⟩
  | false =>
    rw [hasks] at hasked
    have hdead := h.resolve_left fun h => by rw [hasked] at h; cases h.2
    rw [perform_refused vs event.meets event.call hasks]
    exact ⟨⟨hdead, rfl, rfl⟩, fun h => by rw [hasked] at h; cases h⟩

theorem Stopped.trans (h : Stopped s t) (h' : Stopped t w) : Stopped s w :=
  ⟨h'.dead, h'.table.trans h.table, h'.file.trans h.file⟩

theorem run_stopped (h : s.connection.Dead) (hrun : (databaseSystem kit vs).Run s es t) :
    Stopped s t ∧ ∀ event ∈ es, event.asked = true → event.raised = true := by
  induction hrun with
  | nil s => exact ⟨⟨h, rfl, rfl⟩, fun event he => by cases he⟩
  | cons hst hrest ih =>
    obtain ⟨hstep, hfirst⟩ := step_stopped (.inr h) hst
    obtain ⟨hlater, hothers⟩ := ih hstep.dead
    refine ⟨hstep.trans hlater, fun event he => ?_⟩
    rcases List.mem_cons.mp he with rfl | he
    · exact hfirst
    · exact hothers event he

/-- After one statement that the server refuses, or on which the connection breaks, every call that gets
to the store raises, and neither the table nor the file changes any more. -/
theorem postgres_failure_is_final (kit : PostgresKit) (vs : VectorStore V) (hfails : event.meets.Fails)
    (hasked : event.asked = true) (hst : (databaseSystem kit vs).step s event t)
    (hrun : (databaseSystem kit vs).Run t es w) :
    w.connection.committed = s.connection.committed ∧ w.service.file = s.service.file ∧
      ∀ e ∈ event :: es, e.asked = true → e.raised = true := by
  obtain ⟨hstep, hfirst⟩ := step_stopped (.inl ⟨hfails, hasked⟩) hst
  obtain ⟨hlater, hothers⟩ := run_stopped hstep.dead hrun
  have hall := hstep.trans hlater
  refine ⟨hall.table, hall.file, fun e he => ?_⟩
  rcases List.mem_cons.mp he with rfl | he
  · exact hfirst
  · exact hothers e he

end Failure

section InStep

variable {V : Type} {kit : PostgresKit} {vs : VectorStore V} {x : Sql.Meets PyExc} {env : Env}
variable {senv : SearchEnv}
variable {s₀ s t : StoredMemory V} {event : DatabaseEvent} {es : List DatabaseEvent} {call : MemoryCall}
variable {kind key value uid : PyStr} {metadata : PyDict} {rows : List PgRow}

/-- When the transaction began that is open after these calls. -/
def opened (es : List DatabaseEvent) : Option Int :=
  es.foldl (fun since e =>
    if e.asked then
      match e.call with
      | .store .. => none
      | .search .. => some (since.getD e.meets.now)
    else since) none

/-- Neither database fails in the call, nor does the flush. -/
def Undisturbed (e : DatabaseEvent) : Prop :=
  e.meets.Taken ∧
    match e.call with
    | .store env _ => (∀ exc, env.neo4j ≠ .raises exc) ∧ env.flushError = none
    | .search senv _ => ∀ exc, senv.neo4j ≠ .raises exc

/-- The uid that a write draws -/
def drawn (e : DatabaseEvent) : Option PyStr :=
  match e.call with
  | .store env (.write ..) => some env.uid
  | _ => none

/-- The row was written in the transaction that was open then, or opened one itself. -/
def Stamped (es : List DatabaseEvent) (r : PgRow) : Prop :=
  ∃ before e after, es = before ++ e :: after ∧ e.asked = true ∧ drawn e = some r.uid ∧
    r.createdAt = (opened before).getD e.meets.now

structure InStep (kit : PostgresKit) (s₀ : StoredMemory V) (es : List DatabaseEvent) (s : StoredMemory V) :
    Prop where
  status : s.connection.status =
    match opened es with
    | none => .idle
    | some since => .inTransaction since s.connection.committed
  agrees : Agrees kit s
  rows : ∀ r ∈ s.connection.committed, r ∈ s₀.connection.committed ∨ Stamped es r

theorem InStep.alive (h : InStep kit s₀ es s) : ¬ s.connection.Dead := by
  rintro (hdead | hdead)
  · rw [h.status] at hdead
    split at hdead <;> cases hdead
  · rw [h.status] at hdead
    split at hdead <;> cases hdead

theorem InStep.clean (h : InStep kit s₀ es s) : s.connection.Clean := by
  unfold Sql.Connection.Clean Sql.Connection.data
  rw [h.status]
  cases opened es <;> rfl

theorem InStep.since (h : InStep kit s₀ es s) (now : Int) :
    s.connection.since now = (opened es).getD now := by
  unfold Sql.Connection.since
  rw [h.status]
  cases opened es <;> rfl

theorem Stamped.snoc {r : PgRow} (h : Stamped es r) (e : DatabaseEvent) : Stamped (es ++ [e]) r := by
  obtain ⟨before, e', after, rfl, hasked, huid, hstamp⟩ := h
  exact ⟨before, e', after ++ [e], by simp, hasked, huid, hstamp⟩

theorem Stamped.uid_mem {r : PgRow} (h : Stamped es r) : r.uid ∈ es.filterMap drawn := by
  obtain ⟨before, e, after, rfl, hasked, huid, hstamp⟩ := h
  exact List.mem_filterMap.mpr ⟨e, by simp, huid⟩

theorem insert_fresh (hfresh : uid ∉ rows.map PgRow.uid) (since : Int) :
    PostgresMemoryStore.insert kind key value uid metadata since rows =
      (since, rows ++ [{ uid, kind, key, value, metadata, createdAt := since }]) := by
  have hnone : rows.find? (fun r => r.uid = uid) = none := by
    rw [List.find?_eq_none]
    intro r hr heq
    exact hfresh (List.mem_map.mpr ⟨r, hr, of_decide_eq_true heq⟩)
  rw [PostgresMemoryStore.insert, hnone]

theorem quiet_of (hneo : ∀ exc, env.neo4j ≠ .raises exc) (hflush : env.flushError = none)
    (answer : Option PyStr) : (env.answered (.returns answer)).Quiet where
  postgres _ h := by cases h
  neo4j := hneo
  flush := hflush

theorem write_undisturbed (vs : VectorStore V) (h : InStep kit s₀ es s) (hx : x.Taken)
    (hneo : ∀ exc, env.neo4j ≠ .raises exc) (hflush : env.flushError = none)
    (hasks : (MemoryCall.write kind key value metadata).asks kit.cm s.service.items = true)
    (hfresh : env.uid ∉ s.connection.committed.map PgRow.uid) :
    ∃ t i r, store kit vs x env (.write kind key value metadata) s = .ok () t ∧
      t.service.items = s.service.items ++ [i] ∧
      t.connection = ⟨.idle, s.connection.committed ++ [r]⟩ ∧ PostgresMemoryStore.row kit r = asRow kit i ∧
      r.uid = env.uid ∧ r.createdAt = (opened es).getD x.now := by
  have hpassed : filtered kit.cm s.service.items (kindArg kit.cm kind) (PyStr.strip key)
      (PyStr.strip value) = false := by
    simpa [MemoryCall.asks] using hasks
  let r : PgRow :=
    { uid := env.uid, kind := kindArg kit.cm kind, key := PyStr.strip key, value := PyStr.strip value
      metadata := kit.jsonb metadata, createdAt := (opened es).getD x.now }
  have hrequest : request kit x env.uid (.write kind key value metadata) s.connection =
      .ok (some (kit.timestamp r.createdAt)) ⟨.idle, s.connection.committed ++ [r]⟩ := by
    rw [request, PostgresMemoryStore.write, bind_run, h.clean.update_taken h.alive hx, h.since,
      insert_fresh hfresh]
    rfl
  have hquiet := quiet_of hneo hflush (some (kit.timestamp r.createdAt))
  let i := stamp (.new env.now env.uid (kindArg kit.cm kind) (PyStr.strip key) (PyStr.strip value) metadata)
    (some (kit.timestamp r.createdAt))
  let m : MemoryService V :=
    { items := s.service.items ++ [i]
      index := s.service.index.map (indexItem vs
        (env.answered (.returns (some (kit.timestamp r.createdAt)))) i)
      file := .ofItems (s.service.items ++ [i]) }
  have hrun : (MemoryCall.write kind key value metadata).run kit.cm vs
      (env.answered (.returns (some (kit.timestamp r.createdAt)))) s.service = .ok () m := by
    simp only [MemoryCall.run, bind_run, write_eq, hpassed, append_quiet hquiet]
    rfl
  refine ⟨⟨m, ⟨.idle, s.connection.committed ++ [r]⟩⟩, i, r, ?_, rfl, rfl, ?_, rfl, rfl⟩
  · rw [store_asked hasks, hrequest]
    change beside _ ((MemoryCall.write kind key value metadata).run kit.cm vs
      (env.answered (.returns (some (kit.timestamp r.createdAt)))) s.service) = _
    rw [hrun]
    rfl
  · have hstamp : i.createdAt = kit.timestamp r.createdAt :=
      if_neg (kit.timestamp_ne r.createdAt)
    rw [asRow, hstamp]
    rfl

theorem delete_undisturbed (vs : VectorStore V) (kind key : PyStr) (h : InStep kit s₀ es s)
    (hx : x.Taken) (hneo : ∀ exc, env.neo4j ≠ .raises exc) (hflush : env.flushError = none) :
    ∃ t, store kit vs x env (.delete kind key) s = .ok () t ∧
      t.service.items = s.service.items.filter (fun i => !named kind key i) ∧
      t.connection =
        ⟨.idle, s.connection.committed.filter fun r => !PostgresMemoryStore.named kind key r⟩ := by
  have hrequest : request kit x env.uid (.delete kind key) s.connection =
      .ok none ⟨.idle, s.connection.committed.filter fun r => !PostgresMemoryStore.named kind key r⟩ := by
    rw [request, PostgresMemoryStore.delete, bind_run, h.clean.update_taken h.alive hx]
    rfl
  have hrun : ∃ m, (MemoryCall.delete kind key).run kit.cm vs (env.answered (.returns none)) s.service =
      .ok () m ∧ m.items = s.service.items.filter fun i => !named kind key i := by
    simp only [MemoryCall.run, bind_run, delete_quiet (quiet_of hneo hflush none)]
    exact ⟨_, rfl, rfl⟩
  obtain ⟨m, hrun, hitems⟩ := hrun
  refine ⟨⟨m, _⟩, ?_, hitems, rfl⟩
  rw [store_asked rfl, hrequest]
  change beside _ ((MemoryCall.delete kind key).run kit.cm vs (env.answered (.returns none)) s.service) = _
  rw [hrun]
  rfl

theorem eraseAll_undisturbed (vs : VectorStore V) (h : InStep kit s₀ es s) (hx : x.Taken)
    (hneo : ∀ exc, env.neo4j ≠ .raises exc) (hflush : env.flushError = none) :
    ∃ t, store kit vs x env .eraseAll s = .ok () t ∧ t.service.items = [] ∧ t.connection = ⟨.idle, []⟩ := by
  have hrequest : request kit x env.uid .eraseAll s.connection = .ok none ⟨.idle, []⟩ := by
    rw [request, PostgresMemoryStore.deleteAll, bind_run, h.clean.update_taken h.alive hx]
    rfl
  have hrun : ∃ m, MemoryCall.eraseAll.run kit.cm vs (env.answered (.returns none)) s.service =
      .ok () m ∧ m.items = [] := by
    simp only [MemoryCall.run, bind_run, eraseAll_quiet (quiet_of hneo hflush none)]
    exact ⟨_, rfl, rfl⟩
  obtain ⟨m, hrun, hitems⟩ := hrun
  refine ⟨⟨m, _⟩, ?_, hitems, rfl⟩
  rw [store_asked rfl, hrequest]
  change beside _ (MemoryCall.eraseAll.run kit.cm vs (env.answered (.returns none)) s.service) = _
  rw [hrun]
  rfl

/-- A search that neither database fails gives a result and changes nothing. -/
theorem search_quiet (cm : CaseMap) (query : PyStr) (m : MemoryService V) (hsenv : senv.Quiet) :
    ∃ found, MemoryService.search cm senv query m = .ok found m := by
  unfold MemoryService.search
  simp only [bind_run, get_run, call_value hsenv.postgres, call_value hsenv.neo4j]
  split
  · cases semanticSearch senv m.items query (merged senv.fresh (m.items.filter (selects cm query))
      (senv.postgres.value [] ++ senv.neo4j.value [])) with
    | some ranked => exact ⟨ranked, rfl⟩
    | none => exact ⟨_, rfl⟩
  · exact ⟨_, rfl⟩

theorem search_undisturbed {query : PyStr} (h : InStep kit s₀ es s) (hx : x.Taken)
    (hneo : ∀ exc, senv.neo4j ≠ .raises exc) :
    search kit x senv query s = .ok ()
      ⟨s.service, .inTransaction ((opened es).getD x.now) s.connection.committed,
        s.connection.committed⟩ := by
  have hrequest := h.clean.read_taken h.alive hx kit.driver (PostgresMemoryStore.found kit query)
  have hquiet : SearchEnv.Quiet
      { senv with postgres := .returns (PostgresMemoryStore.found kit query s.connection.committed) } :=
    ⟨fun exc hexc => (by cases hexc), hneo⟩
  obtain ⟨found, hfound⟩ := search_quiet kit.cm query s.service hquiet
  unfold search PostgresMemoryStore.search
  rw [hrequest, h.since]
  change beside _ (MemoryService.search kit.cm
    { senv with postgres := .returns (PostgresMemoryStore.found kit query s.connection.committed) } query
    s.service) = _
  rw [hfound]
  rfl

theorem opened_snoc (es : List DatabaseEvent) (e : DatabaseEvent) :
    opened (es ++ [e]) =
      if e.asked then
        match e.call with
        | .store .. => none
        | .search .. => some ((opened es).getD e.meets.now)
      else opened es := by
  rw [opened, List.foldl_append]
  rfl

/-- The old rows are as they were. -/
theorem InStep.old (h : InStep kit s₀ es s) (e : DatabaseEvent) :
    ∀ r ∈ s.connection.committed, r ∈ s₀.connection.committed ∨ Stamped (es ++ [e]) r :=
  fun r hr => (h.rows r hr).imp_right fun hst => hst.snoc e

theorem step_inStep (h : InStep kit s₀ es s) (hevent : Undisturbed event)
    (hfresh : ∀ uid, drawn event = some uid → uid ∉ s.connection.committed.map PgRow.uid)
    (hst : (databaseSystem kit vs).step s event t) :
    event.raised = false ∧ InStep kit s₀ (es ++ [event]) t := by
  obtain ⟨hasked, hraised, rfl⟩ := hst
  obtain ⟨hx, hcalm⟩ := hevent
  cases hcall : event.call with
  | search senv query =>
    rw [hcall] at hcalm hasked
    have htrue : event.asked = true := hasked
    have hopened : opened (es ++ [event]) = some ((opened es).getD event.meets.now) := by
      rw [opened_snoc, htrue, if_pos rfl, hcall]
    rw [hraised, hcall, perform, search_undisturbed h hx hcalm]
    refine ⟨rfl, ?_, h.agrees, h.old event⟩
    rw [hopened]
    rfl
  | store env call =>
    rw [hcall] at hcalm hasked
    obtain ⟨hneo, hflush⟩ := hcalm
    cases hasks : call.asks kit.cm s.service.items with
    | false =>
      have hrefused := perform_refused vs event.meets (s := s) (.store env call) hasks
      rw [hraised, hcall, hrefused]
      refine ⟨rfl, ?_, h.agrees, h.old event⟩
      have hnot : event.asked = false := hasked.trans hasks
      rw [opened_snoc, hnot, if_neg Bool.false_ne_true]
      exact h.status
    | true =>
      have htrue : event.asked = true := hasked.trans hasks
      have hopened : opened (es ++ [event]) = none := by
        rw [opened_snoc, htrue, if_pos rfl, hcall]
      cases call with
      | write kind key value metadata =>
        have huid : drawn event = some env.uid := by
          rw [drawn, hcall]
        obtain ⟨t, i, r, hrun, hitems, hconn, hrow, hruid, hstamp⟩ :=
          write_undisturbed vs h hx hneo hflush hasks (hfresh _ huid)
        rw [hraised, hcall, perform, hrun]
        refine ⟨rfl, ?_, ?_, ?_⟩
        · rw [hopened]
          exact congrArg Sql.Connection.status hconn
        · unfold Agrees
          change t.connection.committed.map _ = t.service.items.map _
          rw [hitems, hconn, List.map_append, List.map_append, h.agrees]
          simp [hrow]
        · intro r' hr'
          change r' ∈ t.connection.committed at hr'
          rw [hconn] at hr'
          rcases List.mem_append.mp hr' with hr' | hr'
          · exact h.old event r' hr'
          · cases List.mem_singleton.mp hr'
            refine .inr ⟨es, event, [], rfl, htrue, ?_, hstamp⟩
            rw [huid, hruid]
      | delete kind key =>
        obtain ⟨t, hrun, hitems, hconn⟩ := delete_undisturbed vs kind key h hx hneo hflush
        rw [hraised, hcall, perform, hrun]
        refine ⟨rfl, ?_, ?_, ?_⟩
        · rw [hopened]
          exact congrArg Sql.Connection.status hconn
        · unfold Agrees
          change t.connection.committed.map _ = t.service.items.map _
          rw [hitems, hconn]
          have hrows := congrArg
            (List.filter fun m : MemoryRow => !(decide (m.kind = kind) && decide (m.key = key))) h.agrees
          rw [List.filter_map, List.filter_map] at hrows
          exact hrows
        · intro r hr
          change r ∈ t.connection.committed at hr
          rw [hconn] at hr
          exact h.old event r (List.mem_of_mem_filter hr)
      | eraseAll =>
        obtain ⟨t, hrun, hitems, hconn⟩ := eraseAll_undisturbed vs h hx hneo hflush
        rw [hraised, hcall, perform, hrun]
        refine ⟨rfl, ?_, ?_, ?_⟩
        · rw [hopened]
          exact congrArg Sql.Connection.status hconn
        · unfold Agrees
          change t.connection.committed.map _ = t.service.items.map _
          rw [hitems, hconn]
          rfl
        · intro r hr
          change r ∈ t.connection.committed at hr
          rw [hconn] at hr
          cases hr

theorem inStep_run (h : InStep kit s₀ es s) {later : List DatabaseEvent}
    (hcalm : ∀ e ∈ later, Undisturbed e)
    (huids : (s₀.connection.committed.map PgRow.uid ++ (es ++ later).filterMap drawn).Nodup)
    (hrun : (databaseSystem kit vs).Run s later t) :
    (∀ e ∈ later, e.raised = false) ∧ InStep kit s₀ (es ++ later) t := by
  induction hrun generalizing es with
  | nil s =>
    rw [List.append_nil]
    exact ⟨fun e he => (by cases he), h⟩
  | @cons s u t event later hst _ ih =>
    have hfresh : ∀ uid, drawn event = some uid → uid ∉ s.connection.committed.map PgRow.uid := by
      intro uid huid hmem
      obtain ⟨r, hr, rfl⟩ := List.mem_map.mp hmem
      rw [List.filterMap_append, List.filterMap_cons, huid, ← List.append_assoc] at huids
      have hearlier : r.uid ∈ s₀.connection.committed.map PgRow.uid ++ es.filterMap drawn := by
        rcases h.rows r hr with hold | hstamped
        · exact List.mem_append_left _ (List.mem_map_of_mem hold)
        · exact List.mem_append_right _ hstamped.uid_mem
      exact (List.nodup_append.mp huids).2.2 _ hearlier _ List.mem_cons_self rfl
    obtain ⟨hraised, hnext⟩ := step_inStep h (hcalm event List.mem_cons_self) hfresh hst
    rw [List.append_cons] at huids ⊢
    obtain ⟨hothers, hlast⟩ := ih hnext (fun e he => hcalm e (List.mem_cons_of_mem _ he)) huids
    refine ⟨fun e he => ?_, hlast⟩
    rcases List.mem_cons.mp he with rfl | he
    · exact hraised
    · exact hothers e he

/-- While nothing fails, no call raises, the table holds the items in their order, and a row's `created_at`
is the time at which the transaction of its write began: that of the first search since the last
commit, where there was one. -/
theorem postgres_in_step (kit : PostgresKit) (vs : VectorStore V) (hstart : (databaseSystem kit vs).init s₀)
    (hcalm : ∀ e ∈ es, Undisturbed e)
    (huids : (s₀.connection.committed.map PgRow.uid ++ es.filterMap drawn).Nodup)
    (hrun : (databaseSystem kit vs).Run s₀ es t) :
    (∀ e ∈ es, e.raised = false) ∧ Agrees kit t ∧
      ∀ r ∈ t.connection.committed, r ∈ s₀.connection.committed ∨ Stamped es r := by
  have hinit : InStep kit s₀ [] s₀ := ⟨hstart.1, hstart.2, fun r hr => .inl hr⟩
  obtain ⟨hraised, hlast⟩ := inStep_run hinit hcalm huids hrun
  exact ⟨hraised, hlast.agrees, hlast.rows⟩

end InStep

/-- Times below ten microseconds, and metadata that `JSONB` keeps as it is -/
def plainPostgres : PostgresKit where
  cm := .asciiOnly
  driver := ⟨.builtin "InFailedSqlTransaction", .builtin "OperationalError"⟩
  jsonb metadata := metadata
  timestamp t := str "1970-01-01 00:00:00.00000" ++ [0x30 + t.toNat % 10] ++ str "+00"
  timestamp_ne t h := by
    rw [List.append_eq_nil_iff] at h
    cases h.2

def started : StoredMemory Unit := ⟨.synced [], ⟨.idle, []⟩⟩

/-- A search at one time and a write at a later one -/
def searched : DatabaseEvent :=
  ⟨⟨5, .taken, .taken⟩, .search .fileOnly (str "tea"), true, false⟩

def written : DatabaseEvent :=
  ⟨⟨9, .taken, .taken⟩, .store (.fileOnly [] (str "u1")) (.write (str "note") (str "drink") (str "tea") []),
    true, false⟩

def afterSearch : StoredMemory Unit :=
  final (perform plainPostgres .inert searched.meets searched.call started)

def afterWrite : StoredMemory Unit :=
  final (perform plainPostgres .inert written.meets written.call afterSearch)

theorem postgres_in_step_tea :
    (∀ e ∈ [searched, written], e.raised = false) ∧ Agrees plainPostgres afterWrite ∧
      ∀ r ∈ afterWrite.connection.committed, r ∈ started.connection.committed ∨
        Stamped [searched, written] r := by
  have hstart : (databaseSystem plainPostgres VectorStore.inert).init started := ⟨rfl, rfl⟩
  apply postgres_in_step plainPostgres VectorStore.inert hstart
  · intro e he
    rcases List.mem_cons.mp he with rfl | he
    · exact ⟨⟨rfl, rfl⟩, fun exc h => by cases h⟩
    · cases List.mem_singleton.mp he
      exact ⟨⟨rfl, rfl⟩, fun exc h => (by cases h), rfl⟩
  · decide
  · exact .cons (t := afterSearch) ⟨rfl, rfl, rfl⟩ (.cons ⟨by decide, rfl, rfl⟩ (.nil afterWrite))

/-- The server takes no text with a zero character, in `JSONB` either. -/
def refusedWrite : DatabaseEvent :=
  ⟨⟨5, .refused (.builtin "UntranslatableCharacter"), .taken⟩,
    .store (.fileOnly [] (str "u1")) (.write (str "note") (str "drink") (str "tea") [(str "from", .str [0])]),
    true, true⟩

def afterRefusal : StoredMemory Unit :=
  final (perform plainPostgres .inert refusedWrite.meets refusedWrite.call started)

def refusedSearch : DatabaseEvent := { searched with meets := ⟨9, .taken, .taken⟩, raised := true }

def afterAll : StoredMemory Unit :=
  final (perform plainPostgres .inert refusedSearch.meets refusedSearch.call afterRefusal)

theorem postgres_failure_is_final_zero :
    afterAll.connection.committed = started.connection.committed ∧
      afterAll.service.file = started.service.file ∧
      ∀ e ∈ [refusedWrite, refusedSearch], e.asked = true → e.raised = true :=
  postgres_failure_is_final (s := started) (t := afterRefusal) plainPostgres VectorStore.inert
    (.inl ⟨_, rfl⟩) rfl ⟨by decide, rfl, rfl⟩ (.cons ⟨rfl, rfl, rfl⟩ (.nil afterAll))

end StoredMemory

end VirtualPerson
