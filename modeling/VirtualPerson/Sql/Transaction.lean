import VirtualPerson.Stateful

/-!
# Connections without autocommit

The first statement opens a transaction and only a commit closes it. After a statement that the
server refused every other one raises, and no commit or rollback comes by itself. Nothing here
mentions a program.
-/

namespace VirtualPerson

set_option autoImplicit false

namespace Sql

open Stateful

variable {ε D α : Type}

/-- `since` is when the open transaction began, and `data` what it has made of the data so far. -/
inductive TransactionStatus (D : Type) where
  | idle
  | inTransaction (since : Int) (data : D)
  | inError
  | closed

structure Connection (D : Type) where
  status : TransactionStatus D
  committed : D

/-- What a driver raises by itself. -/
structure Driver (ε : Type) where
  inFailedTransaction : ε
  connectionClosed : ε

/-- What comes of a statement. -/
inductive Verdict (ε : Type) where
  | taken
  /-- The driver cannot send the arguments; the transaction is open by then. -/
  | unsent (e : ε)
  | refused (e : ε)
  /-- The connection breaks. -/
  | dropped (e : ε)

/-- What comes of a commit; one that is refused is rolled back. -/
inductive CommitVerdict (ε : Type) where
  | taken
  | refused (e : ε)
  | dropped (e : ε) (applied : Bool)

/-- What one call meets: the server's clock, and what comes of its statement and its commit. -/
structure Meets (ε : Type) where
  now : Int
  statement : Verdict ε
  commit : CommitVerdict ε

namespace Connection

/-- When the transaction of the next statement began. -/
def since (c : Connection D) (now : Int) : Int :=
  match c.status with
  | .inTransaction since _ => since
  | _ => now

/-- What the next statement finds. -/
def data (c : Connection D) : D :=
  match c.status with
  | .inTransaction _ data => data
  | _ => c.committed

/-- Every statement raises. -/
def Dead (c : Connection D) : Prop := c.status = .inError ∨ c.status = .closed

/-- No transaction is open that has changed anything. -/
def Clean (c : Connection D) : Prop := c.data = c.committed

/-- A statement on a connection that works. -/
def send (now : Int) (v : Verdict ε) (stmt : Int → D → α × D) : EStateM ε (Connection D) α := fun c =>
  match v with
  | .taken =>
    .ok (stmt (c.since now) c.data).1
      { c with status := .inTransaction (c.since now) (stmt (c.since now) c.data).2 }
  | .unsent e => .error e { c with status := .inTransaction (c.since now) c.data }
  | .refused e => .error e { c with status := .inError }
  | .dropped e => .error e { c with status := .closed }

end Connection

open Connection

/-- The statement gets the time at which its transaction began. -/
def execute (driver : Driver ε) (now : Int) (v : Verdict ε) (stmt : Int → D → α × D) :
    EStateM ε (Connection D) α := fun c =>
  match c.status with
  | .closed => .error driver.connectionClosed c
  | .inError =>
    match v with
    | .taken => .error driver.inFailedTransaction c
    | .unsent e => .error e c
    | .refused _ => .error driver.inFailedTransaction c
    | .dropped e => .error e { c with status := .closed }
  | .idle => send now v stmt c
  | .inTransaction _ _ => send now v stmt c

def commit (driver : Driver ε) (v : CommitVerdict ε) : EStateM ε (Connection D) Unit := fun c =>
  match c.status with
  | .idle => .ok () c
  | .inTransaction _ data =>
    match v with
    | .taken => .ok () { status := .idle, committed := data }
    | .refused e => .error e { c with status := .idle }
    | .dropped e applied => .error e { status := .closed, committed := if applied then data else c.committed }
  | .inError => .ok () { c with status := .idle }
  | .closed => .error driver.connectionClosed c

/-- A query, after which nothing is committed. -/
def read (driver : Driver ε) (x : Meets ε) (query : D → α) : EStateM ε (Connection D) α :=
  execute driver x.now x.statement fun _ d => (query d, d)

/-- A statement and a commit. -/
def update (driver : Driver ε) (x : Meets ε) (stmt : Int → D → α × D) : EStateM ε (Connection D) α := do
  let a ← execute driver x.now x.statement stmt
  commit driver x.commit
  return a

/-- The server refuses the statement, or the connection breaks. -/
def Meets.Fails (x : Meets ε) : Prop :=
  (∃ e, x.statement = .refused e) ∨ ∃ e, x.statement = .dropped e

structure Meets.Taken (x : Meets ε) : Prop where
  statement : x.statement = .taken
  commit : x.commit = .taken

section Rules

variable {x : Meets ε} {now : Int} {v : Verdict ε} {c : Connection D}

theorem execute_alive (h : ¬ c.Dead) (driver : Driver ε) (stmt : Int → D → α × D) :
    execute driver now v stmt c = send now v stmt c := by
  unfold execute
  cases hs : c.status with
  | idle => rfl
  | inTransaction since data => rfl
  | inError => exact absurd (.inl hs) h
  | closed => exact absurd (.inr hs) h

/-- A dead connection raises, stays dead and keeps its data. -/
theorem execute_dead (h : c.Dead) (driver : Driver ε) (stmt : Int → D → α × D) :
    ∃ e c', execute driver now v stmt c = .error e c' ∧ c'.Dead ∧ c'.committed = c.committed := by
  unfold execute
  rcases h with h | h
  · rw [h]
    cases v with
    | dropped e => exact ⟨e, { c with status := .closed }, rfl, .inr rfl, rfl⟩
    | _ => exact ⟨_, c, rfl, .inl h, rfl⟩
  · rw [h]
    exact ⟨_, c, rfl, .inr h, rfl⟩

theorem execute_fails (hx : x.Fails) (h : ¬ c.Dead) (driver : Driver ε) (stmt : Int → D → α × D) :
    ∃ e c', execute driver x.now x.statement stmt c = .error e c' ∧ c'.Dead ∧
      c'.committed = c.committed := by
  rw [execute_alive h]
  rcases hx with ⟨e, hx⟩ | ⟨e, hx⟩
  · rw [hx]
    exact ⟨e, { c with status := .inError }, rfl, .inl rfl, rfl⟩
  · rw [hx]
    exact ⟨e, { c with status := .closed }, rfl, .inr rfl, rfl⟩

theorem execute_stops (h : x.Fails ∨ c.Dead) (driver : Driver ε) (stmt : Int → D → α × D) :
    ∃ e c', execute driver x.now x.statement stmt c = .error e c' ∧ c'.Dead ∧
      c'.committed = c.committed := by
  by_cases hdead : c.Dead
  · exact execute_dead hdead driver stmt
  · exact execute_fails (h.resolve_right hdead) hdead driver stmt

theorem read_stops (h : x.Fails ∨ c.Dead) (driver : Driver ε) (query : D → α) :
    ∃ e c', read driver x query c = .error e c' ∧ c'.Dead ∧ c'.committed = c.committed :=
  execute_stops h driver _

theorem update_stops (h : x.Fails ∨ c.Dead) (driver : Driver ε) (stmt : Int → D → α × D) :
    ∃ e c', update driver x stmt c = .error e c' ∧ c'.Dead ∧ c'.committed = c.committed := by
  obtain ⟨e, c', hrun, hkept⟩ := execute_stops h driver stmt
  refine ⟨e, c', ?_, hkept⟩
  rw [update, bind_run, hrun]

theorem Connection.Clean.read_taken (hc : c.Clean) (h : ¬ c.Dead) (hx : x.Taken) (driver : Driver ε)
    (query : D → α) :
    read driver x query c =
      .ok (query c.committed) { c with status := .inTransaction (c.since x.now) c.committed } := by
  have hdata : c.data = c.committed := hc
  rw [read, execute_alive h, hx.statement, send, hdata]

theorem Connection.Clean.update_taken (hc : c.Clean) (h : ¬ c.Dead) (hx : x.Taken) (driver : Driver ε)
    (stmt : Int → D → α × D) :
    update driver x stmt c =
      .ok (stmt (c.since x.now) c.committed).1
        { status := .idle, committed := (stmt (c.since x.now) c.committed).2 } := by
  have hdata : c.data = c.committed := hc
  rw [update, bind_run, execute_alive h, hx.statement, send, hdata]
  simp only [bind_run, commit, hx.commit, pure_run]

end Rules

end Sql

end VirtualPerson
