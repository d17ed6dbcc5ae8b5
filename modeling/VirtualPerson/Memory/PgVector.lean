import VirtualPerson.Machine
import VirtualPerson.Memory.Atomicity
import VirtualPerson.Memory.Backends
import VirtualPerson.Sql.Transaction

/-!
# The vector table on its one connection

`PgVectorStore` connects once and never rolls back either, but the memory service swallows what
it raises. What is left of semantic memory after a statement that failed.
-/

namespace VirtualPerson

set_option autoImplicit false

open MemoryService Stateful

variable {F S V : Type}

/-- The connection of the vector store; `meets n` is what its `n`-th statement meets. -/
structure PgSession (F : Type) where
  dim : Int
  connection : Sql.Connection (IndexMap F)
  meets : Nat → Sql.Meets PyExc
  asked : Nat

/-- The driver, and what makes a similarity of the table a Python float -/
structure PgVectorKit (F S : Type) where
  cm : CaseMap
  driver : Sql.Driver PyExc
  semantic : SemanticKit F
  sim : List F → List F → S
  float : S → PyFloat

namespace PgSession

/-- After a statement -/
def next (p : PgSession F) (connection : Sql.Connection (IndexMap F)) : PgSession F :=
  { p with connection, asked := p.asked + 1 }

/-- A statement and its commit, whatever comes of them -/
def update (driver : Sql.Driver PyExc) (stmt : IndexMap F → IndexMap F) (p : PgSession F) : PgSession F :=
  p.next (final (Sql.update driver (p.meets p.asked) (fun _ m => ((), stmt m)) p.connection))

/-- `PgVectorStore` as the service uses it; a text or a vector that does not fit raises before any
statement. -/
def store (kit : PgVectorKit F S) : VectorStore (PgSession F) where
  upsert uid text metadata p :=
    match kit.semantic.embed text with
    | some vector =>
      if (vector.length : Int) = p.dim then
        p.update kit.driver fun m => (PgVectorStore.upsert uid text vector metadata m).toOption.getD m
      else p
    | none => p
  delete uid p := p.update kit.driver (PgVectorStore.delete uid)
  deleteAll p := p.update kit.driver PgVectorStore.deleteAll

section Search

variable [AddCommGroup S] [LinearOrder S] [One S] (kit : PgVectorKit F S)

def hitsOf (vector : List F) (m : IndexMap F) : List (PyStr × PyFloat) :=
  ((PgVectorStore.query kit.sim vector (topK kit.semantic) m).toOption.getD []).map fun h =>
    (h.1, kit.float h.2.1)

/-- What `_semantic_search` gets from the store, `none` where it raises or asks nothing. -/
def ask (query : PyStr) (p : PgSession F) : Option (List (PyStr × PyFloat)) × PgSession F :=
  if PyStr.strip query = [] then (none, p)
  else
    match kit.semantic.embed (PyStr.strip query) with
    | none => (none, p)
    | some vector =>
      if topK kit.semantic ≤ 0 then (some [], p)
      else if (vector.length : Int) = p.dim then
        match Sql.read kit.driver (p.meets p.asked) (hitsOf kit vector) p.connection with
        | .ok found c => (some found, p.next c)
        | .error _ c => (none, p.next c)
      else (none, p)

/-- `search`; where a database raises it does not get to the vector store. -/
def search (senv : SearchEnv) (query : PyStr) : ServiceM (PgSession F) (List MemoryItem) := fun s =>
  match s.index with
  | none => MemoryService.search kit.cm { senv with hits := none } query s
  | some p =>
    match MemoryService.search kit.cm { senv with hits := (ask kit query p).1 } query s with
    | .ok found t => .ok found { t with index := some (ask kit query p).2 }
    | .error e t => .error e t

end Search

end PgSession

inductive VectorCall where
  | store (env : Env) (call : MemoryCall)
  | search (senv : SearchEnv) (query : PyStr)

/-- What a call returns, items for a search, or raises; and the state it leaves. -/
def Stateful.outcome {σ α β : Type} (f : α → β) : EStateM.Result PyExc σ α → Except PyExc β × σ
  | .ok a t => (.ok (f a), t)
  | .error e t => (.error e, t)

/-- The calls of one service -/
def vectorMachine [AddCommGroup S] [LinearOrder S] [One S] (kit : PgVectorKit F S) :
    Machine (MemoryService (PgSession F)) VectorCall (Except PyExc (Option (List MemoryItem))) where
  step call s :=
    match call with
    | .store env call => outcome (fun _ => none) (call.run kit.cm (PgSession.store kit) env s)
    | .search senv query => outcome some (PgSession.search kit senv query s)

section Beside

variable {cm : CaseMap} {vs : VectorStore V} {env : Env} {s : MemoryService V} {I : V → Prop}

/-- Every operation of the store keeps `I`. -/
structure VectorStore.Keeps (vs : VectorStore V) (I : V → Prop) : Prop where
  upsert : ∀ uid text metadata v, I v → I (vs.upsert uid text metadata v)
  delete : ∀ uid v, I v → I (vs.delete uid v)
  deleteAll : ∀ v, I v → I (vs.deleteAll v)

theorem VectorStore.Keeps.indexItem (h : vs.Keeps I) (env : Env) (i : MemoryItem) {v : V} (hv : I v) :
    I (indexItem vs env i v) := by
  unfold MemoryService.indexItem
  split
  · exact h.upsert _ _ _ v hv
  · exact hv

theorem VectorStore.Keeps.unindexItems (h : vs.Keeps I) (env : Env) (is : List MemoryItem) {v : V}
    (hv : I v) :
    I (is.foldl (unindexItem vs env) v) := by
  induction is generalizing v with
  | nil => exact hv
  | cons i is ih =>
    apply ih
    unfold unindexItem
    split
    · exact h.delete _ v hv
    · exact hv

/-- The two results of a call, with and without the semantic layer, which the call changes by `f`. -/
def Beside {α : Type} (f : V → V) (index : Option V) (r r' : EStateM.Result PyExc (MemoryService V) α) :
    Prop :=
  (final r').index = none ∧ outcome id r = ((outcome id r').1, { final r' with index := index.map f })

theorem beside_id {α : Type} (index : Option V) (a : Except PyExc α) (items : List MemoryItem)
    (file : PersistFile) :
    Beside id index
      (match a with
        | .ok a => .ok a { items, index, file }
        | .error e => .error e { items, index, file })
      (match a with
        | .ok a => .ok a { items, index := none, file }
        | .error e => .error e { items, index := none, file }) := by
  unfold Beside
  rw [Option.map_id]
  cases a with
  | ok a => exact ⟨rfl, rfl⟩
  | error e => exact ⟨rfl, rfl⟩

theorem append_beside (vs : VectorStore V) (env : Env) (item : MemoryItem) (s : MemoryService V) :
    ∃ f : V → V, (∀ I, vs.Keeps I → ∀ v, I v → I (f v)) ∧
      Beside f s.index (append vs env item s) (append vs env item s.unindexed) := by
  unfold append flushPersisted
  cases env.postgres with
  | raises e => exact ⟨id, fun I _ v hv => hv, beside_id s.index (.error e) _ _⟩
  | _ =>
    cases env.neo4j with
    | raises e => exact ⟨id, fun I _ v hv => hv, beside_id s.index (.error e) _ _⟩
    | _ =>
      cases env.flushError with
      | some e => exact ⟨_, fun I h v hv => h.indexItem env _ hv, rfl, rfl⟩
      | none => exact ⟨_, fun I h v hv => h.indexItem env _ hv, rfl, rfl⟩

theorem write_beside (cm : CaseMap) (vs : VectorStore V) (env : Env) (kind key value : PyStr)
    (metadata : PyDict)
    (s : MemoryService V) :
    ∃ f : V → V, (∀ I, vs.Keeps I → ∀ v, I v → I (f v)) ∧
      Beside f s.index (write cm vs env kind key value metadata s)
        (write cm vs env kind key value metadata s.unindexed) := by
  have hitems : s.unindexed.items = s.items := rfl
  rw [write_eq, write_eq, hitems]
  split
  · exact ⟨id, fun I _ v hv => hv, beside_id s.index (.ok _) s.items s.file⟩
  · exact append_beside vs env _ s

theorem delete_beside (vs : VectorStore V) (env : Env) (kind key : PyStr) (s : MemoryService V) :
    ∃ f : V → V, (∀ I, vs.Keeps I → ∀ v, I v → I (f v)) ∧
      Beside f s.index (delete vs env kind key s) (delete vs env kind key s.unindexed) := by
  have hitems : s.unindexed.items = s.items := rfl
  simp only [delete, bind_run, get_run, set_run, hitems]
  cases env.postgres with
  | raises e => exact ⟨id, fun I _ v hv => hv, beside_id s.index (.error e) _ _⟩
  | _ =>
    cases env.neo4j with
    | raises e => exact ⟨id, fun I _ v hv => hv, beside_id s.index (.error e) _ _⟩
    | _ =>
      refine ⟨_, fun I h v hv => h.unindexItems env (s.items.filter (named kind key)) hv, ?_⟩
      simp only [call, pure_run]
      split
      · unfold flushPersisted
        cases env.flushError with
        | some e => exact ⟨rfl, rfl⟩
        | none => exact ⟨rfl, rfl⟩
      · exact ⟨rfl, rfl⟩

theorem eraseAll_beside (vs : VectorStore V) (env : Env) (s : MemoryService V) :
    ∃ f : V → V, (∀ I, vs.Keeps I → ∀ v, I v → I (f v)) ∧
      Beside f s.index (eraseAll vs env s) (eraseAll vs env s.unindexed) := by
  unfold eraseAll flushPersisted
  cases env.postgres with
  | raises e => exact ⟨id, fun I _ v hv => hv, beside_id s.index (.error e) _ _⟩
  | _ =>
    cases env.neo4j with
    | raises e => exact ⟨id, fun I _ v hv => hv, beside_id s.index (.error e) _ _⟩
    | _ =>
      have hkeeps (I : V → Prop) (h : vs.Keeps I) (v : V) (hv : I v) :
          I (if env.indexCleared then vs.deleteAll v else v) := by
        split
        · exact h.deleteAll v hv
        · exact hv
      cases env.flushError with
      | some e => exact ⟨_, hkeeps, rfl, rfl⟩
      | none => exact ⟨_, hkeeps, rfl, rfl⟩

theorem Beside.unit {α : Type} {f : V → V} {index : Option V} {m : ServiceM V α} {s s' : MemoryService V}
    (h : Beside f index (m s) (m s')) :
    Beside f index ((do let _ ← m) s) ((do let _ ← m) s') := by
  obtain ⟨hnone, heq⟩ := h
  unfold Beside
  rw [bind_run, bind_run]
  cases hr : m s with
  | ok a t =>
    cases hr' : m s' with
    | ok b t' =>
      rw [hr, hr'] at heq
      cases heq
      rw [hr'] at hnone
      exact ⟨hnone, rfl⟩
    | error e t' =>
      rw [hr, hr'] at heq
      cases heq
  | error e t =>
    cases hr' : m s' with
    | ok b t' =>
      rw [hr, hr'] at heq
      cases heq
    | error e' t' =>
      rw [hr, hr'] at heq
      cases heq
      rw [hr'] at hnone
      exact ⟨hnone, rfl⟩

/-- The layer changes nothing of what a call does besides, and the call does nothing to the layer but
operations of its store. -/
theorem run_beside (cm : CaseMap) (vs : VectorStore V) (env : Env) (call : MemoryCall) (s : MemoryService V) :
    ∃ f : V → V, (∀ I, vs.Keeps I → ∀ v, I v → I (f v)) ∧
      Beside f s.index (call.run cm vs env s) (call.run cm vs env s.unindexed) := by
  cases call with
  | write kind key value metadata =>
    obtain ⟨f, hf, h⟩ := write_beside cm vs env kind key value metadata s
    exact ⟨f, hf, h.unit⟩
  | delete kind key =>
    obtain ⟨f, hf, h⟩ := delete_beside vs env kind key s
    exact ⟨f, hf, h.unit⟩
  | eraseAll =>
    obtain ⟨f, hf, h⟩ := eraseAll_beside vs env s
    exact ⟨f, hf, h.unit⟩

theorem search_beside (cm : CaseMap) (senv : SearchEnv) (query : PyStr) (s : MemoryService V) :
    Beside id s.index (MemoryService.search cm { senv with hits := none } query s)
      (MemoryService.search cm { senv with hits := none } query s.unindexed) := by
  have hitems : s.unindexed.items = s.items := rfl
  have hindex : s.unindexed.index = none := rfl
  have hnone (found : List MemoryItem) :
      semanticSearch { senv with hits := none } s.items query found = none := by
    unfold semanticSearch
    split <;> rfl
  simp only [MemoryService.search, bind_run, get_run, hitems, hindex, hnone]
  cases senv.postgres with
  | raises e => exact beside_id s.index (.error e) s.items s.file
  | _ =>
    cases senv.neo4j with
    | raises e => exact beside_id s.index (.error e) s.items s.file
    | _ =>
      simp only [call, pure_run]
      cases s.index.isSome with
      | true => exact beside_id s.index (.ok _) s.items s.file
      | false => exact beside_id s.index (.ok _) s.items s.file

end Beside

namespace PgSession

/-- Every statement from now on raises, so that the table stays as it is. -/
structure Frozen (table : IndexMap F) (p : PgSession F) : Prop where
  stops : (p.meets p.asked).Fails ∨ p.connection.Dead
  table : p.connection.committed = table

variable {table : IndexMap F} {p : PgSession F}

theorem Frozen.update (h : Frozen table p) (driver : Sql.Driver PyExc) (stmt : IndexMap F → IndexMap F) :
    Frozen table (p.update driver stmt) := by
  obtain ⟨e, c, hrun, hdead, hcommitted⟩ := Sql.update_stops h.stops driver fun _ m => ((), stmt m)
  unfold PgSession.update
  rw [hrun]
  exact ⟨.inr hdead, hcommitted.trans h.table⟩

theorem store_keeps (kit : PgVectorKit F S) (table : IndexMap F) : (store kit).Keeps (Frozen table) where
  upsert uid text metadata p h := by
    simp only [store]
    split
    · split
      · exact h.update kit.driver _
      · exact h
    · exact h
  delete uid p h := h.update kit.driver (PgVectorStore.delete uid)
  deleteAll p h := h.update kit.driver PgVectorStore.deleteAll

variable [AddCommGroup S] [LinearOrder S] [One S] {kit : PgVectorKit F S}

theorem Frozen.ask (h : Frozen table p) (hk : 0 < topK kit.semantic) (query : PyStr) :
    (ask kit query p).1 = none ∧ Frozen table (ask kit query p).2 := by
  unfold PgSession.ask
  split
  · exact ⟨rfl, h⟩
  · split
    · exact ⟨rfl, h⟩
    · rename_i vector _
      rw [if_neg (by omega)]
      split
      · obtain ⟨e, c, hrun, hdead, hcommitted⟩ := Sql.read_stops h.stops kit.driver (hitsOf kit vector)
        rw [hrun]
        exact ⟨rfl, .inr hdead, hcommitted.trans h.table⟩
      · exact ⟨rfl, h⟩

/-- The service without its semantic layer does the same, and the layer stays as it is. -/
def Silent (table : IndexMap F) (s s' : MemoryService (PgSession F)) : Prop :=
  s' = s.unindexed ∧ ∃ p, s.index = some p ∧ Frozen table p

theorem Silent.of_beside {s r : MemoryService (PgSession F)} {f : PgSession F → PgSession F}
    (hindex : s.index = some p) (hfrozen : Frozen table (f p)) (hnone : r.index = none) :
    Silent table { r with index := s.index.map f } r := by
  refine ⟨?_, f p, by rw [hindex]; rfl, hfrozen⟩
  cases r with
  | mk items index file =>
    cases hnone
    rfl

theorem outcome_eq {σ α β : Type} (g : α → β) (r : EStateM.Result PyExc σ α) :
    outcome g r = ((outcome id r).1.map g, (outcome id r).2) := by
  cases r <;> rfl

theorem outcome_final {σ α : Type} (r : EStateM.Result PyExc σ α) : (outcome id r).2 = final r := by
  cases r <;> rfl

theorem Silent.step {s s' : MemoryService (PgSession F)} (h : Silent table s s')
    (hk : 0 < topK kit.semantic) (call : VectorCall) :
    ((vectorMachine kit).step call s).1 = ((vectorMachine kit).step call s').1 ∧
      Silent table ((vectorMachine kit).step call s).2 ((vectorMachine kit).step call s').2 := by
  obtain ⟨rfl, p, hindex, hfrozen⟩ := h
  cases call with
  | store env call =>
    obtain ⟨f, hf, hnone, heq⟩ := run_beside kit.cm (store kit) env call s
    simp only [vectorMachine]
    rw [outcome_eq, outcome_eq _ (call.run kit.cm (store kit) env s.unindexed), heq, outcome_final]
    exact ⟨rfl, .of_beside hindex (hf _ (store_keeps kit table) p hfrozen) hnone⟩
  | search senv query =>
    obtain ⟨hhits, hasked⟩ := hfrozen.ask hk query
    obtain ⟨hnone, heq⟩ := search_beside kit.cm senv query s
    have hoff : PgSession.search kit senv query s.unindexed =
        MemoryService.search kit.cm { senv with hits := none } query s.unindexed := rfl
    simp only [vectorMachine, hoff]
    unfold PgSession.search
    rw [hindex]
    simp only [hhits]
    cases hr : MemoryService.search kit.cm { senv with hits := none } query s with
    | ok found t =>
      cases hr' : MemoryService.search kit.cm { senv with hits := none } query s.unindexed with
      | error e t' =>
        rw [hr, hr'] at heq
        cases heq
      | ok found' t' =>
        rw [hr, hr'] at heq
        cases heq
        rw [hr'] at hnone
        refine ⟨rfl, ?_⟩
        have hsilent := Silent.of_beside (s := s) (f := fun _ => (PgSession.ask kit query p).2) hindex
          hasked hnone
        rw [hindex] at hsilent
        exact hsilent
    | error e t =>
      cases hr' : MemoryService.search kit.cm { senv with hits := none } query s.unindexed with
      | ok found' t' =>
        rw [hr, hr'] at heq
        cases heq
      | error e' t' =>
        rw [hr, hr'] at heq
        cases heq
        rw [hr'] at hnone
        exact ⟨rfl, .of_beside hindex hfrozen hnone⟩

/-- Once a statement of the vector store has failed, or is the next to fail, the service answers every
call as one without semantic memory does, and the table does not change any more. -/
theorem pgvector_failure_is_silent (kit : PgVectorKit F S) (hk : 0 < topK kit.semantic)
    {s : MemoryService (PgSession F)} (hindex : s.index = some p)
    (hstops : (p.meets p.asked).Fails ∨ p.connection.Dead) (calls : List VectorCall) :
    (vectorMachine kit).answers calls s = (vectorMachine kit).answers calls s.unindexed ∧
      ((vectorMachine kit).final calls s).unindexed = (vectorMachine kit).final calls s.unindexed ∧
      ∃ p', ((vectorMachine kit).final calls s).index = some p' ∧
        p'.connection.committed = p.connection.committed := by
  have hstart : Silent p.connection.committed s s.unindexed := ⟨rfl, p, hindex, hstops, rfl⟩
  have hanswers : (vectorMachine kit).answers calls s =
      (vectorMachine kit).answers (calls.map id) s.unindexed :=
    Machine.answers_eq_of_simulation (fun _ => True) (Silent p.connection.committed)
      (fun _ h => h.step hk _) (fun _ _ => trivial) hstart
  have hfinal : Silent p.connection.committed ((vectorMachine kit).final calls s)
      ((vectorMachine kit).final (calls.map id) s.unindexed) :=
    Machine.final_of_simulation (fun _ => True) (Silent p.connection.committed)
      (fun _ h => (h.step hk _).2) (fun _ _ => trivial) hstart
  rw [List.map_id] at hanswers hfinal
  obtain ⟨hsame, p', hindex', hfrozen⟩ := hfinal
  exact ⟨hanswers, hsame.symm, p', hindex', hfrozen.table⟩

/-- One dimension, with the text's length as the vector -/
def plainKit : PgVectorKit ℚ ℚ where
  cm := .asciiOnly
  driver := ⟨.builtin "InFailedSqlTransaction", .builtin "OperationalError"⟩
  semantic :=
    { dim := 1
      embed := fun text => some [text.length]
      cosineSimilarities := fun matrix _ => matrix.map fun _ => .finite 1
      semanticTopK := 5 }
  sim _ _ := 1
  float := .finite

/-- The next upsert has a zero character in its metadata, which `JSONB` refuses. -/
def zeroSession : PgSession ℚ where
  dim := 1
  connection := ⟨.idle, .empty 1⟩
  meets n := ⟨n, if n = 0 then .refused (.builtin "UntranslatableCharacter") else .taken, .taken⟩
  asked := 0

def beforeZero : MemoryService (PgSession ℚ) := ⟨[], some zeroSession, .absent⟩

def zeroCalls : List VectorCall :=
  [.store (.fileOnly [] (str "u1")) (.write (str "note") (str "drink") [0x74, 0, 0x65] []),
    .store (.fileOnly [] (str "u2")) (.write (str "note") (str "food") (str "rice") []),
    .search .fileOnly (str "food")]

theorem pgvector_failure_is_silent_zero :
    (vectorMachine plainKit).answers zeroCalls beforeZero =
        (vectorMachine plainKit).answers zeroCalls beforeZero.unindexed ∧
      ((vectorMachine plainKit).final zeroCalls beforeZero).unindexed =
        (vectorMachine plainKit).final zeroCalls beforeZero.unindexed ∧
      ∃ p', ((vectorMachine plainKit).final zeroCalls beforeZero).index = some p' ∧
        p'.connection.committed = zeroSession.connection.committed :=
  pgvector_failure_is_silent (p := zeroSession) (s := beforeZero) plainKit (by decide) rfl
    (.inl (.inl ⟨_, rfl⟩)) zeroCalls

end PgSession

end VirtualPerson
