import VirtualPerson.Memory.Postgres
import VirtualPerson.Memory.Undo

/-!
# The Neo4j store, and what a delete forgets

`Neo4jMemoryStore` runs every query in a session of its own. A memory service over it: which
memories can still come back once a delete has returned, whatever fails and however often the
process starts again.
-/

namespace VirtualPerson

set_option autoImplicit false

open MemoryService Stateful

/-- A node `MemoryItem`; its metadata is a text. -/
structure GraphNode where
  uid : PyStr
  kind : PyStr
  key : PyStr
  value : PyStr
  metadata : PyStr
  createdAt : Int

structure Neo4jKit where
  cm : CaseMap
  dumps : PyDict → PyStr
  loads : PyStr → Option PyDict
  /-- `toString(m.created_at)` -/
  timestamp : Int → PyStr

/-- What becomes of `session.run`, which commits by itself. -/
inductive GraphSession where
  | runs (now : Int)
  | refused (e : PyExc)
  /-- The change is made, but the answer does not arrive. -/
  | lost (now : Int) (e : PyExc)

namespace GraphSession

def update (x : GraphSession) (change : Int → List GraphNode → List GraphNode) :
    EStateM PyExc (List GraphNode) Unit := fun nodes =>
  match x with
  | .runs now => .ok () (change now nodes)
  | .refused e => .error e nodes
  | .lost now e => .error e (change now nodes)

def read {α : Type} (x : GraphSession) (query : List GraphNode → α) : EStateM PyExc (List GraphNode) α :=
  fun nodes =>
    match x with
    | .runs _ => .ok (query nodes) nodes
    | .refused e => .error e nodes
    | .lost _ e => .error e nodes

end GraphSession

namespace Neo4jMemoryStore

variable (kit : Neo4jKit) (x : GraphSession)

/-- `MERGE (m:MemoryItem {uid: $uid}) SET …` -/
def merge (kind key value uid : PyStr) (metadata : PyDict) (now : Int) (nodes : List GraphNode) :
    List GraphNode :=
  let node : GraphNode := { uid, kind, key, value, metadata := kit.dumps metadata, createdAt := now }
  if nodes.any fun n => n.uid = uid then nodes.map fun n => if n.uid = uid then node else n
  else nodes ++ [node]

def write (kind key value uid : PyStr) (metadata : PyDict) : EStateM PyExc (List GraphNode) Unit :=
  x.update (merge kit kind key value uid metadata)

def named (kind key : PyStr) (n : GraphNode) : Bool := n.kind = kind && n.key = key

def delete (kind key : PyStr) : EStateM PyExc (List GraphNode) Unit :=
  x.update fun _ nodes => nodes.filter fun n => !named kind key n

def deleteAll : EStateM PyExc (List GraphNode) Unit := x.update fun _ _ => []

/-- The `WHERE` condition of `search`; `toLower` is `str.lower`. -/
def selects (query : PyStr) (n : GraphNode) : Bool :=
  let q := kit.cm.lower query
  PyStr.contains (kit.cm.lower n.kind) q || PyStr.contains (kit.cm.lower n.key) q ||
    PyStr.contains (kit.cm.lower n.value) q

def row (n : GraphNode) : MemoryRow :=
  { kind := n.kind, key := n.key, value := n.value, createdAt := kit.timestamp n.createdAt
    metadata := (kit.loads (PyStr.orElse n.metadata (str "\x7b\x7d"))).getD []
    uid := n.uid, source := str "neo4j" }

/-- Nodes of one `created_at` come in the order in which they were made here. -/
def found (query : PyStr) (nodes : List GraphNode) : List MemoryRow :=
  (((nodes.filter (selects kit query)).mergeSort
    fun a b => decide (b.createdAt ≤ a.createdAt)).take 100).map (row kit)

def search (query : PyStr) : EStateM PyExc (List GraphNode) (List MemoryRow) :=
  x.read (found kit query)

end Neo4jMemoryStore

structure GraphMemory (V : Type) where
  service : MemoryService V
  nodes : List GraphNode

/-- In `env` and `senv` stand the answers of Postgres; the graph gives its own. -/
inductive GraphEvent (V : Type) where
  | store (env : Env) (x : GraphSession) (call : MemoryCall) (raised : Bool)
  | search (senv : SearchEnv) (x : GraphSession) (query : PyStr) (answer : Except PyExc (List MemoryItem))
  /-- The process starts again, on the same file. -/
  | restart (fresh : Nat → PyStr × PyStr) (index : Option V)

namespace GraphMemory

variable {V : Type} (kit : Neo4jKit) (vs : VectorStore V) (x : GraphSession)

def request (uid : PyStr) : MemoryCall → EStateM PyExc (List GraphNode) Unit
  | .write kind key value metadata =>
    Neo4jMemoryStore.write kit x (kindArg kit.cm kind) (PyStr.strip key) (PyStr.strip value) uid metadata
  | .delete kind key => Neo4jMemoryStore.delete x kind key
  | .eraseAll => Neo4jMemoryStore.deleteAll x

/-- Postgres comes first, and the graph is not asked where it raises. -/
def reaches (env : Env) (call : MemoryCall) (items : List MemoryItem) : Bool :=
  call.asks kit.cm items &&
    match env.postgres with
    | .raises _ => false
    | _ => true

/-- What the graph does in a call, and what it answers. -/
def answered (env : Env) (call : MemoryCall) (s : GraphMemory V) :
    EStateM.Result PyExc (List GraphNode) Unit :=
  if reaches kit env call s.service.items then request kit x env.uid call s.nodes else .ok () s.nodes

def store (env : Env) (call : MemoryCall) (s : GraphMemory V) :
    EStateM.Result PyExc (MemoryService V) Unit :=
  call.run kit.cm vs { env with neo4j := .ofResult (answered kit x env call s) } s.service

def search (senv : SearchEnv) (query : PyStr) (s : GraphMemory V) :
    EStateM.Result PyExc (MemoryService V) (List MemoryItem) :=
  MemoryService.search kit.cm
    { senv with neo4j := .ofResult (Neo4jMemoryStore.search kit x query s.nodes) } query s.service

/-- What a call returns or raises -/
def outcome {σ α : Type} : EStateM.Result PyExc σ α → Except PyExc α
  | .ok a _ => .ok a
  | .error e _ => .error e

end GraphMemory

/-- The calls of one service after another on the same file and the same graph -/
def graphSystem {V : Type} (kit : Neo4jKit) (vs : VectorStore V) :
    System (GraphMemory V) (GraphEvent V) where
  init s := ∃ fresh, s.service.items = s.service.file.load fresh
  step s e t :=
    match e with
    | .store env x call raised =>
      raised = StoredMemory.raises (GraphMemory.store kit vs x env call s) ∧
        t = ⟨final (GraphMemory.store kit vs x env call s), final (GraphMemory.answered kit x env call s)⟩
    | .search senv x query answer =>
      answer = GraphMemory.outcome (GraphMemory.search kit x senv query s) ∧ t = s
    | .restart fresh index =>
      t = ⟨{ items := s.service.file.load fresh, index, file := s.service.file }, s.nodes⟩

/-- The call writes under this kind and key. -/
def MemoryCall.WritesAs (cm : CaseMap) (kind key : PyStr) : MemoryCall → Prop
  | .write k k' _ _ => kindArg cm k = kind ∧ PyStr.strip k' = key
  | _ => False

/-- A search that finds this kind and key finds it in a row that Postgres gave. -/
def SearchEnv.Blames (senv : SearchEnv) (kind key : PyStr) (results : List MemoryItem) : Prop :=
  ∀ i ∈ results, named kind key i = true →
    ∃ rows, senv.postgres = .returns rows ∧ ∃ r ∈ rows, r.kind = kind ∧ r.key = key

namespace GraphEvent

variable {V : Type}

def Writes (cm : CaseMap) (kind key : PyStr) : GraphEvent V → Prop
  | store _ _ call _ => call.WritesAs cm kind key
  | _ => False

/-- The event shows nothing of this kind and key that is not from Postgres. -/
def Silent (kind key : PyStr) : GraphEvent V → Prop
  | search senv _ _ (.ok results) => senv.Blames kind key results
  | _ => True

end GraphEvent

namespace GraphMemory

variable {V : Type} {kit : Neo4jKit} {vs : VectorStore V} {x : GraphSession} {env : Env} {senv : SearchEnv}
variable {cm : CaseMap} {call : MemoryCall} {m : MemoryService V} {s t u : GraphMemory V}
variable {event : GraphEvent V} {es : List (GraphEvent V)} {kind key query : PyStr}

/-- No record of the file has this kind and key. -/
def Absent (kind key : PyStr) (file : PersistFile) : Prop :=
  ∀ fresh, ∀ i ∈ file.load fresh, named kind key i = false

/-- Neither the service nor the graph has anything of this kind and key. -/
structure Lacks (kind key : PyStr) (s : GraphMemory V) : Prop where
  items : ∀ i ∈ s.service.items, named kind key i = false
  nodes : ∀ n ∈ s.nodes, Neo4jMemoryStore.named kind key n = false

theorem absent_ofItems {items : List MemoryItem} (h : ∀ i ∈ items, named kind key i = false) :
    Absent kind key (.ofItems items) := by
  intro fresh i hi
  rw [PersistFile.load_ofItems] at hi
  exact h i hi

theorem final_discard {α : Type} (p : ServiceM V α) :
    final ((do let _ ← p : ServiceM V Unit) m) = final (p m) := by
  rw [final_bind]
  cases p m <;> rfl

theorem file_append (vs : VectorStore V) (env : Env) (i : MemoryItem) (m : MemoryService V) :
    (final (append vs env i m)).file = m.file ∨
      (final (append vs env i m)).file = .ofItems (final (append vs env i m)).items := by
  unfold append flushPersisted
  cases env.postgres with
  | raises e => exact .inl rfl
  | _ =>
    cases env.neo4j with
    | raises e => exact .inl rfl
    | _ =>
      cases env.flushError with
      | none => exact .inr rfl
      | some e => exact .inl rfl

/-- A delete drops its items whatever fails; it gets to the file only when the databases have answered. -/
theorem final_delete (vs : VectorStore V) (env : Env) (kind key : PyStr) (m : MemoryService V) :
    (final (MemoryService.delete vs env kind key m)).items = (m.items.filter fun i => !named kind key i) ∧
      ((final (MemoryService.delete vs env kind key m)).file = m.file ∨
        (final (MemoryService.delete vs env kind key m)).file =
          .ofItems (m.items.filter fun i => !named kind key i)) := by
  unfold MemoryService.delete flushPersisted
  cases env.postgres with
  | raises e => exact ⟨rfl, .inl rfl⟩
  | _ =>
    cases env.neo4j with
    | raises e => exact ⟨rfl, .inl rfl⟩
    | _ =>
      simp only [bind_run, get_run, set_run, call, pure_run]
      split
      · cases env.flushError with
        | none => exact ⟨rfl, .inr rfl⟩
        | some e => exact ⟨rfl, .inl rfl⟩
      · exact ⟨rfl, .inl rfl⟩

theorem final_eraseAll (vs : VectorStore V) (env : Env) (m : MemoryService V) :
    (final (MemoryService.eraseAll vs env m)).items = [] ∧
      ((final (MemoryService.eraseAll vs env m)).file = m.file ∨
        (final (MemoryService.eraseAll vs env m)).file = .ofItems []) := by
  unfold MemoryService.eraseAll flushPersisted
  cases env.postgres with
  | raises e => exact ⟨rfl, .inl rfl⟩
  | _ =>
    cases env.neo4j with
    | raises e => exact ⟨rfl, .inl rfl⟩
    | _ =>
      cases env.flushError with
      | none => exact ⟨rfl, .inr rfl⟩
      | some e => exact ⟨rfl, .inl rfl⟩

theorem items_run (vs : VectorStore V) (env : Env) (hw : ¬ call.WritesAs cm kind key)
    (h : ∀ i ∈ m.items, named kind key i = false) :
    ∀ i ∈ (final (call.run cm vs env m)).items, named kind key i = false := by
  intro i hi
  cases call with
  | write k k' value metadata =>
    rw [MemoryCall.run, final_discard, write_eq] at hi
    split at hi
    · exact h i hi
    · obtain ⟨createdAt, hitems⟩ := final_append vs env
        (.new env.now env.uid (kindArg cm k) (PyStr.strip k') (PyStr.strip value) metadata) m
      rw [hitems] at hi
      rcases List.mem_append.mp hi with hi | hi
      · exact h i hi
      · rw [List.mem_singleton.mp hi, Bool.eq_false_iff]
        exact fun hnamed => hw (named_iff.mp hnamed)
  | delete k k' =>
    rw [MemoryCall.run, final_discard, (final_delete vs env k k' m).1] at hi
    exact h i (List.mem_of_mem_filter hi)
  | eraseAll =>
    rw [MemoryCall.run, final_discard, (final_eraseAll vs env m).1] at hi
    cases hi

theorem file_run (cm : CaseMap) (vs : VectorStore V) (env : Env) (call : MemoryCall) (m : MemoryService V) :
    (final (call.run cm vs env m)).file = m.file ∨
      (final (call.run cm vs env m)).file = .ofItems (final (call.run cm vs env m)).items := by
  cases call with
  | write k k' value metadata =>
    rw [MemoryCall.run, final_discard, write_eq]
    split
    · exact .inl rfl
    · exact file_append vs env _ m
  | delete k k' =>
    rw [MemoryCall.run, final_discard, (final_delete vs env k k' m).1]
    exact (final_delete vs env k k' m).2
  | eraseAll =>
    rw [MemoryCall.run, final_discard, (final_eraseAll vs env m).1]
    exact (final_eraseAll vs env m).2

/-- A delete that returns was answered by both databases, and has written the file if it removed any. -/
theorem delete_returned
    (h : StoredMemory.raises ((MemoryCall.delete kind key).run cm vs env m) = false) :
    (∀ e, env.postgres ≠ .raises e) ∧ (∀ e, env.neo4j ≠ .raises e) ∧
      (final ((MemoryCall.delete kind key).run cm vs env m)).file =
        if m.items.any (named kind key) then .ofItems (m.items.filter fun i => !named kind key i)
        else m.file := by
  cases hrun : MemoryService.delete vs env kind key m with
  | error e m' =>
    rw [MemoryCall.run, bind_run, hrun] at h
    cases h
  | ok removed m' =>
    rw [MemoryCall.run, final_discard, hrun]
    unfold MemoryService.delete flushPersisted at hrun
    cases hpg : env.postgres with
    | raises e =>
      rw [hpg] at hrun
      cases hrun
    | _ =>
      rw [hpg] at hrun
      cases hneo : env.neo4j with
      | raises e =>
        rw [hneo] at hrun
        cases hrun
      | _ =>
        rw [hneo] at hrun
        refine ⟨fun e he => (by cases he), fun e he => (by cases he), ?_⟩
        simp only [bind_run, get_run, set_run, call, pure_run, decide_eq_true_eq,
          length_kept_lt_iff] at hrun
        split at hrun
        · rename_i hany
          cases hflush : env.flushError with
          | none =>
            rw [hflush] at hrun
            cases hrun
            rw [if_pos hany]
            rfl
          | some e =>
            rw [hflush] at hrun
            cases hrun
        · rename_i hnone
          cases hrun
          rw [if_neg hnone]
          rfl

theorem update_nodes (x : GraphSession) (change : Int → List GraphNode → List GraphNode)
    (nodes : List GraphNode) :
    final (x.update change nodes) = nodes ∨ ∃ now, final (x.update change nodes) = change now nodes := by
  cases x with
  | runs now => exact .inr ⟨now, rfl⟩
  | refused e => exact .inl rfl
  | lost now e => exact .inr ⟨now, rfl⟩

theorem of_mem_merge {k k' value uid : PyStr} {metadata : PyDict} {now : Int} {nodes : List GraphNode}
    {n : GraphNode} (h : n ∈ Neo4jMemoryStore.merge kit k k' value uid metadata now nodes) :
    n ∈ nodes ∨ n.kind = k ∧ n.key = k' := by
  unfold Neo4jMemoryStore.merge at h
  dsimp only at h
  split at h
  · obtain ⟨old, hold, rfl⟩ := List.mem_map.mp h
    split
    · exact .inr ⟨rfl, rfl⟩
    · exact .inl hold
  · rcases List.mem_append.mp h with h | h
    · exact .inl h
    · rw [List.mem_singleton.mp h]
      exact .inr ⟨rfl, rfl⟩

theorem nodes_request (x : GraphSession) (uid : PyStr) (hw : ¬ call.WritesAs kit.cm kind key)
    {nodes : List GraphNode} (h : ∀ n ∈ nodes, Neo4jMemoryStore.named kind key n = false) :
    ∀ n ∈ final (request kit x uid call nodes), Neo4jMemoryStore.named kind key n = false := by
  intro n hn
  cases call with
  | write k k' value metadata =>
    rcases update_nodes x (Neo4jMemoryStore.merge kit (kindArg kit.cm k) (PyStr.strip k')
      (PyStr.strip value) uid metadata) nodes with hsame | ⟨now, hchanged⟩
    · exact h n (hsame ▸ hn)
    · rcases of_mem_merge (hchanged ▸ hn) with hold | hnew
      · exact h n hold
      · rw [Bool.eq_false_iff]
        intro hnamed
        simp only [Neo4jMemoryStore.named, Bool.and_eq_true, decide_eq_true_eq] at hnamed
        exact hw ⟨hnew.1.symm.trans hnamed.1, hnew.2.symm.trans hnamed.2⟩
  | delete k k' =>
    rcases update_nodes x (fun _ nodes => nodes.filter fun n => !Neo4jMemoryStore.named k k' n) nodes with
      hsame | ⟨now, hchanged⟩
    · exact h n (hsame ▸ hn)
    · exact h n (List.mem_of_mem_filter (hchanged ▸ hn))
  | eraseAll =>
    rcases update_nodes x (fun _ _ => []) nodes with hsame | ⟨now, hchanged⟩
    · exact h n (hsame ▸ hn)
    · cases (hchanged ▸ hn : n ∈ [])

theorem nodes_answered (x : GraphSession) (env : Env) (hw : ¬ call.WritesAs kit.cm kind key)
    (h : ∀ n ∈ s.nodes, Neo4jMemoryStore.named kind key n = false) :
    ∀ n ∈ final (answered kit x env call s), Neo4jMemoryStore.named kind key n = false := by
  unfold answered
  split
  · exact nodes_request x env.uid hw h
  · exact h

theorem of_mem_found {nodes : List GraphNode} {r : MemoryRow}
    (h : r ∈ Neo4jMemoryStore.found kit query nodes) : ∃ n ∈ nodes, n.kind = r.kind ∧ n.key = r.key := by
  obtain ⟨n, hn, rfl⟩ := List.mem_map.mp h
  have hsorted := List.mem_of_mem_take hn
  rw [List.mem_mergeSort] at hsorted
  exact ⟨n, List.mem_of_mem_filter hsorted, rfl, rfl⟩

/-- An item of the merged results is an item of the service, or made of a row. -/
theorem of_mem_merged {fresh : Nat → PyStr × PyStr} {items : List MemoryItem} {rows : List MemoryRow}
    {i : MemoryItem} (h : i ∈ merged fresh items rows) :
    i ∈ items ∨ ∃ r ∈ rows, r.kind = i.kind ∧ r.key = i.key := by
  have hfold : ∀ (es : List (MemoryRow × Nat)) (d : List ((PyStr × PyStr × PyStr) × MemoryItem)),
      i ∈ Assoc.values (es.foldl (fun d e =>
        let i := rowItem (fresh e.2).1 (fresh e.2).2 e.1
        if (Assoc.get? d i.triple).isSome then d else Assoc.set d i.triple i) d) →
      i ∈ Assoc.values d ∨ ∃ e ∈ es, e.1.kind = i.kind ∧ e.1.key = i.key := by
    intro es
    induction es with
    | nil => exact fun d h => .inl h
    | cons e es ih =>
      intro d h
      rcases ih _ h with h | ⟨e', he', hsame⟩
      · dsimp only at h
        split at h
        · exact .inl h
        · obtain ⟨entry, hentry, rfl⟩ := List.mem_map.mp h
          rcases Assoc.mem_set hentry with rfl | hold
          · exact .inr ⟨e, List.mem_cons_self, rfl, rfl⟩
          · exact .inl (List.mem_map_of_mem hold)
      · exact .inr ⟨e', List.mem_cons_of_mem e he', hsame⟩
  rcases hfold _ _ h with h | ⟨e, he, hsame⟩
  · exact .inl (Assoc.mem_of_mem_index h)
  · exact .inr ⟨e.1, List.fst_mem_of_mem_zipIdx he, hsame⟩

theorem quiet_of_search {results : List MemoryItem} {m' : MemoryService V}
    (h : MemoryService.search cm senv query m = .ok results m') : senv.Quiet := by
  unfold MemoryService.search at h
  cases hpg : senv.postgres with
  | raises e =>
    rw [hpg] at h
    cases h
  | _ =>
    rw [hpg] at h
    cases hneo : senv.neo4j with
    | raises e =>
      rw [hneo] at h
      cases h
    | _ => exact ⟨fun e he => by simp [hpg] at he, fun e he => by simp [hneo] at he⟩

theorem mem_value {a : Answer (List MemoryRow)} {r : MemoryRow} (h : r ∈ a.value []) :
    ∃ rows, a = .returns rows ∧ r ∈ rows := by
  cases a with
  | returns rows => exact ⟨rows, rfl, h⟩
  | missing => cases h
  | raises e => cases h

/-- A search finds nothing but what the service holds and what a database gives it. -/
theorem of_mem_search {results : List MemoryItem} {m' : MemoryService V} {i : MemoryItem}
    (hrun : MemoryService.search cm senv query m = .ok results m') (hi : i ∈ results) :
    i ∈ m.items ∨ ∃ rows, (senv.postgres = .returns rows ∨ senv.neo4j = .returns rows) ∧
      ∃ r ∈ rows, r.kind = i.kind ∧ r.key = i.key := by
  have hquiet := quiet_of_search hrun
  have hkeyword (j : MemoryItem) (hj : j ∈ merged senv.fresh (m.items.filter (selects cm query))
      (senv.postgres.value [] ++ senv.neo4j.value [])) :
      j ∈ m.items ∨ ∃ rows, (senv.postgres = .returns rows ∨ senv.neo4j = .returns rows) ∧
        ∃ r ∈ rows, r.kind = j.kind ∧ r.key = j.key := by
    rcases of_mem_merged hj with hj | ⟨r, hr, hsame⟩
    · exact .inl (List.mem_of_mem_filter hj)
    · rcases List.mem_append.mp hr with hr | hr
      · obtain ⟨rows, hrows, hmem⟩ := mem_value hr
        exact .inr ⟨rows, .inl hrows, r, hmem, hsame⟩
      · obtain ⟨rows, hrows, hmem⟩ := mem_value hr
        exact .inr ⟨rows, .inr hrows, r, hmem, hsame⟩
  simp only [MemoryService.search, bind_run, get_run, call_value hquiet.postgres,
    call_value hquiet.neo4j] at hrun
  split at hrun
  · cases hranked : semanticSearch senv m.items query (merged senv.fresh
        (m.items.filter (selects cm query)) (senv.postgres.value [] ++ senv.neo4j.value [])) with
    | some ranked =>
      simp only [hranked, pure_run] at hrun
      cases hrun
      rcases mem_semanticSearch hranked hi with hi | hi
      · exact hkeyword i hi
      · exact .inl hi
    | none =>
      simp only [hranked, pure_run] at hrun
      cases hrun
      exact hkeyword i hi
  · cases hrun
    exact hkeyword i hi

theorem Lacks.search (h : Lacks kind key s) {results : List MemoryItem} {m : MemoryService V}
    (hrun : search kit x senv query s = .ok results m) : senv.Blames kind key results := by
  intro i hi hnamed
  obtain ⟨hkind, hkey⟩ := named_iff.mp hnamed
  rcases of_mem_search hrun hi with hi | ⟨rows, hpg | hneo, r, hr, hsame⟩
  · rw [h.items i hi] at hnamed
    cases hnamed
  · exact ⟨rows, hpg, r, hr, hsame.1.trans hkind, hsame.2.trans hkey⟩
  · -- the graph answers from its nodes, and none of them is of this kind and key
    dsimp only at hneo
    cases x with
    | runs now =>
      cases hneo
      obtain ⟨n, hn, hnode⟩ := of_mem_found hr
      have hnamed' : Neo4jMemoryStore.named kind key n = true := by
        simp [Neo4jMemoryStore.named, hnode, hsame, hkind, hkey]
      rw [h.nodes n hn] at hnamed'
      cases hnamed'
    | refused e => cases hneo
    | lost now e => cases hneo

/-- Nothing of this kind and key is left, in the file neither. -/
structure Forgotten (kind key : PyStr) (s : GraphMemory V) : Prop where
  lacks : Lacks kind key s
  file : Absent kind key s.service.file

theorem Forgotten.step (h : Forgotten kind key s) (hst : (graphSystem kit vs).step s event t)
    (hw : ¬ event.Writes kit.cm kind key) : Forgotten kind key t ∧ event.Silent kind key := by
  cases event with
  | store env x call raised =>
    obtain ⟨-, rfl⟩ := hst
    refine ⟨⟨⟨items_run vs _ hw h.lacks.items, nodes_answered x env hw h.lacks.nodes⟩, ?_⟩, trivial⟩
    rcases file_run kit.cm vs { env with neo4j := .ofResult (answered kit x env call s) } call
      s.service with hsame | hflushed
    · exact fun fresh i hi => h.file fresh i (hsame ▸ hi)
    · exact fun fresh i hi =>
        absent_ofItems (items_run vs _ hw h.lacks.items) fresh i (hflushed ▸ hi)
  | search senv x query answer =>
    obtain ⟨rfl, rfl⟩ := hst
    refine ⟨h, ?_⟩
    cases hrun : search kit x senv query t with
    | error e m => trivial
    | ok results m => exact h.lacks.search hrun
  | restart fresh index =>
    cases hst
    exact ⟨⟨⟨h.file fresh, h.lacks.nodes⟩, h.file⟩, trivial⟩

theorem Forgotten.run (h : Forgotten kind key s) (hrun : (graphSystem kit vs).Run s es t)
    (hw : ∀ e ∈ es, ¬ e.Writes kit.cm kind key) :
    Forgotten kind key t ∧ ∀ e ∈ es, e.Silent kind key := by
  induction hrun with
  | nil => exact ⟨h, fun e he => absurd he List.not_mem_nil⟩
  | cons hst _ ih =>
    obtain ⟨hnext, hfirst⟩ := h.step hst (hw _ List.mem_cons_self)
    obtain ⟨hlast, hrest⟩ := ih hnext fun e he => hw e (List.mem_cons_of_mem _ he)
    exact ⟨hlast, List.forall_mem_cons.mpr ⟨hfirst, hrest⟩⟩

/-- What a delete that returns leaves -/
theorem lacks_deleted (hst : (graphSystem kit vs).step s (.store env x (.delete kind key) false) t) :
    Lacks kind key t ∧ t.service.file =
      if s.service.items.any (named kind key) then
        .ofItems (s.service.items.filter fun i => !named kind key i)
      else s.service.file := by
  obtain ⟨hraised, rfl⟩ := hst
  obtain ⟨hpg, hneo, hfile⟩ := delete_returned hraised.symm
  refine ⟨⟨?_, ?_⟩, hfile⟩
  · intro i hi
    change i ∈ (final ((MemoryCall.delete kind key).run _ _ _ _)).items at hi
    rw [MemoryCall.run, final_discard, (final_delete _ _ _ _ _).1] at hi
    simpa using (List.mem_filter.mp hi).2
  · have hreaches : reaches kit env (.delete kind key) s.service.items = true := by
      unfold reaches
      cases hanswer : env.postgres with
      | raises e => exact absurd hanswer (hpg e)
      | _ => rfl
    intro n hn
    dsimp only at hneo hn
    rw [answered, if_pos hreaches] at hneo hn
    cases x with
    | runs now =>
      have hkept : n ∈ s.nodes.filter fun n => !Neo4jMemoryStore.named kind key n := hn
      simpa using (List.mem_filter.mp hkept).2
    | refused e => exact absurd rfl (hneo e)
    | lost now e => exact absurd rfl (hneo e)

/-- Once a delete has returned, nothing of its kind and key is ever found again but what Postgres gives,
whatever else is called, fails or starts again, if and only if the delete itself removed an item or the
file held none: a delete that is repeated after it has failed does not write the file. -/
theorem forgotten_iff (hst : (graphSystem kit vs).step s (.store env x (.delete kind key) false) t) :
    (∀ es u, (graphSystem kit vs).Run t es u → (∀ e ∈ es, ¬ e.Writes kit.cm kind key) →
        Lacks kind key u ∧ ∀ e ∈ es, e.Silent kind key) ↔
      (∃ i ∈ s.service.items, named kind key i = true) ∨ Absent kind key s.service.file := by
  obtain ⟨hlacks, hfile⟩ := lacks_deleted hst
  constructor
  · intro hnever
    by_cases hany : s.service.items.any (named kind key) = true
    · exact .inl (List.any_eq_true.mp hany)
    · right
      intro fresh i hi
      rw [if_neg hany] at hfile
      -- the process starts again at once
      obtain ⟨hafter, -⟩ := hnever [.restart fresh none] _ (.single rfl) (by simp [GraphEvent.Writes])
      apply hafter.items i
      rw [← hfile] at hi
      exact hi
  · intro hgone es u hrun hw
    have hforgotten : Forgotten kind key t := by
      refine ⟨hlacks, ?_⟩
      rw [hfile]
      split
      · exact absent_ofItems fun i hi => by simpa using (List.mem_filter.mp hi).2
      · rename_i hnone
        rcases hgone with hsome | habsent
        · exact absurd (List.any_eq_true.mpr hsome) hnone
        · exact habsent
    obtain ⟨hlast, hsilent⟩ := hforgotten.run hrun hw
    exact ⟨hlast.lacks, hsilent⟩

def emptyTexts : Neo4jKit :=
  { cm := .asciiOnly, dumps := fun _ => str "\x7b\x7d", loads := fun _ => some [], timestamp := fun _ => [] }

def likesTea : MemoryItem := .new (str "t0") (str "u0") (str "pref") (str "drink") (str "tea") []

def teaNode : GraphNode :=
  { uid := str "u0", kind := str "pref", key := str "drink", value := str "tea"
    metadata := str "\x7b\x7d", createdAt := 0 }

def dropDrink (x : GraphSession) (raised : Bool) : GraphEvent Unit :=
  .store (.fileOnly (str "t1") (str "u1")) x (.delete (str "pref") (str "drink")) raised

/-- The first delete fails at the graph, the second returns: the tea is still in the file. -/
theorem forgotten_iff_repeated :
    ∃ s t, (graphSystem emptyTexts .inert).step ⟨.synced [likesTea], [teaNode]⟩
        (dropDrink (.refused (.builtin "ConnectionError")) true) s ∧
      (graphSystem emptyTexts .inert).step s (dropDrink (.runs 1) false) t ∧
      ¬ ∀ es u, (graphSystem emptyTexts .inert).Run t es u →
        (∀ e ∈ es, ¬ e.Writes .asciiOnly (str "pref") (str "drink")) →
          Lacks (str "pref") (str "drink") u ∧ ∀ e ∈ es, e.Silent (str "pref") (str "drink") := by
  refine ⟨⟨{ items := [], index := none, file := .ofItems [likesTea] }, [teaNode]⟩, _, ⟨rfl, rfl⟩,
    ⟨rfl, rfl⟩, ?_⟩
  intro hnever
  rcases (forgotten_iff ⟨rfl, rfl⟩).mp hnever with ⟨i, hi, -⟩ | habsent
  · cases hi
  · have hload := PersistFile.load_ofItems (fun _ => ([], [])) [likesTea]
    have hfalse := habsent (fun _ => ([], [])) likesTea (by rw [hload]; exact List.mem_cons_self)
    exact absurd hfalse (by decide)

end GraphMemory

end VirtualPerson
