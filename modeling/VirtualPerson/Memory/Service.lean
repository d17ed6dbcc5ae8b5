import VirtualPerson.Python.Float
import VirtualPerson.Stateful

/-!
# The memory service

`MemoryService` over its item list, the semantic index and the persisted file. What
the backends answer in one call is an input of that call. The file is modelled at
the level of JSON values; its text encoding is left out.
-/

namespace VirtualPerson

set_option autoImplicit false

open Stateful

structure MemoryItem where
  kind : PyStr
  key : PyStr
  value : PyStr
  createdAt : PyStr
  metadata : PyDict
  uid : PyStr
  source : PyStr

namespace MemoryItem

/-- A new item; the time and the uid are drawn by the caller. -/
def new (now uid kind key value : PyStr) (metadata : PyDict) : MemoryItem :=
  { kind, key, value, createdAt := now, metadata, uid, source := str "memory-file" }

/-- The key under which search and the curation functions tell items apart. -/
def triple (i : MemoryItem) : PyStr × PyStr × PyStr := (i.kind, i.key, i.value)

def asdict (i : MemoryItem) : PyDict :=
  [(str "kind", .str i.kind), (str "key", .str i.key), (str "value", .str i.value),
    (str "created_at", .str i.createdAt), (str "metadata", .dict i.metadata),
    (str "uid", .str i.uid), (str "source", .str i.source)]

def fields : List PyStr :=
  [str "kind", str "key", str "value", str "created_at", str "metadata", str "uid", str "source"]

def strField (es : PyDict) (name : String) (default : Option PyStr) : Option PyStr :=
  match PyDict.get? es (str name) with
  | some (.str s) => some s
  | some _ => none
  | none => default

/-- `MemoryItem(**es)`, for records whose fields have the annotated types. -/
def ofDict (now uid : PyStr) (es : PyDict) : Option MemoryItem := do
  guard (es.all fun e => e.1 ∈ fields)
  let kind ← strField es "kind" none
  let key ← strField es "key" none
  let value ← strField es "value" none
  let createdAt ← strField es "created_at" (some now)
  let metadata ← match PyDict.get? es (str "metadata") with
    | some (.dict m) => some m
    | some _ => none
    | none => some []
  let uid ← strField es "uid" (some uid)
  let source ← strField es "source" (some (str "memory-file"))
  return { kind, key, value, createdAt, metadata, uid, source }

theorem ofDict_asdict (now uid : PyStr) (i : MemoryItem) : ofDict now uid i.asdict = some i := rfl

end MemoryItem

/-- The content of `persist_path`. -/
inductive PersistFile where
  | absent
  | unreadable
  | json (v : PyVal)

namespace PersistFile

def entries : PyVal → Option PyDict
  | .dict es => some es
  | _ => none

/-- `_load_persisted`; `fresh n` are the time and uid drawn for the `n`-th record. -/
def load (fresh : Nat → PyStr × PyStr) : PersistFile → List MemoryItem
  | .json (.list vs) =>
    (((vs.filterMap entries).zipIdx).mapM fun e =>
      MemoryItem.ofDict (fresh e.2).1 (fresh e.2).2 e.1).getD []
  | _ => []

/-- What `_flush_persisted` writes. -/
def ofItems (items : List MemoryItem) : PersistFile :=
  .json (.list (items.map fun i => .dict i.asdict))

/-- A file written by a flush holds exactly the items it was written from. -/
theorem load_ofItems (fresh : Nat → PyStr × PyStr) (items : List MemoryItem) :
    (ofItems items).load fresh = items := by
  have hentries : (items.map fun i => PyVal.dict i.asdict).filterMap entries =
      items.map MemoryItem.asdict := by
    rw [List.filterMap_map]
    exact List.filterMap_eq_map_iff_forall_eq_some.mpr fun _ _ => rfl
  have hmap : ∀ (is : List MemoryItem) (n : Nat),
      ((is.map MemoryItem.asdict).zipIdx n).mapM (fun e =>
        MemoryItem.ofDict (fresh e.2).1 (fresh e.2).2 e.1) = some is := by
    intro is
    induction is with
    | nil => exact fun n => rfl
    | cons i is ih =>
      intro n
      simp [List.mapM_cons, MemoryItem.ofDict_asdict, ih]
  simp only [ofItems, load, hentries, hmap, Option.getD_some]

/-- The file holds exactly these items, whatever is drawn for incomplete records. -/
def Holds (f : PersistFile) (items : List MemoryItem) : Prop := ∀ fresh, f.load fresh = items

theorem holds_ofItems (items : List MemoryItem) : (ofItems items).Holds items :=
  fun fresh => load_ofItems fresh items

end PersistFile

/-- What a backend does with one call. -/
inductive Answer (α : Type) where
  /-- Not configured, or not connected. -/
  | missing
  | raises (e : PyExc)
  | returns (a : α)

def Answer.value {α : Type} (default : α) : Answer α → α
  | .returns a => a
  | _ => default

/-- The semantic layer's store, with the embedder inside `upsert`. -/
structure VectorStore (V : Type) where
  upsert : (uid text : PyStr) → PyDict → V → V
  delete : (uid : PyStr) → V → V
  deleteAll : V → V

def VectorStore.inert : VectorStore Unit :=
  { upsert := fun _ _ _ v => v, delete := fun _ v => v, deleteAll := fun v => v }

/-- The surroundings of one call: what it draws and what its backends answer. -/
structure Env where
  now : PyStr
  uid : PyStr
  postgres : Answer (Option PyStr)
  neo4j : Answer Unit
  /-- Whether the semantic layer takes an operation on this uid. -/
  indexed : PyStr → Bool
  indexCleared : Bool
  flushError : Option PyExc

/-- No backend call and no flush of the call raises. -/
structure Env.Quiet (env : Env) : Prop where
  postgres : ∀ e, env.postgres ≠ .raises e
  neo4j : ∀ e, env.neo4j ≠ .raises e
  flush : env.flushError = none

def Env.fileOnly (now uid : PyStr) : Env :=
  { now, uid, postgres := .missing, neo4j := .missing, indexed := fun _ => true, indexCleared := true
    flushError := none }

theorem Env.quiet_fileOnly (now uid : PyStr) : (fileOnly now uid).Quiet where
  postgres _ h := by cases h
  neo4j _ h := by cases h
  flush := rfl

@[ext]
structure MemoryService (V : Type) where
  items : List MemoryItem
  /-- `none` while the semantic layer is inactive. -/
  index : Option V
  file : PersistFile

abbrev ServiceM (V : Type) := EStateM PyExc (MemoryService V)

/-- A row of a database search. -/
structure MemoryRow where
  kind : PyStr
  key : PyStr
  value : PyStr
  createdAt : PyStr
  metadata : PyDict
  uid : PyStr
  source : PyStr

structure SearchEnv where
  postgres : Answer (List MemoryRow)
  neo4j : Answer (List MemoryRow)
  /-- The time and uid drawn for the `n`-th row that lacks them. -/
  fresh : Nat → PyStr × PyStr
  /-- The vector store's answer; `none` where the embedder or the store raises. -/
  hits : Option (List (PyStr × PyFloat))
  /-- `retrieval_score` for the query -/
  retrievalScore : MemoryItem → ℚ

/-- No database search of the call raises. -/
structure SearchEnv.Quiet (senv : SearchEnv) : Prop where
  postgres : ∀ e, senv.postgres ≠ .raises e
  neo4j : ∀ e, senv.neo4j ≠ .raises e

def SearchEnv.fileOnly : SearchEnv :=
  { postgres := .missing, neo4j := .missing, fresh := fun _ => ([], []), hits := none
    retrievalScore := fun _ => 0 }

theorem SearchEnv.quiet_fileOnly : fileOnly.Quiet where
  postgres _ h := by cases h
  neo4j _ h := by cases h

namespace MemoryService

variable {V : Type}

def synced (items : List MemoryItem) : MemoryService V :=
  { items, index := none, file := .ofItems items }

/-- The service without its semantic layer. -/
def unindexed (s : MemoryService V) : MemoryService V := { s with index := none }

def normalized (cm : CaseMap) (text : PyStr) : PyStr :=
  PyStr.collapse false (cm.lower (PyStr.strip text))

def isNoise (kind key value : PyStr) : Bool :=
  PyStr.strip key = [] || PyStr.strip value = [] || (PyStr.strip value).length < 2 ||
    (kind = str "ephemeral" && (PyStr.strip value).length < 8)

/-- `_is_duplicate`: only the last 200 items are looked at. -/
def isDuplicate (cm : CaseMap) (items : List MemoryItem) (kind key value : PyStr) : Bool :=
  (items.drop (items.length - 200)).reverse.any fun i =>
    i.kind = kind && normalized cm i.key = normalized cm key &&
      normalized cm i.value = normalized cm value

def call {α : Type} (default : α) : Answer α → ServiceM V α
  | .missing => pure default
  | .raises e => throw e
  | .returns a => pure a

def flushPersisted (env : Env) : ServiceM V Unit :=
  match env.flushError with
  | some e => throw e
  | none => modify fun s => { s with file := .ofItems s.items }

/-- `_index_item`: embedding and index errors are swallowed. -/
def indexItem (vs : VectorStore V) (env : Env) (i : MemoryItem) (v : V) : V :=
  if env.indexed i.uid then
    vs.upsert i.uid (PyStr.strip (i.key ++ str " " ++ i.value))
      [(str "kind", .str i.kind), (str "key", .str i.key), (str "value", .str i.value),
        (str "created_at", .str i.createdAt), (str "uid", .str i.uid)] v
  else v

def unindexItem (vs : VectorStore V) (env : Env) (v : V) (i : MemoryItem) : V :=
  if env.indexed i.uid then vs.delete i.uid v else v

/-- `(kind or "note").strip().lower()` -/
def kindArg (cm : CaseMap) (kind : PyStr) : PyStr :=
  cm.lower (PyStr.strip (PyStr.orElse kind (str "note")))

/-- `if created_at: item.created_at = created_at` -/
def stamp (item : MemoryItem) (createdAt : Option PyStr) : MemoryItem :=
  { item with createdAt := PyStr.orElse (createdAt.getD []) item.createdAt }

def append (vs : VectorStore V) (env : Env) (item : MemoryItem) : ServiceM V MemoryItem := do
  let s ← get
  set { s with items := s.items ++ [item] }
  let createdAt ← call none env.postgres
  call () env.neo4j
  -- the appended item is the returned object, so its new time shows in the list
  let item := stamp item createdAt
  set { s with items := s.items ++ [item], index := s.index.map (indexItem vs env item) }
  flushPersisted env
  return item

/-- Whether `write` refuses these trimmed arguments. -/
def filtered (cm : CaseMap) (items : List MemoryItem) (kind key value : PyStr) : Bool :=
  isNoise kind key value || isDuplicate cm items kind key value

def write (cm : CaseMap) (vs : VectorStore V) (env : Env) (kind key value : PyStr)
    (metadata : PyDict) : ServiceM V MemoryItem := do
  let kind := kindArg cm kind
  let key := PyStr.strip key
  let value := PyStr.strip value
  let s ← get
  if filtered cm s.items kind key value then
    return .new env.now env.uid kind key value (PyDict.set metadata (str "filtered") (.bool true))
  append vs env (.new env.now env.uid kind key value metadata)

def named (kind key : PyStr) (i : MemoryItem) : Bool := i.kind = kind && i.key = key

def delete (vs : VectorStore V) (env : Env) (kind key : PyStr) : ServiceM V Bool := do
  let s ← get
  let removedItems := s.items.filter (named kind key)
  let kept := s.items.filter fun i => !named kind key i
  let removed := decide (kept.length < s.items.length)
  set { s with items := kept }
  let _ ← call none env.postgres
  call () env.neo4j
  set { s with items := kept, index := s.index.map (removedItems.foldl (unindexItem vs env)) }
  if removed then flushPersisted env
  return removed

def eraseAll (vs : VectorStore V) (env : Env) : ServiceM V Nat := do
  let s ← get
  set { s with items := [] }
  let _ ← call none env.postgres
  call () env.neo4j
  set { s with
    items := []
    index := s.index.map fun v => if env.indexCleared then vs.deleteAll v else v }
  flushPersisted env
  return s.items.length

def selects (cm : CaseMap) (query : PyStr) (i : MemoryItem) : Bool :=
  let q := PyStr.strip (cm.lower query)
  q = [] || PyStr.contains (cm.lower i.key) q || PyStr.contains (cm.lower i.value) q ||
    PyStr.contains (cm.lower i.kind) q

def rowItem (now uid : PyStr) (r : MemoryRow) : MemoryItem :=
  { kind := r.kind, key := r.key, value := r.value
    createdAt := PyStr.orElse r.createdAt now
    metadata := r.metadata
    uid := PyStr.orElse r.uid uid
    source := PyStr.orElse r.source (str "db") }

def merged (fresh : Nat → PyStr × PyStr) (found : List MemoryItem) (rows : List MemoryRow) :
    List MemoryItem :=
  Assoc.values <| rows.zipIdx.foldl
    (fun d e =>
      let i := rowItem (fresh e.2).1 (fresh e.2).2 e.1
      if (Assoc.get? d i.triple).isSome then d else Assoc.set d i.triple i)
    (Assoc.index MemoryItem.triple found)

/-- The highest similarity the vector store reported for each uid. -/
def similarities (hits : List (PyStr × PyFloat)) : List (PyStr × PyFloat) :=
  hits.foldl
    (fun d h => match Assoc.get? d h.1 with
      | some sim => if sim.lt h.2 then Assoc.set d h.1 h.2 else d
      | none => Assoc.set d h.1 h.2) []

/-- `_add`: a triple keeps the candidate with the higher similarity. -/
def addCandidate (d : List ((PyStr × PyStr × PyStr) × (MemoryItem × PyFloat))) (i : MemoryItem)
    (sim : PyFloat) : List ((PyStr × PyStr × PyStr) × (MemoryItem × PyFloat)) :=
  match Assoc.get? d i.triple with
  | some prev => if prev.2.lt sim then Assoc.set d i.triple (i, sim) else d
  | none => Assoc.set d i.triple (i, sim)

/-- `items_by_uid.get(uid)` -/
def owner (items : List MemoryItem) (uid : PyStr) : Option MemoryItem :=
  Assoc.get? (Assoc.index MemoryItem.uid items) uid

def addHit (items : List MemoryItem) (d : List ((PyStr × PyStr × PyStr) × (MemoryItem × PyFloat)))
    (h : PyStr × PyFloat) : List ((PyStr × PyStr × PyStr) × (MemoryItem × PyFloat)) :=
  match owner items h.1 with
  | some i => addCandidate d i h.2
  | none => d

/-- `_blended`, with `_SEMANTIC_BLEND_ALPHA` = 1/2 -/
def blended (retrievalScore : MemoryItem → ℚ) (c : MemoryItem × PyFloat) : PyFloat :=
  .add (.scale (1 / 2) (.clamp c.2))
    (.scale (1 - 1 / 2) (.clamp (.finite (retrievalScore c.1 / (3 / 2)))))

/-- `_semantic_search`; `none` keeps the keyword result. Python's `sorted` leaves open which order
it gives to NaN keys. -/
def semanticSearch (env : SearchEnv) (items : List MemoryItem) (query : PyStr)
    (keywordItems : List MemoryItem) : Option (List MemoryItem) :=
  if PyStr.strip query = [] then none
  else
    match env.hits with
    | none => none
    | some hits =>
      let sims := similarities hits
      let kept := keywordItems.foldl
        (fun d i => addCandidate d i ((Assoc.get? sims i.uid).getD (.finite 0))) []
      let all := sims.foldl (addHit items) kept
      if all.isEmpty then none
      else
        some <| ((Assoc.values all).mergeSort fun a b =>
          !(blended env.retrievalScore a).lt (blended env.retrievalScore b)).map (·.1)

def search (cm : CaseMap) (env : SearchEnv) (query : PyStr) : ServiceM V (List MemoryItem) := do
  let s ← get
  let found := s.items.filter (selects cm query)
  let pgRows ← call [] env.postgres
  let neoRows ← call [] env.neo4j
  let results := merged env.fresh found (pgRows ++ neoRows)
  if s.index.isSome then
    match semanticSearch env s.items query results with
    | some ranked => return ranked
    | none => return results
  return results

section Runs

variable {cm : CaseMap} {vs : VectorStore V} {env : Env} {kind key value : PyStr}
variable {metadata : PyDict} {item : MemoryItem} {s : MemoryService V}

theorem write_eq :
    write cm vs env kind key value metadata s =
      if filtered cm s.items (kindArg cm kind) (PyStr.strip key) (PyStr.strip value) then
        .ok (.new env.now env.uid (kindArg cm kind) (PyStr.strip key) (PyStr.strip value)
          (PyDict.set metadata (str "filtered") (.bool true))) s
      else
        append vs env (.new env.now env.uid (kindArg cm kind) (PyStr.strip key) (PyStr.strip value)
          metadata) s := by
  simp only [write, bind_run, get_run]
  split <;> rfl

theorem length_kept_lt_iff (items : List MemoryItem) :
    (items.filter fun i => !named kind key i).length < items.length ↔
      items.any (named kind key) = true := by
  rw [List.length_filter_lt_length_iff_exists, List.any_eq_true]
  simp

theorem kept_eq_self (h : s.items.any (named kind key) = false) :
    (s.items.filter fun i => !named kind key i) = s.items := by
  rw [List.filter_eq_self]
  intro i hi
  rw [List.any_eq_false] at h
  simpa using h i hi

/-- An appended item stays, whatever then raises. -/
theorem final_append (vs : VectorStore V) (env : Env) (item : MemoryItem) (s : MemoryService V) :
    ∃ createdAt, (final (append vs env item s)).items =
      s.items ++ [{ item with createdAt }] := by
  unfold append flushPersisted
  cases env.postgres with
  | raises e => exact ⟨_, rfl⟩
  | _ =>
    cases env.neo4j with
    | raises e => exact ⟨_, rfl⟩
    | _ => cases env.flushError <;> exact ⟨_, rfl⟩

theorem call_value {α : Type} {default : α} {a : Answer α} (h : ∀ e, a ≠ .raises e) :
    call default a s = .ok (a.value default) s := by
  cases a with
  | raises e => exact absurd rfl (h e)
  | _ => rfl

theorem append_quiet (henv : env.Quiet) :
    append vs env item s =
      .ok (stamp item (env.postgres.value none))
        { items := s.items ++ [stamp item (env.postgres.value none)]
          index := s.index.map (indexItem vs env (stamp item (env.postgres.value none)))
          file := .ofItems (s.items ++ [stamp item (env.postgres.value none)]) } := by
  simp only [append, bind_run, get_run, set_run, call_value henv.postgres, call_value henv.neo4j,
    flushPersisted, henv.flush]
  rfl

/-- An append that returns had no part that failed. -/
theorem quiet_of_append_ok {i : MemoryItem} {t : MemoryService V} (h : append vs env item s = .ok i t) :
    env.Quiet := by
  unfold append flushPersisted at h
  cases hpg : env.postgres with
  | raises e =>
    rw [hpg] at h
    cases h
  | _ =>
    cases hneo : env.neo4j with
    | raises e =>
      rw [hpg, hneo] at h
      cases h
    | _ =>
      cases hflush : env.flushError with
      | some e =>
        rw [hpg, hneo, hflush] at h
        cases h
      | none => exact ⟨fun e he => by simp [hpg] at he, fun e he => by simp [hneo] at he, hflush⟩

theorem delete_quiet (henv : env.Quiet) :
    delete vs env kind key s =
      .ok (s.items.any (named kind key))
        { items := s.items.filter fun i => !named kind key i
          index := s.index.map ((s.items.filter (named kind key)).foldl (unindexItem vs env))
          file := if s.items.any (named kind key) then
              .ofItems (s.items.filter fun i => !named kind key i)
            else s.file } := by
  have hremoved : decide ((s.items.filter fun i => !named kind key i).length < s.items.length) =
      s.items.any (named kind key) := by
    rw [Bool.eq_iff_iff, decide_eq_true_iff, length_kept_lt_iff]
  simp only [delete, bind_run, get_run, set_run, call_value henv.postgres,
    call_value henv.neo4j, flushPersisted, henv.flush, hremoved]
  cases s.items.any (named kind key) <;> rfl

theorem eraseAll_quiet (henv : env.Quiet) :
    eraseAll vs env s =
      .ok s.items.length
        { items := []
          index := s.index.map fun v => if env.indexCleared then vs.deleteAll v else v
          file := .ofItems [] } := by
  simp only [eraseAll, bind_run, get_run, set_run, call_value henv.postgres, call_value henv.neo4j,
    flushPersisted, henv.flush]
  rfl

/-- `search("")` reads the items and the database rows and changes nothing. -/
theorem search_empty {senv : SearchEnv} (hsenv : senv.Quiet) :
    search cm senv [] s =
      .ok (merged senv.fresh s.items (senv.postgres.value [] ++ senv.neo4j.value [])) s := by
  have hlower : PyStr.strip (cm.lower []) = [] := by
    rw [cm.ascii [] (by simp)]
    rfl
  have hall : s.items.filter (selects cm []) = s.items := by
    rw [List.filter_eq_self]
    intro i _
    simp [selects, hlower]
  simp only [search, bind_run, get_run,
    call_value hsenv.postgres, call_value hsenv.neo4j, hall]
  -- with an empty query the semantic layer gives the keyword result back
  split <;> rfl

end Runs

end MemoryService

end VirtualPerson
