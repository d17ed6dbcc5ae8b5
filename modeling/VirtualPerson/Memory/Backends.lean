import Mathlib.Algebra.Field.Rat
import VirtualPerson.Memory.IndexMap
import VirtualPerson.Memory.Restart

/-!
# The two vector backends

`NumpyVectorIndex` is filled from the items at every start; the table of `PgVectorStore`
outlives the service and holds what the runs with it have left. A search on the one and on
the other, of the same file.
-/

namespace VirtualPerson

set_option autoImplicit false

open Stateful

variable {F S V : Type}

namespace PgVectorStore

-- the rows of `vp_mem_vectors`, with `id` as primary key and `embedding` of type `vector(dim)`

def upsert (id text : PyStr) (vector : List F) (metadata : PyDict) (m : IndexMap F) :
    Except PyExc (IndexMap F) :=
  if h : (vector.length : Int) = m.dim then .ok (m.set id { vector, text, metadata } h)
  else .error .valueError

/-- `ORDER BY embedding <=> %s LIMIT %s`; the distance is exact, `1 - sim`, and the score is
`1 - distance`. -/
def query [AddCommGroup S] [LinearOrder S] [One S] (sim : List F → List F → S) (vector : List F)
    (topK : Int) (m : IndexMap F) : Except PyExc (List (PyStr × S × PyDict)) :=
  if topK ≤ 0 then .ok []
  else do
    let q ← NumpyVectorIndex.asVector vector m.dim
    let rows := m.entries.mergeSort fun a b => decide (1 - sim a.2.vector q ≤ 1 - sim b.2.vector q)
    return (rows.take topK.toNat).map fun e => (e.1, 1 - (1 - sim e.2.vector q), e.2.metadata)

def delete (id : PyStr) (m : IndexMap F) : IndexMap F := m.erase id

def deleteAll (m : IndexMap F) : IndexMap F := IndexMap.empty m.dim

/-- The store as the memory service uses it, where an error leaves the table as it was. -/
def store (k : SemanticKit F) : VectorStore (IndexMap F) where
  upsert uid text metadata m :=
    ((k.embed text).bind fun vector => (upsert uid text vector metadata m).toOption).getD m
  delete := delete
  deleteAll := deleteAll

theorem query_eq [AddCommGroup S] [LinearOrder S] [IsOrderedAddMonoid S] [One S]
    (sim : List F → List F → S) {vector : List F} {m : IndexMap F}
    (hlen : (vector.length : Int) = m.dim) (topK : Int) :
    query sim vector topK m = .ok (m.topK sim vector topK) := by
  unfold query
  split
  · rename_i hle
    have hcount : max 0 (min topK m.entries.length) = 0 := by omega
    rw [IndexMap.topK, hcount]
    rfl
  · rename_i hpos
    have hcount : (max 0 (min topK m.entries.length)).toNat = min topK.toNat m.entries.length := by omega
    have hlength : (m.ranked sim vector).length = m.entries.length :=
      (m.ranked_decreasing sim vector).perm.length_eq
    rw [NumpyVectorIndex.asVector, if_neg (not_not_intro hlen), IndexMap.topK, hcount, ← hlength,
      ← List.take_eq_take_min]
    simp only [sub_le_sub_iff_left, sub_sub_cancel]
    rfl

end PgVectorStore

namespace IndexMap

variable [LinearOrder S] (sim : List F → List F → S) (q : List F)

/-- The row of `uid` is one of the first `n`: fewer rows than that are more similar to `q`. -/
def Near (n : Int) (m : IndexMap F) (uid : PyStr) : Prop :=
  ∃ e, (uid, e) ∈ m.entries ∧
    ((m.entries.countP fun r => decide (sim e.vector q < sim r.2.vector q) : Nat) : Int) < n

def NoTies (m : IndexMap F) : Prop :=
  m.entries.Pairwise fun a b => sim a.2.vector q ≠ sim b.2.vector q

variable {sim q} {m m' : IndexMap F} {n : Int} {uid : PyStr}

theorem mem_topK_iff (hties : NoTies sim q m) :
    (∃ score metadata, (uid, score, metadata) ∈ m.topK sim q n) ↔ Near sim q n m uid := by
  have hmem (e : Entry F) : (uid, e) ∈ (m.ranked sim q).take (max 0 (min n m.entries.length)).toNat ↔
      (uid, e) ∈ m.entries ∧
        ((m.entries.countP fun r => decide (sim e.vector q < sim r.2.vector q) : Nat) : Int) < n := by
    have htake := mem_take_mergeSort_iff (f := fun e : PyStr × Entry F => sim e.2.vector q)
      (a := (uid, e)) hties (max 0 (min n m.entries.length)).toNat
    refine htake.trans (and_congr_right fun he => ?_)
    have hlt : (m.entries.countP fun r => decide (sim e.vector q < sim r.2.vector q)) <
        m.entries.length := by
      rw [List.countP_eq_length_filter, List.length_filter_lt_length_iff_exists]
      exact ⟨_, he, by simp⟩
    change m.entries.countP (fun r => decide (sim e.vector q < sim r.2.vector q)) < _ ↔ _
    omega
  constructor
  · intro h
    obtain ⟨score, metadata, h⟩ := h
    obtain ⟨⟨uid', e⟩, he, heq⟩ := List.mem_map.mp h
    cases heq
    exact ⟨e, (hmem e).mp he⟩
  · intro h
    obtain ⟨e, he⟩ := h
    exact ⟨_, _, List.mem_map.mpr ⟨_, (hmem e).mpr he, rfl⟩⟩

theorem Near.congr (h : m.entries = m'.entries) (hnear : Near sim q n m uid) : Near sim q n m' uid := by
  unfold Near at hnear ⊢
  rw [← h]
  exact hnear

theorem Represents.congr {x : NumpyVectorIndex F} (h : Represents x m) (hdim : m.dim = m'.dim)
    (hentries : m.entries = m'.entries) : Represents x m' :=
  ⟨h.dim.trans hdim, hentries ▸ h.holds⟩

end IndexMap

namespace MemoryService

open IndexMap

variable {cm : CaseMap} {k : SemanticKit F} {vec : PyStr → List F} {items : List MemoryItem}
variable {i : MemoryItem} {t : PyStr × PyStr × PyStr} {query : PyStr} {senv : SearchEnv}

/-- An embedder that never raises and returns vectors of its dimension. -/
structure Embeds (k : SemanticKit F) (vec : PyStr → List F) : Prop where
  embed : ∀ text, k.embed text = some (vec text)
  length : ∀ text, ((vec text).length : Int) = k.size

def entry (vec : PyStr → List F) (i : MemoryItem) : Entry F :=
  { vector := vec (indexText i), text := indexText i, metadata := indexMetadata i }

/-- One row for each uid, that of its last item. -/
def seeded (hvec : Embeds k vec) (items : List MemoryItem) : IndexMap F where
  dim := k.size
  entries := (Assoc.index MemoryItem.uid items).map fun e => (e.1, entry vec e.2)
  nodup := by
    have hkeys : Assoc.keys ((Assoc.index MemoryItem.uid items).map fun e => (e.1, entry vec e.2)) =
        Assoc.keys (Assoc.index MemoryItem.uid items) := by
      rw [Assoc.keys, List.map_map]
      rfl
    rw [hkeys]
    exact (Assoc.keyed_index items).nodup
  wide := by
    intro e he
    obtain ⟨e', -, rfl⟩ := List.mem_map.mp he
    exact hvec.length _

theorem set_map_entry (d : List (PyStr × MemoryItem)) (uid : PyStr) (i : MemoryItem) :
    Assoc.set (d.map fun e => (e.1, entry vec e.2)) uid (entry vec i) =
      (Assoc.set d uid i).map fun e => (e.1, entry vec e.2) := by
  induction d with
  | nil => rfl
  | cons e es ih =>
    rw [List.map_cons, Assoc.set, Assoc.set]
    by_cases h : e.1 = uid
    · rw [if_pos h, if_pos h]
      rfl
    · rw [if_neg h, if_neg h, ih]
      rfl

theorem represents_reindexAll (hvec : Embeds k vec) {x : NumpyVectorIndex F}
    (hx : Represents x (IndexMap.empty k.size)) (items : List MemoryItem) :
    Represents (reindexAll k items x) (seeded hvec items) := by
  induction items using List.reverseRecOn with
  | nil => exact hx.congr rfl rfl
  | append_singleton items i ih =>
    obtain ⟨y, hy, hrep⟩ := ih.upsert i.uid (entry vec i) (hvec.length _)
    have hlast : reindexAll k (items ++ [i]) x = y := by
      rw [reindexAll, List.foldl_append]
      change ((k.embed (indexText i)).bind fun vector =>
        ((reindexAll k items x).upsert i.uid (indexText i) vector (indexMetadata i)).toOption).getD _ = y
      rw [hvec.embed, Option.bind_some]
      change ((reindexAll k items x).upsert i.uid (entry vec i).text (entry vec i).vector
        (entry vec i).metadata).toOption.getD _ = y
      rw [hy]
      rfl
    rw [hlast]
    refine hrep.congr rfl ?_
    change Assoc.set ((Assoc.index MemoryItem.uid items).map _) i.uid (entry vec i) =
      (Assoc.index MemoryItem.uid (items ++ [i])).map _
    rw [set_map_entry, Assoc.index, Assoc.index, List.foldl_append]
    rfl

theorem size_pos (hvec : Embeds k vec) : 0 < k.size := by
  have hlen := hvec.length []
  have hne : k.size ≠ 0 := by
    unfold SemanticKit.size
    split <;> omega
  omega

theorem start_index (hvec : Embeds k vec) (fresh : Nat → PyStr × PyStr) (file : PersistFile) :
    ∃ x, (start k true fresh file).index = some x ∧ Represents x (seeded hvec (file.load fresh)) := by
  obtain ⟨x, hinit, hx⟩ := represents_init (F := F) k.size (size_pos hvec)
  refine ⟨reindexAll k (file.load fresh) x, ?_, represents_reindexAll hvec hx _⟩
  change initSemantic k true (file.load fresh) = _
  rw [initSemantic, if_pos rfl, hinit]
  rfl

/-- What `_semantic_search` gets from a store that `ask` queries; `float` is Python's. -/
def answered (k : SemanticKit F) (float : S → PyFloat)
    (ask : List F → Int → V → Except PyExc (List (PyStr × S × PyDict))) (query : PyStr) (v : V) :
    Option (List (PyStr × PyFloat)) :=
  (k.embed (PyStr.strip query)).bind fun vector =>
    (ask vector (topK k) v).toOption.map fun found => found.map fun h => (h.1, float h.2.1)

/-- `search` on such a store; the databases answer as `senv` says. -/
def searchOn (cm : CaseMap) (k : SemanticKit F) (float : S → PyFloat)
    (ask : List F → Int → V → Except PyExc (List (PyStr × S × PyDict))) (senv : SearchEnv)
    (query : PyStr) : ServiceM V (List MemoryItem) := do
  let s ← get
  search cm { senv with hits := s.index.bind (answered k float ask query) } query

/-- What `search` finds before it asks the semantic layer. -/
def keywordItems (cm : CaseMap) (senv : SearchEnv) (query : PyStr) (items : List MemoryItem) :
    List MemoryItem :=
  merged senv.fresh (items.filter (selects cm query)) (senv.postgres.value [] ++ senv.neo4j.value [])

/-- An item with these three texts has one of the nearest rows. -/
def Recalled [LinearOrder S] (sim : List F → List F → S) (q : List F) (n : Int) (m : IndexMap F)
    (items : List MemoryItem) (t : PyStr × PyStr × PyStr) : Prop :=
  ∃ uid i, owner items uid = some i ∧ i.triple = t ∧ Near sim q n m uid

theorem searchOn_run {s : MemoryService V} {v : V} {hits : List (PyStr × PyFloat)}
    {float : S → PyFloat} {ask : List F → Int → V → Except PyExc (List (PyStr × S × PyDict))}
    (hsenv : senv.Quiet) (hindex : s.index = some v) (hhits : answered k float ask query v = some hits) :
    searchOn cm k float ask senv query s =
      .ok ((semanticSearch { senv with hits := some hits } s.items query
        (keywordItems cm senv query s.items)).getD (keywordItems cm senv query s.items)) s := by
  have henv : ({ senv with hits := s.index.bind (answered k float ask query) } : SearchEnv) =
      { senv with hits := some hits } := by
    rw [hindex, Option.bind_some, hhits]
  have hactive : s.index.isSome = true := by rw [hindex]; rfl
  simp only [searchOn, bind_run, get_run, henv, search, call_value hsenv.postgres,
    call_value hsenv.neo4j, hactive, if_true]
  unfold keywordItems
  cases semanticSearch { senv with hits := some hits } s.items query
    (merged senv.fresh (s.items.filter (selects cm query))
      (senv.postgres.value [] ++ senv.neo4j.value [])) <;> rfl

/-- The triples that a search finds: those of the keyword result and the recalled ones. -/
theorem triples_of_searchOn [LinearOrder S] {sim : List F → List F → S} {s : MemoryService V} {v : V}
    {m : IndexMap F} (cm : CaseMap) (float : S → PyFloat)
    (ask : List F → Int → V → Except PyExc (List (PyStr × S × PyDict))) (hsenv : senv.Quiet)
    (hvec : Embeds k vec) (hindex : s.index = some v)
    (hask : ask (vec (PyStr.strip query)) (topK k) v =
      .ok (m.topK sim (vec (PyStr.strip query)) (topK k)))
    (hties : NoTies sim (vec (PyStr.strip query)) m) :
    ∃ found, searchOn cm k float ask senv query s = .ok found s ∧
      ∀ t, t ∈ found.map MemoryItem.triple ↔
        t ∈ (keywordItems cm senv query s.items).map MemoryItem.triple ∨
          (PyStr.strip query ≠ [] ∧
            Recalled sim (vec (PyStr.strip query)) (topK k) m s.items t) := by
  have hhits : answered k float ask query v =
      some ((m.topK sim (vec (PyStr.strip query)) (topK k)).map fun h => (h.1, float h.2.1)) := by
    rw [answered, hvec.embed, Option.bind_some, hask]
    rfl
  refine ⟨_, searchOn_run hsenv hindex hhits, fun t => ?_⟩
  by_cases hquery : PyStr.strip query = []
  · rw [semanticSearch, if_pos hquery, Option.getD_none]
    exact ⟨.inl, fun h => h.resolve_right fun h => h.1 hquery⟩
  · rw [triple_mem_semanticSearch_iff hquery rfl]
    apply or_congr Iff.rfl
    rw [and_iff_right hquery]
    constructor
    · intro h
      obtain ⟨_, _, i, hhit, howner, ht⟩ := h
      obtain ⟨⟨uid, score, metadata⟩, hmem, heq⟩ := List.mem_map.mp hhit
      cases heq
      exact ⟨uid, i, howner, ht, (mem_topK_iff hties).mp ⟨score, metadata, hmem⟩⟩
    · intro h
      obtain ⟨uid, i, howner, ht, hnear⟩ := h
      obtain ⟨score, metadata, hmem⟩ := (mem_topK_iff hties).mpr hnear
      exact ⟨_, _, i, List.mem_map.mpr ⟨_, hmem, rfl⟩, howner, ht⟩

/-- The vector store that a run has: `none` with semantic memory off. -/
inductive Backend where
  | none
  | numpy
  | pgvector

/-- What outlives a run. -/
structure Disk (F : Type) where
  file : PersistFile
  table : IndexMap F

/-- Before the first run; the first connection creates the table. -/
def Disk.initial (k : SemanticKit F) (file : PersistFile) : Disk F := { file, table := IndexMap.empty k.size }

/-- `MemoryService(persist_path)` with a pgvector store, which is not seeded. -/
def startPg (fresh : Nat → PyStr × PyStr) (d : Disk F) : MemoryService (IndexMap F) :=
  { items := d.file.load fresh, index := some d.table, file := d.file }

/-- The calls of one run, of which no part fails; each draws a uid that no item has. -/
def quietSystem (cm : CaseMap) (vs : VectorStore V) (s₀ : MemoryService V) :
    System (MemoryService V) MemoryCall where
  init s := s = s₀
  step s c t := ∃ env : Env, env.Quiet ∧ (∀ uid, env.indexed uid = true) ∧ env.indexCleared = true ∧
    env.uid ∉ s.items.map MemoryItem.uid ∧ c.run cm vs env s = .ok () t

/-- One run after another, each on what those before it have left. -/
def history (cm : CaseMap) (k : SemanticKit F) (file : PersistFile) : System (Disk F) Backend where
  init d := d = .initial k file
  step d b d' := ∃ fresh,
    match b with
    | .none => ∃ t, (quietSystem cm (NumpyVectorIndex.store k) (start k false fresh d.file)).Reachable t ∧
        d' = { d with file := t.file }
    | .numpy => ∃ t, (quietSystem cm (NumpyVectorIndex.store k) (start k true fresh d.file)).Reachable t ∧
        d' = { d with file := t.file }
    | .pgvector => ∃ t, (quietSystem cm (PgVectorStore.store k) (startPg fresh d)).Reachable t ∧
        d'.file = t.file ∧ t.index = some d'.table

section Runs

variable {vs : VectorStore V} {s₀ s t : MemoryService V} {c : MemoryCall}

theorem quiet_cases (h : (quietSystem cm vs s₀).step s c t) :
    t = s ∨
    (∃ i, i.uid ∉ s.items.map MemoryItem.uid ∧ t.items = s.items ++ [i] ∧
      t.index = s.index.map (vs.upsert i.uid (indexText i) (indexMetadata i)) ∧
      t.file = .ofItems t.items) ∨
    (∃ p : MemoryItem → Bool, t.items = s.items.filter (fun i => !p i) ∧
      t.index = s.index.map ((s.items.filter p).foldl fun v i => vs.delete i.uid v) ∧
      t.file = .ofItems t.items) ∨
    (t.items = [] ∧ t.index = s.index.map vs.deleteAll ∧ t.file = .ofItems t.items) := by
  obtain ⟨env, hquiet, hindexed, hcleared, huid, hrun⟩ := h
  have hupsert (i : MemoryItem) :
      indexItem vs env i = vs.upsert i.uid (indexText i) (indexMetadata i) := by
    funext v
    rw [indexItem, if_pos (hindexed _)]
    rfl
  have hunindex : unindexItem vs env = fun v i => vs.delete i.uid v := by
    funext v i
    rw [unindexItem, if_pos (hindexed _)]
  cases c with
  | write kind key value metadata =>
    rcases run_write_quiet hquiet hrun with ⟨-, rfl⟩ | ⟨-, i, hi, rfl⟩
    · exact .inl rfl
    · refine .inr (.inl ⟨i, ?_, rfl, ?_, rfl⟩)
      · rw [hi]
        exact huid
      · rw [← hupsert]
  | delete kind key =>
    rcases run_delete_quiet hquiet hrun with ⟨-, rfl⟩ | ⟨-, rfl⟩
    · exact .inl rfl
    · refine .inr (.inr (.inl ⟨named kind key, rfl, ?_, rfl⟩))
      rw [← hunindex]
  | eraseAll =>
    have ht := run_eraseAll_quiet hquiet hrun
    simp only [hcleared, if_true] at ht
    rw [ht]
    exact .inr (.inr (.inr ⟨rfl, rfl, rfl⟩))

end Runs

section Table

variable {m : IndexMap F} {s₀ s t : MemoryService (IndexMap F)} {c : MemoryCall}

theorem dim_upsert (uid text : PyStr) (metadata : PyDict) (m : IndexMap F) :
    ((PgVectorStore.store k).upsert uid text metadata m).dim = m.dim := by
  change (((k.embed text).bind _).getD m).dim = m.dim
  cases k.embed text with
  | none => rfl
  | some vector =>
    rw [Option.bind_some, PgVectorStore.upsert]
    split <;> rfl

theorem dim_deletes (gone : List MemoryItem) (m : IndexMap F) :
    (gone.foldl (fun m i => (PgVectorStore.store k).delete i.uid m) m).dim = m.dim := by
  induction gone generalizing m with
  | nil => rfl
  | cons i gone ih => exact ih (m.erase i.uid)

/-- The table of a run keeps the dimension of its column. -/
theorem dim_step (h : (quietSystem cm (PgVectorStore.store k) s₀).step s c t)
    (hs : ∀ m, s.index = some m → m.dim = k.size) : ∀ m, t.index = some m → m.dim = k.size := by
  intro m hm
  rcases quiet_cases h with rfl | ⟨i, -, -, hindex, -⟩ | ⟨p, -, hindex, -⟩ | ⟨-, hindex, -⟩
  · exact hs m hm
  all_goals
    rw [hindex] at hm
    obtain ⟨m', hm', rfl⟩ := Option.map_eq_some_iff.mp hm
  · rw [dim_upsert, hs m' hm']
  · rw [dim_deletes, hs m' hm']
  · exact hs m' hm'

theorem dim_history {file : PersistFile} {runs : List Backend} {d : Disk F}
    (h : (history cm k file).Run (.initial k file) runs d) : d.table.dim = k.size := by
  apply h.invariant (I := fun d => d.table.dim = k.size) _ rfl
  intro d b d' hd hst
  obtain ⟨fresh, hst⟩ := hst
  cases b with
  | none =>
    obtain ⟨t, -, rfl⟩ := hst
    exact hd
  | numpy =>
    obtain ⟨t, -, rfl⟩ := hst
    exact hd
  | pgvector =>
    obtain ⟨t, ht, -, htable⟩ := hst
    apply ht.invariant (I := fun s => ∀ m, s.index = some m → m.dim = k.size) _ _ d'.table htable
    · intro s hs m hm
      cases hs
      cases hm
      exact hd
    · intro s c t hs hst
      exact dim_step hst hs

/-- The table has the row of each item, in the order of the items. -/
def RowsOf (vec : PyStr → List F) (m : IndexMap F) (items : List MemoryItem) : Prop :=
  m.entries = items.map fun i => (i.uid, entry vec i)

theorem keys_of_rowsOf (h : RowsOf vec m items) : Assoc.keys m.entries = items.map MemoryItem.uid := by
  rw [h, Assoc.keys, List.map_map]
  rfl

theorem rowsOf_seeded (hvec : Embeds k vec) (hdistinct : Distinct items) :
    RowsOf vec (seeded hvec items) items := by
  induction items using List.reverseRecOn with
  | nil => rfl
  | append_singleton items i ih =>
    rw [Distinct, List.map_append, List.nodup_append] at hdistinct
    obtain ⟨hitems, -, hnew⟩ := hdistinct
    have hrows := ih hitems
    have hnot : i.uid ∉ Assoc.keys (seeded hvec items).entries := by
      rw [keys_of_rowsOf hrows]
      intro hmem
      exact hnew _ hmem i.uid (by simp) rfl
    change (Assoc.index MemoryItem.uid (items ++ [i])).map _ = _
    rw [Assoc.index, List.foldl_append, List.map_append]
    change (Assoc.set (Assoc.index MemoryItem.uid items) i.uid i).map _ = _
    rw [← set_map_entry]
    change Assoc.set (seeded hvec items).entries i.uid (entry vec i) = _
    rw [Assoc.set_eq_append hnot, hrows]
    rfl

theorem RowsOf.upsert (hvec : Embeds k vec) (h : RowsOf vec m items) (hdim : m.dim = k.size)
    (hnew : i.uid ∉ items.map MemoryItem.uid) :
    RowsOf vec ((PgVectorStore.store k).upsert i.uid (indexText i) (indexMetadata i) m)
      (items ++ [i]) := by
  change IndexMap.entries (((k.embed (indexText i)).bind _).getD m) = _
  rw [hvec.embed, Option.bind_some, PgVectorStore.upsert, dif_pos (by rw [hvec.length, hdim])]
  change Assoc.set m.entries i.uid (entry vec i) = _
  rw [Assoc.set_eq_append (by rw [keys_of_rowsOf h]; exact hnew), h, List.map_append]
  rfl

theorem entries_deletes (gone : List MemoryItem) (m : IndexMap F) :
    (gone.foldl (fun m i => (PgVectorStore.store k).delete i.uid m) m).entries =
      m.entries.filter fun e => e.1 ∉ gone.map MemoryItem.uid := by
  induction gone generalizing m with
  | nil => simp
  | cons i gone ih =>
    rw [List.foldl_cons, ih]
    change (m.entries.filter _).filter _ = _
    rw [List.filter_filter]
    apply List.filter_congr
    intro e _
    by_cases h : e.1 = i.uid <;> simp [h]

theorem RowsOf.deletes (h : RowsOf vec m items) (hdistinct : Distinct items) (p : MemoryItem → Bool) :
    RowsOf vec ((items.filter p).foldl (fun m i => (PgVectorStore.store k).delete i.uid m) m)
      (items.filter fun i => !p i) := by
  rw [RowsOf, entries_deletes, h, List.filter_map]
  congr 1
  apply List.filter_congr
  intro i hi
  -- another item of this uid is this item
  have hgone : i.uid ∈ (items.filter p).map MemoryItem.uid ↔ p i = true := by
    constructor
    · intro hmem
      obtain ⟨j, hj, huid⟩ := List.mem_map.mp hmem
      obtain ⟨hjmem, hpj⟩ := List.mem_filter.mp hj
      rw [← List.inj_on_of_nodup_map hdistinct hjmem hi huid]
      exact hpj
    · intro hp
      exact List.mem_map_of_mem (List.mem_filter.mpr ⟨hi, hp⟩)
  rw [Bool.eq_iff_iff]
  change decide (i.uid ∉ (items.filter p).map MemoryItem.uid) = true ↔ (!p i) = true
  rw [decide_eq_true_iff, hgone, Bool.not_eq_true, Bool.not_eq_true']

/-- What every state of a run on a table that was in step has. -/
structure Synced (k : SemanticKit F) (vec : PyStr → List F) (s : MemoryService (IndexMap F)) : Prop where
  file : s.file.Holds s.items
  distinct : Distinct s.items
  dim : ∀ m, s.index = some m → m.dim = k.size
  rows : ∀ m, s.index = some m → RowsOf vec m s.items

theorem Synced.step (hvec : Embeds k vec) (hs : Synced k vec s)
    (h : (quietSystem cm (PgVectorStore.store k) s₀).step s c t) : Synced k vec t := by
  have hdim := dim_step h hs.dim
  rcases quiet_cases h with rfl | ⟨i, hnew, hitems, hindex, hfile⟩ | ⟨p, hitems, hindex, hfile⟩ |
    ⟨hitems, hindex, hfile⟩
  · exact hs
  all_goals refine ⟨by rw [hfile]; exact PersistFile.holds_ofItems _, ?_, hdim, ?_⟩
  · rw [hitems, Distinct, List.map_append, List.nodup_append]
    refine ⟨hs.distinct, List.nodup_singleton _, ?_⟩
    intro a ha b hb heq
    rw [List.map_singleton, List.mem_singleton] at hb
    exact hnew (hb ▸ heq ▸ ha)
  · intro m hm
    rw [hindex] at hm
    obtain ⟨m', hm', rfl⟩ := Option.map_eq_some_iff.mp hm
    rw [hitems]
    exact (hs.rows m' hm').upsert hvec (hs.dim m' hm') hnew
  · rw [hitems]
    exact hs.distinct.sublist (List.filter_sublist.map _)
  · intro m hm
    rw [hindex] at hm
    obtain ⟨m', hm', rfl⟩ := Option.map_eq_some_iff.mp hm
    rw [hitems]
    exact (hs.rows m' hm').deletes hs.distinct p
  · rw [hitems]
    exact List.nodup_nil
  · intro m hm
    rw [hindex] at hm
    obtain ⟨m', -, rfl⟩ := Option.map_eq_some_iff.mp hm
    rw [hitems]
    rfl

theorem synced_startPg {d : Disk F} (items : List MemoryItem) (hfile : d.file.Holds items)
    (hdistinct : Distinct items)
    (hdim : d.table.dim = k.size) (hrows : RowsOf vec d.table items) (fresh : Nat → PyStr × PyStr) :
    Synced k vec (startPg fresh d) := by
  have hload : (startPg fresh d).items = items := hfile fresh
  constructor
  · rw [hload]
    exact hfile
  · rw [hload]
    exact hdistinct
  · intro m hm
    cases hm
    exact hdim
  · intro m hm
    cases hm
    rw [hload]
    exact hrows

theorem synced_pgvector (hvec : Embeds k vec) {file : PersistFile} {d d' : Disk F}
    (hst : (history cm k file).step d .pgvector d') (hd : ∀ fresh, Synced k vec (startPg fresh d))
    (fresh : Nat → PyStr × PyStr) : Synced k vec (startPg fresh d') := by
  obtain ⟨fresh', t, ht, hfile, htable⟩ := hst
  have hsynced : Synced k vec t := by
    apply ht.invariant (I := Synced k vec)
    · intro s hs
      cases hs
      exact hd fresh'
    · intro s c t hs hst
      exact hs.step hvec hst
  apply synced_startPg t.items
  · rw [hfile]
    exact hsynced.file
  · exact hsynced.distinct
  · exact hsynced.dim _ htable
  · exact hsynced.rows _ htable

/-- Where every run has the table, from the first item on, it holds the rows of the items. -/
theorem synced_history (hvec : Embeds k vec) {file : PersistFile} (hfile : file.Holds [])
    {runs : List Backend} {d : Disk F} (h : (history cm k file).Run (.initial k file) runs d)
    (hruns : ∀ b ∈ runs, b = .pgvector) (fresh : Nat → PyStr × PyStr) :
    Synced k vec (startPg fresh d) := by
  have hinitial : ∀ fresh, Synced k vec (startPg fresh (Disk.initial k file)) := by
    apply synced_startPg [] hfile
    · exact List.nodup_nil
    · rfl
    · rfl
  revert fresh
  generalize Disk.initial k file = d₀ at h hinitial
  induction h with
  | nil => exact hinitial
  | cons hst _ ih =>
    cases hruns _ List.mem_cons_self
    apply ih
    · intro b hb
      exact hruns b (List.mem_cons_of_mem _ hb)
    · exact synced_pgvector hvec hst hinitial

end Table

section Agreement

variable [AddCommGroup S] [LinearOrder S] [IsOrderedAddMonoid S] [One S]
variable {sim : List F → List F → S} {d : Disk F}

/-- The searches of two services that started on one file, one on each backend, find the same
triples. -/
def SameTriples (cm : CaseMap) (k : SemanticKit F) (sim : List F → List F → S) (float : S → PyFloat)
    (senv : SearchEnv) (query : PyStr) (s : MemoryService (NumpyVectorIndex F))
    (p : MemoryService (IndexMap F)) : Prop :=
  ∃ found found',
    searchOn cm k float (fun q n x => x.queryExact sim q n) senv query s = .ok found s ∧
    searchOn cm k float (PgVectorStore.query sim) senv query p = .ok found' p ∧
    ∀ t, t ∈ found.map MemoryItem.triple ↔ t ∈ found'.map MemoryItem.triple

theorem sameTriples_iff (cm : CaseMap) (float : S → PyFloat) (hvec : Embeds k vec)
    (hdim : d.table.dim = k.size) (hitems : d.file.Holds items)
    (hsenv : senv.Quiet) (hnumpy : NoTies sim (vec (PyStr.strip query)) (seeded hvec items))
    (hpg : NoTies sim (vec (PyStr.strip query)) d.table) (fresh fresh' : Nat → PyStr × PyStr) :
    SameTriples cm k sim float senv query (start k true fresh d.file) (startPg fresh' d) ↔
      PyStr.strip query = [] ∨
        ∀ t, t ∉ (keywordItems cm senv query items).map MemoryItem.triple →
          (Recalled sim (vec (PyStr.strip query)) (topK k) (seeded hvec items) items t ↔
            Recalled sim (vec (PyStr.strip query)) (topK k) d.table items t) := by
  set q := vec (PyStr.strip query)
  have hload : (start k true fresh d.file).items = items := hitems fresh
  have hload' : (startPg fresh' d).items = items := hitems fresh'
  obtain ⟨x, hx, hrep⟩ := start_index hvec fresh d.file
  rw [hitems fresh] at hrep
  have hask : x.queryExact sim q (topK k) = .ok ((seeded hvec items).topK sim q (topK k)) := by
    rw [hrep.query sim, if_pos (.inl (hvec.length _))]
  have hask' : PgVectorStore.query sim q (topK k) d.table = .ok (d.table.topK sim q (topK k)) :=
    PgVectorStore.query_eq sim ((hvec.length _).trans hdim.symm) (topK k)
  have hindex' : (startPg fresh' d).index = some d.table := rfl
  obtain ⟨found, hrun, hfound⟩ := triples_of_searchOn cm float (fun q n x => x.queryExact sim q n)
    hsenv hvec hx hask hnumpy
  obtain ⟨found', hrun', hfound'⟩ := triples_of_searchOn cm float (PgVectorStore.query sim)
    hsenv hvec hindex' hask' hpg
  rw [hload] at hfound
  rw [hload'] at hfound'
  have hsame : SameTriples cm k sim float senv query (start k true fresh d.file) (startPg fresh' d) ↔
      ∀ t, t ∈ found.map MemoryItem.triple ↔ t ∈ found'.map MemoryItem.triple := by
    constructor
    · intro h
      obtain ⟨_, _, h₁, h₂, h⟩ := h
      cases hrun.symm.trans h₁
      cases hrun'.symm.trans h₂
      exact h
    · exact fun h => ⟨found, found', hrun, hrun', h⟩
  rw [hsame]
  simp only [hfound, hfound']
  constructor
  · intro h
    by_cases hquery : PyStr.strip query = []
    · exact .inl hquery
    · refine .inr fun t ht => ?_
      constructor
      · intro hnear
        exact (((h t).mp (.inr ⟨hquery, hnear⟩)).resolve_left ht).2
      · intro hnear
        exact (((h t).mpr (.inr ⟨hquery, hnear⟩)).resolve_left ht).2
  · intro h t
    by_cases ht : t ∈ (keywordItems cm senv query items).map MemoryItem.triple
    · exact iff_of_true (.inl ht) (.inl ht)
    · apply or_congr_right
      apply and_congr_right
      intro hquery
      exact h.resolve_left hquery t ht

/-- After every history of runs the two backends find the same triples if and only if the query
is blank or the triples that the keywords miss are recalled from both alike; so they do where all
the runs had the table and the first one began without items. -/
theorem backends_agree_iff (cm : CaseMap) (float : S → PyFloat) (hvec : Embeds k vec) {file : PersistFile}
    {runs : List Backend} (hruns : (history cm k file).Run (.initial k file) runs d)
    (hitems : d.file.Holds items) (hsenv : senv.Quiet)
    (hnumpy : NoTies sim (vec (PyStr.strip query)) (seeded hvec items))
    (hpg : NoTies sim (vec (PyStr.strip query)) d.table) (fresh fresh' : Nat → PyStr × PyStr) :
    (SameTriples cm k sim float senv query (start k true fresh d.file) (startPg fresh' d) ↔
      PyStr.strip query = [] ∨
        ∀ t, t ∉ (keywordItems cm senv query items).map MemoryItem.triple →
          (Recalled sim (vec (PyStr.strip query)) (topK k) (seeded hvec items) items t ↔
            Recalled sim (vec (PyStr.strip query)) (topK k) d.table items t)) ∧
    (file.Holds [] → (∀ b ∈ runs, b = .pgvector) →
      SameTriples cm k sim float senv query (start k true fresh d.file) (startPg fresh' d)) := by
  have hiff := sameTriples_iff cm float hvec (dim_history hruns) hitems hsenv
    hnumpy hpg fresh fresh'
  refine ⟨hiff, fun hfile hall => hiff.mpr (.inr fun t _ => ?_)⟩
  have hsynced := synced_history hvec hfile hruns hall fresh'
  have hload : (startPg fresh' d).items = items := hitems fresh'
  have hentries : (seeded hvec items).entries = d.table.entries := by
    have hrows := hsynced.rows d.table rfl
    have hdistinct := hsynced.distinct
    rw [hload] at hrows hdistinct
    exact (rowsOf_seeded hvec hdistinct).trans hrows.symm
  constructor
  · intro h
    obtain ⟨uid, i, howner, ht, hnear⟩ := h
    exact ⟨uid, i, howner, ht, hnear.congr hentries⟩
  · intro h
    obtain ⟨uid, i, howner, ht, hnear⟩ := h
    exact ⟨uid, i, howner, ht, hnear.congr hentries.symm⟩

end Agreement

def lengthVec (text : PyStr) : List Nat := [text.length]

theorem embeds_lengthKit : Embeds lengthKit lengthVec := ⟨fun _ => rfl, fun _ => rfl⟩

/-- In one dimension the cosine of two positive numbers is 1. -/
def oneSim (_ _ : List Nat) : ℚ := 1

def teaNote : MemoryItem :=
  .new [] (str "a") (kindArg .asciiOnly (str "note")) (PyStr.strip (str "drink"))
    (PyStr.strip (str "tea")) []

theorem write_tea (vs : VectorStore V) (index : Option V) (s₀ : MemoryService V) :
    (quietSystem .asciiOnly vs s₀).step { items := [], index, file := .absent }
      (.write (str "note") (str "drink") (str "tea") [])
      { items := [teaNote]
        index := index.map (vs.upsert (str "a") (indexText teaNote) (indexMetadata teaNote))
        file := .ofItems [teaNote] } := by
  have hkept : filtered .asciiOnly [] (kindArg .asciiOnly (str "note")) (PyStr.strip (str "drink"))
      (PyStr.strip (str "tea")) = false := by decide
  refine ⟨.fileOnly [] (str "a"), Env.quiet_fileOnly _ _, fun _ => rfl, rfl, List.not_mem_nil, ?_⟩
  unfold MemoryCall.run
  simp only [bind_run, write_eq, hkept, Bool.false_eq_true, if_false,
    append_quiet (Env.quiet_fileOnly [] (str "a"))]
  rfl

/-- The note was written with the table. -/
theorem backends_agree_iff_tea :
    ∃ d, (history .asciiOnly lengthKit .absent).Run (.initial lengthKit .absent) [.pgvector] d ∧
      SameTriples .asciiOnly lengthKit oneSim .finite .fileOnly (str "coffee")
        (start lengthKit true (fun _ => ([], [])) d.file) (startPg (fun _ => ([], [])) d) := by
  have hwrite := write_tea (PgVectorStore.store lengthKit) (some (IndexMap.empty lengthKit.size))
    (startPg (fun _ => ([], [])) (.initial lengthKit .absent))
  have hrun : (history .asciiOnly lengthKit .absent).Run (.initial lengthKit .absent) [.pgvector]
      { file := .ofItems [teaNote], table := seeded embeds_lengthKit [teaNote] } :=
    .single ⟨fun _ => ([], []), _, (System.Reachable.of_init rfl).step hwrite, rfl, rfl⟩
  refine ⟨_, hrun, (backends_agree_iff .asciiOnly .finite embeds_lengthKit hrun
    (PersistFile.holds_ofItems _) SearchEnv.quiet_fileOnly ?_ ?_ _ _).2 (fun _ => rfl) ?_⟩
  · exact List.pairwise_singleton _ _
  · exact List.pairwise_singleton _ _
  · exact fun b hb => List.mem_singleton.mp hb

/-- The note was written with semantic memory off, so that the table has no row of it. -/
theorem not_backends_agree :
    ¬ ∀ (runs : List Backend) (d : Disk Nat) (items : List MemoryItem) (query : PyStr),
      (history .asciiOnly lengthKit .absent).Run (.initial lengthKit .absent) runs d →
      d.file.Holds items →
      NoTies oneSim (lengthVec (PyStr.strip query)) (seeded embeds_lengthKit items) →
      NoTies oneSim (lengthVec (PyStr.strip query)) d.table →
      SameTriples .asciiOnly lengthKit oneSim .finite .fileOnly query
        (start lengthKit true (fun _ => ([], [])) d.file) (startPg (fun _ => ([], [])) d) := by
  intro h
  have hwrite := write_tea (NumpyVectorIndex.store lengthKit) none
    (start lengthKit false (fun _ => ([], [])) .absent)
  have hrun : (history .asciiOnly lengthKit .absent).Run (.initial lengthKit .absent) [.none]
      { file := .ofItems [teaNote], table := IndexMap.empty lengthKit.size } :=
    .single ⟨fun _ => ([], []), _, (System.Reachable.of_init rfl).step hwrite, rfl⟩
  have hone : NoTies oneSim (lengthVec (PyStr.strip (str "coffee")))
      (seeded embeds_lengthKit [teaNote]) := List.pairwise_singleton _ _
  have hnone : NoTies oneSim (lengthVec (PyStr.strip (str "coffee")))
      (IndexMap.empty lengthKit.size : IndexMap Nat) := List.Pairwise.nil
  have hholds := PersistFile.holds_ofItems [teaNote]
  have hsame := h _ _ [teaNote] (str "coffee") hrun hholds hone hnone
  have hiff := (sameTriples_iff .asciiOnly .finite embeds_lengthKit (dim_history hrun) hholds
    SearchEnv.quiet_fileOnly hone hnone _ _).mp hsame
  have hmissed : teaNote.triple ∉
      (keywordItems .asciiOnly .fileOnly (str "coffee") [teaNote]).map MemoryItem.triple := by decide
  have hquery : PyStr.strip (str "coffee") ≠ [] := by decide
  obtain ⟨uid, i, -, -, e, he, -⟩ := (hiff.resolve_left hquery teaNote.triple hmissed).mp
    ⟨str "a", teaNote, rfl, rfl, entry lengthVec teaNote, List.mem_singleton_self _, by decide⟩
  exact absurd he List.not_mem_nil

end MemoryService

end VirtualPerson
