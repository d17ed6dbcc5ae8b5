import VirtualPerson.Memory.Service
import VirtualPerson.Python.Best

/-!
# The in-process vector index

`NumpyVectorIndex` keeps five containers in step: ids, vectors, texts and metadata by
position, and the position of each id. It stands for a list of rows with distinct ids.
-/

namespace VirtualPerson

set_option autoImplicit false

/-- The semantic layer's parts that lie outside the memory service. `F` is the type of the
embedder's numbers. -/
structure SemanticKit (F : Type) where
  /-- `getattr(embedder, "dim", 0)` -/
  dim : Int
  /-- `none` where the embedder raises. -/
  embed : PyStr → Option (List F)
  /-- `_cosine_similarities(matrix, q)` -/
  cosineSimilarities : List (List F) → List F → List PyFloat
  /-- `config.semantic_top_k` -/
  semanticTopK : Int

structure NumpyVectorIndex (F : Type) where
  dim : Int
  pos : List (PyStr × Nat)
  ids : List PyStr
  vectors : List (List F)
  texts : List PyStr
  metadata : List PyDict

namespace NumpyVectorIndex

variable {F : Type}

def init (dim : Int) : Except PyExc (NumpyVectorIndex F) :=
  if dim ≤ 0 then .error .valueError
  else .ok { dim, pos := [], ids := [], vectors := [], texts := [], metadata := [] }

/-- `_as_vector` -/
def asVector (vector : List F) (dim : Int) : Except PyExc (List F) :=
  if (vector.length : Int) ≠ dim then .error .valueError else .ok vector

def upsert (id text : PyStr) (vector : List F) (metadata : PyDict) (x : NumpyVectorIndex F) :
    Except PyExc (NumpyVectorIndex F) := do
  let vec ← asVector vector x.dim
  match Assoc.get? x.pos id with
  | some i =>
    return { x with
      vectors := x.vectors.set i vec
      texts := x.texts.set i text
      metadata := x.metadata.set i metadata }
  | none =>
    return { x with
      pos := Assoc.set x.pos id x.ids.length
      ids := x.ids ++ [id]
      vectors := x.vectors ++ [vec]
      texts := x.texts ++ [text]
      metadata := x.metadata ++ [metadata] }

/-- The `top_k` best rows; `np.argsort` of the negated similarities is stable and puts a NaN last. -/
def query (k : SemanticKit F) (vector : List F) (topK : Int) (x : NumpyVectorIndex F) :
    Except PyExc (List (PyStr × PyFloat × PyDict)) :=
  if x.ids = [] ∨ topK ≤ 0 then .ok []
  else do
    let q ← asVector vector x.dim
    let sims := k.cosineSimilarities x.vectors q
    let order := (x.ids.zip (sims.zip x.metadata)).mergeSort fun a b => !b.2.1.neg.sortsBefore a.2.1.neg
    return order.take (min topK x.ids.length).toNat

/-- `for pos, key in enumerate(self._ids): self._pos[key] = pos` -/
def reindex (ids : List PyStr) (n : Nat) (pos : List (PyStr × Nat)) : List (PyStr × Nat) :=
  match ids with
  | [] => pos
  | id :: ids => reindex ids (n + 1) (Assoc.set pos id n)

def delete (id : PyStr) (x : NumpyVectorIndex F) : NumpyVectorIndex F :=
  match Assoc.get? x.pos id with
  | none => x
  | some i =>
    { x with
      pos := reindex (x.ids.eraseIdx i) 0 (Assoc.erase x.pos id)
      ids := x.ids.eraseIdx i
      vectors := x.vectors.eraseIdx i
      texts := x.texts.eraseIdx i
      metadata := x.metadata.eraseIdx i }

def deleteAll (x : NumpyVectorIndex F) : NumpyVectorIndex F :=
  { x with pos := [], ids := [], vectors := [], texts := [], metadata := [] }

/-- The vector stored for an id. -/
def vector? (x : NumpyVectorIndex F) (id : PyStr) : Option (List F) :=
  (Assoc.get? x.pos id).bind fun i => x.vectors[i]?

/-- The store as the memory service uses it, where an error leaves the index as it was. -/
def store (k : SemanticKit F) : VectorStore (NumpyVectorIndex F) where
  upsert uid text metadata x :=
    ((k.embed text).bind fun vector => (x.upsert uid text vector metadata).toOption).getD x
  delete := delete
  deleteAll := deleteAll

structure Row (F : Type) where
  id : PyStr
  vector : List F
  text : PyStr
  metadata : PyDict

variable {x y : NumpyVectorIndex F} {rows : List (Row F)} {row : Row F} {id : PyStr}

/-- The index holds these rows in this order. -/
structure Holds (x : NumpyVectorIndex F) (rows : List (Row F)) : Prop where
  ids : x.ids = rows.map Row.id
  vectors : x.vectors = rows.map Row.vector
  texts : x.texts = rows.map Row.text
  metadata : x.metadata = rows.map Row.metadata
  pos : ∀ id, Assoc.get? x.pos id = x.ids.idxOf? id
  nodup : x.ids.Nodup

theorem holds_init {dim : Int} (h : init dim = .ok x) : x.Holds [] ∧ x.dim = dim ∧ 0 < dim := by
  unfold init at h
  split at h
  · cases h
  · rename_i hdim
    cases h
    refine ⟨⟨rfl, rfl, rfl, rfl, fun id => rfl, List.nodup_nil⟩, rfl, ?_⟩
    omega

theorem get?_reindex {ids : List PyStr} (h : ids.Nodup) (n : Nat) (pos : List (PyStr × Nat)) (id : PyStr) :
    Assoc.get? (reindex ids n pos) id = ((ids.idxOf? id).map (n + ·)).or (Assoc.get? pos id) := by
  induction ids generalizing n pos with
  | nil => rfl
  | cons a ids ih =>
    obtain ⟨ha, hids⟩ := List.nodup_cons.mp h
    rw [reindex, ih hids, List.idxOf?_cons]
    by_cases hid : a = id
    · subst hid
      rw [List.idxOf?_eq_none_iff.mpr ha]
      simp
    · rw [Assoc.get?_set_ne pos n hid, if_neg (by simpa using hid)]
      cases ids.idxOf? id with
      | none => rfl
      | some i =>
        have hadd : n + 1 + i = n + (i + 1) := by omega
        simp only [Option.map_some, Option.some_or, hadd]

theorem idxOf?_concat {ids : List PyStr} {id : PyStr} (h : id ∉ ids) (id' : PyStr) :
    (ids ++ [id]).idxOf? id' = if id = id' then some ids.length else ids.idxOf? id' := by
  induction ids with
  | nil => simp [List.idxOf?_cons]
  | cons a ids ih =>
    rw [List.mem_cons, not_or] at h
    rw [List.cons_append, List.idxOf?_cons, ih h.2, List.idxOf?_cons]
    by_cases hid : id = id'
    · subst hid
      rw [if_neg (by simpa using Ne.symm h.1), if_pos rfl, if_pos rfl]
      rfl
    · rw [if_neg hid, if_neg hid]

theorem Holds.upsert (h : x.Holds rows) (row : Row F) (hlen : (row.vector.length : Int) = x.dim)
    (hnew : row.id ∉ rows.map Row.id) :
    ∃ y, x.upsert row.id row.text row.vector row.metadata = .ok y ∧ y.dim = x.dim ∧
      y.Holds (rows ++ [row]) := by
  have hmem : row.id ∉ x.ids := by
    rw [h.ids]
    exact hnew
  have hget : Assoc.get? x.pos row.id = none := by
    rw [h.pos]
    exact List.idxOf?_eq_none_iff.mpr hmem
  have hvec : asVector row.vector x.dim = .ok row.vector := by
    rw [asVector, if_neg (not_not_intro hlen)]
  let y : NumpyVectorIndex F :=
    { x with
      pos := Assoc.set x.pos row.id x.ids.length
      ids := x.ids ++ [row.id]
      vectors := x.vectors ++ [row.vector]
      texts := x.texts ++ [row.text]
      metadata := x.metadata ++ [row.metadata] }
  have hrun : x.upsert row.id row.text row.vector row.metadata = .ok y := by
    rw [NumpyVectorIndex.upsert, hvec, hget]
    rfl
  refine ⟨y, hrun, rfl, ?_⟩
  constructor
  · simp [y, h.ids]
  · simp [y, h.vectors]
  · simp [y, h.texts]
  · simp [y, h.metadata]
  · intro id
    change Assoc.get? (Assoc.set x.pos row.id x.ids.length) id = (x.ids ++ [row.id]).idxOf? id
    rw [idxOf?_concat hmem]
    split
    · rename_i hid
      rw [← hid, Assoc.get?_set_self]
    · rename_i hid
      rw [Assoc.get?_set_ne _ _ hid, h.pos]
  · exact List.nodup_append.mpr ⟨h.nodup, List.nodup_cons.mpr ⟨List.not_mem_nil, List.nodup_nil⟩,
      fun a ha b hb heq => hmem (List.mem_singleton.mp hb ▸ heq ▸ ha)⟩

theorem upsert_error {text : PyStr} {vector : List F} {metadata : PyDict}
    (hlen : (vector.length : Int) ≠ x.dim) : x.upsert id text vector metadata = .error .valueError := by
  rw [NumpyVectorIndex.upsert, asVector, if_pos hlen]
  rfl

theorem eraseIdx_map {α : Type} (f : Row F → α) (rows : List (Row F)) (i : Nat) :
    (rows.map f).eraseIdx i = (rows.eraseIdx i).map f := by
  simp only [List.eraseIdx_eq_take_drop_succ, List.map_append, List.map_take, List.map_drop]

/-- Where the ids are distinct, to drop the place of an id is to drop the rows with it. -/
theorem eraseIdx_eq_filter {i : Nat} (h : (rows.map Row.id).Nodup)
    (hi : (rows.map Row.id).idxOf? id = some i) :
    rows.eraseIdx i = rows.filter fun r => r.id ≠ id := by
  induction rows generalizing i with
  | nil => cases hi
  | cons r rows ih =>
    obtain ⟨hr, hrows⟩ := List.nodup_cons.mp h
    rw [List.map_cons, List.idxOf?_cons] at hi
    by_cases hid : r.id = id
    · rw [if_pos (by simpa using hid)] at hi
      cases hi
      rw [List.filter_cons_of_neg (by simpa using hid), List.eraseIdx_cons_zero, eq_comm,
        List.filter_eq_self]
      intro a ha
      simp only [decide_eq_true_eq]
      intro heq
      exact hr (List.mem_map.mpr ⟨a, ha, heq.trans hid.symm⟩)
    · rw [if_neg (by simpa using hid)] at hi
      obtain ⟨j, hj, rfl⟩ := Option.map_eq_some_iff.mp hi
      rw [List.filter_cons_of_pos (by simpa using hid), List.eraseIdx_cons_succ, ih hrows hj]

theorem Holds.delete (h : x.Holds rows) (id : PyStr) :
    (x.delete id).Holds (rows.filter fun r => r.id ≠ id) := by
  unfold NumpyVectorIndex.delete
  cases hget : Assoc.get? x.pos id with
  | none =>
    have hmem : id ∉ rows.map Row.id := by
      rw [h.pos, List.idxOf?_eq_none_iff, h.ids] at hget
      exact hget
    have hall : rows.filter (fun r => r.id ≠ id) = rows := by
      rw [List.filter_eq_self]
      intro r hr
      simp only [decide_eq_true_eq]
      exact fun heq => hmem (List.mem_map.mpr ⟨r, hr, heq⟩)
    rw [hall]
    exact h
  | some i =>
    have hi : (rows.map Row.id).idxOf? id = some i := by rw [← h.ids, ← h.pos, hget]
    have hrows := eraseIdx_eq_filter (h.ids ▸ h.nodup) hi
    have hids : x.ids.eraseIdx i = (rows.filter fun r => r.id ≠ id).map Row.id := by
      rw [h.ids, ← hrows, eraseIdx_map]
    have hnodup : (x.ids.eraseIdx i).Nodup := h.nodup.eraseIdx i
    constructor
    · exact hids
    · change x.vectors.eraseIdx i = _
      rw [h.vectors, ← hrows, eraseIdx_map]
    · change x.texts.eraseIdx i = _
      rw [h.texts, ← hrows, eraseIdx_map]
    · change x.metadata.eraseIdx i = _
      rw [h.metadata, ← hrows, eraseIdx_map]
    · intro id'
      change Assoc.get? (reindex (x.ids.eraseIdx i) 0 (Assoc.erase x.pos id)) id' =
        (x.ids.eraseIdx i).idxOf? id'
      rw [get?_reindex hnodup]
      cases hidx : (x.ids.eraseIdx i).idxOf? id' with
      | some j => simp
      | none =>
        rw [Option.map_none, Option.none_or]
        by_cases hid : id = id'
        · rw [hid, Assoc.get?_erase_self]
        · rw [Assoc.get?_erase_ne _ hid, h.pos, List.idxOf?_eq_none_iff, h.ids]
          rw [List.idxOf?_eq_none_iff, hids] at hidx
          intro hmem
          obtain ⟨r, hr, hrid⟩ := List.mem_map.mp hmem
          apply hidx
          refine List.mem_map.mpr ⟨r, List.mem_filter.mpr ⟨hr, ?_⟩, hrid⟩
          simp only [decide_eq_true_eq]
          exact fun heq => hid (heq.symm.trans hrid)
    · exact hnodup

theorem Holds.vector? (h : x.Holds rows) (hrow : row ∈ rows) : x.vector? row.id = some row.vector := by
  have hmem : row.id ∈ rows.map Row.id := List.mem_map_of_mem hrow
  obtain ⟨i, hi⟩ := Option.isSome_iff_exists.mp (List.isSome_idxOf?.mpr hmem)
  obtain ⟨hlt, hid, -⟩ := List.idxOf?_eq_some_iff.mp hi
  rw [List.length_map] at hlt
  rw [List.getElem_map] at hid
  have hnodup : (rows.map Row.id).Nodup := h.ids ▸ h.nodup
  have heq : rows[i] = row := List.inj_on_of_nodup_map hnodup (List.getElem_mem hlt) hrow hid
  rw [NumpyVectorIndex.vector?, h.pos, h.ids, hi, h.vectors, Option.bind_some, List.getElem?_map,
    List.getElem?_eq_getElem hlt, Option.map_some, heq]

theorem holds_deleteAll (x : NumpyVectorIndex F) : x.deleteAll.Holds [] :=
  ⟨rfl, rfl, rfl, rfl, fun _ => rfl, List.nodup_nil⟩

end NumpyVectorIndex

end VirtualPerson
