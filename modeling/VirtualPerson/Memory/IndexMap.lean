import VirtualPerson.Machine
import VirtualPerson.Python.Argsort
import VirtualPerson.Memory.VectorIndex
import Mathlib.Algebra.Order.Group.Defs

/-!
# The index as a map

What `NumpyVectorIndex` is for: an insertion-ordered map from ids to vectors, asked for
the entries that are most similar to a vector. Similarities are exact and any ordered
group's. The two answer every sequence of calls alike.
-/

namespace VirtualPerson

set_option autoImplicit false

namespace NumpyVectorIndex

variable {F S : Type}

/-- `(self._ids[i], float(sims[i]), dict(self._metadata[i]))` -/
def hitAt (sims : List S) (x : NumpyVectorIndex F) (i : Nat) : Except PyExc (PyStr × S × PyDict) :=
  match x.ids[i]?, sims[i]?, x.metadata[i]? with
  | some id, some score, some metadata => .ok (id, score, metadata)
  | _, _, _ => .error (.builtin "IndexError")

/-- `query` where `sim` is the cosine similarity of a row and the query. -/
def queryExact [Neg S] [LE S] [DecidableLE S] (sim : List F → List F → S) (vector : List F)
    (topK : Int) (x : NumpyVectorIndex F) : Except PyExc (List (PyStr × S × PyDict)) :=
  if x.ids = [] ∨ topK ≤ 0 then .ok []
  else do
    let q ← asVector vector x.dim
    let sims := x.vectors.map fun row => sim row q
    let order := argsort (fun a b => decide (a ≤ b)) (sims.map fun s => -s)
    (order.take (min topK x.ids.length).toNat).mapM (hitAt sims x)

end NumpyVectorIndex

inductive IndexCall (F : Type) where
  | upsert (id text : PyStr) (vector : List F) (metadata : Option PyDict)
  | delete (id : PyStr)
  | deleteAll
  | query (vector : List F) (topK : Int)

inductive IndexReply (S : Type) where
  | done
  | hits (hits : List (PyStr × S × PyDict))
  | raised (e : PyExc)

namespace NumpyVectorIndex

variable {F S : Type} [Neg S] [LE S] [DecidableLE S] (sim : List F → List F → S)

def call : IndexCall F → NumpyVectorIndex F → IndexReply S × NumpyVectorIndex F
  | .upsert id text vector metadata, x =>
    match x.upsert id text vector (metadata.getD []) with
    | .ok x' => (.done, x')
    | .error e => (.raised e, x)
  | .delete id, x => (.done, x.delete id)
  | .deleteAll, x => (.done, x.deleteAll)
  | .query vector topK, x =>
    match x.queryExact sim vector topK with
    | .ok hits => (.hits hits, x)
    | .error e => (.raised e, x)

def machine : Machine (NumpyVectorIndex F) (IndexCall F) (IndexReply S) := ⟨call sim⟩

end NumpyVectorIndex

namespace IndexMap

structure Entry (F : Type) where
  vector : List F
  text : PyStr
  metadata : PyDict

end IndexMap

/-- An insertion-ordered map from ids to entries of one dimension. -/
structure IndexMap (F : Type) where
  dim : Int
  entries : List (PyStr × IndexMap.Entry F)
  nodup : (Assoc.keys entries).Nodup
  wide : ∀ e ∈ entries, (e.2.vector.length : Int) = dim

namespace IndexMap

variable {F S : Type}

def empty (dim : Int) : IndexMap F where
  dim := dim
  entries := []
  nodup := List.nodup_nil
  wide := fun _ h => absurd h List.not_mem_nil

def set (m : IndexMap F) (id : PyStr) (e : Entry F) (h : (e.vector.length : Int) = m.dim) :
    IndexMap F where
  dim := m.dim
  entries := Assoc.set m.entries id e
  nodup := Assoc.nodup_keys_set m.nodup
  wide := by
    intro e' he'
    rcases Assoc.mem_set he' with rfl | he'
    · exact h
    · exact m.wide e' he'

def erase (m : IndexMap F) (id : PyStr) : IndexMap F where
  dim := m.dim
  entries := Assoc.erase m.entries id
  nodup := m.nodup.sublist (List.filter_sublist.map _)
  wide := fun e he => m.wide e (List.mem_filter.mp he).1

/-- The entries by decreasing similarity to `q`. -/
def ranked [LE S] [DecidableLE S] (sim : List F → List F → S) (q : List F) (m : IndexMap F) :
    List (PyStr × Entry F) :=
  m.entries.mergeSort fun a b => decide (sim b.2.vector q ≤ sim a.2.vector q)

theorem ranked_decreasing [LinearOrder S] (sim : List F → List F → S) (q : List F) (m : IndexMap F) :
    Decreasing (fun e => sim e.2.vector q) m.entries (m.ranked sim q) :=
  decreasing_mergeSort _ m.entries

def topK [LE S] [DecidableLE S] (sim : List F → List F → S) (q : List F) (k : Int)
    (m : IndexMap F) : List (PyStr × S × PyDict) :=
  ((m.ranked sim q).take (max 0 (min k m.entries.length)).toNat).map fun e =>
    (e.1, sim e.2.vector q, e.2.metadata)

def call [LE S] [DecidableLE S] (sim : List F → List F → S) :
    IndexCall F → IndexMap F → IndexReply S × IndexMap F
  | .upsert id text vector metadata, m =>
    if h : (vector.length : Int) = m.dim then
      (.done, m.set id { vector, text, metadata := metadata.getD [] } h)
    else (.raised .valueError, m)
  | .delete id, m => (.done, m.erase id)
  | .deleteAll, m => (.done, empty m.dim)
  | .query vector k, m =>
    if (vector.length : Int) = m.dim ∨ m.entries = [] ∨ k ≤ 0 then (.hits (m.topK sim vector k), m)
    else (.raised .valueError, m)

def machine [LE S] [DecidableLE S] (sim : List F → List F → S) :
    Machine (IndexMap F) (IndexCall F) (IndexReply S) := ⟨call sim⟩

section Agreement

variable {F S : Type} {x : NumpyVectorIndex F} {m : IndexMap F}

def Entry.row (e : PyStr × Entry F) : NumpyVectorIndex.Row F :=
  { id := e.1, vector := e.2.vector, text := e.2.text, metadata := e.2.metadata }

/-- The five containers of `x` hold the entries of `m`, each id at its position. -/
structure Represents (x : NumpyVectorIndex F) (m : IndexMap F) : Prop where
  dim : x.dim = m.dim
  holds : x.Holds (m.entries.map Entry.row)

theorem ids_map_row (es : List (PyStr × Entry F)) :
    (es.map Entry.row).map NumpyVectorIndex.Row.id = Assoc.keys es := by
  rw [List.map_map]
  rfl

theorem Represents.ids (h : Represents x m) : x.ids = Assoc.keys m.entries := by
  rw [h.holds.ids, ids_map_row]

theorem represents_init (dim : Int) (h : 0 < dim) :
    ∃ x : NumpyVectorIndex F, NumpyVectorIndex.init dim = .ok x ∧ Represents x (empty dim) := by
  refine ⟨{ dim, pos := [], ids := [], vectors := [], texts := [], metadata := [] }, ?_, rfl, ?_⟩
  · rw [NumpyVectorIndex.init, if_neg (by omega)]
  · exact ⟨rfl, rfl, rfl, rfl, fun _ => rfl, List.nodup_nil⟩

/-- An upsert of a known id writes at its position and leaves the ids alone. -/
theorem Represents.replace (h : Represents x m) {id : PyStr} {i : Nat}
    (hi : (Assoc.keys m.entries).idxOf? id = some i) (e : Entry F)
    (hlen : (e.vector.length : Int) = m.dim) :
    Represents
      { x with
        vectors := x.vectors.set i e.vector
        texts := x.texts.set i e.text
        metadata := x.metadata.set i e.metadata } (m.set id e hlen) := by
  have hset : Assoc.set m.entries id e = m.entries.set i (id, e) := Assoc.set_eq_set hi
  have hkeys : Assoc.keys (Assoc.set m.entries id e) = Assoc.keys m.entries := by
    rw [Assoc.keys_set, if_pos]
    exact List.isSome_idxOf?.mp (hi ▸ rfl)
  refine ⟨h.dim, ?_⟩
  change NumpyVectorIndex.Holds _ ((Assoc.set m.entries id e).map Entry.row)
  constructor
  · change x.ids = _
    rw [ids_map_row, hkeys, h.ids]
  · change x.vectors.set i e.vector = _
    rw [h.holds.vectors, hset, List.map_set, List.map_set]
    rfl
  · change x.texts.set i e.text = _
    rw [h.holds.texts, hset, List.map_set, List.map_set]
    rfl
  · change x.metadata.set i e.metadata = _
    rw [h.holds.metadata, hset, List.map_set, List.map_set]
    rfl
  · exact h.holds.pos
  · exact h.holds.nodup

/-- What an upsert of the right dimension comes to. -/
theorem Represents.upsert (h : Represents x m) (id : PyStr) (e : Entry F)
    (hlen : (e.vector.length : Int) = m.dim) :
    ∃ y, x.upsert id e.text e.vector e.metadata = .ok y ∧ Represents y (m.set id e hlen) := by
  by_cases hid : id ∈ Assoc.keys m.entries
  · obtain ⟨i, hi⟩ := Option.isSome_iff_exists.mp (List.isSome_idxOf?.mpr hid)
    refine ⟨_, ?_, h.replace hi e hlen⟩
    rw [NumpyVectorIndex.upsert, NumpyVectorIndex.asVector, if_neg (not_not_intro (h.dim ▸ hlen)),
      h.holds.pos, h.ids, hi]
    rfl
  · have hnew : (Entry.row (id, e)).id ∉ (m.entries.map Entry.row).map NumpyVectorIndex.Row.id := by
      rw [ids_map_row]
      exact hid
    obtain ⟨y, hy, hdim, hholds⟩ := h.holds.upsert (Entry.row (id, e)) (h.dim ▸ hlen) hnew
    refine ⟨y, hy, hdim.trans h.dim, ?_⟩
    change y.Holds ((Assoc.set m.entries id e).map Entry.row)
    rw [Assoc.set_eq_append hid, List.map_append]
    exact hholds

theorem Represents.delete (h : Represents x m) (id : PyStr) :
    Represents (x.delete id) (m.erase id) := by
  refine ⟨?_, ?_⟩
  · rw [NumpyVectorIndex.delete]
    split
    · exact h.dim
    · exact h.dim
  · have hrows : (m.erase id).entries.map Entry.row =
        (m.entries.map Entry.row).filter fun r => r.id ≠ id := by
      rw [List.filter_map]
      congr 1
      apply List.filter_congr
      intro e _
      by_cases he : e.1 = id
      · simp [Entry.row, he]
      · simp [Entry.row, he]
    rw [hrows]
    exact h.holds.delete id

theorem Represents.hitAt (sim : List F → List F → S) (h : Represents x m) (q : List F) (i : Nat)
    (e : PyStr × Entry F)
    (hi : m.entries[i]? = some e) :
    x.hitAt (x.vectors.map fun row => sim row q) i =
      .ok (e.1, sim e.2.vector q, e.2.metadata) := by
  rw [NumpyVectorIndex.hitAt, h.holds.ids, h.holds.vectors, h.holds.metadata]
  simp only [List.getElem?_map, hi, Option.map_some]
  rfl

variable [AddCommGroup S] [LinearOrder S] [IsOrderedAddMonoid S] (sim : List F → List F → S)

/-- The loop over the sorted positions gives the first of the sorted entries. -/
theorem Represents.ranked (h : Represents x m) (q : List F) (k : Int) :
    ((argsort (fun a b => decide (a ≤ b)) ((x.vectors.map fun row => sim row q).map fun s => -s)).take
        (min k x.ids.length).toNat).mapM (x.hitAt (x.vectors.map fun row => sim row q)) =
      .ok (m.topK sim q k) := by
  have hkeys : (x.vectors.map fun row => sim row q).map (fun s => -s) =
      m.entries.map fun e => -(sim e.2.vector q) := by
    rw [h.holds.vectors, List.map_map, List.map_map, List.map_map]
    rfl
  have hcount : (min k x.ids.length).toNat = (max 0 (min k m.entries.length)).toNat := by
    rw [h.ids, Assoc.keys, List.length_map]
    omega
  rw [hkeys, hcount, mapM_take_argsort (h.hitAt sim q)]
  simp only [neg_le_neg_iff]
  rfl

theorem Represents.query (h : Represents x m) (vector : List F) (k : Int) :
    x.queryExact sim vector k =
      if (vector.length : Int) = m.dim ∨ m.entries = [] ∨ k ≤ 0 then .ok (m.topK sim vector k)
      else .error .valueError := by
  have hempty : x.ids = [] ↔ m.entries = [] := by
    rw [h.ids, Assoc.keys, List.map_eq_nil_iff]
  unfold NumpyVectorIndex.queryExact
  by_cases hnone : m.entries = [] ∨ k ≤ 0
  · rw [if_pos (hnone.imp_left hempty.mpr), if_pos (.inr hnone)]
    have hcount : max 0 (min k m.entries.length) = 0 := by
      rcases hnone with hnil | hk
      · rw [hnil, List.length_nil]
        omega
      · omega
    rw [topK, hcount]
    rfl
  · rw [if_neg (fun hc => hnone (hc.imp_left hempty.mp)), NumpyVectorIndex.asVector, h.dim]
    by_cases hlen : (vector.length : Int) = m.dim
    · rw [if_neg (not_not_intro hlen), if_pos (.inl hlen)]
      exact h.ranked sim vector k
    · rw [if_pos hlen, if_neg (not_or.mpr ⟨hlen, hnone⟩)]
      rfl

/-- The query of the memory service, where every similarity is a finite float. -/
theorem Represents.query_eq_queryExact (h : Represents x m) {k : SemanticKit F}
    {sim : List F → List F → ℚ}
    (hk : ∀ rows q, k.cosineSimilarities rows q = rows.map fun row => .finite (sim row q))
    (vector : List F) (n : Int) :
    x.query k vector n = (x.queryExact sim vector n).map fun hits =>
      hits.map fun hit => (hit.1, .finite hit.2.1, hit.2.2) := by
  rw [NumpyVectorIndex.query, NumpyVectorIndex.queryExact]
  split
  · rfl
  · cases NumpyVectorIndex.asVector vector x.dim with
    | error e => rfl
    | ok q =>
      have hrows : x.ids.zip ((k.cosineSimilarities x.vectors q).zip x.metadata) =
          m.entries.map fun e => (e.1, .finite (sim e.2.vector q), e.2.metadata) := by
        rw [hk, h.holds.ids, h.holds.vectors, h.holds.metadata]
        simp only [List.map_map, List.zip_map', Function.comp_def]
        rfl
      have hsort : (m.entries.map fun e => (e.1, PyFloat.finite (sim e.2.vector q), e.2.metadata)).mergeSort
            (fun a b => !b.2.1.neg.sortsBefore a.2.1.neg) =
          (m.ranked sim q).map fun e => (e.1, PyFloat.finite (sim e.2.vector q), e.2.metadata) := by
        symm
        apply List.map_mergeSort
        intro a _ b _
        simp [PyFloat.neg, PyFloat.sortsBefore, PyFloat.lt, ← decide_not]
      have hcount : (min n x.ids.length).toNat = (max 0 (min n m.entries.length)).toNat := by
        rw [h.ids, Assoc.keys, List.length_map]
        omega
      change Except.ok
          (((x.ids.zip ((k.cosineSimilarities x.vectors q).zip x.metadata)).mergeSort _).take _) =
        Except.map _ (List.mapM _ _)
      rw [h.ranked sim q n, hrows, hsort, ← List.map_take, hcount]
      simp only [Except.map, topK, List.map_map]
      rfl

/-- One call: the same answer, and the containers hold the map it leaves. -/
theorem Represents.call (h : Represents x m) (c : IndexCall F) :
    (x.call sim c).1 = (m.call sim c).1 ∧ Represents (x.call sim c).2 (m.call sim c).2 := by
  cases c with
  | upsert id text vector metadata =>
    simp only [NumpyVectorIndex.call, IndexMap.call]
    by_cases hlen : (vector.length : Int) = m.dim
    · obtain ⟨y, hy, hrep⟩ := h.upsert id { vector, text, metadata := metadata.getD [] } hlen
      dsimp only at hy
      rw [dif_pos hlen, hy]
      exact ⟨rfl, hrep⟩
    · rw [dif_neg hlen, NumpyVectorIndex.upsert_error (h.dim ▸ hlen)]
      exact ⟨rfl, h⟩
  | delete id => exact ⟨rfl, h.delete id⟩
  | deleteAll =>
    refine ⟨rfl, h.dim, ?_⟩
    exact NumpyVectorIndex.holds_deleteAll x
  | query vector k =>
    simp only [NumpyVectorIndex.call, IndexMap.call]
    rw [h.query sim]
    by_cases hq : (vector.length : Int) = m.dim ∨ m.entries = [] ∨ k ≤ 0
    · rw [if_pos hq, if_pos hq]
      exact ⟨rfl, h⟩
    · rw [if_neg hq, if_neg hq]
      exact ⟨rfl, h⟩

/-- From its construction on the index answers as the map does, and its containers hold the map's entries;
where the similarities are finite floats, the query of the memory service is this one. -/
theorem numpyVectorIndex_is_indexMap (dim : Int) (hdim : 0 < dim) (calls : List (IndexCall F)) :
    ∃ x, NumpyVectorIndex.init dim = .ok x ∧
      (NumpyVectorIndex.machine sim).answers calls x =
        (IndexMap.machine sim).answers calls (empty dim) ∧
      Represents ((NumpyVectorIndex.machine sim).final calls x)
        ((IndexMap.machine sim).final calls (empty dim)) ∧
      ∀ (k : SemanticKit F) (exact : List F → List F → ℚ),
        (∀ rows q, k.cosineSimilarities rows q = rows.map fun row => .finite (exact row q)) →
        ∀ (vector : List F) (n : Int), ((NumpyVectorIndex.machine sim).final calls x).query k vector n =
          (((NumpyVectorIndex.machine sim).final calls x).queryExact exact vector n).map fun hits =>
            hits.map fun hit => (hit.1, .finite hit.2.1, hit.2.2) := by
  obtain ⟨x, hinit, hrep⟩ := represents_init (F := F) dim hdim
  have hfinal : Represents ((NumpyVectorIndex.machine sim).final calls x)
      ((IndexMap.machine sim).final calls (empty dim)) := by
    have hsim := Machine.final_of_simulation (M := NumpyVectorIndex.machine sim)
      (N := IndexMap.machine sim) (f := id) (fun _ => True) Represents
      (fun {c _ _} _ h => (h.call sim c).2) (fun c (_ : c ∈ calls) => trivial) hrep
    rwa [List.map_id] at hsim
  refine ⟨x, hinit, ?_, hfinal, fun k exact hk vector n => hfinal.query_eq_queryExact hk vector n⟩
  · have hsim := Machine.answers_eq_of_simulation (M := NumpyVectorIndex.machine sim)
      (N := IndexMap.machine sim) (f := id) (fun _ => True) Represents
      (fun {c _ _} _ h => h.call sim c) (fun c (_ : c ∈ calls) => trivial) hrep
    rwa [List.map_id] at hsim

end Agreement

/-- Two rows, one of them replaced, one query of them and one of the wrong dimension. -/
theorem numpyVectorIndex_is_indexMap_two :
    let sim (a b : List ℚ) : ℚ := (a.zipWith (· * ·) b).sum
    let calls : List (IndexCall ℚ) :=
      [.upsert (str "a") [] [1, 0] none, .upsert (str "b") [] [0, 1] none,
        .upsert (str "a") [] [0, 1] none, .query [1, 0] 5, .query [1] 5, .delete (str "a")]
    (0 : Int) < 2 ∧ ∃ x, NumpyVectorIndex.init 2 = .ok x ∧
      (NumpyVectorIndex.machine sim).answers calls x =
        (IndexMap.machine sim).answers calls (empty 2) ∧
      Represents ((NumpyVectorIndex.machine sim).final calls x)
        ((IndexMap.machine sim).final calls (empty 2)) := by
  intro sim calls
  obtain ⟨x, hinit, hanswers, hfinal, -⟩ := numpyVectorIndex_is_indexMap sim 2 (by decide) calls
  exact ⟨by decide, x, hinit, hanswers, hfinal⟩

end IndexMap

end VirtualPerson
