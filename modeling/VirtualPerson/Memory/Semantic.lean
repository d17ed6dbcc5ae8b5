import VirtualPerson.Memory.Atomicity
import VirtualPerson.Memory.VectorIndex
import VirtualPerson.Transition

/-!
# The semantic index over whole runs

A memory service without databases that is started on some file and then called. Its index
holds a row for each item that can be embedded, in the order of the items.
-/

namespace VirtualPerson

set_option autoImplicit false

open Stateful NumpyVectorIndex

variable {F : Type}

/-- `int(getattr(embedder, "dim", 0)) or 256` -/
def SemanticKit.size (k : SemanticKit F) : Int := if k.dim = 0 then 256 else k.dim

namespace MemoryService

/-- `_reindex_all` -/
def reindexAll (k : SemanticKit F) (items : List MemoryItem) (x : NumpyVectorIndex F) :
    NumpyVectorIndex F :=
  items.foldl (fun x i => indexItem (store k) (.fileOnly [] []) i x) x

/-- `_init_semantic`, without a pgvector store. -/
def initSemantic (k : SemanticKit F) (enabled : Bool) (items : List MemoryItem) :
    Option (NumpyVectorIndex F) :=
  if enabled then (init k.size).toOption.map (reindexAll k items) else none

/-- `MemoryService(persist_path)`, without databases. -/
def start (k : SemanticKit F) (enabled : Bool) (fresh : Nat → PyStr × PyStr) (file : PersistFile) :
    MemoryService (NumpyVectorIndex F) :=
  { items := file.load fresh, index := initSemantic k enabled (file.load fresh), file }

/-- The uids of the items differ. -/
def Distinct (items : List MemoryItem) : Prop := (items.map MemoryItem.uid).Nodup

/-- Calls of a service that has no databases and whose flushes succeed; each draws a uid that no
item has. -/
def callSystem (cm : CaseMap) (k : SemanticKit F) (enabled : Bool) :
    System (MemoryService (NumpyVectorIndex F)) MemoryCall where
  init s := ∃ fresh file, s = start k enabled fresh file ∧ Distinct s.items
  step s c t := ∃ now uid, uid ∉ s.items.map MemoryItem.uid ∧
    c.run cm (store k) (.fileOnly now uid) s = .ok () t

section Calls

variable {cm : CaseMap} {k : SemanticKit F} {enabled : Bool} {c : MemoryCall}
variable {s t : MemoryService (NumpyVectorIndex F)} {items : List MemoryItem} {i : MemoryItem}

/-- The call rewrites the file. -/
def Flushes (cm : CaseMap) (s : MemoryService (NumpyVectorIndex F)) : MemoryCall → Prop
  | .write kind key value _ =>
    filtered cm s.items (kindArg cm kind) (PyStr.strip key) (PyStr.strip value) = false
  | .delete kind key => s.items.any (named kind key) = true
  | .eraseAll => True

def appended (k : SemanticKit F) (s : MemoryService (NumpyVectorIndex F)) (i : MemoryItem) :
    MemoryService (NumpyVectorIndex F) where
  items := s.items ++ [i]
  index := s.index.map (indexItem (store k) (.fileOnly [] []) i)
  file := .ofItems (s.items ++ [i])

def removed (k : SemanticKit F) (s : MemoryService (NumpyVectorIndex F)) (kind key : PyStr) :
    MemoryService (NumpyVectorIndex F) where
  items := s.items.filter fun i => !named kind key i
  index := s.index.map ((s.items.filter (named kind key)).foldl (unindexItem (store k) (.fileOnly [] [])))
  file := .ofItems (s.items.filter fun i => !named kind key i)

def erased (s : MemoryService (NumpyVectorIndex F)) : MemoryService (NumpyVectorIndex F) where
  items := []
  index := s.index.map deleteAll
  file := .ofItems []

theorem step_cases (h : (callSystem cm k enabled).step s c t) :
    (¬ Flushes cm s c ∧ t = s) ∨
      (Flushes cm s c ∧ ((∃ i, i.uid ∉ s.items.map MemoryItem.uid ∧ t = appended k s i) ∨
        (∃ kind key, t = removed k s kind key) ∨ t = erased s)) := by
  obtain ⟨now, uid, huid, hrun⟩ := h
  have hquiet := Env.quiet_fileOnly now uid
  cases c with
  | write kind key value metadata =>
    rcases run_write_quiet hquiet hrun with ⟨hf, rfl⟩ | ⟨hf, i, hi, rfl⟩
    · left
      refine ⟨?_, rfl⟩
      simp [Flushes, hf]
    · right
      refine ⟨hf, .inl ⟨i, ?_, rfl⟩⟩
      rw [hi]
      exact huid
  | delete kind key =>
    rcases run_delete_quiet hquiet hrun with ⟨hany, rfl⟩ | ⟨hany, rfl⟩
    · left
      refine ⟨?_, rfl⟩
      simp [Flushes, hany]
    · right
      exact ⟨hany, .inr (.inl ⟨kind, key, rfl⟩)⟩
  | eraseAll =>
    right
    exact ⟨trivial, .inr (.inr (run_eraseAll_quiet hquiet hrun))⟩

def indexText (i : MemoryItem) : PyStr := PyStr.strip (i.key ++ str " " ++ i.value)

def indexMetadata (i : MemoryItem) : PyDict :=
  [(str "kind", .str i.kind), (str "key", .str i.key), (str "value", .str i.value),
    (str "created_at", .str i.createdAt), (str "uid", .str i.uid)]

/-- The row of an item, if its text can be embedded in the index's dimension. -/
def itemRow (k : SemanticKit F) (i : MemoryItem) : Option (Row F) :=
  (k.embed (indexText i)).bind fun vector =>
    if (vector.length : Int) = k.size then
      some { id := i.uid, vector, text := indexText i, metadata := indexMetadata i }
    else none

/-- The index holds the rows of these items in their order. -/
structure InStep (k : SemanticKit F) (x : NumpyVectorIndex F) (items : List MemoryItem) : Prop where
  dim : x.dim = k.size
  rows : x.Holds (items.filterMap (itemRow k))

variable {x : NumpyVectorIndex F} {row : Row F}

theorem id_of_itemRow (h : itemRow k i = some row) : row.id = i.uid := by
  obtain ⟨vector, -, hrow⟩ := Option.bind_eq_some_iff.mp h
  split at hrow
  · cases hrow
    rfl
  · cases hrow

theorem id_mem_uids {id : PyStr} (h : id ∈ (items.filterMap (itemRow k)).map Row.id) :
    id ∈ items.map MemoryItem.uid := by
  obtain ⟨row, hrow, rfl⟩ := List.mem_map.mp h
  obtain ⟨i, hi, hir⟩ := List.mem_filterMap.mp hrow
  rw [id_of_itemRow hir]
  exact List.mem_map_of_mem hi

theorem InStep.indexItem (h : InStep k x items) (hnew : i.uid ∉ items.map MemoryItem.uid) :
    InStep k (MemoryService.indexItem (store k) (.fileOnly [] []) i x) (items ++ [i]) := by
  have hindex : MemoryService.indexItem (store k) (.fileOnly [] []) i x =
      ((k.embed (indexText i)).bind fun vector =>
        (x.upsert i.uid (indexText i) vector (indexMetadata i)).toOption).getD x := rfl
  have hrows : (items ++ [i]).filterMap (itemRow k) =
      items.filterMap (itemRow k) ++ (itemRow k i).toList := by
    rw [List.filterMap_append]
    cases hrow : itemRow k i <;> simp [hrow]
  rw [hindex]
  cases hembed : k.embed (indexText i) with
  | none =>
    have hrow : itemRow k i = none := by rw [itemRow, hembed]; rfl
    refine ⟨h.dim, ?_⟩
    rw [hrows, hrow, Option.toList_none, List.append_nil]
    exact h.rows
  | some vector =>
    rw [Option.bind_some]
    by_cases hlen : (vector.length : Int) = k.size
    · have hrow : itemRow k i =
          some { id := i.uid, vector, text := indexText i, metadata := indexMetadata i } := by
        rw [itemRow, hembed, Option.bind_some, if_pos hlen]
      have hlen' : (vector.length : Int) = x.dim := hlen.trans h.dim.symm
      obtain ⟨y, hrun, hdim, hy⟩ := h.rows.upsert
        { id := i.uid, vector, text := indexText i, metadata := indexMetadata i } hlen'
        (fun hmem => hnew (id_mem_uids hmem))
      rw [hrun]
      refine ⟨hdim.trans h.dim, ?_⟩
      rw [hrows, hrow]
      exact hy
    · have hrow : itemRow k i = none := by rw [itemRow, hembed, Option.bind_some, if_neg hlen]
      have hlen' : (vector.length : Int) ≠ x.dim := fun heq => hlen (heq.trans h.dim)
      rw [upsert_error hlen']
      refine ⟨h.dim, ?_⟩
      rw [hrows, hrow, Option.toList_none, List.append_nil]
      exact h.rows

/-- The removed items go one by one. -/
theorem holds_unindexed {rows : List (Row F)} (gone : List MemoryItem) (h : x.Holds rows) :
    (gone.foldl (unindexItem (store k) (.fileOnly [] [])) x).Holds
      (rows.filter fun r => r.id ∉ gone.map MemoryItem.uid) := by
  induction gone generalizing x rows with
  | nil =>
    have hall : rows.filter (fun r => r.id ∉ ([] : List MemoryItem).map MemoryItem.uid) = rows := by
      rw [List.filter_eq_self]
      intro r _
      simp
    rw [hall]
    exact h
  | cons i gone ih =>
    have hrest := ih (h.delete i.uid)
    rw [List.filter_filter] at hrest
    have hfilter : rows.filter (fun r => r.id ∉ (i :: gone).map MemoryItem.uid) =
        rows.filter fun r => decide (r.id ∉ gone.map MemoryItem.uid) && decide (r.id ≠ i.uid) := by
      apply List.filter_congr
      intro r _
      rw [Bool.eq_iff_iff, Bool.and_eq_true, decide_eq_true_iff, decide_eq_true_iff,
        decide_eq_true_iff, List.map_cons, List.mem_cons, not_or]
      exact and_comm
    rw [hfilter]
    exact hrest

theorem dim_unindexed (gone : List MemoryItem) (x : NumpyVectorIndex F) :
    (gone.foldl (unindexItem (store k) (.fileOnly [] [])) x).dim = x.dim := by
  induction gone generalizing x with
  | nil => rfl
  | cons i gone ih =>
    rw [List.foldl_cons, ih]
    change (x.delete i.uid).dim = x.dim
    unfold NumpyVectorIndex.delete
    cases Assoc.get? x.pos i.uid <;> rfl

theorem InStep.unindexed (h : InStep k x items) (hdistinct : Distinct items) (p : MemoryItem → Bool) :
    InStep k ((items.filter p).foldl (unindexItem (store k) (.fileOnly [] [])) x)
      (items.filter fun i => !p i) := by
  refine ⟨(dim_unindexed _ x).trans h.dim, ?_⟩
  -- the items left are those whose uid is not that of a removed item
  have hleft : ∀ i ∈ items, (i.uid ∉ (items.filter p).map MemoryItem.uid) ↔ p i = false := by
    intro i hi
    rw [List.mem_map, ← Bool.not_eq_true]
    apply not_congr
    constructor
    · intro h
      obtain ⟨j, hj, huid⟩ := h
      obtain ⟨hjmem, hpj⟩ := List.mem_filter.mp hj
      rw [← List.inj_on_of_nodup_map hdistinct hjmem hi huid]
      exact hpj
    · exact fun hpi => ⟨i, List.mem_filter.mpr ⟨hi, hpi⟩, rfl⟩
  have hrows : (items.filter fun i => !p i).filterMap (itemRow k) =
      (items.filterMap (itemRow k)).filter fun r => r.id ∉ (items.filter p).map MemoryItem.uid := by
    rw [List.filterMap_filter, List.filter_filterMap]
    apply List.filterMap_congr
    intro i hi
    cases hrow : itemRow k i with
    | none => simp
    | some row =>
      have hid := id_of_itemRow hrow
      have hmem : row.id ∉ (items.filter p).map MemoryItem.uid ↔ p i = false := by
        rw [hid]
        exact hleft i hi
      rw [Option.filter_some]
      cases hp : p i with
      | true =>
        rw [hp] at hmem
        rw [if_neg (by simp), if_neg]
        rw [decide_eq_true_iff, hmem]
        simp
      | false =>
        rw [if_pos (by simp), if_pos]
        rw [decide_eq_true_iff, hmem]
        exact hp
  rw [hrows]
  exact holds_unindexed _ h.rows

theorem InStep.reindexAll (h : InStep k x items) {more : List MemoryItem}
    (hdistinct : Distinct (items ++ more)) :
    InStep k (MemoryService.reindexAll k more x) (items ++ more) := by
  induction more generalizing x items with
  | nil =>
    rw [List.append_nil]
    exact h
  | cons i more ih =>
    have hnew : i.uid ∉ items.map MemoryItem.uid := by
      rw [Distinct, List.map_append, List.map_cons, List.nodup_append] at hdistinct
      exact fun hmem => hdistinct.2.2 i.uid hmem i.uid List.mem_cons_self rfl
    rw [List.append_cons]
    apply ih (h.indexItem hnew)
    rw [← List.append_cons]
    exact hdistinct

/-- What holds in every state of a run. -/
structure Sound (k : SemanticKit F) (enabled : Bool) (s : MemoryService (NumpyVectorIndex F)) : Prop where
  distinct : Distinct s.items
  active : s.index.isSome = (enabled && decide (0 < k.size))
  index : ∀ x, s.index = some x → InStep k x s.items

theorem sound_start (k : SemanticKit F) (enabled : Bool) {fresh : Nat → PyStr × PyStr} {file : PersistFile}
    (hdistinct : Distinct (file.load fresh)) : Sound k enabled (start k enabled fresh file) := by
  have hindex : (start k enabled fresh file).index = initSemantic k enabled (file.load fresh) := rfl
  constructor
  · exact hdistinct
  · rw [hindex, initSemantic]
    cases enabled with
    | false => rfl
    | true =>
      by_cases hsize : k.size ≤ 0
      · simp [init, hsize, Except.toOption]
      · simp [init, hsize, Except.toOption, not_le.mp hsize]
  · intro x hx
    rw [hindex, initSemantic] at hx
    split at hx
    · cases hinit : init (F := F) k.size with
      | error e =>
        rw [hinit] at hx
        cases hx
      | ok y =>
        rw [hinit] at hx
        cases hx
        obtain ⟨hempty, hdim, -⟩ := holds_init hinit
        have hstart : InStep k y [] := ⟨hdim, hempty⟩
        exact hstart.reindexAll hdistinct
    · cases hx

theorem Sound.step (h : Sound k enabled s) (hst : (callSystem cm k enabled).step s c t) :
    Sound k enabled t := by
  rcases step_cases hst with ⟨-, rfl⟩ | ⟨-, ⟨i, huid, rfl⟩ | ⟨kind, key, rfl⟩ | rfl⟩
  · exact h
  · constructor
    · change ((s.items ++ [i]).map MemoryItem.uid).Nodup
      rw [List.map_append, List.nodup_append]
      refine ⟨h.distinct, List.nodup_cons.mpr ⟨List.not_mem_nil, List.nodup_nil⟩, ?_⟩
      intro a ha b hb heq
      rw [List.map_singleton, List.mem_singleton] at hb
      exact huid (hb ▸ heq ▸ ha)
    · rw [← h.active]
      exact Option.isSome_map
    · intro x hx
      obtain ⟨y, hy, rfl⟩ := Option.map_eq_some_iff.mp hx
      exact (h.index y hy).indexItem huid
  · constructor
    · exact h.distinct.sublist (List.filter_sublist.map _)
    · rw [← h.active]
      exact Option.isSome_map
    · intro x hx
      obtain ⟨y, hy, rfl⟩ := Option.map_eq_some_iff.mp hx
      exact (h.index y hy).unindexed h.distinct (named kind key)
  · constructor
    · exact List.nodup_nil
    · rw [← h.active]
      exact Option.isSome_map
    · intro x hx
      obtain ⟨y, hy, rfl⟩ := Option.map_eq_some_iff.mp hx
      exact ⟨(h.index y hy).dim, holds_deleteAll y⟩

theorem Sound.of_run {calls : List MemoryCall} (h : Sound k enabled s)
    (hrun : (callSystem cm k enabled).Run s calls t) : Sound k enabled t :=
  hrun.invariant (fun h hst => h.step hst) h

/-- With an embedder that always returns vectors of its dimension, the index holds the uids of the
items in their order, each with the embedding of its item; a filtered write is not indexed. -/
theorem index_in_step (cm : CaseMap) (k : SemanticKit F)
    (hembed : ∀ text, ∃ vector, k.embed text = some vector ∧ (vector.length : Int) = k.size)
    (h : (callSystem cm k true).Reachable s) :
    (∃ x, s.index = some x ∧ x.ids = s.items.map MemoryItem.uid ∧
      ∀ i ∈ s.items, x.vector? i.uid = k.embed (indexText i)) ∧
    ∀ env kind key value metadata,
      filtered cm s.items (kindArg cm kind) (PyStr.strip key) (PyStr.strip value) = true →
        ∃ item, write cm (store k) env kind key value metadata s = .ok item s := by
  obtain ⟨s₀, calls, ⟨fresh, file, rfl, hdistinct⟩, hrun⟩ := h
  have hsound := (sound_start k true hdistinct).of_run hrun
  constructor
  · have hsize : 0 < k.size := by
      obtain ⟨vector, -, hlen⟩ := hembed []
      have hne : k.size ≠ 0 := by
        unfold SemanticKit.size
        split <;> omega
      omega
    have hactive : s.index.isSome = true := by
      rw [hsound.active]
      simp [hsize]
    obtain ⟨x, hx⟩ := Option.isSome_iff_exists.mp hactive
    have hstep := hsound.index x hx
    have hrow (i : MemoryItem) :
        ∃ row, itemRow k i = some row ∧ k.embed (indexText i) = some row.vector := by
      obtain ⟨vector, hv, hlen⟩ := hembed (indexText i)
      refine ⟨{ id := i.uid, vector, text := indexText i, metadata := indexMetadata i }, ?_, hv⟩
      rw [itemRow, hv, Option.bind_some, if_pos hlen]
    refine ⟨x, hx, ?_, ?_⟩
    · rw [hstep.rows.ids, List.map_filterMap]
      apply List.filterMap_eq_map_iff_forall_eq_some.mpr
      intro i _
      obtain ⟨row, hi, -⟩ := hrow i
      rw [hi, Option.map_some, id_of_itemRow hi]
    · intro i hi
      obtain ⟨row, hir, hv⟩ := hrow i
      rw [hv, ← id_of_itemRow hir]
      exact hstep.rows.vector? (List.mem_filterMap.mpr ⟨i, hi, hir⟩)
  · intro env kind key value metadata hfiltered
    rw [write_eq, hfiltered, if_pos rfl]
    exact ⟨_, rfl⟩

end Calls

/-- Embeds a text as its length. -/
def lengthKit : SemanticKit Nat where
  dim := 1
  embed text := some [text.length]
  cosineSimilarities matrix _ := matrix.map fun _ => .finite 1
  semanticTopK := 5

/-- Of two notes the first is deleted. -/
theorem index_in_step_tea :
    ∃ s, (callSystem .asciiOnly lengthKit true).Reachable s ∧ s.items.map MemoryItem.value = [str "red"] ∧
      ((∃ x, s.index = some x ∧ x.ids = s.items.map MemoryItem.uid ∧
        ∀ i ∈ s.items, x.vector? i.uid = lengthKit.embed (indexText i)) ∧
      ∀ env kind key value metadata,
        filtered .asciiOnly s.items (kindArg .asciiOnly kind) (PyStr.strip key) (PyStr.strip value) = true →
          ∃ item, write .asciiOnly (store lengthKit) env kind key value metadata s = .ok item s) := by
  have hinit : (callSystem .asciiOnly lengthKit true).init
      (start lengthKit true (fun _ => ([], [])) .absent) := ⟨_, _, rfl, List.nodup_nil⟩
  have htea := (System.Reachable.of_init hinit).step
    (l := .write (str "note") (str "drink") (str "tea") []) ⟨[], str "a", List.not_mem_nil, rfl⟩
  have hred := htea.step (l := .write (str "note") (str "colour") (str "red") [])
    ⟨[], str "b", by decide, rfl⟩
  have hdeleted := hred.step (l := .delete (str "note") (str "drink")) ⟨[], str "c", by decide, rfl⟩
  exact ⟨_, hdeleted, rfl, index_in_step .asciiOnly lengthKit (fun text => ⟨_, rfl, rfl⟩) hdeleted⟩

end MemoryService

end VirtualPerson
