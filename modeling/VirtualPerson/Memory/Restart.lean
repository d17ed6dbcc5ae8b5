import VirtualPerson.Memory.Recall
import VirtualPerson.Memory.Semantic

/-!
# Restarts

A service started on the file that another one has left holds the same items and finds the
same, unless the file is still the initial one and its records lack their time or uid.
-/

namespace VirtualPerson

set_option autoImplicit false

open Stateful NumpyVectorIndex

namespace PersistFile

/-- Every record has its time and its uid, so that loading draws none. -/
def Complete : PersistFile → Prop
  | .json (.list vs) => ∀ es ∈ vs.filterMap entries,
    (PyDict.get? es (str "created_at")).isSome = true ∧ (PyDict.get? es (str "uid")).isSome = true
  | _ => True

theorem strField_congr {es : PyDict} {name : String} (h : (PyDict.get? es (str name)).isSome = true)
    (d d' : Option PyStr) : MemoryItem.strField es name d = MemoryItem.strField es name d' := by
  obtain ⟨v, hv⟩ := Option.isSome_iff_exists.mp h
  unfold MemoryItem.strField
  rw [hv]
  cases v <;> rfl

theorem ofDict_congr {es : PyDict} (htime : (PyDict.get? es (str "created_at")).isSome = true)
    (huid : (PyDict.get? es (str "uid")).isSome = true) (now now' uid uid' : PyStr) :
    MemoryItem.ofDict now uid es = MemoryItem.ofDict now' uid' es := by
  unfold MemoryItem.ofDict
  rw [strField_congr htime (some now) (some now'), strField_congr huid (some uid) (some uid')]

theorem mapM_congr {α β : Type} {f g : α → Option β} {xs : List α} (h : ∀ x ∈ xs, f x = g x) :
    xs.mapM f = xs.mapM g := by
  induction xs with
  | nil => rfl
  | cons x xs ih =>
    rw [List.mapM_cons, List.mapM_cons, h x List.mem_cons_self,
      ih fun y hy => h y (List.mem_cons_of_mem x hy)]

theorem Complete.load {file : PersistFile} (h : file.Complete) (fresh fresh' : Nat → PyStr × PyStr) :
    file.load fresh = file.load fresh' := by
  cases file with
  | json v =>
    cases v with
    | list vs =>
      have hrecords : (vs.filterMap entries).zipIdx.mapM (fun e =>
          MemoryItem.ofDict (fresh e.2).1 (fresh e.2).2 e.1) =
          (vs.filterMap entries).zipIdx.mapM fun e =>
            MemoryItem.ofDict (fresh' e.2).1 (fresh' e.2).2 e.1 := by
        apply mapM_congr
        intro e he
        obtain ⟨htime, huid⟩ := h e.1 (List.fst_mem_of_mem_zipIdx he)
        exact ofDict_congr htime huid _ _ _ _
      exact congrArg (·.getD []) hrecords
    | _ => rfl
  | _ => rfl

end PersistFile

namespace MemoryService

variable {F : Type} {cm : CaseMap} {k : SemanticKit F} {enabled : Bool} {c : MemoryCall}
variable {calls : List MemoryCall} {s t : MemoryService (NumpyVectorIndex F)} {items : List MemoryItem}

/-- `config.semantic_top_k or 5` -/
def topK (k : SemanticKit F) : Int := if k.semanticTopK = 0 then 5 else k.semanticTopK

/-- What the index answers to `_semantic_search`; `none` where the embedder or the index raises. -/
def hits (k : SemanticKit F) (query : PyStr) (x : NumpyVectorIndex F) : Option (List (PyStr × PyFloat)) :=
  (k.embed (PyStr.strip query)).bind fun vector =>
    (x.query k vector (topK k)).toOption.map fun found => found.map fun h => (h.1, h.2.1)

/-- A search without databases. -/
def fileEnv (hits : Option (List (PyStr × PyFloat))) (score : MemoryItem → ℚ) : SearchEnv :=
  { SearchEnv.fileOnly with hits, retrievalScore := score }

/-- `search` without databases; `score` is `retrieval_score` for the query at the time of the call. -/
def searchFile (cm : CaseMap) (k : SemanticKit F) (score : MemoryItem → ℚ) (query : PyStr) :
    ServiceM (NumpyVectorIndex F) (List MemoryItem) := do
  let s ← get
  search cm (fileEnv (s.index.bind (hits k query)) score) query

/-- A new service on the file that `s` has left. -/
def restart (k : SemanticKit F) (enabled : Bool) (fresh : Nat → PyStr × PyStr)
    (s : MemoryService (NumpyVectorIndex F)) : MemoryService (NumpyVectorIndex F) :=
  start k enabled fresh s.file

theorem file_step (h : (callSystem cm k enabled).step s c t) :
    (¬ Flushes cm s c ∧ t = s) ∨ t.file = .ofItems t.items := by
  rcases step_cases h with hsame | ⟨-, ⟨i, -, rfl⟩ | ⟨kind, key, rfl⟩ | rfl⟩
  · exact .inl hsame
  · exact .inr rfl
  · exact .inr rfl
  · exact .inr rfl

theorem flushed_run (hrun : (callSystem cm k enabled).Run s calls t) (hs : s.file = .ofItems s.items) :
    t.file = .ofItems t.items := by
  apply hrun.invariant (I := fun s => s.file = .ofItems s.items) _ hs
  intro s l t hs hst
  rcases file_step hst with ⟨-, rfl⟩ | ht
  · exact hs
  · exact ht

theorem kept_or_flushed {file : PersistFile} {loaded : List MemoryItem}
    (hrun : (callSystem cm k enabled).Run s calls t) (hfile : s.file = file) (hitems : s.items = loaded) :
    (t.file = file ∧ t.items = loaded) ∨ t.file = .ofItems t.items := by
  apply hrun.invariant
    (I := fun s => (s.file = file ∧ s.items = loaded) ∨ s.file = .ofItems s.items) _ (.inl ⟨hfile, hitems⟩)
  intro s l t hs hst
  rcases file_step hst with ⟨-, rfl⟩ | ht
  · exact hs
  · exact .inr ht

/-- Some call of the run has rewritten the file. -/
def Flushed (cm : CaseMap) (k : SemanticKit F) (enabled : Bool)
    (s : MemoryService (NumpyVectorIndex F)) (calls : List MemoryCall)
    (t : MemoryService (NumpyVectorIndex F)) : Prop :=
  ∃ before c after u, calls = before ++ c :: after ∧ (callSystem cm k enabled).Run s before u ∧
    Flushes cm u c ∧ (callSystem cm k enabled).Run u (c :: after) t

theorem Flushed.file (h : Flushed cm k enabled s calls t) : t.file = .ofItems t.items := by
  obtain ⟨before, c, after, u, -, -, hflush, hrest⟩ := h
  cases hrest with
  | cons hst hafter =>
    rcases file_step hst with ⟨hno, -⟩ | hfile
    · exact absurd hflush hno
    · exact flushed_run hafter hfile

theorem load_after {fresh : Nat → PyStr × PyStr} {file : PersistFile}
    (hrun : (callSystem cm k enabled).Run (start k enabled fresh file) calls s)
    (h : file.Complete ∨ Flushed cm k enabled (start k enabled fresh file) calls s)
    (fresh' : Nat → PyStr × PyStr) : s.file.load fresh' = s.items := by
  rcases h with hcomplete | hflushed
  · rcases kept_or_flushed hrun rfl rfl with ⟨hfile, hitems⟩ | hfile
    · rw [hfile, hitems]
      exact hcomplete.load fresh' fresh
    · rw [hfile, PersistFile.load_ofItems]
  · rw [hflushed.file, PersistFile.load_ofItems]

theorem InStep.hits_eq {x y : NumpyVectorIndex F} (hx : InStep k x items) (hy : InStep k y items)
    (query : PyStr) : hits k query x = hits k query y := by
  have hids : x.ids = y.ids := hx.rows.ids.trans hy.rows.ids.symm
  have hvectors : x.vectors = y.vectors := hx.rows.vectors.trans hy.rows.vectors.symm
  have hmetadata : x.metadata = y.metadata := hx.rows.metadata.trans hy.rows.metadata.symm
  have hdim : x.dim = y.dim := hx.dim.trans hy.dim.symm
  unfold hits NumpyVectorIndex.query
  rw [hids, hvectors, hmetadata, hdim]

theorem Sound.index_eq {u : MemoryService (NumpyVectorIndex F)} (hs : Sound k enabled s)
    (hu : Sound k enabled u) (hitems : u.items = s.items) (query : PyStr) :
    u.index.isSome = s.index.isSome ∧ u.index.bind (hits k query) = s.index.bind (hits k query) := by
  have hactive : u.index.isSome = s.index.isSome := hu.active.trans hs.active.symm
  refine ⟨hactive, ?_⟩
  cases hsx : s.index with
  | none =>
    rw [hsx] at hactive
    rw [Option.isNone_iff_eq_none.mp (Option.isSome_eq_false_iff.mp hactive)]
  | some x =>
    rw [hsx] at hactive
    obtain ⟨y, hy⟩ := Option.isSome_iff_exists.mp hactive
    have hin := hu.index y hy
    rw [hitems] at hin
    rw [hy, Option.bind_some, Option.bind_some]
    exact hin.hits_eq (hs.index x hsx) query

theorem search_fileEnv (answer : Option (List (PyStr × PyFloat))) (score : MemoryItem → ℚ)
    (query : PyStr) (s : MemoryService (NumpyVectorIndex F)) :
    search cm (fileEnv answer score) query s =
      .ok (if s.index.isSome then
          (semanticSearch (fileEnv answer score) s.items query
            (merged (fun _ => ([], [])) (s.items.filter (selects cm query)) [])).getD
            (merged (fun _ => ([], [])) (s.items.filter (selects cm query)) [])
        else merged (fun _ => ([], [])) (s.items.filter (selects cm query)) []) s := by
  simp only [search, bind_run, get_run, fileEnv, SearchEnv.fileOnly, call, pure_run, List.append_nil]
  cases s.index.isSome with
  | false => rfl
  | true =>
    rw [if_pos rfl, if_pos rfl]
    cases semanticSearch _ s.items query _ <;> rfl

/-- What a search without databases finds depends on the items and the index's answer. -/
theorem searchFile_eq (score : MemoryItem → ℚ) (query : PyStr) {u : MemoryService (NumpyVectorIndex F)}
    (hitems : u.items = s.items) (hactive : u.index.isSome = s.index.isSome)
    (hhits : u.index.bind (hits k query) = s.index.bind (hits k query)) :
    ∃ found, searchFile cm k score query s = .ok found s ∧ searchFile cm k score query u = .ok found u := by
  have hrun (s : MemoryService (NumpyVectorIndex F)) : searchFile cm k score query s =
      search cm (fileEnv (s.index.bind (hits k query)) score) query s := rfl
  rw [hrun, hrun, hhits, search_fileEnv, search_fileEnv, hitems, hactive]
  exact ⟨_, rfl, rfl⟩

/-- A service restarted on the file of another one holds the same items and every search finds the
same on it, if the initial file was complete or a call has rewritten it. -/
theorem restart_invisible (cm : CaseMap) (k : SemanticKit F) (enabled : Bool)
    {fresh : Nat → PyStr × PyStr} {file : PersistFile} (hdistinct : Distinct (file.load fresh))
    (hrun : (callSystem cm k enabled).Run (start k enabled fresh file) calls s)
    (h : file.Complete ∨ Flushed cm k enabled (start k enabled fresh file) calls s)
    (fresh' : Nat → PyStr × PyStr) :
    (restart k enabled fresh' s).items = s.items ∧
      ∀ (score : MemoryItem → ℚ) (query : PyStr), ∃ found,
        searchFile cm k score query s = .ok found s ∧
        searchFile cm k score query (restart k enabled fresh' s) =
          .ok found (restart k enabled fresh' s) := by
  have hitems : (restart k enabled fresh' s).items = s.items := load_after hrun h fresh'
  refine ⟨hitems, ?_⟩
  have hsound := (sound_start k enabled hdistinct).of_run hrun
  have hrestart : Sound k enabled (restart k enabled fresh' s) := by
    apply sound_start
    rw [load_after hrun h fresh']
    exact hsound.distinct
  intro score query
  obtain ⟨hactive, hhits⟩ := hsound.index_eq hrestart hitems query
  exact searchFile_eq score query hitems hactive hhits

/-- A restart after two notes, of which the first is deleted. -/
theorem restart_invisible_tea :
    ∃ s, s.items.map MemoryItem.value = [str "red"] ∧
      ((restart lengthKit true (fun _ => (str "later", str "b")) s).items = s.items ∧
      ∀ (score : MemoryItem → ℚ) (query : PyStr), ∃ found,
        searchFile .asciiOnly lengthKit score query s = .ok found s ∧
        searchFile .asciiOnly lengthKit score query
          (restart lengthKit true (fun _ => (str "later", str "b")) s) =
          .ok found (restart lengthKit true (fun _ => (str "later", str "b")) s)) := by
  have hrun : (callSystem .asciiOnly lengthKit true).Run (start lengthKit true (fun _ => ([], [])) .absent)
      [.write (str "note") (str "drink") (str "tea") [], .write (str "note") (str "colour") (str "red") [],
        .delete (str "note") (str "drink")] _ :=
    .cons ⟨[], str "a", List.not_mem_nil, rfl⟩
      (.cons ⟨[], str "b", by decide, rfl⟩ (.single ⟨[], str "c", by decide, rfl⟩))
  have hdistinct : Distinct (PersistFile.absent.load fun _ => ([], [])) := List.nodup_nil
  exact ⟨_, rfl, restart_invisible .asciiOnly lengthKit true hdistinct hrun (.inl trivial) _⟩

/-- A record without its time. -/
def untimed : PersistFile :=
  .json (.list [.dict [(str "kind", .str (str "note")), (str "key", .str (str "drink")),
    (str "value", .str (str "tea")), (str "uid", .str (str "a"))]])

/-- Each load gives the record the time of that load. -/
theorem not_restart_invisible :
    ¬ ∀ (fresh fresh' : Nat → PyStr × PyStr) (file : PersistFile) (calls : List MemoryCall)
      (s : MemoryService (NumpyVectorIndex Nat)), Distinct (file.load fresh) →
      (callSystem .asciiOnly lengthKit false).Run (start lengthKit false fresh file) calls s →
      (restart lengthKit false fresh' s).items = s.items := by
  intro h
  have hitems := h (fun _ => (str "monday", [])) (fun _ => (str "tuesday", [])) untimed [] _
    (List.nodup_cons.mpr ⟨List.not_mem_nil, List.nodup_nil⟩) (.nil _)
  have htimes := congrArg (List.map MemoryItem.createdAt) hitems
  exact absurd htimes (by decide)

end MemoryService

end VirtualPerson
