import VirtualPerson.Memory.Service

/-!
# Loading the persisted file

The records of the file as Python builds them: the dataclass looks at the names of the fields and
not at their types. One record that cannot be built loses all the others.
-/

namespace VirtualPerson

set_option autoImplicit false

open Stateful

/-- A `MemoryItem` whose fields may hold anything. -/
structure MemoryRecord where
  kind : PyVal
  key : PyVal
  value : PyVal
  createdAt : PyVal
  metadata : PyVal
  uid : PyVal
  source : PyVal

namespace MemoryRecord

def required : List PyStr := [str "kind", str "key", str "value"]

/-- All fields are known and the required ones are there. -/
def buildable (es : PyDict) : Bool :=
  (es.all fun e => MemoryItem.fields.contains e.1) && required.all fun k => (PyDict.get? es k).isSome

/-- `MemoryItem(**es)`; the time and the uid are drawn by the caller. -/
def build (fresh : PyStr × PyStr) (es : PyDict) : Except PyExc MemoryRecord :=
  if buildable es then
    .ok
      { kind := PyDict.getD es (str "kind") .pyNone
        key := PyDict.getD es (str "key") .pyNone
        value := PyDict.getD es (str "value") .pyNone
        createdAt := PyDict.getD es (str "created_at") (.str fresh.1)
        metadata := PyDict.getD es (str "metadata") (.dict [])
        uid := PyDict.getD es (str "uid") (.str fresh.2)
        source := PyDict.getD es (str "source") (.str (str "memory-file")) }
  else .error .typeError

def asdict (r : MemoryRecord) : PyDict :=
  [(str "kind", r.kind), (str "key", r.key), (str "value", r.value), (str "created_at", r.createdAt),
    (str "metadata", r.metadata), (str "uid", r.uid), (str "source", r.source)]

/-- An item whose fields have their annotated types. -/
def ofItem (i : MemoryItem) : MemoryRecord :=
  { kind := .str i.kind, key := .str i.key, value := .str i.value, createdAt := .str i.createdAt
    metadata := .dict i.metadata, uid := .str i.uid, source := .str i.source }

/-- `self._normalized(v)` -/
def normalized (cm : CaseMap) : PyVal → Except PyExc PyStr
  | .str s => .ok (MemoryService.normalized cm s)
  | v => if v.truthy then .error .attributeError else .ok (MemoryService.normalized cm [])

/-- One comparison of `_is_duplicate`; keys are normalised only where the kinds are equal, values
only where the keys are. -/
def matchesItem (cm : CaseMap) (kind key value : PyStr) (r : MemoryRecord) : Except PyExc Bool :=
  match r.kind with
  | .str k =>
    if k = kind then do
      let itemKey ← normalized cm r.key
      if itemKey = MemoryService.normalized cm key then do
        let itemValue ← normalized cm r.value
        return itemValue = MemoryService.normalized cm value
      else return false
    else return false
  | _ => return false

def anyMatches (cm : CaseMap) (kind key value : PyStr) : List MemoryRecord → Except PyExc Bool
  | [] => .ok false
  | r :: rs => do
    if ← matchesItem cm kind key value r then return true
    anyMatches cm kind key value rs

def isDuplicate (cm : CaseMap) (items : List MemoryRecord) (kind key value : PyStr) : Except PyExc Bool :=
  anyMatches cm kind key value (items.drop (items.length - 200)).reverse

end MemoryRecord

/-- The service without its semantic layer, which touches neither items nor file. -/
structure RecordStore where
  items : List MemoryRecord
  file : PersistFile

namespace RecordStore

open MemoryRecord

abbrev RecordM := EStateM PyExc RecordStore

/-- `_load_persisted`; `fresh n` are the time and uid drawn for the `n`-th record. -/
def loadPersisted (fresh : Nat → PyStr × PyStr) : PersistFile → List MemoryRecord
  | .json (.list vs) =>
    match ((vs.filterMap PersistFile.entries).zipIdx).mapM fun e => build (fresh e.2) e.1 with
    | .ok items => items
    | .error _ => []
  | _ => []

def start (fresh : Nat → PyStr × PyStr) (file : PersistFile) : RecordStore :=
  { items := loadPersisted fresh file, file }

/-- What `_flush_persisted` writes. -/
def ofRecords (items : List MemoryRecord) : PersistFile := .json (.list (items.map fun r => .dict r.asdict))

def answer {α : Type} (default : α) : Answer α → Except PyExc α
  | .missing => .ok default
  | .raises e => .error e
  | .returns a => .ok a

def flushPersisted (env : Env) : RecordM Unit :=
  match env.flushError with
  | some e => throw e
  | none => modify fun s => { s with file := ofRecords s.items }

/-- Whether `write` refuses these trimmed arguments. -/
def filtered (cm : CaseMap) (items : List MemoryRecord) (kind key value : PyStr) : Except PyExc Bool :=
  if MemoryService.isNoise kind key value then .ok true else isDuplicate cm items kind key value

def append (env : Env) (item : MemoryItem) : RecordM MemoryRecord := do
  let s ← get
  set { s with items := s.items ++ [ofItem item] }
  let createdAt ← MonadExcept.ofExcept (answer none env.postgres)
  MonadExcept.ofExcept (answer () env.neo4j)
  let item := ofItem (MemoryService.stamp item createdAt)
  set { s with items := s.items ++ [item] }
  flushPersisted env
  return item

/-- `write`, whose arguments are strings and a dict. -/
def write (cm : CaseMap) (env : Env) (kind key value : PyStr) (metadata : PyDict) : RecordM MemoryRecord := do
  let kind := MemoryService.kindArg cm kind
  let key := PyStr.strip key
  let value := PyStr.strip value
  let s ← get
  if ← MonadExcept.ofExcept (filtered cm s.items kind key value) then
    return ofItem (.new env.now env.uid kind key value (PyDict.set metadata (str "filtered") (.bool true)))
  append env (.new env.now env.uid kind key value metadata)

section Start

variable {cm : CaseMap} {env : Env} {kind key value : PyStr} {metadata : PyDict}
variable {fresh : Nat → PyStr × PyStr} {vs : List PyVal} {s t : RecordStore} {r : MemoryRecord}

theorem build_eq_ok_iff (draw : PyStr × PyStr) {es : PyDict} :
    (∃ r, build draw es = .ok r) ↔ buildable es = true := by
  unfold build
  split
  · rename_i h
    exact ⟨fun _ => h, fun _ => ⟨_, rfl⟩⟩
  · rename_i h
    refine ⟨fun hr => ?_, fun hb => absurd hb h⟩
    obtain ⟨r, hr⟩ := hr
    cases hr

theorem mapM_eq_ok {α β : Type} {f : α → Except PyExc β} {xs : List α} {ys : List β}
    (h : xs.mapM f = .ok ys) : ∀ x ∈ xs, ∃ y ∈ ys, f x = .ok y := by
  induction xs generalizing ys with
  | nil => simp
  | cons x xs ih =>
    rw [List.mapM_cons] at h
    cases hx : f x with
    | error e =>
      rw [hx] at h
      cases h
    | ok y =>
      cases hxs : xs.mapM f with
      | error e =>
        rw [hx, hxs] at h
        cases h
      | ok ys' =>
        rw [hx, hxs] at h
        cases h
        intro z hz
        rcases List.mem_cons.mp hz with rfl | hz
        · exact ⟨y, List.mem_cons_self, hx⟩
        · obtain ⟨w, hw, heq⟩ := ih hxs z hz
          exact ⟨w, List.mem_cons_of_mem y hw, heq⟩

theorem mapM_eq_error {α β : Type} {f : α → Except PyExc β} {xs : List α} {e : PyExc}
    (h : xs.mapM f = .error e) : ∃ x ∈ xs, f x = .error e := by
  induction xs with
  | nil => cases h
  | cons x xs ih =>
    rw [List.mapM_cons] at h
    cases hx : f x with
    | error e' =>
      rw [hx] at h
      cases h
      exact ⟨x, List.mem_cons_self, hx⟩
    | ok y =>
      cases hxs : xs.mapM f with
      | error e' =>
        rw [hx, hxs] at h
        cases h
        obtain ⟨z, hz, heq⟩ := ih hxs
        exact ⟨z, List.mem_cons_of_mem x hz, heq⟩
      | ok ys' =>
        rw [hx, hxs] at h
        cases h

/-- All records of the array are loaded, or one of them cannot be built and none is loaded. -/
theorem loadPersisted_cases (fresh : Nat → PyStr × PyStr) (vs : List PyVal) :
    (∀ e ∈ (vs.filterMap PersistFile.entries).zipIdx,
      ∃ r ∈ loadPersisted fresh (.json (.list vs)), build (fresh e.2) e.1 = .ok r) ∨
    ((∃ es ∈ vs.filterMap PersistFile.entries, buildable es = false) ∧
      loadPersisted fresh (.json (.list vs)) = []) := by
  unfold loadPersisted
  dsimp only
  cases hload : ((vs.filterMap PersistFile.entries).zipIdx).mapM
      fun e => build (fresh e.2) e.1 with
  | ok items => exact .inl (mapM_eq_ok hload)
  | error exc =>
    obtain ⟨e, he, herror⟩ := mapM_eq_error hload
    refine .inr ⟨⟨e.1, List.fst_mem_of_mem_zipIdx he, ?_⟩, rfl⟩
    rw [← Bool.not_eq_true, ← build_eq_ok_iff (fresh e.2), herror]
    intro hr
    obtain ⟨r, hr⟩ := hr
    cases hr

theorem append_ok {i : MemoryItem} {item : MemoryRecord} (h : append env i s = .ok item t) :
    t.items = s.items ++ [item] ∧ t.file = ofRecords t.items := by
  unfold append flushPersisted at h
  cases hpg : env.postgres with
  | raises e =>
    rw [hpg] at h
    cases h
  | _ =>
    cases hneo : env.neo4j with
    | raises e =>
      rw [hpg, hneo] at h
      cases h
    | _ =>
      cases hflush : env.flushError with
      | some e =>
        rw [hpg, hneo, hflush] at h
        cases h
      | none =>
        rw [hpg, hneo, hflush] at h
        cases h
        exact ⟨rfl, rfl⟩

/-- A write that returns has changed nothing, or has appended an item and flushed them all. -/
theorem write_ok {item : MemoryRecord} (h : write cm env kind key value metadata s = .ok item t) :
    t = s ∨ (t.items = s.items ++ [item] ∧ t.file = ofRecords t.items) := by
  unfold write at h
  cases hfilter : filtered cm s.items (MemoryService.kindArg cm kind) (PyStr.strip key)
      (PyStr.strip value) with
  | error e =>
    simp only [bind_run, get_run, hfilter] at h
    cases h
  | ok refused =>
    simp only [bind_run, get_run, hfilter] at h
    cases refused with
    | true =>
      cases h
      exact .inl rfl
    | false => exact .inr (append_ok h)

/-- Every object of the array from which a record can be built is in the store after a start, and
in the file after any write that adds an item. -/
def RecordsSurvive (cm : CaseMap) (fresh : Nat → PyStr × PyStr) (vs : List PyVal) : Prop :=
  ∀ e ∈ (vs.filterMap PersistFile.entries).zipIdx, ∀ r, build (fresh e.2) e.1 = .ok r →
    r ∈ (start fresh (.json (.list vs))).items ∧
    ∀ env kind key value metadata item t,
      write cm env kind key value metadata (start fresh (.json (.list vs))) = .ok item t →
      t ≠ start fresh (.json (.list vs)) →
      ∃ rows, t.file = .json (.list rows) ∧ .dict r.asdict ∈ rows

/-- One bad record does not destroy the others exactly where there is no bad record or no other. -/
theorem recordsSurvive_iff (cm : CaseMap) (fresh : Nat → PyStr × PyStr) (vs : List PyVal) :
    RecordsSurvive cm fresh vs ↔
      (∀ es ∈ vs.filterMap PersistFile.entries, buildable es = true) ∨
        ∀ es ∈ vs.filterMap PersistFile.entries, buildable es = false := by
  have hindex : ∀ es ∈ vs.filterMap PersistFile.entries,
      ∃ n, (es, n) ∈ (vs.filterMap PersistFile.entries).zipIdx := by
    intro es hes
    obtain ⟨n, hn, rfl⟩ := List.mem_iff_getElem.mp hes
    exact ⟨n, List.mk_mem_zipIdx_iff_getElem?.mpr (List.getElem?_eq_getElem hn)⟩
  rcases loadPersisted_cases fresh vs with hall | ⟨⟨bad, hbad, hnot⟩, hnone⟩
  · constructor
    · intro _
      refine .inl fun es hes => ?_
      obtain ⟨n, hn⟩ := hindex es hes
      obtain ⟨r, -, hr⟩ := hall _ hn
      exact (build_eq_ok_iff _).mp ⟨r, hr⟩
    · intro _ e he r hr
      obtain ⟨r', hmem, hr'⟩ := hall e he
      rw [hr] at hr'
      cases hr'
      refine ⟨hmem, fun env kind key value metadata item t hwrite hchanged => ?_⟩
      obtain ⟨hitems, hfile⟩ := (write_ok hwrite).resolve_left hchanged
      refine ⟨_, hfile, List.mem_map.mpr ⟨r, ?_, rfl⟩⟩
      rw [hitems]
      exact List.mem_append_left _ hmem
  · constructor
    · intro hsurvive
      right
      intro es hes
      by_contra hgood
      obtain ⟨n, hn⟩ := hindex es hes
      obtain ⟨r, hr⟩ := (build_eq_ok_iff (fresh n)).mpr (by simpa using hgood)
      have hmem := (hsurvive _ hn r hr).1
      rw [start, hnone] at hmem
      cases hmem
    · intro h
      rcases h with hgood | hall
      · rw [hgood bad hbad] at hnot
        cases hnot
      · intro e he r hr
        have hbuild := (build_eq_ok_iff _).mp ⟨r, hr⟩
        rw [hall e.1 (List.fst_mem_of_mem_zipIdx he)] at hbuild
        cases hbuild

end Start

section Typed

variable {V : Type} {cm : CaseMap} {vs : VectorStore V} {env : Env} {kind key value : PyStr}
variable {metadata : PyDict} {s : MemoryService V}

def ofService (s : MemoryService V) : RecordStore := { items := s.items.map ofItem, file := s.file }

structure WriteCall where
  env : Env
  kind : PyStr
  key : PyStr
  value : PyStr
  metadata : PyDict

theorem strField_eq_some {es : PyDict} {name : String} {default : Option PyStr} {x : PyStr}
    (h : MemoryItem.strField es name default = some x) :
    PyDict.get? es (str name) = some (.str x) ∨ (PyDict.get? es (str name) = none ∧ default = some x) := by
  unfold MemoryItem.strField at h
  cases hget : PyDict.get? es (str name) with
  | none =>
    rw [hget] at h
    exact .inr ⟨rfl, h⟩
  | some v =>
    rw [hget] at h
    cases v with
    | str x' =>
      cases h
      exact .inl rfl
    | _ => cases h

theorem getD_of_strField {es : PyDict} {name : String} {default : PyStr} {x : PyStr}
    (h : MemoryItem.strField es name (some default) = some x) :
    PyDict.getD es (str name) (.str default) = .str x := by
  unfold PyDict.getD
  rcases strField_eq_some h with hget | ⟨hget, hx⟩
  · rw [hget]
    rfl
  · rw [hget]
    cases hx
    rfl

theorem get?_of_strField {es : PyDict} {name : String} {x : PyStr}
    (h : MemoryItem.strField es name none = some x) : PyDict.get? es (str name) = some (.str x) := by
  rcases strField_eq_some h with hget | ⟨-, hx⟩
  · exact hget
  · cases hx

theorem guard_fields {es : PyDict} {u : Unit}
    (h : guard (es.all fun e => e.1 ∈ MemoryItem.fields) = some u) :
    (es.all fun e => MemoryItem.fields.contains e.1) = true := by
  by_contra hnot
  rw [guard, if_neg (by simpa using hnot)] at h
  cases h

/-- A typed item is built from a record with its required fields; the others are there or drawn. -/
theorem ofDict_eq_some {now uid : PyStr} {es : PyDict} {i : MemoryItem}
    (h : MemoryItem.ofDict now uid es = some i) :
    (es.all fun e => MemoryItem.fields.contains e.1) = true ∧
      MemoryItem.strField es "kind" none = some i.kind ∧ MemoryItem.strField es "key" none = some i.key ∧
      MemoryItem.strField es "value" none = some i.value ∧
      MemoryItem.strField es "created_at" (some now) = some i.createdAt ∧
      PyDict.getD es (str "metadata") (.dict []) = .dict i.metadata ∧
      MemoryItem.strField es "uid" (some uid) = some i.uid ∧
      MemoryItem.strField es "source" (some (str "memory-file")) = some i.source := by
  unfold MemoryItem.ofDict at h
  unfold PyDict.getD
  cases hget : PyDict.get? es (str "metadata") with
  | none =>
    rw [hget] at h
    simp only [Option.bind_eq_bind, Option.bind_eq_some_iff, Option.pure_def, Option.some.injEq] at h
    obtain ⟨u, hfields, k, hk, ky, hkey, v, hv, c, hc, m, rfl, u, hu, src, hs, rfl⟩ := h
    exact ⟨guard_fields hfields, hk, hkey, hv, hc, rfl, hu, hs⟩
  | some w =>
    rw [hget] at h
    simp only [Option.bind_eq_bind, Option.bind_eq_some_iff, Option.pure_def] at h
    obtain ⟨u, hfields, k, hk, ky, hkey, v, hv, c, hc, h⟩ := h
    cases w with
    | dict m =>
      simp only [Option.bind_eq_some_iff, Option.some.injEq] at h
      obtain ⟨m, rfl, u, hu, src, hs, rfl⟩ := h
      exact ⟨guard_fields hfields, hk, hkey, hv, hc, rfl, hu, hs⟩
    | _ => simp at h

theorem build_of_ofDict {now uid : PyStr} {es : PyDict} {i : MemoryItem}
    (h : MemoryItem.ofDict now uid es = some i) : build (now, uid) es = .ok (ofItem i) := by
  obtain ⟨hfields, hkind, hkey, hvalue, htime, hmeta, huid, hsource⟩ := ofDict_eq_some h
  have hkind' := get?_of_strField hkind
  have hkey' := get?_of_strField hkey
  have hvalue' := get?_of_strField hvalue
  have hbuildable : buildable es = true := by
    rw [buildable, hfields, Bool.true_and]
    simp [required, hkind', hkey', hvalue']
  rw [build, if_pos hbuildable, hmeta, getD_of_strField htime, getD_of_strField huid,
    getD_of_strField hsource]
  simp only [PyDict.getD, hkind', hkey', hvalue']
  rfl

theorem mapM_of_mapM {α β γ : Type} {f : α → Option β} {g : α → Except PyExc γ} {h : β → γ}
    (hfg : ∀ x y, f x = some y → g x = .ok (h y)) {xs : List α} {ys : List β}
    (hys : xs.mapM f = some ys) : xs.mapM g = .ok (ys.map h) := by
  induction xs generalizing ys with
  | nil =>
    cases hys
    rfl
  | cons x xs ih =>
    simp only [List.mapM_cons, Option.bind_eq_bind, Option.bind_eq_some_iff, Option.pure_def,
      Option.some.injEq] at hys
    obtain ⟨y, hy, ys', hys', rfl⟩ := hys
    rw [List.mapM_cons, hfg x y hy, ih hys']
    rfl

/-- A file of typed records loads as the typed service loads it. -/
theorem loadPersisted_typed {fresh : Nat → PyStr × PyStr} {vs : List PyVal} {items : List MemoryItem}
    (h : ((vs.filterMap PersistFile.entries).zipIdx).mapM (fun e =>
      MemoryItem.ofDict (fresh e.2).1 (fresh e.2).2 e.1) = some items) :
    (PersistFile.json (.list vs)).load fresh = items ∧
      loadPersisted fresh (.json (.list vs)) = items.map ofItem := by
  constructor
  · exact congrArg (·.getD []) h
  · unfold loadPersisted
    dsimp only
    rw [mapM_of_mapM (fun e i hi => build_of_ofDict hi) h]

theorem matchesItem_ofItem (i : MemoryItem) :
    matchesItem cm kind key value (ofItem i) =
      .ok (i.kind = kind && MemoryService.normalized cm i.key = MemoryService.normalized cm key &&
        MemoryService.normalized cm i.value = MemoryService.normalized cm value) := by
  simp only [matchesItem, ofItem, MemoryRecord.normalized, bind, Except.bind, pure, Except.pure]
  by_cases hkind : i.kind = kind
  · by_cases hkey : MemoryService.normalized cm i.key = MemoryService.normalized cm key
    · simp [hkind, hkey]
    · simp [hkind, hkey]
  · simp [hkind]

theorem ofRecords_ofItem (items : List MemoryItem) :
    ofRecords (items.map ofItem) = PersistFile.ofItems items := by
  unfold ofRecords PersistFile.ofItems
  rw [List.map_map]
  rfl

theorem anyMatches_ofItem (items : List MemoryItem) :
    anyMatches cm kind key value (items.map ofItem) =
      .ok (items.any fun i => i.kind = kind &&
        MemoryService.normalized cm i.key = MemoryService.normalized cm key &&
        MemoryService.normalized cm i.value = MemoryService.normalized cm value) := by
  induction items with
  | nil => rfl
  | cons i items ih =>
    rw [List.map_cons, anyMatches, matchesItem_ofItem, List.any_cons]
    cases (i.kind = kind && MemoryService.normalized cm i.key = MemoryService.normalized cm key &&
        MemoryService.normalized cm i.value = MemoryService.normalized cm value : Bool) with
    | true => rfl
    | false =>
      rw [Bool.false_or, ← ih]
      rfl

theorem filtered_ofItem (items : List MemoryItem) :
    filtered cm (items.map ofItem) kind key value = .ok (MemoryService.filtered cm items kind key value) := by
  unfold filtered MemoryService.filtered
  cases MemoryService.isNoise kind key value with
  | true => rfl
  | false =>
    rw [if_neg (by simp), Bool.false_or, MemoryRecord.isDuplicate, List.length_map, ← List.map_drop,
      ← List.map_reverse, anyMatches_ofItem]
    rfl

theorem append_ofService (i : MemoryItem) :
    append env i (ofService s) = match MemoryService.append vs env i s with
      | .ok item t => .ok (ofItem item) (ofService t)
      | .error e t => .error e (ofService t) := by
  have hitems (j : MemoryItem) : (s.items ++ [j]).map ofItem = s.items.map ofItem ++ [ofItem j] := by simp
  unfold append flushPersisted MemoryService.append MemoryService.flushPersisted
  cases env.postgres with
  | raises e =>
    change EStateM.Result.error e (RecordStore.mk (s.items.map ofItem ++ [ofItem i]) s.file) =
      .error e _
    rw [← hitems]
    rfl
  | _ =>
    cases env.neo4j with
    | raises e =>
      change EStateM.Result.error e (RecordStore.mk (s.items.map ofItem ++ [ofItem i]) s.file) =
        .error e _
      rw [← hitems]
      rfl
    | _ =>
      cases env.flushError with
      | some e =>
        change EStateM.Result.error e (RecordStore.mk (s.items.map ofItem ++ [ofItem _]) s.file) =
          .error e (RecordStore.mk ((s.items ++ [_]).map ofItem) s.file)
        rw [hitems]
      | none =>
        change EStateM.Result.ok (ofItem _) (RecordStore.mk (s.items.map ofItem ++ [ofItem _])
            (ofRecords (s.items.map ofItem ++ [ofItem _]))) =
          .ok (ofItem _)
            (RecordStore.mk ((s.items ++ [_]).map ofItem) (PersistFile.ofItems (s.items ++ [_])))
        rw [← hitems, ofRecords_ofItem]

/-- On typed items a write does what the typed service does. -/
theorem write_ofService :
    write cm env kind key value metadata (ofService s) =
      match MemoryService.write cm vs env kind key value metadata s with
      | .ok item t => .ok (ofItem item) (ofService t)
      | .error e t => .error e (ofService t) := by
  have hfilter : filtered cm (ofService s).items (MemoryService.kindArg cm kind) (PyStr.strip key)
      (PyStr.strip value) = _ := filtered_ofItem s.items
  rw [MemoryService.write_eq]
  simp only [write, bind_run, get_run, hfilter]
  cases MemoryService.filtered cm s.items (MemoryService.kindArg cm kind) (PyStr.strip key)
      (PyStr.strip value) with
  | true => rfl
  | false => exact append_ofService _

/-- After the load of a file of typed records and any writes the items and the file are those of the typed
service. -/
theorem writes_typed {fresh : Nat → PyStr × PyStr} (idx : Option V) {records : List PyVal}
    {items : List MemoryItem}
    (h : ((records.filterMap PersistFile.entries).zipIdx).mapM (fun e =>
      MemoryItem.ofDict (fresh e.2).1 (fresh e.2).2 e.1) = some items) (calls : List WriteCall) :
    calls.foldl (fun s c => final (write cm c.env c.kind c.key c.value c.metadata s))
        (start fresh (.json (.list records))) =
      ofService (calls.foldl
        (fun s c => final (MemoryService.write cm vs c.env c.kind c.key c.value c.metadata s))
        { items := (PersistFile.json (.list records)).load fresh, index := idx
          file := .json (.list records) }) := by
  obtain ⟨hload, hrecords⟩ := loadPersisted_typed h
  have hstart : start fresh (.json (.list records)) =
      ofService { items, index := idx, file := .json (.list records) } := by
    rw [start, hrecords]
    rfl
  rw [hload, hstart]
  have hfold : ∀ (calls : List WriteCall) (s : MemoryService V),
      calls.foldl (fun s c => final (write cm c.env c.kind c.key c.value c.metadata s)) (ofService s) =
        ofService (calls.foldl
          (fun s c => final (MemoryService.write cm vs c.env c.kind c.key c.value c.metadata s)) s) := by
    intro calls
    induction calls with
    | nil => exact fun _ => rfl
    | cons c calls ih =>
      intro s
      have hone : final (write cm c.env c.kind c.key c.value c.metadata (ofService s)) =
          ofService (final (MemoryService.write cm vs c.env c.kind c.key c.value c.metadata s)) := by
        rw [write_ofService]
        cases MemoryService.write cm vs c.env c.kind c.key c.value c.metadata s <;> rfl
      rw [List.foldl_cons, List.foldl_cons, hone]
      exact ih _
  exact hfold calls _

end Typed

/-- A good record, and one without key and value. -/
def mixedFile : List PyVal :=
  [.dict (MemoryItem.new (str "t") (str "u1") (str "note") (str "city") (str "Lisbon") []).asdict,
    .dict [(str "kind", .str (str "note"))]]

theorem not_recordsSurvive : ¬ ∀ (cm : CaseMap) (fresh : Nat → PyStr × PyStr) (vs : List PyVal),
    RecordsSurvive cm fresh vs := by
  intro hall
  have hmem := (hall .asciiOnly (fun _ => ([], [])) mixedFile _ List.mem_cons_self _ rfl).1
  cases hmem

end RecordStore

end VirtualPerson
