import VirtualPerson.Chat.NewNames
import VirtualPerson.Memory.Recall
import VirtualPerson.Python.Argsort

/-!
# The last stated name

What `recall_user_name` returns after any sequence of `maybe_capture_user_name` calls: which of the
statements still stands for its name, and which of those decides what a user is called.
-/

namespace VirtualPerson

set_option autoImplicit false

open Stateful

namespace Chat

variable {V : Type} {rt : ChatRuntime} {vs : VectorStore V} {s : ChatState V} {u : PyStr}

/-- What every stored name is like. -/
structure NameEntry (cm : CaseMap) (i : MemoryItem) : Prop where
  kind : i.kind = str "profile"
  key : i.key = str "name"
  stripped : PyStr.strip i.value = i.value
  valid : NameRecall.valid cm i.value = true

theorem nameEntry_stored {c : Statement} (h : ∃ n, c.States rt n) : NameEntry rt.cm (c.stored rt) := by
  obtain ⟨n, hstates⟩ := h
  have hstrip := NameCapture.strip_nameToStore hstates.captured
  have hvalid := hstates.valid
  rw [← hstates.stated_eq] at hstrip hvalid
  exact ⟨rfl, rfl, hstrip, hvalid⟩

theorem nameEntries {cs : List Statement} (hcs : ∀ c ∈ cs, ∃ n, c.States rt n) :
    ∀ i ∈ remembered rt cs, NameEntry rt.cm i := by
  intro i hi
  obtain ⟨c, hc, rfl⟩ := List.mem_map.mp hi
  exact nameEntry_stored (hcs c (kept_subset hc))

section Recall

variable {cm : CaseMap} {items shown : List MemoryItem} {i j : MemoryItem}

theorem NameEntry.triple (h : NameEntry cm i) : i.triple = (str "profile", str "name", i.value) := by
  rw [MemoryItem.triple, h.kind, h.key]

theorem NameEntry.triple_eq_iff (hi : NameEntry cm i) (hj : NameEntry cm j) :
    i.triple = j.triple ↔ i.value = j.value := by
  rw [hi.triple, hj.triple]
  simp

theorem NameEntry.selected (h : NameEntry cm i) : MemoryService.selects cm (str "name") i = true := by
  have hlower : cm.lower (str "name") = str "name" := by
    rw [cm.ascii _ (by decide)]
    decide
  have hself : PyStr.contains (str "name") (str "name") = true := by decide
  have hstrip : PyStr.strip (str "name") = str "name" := by decide
  simp only [MemoryService.selects, h.key, hlower, hstrip, hself, Bool.or_true, Bool.true_or]

/-- The times of the entries grow along the list. -/
def Increasing (items : List MemoryItem) : Prop :=
  items.Pairwise fun a b => PyStr.le b.createdAt a.createdAt = false

theorem Increasing.eq_of_le (h : Increasing items) (hi : i ∈ items) (hj : j ∈ items)
    (hij : PyStr.le i.createdAt j.createdAt = true) (hji : PyStr.le j.createdAt i.createdAt = true) :
    i = j := by
  obtain ⟨m, hm, rfl⟩ := List.getElem_of_mem hi
  obtain ⟨n, hn, rfl⟩ := List.getElem_of_mem hj
  rcases Nat.lt_trichotomy m n with hlt | heq | hlt
  · rw [List.pairwise_iff_getElem.mp h m n hm hn hlt] at hji
    cases hji
  · subst heq
    rfl
  · rw [List.pairwise_iff_getElem.mp h n m hn hm hlt] at hij
    cases hij

/-- The latest of these entries has this name. -/
def LatestIs (shows : MemoryItem → Prop) (name : PyStr) : Prop :=
  ∃ i, shows i ∧ i.value = name ∧ ∀ j, shows j → PyStr.le j.createdAt i.createdAt = true

theorem last_sorted_iff (hincreasing : Increasing items) (hsub : ∀ i ∈ shown, i ∈ items) {name : PyStr} :
    ((shown.mergeSort fun a b => PyStr.le a.createdAt b.createdAt).getLast?.map fun h => h.value) =
        some name ↔ LatestIs (· ∈ shown) name := by
  have htrans (a b c : MemoryItem) (hab : PyStr.le a.createdAt b.createdAt = true)
      (hbc : PyStr.le b.createdAt c.createdAt = true) : PyStr.le a.createdAt c.createdAt = true :=
    PyStr.le_trans hab hbc
  have htotal (a b : MemoryItem) :
      (PyStr.le a.createdAt b.createdAt || PyStr.le b.createdAt a.createdAt) = true :=
    PyStr.le_total _ _
  constructor
  · intro h
    obtain ⟨i, hi, rfl⟩ := Option.map_eq_some_iff.mp h
    obtain ⟨hmem, hlatest⟩ := getLast?_mergeSort htrans htotal hi
    exact ⟨i, hmem, rfl, hlatest⟩
  · intro h
    obtain ⟨i, hi, rfl, hlatest⟩ := h
    cases hlast : (shown.mergeSort fun a b => PyStr.le a.createdAt b.createdAt).getLast? with
    | none =>
      rw [List.getLast?_eq_none_iff] at hlast
      have hmem : i ∈ shown.mergeSort fun a b => PyStr.le a.createdAt b.createdAt :=
        List.mem_mergeSort.mpr hi
      rw [hlast] at hmem
      cases hmem
    | some k =>
      obtain ⟨hk, hlatest'⟩ := getLast?_mergeSort htrans htotal hlast
      have heq : i = k := hincreasing.eq_of_le (hsub i hi) (hsub k hk) (hlatest' i hi) (hlatest k hk)
      rw [heq]
      rfl

/-- The latest shown entry of the user has this name, or the latest of all where none is theirs. -/
def LatestFor (shows : MemoryItem → Prop) (userId name : PyStr) : Prop :=
  LatestIs (fun i => shows i ∧ NameRecall.ofUser userId i = true) name ∨
    (∀ i, shows i → NameRecall.ofUser userId i = false) ∧ LatestIs shows name

/-- The name of the last entry of a pool. -/
theorem strip_last_sorted (hshown : ∀ i ∈ shown, NameEntry cm i) :
    ((shown.mergeSort fun a b => PyStr.le a.createdAt b.createdAt).getLast?.map fun h =>
        PyStr.strip h.value) =
      (shown.mergeSort fun a b => PyStr.le a.createdAt b.createdAt).getLast?.map fun h => h.value := by
  apply Option.map_congr
  intro i hi
  exact (hshown i (List.mem_mergeSort.mp (List.mem_of_getLast? hi))).stripped

theorem fromHits_iff (hshown : ∀ i ∈ shown, NameEntry cm i) (hincreasing : Increasing items)
    (hsub : ∀ i ∈ shown, i ∈ items) {userId name : PyStr} :
    NameRecall.fromHits cm userId shown = some name ↔ LatestFor (· ∈ shown) userId name := by
  have hlower : cm.lower (str "name") = str "name" := by
    rw [cm.ascii _ (by decide)]
    decide
  have hcandidates : (shown.filter fun h => cm.lower h.key = str "name") = shown := by
    rw [List.filter_eq_self]
    intro i hi
    rw [(hshown i hi).key, hlower]
    exact decide_eq_true rfl
  have huser : (shown.filter fun h => NameRecall.ofUser userId h && NameRecall.valid cm h.value) =
      shown.filter (NameRecall.ofUser userId) := by
    apply List.filter_congr
    intro i hi
    rw [(hshown i hi).valid, Bool.and_true]
  have hvalid : (shown.filter fun h => NameRecall.valid cm h.value) = shown := by
    rw [List.filter_eq_self]
    exact fun i hi => (hshown i hi).valid
  unfold NameRecall.fromHits
  dsimp only
  rw [hcandidates, huser, hvalid]
  split
  · rename_i hempty
    have hnone : ∀ i, i ∈ shown → NameRecall.ofUser userId i = false := by
      intro i hi
      rw [Bool.eq_false_iff]
      intro hown
      have hmem := List.mem_filter.mpr ⟨hi, hown⟩
      rw [List.isEmpty_iff.mp hempty] at hmem
      cases hmem
    rw [strip_last_sorted hshown, last_sorted_iff hincreasing hsub]
    constructor
    · intro h
      exact Or.inr ⟨hnone, h⟩
    · intro h
      rcases h with ⟨i, ⟨hi, hown⟩, -⟩ | ⟨-, h⟩
      · rw [hnone i hi] at hown
        cases hown
      · exact h
  · rename_i hsome
    obtain ⟨k, hk⟩ := List.exists_mem_of_ne_nil _ (mt List.isEmpty_iff.mpr hsome)
    obtain ⟨hk, hown⟩ := List.mem_filter.mp hk
    have hpool : ∀ i ∈ shown.filter (NameRecall.ofUser userId), i ∈ shown :=
      fun i hi => (List.mem_filter.mp hi).1
    rw [strip_last_sorted fun i hi => hshown i (hpool i hi),
      last_sorted_iff hincreasing fun i hi => hsub i (hpool i hi)]
    simp only [List.mem_filter]
    constructor
    · exact Or.inl
    · intro h
      rcases h with h | ⟨hnone, -⟩
      · exact h
      · rw [hnone k hk] at hown
        cases hown

/-- The one entry of its name that a search for names shows: the latest, unless the vector store's
answer puts another first. -/
inductive Shown (senv : SearchEnv) (m : MemoryService V) (i : MemoryItem) : Prop where
  | latest (hoff : m.index = none ∨ senv.hits = none) (hi : i ∈ m.items)
      (h : ∀ j ∈ m.items, j.value = i.value → PyStr.le j.createdAt i.createdAt = true)
  | nearest {hits : List (PyStr × PyFloat)} {sim : PyFloat} (hon : m.index.isSome = true)
      (hhits : senv.hits = some hits)
      (h : (i.triple, (i, sim)) ∈
        MemoryService.ranked hits m.items (Assoc.values (Assoc.index MemoryItem.triple m.items)))

/-- The databases answer, with rows of what was stored. -/
structure Echoes (senv : SearchEnv) (items : List MemoryItem) : Prop where
  quiet : senv.Quiet
  stored : ∀ row ∈ senv.postgres.value [] ++ senv.neo4j.value [],
    ∃ i ∈ items, i.triple = (row.kind, row.key, row.value)

theorem mem_lasts_iff (hitems : ∀ i ∈ items, NameEntry cm i) (hincreasing : Increasing items) :
    i ∈ Assoc.values (Assoc.index MemoryItem.triple items) ↔
      i ∈ items ∧ ∀ j ∈ items, j.value = i.value → PyStr.le j.createdAt i.createdAt = true := by
  rw [Assoc.mem_values_index]
  constructor
  · intro h
    obtain ⟨before, after, rfl, hlater⟩ := h
    have hi : i ∈ before ++ i :: after := by simp
    refine ⟨hi, fun j hj hvalue => ?_⟩
    have htriple := ((hitems j hj).triple_eq_iff (hitems i hi)).mpr hvalue
    rcases List.mem_append.mp hj with hbefore | hafter
    · have hfalse := (List.pairwise_append.mp hincreasing).2.2 j hbefore i List.mem_cons_self
      have htotal := PyStr.le_total j.createdAt i.createdAt
      rwa [hfalse, Bool.or_false] at htotal
    · rcases List.mem_cons.mp hafter with rfl | hafter
      · exact PyStr.le_refl _
      · exact absurd htriple (hlater j hafter)
  · intro h
    obtain ⟨hi, hlatest⟩ := h
    obtain ⟨before, after, rfl⟩ := List.append_of_mem hi
    refine ⟨before, after, rfl, fun j hj htriple => ?_⟩
    have hmem : j ∈ before ++ i :: after := by simp [hj]
    have hle := hlatest j hmem (((hitems j hmem).triple_eq_iff (hitems i hi)).mp htriple)
    have hpair := (List.pairwise_cons.mp (List.pairwise_append.mp hincreasing).2.1).1 j hj
    rw [hpair] at hle
    cases hle

theorem merged_of_stored {fresh : Nat → PyStr × PyStr} {rows : List MemoryRow}
    (h : ∀ row ∈ rows, ∃ i ∈ items, i.triple = (row.kind, row.key, row.value)) :
    MemoryService.merged fresh items rows = Assoc.values (Assoc.index MemoryItem.triple items) := by
  have hknown (row : MemoryRow) (hrow : row ∈ rows) :
      (Assoc.get? (Assoc.index MemoryItem.triple items) (row.kind, row.key, row.value)).isSome := by
    obtain ⟨i, hi, htriple⟩ := h row hrow
    rw [Assoc.get?_index, List.find?_isSome]
    exact ⟨i, List.mem_reverse.mpr hi, decide_eq_true htriple⟩
  have hfold : ∀ es : List (MemoryRow × Nat), (∀ e ∈ es, e.1 ∈ rows) →
      es.foldl (fun d e =>
        let i := MemoryService.rowItem (fresh e.2).1 (fresh e.2).2 e.1
        if (Assoc.get? d i.triple).isSome then d else Assoc.set d i.triple i)
        (Assoc.index MemoryItem.triple items) = Assoc.index MemoryItem.triple items := by
    intro es
    induction es with
    | nil => exact fun _ => rfl
    | cons e es ih =>
      intro hes
      have hsome := hknown e.1 (hes e List.mem_cons_self)
      have hstep : (let i := MemoryService.rowItem (fresh e.2).1 (fresh e.2).2 e.1
          if (Assoc.get? (Assoc.index MemoryItem.triple items) i.triple).isSome then
            Assoc.index MemoryItem.triple items
          else Assoc.set (Assoc.index MemoryItem.triple items) i.triple i) =
            Assoc.index MemoryItem.triple items := if_pos hsome
      rw [List.foldl_cons, hstep]
      exact ih fun e' he' => hes e' (List.mem_cons_of_mem e he')
  rw [MemoryService.merged, hfold]
  intro e he
  exact List.fst_mem_of_mem_zipIdx he

theorem stored_of_candidate {hits : List (PyStr × PyFloat)} {triple : PyStr × PyStr × PyStr} {sim : PyFloat}
    (h : (triple, (i, sim)) ∈
      MemoryService.candidates hits items (Assoc.values (Assoc.index MemoryItem.triple items))) :
    i ∈ items := by
  rcases MemoryService.mem_candidates.mp h with ⟨j, hj, -, heq⟩ | ⟨uid, sim, j, -, howner, -, heq⟩
  · cases heq
    exact Assoc.mem_of_mem_index hj
  · cases heq
    exact (MemoryService.owner_mem howner).1

theorem Shown.stored {senv : SearchEnv} {m : MemoryService V} (h : Shown senv m i) : i ∈ m.items := by
  cases h with
  | latest _ hi _ => exact hi
  | nearest _ _ h => exact stored_of_candidate ((MemoryService.keeps_ranked _ _ _).mem _ h)

/-- Without the semantic layer a search shows the latest entry of each name. -/
theorem shown_iff_latest {senv : SearchEnv} {m : MemoryService V}
    (hoff : m.index = none ∨ senv.hits = none) :
    Shown senv m i ↔
      i ∈ m.items ∧ ∀ j ∈ m.items, j.value = i.value → PyStr.le j.createdAt i.createdAt = true := by
  constructor
  · intro h
    cases h with
    | latest _ hi hlatest => exact ⟨hi, hlatest⟩
    | nearest hon hhits _ =>
      rcases hoff with hoff | hoff
      · rw [hoff] at hon
        cases hon
      · cases hhits.symm.trans hoff
  · exact fun h => .latest hoff h.1 h.2

theorem shown_iff_nearest {senv : SearchEnv} {m : MemoryService V} {hits : List (PyStr × PyFloat)}
    (hon : m.index.isSome = true) (hhits : senv.hits = some hits) :
    Shown senv m i ↔ ∃ sim, (i.triple, (i, sim)) ∈
      MemoryService.ranked hits m.items (Assoc.values (Assoc.index MemoryItem.triple m.items)) := by
  constructor
  · intro h
    cases h with
    | latest hoff _ _ =>
      rcases hoff with hoff | hoff
      · rw [hoff] at hon
        cases hon
      · cases hhits.symm.trans hoff
    | nearest _ hhits' h =>
      cases hhits.symm.trans hhits'
      exact ⟨_, h⟩
  · intro h
    obtain ⟨sim, h⟩ := h
    exact .nearest hon hhits h

/-- A search for names shows stored entries, and which. -/
theorem search_names {senv : SearchEnv} {m : MemoryService V} (hitems : ∀ i ∈ m.items, NameEntry cm i)
    (hincreasing : Increasing m.items) (hechoes : Echoes senv m.items) :
    ∃ shown, MemoryService.search cm senv (str "name") m = .ok shown m ∧
      ∀ i, i ∈ shown ↔ Shown senv m i := by
  have hfound : m.items.filter (MemoryService.selects cm (str "name")) = m.items := by
    rw [List.filter_eq_self]
    exact fun i hi => (hitems i hi).selected
  have hquery : PyStr.strip (str "name") ≠ [] := by decide
  simp only [MemoryService.search, bind_run, get_run, MemoryService.call_value hechoes.quiet.postgres,
    MemoryService.call_value hechoes.quiet.neo4j, hfound, merged_of_stored hechoes.stored]
  have hoff (h : m.index = none ∨ senv.hits = none) (i : MemoryItem) :
      i ∈ Assoc.values (Assoc.index MemoryItem.triple m.items) ↔ Shown senv m i := by
    rw [mem_lasts_iff hitems hincreasing, shown_iff_latest h]
  cases hindex : m.index with
  | none => exact ⟨_, rfl, hoff (Or.inl hindex)⟩
  | some v =>
    have hon : m.index.isSome = true := by rw [hindex]; rfl
    cases hhits : senv.hits with
    | none =>
      have hnone : MemoryService.semanticSearch senv m.items (str "name")
          (Assoc.values (Assoc.index MemoryItem.triple m.items)) = none := by
        rw [MemoryService.semanticSearch, if_neg hquery, hhits]
      rw [hnone]
      exact ⟨_, rfl, hoff (Or.inr hhits)⟩
    | some hits =>
      by_cases hempty : (MemoryService.ranked hits m.items
          (Assoc.values (Assoc.index MemoryItem.triple m.items))).isEmpty = true
      · -- nothing is stored
        rw [MemoryService.semanticSearch_eq hquery hhits, if_pos hempty]
        refine ⟨_, rfl, fun i => ?_⟩
        rw [shown_iff_nearest hon hhits, List.isEmpty_iff.mp hempty]
        apply iff_of_false
        · intro hi
          obtain ⟨best, hbest⟩ := @MemoryService.exists_ranked hits m.items _ i hi
          rw [List.isEmpty_iff.mp hempty] at hbest
          cases hbest
        · intro h
          obtain ⟨sim, h⟩ := h
          cases h
      · rw [MemoryService.semanticSearch_eq hquery hhits, if_neg hempty]
        refine ⟨MemoryService.rankedItems senv hits m.items
          (Assoc.values (Assoc.index MemoryItem.triple m.items)), rfl, fun i => ?_⟩
        rw [shown_iff_nearest hon hhits, MemoryService.mem_rankedItems]

end Recall

/-- The name that the user stated last. -/
def lastStated (rt : ChatRuntime) (cs : List Statement) (userId : PyStr) : Option PyStr :=
  (cs.reverse.find? fun c => decide (c.userId = userId)).bind fun c =>
    NameCapture.nameToStore rt.toTextRules c.message

theorem exists_lastStated {cs : List Statement} (hcs : ∀ c ∈ cs, ∃ n, c.States rt n)
    (hu : u ∈ cs.map Statement.userId) : ∃ n, lastStated rt cs u = some n := by
  obtain ⟨c, hc, rfl⟩ := List.mem_map.mp hu
  have hsome : (cs.reverse.find? fun d => decide (d.userId = c.userId)).isSome := by
    rw [List.find?_isSome]
    exact ⟨c, List.mem_reverse.mpr hc, decide_eq_true rfl⟩
  obtain ⟨d, hd⟩ := Option.isSome_iff_exists.mp hsome
  obtain ⟨n, hn⟩ := hcs d (List.mem_reverse.mp (List.mem_of_find?_eq_some hd))
  exact ⟨n, by rw [lastStated, hd]; exact hn.captured⟩

/-- After these statements the user is recalled by the name they stated last. -/
def RecallsLastStated (rt : ChatRuntime) (vs : VectorStore V) (senv : NameEnv) (s : ChatState V)
    (cs : List Statement) (u : PyStr) : Prop :=
  ∃ t, recallUserName rt senv u (captures rt vs cs s) = .ok (lastStated rt cs u) t

theorem recallUserName_eq (senv : NameEnv) (u : PyStr) (hs : ∀ i ∈ entries s, NameEntry rt.cm i)
    (hincreasing : Increasing (entries s)) (hechoes : Echoes senv.search (entries s)) :
    ∃ recalled t, recallUserName rt senv u s = .ok recalled t ∧
      ∀ n, recalled = some n ↔ LatestFor (Shown senv.search s.tools.world.memory) u n := by
  obtain ⟨shown, hsearch, hshown⟩ := search_names hs hincreasing hechoes
  refine ⟨NameRecall.fromHits rt.cm u shown, s, ?_, fun n => ?_⟩
  · unfold recallUserName
    rw [bind_run, onMemory, zoom, hsearch]
    rfl
  · have hstored : ∀ i ∈ shown, i ∈ entries s := fun i hi => ((hshown i).mp hi).stored
    rw [fromHits_iff (fun i hi => hs i (hstored i hi)) hincreasing hstored]
    simp only [hshown]

theorem ofUser_stored (c : Statement) :
    NameRecall.ofUser u (c.stored rt) = decide (c.userId = u) := rfl

section Deciding

variable (rt) (hits : Option (List (PyStr × PyFloat))) (ks : List Statement)

/-- The vector store's answer to the search, where the semantic layer is active -/
def answered (s : ChatState V) (senv : SearchEnv) : Option (List (PyStr × PyFloat)) :=
  if s.tools.world.memory.index.isSome then senv.hits else none

/-- A kept statement stands for its name: no later one has exactly this name; or where the vector store
answers, its answer ranks this one first of them. -/
def Stands (c : Statement) : Prop :=
  c ∈ ks ∧ match hits with
    | none => ∀ d, Later ks c d → d.stated rt ≠ c.stated rt
    | some hits =>
      ∃ sim, ((c.stored rt).triple, (c.stored rt, sim)) ∈
        MemoryService.ranked hits (ks.map (Statement.stored rt))
          (Assoc.values (Assoc.index MemoryItem.triple (ks.map (Statement.stored rt))))

/-- The standing statement that decides what the user is called: theirs, and no later one of theirs stands;
or none of theirs stands, and none at all later than this one. -/
def Decides (u : PyStr) (c : Statement) : Prop :=
  Stands rt hits ks c ∧
    ((c.userId = u ∧ ∀ d, Later ks c d → Stands rt hits ks d → d.userId ≠ u) ∨
      (∀ d, Stands rt hits ks d → d.userId ≠ u) ∧ ∀ d, Later ks c d → ¬ Stands rt hits ks d)

end Deciding

section Positions

variable {ks : List Statement} {c d : Statement}

/-- Of two kept statements the later one has the later time. -/
theorem later_iff (h : Increasing (ks.map (Statement.stored rt))) (hc : c ∈ ks) (hd : d ∈ ks) :
    Later ks c d ↔ PyStr.le (d.stored rt).createdAt (c.stored rt).createdAt = false := by
  constructor
  · intro hlater
    have hpair := List.Pairwise.sublist (List.Sublist.map (Statement.stored rt) hlater) h
    exact List.rel_of_pairwise_cons hpair (List.mem_singleton_self _)
  · intro hlt
    obtain ⟨before, after, rfl⟩ := List.append_of_mem hc
    rcases List.mem_append.mp hd with hbefore | hafter
    · rw [List.map_append, List.map_cons] at h
      have hrel := (List.pairwise_append.mp h).2.2 _ (List.mem_map_of_mem hbefore) _ List.mem_cons_self
      have htotal := PyStr.le_total (d.stored rt).createdAt (c.stored rt).createdAt
      rw [hlt, hrel] at htotal
      cases htotal
    · rcases List.mem_cons.mp hafter with rfl | hafter
      · rw [PyStr.le_refl] at hlt
        cases hlt
      · exact (List.Sublist.cons_cons c (List.singleton_sublist.mpr hafter)).trans
          (List.sublist_append_right before _)

/-- The latest of some kept statements, by time and by position -/
theorem latest_iff_later {P : Statement → Prop} (h : Increasing (ks.map (Statement.stored rt))) (hc : c ∈ ks)
    (hP : ∀ d, P d → d ∈ ks) :
    (∀ d, P d → PyStr.le (d.stored rt).createdAt (c.stored rt).createdAt = true) ↔
      ∀ d, Later ks c d → ¬ P d := by
  constructor
  · intro hlatest d hlater hd
    have hle := hlatest d hd
    rw [(later_iff h hc (hP d hd)).mp hlater] at hle
    cases hle
  · intro hnone d hd
    by_contra hlt
    exact hnone d ((later_iff h hc (hP d hd)).mpr (eq_false_of_ne_true hlt)) hd

end Positions

section Standing

variable {senv : SearchEnv} {m : MemoryService V} {ks : List Statement} {c d : Statement} {name : PyStr}

theorem Later.mem (h : Later ks c d) : c ∈ ks ∧ d ∈ ks :=
  ⟨h.subset List.mem_cons_self, h.subset (List.mem_cons_of_mem c (List.mem_singleton_self d))⟩

variable (hitems : m.items = ks.map (Statement.stored rt)) (hincreasing : Increasing m.items)

include hitems hincreasing

theorem stands_iff_shown :
    Stands rt (if m.index.isSome then senv.hits else none) ks c ↔ c ∈ ks ∧ Shown senv m (c.stored rt) := by
  have hincreasing' := hincreasing
  rw [hitems] at hincreasing'
  unfold Stands
  apply and_congr_right
  intro hc
  have hlatest (hoff : m.index = none ∨ senv.hits = none) :
      (∀ d, Later ks c d → d.stated rt ≠ c.stated rt) ↔ Shown senv m (c.stored rt) := by
    have hlater := latest_iff_later (P := fun d => d ∈ ks ∧ d.stated rt = c.stated rt) hincreasing' hc
      fun d hd => hd.1
    rw [shown_iff_latest hoff, hitems]
    constructor
    · intro h
      have hle := hlater.mpr fun d hd hsame => h d hd hsame.2
      refine ⟨List.mem_map_of_mem hc, ?_⟩
      intro j hj hvalue
      obtain ⟨d, hd, rfl⟩ := List.mem_map.mp hj
      exact hle d ⟨hd, hvalue⟩
    · intro h d hd hsame
      refine hlater.mp ?_ d hd ⟨hd.mem.2, hsame⟩
      intro e he
      exact h.2 _ (List.mem_map_of_mem he.1) he.2
  cases hindex : m.index with
  | none => exact hlatest (.inl hindex)
  | some v =>
    rw [Option.isSome_some, if_pos rfl]
    cases hhits : senv.hits with
    | none => exact hlatest (.inr hhits)
    | some hits =>
      dsimp only
      rw [shown_iff_nearest (by rw [hindex]; rfl) hhits, hitems]

/-- The latest of some entries, by time, is that of the last of their statements. -/
theorem latestIs_iff {P : MemoryItem → Prop} (hP : ∀ i, P i → i ∈ m.items) :
    LatestIs P name ↔ ∃ c ∈ ks, P (c.stored rt) ∧ c.stated rt = name ∧
      ∀ d, Later ks c d → ¬ P (d.stored rt) := by
  rw [hitems] at hP hincreasing
  have hlater (c : Statement) (hc : c ∈ ks) := latest_iff_later
    (P := fun d => d ∈ ks ∧ P (d.stored rt)) hincreasing hc fun d hd => hd.1
  constructor
  · intro h
    obtain ⟨i, hi, rfl, hlatest⟩ := h
    obtain ⟨c, hc, rfl⟩ := List.mem_map.mp (hP i hi)
    refine ⟨c, hc, hi, rfl, fun d hd hshown => ?_⟩
    exact (hlater c hc).mp (fun e he => hlatest _ he.2) d hd ⟨hd.mem.2, hshown⟩
  · intro h
    obtain ⟨c, hc, hshown, hname, hnone⟩ := h
    refine ⟨c.stored rt, hshown, hname, fun j hj => ?_⟩
    obtain ⟨d, hd, rfl⟩ := List.mem_map.mp (hP j hj)
    exact (hlater c hc).mpr (fun e he hboth => hnone e he hboth.2) d ⟨hd, hj⟩

/-- What a search shows decides as the standing statements do. -/
theorem latestFor_iff_decides :
    LatestFor (Shown senv m) u name ↔
      ∃ c, Decides rt (if m.index.isSome then senv.hits else none) ks u c ∧ c.stated rt = name := by
  have hstored (i : MemoryItem) (h : Shown senv m i) : i ∈ m.items := h.stored
  have hown : (∀ i, Shown senv m i → NameRecall.ofUser u i = false) ↔
      ∀ d, d ∈ ks ∧ Shown senv m (d.stored rt) → d.userId ≠ u := by
    constructor
    · intro h d hd
      have hfalse := h _ hd.2
      rwa [ofUser_stored, decide_eq_false_iff_not] at hfalse
    · intro h i hi
      have hmem := hstored i hi
      rw [hitems] at hmem
      obtain ⟨d, hd, rfl⟩ := List.mem_map.mp hmem
      rw [ofUser_stored, decide_eq_false_iff_not]
      exact h d ⟨hd, hi⟩
  unfold LatestFor Decides
  simp only [stands_iff_shown hitems hincreasing]
  rw [latestIs_iff hitems hincreasing fun i hi => hstored i hi.1,
    latestIs_iff hitems hincreasing hstored, hown]
  simp only [ofUser_stored, decide_eq_true_eq]
  constructor
  · intro h
    rcases h with ⟨c, hc, ⟨hshown, huser⟩, hname, hnone⟩ | ⟨hnobody, c, hc, hshown, hname, hnone⟩
    · exact ⟨c, ⟨⟨hc, hshown⟩, .inl ⟨huser,
        fun d hd hstands huser' => hnone d hd ⟨hstands.2, huser'⟩⟩⟩, hname⟩
    · exact ⟨c, ⟨⟨hc, hshown⟩, .inr ⟨hnobody, fun d hd hstands => hnone d hd hstands.2⟩⟩, hname⟩
  · intro h
    obtain ⟨c, ⟨⟨hc, hshown⟩, hdecides⟩, hname⟩ := h
    rcases hdecides with ⟨huser, hnone⟩ | ⟨hnobody, hnone⟩
    · exact .inl ⟨c, hc, ⟨hshown, huser⟩, hname, fun d hd hboth => hnone d hd ⟨hd.mem.2, hboth.1⟩ hboth.2⟩
    · exact .inr ⟨hnobody, c, hc, hshown, hname, fun d hd hshown' => hnone d hd ⟨hd.mem.2, hshown'⟩⟩

end Standing

section Statements

variable {cs : List Statement} {senv : NameEnv} (hempty : entries s = []) (hcs : ∀ c ∈ cs, ∃ n, c.States rt n)
  (hincreasing : Increasing (remembered rt cs)) (hechoes : Echoes senv.search (remembered rt cs))

include hempty hcs hincreasing hechoes

/-- What a user is called after any sequence of statements -/
theorem recalled_iff_decides (vs : VectorStore V) (u : PyStr) :
    ∃ recalled t, recallUserName rt senv u (captures rt vs cs s) = .ok recalled t ∧
      ∀ n, recalled = some n ↔ ∃ c, Decides rt (answered s senv.search) (kept rt cs) u c ∧
        c.stated rt = n := by
  have hentries : entries (captures rt vs cs s) = remembered rt cs := entries_captures vs hcs hempty
  have hactive : (captures rt vs cs s).tools.world.memory.index.isSome =
      s.tools.world.memory.index.isSome := active_captures vs hcs
  rw [← hentries] at hincreasing hechoes
  have hnames : ∀ i ∈ entries (captures rt vs cs s), NameEntry rt.cm i := by
    rw [hentries]
    exact nameEntries hcs
  obtain ⟨recalled, t, hrun, hrecalled⟩ := recallUserName_eq senv u hnames hincreasing hechoes
  refine ⟨recalled, t, hrun, fun n => ?_⟩
  rw [hrecalled, latestFor_iff_decides hentries hincreasing, hactive]
  rfl

theorem recalls_iff_decides (vs : VectorStore V) (hu : u ∈ cs.map Statement.userId) :
    RecallsLastStated rt vs senv s cs u ↔
      ∃ c, Decides rt (answered s senv.search) (kept rt cs) u c ∧
        lastStated rt cs u = some (c.stated rt) := by
  obtain ⟨recalled, t, hrun, hrecalled⟩ := recalled_iff_decides hempty hcs hincreasing hechoes vs u
  obtain ⟨n, hn⟩ := exists_lastStated hcs hu
  rw [RecallsLastStated, hrun, hn]
  constructor
  · intro h
    obtain ⟨t', h⟩ := h
    cases h
    obtain ⟨c, hdecides, hname⟩ := (hrecalled n).mp rfl
    exact ⟨c, hdecides, congrArg some hname.symm⟩
  · intro h
    obtain ⟨c, hdecides, hname⟩ := h
    have hsome := (hrecalled n).mpr ⟨c, hdecides, (Option.some.inj hname).symm⟩
    exact ⟨t, by rw [hsome]⟩

end Statements

/-- A kept statement of a name of its own stands. -/
theorem stands_of_alone {ks : List Statement} {c : Statement} {hits : Option (List (PyStr × PyFloat))}
    (hks : ∀ i ∈ ks.map (Statement.stored rt), NameEntry rt.cm i) (hc : c ∈ ks)
    (halone : ∀ d ∈ ks, d.stated rt = c.stated rt → d = c)
    (hlater : ∀ d, Later ks c d → d.stated rt ≠ c.stated rt) : Stands rt hits ks c := by
  refine ⟨hc, ?_⟩
  cases hits with
  | none => exact hlater
  | some hits =>
    have hmem : c.stored rt ∈ ks.map (Statement.stored rt) := List.mem_map_of_mem hc
    obtain ⟨k, hk, htriple⟩ := Assoc.exists_mem_index (f := MemoryItem.triple) hmem
    obtain ⟨⟨j, sim⟩, hj⟩ := @MemoryService.exists_ranked hits (ks.map (Statement.stored rt)) _ k hk
    have hcandidate := (MemoryService.keeps_ranked _ _ _).mem _ hj
    have hjtriple : j.triple = k.triple := MemoryService.triple_of_mem_candidates hcandidate
    have hjmem : j ∈ ks.map (Statement.stored rt) := stored_of_candidate hcandidate
    obtain ⟨d, hd, rfl⟩ := List.mem_map.mp hjmem
    have hname := ((hks _ hjmem).triple_eq_iff (hks _ hmem)).mp (hjtriple.trans htriple)
    obtain rfl := halone d hd hname
    exact ⟨sim, hjtriple ▸ hj⟩

section Only

variable {before after : List Statement} {c d : Statement}
  (honly : ∀ d ∈ before ++ after, MemoryService.normalized rt.cm (d.stated rt) ≠
    MemoryService.normalized rt.cm (c.stated rt))

include honly

theorem eq_of_stated_eq (hd : d ∈ kept rt (before ++ c :: after)) (h : d.stated rt = c.stated rt) :
    d = c := by
  have hmem := kept_subset hd
  rw [List.mem_append, List.mem_cons] at hmem
  rcases hmem with hd | rfl | hd
  · exact absurd (congrArg _ h) (honly d (List.mem_append_left _ hd))
  · rfl
  · exact absurd (congrArg _ h) (honly d (List.mem_append_right _ hd))

theorem mem_after_of_later (h : Later (kept rt (before ++ c :: after)) c d) : d ∈ after := by
  have hnew : ∀ ds : List Statement, ds ⊆ before ++ after → c ∉ ds := fun ds hds hc => honly c (hds hc) rfl
  obtain ⟨l, l', hl, hbefore, hrest⟩ := List.sublist_append_iff.mp (h.trans kept_sublist)
  cases l with
  | cons e l =>
    obtain rfl := (List.cons.inj hl).1
    exact absurd (hbefore.subset List.mem_cons_self) (hnew before (List.subset_append_left _ _))
  | nil =>
    rw [List.nil_append] at hl
    subst hl
    exact List.singleton_sublist.mp (List.cons_sublist_cons.mp hrest)

/-- A name that no other statement has stands, and its user is called by it until they state another. -/
theorem decides_of_only {hits : Option (List (PyStr × PyFloat))}
    (hcs : ∀ d ∈ before ++ c :: after, ∃ n, d.States rt n) (huser : ∀ d ∈ after, d.userId ≠ c.userId) :
    Decides rt hits (kept rt (before ++ c :: after)) c.userId c := by
  have hkept : c ∈ kept rt (before ++ c :: after) :=
    mem_kept_of_new fun d hd => honly d (List.mem_append_left _ hd)
  refine ⟨stands_of_alone (nameEntries hcs) hkept (fun d => eq_of_stated_eq honly) ?_,
    .inl ⟨rfl, fun d hd _ => huser d (mem_after_of_later honly hd)⟩⟩
  intro d hd hname
  exact honly d (List.mem_append_right _ (mem_after_of_later honly hd)) (congrArg _ hname)

end Only

/-- The name that the user stated last is in no other statement, up to case and spacing. -/
structure OnlyTheirs (rt : ChatRuntime) (u : PyStr) (before : List Statement) (c : Statement)
    (after : List Statement) : Prop where
  theirs : c.userId = u
  last : ∀ d ∈ after, d.userId ≠ u
  only : ∀ d ∈ before ++ after, MemoryService.normalized rt.cm (d.stated rt) ≠
    MemoryService.normalized rt.cm (c.stated rt)

theorem OnlyTheirs.lastStated {before after : List Statement} {c : Statement}
    (h : OnlyTheirs rt u before c after) :
    lastStated rt (before ++ c :: after) u = NameCapture.nameToStore rt.toTextRules c.message := by
  have hnone : (after.reverse.find? fun d => decide (d.userId = u)) = none := by
    rw [List.find?_eq_none]
    intro d hd
    rw [decide_eq_true_eq]
    exact h.last d (List.mem_reverse.mp hd)
  have hfind : ((before ++ c :: after).reverse.find? fun d => decide (d.userId = u)) = some c := by
    rw [List.reverse_append, List.reverse_cons, List.append_assoc, List.find?_append, hnone,
      Option.none_or]
    simp [h.theirs]
  rw [Chat.lastStated, hfind, Option.bind_some]

/-- Where few names are stated, what decides is who brought them in: the last that the user brought in;
or, if the user brought in none, the last that anybody did. -/
def Introduced (rt : ChatRuntime) (cs : List Statement) (u : PyStr) (c : Statement) : Prop :=
  ∃ i, BringsIn rt cs i c ∧
    ((c.userId = u ∧ ∀ j d, i < j → BringsIn rt cs j d → d.userId ≠ u) ∨
      (∀ j d, BringsIn rt cs j d → d.userId ≠ u) ∧ ∀ j d, i < j → ¬ BringsIn rt cs j d)

section Few

variable {cs : List Statement} {c d : Statement} {i : Nat} {hits : Option (List (PyStr × PyFloat))}
variable (hfew : FewNames rt cs)

include hfew

theorem later_iff_of_bringsIn (hc : BringsIn rt cs i c) :
    Later (kept rt cs) c d ↔ ∃ j, i < j ∧ BringsIn rt cs j d := by
  rw [later_kept_iff hfew]
  constructor
  · intro h
    obtain ⟨i', j, hij, hc', hd⟩ := h
    obtain rfl := hc.unique hc' rfl
    exact ⟨j, hij, hd⟩
  · intro h
    obtain ⟨j, hij, hd⟩ := h
    exact ⟨i, j, hij, hc, hd⟩

theorem stands_kept_iff (hcs : ∀ c ∈ cs, ∃ n, c.States rt n) :
    Stands rt hits (kept rt cs) c ↔ ∃ i, BringsIn rt cs i c := by
  constructor
  · exact fun h => (mem_kept_iff hfew).mp h.1
  · intro h
    obtain ⟨i, hc⟩ := h
    refine stands_of_alone (nameEntries hcs) ((mem_kept_iff hfew).mpr ⟨i, hc⟩) ?_ ?_
    · intro d hd hname
      obtain ⟨j, hd⟩ := (mem_kept_iff hfew).mp hd
      obtain rfl := hc.unique hd (congrArg _ hname.symm)
      exact Option.some.inj (hd.stated.symm.trans hc.stated)
    · intro d hd hname
      obtain ⟨j, hij, hd⟩ := (later_iff_of_bringsIn hfew hc).mp hd
      exact absurd (hc.unique hd (congrArg _ hname.symm)) (Nat.ne_of_lt hij)

theorem decides_iff_introduced (hcs : ∀ c ∈ cs, ∃ n, c.States rt n) :
    Decides rt hits (kept rt cs) u c ↔ Introduced rt cs u c := by
  unfold Decides Introduced
  simp only [stands_kept_iff hfew hcs]
  rw [← exists_and_right]
  apply exists_congr
  intro i
  apply and_congr_right
  intro hc
  have hall : (∀ d, (∃ j, BringsIn rt cs j d) → d.userId ≠ u) ↔ ∀ j d, BringsIn rt cs j d → d.userId ≠ u :=
    ⟨fun h j d hd => h d ⟨j, hd⟩, fun h d ⟨j, hd⟩ => h j d hd⟩
  have hafter (P : Statement → Prop) :
      (∀ d, Later (kept rt cs) c d → (∃ j, BringsIn rt cs j d) → P d) ↔
        ∀ j d, i < j → BringsIn rt cs j d → P d := by
    constructor
    · intro h j d hij hd
      exact h d ((later_iff_of_bringsIn hfew hc).mpr ⟨j, hij, hd⟩) ⟨j, hd⟩
    · intro h d hlater _
      obtain ⟨j, hij, hd⟩ := (later_iff_of_bringsIn hfew hc).mp hlater
      exact h j d hij hd
  exact or_congr (and_congr_right fun _ => hafter _) (and_congr hall (hafter fun _ => False))

end Few

/-- A user who has stated a name is recalled by the last one exactly when a statement of that very name
decides what the user is called. Of few names, that is the last one which the user brought in, or if
the user brought in none, the last that anybody did; and a name that is the user's alone is recalled. -/
theorem recalls_lastStated_iff {cs : List Statement} {senv : NameEnv} (hempty : entries s = [])
    (hcs : ∀ c ∈ cs, ∃ n, c.States rt n) (hincreasing : Increasing (remembered rt cs))
    (hechoes : Echoes senv.search (remembered rt cs)) (hu : u ∈ cs.map Statement.userId) :
    (RecallsLastStated rt vs senv s cs u ↔
        ∃ c, Decides rt (answered s senv.search) (kept rt cs) u c ∧
          lastStated rt cs u = some (c.stated rt)) ∧
      (FewNames rt cs → (RecallsLastStated rt vs senv s cs u ↔
        ∃ c, Introduced rt cs u c ∧ lastStated rt cs u = some (c.stated rt))) ∧
      ∀ before c after, cs = before ++ c :: after → OnlyTheirs rt u before c after →
        RecallsLastStated rt vs senv s cs u := by
  have hiff := recalls_iff_decides hempty hcs hincreasing hechoes vs hu
  refine ⟨hiff, fun hfew => ?_, ?_⟩
  · rw [hiff]
    simp only [decides_iff_introduced hfew hcs]
  · rintro before c after rfl honly
    obtain ⟨n, hstates⟩ := hcs c (List.mem_append_right _ List.mem_cons_self)
    refine hiff.mpr ⟨c, ?_, ?_⟩
    · have huser : ∀ d ∈ after, d.userId ≠ c.userId := by
        rw [honly.theirs]
        exact honly.last
      rw [← honly.theirs]
      exact decides_of_only honly.only hcs huser
    · rw [honly.lastStated, hstates.captured, hstates.stated_eq]

def calling (user now name : String) : Statement where
  env := { write := .fileOnly (str now) (str now), search := .fileOnly }
  userId := str user
  message := str "call me " ++ str name

theorem echoes_fileOnly (items : List MemoryItem) : Echoes .fileOnly items where
  quiet := SearchEnv.quiet_fileOnly
  stored row hrow := by cases hrow

theorem states_bob (user now : String) : (calling user now "Bob").States asciiRuntime (str "Bob") := by
  have hcaptured : NameCapture.nameToStore asciiRuntime.toTextRules (str "call me " ++ str "Bob") =
      some (str "Bob") := by decide
  exact ⟨hcaptured, by decide, by decide⟩

theorem states_ann (user now : String) : (calling user now "Ann").States asciiRuntime (str "Ann") := by
  have hcaptured : NameCapture.nameToStore asciiRuntime.toTextRules (str "call me " ++ str "Ann") =
      some (str "Ann") := by decide
  exact ⟨hcaptured, by decide, by decide⟩

theorem states_carl (user now : String) : (calling user now "Carl").States asciiRuntime (str "Carl") := by
  have hcaptured : NameCapture.nameToStore asciiRuntime.toTextRules (str "call me " ++ str "Carl") =
      some (str "Carl") := by decide
  exact ⟨hcaptured, by decide, by decide⟩

/-- Two users; the last statement is refused. -/
def sharing : List Statement :=
  [calling "u" "1" "Bob", calling "v" "2" "Ann", calling "u" "3" "Carl", calling "v" "4" "Bob"]

theorem kept_sharing : kept asciiRuntime sharing =
    [calling "u" "1" "Bob", calling "v" "2" "Ann", calling "u" "3" "Carl"] := by
  have hbob : keep asciiRuntime [] (calling "u" "1" "Bob") = [calling "u" "1" "Bob"] := keep_short (by decide)
  have hann : keep asciiRuntime [calling "u" "1" "Bob"] (calling "v" "2" "Ann") =
      [calling "u" "1" "Bob", calling "v" "2" "Ann"] := (keep_short (by decide)).trans (if_neg (by decide))
  have hcarl : keep asciiRuntime [calling "u" "1" "Bob", calling "v" "2" "Ann"] (calling "u" "3" "Carl") =
      [calling "u" "1" "Bob", calling "v" "2" "Ann", calling "u" "3" "Carl"] :=
    (keep_short (by decide)).trans (if_neg (by decide))
  have hagain : keep asciiRuntime [calling "u" "1" "Bob", calling "v" "2" "Ann", calling "u" "3" "Carl"]
      (calling "v" "4" "Bob") = [calling "u" "1" "Bob", calling "v" "2" "Ann", calling "u" "3" "Carl"] :=
    (keep_short (by decide)).trans (if_pos (by decide))
  simp only [kept, sharing, List.foldl_cons, List.foldl_nil, hbob, hann, hcarl, hagain]

theorem recalls_lastStated_carl :
    RecallsLastStated asciiRuntime .inert (calling "u" "5" "").env firstState sharing (str "u") := by
  have hstates : ∀ c ∈ sharing, ∃ n, c.States asciiRuntime n := by
    intro c hc
    simp only [sharing, List.mem_cons, List.not_mem_nil, or_false] at hc
    rcases hc with rfl | rfl | rfl | rfl
    · exact ⟨_, states_bob "u" "1"⟩
    · exact ⟨_, states_ann "v" "2"⟩
    · exact ⟨_, states_carl "u" "3"⟩
    · exact ⟨_, states_bob "v" "4"⟩
  have hincreasing : Increasing (remembered asciiRuntime sharing) := by
    rw [remembered, kept_sharing]
    unfold Increasing
    decide
  have hechoes : Echoes (calling "u" "5" "").env.search (remembered asciiRuntime sharing) := echoes_fileOnly _
  have hempty : entries (firstState : ChatState Unit) = [] := rfl
  have hfew : FewNames asciiRuntime sharing := fewNames_of_length (by decide)
  have hcarl : BringsIn asciiRuntime sharing 2 (calling "u" "3" "Carl") := by
    refine ⟨rfl, ?_⟩
    simp only [sharing, List.take_succ_cons, List.take_zero, List.mem_cons, List.not_mem_nil, or_false,
      forall_eq_or_imp, forall_eq]
    decide
  -- after Carl there is only v's Bob, which u has brought in before
  have hlast : ∀ j d, 2 < j → BringsIn asciiRuntime sharing j d → d.userId ≠ str "u" := by
    intro j d hj hd
    have hlt : j < 4 := hd.lt
    obtain rfl : j = 3 := by omega
    obtain rfl := Option.some.inj hd.stated
    simp [calling, str]
  have hu : str "u" ∈ sharing.map Statement.userId := by simp [sharing, calling]
  refine ((recalls_lastStated_iff hempty hstates hincreasing hechoes hu).2.1 hfew).mpr ?_
  exact ⟨_, ⟨2, hcarl, .inl ⟨rfl, hlast⟩⟩, rfl⟩

def returning : List Statement := [calling "u" "1" "Bob", calling "u" "2" "Ann", calling "u" "3" "Bob"]

theorem kept_returning :
    kept asciiRuntime returning = [calling "u" "1" "Bob", calling "u" "2" "Ann"] := by
  have hbob : keep asciiRuntime [] (calling "u" "1" "Bob") = [calling "u" "1" "Bob"] := keep_short (by decide)
  have hann : keep asciiRuntime [calling "u" "1" "Bob"] (calling "u" "2" "Ann") =
      [calling "u" "1" "Bob", calling "u" "2" "Ann"] := (keep_short (by decide)).trans (if_neg (by decide))
  have hagain : keep asciiRuntime [calling "u" "1" "Bob", calling "u" "2" "Ann"] (calling "u" "3" "Bob") =
      [calling "u" "1" "Bob", calling "u" "2" "Ann"] := (keep_short (by decide)).trans (if_pos (by decide))
  simp only [kept, returning, List.foldl_cons, List.foldl_nil, hbob, hann, hagain]

/-- A user who goes back to an earlier name is recalled by the one given up. -/
theorem not_recalls_lastStated :
    ¬ ∀ (V : Type) (rt : ChatRuntime) (vs : VectorStore V) (s : ChatState V) (cs : List Statement)
      (senv : NameEnv) (u : PyStr), entries s = [] → (∀ c ∈ cs, ∃ n, c.States rt n) →
      Increasing (remembered rt cs) → Echoes senv.search (remembered rt cs) →
      u ∈ cs.map Statement.userId →
        RecallsLastStated rt vs senv s cs u := by
  intro hall
  have hstates : ∀ c ∈ returning, ∃ n, c.States asciiRuntime n := by
    intro c hc
    simp only [returning, List.mem_cons, List.not_mem_nil, or_false] at hc
    rcases hc with rfl | rfl | rfl
    · exact ⟨_, states_bob "u" "1"⟩
    · exact ⟨_, states_ann "u" "2"⟩
    · exact ⟨_, states_bob "u" "3"⟩
  have hincreasing : Increasing (remembered asciiRuntime returning) := by
    rw [remembered, kept_returning]
    exact List.pairwise_pair.mpr (by decide)
  have hechoes : Echoes (calling "u" "4" "").env.search (remembered asciiRuntime returning) :=
    echoes_fileOnly _
  have hempty : entries (firstState : ChatState Unit) = [] := rfl
  obtain ⟨t, hrecall⟩ := hall Unit asciiRuntime .inert firstState returning (calling "u" "4" "").env (str "u")
    hempty hstates hincreasing hechoes (by simp [returning, calling])
  obtain ⟨recalled, t', hrun, hrecalled⟩ :=
    recalled_iff_decides hempty hstates hincreasing hechoes .inert (str "u")
  cases hrun.symm.trans hrecall
  obtain ⟨c, ⟨hstands, hdecides⟩, hname⟩ := (hrecalled (str "Bob")).mp rfl
  have hc := hstands.1
  rw [kept_returning] at hc hdecides
  simp only [List.mem_cons, List.not_mem_nil, or_false] at hc
  rcases hc with rfl | rfl
  · -- Bob is followed by Ann, which stands
    have hlater : Later [calling "u" "1" "Bob", calling "u" "2" "Ann"] (calling "u" "1" "Bob")
        (calling "u" "2" "Ann") := List.Sublist.refl _
    have hann : Stands asciiRuntime none [calling "u" "1" "Bob", calling "u" "2" "Ann"]
        (calling "u" "2" "Ann") := by
      refine ⟨List.mem_cons_of_mem _ (List.mem_singleton_self _), ?_⟩
      intro d hd
      have heq : [calling "u" "2" "Ann", d] = [calling "u" "1" "Bob", calling "u" "2" "Ann"] :=
        hd.eq_of_length rfl
      exact absurd (List.cons.inj heq).1 (by simp [calling, str])
    rcases hdecides with ⟨-, hnone⟩ | ⟨-, hnone⟩
    · exact hnone _ hlater hann rfl
    · exact hnone _ hlater hann
  · revert hname
    decide

end Chat

end VirtualPerson
