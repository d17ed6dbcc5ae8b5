import VirtualPerson.Memory.Service
import VirtualPerson.Python.Best

/-!
# Semantic recall

What the semantic layer does to a search, whatever the embedder and the vector store
answer: it reorders the keyword result and adds stored items to it.
-/

namespace VirtualPerson

set_option autoImplicit false

open Stateful

namespace MemoryService

variable {V : Type} {cm : CaseMap} {senv : SearchEnv} {query : PyStr} {s : MemoryService V}
variable {hits : List (PyStr × PyFloat)} {items keywordItems : List MemoryItem}
variable {t : PyStr × PyStr × PyStr} {i : MemoryItem} {uid : PyStr} {sim : PyFloat}

/-- The similarities that the answer gives a triple: those of its items, and 0 for a keyword
item that the answer leaves out. -/
inductive Known (hits : List (PyStr × PyFloat)) (items keywordItems : List MemoryItem)
    (t : PyStr × PyStr × PyStr) : PyFloat → Prop where
  | keyword {i : MemoryItem} {sim : PyFloat} (hi : i ∈ keywordItems) (ht : i.triple = t)
      (hhit : (i.uid, sim) ∈ hits) : Known hits items keywordItems t sim
  | keywordOnly {i : MemoryItem} (hi : i ∈ keywordItems) (ht : i.triple = t)
      (hnone : ∀ sim, (i.uid, sim) ∉ hits) : Known hits items keywordItems t (.finite 0)
  | stored {i : MemoryItem} {uid : PyStr} {sim : PyFloat} (howner : owner items uid = some i)
      (ht : i.triple = t) (hhit : (uid, sim) ∈ hits) : Known hits items keywordItems t sim

def Highest (S : PyFloat → Prop) (x : PyFloat) : Prop := S x ∧ ∀ y, S y → y.le x = true

/-- The results fall in the score blended with the highest similarity known for each triple. -/
def Descending (senv : SearchEnv) (hits : List (PyStr × PyFloat))
    (items keywordItems results : List MemoryItem) : Prop :=
  ∃ highest : PyStr × PyStr × PyStr → PyFloat,
    (∀ i ∈ results, Highest (Known hits items keywordItems i.triple) (highest i.triple)) ∧
    results.Pairwise fun a b =>
      (blended senv.retrievalScore (b, highest b.triple)).le
        (blended senv.retrievalScore (a, highest a.triple)) = true

/-- What one search returns, given the keyword result. -/
structure Recalls (senv : SearchEnv) (query : PyStr) (items keywordItems results : List MemoryItem) :
    Prop where
  once : (results.map MemoryItem.triple).Nodup
  keeps : ∀ i ∈ keywordItems, i.triple ∈ results.map MemoryItem.triple
  adds : ∀ i ∈ results, i.triple ∈ keywordItems.map MemoryItem.triple ∨ i ∈ items
  falls : ∀ hits, senv.hits = some hits →
    semanticSearch senv items query keywordItems = some results →
    Descending senv hits items keywordItems results

/-- The search with the semantic layer raises only where the one without it does, and it
returns the keyword result with additions, in the blended order. -/
def OnlyAdds (cm : CaseMap) (senv : SearchEnv) (query : PyStr) (s : MemoryService V) : Prop :=
  (∀ e t, search cm senv query s = .error e t → search cm senv query s.unindexed = .error e t.unindexed) ∧
    ∀ keywordItems t, search cm senv query s.unindexed = .ok keywordItems t →
      ∃ results, search cm senv query s = .ok results s ∧
        Recalls senv query s.items keywordItems results

theorem compares_lt : Assoc.Compares PyFloat.lt (· ≠ .nan) where
  asymm _ _ h := PyFloat.lt_asymm h
  not_lt_trans _ _ _ hb hab hbc := PyFloat.not_lt_trans hb hab hbc

theorem compares_candidates :
    Assoc.Compares (fun a b : MemoryItem × PyFloat => a.2.lt b.2) (·.2 ≠ .nan) where
  asymm _ _ h := PyFloat.lt_asymm h
  not_lt_trans _ _ _ hb hab hbc := PyFloat.not_lt_trans hb hab hbc

theorem keeps_similarities (hits : List (PyStr × PyFloat)) :
    Assoc.Keeps PyFloat.lt (· ≠ .nan) hits (similarities hits) := by
  have hbest : similarities hits = Assoc.best PyFloat.lt hits := by
    unfold similarities Assoc.best
    congr 1
    funext d h
    unfold Assoc.improve
    cases Assoc.get? d h.1 <;> rfl
  rw [hbest]
  exact Assoc.keeps_best compares_lt hits

theorem addCandidate_eq (d : List ((PyStr × PyStr × PyStr) × (MemoryItem × PyFloat)))
    (i : MemoryItem) (sim : PyFloat) :
    addCandidate d i sim = Assoc.improve (fun a b => a.2.lt b.2) d i.triple (i, sim) := by
  unfold addCandidate Assoc.improve
  cases Assoc.get? d i.triple <;> rfl

/-- What `_add` is called with, by triples. -/
def candidates (hits : List (PyStr × PyFloat)) (items keywordItems : List MemoryItem) :
    List ((PyStr × PyStr × PyStr) × (MemoryItem × PyFloat)) :=
  (keywordItems.map fun i =>
      (i.triple, (i, (Assoc.get? (similarities hits) i.uid).getD (.finite 0)))) ++
    (similarities hits).filterMap fun h => (owner items h.1).map fun i => (i.triple, (i, h.2))

def ranked (hits : List (PyStr × PyFloat)) (items keywordItems : List MemoryItem) :
    List ((PyStr × PyStr × PyStr) × (MemoryItem × PyFloat)) :=
  Assoc.best (fun a b => a.2.lt b.2) (candidates hits items keywordItems)

theorem keeps_ranked (hits : List (PyStr × PyFloat)) (items keywordItems : List MemoryItem) :
    Assoc.Keeps (fun a b => a.2.lt b.2) (·.2 ≠ .nan) (candidates hits items keywordItems)
      (ranked hits items keywordItems) :=
  Assoc.keeps_best compares_candidates _

def order (senv : SearchEnv) (a b : MemoryItem × PyFloat) : Bool :=
  !(blended senv.retrievalScore a).lt (blended senv.retrievalScore b)

theorem semanticSearch_eq (hquery : PyStr.strip query ≠ []) (hhits : senv.hits = some hits) :
    semanticSearch senv items query keywordItems =
      if (ranked hits items keywordItems).isEmpty then none
      else some (((Assoc.values (ranked hits items keywordItems)).mergeSort (order senv)).map (·.1)) := by
  have hranked : ranked hits items keywordItems =
      (similarities hits).foldl (addHit items)
        (keywordItems.foldl
          (fun d i => addCandidate d i ((Assoc.get? (similarities hits) i.uid).getD (.finite 0))) []) := by
    simp only [ranked, Assoc.best, candidates, List.foldl_append, List.foldl_map,
      List.foldl_filterMap, addCandidate_eq]
    congr 1
    funext d h
    unfold addHit
    cases owner items h.1 with
    | none => rfl
    | some i => exact (addCandidate_eq d i h.2).symm
  rw [semanticSearch, if_neg hquery, hhits]
  dsimp only
  rw [hranked]
  rfl

theorem owner_mem (h : owner items uid = some i) : i ∈ items ∧ i.uid = uid := by
  rw [owner, Assoc.get?_eq_some_iff (Assoc.keyed_index items).nodup] at h
  rcases Assoc.mem_foldl_index h with h | ⟨hmem, hkey⟩
  · exact absurd h List.not_mem_nil
  · exact ⟨hmem, hkey.symm⟩

theorem exists_owner (hi : i ∈ items) : ∃ j, owner items i.uid = some j := by
  obtain ⟨j, hj⟩ := Assoc.key_mem_foldl_index (f := MemoryItem.uid) (d := []) (.inr ⟨i, hi, rfl⟩)
  exact ⟨j, (Assoc.get?_eq_some_iff (Assoc.keyed_index items).nodup).mpr hj⟩

theorem mem_candidates {c : MemoryItem × PyFloat} :
    (t, c) ∈ candidates hits items keywordItems ↔
      (∃ i ∈ keywordItems, i.triple = t ∧
        c = (i, (Assoc.get? (similarities hits) i.uid).getD (.finite 0))) ∨
      ∃ uid sim i, (uid, sim) ∈ similarities hits ∧ owner items uid = some i ∧ i.triple = t ∧
        c = (i, sim) := by
  rw [candidates, List.mem_append, List.mem_map, List.mem_filterMap]
  apply or_congr
  · constructor
    · intro h
      obtain ⟨i, hi, heq⟩ := h
      cases heq
      exact ⟨i, hi, rfl, rfl⟩
    · intro h
      obtain ⟨i, hi, rfl, rfl⟩ := h
      exact ⟨i, hi, rfl⟩
  · constructor
    · intro h
      obtain ⟨⟨uid, sim⟩, hsim, heq⟩ := h
      obtain ⟨i, howner, heq⟩ := Option.map_eq_some_iff.mp heq
      cases heq
      exact ⟨uid, sim, i, hsim, howner, rfl, rfl⟩
    · intro h
      obtain ⟨uid, sim, i, hsim, howner, rfl, rfl⟩ := h
      exact ⟨(uid, sim), hsim, by rw [howner]; rfl⟩

theorem exists_ranked (hi : i ∈ keywordItems) : ∃ c, (i.triple, c) ∈ ranked hits items keywordItems :=
  (keeps_ranked hits items keywordItems).total _ (mem_candidates.mpr (.inl ⟨i, hi, rfl, rfl⟩))

theorem triple_of_mem_candidates {c : MemoryItem × PyFloat}
    (h : (t, c) ∈ candidates hits items keywordItems) : c.1.triple = t := by
  rcases mem_candidates.mp h with ⟨i, -, ht, rfl⟩ | ⟨uid, sim, i, -, -, ht, rfl⟩
  · exact ht
  · exact ht

theorem known_of_mem_candidates {c : MemoryItem × PyFloat}
    (h : (t, c) ∈ candidates hits items keywordItems) : Known hits items keywordItems t c.2 := by
  have hsims := keeps_similarities hits
  rcases mem_candidates.mp h with ⟨i, hi, ht, rfl⟩ | ⟨uid, sim, i, hsim, howner, ht, rfl⟩
  · cases hget : Assoc.get? (similarities hits) i.uid with
    | some sim => exact .keyword hi ht (hsims.mem _ ((Assoc.get?_eq_some_iff hsims.nodup).mp hget))
    | none =>
      apply Known.keywordOnly hi ht
      intro sim hhit
      obtain ⟨a, ha⟩ := hsims.total _ hhit
      exact Assoc.get?_eq_none_iff.mp hget a ha
  · exact .stored howner ht (hsims.mem _ hsim)

theorem exists_candidate (hnan : ∀ y, Known hits items keywordItems t y → y ≠ .nan)
    (h : Known hits items keywordItems t sim) :
    ∃ c, (t, c) ∈ candidates hits items keywordItems ∧ c.2.lt sim = false := by
  have hsims := keeps_similarities hits
  cases h with
  | @keyword i _ hi ht hhit =>
    obtain ⟨best, hbest⟩ := hsims.total _ hhit
    have hget := (Assoc.get?_eq_some_iff hsims.nodup).mpr hbest
    refine ⟨(i, best), mem_candidates.mpr (.inl ⟨i, hi, ht, by rw [hget]; rfl⟩), ?_⟩
    exact hsims.best _ hbest (fun y hy => hnan y (.keyword hi ht hy)) sim hhit
  | @keywordOnly i hi ht hnone =>
    have hget : Assoc.get? (similarities hits) i.uid = none := by
      rw [Assoc.get?_eq_none_iff]
      exact fun sim hsim => hnone sim (hsims.mem _ hsim)
    exact ⟨(i, .finite 0), mem_candidates.mpr (.inl ⟨i, hi, ht, by rw [hget]; rfl⟩),
      compares_lt.irrefl _⟩
  | @stored i uid _ howner ht hhit =>
    obtain ⟨best, hbest⟩ := hsims.total _ hhit
    refine ⟨(i, best), mem_candidates.mpr (.inr ⟨uid, best, i, hbest, howner, ht, rfl⟩), ?_⟩
    exact hsims.best _ hbest (fun y hy => hnan y (.stored howner ht hy)) sim hhit

theorem highest_of_mem_ranked {c : MemoryItem × PyFloat}
    (hnan : ∀ y, Known hits items keywordItems t y → y ≠ .nan)
    (h : (t, c) ∈ ranked hits items keywordItems) : Highest (Known hits items keywordItems t) c.2 := by
  have hkeeps := keeps_ranked hits items keywordItems
  have hknown := known_of_mem_candidates (hkeeps.mem _ h)
  refine ⟨hknown, ?_⟩
  intro y hy
  obtain ⟨c', hc', hlt⟩ := exists_candidate hnan hy
  have hbest : c.2.lt c'.2 = false := by
    apply hkeeps.best _ h _ c' hc'
    exact fun x hx => hnan _ (known_of_mem_candidates hx)
  rw [PyFloat.le_iff_not_lt (hnan y hy) (hnan _ hknown)]
  exact PyFloat.not_lt_trans (hnan _ (known_of_mem_candidates hc')) hbest hlt

theorem blended_number (score : MemoryItem → ℚ) {c : MemoryItem × PyFloat} (h : c.2 ≠ .nan) :
    blended score c ≠ .nan := by
  obtain ⟨p, hp⟩ := PyFloat.clamp_finite h
  obtain ⟨q, hq⟩ := PyFloat.clamp_finite (x := .finite (score c.1 / (3 / 2))) (by simp)
  rw [blended, hp, hq]
  simp [PyFloat.scale, PyFloat.add]

/-- The list that the semantic search makes of its candidates. -/
def rankedItems (senv : SearchEnv) (hits : List (PyStr × PyFloat))
    (items keywordItems : List MemoryItem) : List MemoryItem :=
  ((Assoc.values (ranked hits items keywordItems)).mergeSort (order senv)).map (·.1)

theorem mem_sorted {c : MemoryItem × PyFloat} :
    c ∈ (Assoc.values (ranked hits items keywordItems)).mergeSort (order senv) ↔
      (c.1.triple, c) ∈ ranked hits items keywordItems := by
  rw [(List.mergeSort_perm _ _).mem_iff, Assoc.values, List.mem_map]
  constructor
  · intro h
    obtain ⟨⟨t, c'⟩, hc, rfl⟩ := h
    have ht := triple_of_mem_candidates ((keeps_ranked hits items keywordItems).mem _ hc)
    rw [ht]
    exact hc
  · exact fun hc => ⟨_, hc, rfl⟩

theorem mem_rankedItems :
    i ∈ rankedItems senv hits items keywordItems ↔
      ∃ sim, (i.triple, (i, sim)) ∈ ranked hits items keywordItems := by
  rw [rankedItems, List.mem_map]
  constructor
  · intro h
    obtain ⟨⟨j, sim⟩, hc, rfl⟩ := h
    exact ⟨sim, mem_sorted.mp hc⟩
  · intro h
    obtain ⟨sim, hc⟩ := h
    exact ⟨(i, sim), mem_sorted.mpr hc, rfl⟩

theorem nodup_rankedItems :
    ((rankedItems senv hits items keywordItems).map MemoryItem.triple).Nodup := by
  have hkeeps := keeps_ranked hits items keywordItems
  have hkeyed : Assoc.Keyed (fun c : MemoryItem × PyFloat => c.1.triple)
      (ranked hits items keywordItems) := by
    refine ⟨hkeeps.nodup, ?_⟩
    intro e he
    exact (triple_of_mem_candidates (hkeeps.mem e he)).symm
  have hperm := (List.mergeSort_perm (Assoc.values (ranked hits items keywordItems)) (order senv)).map
    fun c => c.1.triple
  rw [rankedItems, List.map_map]
  apply hperm.nodup_iff.mpr
  rw [hkeyed.map_values]
  exact hkeeps.nodup

theorem triple_mem_rankedItems (senv : SearchEnv) {c : MemoryItem × PyFloat}
    (h : (t, c) ∈ candidates hits items keywordItems) :
    t ∈ (rankedItems senv hits items keywordItems).map MemoryItem.triple := by
  have hkeeps := keeps_ranked hits items keywordItems
  obtain ⟨⟨j, sim⟩, hj⟩ := hkeeps.total _ h
  have ht : j.triple = t := triple_of_mem_candidates (hkeeps.mem _ hj)
  refine List.mem_map.mpr ⟨j, mem_rankedItems.mpr ⟨sim, ?_⟩, ht⟩
  rw [ht]
  exact hj

/-- The triples found are those of the keyword items and those of the items that own a hit. -/
theorem triple_mem_rankedItems_iff (senv : SearchEnv) :
    t ∈ (rankedItems senv hits items keywordItems).map MemoryItem.triple ↔
      t ∈ keywordItems.map MemoryItem.triple ∨
        ∃ uid sim i, (uid, sim) ∈ hits ∧ owner items uid = some i ∧ i.triple = t := by
  constructor
  · intro h
    obtain ⟨i, hi, rfl⟩ := List.mem_map.mp h
    obtain ⟨sim, hsim⟩ := mem_rankedItems.mp hi
    rcases mem_candidates.mp ((keeps_ranked hits items keywordItems).mem _ hsim) with
      ⟨j, hj, ht, -⟩ | ⟨uid, sim', j, hhit, howner, ht, -⟩
    · exact .inl (List.mem_map.mpr ⟨j, hj, ht⟩)
    · exact .inr ⟨uid, sim', j, (keeps_similarities hits).mem _ hhit, howner, ht⟩
  · intro h
    rcases h with h | ⟨uid, sim, i, hhit, howner, ht⟩
    · obtain ⟨i, hi, rfl⟩ := List.mem_map.mp h
      exact triple_mem_rankedItems senv (mem_candidates.mpr (.inl ⟨i, hi, rfl, rfl⟩))
    · obtain ⟨best, hbest⟩ := (keeps_similarities hits).total _ hhit
      exact triple_mem_rankedItems senv
        (mem_candidates.mpr (.inr ⟨uid, best, i, hbest, howner, ht, rfl⟩))

theorem candidate_of_mem_rankedItems (h : i ∈ rankedItems senv hits items keywordItems) :
    i.triple ∈ keywordItems.map MemoryItem.triple ∨ i ∈ items := by
  obtain ⟨sim, hsim⟩ := mem_rankedItems.mp h
  rcases mem_candidates.mp ((keeps_ranked hits items keywordItems).mem _ hsim) with
    ⟨j, hj, ht, -⟩ | ⟨uid, sim', j, -, howner, -, heq⟩
  · exact .inl (List.mem_map.mpr ⟨j, hj, ht⟩)
  · cases heq
    exact .inr (owner_mem howner).1

theorem descending_rankedItems
    (hnan : ∀ t y, Known hits items keywordItems t y → y ≠ .nan) :
    Descending senv hits items keywordItems (rankedItems senv hits items keywordItems) := by
  have hkeeps := keeps_ranked hits items keywordItems
  let highest (t : PyStr × PyStr × PyStr) : PyFloat :=
    ((Assoc.get? (ranked hits items keywordItems) t).map (·.2)).getD .nan
  have hhighest (j : MemoryItem) (sim : PyFloat)
      (h : (j.triple, (j, sim)) ∈ ranked hits items keywordItems) : highest j.triple = sim := by
    change ((Assoc.get? _ _).map _).getD _ = _
    rw [(Assoc.get?_eq_some_iff hkeeps.nodup).mpr h]
    rfl
  refine ⟨highest, ?_, ?_⟩
  · intro j hj
    obtain ⟨sim, hsim⟩ := mem_rankedItems.mp hj
    rw [hhighest j sim hsim]
    exact highest_of_mem_ranked (hnan j.triple) hsim
  · rw [rankedItems, List.pairwise_map]
    have hsorted := PyFloat.pairwise_mergeSort (blended senv.retrievalScore)
      (Assoc.values (ranked hits items keywordItems)) (by
        intro c hc
        obtain ⟨e, he, rfl⟩ := List.mem_map.mp hc
        exact blended_number _ (hnan _ _ (known_of_mem_candidates (hkeeps.mem e he))))
    apply List.Pairwise.imp_of_mem _ hsorted
    rintro ⟨a, x⟩ ⟨b, y⟩ ha hb hab
    rw [hhighest a x (mem_sorted.mp ha), hhighest b y (mem_sorted.mp hb)]
    exact hab

/-- A NaN known for some triple is a NaN hit of a keyword item or a stored item. -/
theorem known_nan_iff :
    (∃ t, Known hits items keywordItems t .nan) ↔
      ∃ uid, (uid, .nan) ∈ hits ∧
        (uid ∈ keywordItems.map MemoryItem.uid ∨ uid ∈ items.map MemoryItem.uid) := by
  constructor
  · intro h
    obtain ⟨t, h⟩ := h
    cases h with
    | @keyword i _ hi _ hhit => exact ⟨i.uid, hhit, .inl (List.mem_map_of_mem hi)⟩
    | @stored i uid _ howner _ hhit =>
      obtain ⟨hi, huid⟩ := owner_mem howner
      exact ⟨uid, hhit, .inr (List.mem_map.mpr ⟨i, hi, huid⟩)⟩
  · intro h
    obtain ⟨uid, hhit, huid | huid⟩ := h
    · obtain ⟨i, hi, rfl⟩ := List.mem_map.mp huid
      exact ⟨i.triple, .keyword hi rfl hhit⟩
    · obtain ⟨i, hi, rfl⟩ := List.mem_map.mp huid
      obtain ⟨j, hj⟩ := exists_owner hi
      exact ⟨j.triple, .stored hj rfl hhit⟩

theorem exists_candidate_of_known (h : Known hits items keywordItems t sim) :
    ∃ c, (t, c) ∈ candidates hits items keywordItems := by
  have hsims := keeps_similarities hits
  cases h with
  | @keyword i _ hi ht _ => exact ⟨_, mem_candidates.mpr (.inl ⟨i, hi, ht, rfl⟩)⟩
  | @keywordOnly i hi ht _ => exact ⟨_, mem_candidates.mpr (.inl ⟨i, hi, ht, rfl⟩)⟩
  | @stored i uid _ howner ht hhit =>
    obtain ⟨best, hbest⟩ := hsims.total _ hhit
    exact ⟨(i, best), mem_candidates.mpr (.inr ⟨uid, best, i, hbest, howner, ht, rfl⟩)⟩

theorem semanticSearch_some (hquery : PyStr.strip query ≠ []) (hhits : senv.hits = some hits)
    {c : MemoryItem × PyFloat} (hc : (t, c) ∈ candidates hits items keywordItems) :
    semanticSearch senv items query keywordItems = some (rankedItems senv hits items keywordItems) := by
  obtain ⟨a, ha⟩ := (keeps_ranked hits items keywordItems).total _ hc
  rw [semanticSearch_eq hquery hhits, if_neg]
  · rfl
  · rw [List.isEmpty_iff]
    exact List.ne_nil_of_mem ha

theorem triple_mem_semanticSearch_iff (hquery : PyStr.strip query ≠ []) (hhits : senv.hits = some hits) :
    t ∈ ((semanticSearch senv items query keywordItems).getD keywordItems).map MemoryItem.triple ↔
      t ∈ keywordItems.map MemoryItem.triple ∨
        ∃ uid sim i, (uid, sim) ∈ hits ∧ owner items uid = some i ∧ i.triple = t := by
  by_cases hany : ∃ t c, (t, c) ∈ candidates hits items keywordItems
  · obtain ⟨t', c, hc⟩ := hany
    rw [semanticSearch_some hquery hhits hc, Option.getD_some, triple_mem_rankedItems_iff]
  · have hnone : ranked hits items keywordItems = [] := by
      rw [List.eq_nil_iff_forall_not_mem]
      intro e he
      exact hany ⟨e.1, e.2, (keeps_ranked hits items keywordItems).mem e he⟩
    rw [semanticSearch_eq hquery hhits, hnone, List.isEmpty_nil, if_pos rfl, Option.getD_none]
    refine ⟨.inl, fun h => h.resolve_right ?_⟩
    intro hstored
    obtain ⟨uid, sim, i, hhit, howner, -⟩ := hstored
    obtain ⟨best, hbest⟩ := (keeps_similarities hits).total _ hhit
    exact hany ⟨_, _, mem_candidates.mpr (.inr ⟨uid, best, i, hbest, howner, rfl, rfl⟩)⟩

theorem semanticSearch_eq_some {results : List MemoryItem}
    (h : semanticSearch senv items query keywordItems = some results) :
    PyStr.strip query ≠ [] ∧ ∃ hits, senv.hits = some hits ∧
      results = rankedItems senv hits items keywordItems := by
  have hquery : PyStr.strip query ≠ [] := by
    intro hq
    rw [semanticSearch, if_pos hq] at h
    cases h
  cases hhits : senv.hits with
  | none =>
    rw [semanticSearch, if_neg hquery, hhits] at h
    cases h
  | some hits =>
    refine ⟨hquery, hits, rfl, ?_⟩
    rw [semanticSearch_eq hquery hhits] at h
    split at h
    · cases h
    · cases h
      rfl

theorem nodup_merged (fresh : Nat → PyStr × PyStr) (found : List MemoryItem) (rows : List MemoryRow) :
    ((merged fresh found rows).map MemoryItem.triple).Nodup := by
  have hfold : ∀ (es : List (MemoryRow × Nat)) (d : List ((PyStr × PyStr × PyStr) × MemoryItem)),
      Assoc.Keyed MemoryItem.triple d → Assoc.Keyed MemoryItem.triple (es.foldl
        (fun d e =>
          let i := rowItem (fresh e.2).1 (fresh e.2).2 e.1
          if (Assoc.get? d i.triple).isSome then d else Assoc.set d i.triple i) d) := by
    intro es
    induction es with
    | nil => exact fun d h => h
    | cons e es ih =>
      intro d h
      apply ih
      dsimp only
      split
      · exact h
      · exact h.set _
  have hkeyed := hfold rows.zipIdx _ (Assoc.keyed_index found)
  rw [merged, hkeyed.map_values]
  exact hkeyed.nodup

theorem call_cases {α : Type} (default : α) (a : Answer α) :
    (∃ e, ∀ s : MemoryService V, call default a s = .error e s) ∨
      ∃ v, ∀ s : MemoryService V, call default a s = .ok v s := by
  cases a with
  | missing => exact .inr ⟨default, fun _ => rfl⟩
  | raises e => exact .inl ⟨e, fun _ => rfl⟩
  | returns v => exact .inr ⟨v, fun _ => rfl⟩

theorem search_cases (cm : CaseMap) (senv : SearchEnv) (query : PyStr) (s : MemoryService V)
    (hactive : s.index.isSome = true) :
    (∃ e, search cm senv query s = .error e s ∧
      search cm senv query s.unindexed = .error e s.unindexed) ∨
    ∃ keywordItems, (keywordItems.map MemoryItem.triple).Nodup ∧
      search cm senv query s.unindexed = .ok keywordItems s.unindexed ∧
      search cm senv query s =
        .ok ((semanticSearch senv s.items query keywordItems).getD keywordItems) s := by
  rcases call_cases (V := V) [] senv.postgres with ⟨e, hpg⟩ | ⟨pgRows, hpg⟩
  · left
    exact ⟨e, by simp only [search, bind_run, get_run, hpg], by simp only [search, bind_run, get_run, hpg]⟩
  rcases call_cases (V := V) [] senv.neo4j with ⟨e, hneo⟩ | ⟨neoRows, hneo⟩
  · left
    exact ⟨e, by simp only [search, bind_run, get_run, hpg, hneo],
      by simp only [search, bind_run, get_run, hpg, hneo]⟩
  right
  refine ⟨merged senv.fresh (s.items.filter (selects cm query)) (pgRows ++ neoRows),
    nodup_merged _ _ _, ?_, ?_⟩
  · simp only [search, bind_run, get_run, hpg, hneo]
    rfl
  · simp only [search, bind_run, get_run, hpg, hneo, hactive, if_true]
    cases semanticSearch senv s.items query
      (merged senv.fresh (s.items.filter (selects cm query)) (pgRows ++ neoRows)) <;> rfl

/-- No NaN answers for a keyword item or a stored item. -/
def NumberHits (cm : CaseMap) (senv : SearchEnv) (query : PyStr) (s : MemoryService V) : Prop :=
  ∀ keywordItems t, search cm senv query s.unindexed = .ok keywordItems t →
    ∀ hits uid, senv.hits = some hits → (uid, .nan) ∈ hits →
      uid ∉ keywordItems.map MemoryItem.uid ∧ uid ∉ s.items.map MemoryItem.uid

/-- A NaN known for a result leaves it without a highest similarity. -/
theorem numberHits_of_onlyAdds (hactive : s.index.isSome = true) (hquery : PyStr.strip query ≠ [])
    (h : OnlyAdds cm senv query s) : NumberHits cm senv query s := by
  intro keywordItems t hok hits uid hhits hnan
  rw [← not_or]
  intro huid
  rcases search_cases cm senv query s hactive with ⟨e, -, hrun'⟩ | ⟨keywordItems', -, hrun', hrun⟩
  · rw [hrun'] at hok
    cases hok
  rw [hrun'] at hok
  cases hok
  obtain ⟨t, ht⟩ := known_nan_iff.mpr ⟨uid, hnan, huid⟩
  obtain ⟨c, hc⟩ := exists_candidate_of_known ht
  have hsome := semanticSearch_some hquery hhits hc
  obtain ⟨results, hresults, hrecalls⟩ := h.2 keywordItems _ hrun'
  rw [hrun, hsome] at hresults
  cases hresults
  obtain ⟨highest, hhighest, -⟩ := hrecalls.falls hits hhits hsome
  obtain ⟨i, hi, hti⟩ := List.mem_map.mp (triple_mem_rankedItems senv hc)
  have hle := (hhighest i hi).2 .nan (hti ▸ ht)
  rw [PyFloat.nan_not_le] at hle
  cases hle

theorem recalls_of_numbers (hhits : senv.hits = some hits)
    (hnumbers : ∀ uid, (uid, .nan) ∈ hits →
      uid ∉ keywordItems.map MemoryItem.uid ∧ uid ∉ items.map MemoryItem.uid) :
    Recalls senv query items keywordItems (rankedItems senv hits items keywordItems) := by
  constructor
  · exact nodup_rankedItems
  · intro i hi
    exact triple_mem_rankedItems senv (mem_candidates.mpr (.inl ⟨i, hi, rfl, rfl⟩))
  · intro i hi
    exact candidate_of_mem_rankedItems hi
  · intro hits' hhits' _
    rw [hhits] at hhits'
    cases hhits'
    apply descending_rankedItems
    intro t y hy hnan
    subst hnan
    obtain ⟨uid, hhit, huid⟩ := known_nan_iff.mp ⟨t, hy⟩
    exact huid.elim (hnumbers uid hhit).1 (hnumbers uid hhit).2

/-- The semantic layer only adds to a search, and ranks it, if and only if the query is blank or
the vector store answers with numbers. -/
theorem onlyAdds_iff (cm : CaseMap) (senv : SearchEnv) (query : PyStr) (s : MemoryService V)
    (hactive : s.index.isSome = true) :
    OnlyAdds cm senv query s ↔ PyStr.strip query = [] ∨ NumberHits cm senv query s := by
  constructor
  · intro h
    by_cases hquery : PyStr.strip query = []
    · exact .inl hquery
    · exact .inr (numberHits_of_onlyAdds hactive hquery h)
  · intro hnumbers
    rcases search_cases cm senv query s hactive with
      ⟨e, hrun, hrun'⟩ | ⟨keywordItems, honce, hrun', hrun⟩
    · constructor
      · intro e' t herror
        rw [hrun] at herror
        cases herror
        exact hrun'
      · intro keywordItems t hok
        rw [hrun'] at hok
        cases hok
    · constructor
      · intro e t herror
        rw [hrun] at herror
        cases herror
      · intro keywordItems' t hok
        rw [hrun'] at hok
        cases hok
        refine ⟨_, hrun, ?_⟩
        cases hsearch : semanticSearch senv s.items query keywordItems with
        | none =>
          -- the keyword result stands
          constructor
          · exact honce
          · intro i hi
            exact List.mem_map_of_mem hi
          · intro i hi
            exact .inl (List.mem_map_of_mem hi)
          · intro hits _ hsome
            rw [hsearch] at hsome
            cases hsome
        | some results =>
          obtain ⟨hquery, hits, hhits, rfl⟩ := semanticSearch_eq_some hsearch
          apply recalls_of_numbers hhits
          intro uid hhit
          exact (hnumbers.resolve_left hquery) keywordItems _ hrun' hits uid hhits hhit

/-- Two notes under their values as uids. -/
def drinks : MemoryService Unit where
  items := [.new [] (str "tea") (str "note") (str "morning") (str "tea") [],
    .new [] (str "wine") (str "note") (str "evening") (str "wine") []]
  index := some ()
  file := .absent

def answering (hits : List (PyStr × PyFloat)) : SearchEnv := { SearchEnv.fileOnly with hits := some hits }

theorem onlyAdds_iff_drinks :
    OnlyAdds .asciiOnly (answering [(str "wine", .finite 1)]) (str "tea") drinks := by
  rw [onlyAdds_iff .asciiOnly (answering [(str "wine", .finite 1)]) (str "tea") drinks rfl]
  right
  intro keywordItems t _ hits uid hhits hnan
  cases hhits
  simp at hnan

/-- The similarity of the wine is not a number, as that of a zero vector in pgvector. -/
theorem not_onlyAdds :
    ¬ ∀ (senv : SearchEnv) (query : PyStr) (s : MemoryService Unit), s.index.isSome = true →
      OnlyAdds .asciiOnly senv query s := by
  intro hall
  have hadds := hall (answering [(str "tea", .finite 1), (str "wine", .nan)]) (str "tea") drinks rfl
  have hnumbers := numberHits_of_onlyAdds rfl (by decide) hadds
  have hno := hnumbers [.new [] (str "tea") (str "note") (str "morning") (str "tea") []] _ rfl _
    (str "wine") rfl (by simp)
  exact hno.2 (by simp [drinks, MemoryItem.new])

end MemoryService

end VirtualPerson
