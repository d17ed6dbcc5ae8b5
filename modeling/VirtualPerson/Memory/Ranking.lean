import VirtualPerson.Memory.Curation
import VirtualPerson.Python.Argsort
import VirtualPerson.Python.Best

/-!
# Ranking memories

`rank_memories` returns the best-scored copies of the fresh triples, best first, and
leaves out none that is better than one it returns.
-/

namespace VirtualPerson

set_option autoImplicit false

namespace Curation

variable {S : Type} [LinearOrder S] {stale : PyStr → PyStr → Bool} {items : List (ScoredMemory S)}

def freshItems (stale : PyStr → PyStr → Bool) (items : List (ScoredMemory S)) :
    List (ScoredMemory S) :=
  items.filter fun i => !stale i.kind i.createdAt

/-- `out` is the top `limit` of the fresh triples of `items`. -/
structure TopFresh (stale : PyStr → PyStr → Bool) (items : List (ScoredMemory S)) (limit : Nat)
    (out : List (ScoredMemory S)) : Prop where
  fresh : ∀ m ∈ out, m ∈ items ∧ stale m.kind m.createdAt = false
  distinct : (out.map ScoredMemory.triple).Nodup
  best : ∀ m ∈ out, ∀ i ∈ freshItems stale items, i.triple = m.triple → i.score ≤ m.score
  ordered : out.Pairwise fun a b => b.score ≤ a.score ∧
    (a.score = b.score → ((freshItems stale items).map ScoredMemory.triple).idxOf a.triple <
      ((freshItems stale items).map ScoredMemory.triple).idxOf b.triple)
  length : out.length = min limit ((freshItems stale items).map ScoredMemory.triple).eraseDups.length
  omitted : ∀ i ∈ freshItems stale items, i.triple ∉ out.map ScoredMemory.triple →
    ∀ m ∈ out, i.score ≤ m.score

def entries (items : List (ScoredMemory S)) : List ((PyStr × PyStr × PyStr) × ScoredMemory S) :=
  items.map fun i => (i.triple, i)

def kept (items : List (ScoredMemory S)) : List ((PyStr × PyStr × PyStr) × ScoredMemory S) :=
  Assoc.best (fun a b => decide (a.score < b.score)) (entries items)

theorem compares_score :
    Assoc.Compares (fun a b : ScoredMemory S => decide (a.score < b.score)) fun _ => True where
  asymm a b h := by
    have hlt := of_decide_eq_true h
    exact decide_eq_false (not_lt.mpr hlt.le)
  not_lt_trans a b c _ hab hbc := by
    have hba := not_lt.mp (of_decide_eq_false hab)
    have hcb := not_lt.mp (of_decide_eq_false hbc)
    exact decide_eq_false (not_lt.mpr (hcb.trans hba))

theorem keeps_kept (items : List (ScoredMemory S)) :
    Assoc.Keeps (fun a b : ScoredMemory S => decide (a.score < b.score)) (fun _ => True)
      (entries items) (kept items) :=
  Assoc.keeps_best compares_score _

theorem dedupMemories_eq (items : List (ScoredMemory S)) :
    dedupMemories items = Assoc.values (kept items) := by
  unfold dedupMemories kept Assoc.best entries
  rw [List.foldl_map]
  congr 2
  funext seen i
  unfold Assoc.improve
  cases Assoc.get? seen i.triple with
  | none => rfl
  | some prev => simp only [decide_eq_true_eq]

omit [LinearOrder S] in
theorem mem_entries {e : (PyStr × PyStr × PyStr) × ScoredMemory S} :
    e ∈ entries items ↔ e.2 ∈ items ∧ e.1 = e.2.triple := by
  rw [entries, List.mem_map]
  constructor
  · intro h
    obtain ⟨i, hi, rfl⟩ := h
    exact ⟨hi, rfl⟩
  · intro h
    obtain ⟨hmem, hkey⟩ := h
    exact ⟨e.2, hmem, by rw [← hkey]⟩

theorem mem_dedupMemories {m : ScoredMemory S} :
    m ∈ dedupMemories items ↔ (m.triple, m) ∈ kept items := by
  rw [dedupMemories_eq, Assoc.values, List.mem_map]
  constructor
  · intro h
    obtain ⟨e, he, rfl⟩ := h
    have hkey := (mem_entries.mp ((keeps_kept items).mem e he)).2
    rw [← hkey]
    exact he
  · exact fun h => ⟨_, h, rfl⟩

theorem mem_of_mem_dedupMemories {m : ScoredMemory S} (h : m ∈ dedupMemories items) : m ∈ items :=
  (mem_entries.mp ((keeps_kept items).mem _ (mem_dedupMemories.mp h))).1

theorem le_of_mem_dedupMemories {m i : ScoredMemory S} (h : m ∈ dedupMemories items) (hi : i ∈ items)
    (htriple : i.triple = m.triple) : i.score ≤ m.score := by
  have hentry : (m.triple, i) ∈ entries items := mem_entries.mpr ⟨hi, htriple.symm⟩
  have hbest := (keeps_kept items).best _ (mem_dedupMemories.mp h) (fun _ _ => trivial) i hentry
  exact not_lt.mp (of_decide_eq_false hbest)

theorem exists_mem_dedupMemories {i : ScoredMemory S} (hi : i ∈ items) :
    ∃ m ∈ dedupMemories items, m.triple = i.triple := by
  obtain ⟨m, hm⟩ := (keeps_kept items).total (i.triple, i) (mem_entries.mpr ⟨hi, rfl⟩)
  have hkey : i.triple = m.triple := (mem_entries.mp ((keeps_kept items).mem _ hm)).2
  refine ⟨m, mem_dedupMemories.mpr ?_, hkey.symm⟩
  rw [← hkey]
  exact hm

/-- The triples of the copies, in the order in which they first appeared. -/
theorem map_triple_dedupMemories (items : List (ScoredMemory S)) :
    (dedupMemories items).map ScoredMemory.triple = (items.map ScoredMemory.triple).eraseDups := by
  have hkeys : Assoc.keys (entries items) = items.map ScoredMemory.triple := by
    rw [Assoc.keys, entries, List.map_map]
    rfl
  have hkept : Assoc.keys (kept items) = (dedupMemories items).map ScoredMemory.triple := by
    rw [dedupMemories_eq, Assoc.keys, Assoc.values, List.map_map]
    apply List.map_congr_left
    intro e he
    exact (mem_entries.mp ((keeps_kept items).mem e he)).2
  rw [← hkept, ← hkeys]
  exact Assoc.keys_best _ _

theorem nodup_dedupMemories (items : List (ScoredMemory S)) :
    ((dedupMemories items).map ScoredMemory.triple).Nodup := by
  rw [map_triple_dedupMemories]
  apply (Assoc.pairwise_eraseDups _).imp
  intro a b hlt heq
  rw [heq] at hlt
  exact lt_irrefl _ hlt

theorem pairwise_dedupMemories (items : List (ScoredMemory S)) :
    (dedupMemories items).Pairwise fun a b =>
      (items.map ScoredMemory.triple).idxOf a.triple <
        (items.map ScoredMemory.triple).idxOf b.triple := by
  have h := Assoc.pairwise_eraseDups (items.map ScoredMemory.triple)
  rw [← map_triple_dedupMemories, List.pairwise_map] at h
  exact h

def sorted (items : List (ScoredMemory S)) : List (ScoredMemory S) :=
  (dedupMemories items).mergeSort fun a b => decide (b.score ≤ a.score)

theorem decreasing_sorted (items : List (ScoredMemory S)) :
    Decreasing ScoredMemory.score (dedupMemories items) (sorted items) :=
  decreasing_mergeSort _ _

theorem rankMemories_eq (stale : PyStr → PyStr → Bool) (items : List (ScoredMemory S)) (limit : Nat) :
    rankMemories stale items limit = (sorted (freshItems stale items)).take limit := rfl

theorem mem_dedup_of_mem_rankMemories {limit : Nat} {m : ScoredMemory S}
    (h : m ∈ rankMemories stale items limit) : m ∈ dedupMemories (freshItems stale items) :=
  (decreasing_sorted _).perm.mem_iff.mp (List.mem_of_mem_take h)

/-- For every clock value `now`, `rank_memories` is the exact top `limit` of the fresh,
deduplicated memories. -/
theorem topFresh_rankMemories (fromisoformat : PyStr → Option DateTime) (now : Int)
    (items : List (ScoredMemory S)) (limit : Nat) :
    TopFresh (isStale fromisoformat now) items limit
      (rankMemories (isStale fromisoformat now) items limit) := by
  set stale := isStale fromisoformat now
  set fresh := freshItems stale items
  have hsorted := decreasing_sorted fresh
  have htriples : ((sorted fresh).map ScoredMemory.triple).Perm
      ((dedupMemories fresh).map ScoredMemory.triple) := hsorted.perm.map _
  constructor
  · intro m hm
    have hmem := mem_of_mem_dedupMemories (mem_dedup_of_mem_rankMemories hm)
    obtain ⟨hitem, hfresh⟩ := List.mem_filter.mp hmem
    exact ⟨hitem, by simpa using hfresh⟩
  · rw [rankMemories_eq, List.map_take]
    exact (htriples.nodup_iff.mpr (nodup_dedupMemories fresh)).sublist (List.take_sublist _ _)
  · intro m hm i hi htriple
    exact le_of_mem_dedupMemories (mem_dedup_of_mem_rankMemories hm) hi htriple
  · rw [rankMemories_eq]
    exact (hsorted.pairwise (pairwise_dedupMemories fresh)).sublist (List.take_sublist _ _)
  · rw [rankMemories_eq, List.length_take, hsorted.perm.length_eq, ← map_triple_dedupMemories,
      List.length_map]
  · intro i hi homitted m hm
    obtain ⟨best, hbest, htriple⟩ := exists_mem_dedupMemories hi
    have hle : i.score ≤ best.score := le_of_mem_dedupMemories hbest hi htriple.symm
    -- the best copy of the omitted triple stands behind everything that was returned
    have hbest' : best ∈ (sorted fresh).take limit ++ (sorted fresh).drop limit := by
      rw [List.take_append_drop]
      exact hsorted.perm.mem_iff.mpr hbest
    rcases List.mem_append.mp hbest' with htake | hdrop
    · exact absurd (List.mem_map.mpr ⟨best, htake, htriple⟩) homitted
    · have hpair := hsorted.sorted
      rw [← List.take_append_drop limit (sorted fresh), List.pairwise_append] at hpair
      exact hle.trans (hpair.2.2 m hm best hdrop)

end Curation

end VirtualPerson
