import Mathlib.Data.List.Sort
import VirtualPerson.Memory.Service

/-!
# Memory curation

Staleness, ranking and the `curate_memories` job, and when the job removes exactly
the stale items.
-/

namespace VirtualPerson

set_option autoImplicit false

/-- A parsed time: microseconds on the local clock and the UTC offset, if one was given. -/
structure DateTime where
  micros : Int
  offset : Option Int

/-- The instant it stands for; a naive time is taken as UTC. -/
def DateTime.utc (t : DateTime) : Int := t.micros - t.offset.getD 0

def dayMicros : Int := 86400 * 1000000

namespace Curation

/-- `KIND_TTL_DAYS` -/
def kindTtlDays : List (PyStr × Option Int) :=
  [(str "identity", none), (str "preference", none), (str "project", some 180),
    (str "goal", some 365), (str "todo", some 30), (str "note", some 90), (str "ephemeral", some 7)]

/-- `created_at.replace("Z", "+00:00")` -/
def replaceZ (s : PyStr) : PyStr := s.flatMap fun c => if c = 0x5A then str "+00:00" else [c]

/-- `is_stale` at the instant `now`; a time that does not parse is never stale. -/
def isStale (fromisoformat : PyStr → Option DateTime) (now : Int) (kind createdAt : PyStr) : Bool :=
  match Assoc.get? kindTtlDays kind with
  | some (some days) =>
    match fromisoformat (replaceZ createdAt) with
    | some t => decide (days * dayMicros < now - t.utc)
    | none => false
  | _ => false

structure ScoredMemory (S : Type) where
  kind : PyStr
  key : PyStr
  value : PyStr
  createdAt : PyStr
  score : S
  source : PyStr

namespace ScoredMemory

variable {S : Type}

def ofItem (score : MemoryItem → S) (m : MemoryItem) : ScoredMemory S :=
  { kind := m.kind, key := m.key, value := m.value, createdAt := m.createdAt, score := score m
    source := m.source }

def triple (m : ScoredMemory S) : PyStr × PyStr × PyStr := (m.kind, m.key, m.value)

end ScoredMemory

section Rank

variable {S : Type} [LinearOrder S]

def dedupMemories (items : List (ScoredMemory S)) : List (ScoredMemory S) :=
  Assoc.values <| items.foldl
    (fun seen i => match Assoc.get? seen i.triple with
      | some prev => if prev.score < i.score then Assoc.set seen i.triple i else seen
      | none => Assoc.set seen i.triple i) []

def rankMemories (stale : PyStr → PyStr → Bool) (items : List (ScoredMemory S)) (limit : Nat) :
    List (ScoredMemory S) :=
  let fresh := items.filter fun i => !stale i.kind i.createdAt
  ((dedupMemories fresh).mergeSort fun a b => b.score ≤ a.score).take limit

end Rank

end Curation

namespace Jobs

open MemoryService Curation Stateful

variable {V S : Type} [LinearOrder S]

/-- The counts `curate_memories` returns. -/
structure CurationReport where
  scanned : Nat
  ranked : Nat
  pruned : Nat

/-- `is_stale(m.kind, m.created_at) and memory.delete(m.kind, m.key)` -/
def pruneOne (vs : VectorStore V) (stale : PyStr → PyStr → Bool) (env : Env) (m : MemoryItem) :
    ServiceM V Bool :=
  if stale m.kind m.createdAt then delete vs env m.kind m.key else return false

/-- The pruning loop; `env n` surrounds the `n`-th enumerated item. -/
def prune (vs : VectorStore V) (stale : PyStr → PyStr → Bool) (env : Nat → Env) :
    Nat → List MemoryItem → ServiceM V Nat
  | _, [] => return 0
  | n, m :: ms => do
    let removed ← pruneOne vs stale (env n) m
    let pruned ← prune vs stale env (n + 1) ms
    return (if removed then 1 else 0) + pruned

def curateMemories (cm : CaseMap) (vs : VectorStore V) (stale : PyStr → PyStr → Bool)
    (score : MemoryItem → S) (senv : SearchEnv) (env : Nat → Env) : ServiceM V CurationReport := do
  let items ← search cm senv []
  let ranked := rankMemories stale (items.map (ScoredMemory.ofItem score)) 8
  let pruned ← prune vs stale env 0 items
  return { scanned := items.length, ranked := ranked.length, pruned }

section Prune

variable {cm : CaseMap} {vs : VectorStore V} {stale : PyStr → PyStr → Bool} {score : MemoryItem → S}
variable {senv : SearchEnv} {env : Nat → Env} {s : MemoryService V}

def prunes (stale : PyStr → PyStr → Bool) (m i : MemoryItem) : Bool :=
  stale m.kind m.createdAt && named m.kind m.key i

def doomed (stale : PyStr → PyStr → Bool) (ms : List MemoryItem) (i : MemoryItem) : Bool :=
  ms.any fun m => prunes stale m i

/-- `s'` is `s` with the items chosen by `p` removed; the file is rewritten if there are any. -/
structure Removes (p : MemoryItem → Bool) (s s' : MemoryService V) : Prop where
  items : s'.items = s.items.filter fun i => !p i
  file : (s.items.any p = false ∧ s'.file = s.file) ∨
    (s.items.any p = true ∧ s'.file = .ofItems s'.items)

theorem Removes.none {p : MemoryItem → Bool} (h : ∀ i ∈ s.items, p i = false) : Removes p s s where
  items := by
    rw [eq_comm, List.filter_eq_self]
    intro i hi
    simp [h i hi]
  file := .inl ⟨List.any_eq_false.mpr fun i hi => by simp [h i hi], rfl⟩

theorem Removes.trans {p q : MemoryItem → Bool} {s₁ s₂ : MemoryService V} (h : Removes p s s₁)
    (h' : Removes q s₁ s₂) : Removes (fun i => p i || q i) s s₂ where
  items := by
    rw [h'.items, h.items, List.filter_filter]
    congr 1
    funext i
    cases p i <;> simp
  file := by
    have hq : s₁.items.any q = s.items.any fun i => !p i && q i := by
      rw [h.items, List.any_filter]
    rcases h.file with ⟨hp, hfile⟩ | ⟨hp, hfile⟩
    · have hany : (s.items.any fun i => p i || q i) = s₁.items.any q := by
        rw [hq, Bool.eq_iff_iff, List.any_eq_true, List.any_eq_true]
        rw [List.any_eq_false] at hp
        constructor
        · intro h
          obtain ⟨i, hi, h⟩ := h
          exact ⟨i, hi, by simpa [hp i hi] using h⟩
        · intro h
          obtain ⟨i, hi, h⟩ := h
          exact ⟨i, hi, by simp_all⟩
      rw [hany]
      rcases h'.file with ⟨hn, hfile'⟩ | hsome
      · exact .inl ⟨hn, hfile'.trans hfile⟩
      · exact .inr hsome
    · refine .inr ⟨?_, ?_⟩
      · obtain ⟨i, hi, hpi⟩ := List.any_eq_true.mp hp
        exact List.any_eq_true.mpr ⟨i, hi, by simp [hpi]⟩
      · rcases h'.file with ⟨hn, hfile'⟩ | ⟨-, hfile'⟩
        · have hsame : s₂.items = s₁.items := by
            rw [h'.items, List.filter_eq_self]
            intro i hi
            simpa using List.any_eq_false.mp hn i hi
          rw [hfile', hfile, hsame]
        · exact hfile'

theorem removes_delete {kind key : PyStr} {env : Env} (henv : env.Quiet) :
    ∃ removed s', delete vs env kind key s = .ok removed s' ∧ Removes (named kind key) s s' := by
  refine ⟨_, _, delete_quiet henv, rfl, ?_⟩
  cases h : s.items.any (named kind key) with
  | false => exact .inl ⟨rfl, by simp⟩
  | true => exact .inr ⟨rfl, by simp⟩

theorem removes_pruneOne (vs : VectorStore V) (stale : PyStr → PyStr → Bool) {env : Env}
    (henv : env.Quiet) (m : MemoryItem) (s : MemoryService V) :
    ∃ removed s', pruneOne vs stale env m s = .ok removed s' ∧ Removes (prunes stale m) s s' := by
  by_cases hm : stale m.kind m.createdAt = true
  · have hp : prunes stale m = named m.kind m.key := by
      funext i
      simp [prunes, hm]
    simp only [pruneOne, if_pos hm, hp]
    exact removes_delete henv
  · refine ⟨false, s, by rw [pruneOne, if_neg hm]; rfl, .none fun i _ => ?_⟩
    simp [prunes, hm]

theorem removes_prune (vs : VectorStore V) (stale : PyStr → PyStr → Bool)
    (henv : ∀ n, (env n).Quiet) (ms : List MemoryItem) (n : Nat) (s : MemoryService V) :
    ∃ pruned s', prune vs stale env n ms s = .ok pruned s' ∧ Removes (doomed stale ms) s s' := by
  induction ms generalizing n s with
  | nil => exact ⟨0, s, rfl, .none fun i _ => rfl⟩
  | cons m ms ih =>
    obtain ⟨removed, s₁, hm, hrem⟩ := removes_pruneOne vs stale (henv n) m s
    obtain ⟨pruned, s₂, hms, hrem'⟩ := ih (n + 1) s₁
    refine ⟨(if removed then 1 else 0) + pruned, s₂, ?_, hrem.trans hrem'⟩
    simp only [prune, bind_run, hm, hms, pure_run]

/-- Without database rows, `search("")` lists one item for each triple. -/
theorem search_all (hpg : senv.postgres = .missing) (hneo : senv.neo4j = .missing) :
    search cm senv [] s = .ok (Assoc.values (Assoc.index MemoryItem.triple s.items)) s := by
  have hquiet : senv.Quiet := ⟨fun e => by simp [hpg], fun e => by simp [hneo]⟩
  rw [search_empty hquiet, hpg, hneo]
  rfl

end Prune

structure PrunedExactly (stale : PyStr → PyStr → Bool) (s s' : MemoryService V) : Prop where
  items : s'.items = s.items.filter fun i => !stale i.kind i.createdAt
  file : s'.file.Holds (s.items.filter fun i => !stale i.kind i.createdAt)

/-- Items with one kind and key are all stale or all fresh. -/
def Uniform (stale : PyStr → PyStr → Bool) (items : List MemoryItem) : Prop :=
  ∀ i ∈ items, ∀ j ∈ items, i.kind = j.kind → i.key = j.key →
    stale i.kind i.createdAt = stale j.kind j.createdAt

section Exact

variable {stale : PyStr → PyStr → Bool} {items : List MemoryItem} {i : MemoryItem}

theorem doomed_iff {ms : List MemoryItem} :
    doomed stale ms i = true ↔
      ∃ m ∈ ms, stale m.kind m.createdAt = true ∧ i.kind = m.kind ∧ i.key = m.key := by
  simp [doomed, prunes, named]

theorem doomed_eq_stale (h : Uniform stale items) (hi : i ∈ items) :
    doomed stale (Assoc.values (Assoc.index MemoryItem.triple items)) i =
      stale i.kind i.createdAt := by
  rw [Bool.eq_iff_iff, doomed_iff]
  constructor
  · intro h
    obtain ⟨m, hm, hstale, hkind, hkey⟩ := h
    rw [h i hi m (Assoc.mem_of_mem_index hm) hkind hkey]
    exact hstale
  · intro hstale
    obtain ⟨m, hm, htriple⟩ := Assoc.exists_mem_index (f := MemoryItem.triple) hi
    simp only [MemoryItem.triple, Prod.mk.injEq] at htriple
    obtain ⟨hkind, hkey, -⟩ := htriple
    refine ⟨m, hm, ?_, hkind.symm, hkey.symm⟩
    rw [h m (Assoc.mem_of_mem_index hm) i hi hkind hkey]
    exact hstale

/-- Where pruning removes just the stale items, a stale item has no fresh twin: the twin
would go with the enumerated item that makes the stale one go. -/
theorem uniform_of_doomed {ms : List MemoryItem}
    (h : ∀ i ∈ items, doomed stale ms i = stale i.kind i.createdAt) : Uniform stale items := by
  intro i hi j hj hkind hkey
  rw [← h i hi, ← h j hj, Bool.eq_iff_iff, doomed_iff, doomed_iff, hkind, hkey]

theorem filter_inj {p q : MemoryItem → Bool} (h : items.filter p = items.filter q) (hi : i ∈ items) :
    p i = q i := by
  have hmem : i ∈ items.filter p ↔ i ∈ items.filter q := by rw [h]
  rw [List.mem_filter, List.mem_filter] at hmem
  rw [Bool.eq_iff_iff]
  exact ⟨fun hp => (hmem.mp ⟨hi, hp⟩).2, fun hq => (hmem.mpr ⟨hi, hq⟩).2⟩

end Exact

section Job

variable {cm : CaseMap} {vs : VectorStore V} {score : MemoryItem → S}
variable {senv : SearchEnv} {env : Nat → Env}

theorem removes_curateMemories (cm : CaseMap) (vs : VectorStore V) (score : MemoryItem → S)
    (stale : PyStr → PyStr → Bool) (s : MemoryService V)
    (hpg : senv.postgres = .missing) (hneo : senv.neo4j = .missing) (henv : ∀ n, (env n).Quiet) :
    ∃ report s', curateMemories cm vs stale score senv env s = .ok report s' ∧
      Removes (doomed stale (Assoc.values (Assoc.index MemoryItem.triple s.items))) s s' := by
  set listed := Assoc.values (Assoc.index MemoryItem.triple s.items)
  obtain ⟨pruned, s', hprune, hrem⟩ := removes_prune vs stale henv listed 0 s
  refine ⟨{ scanned := listed.length
            ranked := (rankMemories stale (listed.map (ScoredMemory.ofItem score)) 8).length
            pruned }, s', ?_, hrem⟩
  simp only [curateMemories, bind_run, search_all hpg hneo]
  rw [hprune]
  rfl

/-- `curate_memories` without database backends returns, and it leaves exactly the fresh
items in the store and in the file if and only if no fresh item shares kind and key
with a stale one and the file was up to date or some item is stale. -/
theorem curateMemories_exact_iff (cm : CaseMap) (vs : VectorStore V) (score : MemoryItem → S)
    (fromisoformat : PyStr → Option DateTime) (now : Int) (s : MemoryService V)
    (hpg : senv.postgres = .missing) (hneo : senv.neo4j = .missing)
    (henv : ∀ n, (env n).Quiet) :
    ∃ report s', curateMemories cm vs (isStale fromisoformat now) score senv env s =
        .ok report s' ∧
      (PrunedExactly (isStale fromisoformat now) s s' ↔
        Uniform (isStale fromisoformat now) s.items ∧
          (s.file.Holds s.items ∨ ∃ i ∈ s.items, isStale fromisoformat now i.kind i.createdAt = true)) := by
  set stale := isStale fromisoformat now
  set listed := Assoc.values (Assoc.index MemoryItem.triple s.items)
  obtain ⟨report, s', hrun, hrem⟩ :=
    removes_curateMemories cm vs score stale s hpg hneo henv
  refine ⟨report, s', hrun, ?_⟩
  constructor
  · intro h
    have hsame : ∀ i ∈ s.items, doomed stale listed i = stale i.kind i.createdAt := by
      intro i hi
      have := filter_inj (hrem.items.symm.trans h.items) hi
      simpa using this
    refine ⟨uniform_of_doomed hsame, ?_⟩
    rcases hrem.file with ⟨hnone, hfile⟩ | ⟨hsome, -⟩
    · left
      have hall : (s.items.filter fun i => !stale i.kind i.createdAt) = s.items := by
        rw [List.filter_eq_self]
        intro i hi
        rw [← hsame i hi]
        simpa using List.any_eq_false.mp hnone i hi
      have hfile' := h.file
      rw [hfile, hall] at hfile'
      exact hfile'
    · right
      obtain ⟨i, hi, hdoomed⟩ := List.any_eq_true.mp hsome
      exact ⟨i, hi, (hsame i hi).symm.trans hdoomed⟩
  · intro h
    obtain ⟨huniform, hfile⟩ := h
    have hsame : ∀ i ∈ s.items, doomed stale listed i = stale i.kind i.createdAt :=
      fun i hi => doomed_eq_stale huniform hi
    have hitems : s'.items = s.items.filter fun i => !stale i.kind i.createdAt := by
      rw [hrem.items]
      exact List.filter_congr fun i hi => by rw [hsame i hi]
    refine ⟨hitems, ?_⟩
    rw [← hitems]
    rcases hrem.file with ⟨hnone, hfile'⟩ | ⟨-, hfile'⟩
    · have hfresh : ∀ i ∈ s.items, stale i.kind i.createdAt = false := by
        intro i hi
        rw [← hsame i hi]
        simpa using List.any_eq_false.mp hnone i hi
      have hall : s'.items = s.items := by
        rw [hitems, List.filter_eq_self]
        intro i hi
        simp [hfresh i hi]
      rw [hfile', hall]
      rcases hfile with hholds | ⟨i, hi, hstale⟩
      · exact hholds
      · rw [hfresh i hi] at hstale
        cases hstale
    · rw [hfile']
      exact PersistFile.holds_ofItems s'.items

end Job

def todo (value createdAt : String) : MemoryItem :=
  { kind := str "todo", key := str "dentist", value := str value, createdAt := str createdAt
    metadata := [], uid := str value, source := str "memory-file" }

/-- `datetime.fromisoformat` on two texts, in microseconds since 1970. -/
def parseTwo (s : PyStr) : Option DateTime :=
  if s = str "2020-01-01T00:00:00+00:00" then some ⟨1577836800000000, some 0⟩
  else if s = str "2026-06-01T00:00:00+00:00" then some ⟨1780272000000000, some 0⟩
  else none

/-- 2026-06-02, 00:00 UTC -/
def june2 : Int := 1780358400000000

/-- A stale todo and a fresh one of another key -/
def booked : List MemoryItem :=
  [todo "book" "2020-01-01T00:00:00+00:00",
    { todo "pay" "2026-06-01T00:00:00+00:00" with key := str "rent" }]

/-- Of the two items the job removes the stale one. -/
theorem curateMemories_exact_iff_todo :
    ∃ report s', curateMemories CaseMap.asciiOnly .inert (isStale parseTwo june2) (fun _ => 0)
        .fileOnly (fun _ => .fileOnly [] []) (synced booked) = .ok report s' ∧
      PrunedExactly (isStale parseTwo june2) (synced booked) s' ∧ s'.items.map (·.key) = [str "rent"] := by
  obtain ⟨report, s', hrun, hiff⟩ := curateMemories_exact_iff .asciiOnly .inert (fun _ => 0) parseTwo
    june2 (synced booked) (rfl : SearchEnv.fileOnly.postgres = _) rfl (fun _ => Env.quiet_fileOnly [] [])
  have huniform : Uniform (isStale parseTwo june2) booked := by
    intro i hi j hj _ hkey
    simp only [booked, List.mem_cons, List.not_mem_nil, or_false] at hi hj
    rcases hi with rfl | rfl <;> rcases hj with rfl | rfl
    · rfl
    · exact absurd hkey (by decide)
    · exact absurd hkey (by decide)
    · rfl
  have hpruned := hiff.mpr ⟨huniform, .inl (PersistFile.holds_ofItems _)⟩
  refine ⟨report, s', hrun, hpruned, ?_⟩
  rw [hpruned.items]
  decide +kernel

/-- A stale and a fresh todo share their key: the job removes both. -/
theorem not_curateMemories_exact :
    ¬ ∀ (fromisoformat : PyStr → Option DateTime) (now : Int) (s : MemoryService Unit),
      s.file.Holds s.items → ∃ report s',
        curateMemories .asciiOnly .inert (isStale fromisoformat now) (fun _ => 0) .fileOnly
          (fun _ => .fileOnly [] []) s = .ok report s' ∧
        PrunedExactly (isStale fromisoformat now) s s' := by
  intro hall
  let s : MemoryService Unit := synced
    [todo "book" "2020-01-01T00:00:00+00:00", todo "pay" "2026-06-01T00:00:00+00:00"]
  obtain ⟨report, s', hrun, hexact⟩ := hall parseTwo june2 s (PersistFile.holds_ofItems _)
  obtain ⟨report', s'', hrun', hrem⟩ := removes_curateMemories .asciiOnly .inert (fun _ => 0)
    (isStale parseTwo june2) s (rfl : SearchEnv.fileOnly.postgres = _) rfl
    (fun _ => Env.quiet_fileOnly [] [])
  rw [hrun] at hrun'
  cases hrun'
  have hlen := congrArg List.length (hrem.items.symm.trans hexact.items)
  exact absurd hlen (by decide +kernel)

end Jobs

end VirtualPerson
