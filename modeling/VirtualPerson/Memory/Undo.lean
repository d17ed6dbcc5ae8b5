import VirtualPerson.Memory.Recall

/-!
# Deleting what was written

`write` trims and lower-cases the kind and trims the key that it stores; `delete` compares both as
they are given.
-/

namespace VirtualPerson

set_option autoImplicit false

open Stateful

/-- The call of a service without databases, whose flush succeeds. -/
structure Env.Alone (env : Env) : Prop where
  postgres : env.postgres = .missing
  neo4j : env.neo4j = .missing
  flush : env.flushError = none

theorem Env.Alone.quiet {env : Env} (h : env.Alone) : env.Quiet where
  postgres e he := by
    rw [h.postgres] at he
    cases he
  neo4j e he := by
    rw [h.neo4j] at he
    cases he
  flush := h.flush

theorem Env.alone_fileOnly (now uid : PyStr) : (fileOnly now uid).Alone := ⟨rfl, rfl, rfl⟩

namespace MemoryService

variable {V : Type} {cm : CaseMap} {vs : VectorStore V} {env env' : Env} {senv : SearchEnv}
variable {kind key value query : PyStr} {metadata : PyDict} {i : MemoryItem}
variable {items keywordItems results : List MemoryItem} {s s' t : MemoryService V}

theorem mem_semanticSearch (h : semanticSearch senv items query keywordItems = some results)
    (hi : i ∈ results) : i ∈ keywordItems ∨ i ∈ items := by
  obtain ⟨-, hits, -, rfl⟩ := semanticSearch_eq_some h
  obtain ⟨sim, hsim⟩ := mem_rankedItems.mp hi
  rcases mem_candidates.mp ((keeps_ranked hits items keywordItems).mem _ hsim) with
    ⟨j, hj, -, heq⟩ | ⟨uid, sim', j, -, howner, -, heq⟩
  · cases heq
    exact .inl hj
  · cases heq
    exact .inr (owner_mem howner).1

/-- Without databases a search finds only stored items. -/
theorem mem_items_of_search (hpg : senv.postgres = .missing) (hneo : senv.neo4j = .missing)
    (h : search cm senv query s = .ok results t) (hi : i ∈ results) : i ∈ s.items := by
  have hkeyword : ∀ j ∈ merged senv.fresh (s.items.filter (selects cm query)) ([] ++ []), j ∈ s.items :=
    fun j hj => List.mem_of_mem_filter (Assoc.mem_of_mem_index hj)
  simp only [search, bind_run, get_run, hpg, hneo, call, pure_run] at h
  split at h
  · cases hranked : semanticSearch senv s.items query
        (merged senv.fresh (s.items.filter (selects cm query)) ([] ++ [])) with
    | some ranked =>
      rw [hranked] at h
      cases h
      rcases mem_semanticSearch hranked hi with hi | hi
      · exact hkeyword i hi
      · exact hi
    | none =>
      rw [hranked] at h
      cases h
      exact hkeyword i hi
  · cases h
    exact hkeyword i hi

/-- An accepted write appends the item it returns, under the normalised kind and key. -/
theorem accepted_write (h : write cm vs env kind key value metadata s = .ok i s')
    (haccepted : filtered cm s.items (kindArg cm kind) (PyStr.strip key) (PyStr.strip value) = false) :
    i.kind = kindArg cm kind ∧ i.key = PyStr.strip key ∧ i.value = PyStr.strip value ∧
      i.metadata = metadata ∧ s'.items = s.items ++ [i] := by
  rw [write_eq, haccepted, if_neg (by simp)] at h
  rw [append_quiet (quiet_of_append_ok h)] at h
  cases h
  exact ⟨rfl, rfl, rfl, rfl, rfl⟩

/-- Neither the service nor its file nor any search of it without databases has the item. -/
def Gone (cm : CaseMap) (i : MemoryItem) (t : MemoryService V) : Prop :=
  i ∉ t.items ∧ (∀ fresh, i ∉ t.file.load fresh) ∧
    ∀ (senv : SearchEnv) (query : PyStr) (results : List MemoryItem) (u : MemoryService V),
      senv.postgres = .missing → senv.neo4j = .missing →
        search cm senv query t = .ok results u → i ∉ results

theorem gone_iff (hfile : t.file = .ofItems t.items) : Gone cm i t ↔ i ∉ t.items := by
  constructor
  · intro h
    exact h.1
  · intro h
    refine ⟨h, fun fresh => ?_, fun senv query results u hpg hneo hrun hi => ?_⟩
    · rw [hfile, PersistFile.load_ofItems]
      exact h
    · exact h (mem_items_of_search hpg hneo hrun hi)

theorem named_iff : named kind key i = true ↔ i.kind = kind ∧ i.key = key := by
  unfold named
  rw [Bool.and_eq_true, decide_eq_true_iff, decide_eq_true_iff]

/-- A delete under the raw arguments of an accepted write, in any state that still holds the item,
answers `True` and removes it if and only if the kind and the key were normalised already. -/
theorem delete_undoes_write_iff (h : write cm vs env kind key value metadata s = .ok i s')
    (haccepted : filtered cm s.items (kindArg cm kind) (PyStr.strip key) (PyStr.strip value) = false)
    {later : MemoryService V} (hkept : i ∈ later.items) (henv' : env'.Alone) :
    (∃ t, delete vs env' kind key later = .ok true t ∧ Gone cm i t) ↔
      kindArg cm kind = kind ∧ PyStr.strip key = key := by
  obtain ⟨hkind, hkey, -⟩ := accepted_write h haccepted
  rw [delete_quiet henv'.quiet]
  constructor
  · intro hgone
    obtain ⟨t, heq, hnot, -⟩ := hgone
    rw [EStateM.Result.ok.injEq] at heq
    rw [← heq.2] at hnot
    have hnamed : named kind key i = true := by
      by_contra hother
      exact hnot (List.mem_filter.mpr ⟨hkept, by simpa using hother⟩)
    obtain ⟨hk, hk'⟩ := named_iff.mp hnamed
    exact ⟨hkind.symm.trans hk, hkey.symm.trans hk'⟩
  · intro hnormal
    have hnamed : named kind key i = true :=
      named_iff.mpr ⟨hkind.trans hnormal.1, hkey.trans hnormal.2⟩
    have hany : later.items.any (named kind key) = true := List.any_eq_true.mpr ⟨i, hkept, hnamed⟩
    rw [hany]
    refine ⟨_, rfl, (gone_iff rfl).mpr ?_⟩
    intro hi
    simpa [hnamed] using (List.mem_filter.mp hi).2

end MemoryService

open MemoryService

/-- `write("note", "city", "Lisbon")` as the first call. -/
def lisbon : MemoryItem := .new (str "t") (str "u1") (str "note") (str "city") (str "Lisbon") []

theorem delete_undoes_write_iff_city :
    ∃ t, delete VectorStore.inert (.fileOnly [] []) (str "note") (str "city") (synced [lisbon]) =
        .ok true t ∧ Gone .asciiOnly lisbon t := by
  have hwrite : write .asciiOnly VectorStore.inert (.fileOnly (str "t") (str "u1")) (str "note")
      (str "city") (str "Lisbon") [] (synced []) = .ok lisbon (synced [lisbon]) := rfl
  exact (delete_undoes_write_iff hwrite rfl List.mem_cons_self (Env.alone_fileOnly [] [])).mpr
    ⟨rfl, rfl⟩

/-- A key with a space around it is stored without it, and then not found. -/
theorem not_delete_undoes_write :
    ¬ ∀ (env env' : Env) (kind key value : PyStr) (metadata : PyDict) (i : MemoryItem)
      (s s' : MemoryService Unit), env.Alone → env'.Alone →
      write .asciiOnly .inert env kind key value metadata s = .ok i s' →
      filtered .asciiOnly s.items (kindArg .asciiOnly kind) (PyStr.strip key) (PyStr.strip value) = false →
      ∃ t, delete .inert env' kind key s' = .ok true t ∧ Gone .asciiOnly i t := by
  intro hall
  obtain ⟨t, heq, -⟩ := hall (.fileOnly (str "t") (str "u1")) (.fileOnly [] []) (str "note")
    (str " city") (str "Lisbon") [] lisbon (synced []) (synced [lisbon]) (Env.alone_fileOnly _ _)
    (Env.alone_fileOnly _ _) rfl rfl
  cases heq

end VirtualPerson
