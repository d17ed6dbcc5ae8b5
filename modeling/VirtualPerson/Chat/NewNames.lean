import VirtualPerson.Chat.Statements

/-!
# The statements that bring in a name

As long as no more than 200 different names are stated, those statements are kept whose name nobody
has stated before.
-/

namespace VirtualPerson

set_option autoImplicit false

namespace Chat

variable {rt : ChatRuntime}

/-- `d` is kept after `c`. -/
def Later (ks : List Statement) (c d : Statement) : Prop := [c, d].Sublist ks

/-- The names are at most 200, up to case and spacing. -/
def FewNames (rt : ChatRuntime) (cs : List Statement) : Prop :=
  ∃ names : List PyStr, names.length ≤ 200 ∧
    ∀ c ∈ cs, MemoryService.normalized rt.cm (c.stated rt) ∈ names

/-- The statement at `i` brings in its name: none before it has the same, up to case and spacing. -/
structure BringsIn (rt : ChatRuntime) (cs : List Statement) (i : Nat) (c : Statement) : Prop where
  stated : cs[i]? = some c
  new : ∀ d ∈ cs.take i, MemoryService.normalized rt.cm (d.stated rt) ≠
    MemoryService.normalized rt.cm (c.stated rt)

section Introduced

variable {cs ks : List Statement} {c d : Statement} {i j : Nat}

theorem fewNames_of_length (h : cs.length ≤ 200) : FewNames rt cs := by
  refine ⟨cs.map fun c => MemoryService.normalized rt.cm (c.stated rt), ?_, ?_⟩
  · rw [List.length_map]
    exact h
  · exact fun c hc => List.mem_map_of_mem hc

theorem kept_concat : kept rt (cs ++ [c]) = keep rt (kept rt cs) c := by
  rw [kept, List.foldl_append, List.foldl_cons, List.foldl_nil, ← kept]

theorem Statement.repeats_iff : c.Repeats rt ks = true ↔
    ∃ d ∈ ks, MemoryService.normalized rt.cm (d.stated rt) =
      MemoryService.normalized rt.cm (c.stated rt) := by
  simp only [Statement.Repeats, List.any_eq_true, decide_eq_true_eq]

theorem FewNames.of_concat (h : FewNames rt (cs ++ [c])) : FewNames rt cs := by
  obtain ⟨names, hlength, hnames⟩ := h
  exact ⟨names, hlength, fun d hd => hnames d (List.mem_append_left _ hd)⟩

/-- Of few names each is kept once. -/
structure Once (rt : ChatRuntime) (cs ks : List Statement) : Prop where
  nodup : (ks.map fun k => MemoryService.normalized rt.cm (k.stated rt)).Nodup
  all : ∀ d ∈ cs, ∃ k ∈ ks, MemoryService.normalized rt.cm (k.stated rt) =
    MemoryService.normalized rt.cm (d.stated rt)

theorem Once.length_le (h : Once rt cs ks) (hsub : ks ⊆ cs) (hfew : FewNames rt cs) : ks.length ≤ 200 := by
  obtain ⟨names, hlength, hnames⟩ := hfew
  have hmem : (ks.map fun k => MemoryService.normalized rt.cm (k.stated rt)) ⊆ names := by
    intro name hname
    obtain ⟨k, hk, rfl⟩ := List.mem_map.mp hname
    exact hnames k (hsub hk)
  have hle := (List.subperm_of_subset h.nodup hmem).length_le
  rw [List.length_map] at hle
  omega

theorem keep_of_once (h : Once rt cs (kept rt cs)) (hfew : FewNames rt cs) :
    keep rt (kept rt cs) c = if c.Repeats rt (kept rt cs) then kept rt cs else kept rt cs ++ [c] :=
  keep_short (h.length_le (fun _ => kept_subset) hfew)

theorem once_kept (hfew : FewNames rt cs) : Once rt cs (kept rt cs) := by
  induction cs using List.reverseRecOn with
  | nil => exact ⟨List.nodup_nil, fun d hd => absurd hd List.not_mem_nil⟩
  | append_singleton cs c ih =>
    have honce := ih hfew.of_concat
    rw [kept_concat, keep_of_once honce hfew.of_concat]
    split
    · rename_i hrepeats
      refine ⟨honce.nodup, ?_⟩
      intro d hd
      rcases List.mem_append.mp hd with hd | hd
      · exact honce.all d hd
      · rw [List.mem_singleton.mp hd]
        exact Statement.repeats_iff.mp hrepeats
    · rename_i hnew
      constructor
      · rw [List.map_append, List.map_singleton, List.nodup_append]
        refine ⟨honce.nodup, List.nodup_singleton _, ?_⟩
        intro name hname name' hname' heq
        obtain ⟨k, hk, rfl⟩ := List.mem_map.mp hname
        rw [List.mem_singleton.mp hname'] at heq
        exact hnew (Statement.repeats_iff.mpr ⟨k, hk, heq⟩)
      · intro d hd
        rcases List.mem_append.mp hd with hd | hd
        · obtain ⟨k, hk, hname⟩ := honce.all d hd
          exact ⟨k, List.mem_append_left _ hk, hname⟩
        · rw [List.mem_singleton.mp hd]
          exact ⟨c, List.mem_append_right _ (List.mem_singleton_self c), rfl⟩

theorem BringsIn.lt (h : BringsIn rt cs i c) : i < cs.length := (List.getElem?_eq_some_iff.mp h.stated).1

/-- A name is brought in once. -/
theorem BringsIn.unique (hc : BringsIn rt cs i c) (hd : BringsIn rt cs j d)
    (h : MemoryService.normalized rt.cm (c.stated rt) = MemoryService.normalized rt.cm (d.stated rt)) :
    i = j := by
  have hmem {i j : Nat} {c : Statement} (hc : cs[i]? = some c) (hij : i < j) : c ∈ cs.take j := by
    apply List.mem_of_getElem?
    rw [List.getElem?_take_of_lt hij]
    exact hc
  rcases Nat.lt_trichotomy i j with hij | hij | hij
  · exact absurd h (hd.new c (hmem hc.stated hij))
  · exact hij
  · exact absurd h.symm (hc.new d (hmem hd.stated hij))

theorem bringsIn_concat : BringsIn rt (cs ++ [c]) i d ↔
    BringsIn rt cs i d ∨ (i = cs.length ∧ d = c) ∧ ∀ e ∈ cs, MemoryService.normalized rt.cm (e.stated rt) ≠
      MemoryService.normalized rt.cm (c.stated rt) := by
  rcases Nat.lt_trichotomy i cs.length with hi | rfl | hi
  · have hne : ¬ (i = cs.length ∧ d = c) := fun h => absurd h.1 (Nat.ne_of_lt hi)
    simp only [hne, false_and, or_false]
    constructor
    · intro h
      have hstated := h.stated
      have hnew := h.new
      rw [List.getElem?_append_left hi] at hstated
      rw [List.take_append_of_le_length (Nat.le_of_lt hi)] at hnew
      exact ⟨hstated, hnew⟩
    · intro h
      refine ⟨?_, ?_⟩
      · rw [List.getElem?_append_left hi]
        exact h.stated
      · rw [List.take_append_of_le_length (Nat.le_of_lt hi)]
        exact h.new
  · constructor
    · intro h
      have hstated := h.stated
      have hnew := h.new
      rw [List.getElem?_concat_length, Option.some_inj] at hstated
      rw [List.take_left] at hnew
      subst hstated
      exact .inr ⟨⟨rfl, rfl⟩, hnew⟩
    · rintro (h | ⟨⟨-, rfl⟩, hnew⟩)
      · exact absurd h.lt (Nat.lt_irrefl _)
      · refine ⟨List.getElem?_concat_length, ?_⟩
        rw [List.take_left]
        exact hnew
  · apply iff_of_false
    · intro h
      have hlt := h.lt
      rw [List.length_append, List.length_singleton] at hlt
      omega
    · rintro (h | ⟨⟨rfl, -⟩, -⟩)
      · exact absurd h.lt (Nat.not_lt_of_gt hi)
      · exact Nat.lt_irrefl _ hi

theorem kept_concat_of_few (hfew : FewNames rt (cs ++ [c])) :
    kept rt (cs ++ [c]) = kept rt cs ∧ (∀ i d, BringsIn rt (cs ++ [c]) i d ↔ BringsIn rt cs i d) ∨
      kept rt (cs ++ [c]) = kept rt cs ++ [c] ∧
        ∀ i d, BringsIn rt (cs ++ [c]) i d ↔ BringsIn rt cs i d ∨ i = cs.length ∧ d = c := by
  have honce := once_kept hfew.of_concat
  rw [kept_concat, keep_of_once honce hfew.of_concat]
  split
  · rename_i hrepeats
    obtain ⟨k, hk, hname⟩ := Statement.repeats_iff.mp hrepeats
    refine .inl ⟨rfl, fun i d => ?_⟩
    rw [bringsIn_concat]
    exact ⟨fun h => h.resolve_right fun hlast => hlast.2 k (kept_subset hk) hname, .inl⟩
  · rename_i hnew
    refine .inr ⟨rfl, fun i d => ?_⟩
    rw [bringsIn_concat]
    have hall : ∀ e ∈ cs, MemoryService.normalized rt.cm (e.stated rt) ≠
        MemoryService.normalized rt.cm (c.stated rt) := by
      intro e he hname
      obtain ⟨k, hk, hsame⟩ := honce.all e he
      exact hnew (Statement.repeats_iff.mpr ⟨k, hk, hsame.trans hname⟩)
    rw [and_iff_left hall]

/-- Of few names those statements are kept that bring one in. -/
theorem mem_kept_iff (hfew : FewNames rt cs) : c ∈ kept rt cs ↔ ∃ i, BringsIn rt cs i c := by
  induction cs using List.reverseRecOn with
  | nil => exact ⟨fun h => absurd h List.not_mem_nil, fun ⟨i, h⟩ => absurd h.lt (Nat.not_lt_zero i)⟩
  | append_singleton cs d ih =>
    have ih := ih hfew.of_concat
    rcases kept_concat_of_few hfew with ⟨hkept, hbrings⟩ | ⟨hkept, hbrings⟩
    · simp only [hkept, hbrings, ih]
    · simp only [hkept, hbrings, List.mem_append, List.mem_singleton, ih]
      constructor
      · rintro (⟨i, h⟩ | rfl)
        · exact ⟨i, .inl h⟩
        · exact ⟨cs.length, .inr ⟨rfl, rfl⟩⟩
      · rintro ⟨i, h | ⟨-, rfl⟩⟩
        · exact .inl ⟨i, h⟩
        · exact .inr rfl

theorem later_concat {e : Statement} :
    Later (ks ++ [e]) c d ↔ Later ks c d ∨ c ∈ ks ∧ d = e := by
  constructor
  · intro h
    obtain ⟨l, l', hl, hleft, hright⟩ := List.sublist_append_iff.mp h
    rcases List.sublist_singleton.mp hright with rfl | rfl
    · rw [List.append_nil] at hl
      rw [← hl] at hleft
      exact .inl hleft
    · have hsplit : [c] ++ [d] = l ++ [e] := hl
      obtain ⟨hl, hd⟩ := List.append_inj' hsplit rfl
      rw [← hl] at hleft
      exact .inr ⟨List.singleton_sublist.mp hleft, List.singleton_inj.mp hd⟩
  · rintro (h | ⟨hc, rfl⟩)
    · exact h.trans (List.sublist_append_left ks [e])
    · exact (List.singleton_sublist.mpr hc).append (List.Sublist.refl [d])

/-- Of two of them the later one is that which brings in its name later. -/
theorem later_kept_iff (hfew : FewNames rt cs) :
    Later (kept rt cs) c d ↔ ∃ i j, i < j ∧ BringsIn rt cs i c ∧ BringsIn rt cs j d := by
  induction cs using List.reverseRecOn with
  | nil =>
    apply iff_of_false
    · intro h
      cases h
    · intro h
      obtain ⟨i, j, -, hc, -⟩ := h
      exact Nat.not_lt_zero i hc.lt
  | append_singleton cs e ih =>
    have ih := ih hfew.of_concat
    rcases kept_concat_of_few hfew with ⟨hkept, hbrings⟩ | ⟨hkept, hbrings⟩
    · simp only [hkept, hbrings, ih]
    · simp only [hkept, hbrings, later_concat, ih, mem_kept_iff hfew.of_concat]
      constructor
      · rintro (⟨i, j, hij, hc, hd⟩ | ⟨⟨i, hc⟩, rfl⟩)
        · exact ⟨i, j, hij, .inl hc, .inl hd⟩
        · exact ⟨i, cs.length, hc.lt, .inl hc, .inr ⟨rfl, rfl⟩⟩
      · rintro ⟨i, j, hij, hc | ⟨rfl, rfl⟩, hd | ⟨rfl, rfl⟩⟩
        · exact .inl ⟨i, j, hij, hc, hd⟩
        · exact .inr ⟨⟨i, hc⟩, rfl⟩
        · exact absurd hij (Nat.not_lt_of_gt hd.lt)
        · exact absurd hij (Nat.lt_irrefl _)

end Introduced

end Chat

end VirtualPerson
