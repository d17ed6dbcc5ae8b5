import VirtualPerson.Memory.Service
import VirtualPerson.Sql.Like

/-!
# Search in Postgres

`PostgresMemoryStore.search` filters its rows with `LIKE`; the service filters its items by
substring. The two conditions side by side, for rows and items with the same texts.
-/

namespace VirtualPerson

set_option autoImplicit false

/-- `%`, `_` and the backslash -/
def likeSyntax : LikeSyntax Nat where
  many := 0x25
  one := 0x5F
  escape := 0x5C
  many_ne_escape := by decide

/-- `str.lower` leaves what is lower case alone, the characters of its own results included. -/
structure CaseMap.Settled (cm : CaseMap) : Prop where
  lowered : ∀ s, ∀ c ∈ cm.lower s, cm.lower [c] = [c]
  fixed : ∀ s, (∀ c ∈ s, cm.lower [c] = [c]) → cm.lower s = s

namespace PostgresMemoryStore

/-- `f"%{query.lower()}%"` -/
def like (cm : CaseMap) (query : PyStr) : PyStr := 0x25 :: cm.lower query ++ [0x25]

/-- The `WHERE` condition of `search`; `LOWER` is `str.lower`. -/
def selects (cm : CaseMap) (query kind key value : PyStr) : Bool :=
  likeSyntax.like (cm.lower kind) (like cm query) || likeSyntax.like (cm.lower key) (like cm query) ||
    likeSyntax.like (cm.lower value) (like cm query)

/-- A query that is searched for as it stands: trimmed, and without special characters. -/
structure Literal (cm : CaseMap) (query : PyStr) : Prop where
  plain : ∀ c ∈ cm.lower query, ¬ likeSyntax.Special c
  trimmed : PyStr.strip (cm.lower query) = cm.lower query

section Search

variable {cm : CaseMap} {query s t : PyStr} {c : Nat}

theorem not_special_of_space (h : isSpace c = true) : ¬ likeSyntax.Special c := by
  rintro (rfl | rfl | rfl) <;> cases h

theorem weight_solid (s : PyStr) : likeSyntax.weight (PyStr.solid s) = likeSyntax.weight s := by
  induction s with
  | nil => rfl
  | cons c s ih =>
    by_cases hc : isSpace c = true
    · rw [LikeSyntax.weight_cons_plain (not_special_of_space hc), ← ih]
      simp [PyStr.solid, hc]
    · have hkeep : PyStr.solid (c :: s) = c :: PyStr.solid s := by simp [PyStr.solid, hc]
      simp only [hkeep, LikeSyntax.weight, ih]

theorem weight_strip (s : PyStr) : likeSyntax.weight (PyStr.strip s) = likeSyntax.weight s := by
  rw [← weight_solid, PyStr.solid_strip, weight_solid]

def uniform (t : PyStr) : MemoryItem :=
  { kind := t, key := t, value := t, createdAt := [], metadata := [], uid := [], source := [] }

theorem selects_uniform (ht : cm.lower t = t) :
    MemoryService.selects cm query (uniform t) = true ↔
      PyStr.strip (cm.lower query) = [] ∨ PyStr.strip (cm.lower query) <:+: t := by
  simp [MemoryService.selects, uniform, ht, PyStr.contains]

theorem where_uniform (ht : cm.lower t = t) :
    selects cm query t t t = true ↔
      likeSyntax.like t (like cm query) = true := by
  simp [selects, ht]

theorem Literal.selects_eq (h : Literal cm query) (i : MemoryItem) :
    selects cm query i.kind i.key i.value = MemoryService.selects cm query i := by
  have hlike (t : PyStr) : likeSyntax.like t (like cm query) =
      PyStr.contains t (cm.lower query) := by
    rw [Bool.eq_iff_iff, PyStr.contains, decide_eq_true_eq]
    exact LikeSyntax.like_infix h.plain
  rw [Bool.eq_iff_iff]
  simp only [selects, MemoryService.selects, hlike, h.trimmed, Bool.or_eq_true,
    decide_eq_true_eq]
  constructor
  · rintro ((hkind | hkey) | hvalue)
    · exact .inr hkind
    · exact .inl (.inl (.inr hkey))
    · exact .inl (.inr hvalue)
  · rintro (((hempty | hkey) | hvalue) | hkind)
    · rw [hempty]
      exact .inl (.inl (by simp [PyStr.contains]))
    · exact .inl (.inr hkey)
    · exact .inr hvalue
    · exact .inl (.inl hkind)

def filler : Nat := 0x61

theorem lower_ascii (h : c < 128) (hupper : ¬ (65 ≤ c ∧ c ≤ 90)) : cm.lower [c] = [c] := by
  rw [cm.ascii [c] (by simpa using h)]
  simp [hupper]

theorem plain_of_agree (hcm : cm.Settled)
    (h : ∀ i : MemoryItem,
      selects cm query i.kind i.key i.value = MemoryService.selects cm query i) :
    ∀ c ∈ cm.lower query, ¬ likeSyntax.Special c := by
  intro c hc hspecial
  have hfiller : ¬ likeSyntax.Special filler := by decide
  have hsample : cm.lower (likeSyntax.sample filler false (cm.lower query)) =
      likeSyntax.sample filler false (cm.lower query) := by
    apply hcm.fixed
    intro d hd
    rcases LikeSyntax.mem_sample hd with hd | rfl | rfl
    · exact hcm.lowered query d hd
    · exact lower_ascii (by decide) (by decide)
    · exact lower_ascii (by decide) (by decide)
  have hwhere := (where_uniform hsample).mpr (LikeSyntax.like_sample filler (cm.lower query))
  have hselects := (h (uniform _)).symm.trans hwhere
  rcases (selects_uniform hsample).mp hselects with hempty | hinfix
  · have hspace := PyStr.strip_eq_nil_iff.mp hempty
    exact not_special_of_space (PyStr.solid_eq_nil_iff.mp hspace c hc) hspecial
  · exact LikeSyntax.not_infix_sample hfiller ⟨c, hc, hspecial⟩ (weight_strip _) hinfix

theorem trimmed_of_agree (hcm : cm.Settled) (hplain : ∀ c ∈ cm.lower query, ¬ likeSyntax.Special c)
    (h : ∀ i : MemoryItem,
      selects cm query i.kind i.key i.value = MemoryService.selects cm query i) :
    PyStr.strip (cm.lower query) = cm.lower query := by
  have hsub : (PyStr.strip (cm.lower query)).Sublist (cm.lower query) :=
    (List.rdropWhile_prefix isSpace _).sublist.trans (List.dropWhile_sublist isSpace)
  have hlower : cm.lower (PyStr.strip (cm.lower query)) = PyStr.strip (cm.lower query) :=
    hcm.fixed _ fun c hc => hcm.lowered query c (hsub.subset hc)
  have hselects : MemoryService.selects cm query (uniform (PyStr.strip (cm.lower query))) = true :=
    (selects_uniform hlower).mpr (.inr (List.infix_refl _))
  have hwhere := (where_uniform hlower).mp ((h (uniform _)).trans hselects)
  have hinfix := (LikeSyntax.like_infix hplain).mp hwhere
  exact hsub.eq_of_length_le hinfix.length_le

end Search

/-- The two conditions select the same rows and items exactly for the queries that are trimmed and
hold no percent sign, underscore or backslash. -/
theorem search_agrees_iff (cm : CaseMap) (hcm : cm.Settled) (query : PyStr) :
    (∀ i : MemoryItem,
      selects cm query i.kind i.key i.value = MemoryService.selects cm query i) ↔
      Literal cm query := by
  constructor
  · intro h
    have hplain := plain_of_agree hcm h
    exact ⟨hplain, trimmed_of_agree hcm hplain h⟩
  · exact Literal.selects_eq

theorem settled_asciiOnly : CaseMap.asciiOnly.Settled := by
  constructor
  · intro s c hc
    obtain ⟨d, -, rfl⟩ := List.mem_map.mp hc
    by_cases hd : 65 ≤ d ∧ d ≤ 90
    · have hupper : ¬ d + 32 ≤ 90 := by omega
      simp [CaseMap.asciiOnly, hd, hupper]
    · simp [CaseMap.asciiOnly, hd]
  · intro s hs
    apply (List.map_congr_left (g := id) ?_).trans (List.map_id s)
    intro c hc
    exact List.head_eq_of_cons_eq (hs c hc)

theorem search_agrees_iff_tea :
    CaseMap.asciiOnly.Settled ∧
      ((∀ i : MemoryItem, selects .asciiOnly (str "Green tea") i.kind i.key i.value =
        MemoryService.selects .asciiOnly (str "Green tea") i) ↔
        Literal .asciiOnly (str "Green tea")) :=
  ⟨settled_asciiOnly, search_agrees_iff .asciiOnly settled_asciiOnly (str "Green tea")⟩

/-- An underscore in the query stands for any character of the row. -/
theorem not_search_agrees :
    ¬ ∀ (cm : CaseMap) (query : PyStr) (i : MemoryItem),
      selects cm query i.kind i.key i.value = MemoryService.selects cm query i := by
  intro hall
  have h := hall .asciiOnly (str "a_c") (uniform (str "abc"))
  revert h
  decide

end PostgresMemoryStore

end VirtualPerson
