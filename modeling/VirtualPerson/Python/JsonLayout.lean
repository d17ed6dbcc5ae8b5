import VirtualPerson.Python.JsonRoundTrip

/-!
# The layout of a JSON text

White space between the tokens does not change what is read, so `json.dumps(indent=...)` is read
back as well.
-/

namespace VirtualPerson

set_option autoImplicit false

namespace Json

def Space (w : PyStr) : Prop := ∀ c ∈ w, isWs c = true

theorem space_nil : Space [] := by
  intro c hc
  cases hc

theorem space_blank : Space [0x20] := by
  intro c hc
  cases List.mem_singleton.mp hc
  rfl

theorem skipWs_space {w : PyStr} (hw : Space w) (s : PyStr) : skipWs (w ++ s) = skipWs s :=
  List.dropWhile_append_of_pos hw

/-- Neither a list nor a dict -/
def isScalar : PyVal → Bool
  | .list _ => false
  | .dict _ => false
  | _ => true

section Layout

variable (repr : ℚ → PyStr) (ascii : Bool)

/-- An entry with the given white space around its colon -/
def spacedEntry (k w w' t : PyStr) : PyStr := quote ascii k ++ (w ++ 0x3A :: (w' ++ t))

mutual

/-- The texts of a value, with any white space between their tokens -/
inductive Spells : PyVal → PyStr → Prop
  | scalar {v t} (hv : isScalar v = true) (h : dumps repr ascii v = some t) : Spells v t
  | emptyList {w} (hw : Space w) : Spells (.list []) ([0x5B] ++ w ++ [0x5D])
  | emptyDict {w} (hw : Space w) : Spells (.dict []) ([0x7B] ++ w ++ [0x7D])
  | list {vs t} (h : SpellsItems vs t) : Spells (.list vs) ([0x5B] ++ t ++ [0x5D])
  | dict {es t} (h : SpellsEntries es t) : Spells (.dict es) ([0x7B] ++ t ++ [0x7D])

inductive SpellsItems : List PyVal → PyStr → Prop
  | last {v w t w'} (hw : Space w) (hw' : Space w') (h : Spells v t) : SpellsItems [v] (w ++ t ++ w')
  | more {v vs w t w' ts} (hw : Space w) (hw' : Space w') (h : Spells v t) (hs : SpellsItems vs ts) :
    SpellsItems (v :: vs) (w ++ t ++ w' ++ [0x2C] ++ ts)

inductive SpellsEntries : List (PyStr × PyVal) → PyStr → Prop
  | last {k v w u u' t w'} (hw : Space w) (hu : Space u) (hu' : Space u') (hw' : Space w')
    (h : Spells v t) : SpellsEntries [(k, v)] (w ++ spacedEntry ascii k u u' t ++ w')
  | more {k v es w u u' t w' ts} (hw : Space w) (hu : Space u) (hu' : Space u') (hw' : Space w')
    (h : Spells v t) (hs : SpellsEntries es ts) :
    SpellsEntries ((k, v) :: es) (w ++ spacedEntry ascii k u u' t ++ w' ++ [0x2C] ++ ts)

end

end Layout

section Reading

variable {repr : ℚ → PyStr} {ascii : Bool}

theorem Spells.starts {v : PyVal} {t : PyStr} (hv : Exact repr v) (h : Spells repr ascii v t) : Starts t := by
  cases h with
  | scalar _ h => exact starts_of_dumps hv h
  | emptyList _ => exact ⟨_, _, rfl, by decide, by decide, by decide⟩
  | emptyDict _ => exact ⟨_, _, rfl, by decide, by decide, by decide⟩
  | list _ => exact ⟨_, _, rfl, by decide, by decide, by decide⟩
  | dict _ => exact ⟨_, _, rfl, by decide, by decide, by decide⟩

/-- Past the white space before them, the items start with no closing bracket. -/
theorem SpellsItems.skip {vs : List PyVal} {t : PyStr} (hv : exactItems repr vs)
    (h : SpellsItems repr ascii vs t) : ∃ t', Starts t' ∧ ∀ rest, skipWs (t ++ rest) = t' ++ rest := by
  cases h with
  | last hw hw' h =>
    rename_i v w s w'
    have hstarts : Starts (s ++ w') := by
      obtain ⟨c, s', rfl, hc⟩ := h.starts hv.1
      exact ⟨c, s' ++ w', rfl, hc⟩
    refine ⟨s ++ w', hstarts, fun rest => ?_⟩
    rw [List.append_assoc, List.append_assoc, skipWs_space hw, ← List.append_assoc, hstarts.skipWs]
  | more hw hw' h hs =>
    rename_i v vs w s w' ts
    have hstarts : Starts (s ++ (w' ++ [0x2C] ++ ts)) := by
      obtain ⟨c, s', rfl, hc⟩ := h.starts hv.1
      exact ⟨c, s' ++ (w' ++ [0x2C] ++ ts), rfl, hc⟩
    refine ⟨s ++ (w' ++ [0x2C] ++ ts), hstarts, fun rest => ?_⟩
    have htext : w ++ s ++ w' ++ [0x2C] ++ ts ++ rest = w ++ (s ++ (w' ++ [0x2C] ++ ts) ++ rest) := by
      simp only [List.append_assoc]
    rw [htext, skipWs_space hw, hstarts.skipWs]

theorem starts_spacedEntry (k u u' t : PyStr) : Starts (spacedEntry ascii k u u' t) :=
  ⟨0x22, _, rfl, by decide, by decide, by decide⟩

theorem entry_eq_spaced (k t : PyStr) : entry ascii k t = spacedEntry ascii k [] [0x20] t := by
  rw [entry, spacedEntry, List.append_assoc]
  rfl

theorem SpellsEntries.skip {es : List (PyStr × PyVal)} {t : PyStr}
    (h : SpellsEntries repr ascii es t) : ∃ t', Starts t' ∧ ∀ rest, skipWs (t ++ rest) = t' ++ rest := by
  cases h with
  | last hw hu hu' hw' h =>
    rename_i k v w u u' s w'
    have hstarts : Starts (spacedEntry ascii k u u' s ++ w') :=
      ⟨0x22, _, rfl, by decide, by decide, by decide⟩
    refine ⟨spacedEntry ascii k u u' s ++ w', hstarts, fun rest => ?_⟩
    rw [List.append_assoc, List.append_assoc, skipWs_space hw, ← List.append_assoc, hstarts.skipWs]
  | more hw hu hu' hw' h hs =>
    rename_i k v es w u u' s w' ts
    have hstarts : Starts (spacedEntry ascii k u u' s ++ (w' ++ [0x2C] ++ ts)) :=
      ⟨0x22, _, rfl, by decide, by decide, by decide⟩
    refine ⟨spacedEntry ascii k u u' s ++ (w' ++ [0x2C] ++ ts), hstarts, fun rest => ?_⟩
    have htext : w ++ spacedEntry ascii k u u' s ++ w' ++ [0x2C] ++ ts ++ rest =
        w ++ (spacedEntry ascii k u u' s ++ (w' ++ [0x2C] ++ ts) ++ rest) := by
      simp only [List.append_assoc]
    rw [htext, skipWs_space hw, hstarts.skipWs]

/-- What may stand behind a value: white space, and then a comma or a closing bracket -/
theorem ends_space {w : PyStr} (hw : Space w) {c : Nat} {s : PyStr} (hc : c = 0x2C ∨ c = 0x5D ∨ c = 0x7D) :
    Ends (w ++ c :: s) := by
  cases w with
  | nil => exact ends_cons hc
  | cons d w =>
    intro x hx
    cases hx
    have hd := hw d List.mem_cons_self
    simp only [isWs, Bool.or_eq_true, beq_iff_eq] at hd
    rcases hd with ((rfl | rfl) | rfl) | rfl <;> decide

theorem skipWs_then {w : PyStr} (hw : Space w) {c : Nat} (hc : isWs c = false) (s : PyStr) :
    skipWs (w ++ c :: s) = c :: s := by
  rw [skipWs_space hw, skipWs_cons hc]

theorem elements_end {n : Nat} {s w rest : PyStr} {v : PyVal} (hw : Space w)
    (hv : value n s = some (v, w ++ 0x5D :: rest)) : elements (n + 1) s = some ([v], rest) := by
  rw [elements, hv]
  simp only [Option.bind_eq_bind, Option.bind_some, skipWs_then hw (c := 0x5D) (by decide)]
  rfl

theorem elements_comma {n : Nat} {s w s' : PyStr} {v : PyVal} (hw : Space w)
    (hv : value n s = some (v, w ++ 0x2C :: s')) :
    elements (n + 1) s = (elements n (skipWs s')).map fun p => (v :: p.1, p.2) := by
  rw [elements, hv]
  simp only [Option.bind_eq_bind, Option.bind_some, skipWs_then hw (c := 0x2C) (by decide), expect_self]

theorem spacedEntry_append (k u u' t rest : PyStr) :
    spacedEntry ascii k u u' t ++ rest =
      0x22 :: (k.flatMap (escape ascii) ++ 0x22 :: (u ++ 0x3A :: (u' ++ (t ++ rest)))) := by
  simp [spacedEntry, quote]

section Members

variable {n : Nat} {k u u' t w : PyStr} {v : PyVal} (d : PyDict) (hk : Stable k = true) (hu : Space u)
  (hu' : Space u') (ht : Starts t) (hw : Space w)

include hk hu hu' ht hw

theorem members_end {rest : PyStr} (hv : value n (t ++ (w ++ 0x7D :: rest)) = some (v, w ++ 0x7D :: rest)) :
    members (n + 1) d (spacedEntry ascii k u u' t ++ (w ++ 0x7D :: rest)) =
      some (PyDict.set d k v, rest) := by
  have hws : skipWs (u' ++ (t ++ (w ++ 0x7D :: rest))) = t ++ (w ++ 0x7D :: rest) := by
    rw [skipWs_space hu', ht.skipWs]
  rw [spacedEntry_append, members]
  simp only [expect_self, Option.bind_eq_bind, Option.bind_some, scanString_quote ascii hk,
    skipWs_then hu (c := 0x3A) (by decide), hws, hv, skipWs_then hw (c := 0x7D) (by decide)]
  rfl

theorem members_comma {s' : PyStr} (hv : value n (t ++ (w ++ 0x2C :: s')) = some (v, w ++ 0x2C :: s')) :
    members (n + 1) d (spacedEntry ascii k u u' t ++ (w ++ 0x2C :: s')) =
      members n (PyDict.set d k v) (skipWs s') := by
  have hws : skipWs (u' ++ (t ++ (w ++ 0x2C :: s'))) = t ++ (w ++ 0x2C :: s') := by
    rw [skipWs_space hu', ht.skipWs]
  rw [spacedEntry_append, members]
  simp only [expect_self, Option.bind_eq_bind, Option.bind_some, scanString_quote ascii hk,
    skipWs_then hu (c := 0x3A) (by decide), hws, hv, skipWs_then hw (c := 0x2C) (by decide)]

end Members

/-- What reading a text of at most `n` characters comes to, for the three kinds of texts -/
structure ReadsAll (repr : ℚ → PyStr) (ascii : Bool) (n : Nat) : Prop where
  value : ∀ {v t r}, Spells repr ascii v t → Exact repr v → t.length ≤ n → Ends r →
    value n (t ++ r) = some (v, r)
  items : ∀ {vs t r}, SpellsItems repr ascii vs t → exactItems repr vs → t.length < n →
    elements n (skipWs (t ++ 0x5D :: r)) = some (vs, r)
  entries : ∀ {es t r d}, SpellsEntries repr ascii es t → exactEntries repr es →
    ((d ++ es).map Prod.fst).Nodup → t.length < n →
    members n d (skipWs (t ++ 0x7D :: r)) = some (d ++ es, r)

theorem value_emptyList (n : Nat) {w : PyStr} (hw : Space w) (rest : PyStr) :
    Json.value (n + 1) (0x5B :: (w ++ 0x5D :: rest)) = some (.list [], rest) := by
  rw [Json.value.eq_def]
  simp only [skipWs_then hw (c := 0x5D) (by decide), expect_self]
  rfl

theorem value_emptyDict (n : Nat) {w : PyStr} (hw : Space w) (rest : PyStr) :
    Json.value (n + 1) (0x7B :: (w ++ 0x7D :: rest)) = some (.dict [], rest) := by
  rw [Json.value.eq_def]
  simp only [skipWs_then hw (c := 0x7D) (by decide), expect_self]
  rfl

theorem value_items (n : Nat) {s t : PyStr} (hs : skipWs s = t) (ht : expect 0x5D t = none) :
    Json.value (n + 1) (0x5B :: s) = (elements n t).map fun p => (.list p.1, p.2) := by
  rw [Json.value.eq_def]
  simp only [hs, ht]
  rfl

theorem value_entries (n : Nat) {s t : PyStr} (hs : skipWs s = t) (ht : expect 0x7D t = none) :
    Json.value (n + 1) (0x7B :: s) = (members n [] t).map fun p => (.dict p.1, p.2) := by
  rw [Json.value.eq_def]
  simp only [hs, ht]
  rfl

namespace ReadsAll

variable {n : Nat}

theorem value_step (h : ReadsAll repr ascii n) {v : PyVal} {t rest : PyStr} (hs : Spells repr ascii v t)
    (hv : Exact repr v) (hn : t.length ≤ n + 1) (hrest : Ends rest) :
    Json.value (n + 1) (t ++ rest) = some (v, rest) := by
  cases hs with
  | scalar _ hd => exact value_dumps repr ascii v hv hd hn hrest
  | emptyList hw =>
    rw [List.append_assoc, List.append_assoc]
    exact value_emptyList n hw rest
  | emptyDict hw =>
    rw [List.append_assoc, List.append_assoc]
    exact value_emptyDict n hw rest
  | list hs =>
    rename_i vs s
    obtain ⟨s', hstarts, hskip⟩ := hs.skip hv
    have hread := h.items (r := rest) hs hv (by simp at hn; omega)
    have hnone := (hstarts.expect (0x5D :: rest)).1
    rw [hskip] at hread
    rw [List.append_assoc, List.append_assoc]
    exact (value_items n (hskip (0x5D :: rest)) hnone).trans (by rw [hread, Option.map_some])
  | dict hs =>
    rename_i es s
    obtain ⟨s', hstarts, hskip⟩ := hs.skip
    have hread := h.entries (r := rest) (d := []) hs hv.2 hv.1 (by simp at hn; omega)
    have hnone := (hstarts.expect (0x7D :: rest)).2
    rw [hskip] at hread
    rw [List.append_assoc, List.append_assoc]
    exact (value_entries n (hskip (0x7D :: rest)) hnone).trans
      (by rw [hread, Option.map_some, List.nil_append])

theorem items_step (h : ReadsAll repr ascii n) {vs : List PyVal} {t rest : PyStr}
    (hs : SpellsItems repr ascii vs t) (hv : exactItems repr vs) (hn : t.length < n + 1) :
    elements (n + 1) (skipWs (t ++ 0x5D :: rest)) = some (vs, rest) := by
  cases hs with
  | last hw hw' hs =>
    rename_i v w s w'
    have hlen : s.length ≤ n := by
      simp only [List.length_append] at hn
      omega
    have hread := h.value hs hv.1 hlen (ends_space hw' (.inr (.inl rfl)) (s := rest))
    rw [List.append_assoc, List.append_assoc, skipWs_space hw, (hs.starts hv.1).skipWs]
    exact elements_end hw' hread
  | more hw hw' hs htail =>
    rename_i v vs w s w' ts
    simp only [List.length_append, List.length_cons, List.length_nil] at hn
    have hread := h.value hs hv.1 (by omega) (ends_space hw' (.inl rfl) (s := ts ++ 0x5D :: rest))
    have hrest := h.items (r := rest) htail hv.2 (by omega)
    have htext : w ++ s ++ w' ++ [0x2C] ++ ts ++ 0x5D :: rest =
        w ++ (s ++ (w' ++ 0x2C :: (ts ++ 0x5D :: rest))) := by
      simp only [List.append_assoc, List.cons_append, List.nil_append]
    rw [htext, skipWs_space hw, (hs.starts hv.1).skipWs, elements_comma hw' hread, hrest, Option.map_some]

theorem entries_step (h : ReadsAll repr ascii n) {es : List (PyStr × PyVal)} {t rest : PyStr} {d : PyDict}
    (hs : SpellsEntries repr ascii es t) (hv : exactEntries repr es) (hkeys : ((d ++ es).map Prod.fst).Nodup)
    (hn : t.length < n + 1) : members (n + 1) d (skipWs (t ++ 0x7D :: rest)) = some (d ++ es, rest) := by
  have hset {k : PyStr} {v : PyVal} {es : List (PyStr × PyVal)}
      (hkeys : ((d ++ (k, v) :: es).map Prod.fst).Nodup) : PyDict.set d k v = d ++ [(k, v)] := by
    apply set_of_notMem
    rw [List.map_append, List.map_cons] at hkeys
    intro hmem
    exact (List.nodup_append.mp hkeys).2.2 k hmem k List.mem_cons_self rfl
  have hentry (k u u' s : PyStr) : s.length ≤ (spacedEntry ascii k u u' s).length := by
    simp only [spacedEntry, List.length_append, List.length_cons]
    omega
  cases hs with
  | last hw hu hu' hw' hs =>
    rename_i k v w u u' s w'
    obtain ⟨hk, hval, -⟩ := hv
    have hlen := hentry k u u' s
    simp only [List.length_append] at hn
    have hread := h.value hs hval (by omega) (ends_space hw' (.inr (.inr rfl)) (s := rest))
    rw [List.append_assoc, List.append_assoc, skipWs_space hw, (starts_spacedEntry k u u' s).skipWs,
      members_end d hk hu hu' (hs.starts hval) hw' hread, hset hkeys]
  | more hw hu hu' hw' hs htail =>
    rename_i k v es w u u' s w' ts
    obtain ⟨hk, hval, hmore⟩ := hv
    have hlen := hentry k u u' s
    simp only [List.length_append, List.length_cons, List.length_nil] at hn
    have hread := h.value hs hval (by omega) (ends_space hw' (.inl rfl) (s := ts ++ 0x7D :: rest))
    have hrest := h.entries (r := rest) (d := d ++ [(k, v)]) htail hmore (by simpa using hkeys) (by omega)
    have htext : w ++ spacedEntry ascii k u u' s ++ w' ++ [0x2C] ++ ts ++ 0x7D :: rest =
        w ++ (spacedEntry ascii k u u' s ++ (w' ++ 0x2C :: (ts ++ 0x7D :: rest))) := by
      simp only [List.append_assoc, List.cons_append, List.nil_append]
    rw [htext, skipWs_space hw, (starts_spacedEntry k u u' s).skipWs,
      members_comma d hk hu hu' (hs.starts hval) hw' hread, hset hkeys, hrest, List.append_assoc,
      List.singleton_append]

end ReadsAll

/-- The induction is on the fuel; a text needs as much of it as it has characters. -/
theorem readsAll (repr : ℚ → PyStr) (ascii : Bool) (n : Nat) : ReadsAll repr ascii n := by
  induction n with
  | zero =>
    refine ⟨fun hs hv hn _ => ?_, fun _ _ hn => absurd hn (Nat.not_lt_zero _),
      fun _ _ _ hn => absurd hn (Nat.not_lt_zero _)⟩
    obtain ⟨c, s, rfl, -⟩ := hs.starts hv
    cases hn
  | succ n ih => exact ⟨ih.value_step, ih.items_step, ih.entries_step⟩

/-- Whatever the layout of a text, `json.loads` returns what it spells. -/
theorem loads_of_spells {v : PyVal} {t : PyStr} (hv : Exact repr v) (h : Spells repr ascii v t) :
    loads t = some v := by
  have hws : skipWs t = t := by simpa using (h.starts hv).skipWs []
  have hread := (readsAll repr ascii (t.length + 1)).value h hv (Nat.le_succ _) ends_nil
  rw [List.append_nil] at hread
  rw [loads, hws, hread]
  rfl

end Reading

/-- A line break, and the indentation of the next line -/
def newline (indent level : Nat) : PyStr := 0x0A :: List.replicate (indent * level) 0x20

theorem space_newline (indent level : Nat) : Space (newline indent level) := by
  intro c hc
  rcases List.mem_cons.mp hc with rfl | hc
  · decide
  · rw [List.eq_of_mem_replicate hc]
    decide

section Indent

variable (repr : ℚ → PyStr) (ascii : Bool) (indent : Nat)

/-- The items between the brackets, each on a line of its own -/
def lines (level : Nat) (ts : List PyStr) : PyStr :=
  newline indent (level + 1) ++ List.intercalate ([0x2C] ++ newline indent (level + 1)) ts ++
    newline indent level

mutual

/-- `json.dumps(..., indent=indent)` at a level of the nesting -/
def dumpsIndent (level : Nat) : PyVal → Option PyStr
  | .list [] => some (str "[]")
  | .list (v :: vs) =>
    (dumpsIndentItems (level + 1) (v :: vs)).map fun ts => [0x5B] ++ lines indent level ts ++ [0x5D]
  | .dict [] => some (str "\x7b\x7d")
  | .dict (e :: es) =>
    (dumpsIndentEntries (level + 1) (e :: es)).map fun ts => [0x7B] ++ lines indent level ts ++ [0x7D]
  | v => dumps repr ascii v

def dumpsIndentItems (level : Nat) : List PyVal → Option (List PyStr)
  | [] => some []
  | v :: vs => do
    let t ← dumpsIndent level v
    let ts ← dumpsIndentItems level vs
    return t :: ts

def dumpsIndentEntries (level : Nat) : List (PyStr × PyVal) → Option (List PyStr)
  | [] => some []
  | (k, v) :: es => do
    let t ← dumpsIndent level v
    let ts ← dumpsIndentEntries level es
    return entry ascii k t :: ts

end

variable {repr ascii indent}

theorem lines_cons (level : Nat) (t t' : PyStr) (ts : List PyStr) :
    lines indent level (t :: t' :: ts) =
      newline indent (level + 1) ++ t ++ [] ++ [0x2C] ++ lines indent level (t' :: ts) := by
  simp only [lines, List.intercalate_cons_cons, List.append_assoc, List.nil_append]

theorem lines_singleton (level : Nat) (t : PyStr) :
    lines indent level [t] = newline indent (level + 1) ++ t ++ newline indent level := by
  rw [lines, List.intercalate_singleton]

theorem dumpsIndentItems_cons {level : Nat} {v : PyVal} {vs : List PyVal} {ts : List PyStr}
    (h : dumpsIndentItems repr ascii indent level (v :: vs) = some ts) :
    ∃ t ts', ts = t :: ts' ∧ dumpsIndent repr ascii indent level v = some t ∧
      dumpsIndentItems repr ascii indent level vs = some ts' := by
  rw [dumpsIndentItems] at h
  obtain ⟨t, ht, h⟩ := Option.bind_eq_some_iff.mp h
  obtain ⟨ts', hts, h⟩ := Option.bind_eq_some_iff.mp h
  cases h
  exact ⟨t, ts', rfl, ht, hts⟩

theorem dumpsIndentEntries_cons {level : Nat} {k : PyStr} {v : PyVal} {es : List (PyStr × PyVal)}
    {ts : List PyStr} (h : dumpsIndentEntries repr ascii indent level ((k, v) :: es) = some ts) :
    ∃ t ts', ts = entry ascii k t :: ts' ∧ dumpsIndent repr ascii indent level v = some t ∧
      dumpsIndentEntries repr ascii indent level es = some ts' := by
  rw [dumpsIndentEntries] at h
  obtain ⟨t, ht, h⟩ := Option.bind_eq_some_iff.mp h
  obtain ⟨ts', hts, h⟩ := Option.bind_eq_some_iff.mp h
  cases h
  exact ⟨t, ts', rfl, ht, hts⟩

mutual

theorem spells_dumpsIndent (level : Nat) (v : PyVal) {t : PyStr} (hv : Exact repr v)
    (h : dumpsIndent repr ascii indent level v = some t) : Spells repr ascii v t := by
  cases v with
  | list vs =>
    cases vs with
    | nil =>
      cases h
      exact .emptyList space_nil
    | cons v vs =>
      rw [dumpsIndent] at h
      obtain ⟨ts, hts, rfl⟩ := Option.map_eq_some_iff.mp h
      exact .list (spells_items level (v :: vs) (List.cons_ne_nil _ _) hv hts)
  | dict es =>
    cases es with
    | nil =>
      cases h
      exact .emptyDict space_nil
    | cons e es =>
      rw [dumpsIndent] at h
      obtain ⟨ts, hts, rfl⟩ := Option.map_eq_some_iff.mp h
      exact .dict (spells_entries level (e :: es) (List.cons_ne_nil _ _) hv.2 hts)
  | object id => cases h
  | _ => exact .scalar rfl h

theorem spells_items (level : Nat) (vs : List PyVal) {ts : List PyStr} (hne : vs ≠ [])
    (hv : exactItems repr vs) (h : dumpsIndentItems repr ascii indent (level + 1) vs = some ts) :
    SpellsItems repr ascii vs (lines indent level ts) := by
  cases vs with
  | nil => exact absurd rfl hne
  | cons v vs =>
    obtain ⟨t, ts', rfl, ht, hts⟩ := dumpsIndentItems_cons h
    have hfirst := spells_dumpsIndent (level + 1) v hv.1 ht
    cases vs with
    | nil =>
      cases hts
      rw [lines_singleton]
      exact .last (space_newline indent _) (space_newline indent _) hfirst
    | cons v' vs =>
      have hrest := spells_items level (v' :: vs) (List.cons_ne_nil _ _) hv.2 hts
      obtain ⟨t', ts'', rfl, -, -⟩ := dumpsIndentItems_cons hts
      rw [lines_cons]
      exact .more (space_newline indent _) space_nil hfirst hrest

theorem spells_entries (level : Nat) (es : List (PyStr × PyVal)) {ts : List PyStr} (hne : es ≠ [])
    (hv : exactEntries repr es) (h : dumpsIndentEntries repr ascii indent (level + 1) es = some ts) :
    SpellsEntries repr ascii es (lines indent level ts) := by
  cases es with
  | nil => exact absurd rfl hne
  | cons e es =>
    obtain ⟨k, v⟩ := e
    obtain ⟨t, ts', rfl, ht, hts⟩ := dumpsIndentEntries_cons h
    have hfirst := spells_dumpsIndent (level + 1) v hv.2.1 ht
    cases es with
    | nil =>
      cases hts
      rw [lines_singleton, entry_eq_spaced]
      exact .last (space_newline indent _) space_nil space_blank (space_newline indent _) hfirst
    | cons e' es =>
      have hrest := spells_entries level (e' :: es) (List.cons_ne_nil _ _) hv.2.2 hts
      obtain ⟨t', ts'', rfl, -, -⟩ := dumpsIndentEntries_cons hts
      rw [lines_cons, entry_eq_spaced]
      exact .more (space_newline indent _) space_nil space_blank space_nil hfirst hrest

end

/-- `json.loads(json.dumps(v, indent=indent))` is `v`. -/
theorem loads_dumpsIndent {v : PyVal} {t : PyStr} (hv : Exact repr v)
    (h : dumpsIndent repr ascii indent 0 v = some t) : loads t = some v :=
  loads_of_spells hv (spells_dumpsIndent 0 v hv h)

end Indent

end Json

end VirtualPerson
