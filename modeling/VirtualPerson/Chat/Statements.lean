import VirtualPerson.Chat.OutputSafety

/-!
# The statements of names

What a sequence of `maybe_capture_user_name` calls leaves in the store, as a function of what was
said: the store refuses a name that it holds already, whoever states it.
-/

namespace VirtualPerson

set_option autoImplicit false

open Stateful

namespace NameCapture

variable {tr : TextRules} {p : NamePattern} {prev : Option Nat} {s g message name : PyStr} {c : Nat}

/-- The marks that `stripMarks` strips. -/
def isMark : Nat → Bool := PyStr.oneOf "\"'，。,.!！?？:： "

theorem mem_matchAt (h : matchAt tr p prev s = some g) (hc : c ∈ g) :
    p.first c = true ∨ p.rest c = true := by
  unfold matchAt at h
  dsimp only at h
  split at h
  · cases h
  · split at h
    · cases h
    · split at h
      · rename_i hfirst
        cases h
        rcases List.mem_cons.mp hc with rfl | hc
        · rw [Bool.and_eq_true] at hfirst
          exact Or.inl hfirst.2
        · exact Or.inr (List.mem_takeWhile_imp (List.mem_of_mem_take hc))
      · cases h

theorem mem_search (h : search tr p prev s = some g) (hc : c ∈ g) :
    p.first c = true ∨ p.rest c = true := by
  induction s generalizing prev with
  | nil => exact mem_matchAt h hc
  | cons d s ih =>
    rcases Option.or_eq_some_iff.mp h with h | ⟨-, h⟩
    · exact mem_matchAt h hc
    · exact ih h

theorem isMark_of_namePart (h : isNamePart c = true) (hspace : isSpace c = true) : isMark c = true := by
  have hc : c = 32 := by
    simp [isNamePart, isLetter, PyStr.oneOf, str, isSpace] at h hspace
    omega
  rw [hc]
  decide

theorem not_isSpace_of_hanOrWord (h : isHanOrWord c = true) : isSpace c = false := by
  rw [Bool.eq_false_iff]
  intro hspace
  simp [isHanOrWord, isLetter, PyStr.oneOf, str, isSpace] at h hspace
  omega

/-- The one space that a pattern takes into a name is a mark. -/
theorem isMark_of_pattern (hp : p ∈ patterns) (h : p.first c = true ∨ p.rest c = true)
    (hspace : isSpace c = true) : isMark c = true := by
  have henglish (hfirst : isLetter c = true ∨ isNamePart c = true) : isMark c = true := by
    rcases hfirst with hc | hc
    · exact isMark_of_namePart (by rw [isNamePart, hc]; rfl) hspace
    · exact isMark_of_namePart hc hspace
  have hchinese (hfirst : isHanOrWord c = true ∨ isHanOrWord c = true) : isMark c = true := by
    rw [not_isSpace_of_hanOrWord (hfirst.elim id id)] at hspace
    cases hspace
  simp only [patterns, List.mem_cons, List.not_mem_nil, or_false] at hp
  rcases hp with rfl | rfl | rfl | rfl | rfl | rfl
  · exact henglish h
  · exact henglish h
  · exact henglish h
  · exact henglish h
  · exact hchinese h
  · exact hchinese h

theorem head_stripMarks (h : (stripMarks g).head? = some c) : isMark c = false := by
  have hprefix : stripMarks g <+: g.dropWhile isMark := List.rdropWhile_prefix isMark _
  have hhead : (g.dropWhile isMark).head? = some c := by
    obtain ⟨rest, hrest⟩ := hprefix
    rw [← hrest, List.head?_append, h]
    rfl
  have hnot := List.head?_dropWhile_not isMark g
  rwa [hhead] at hnot

theorem last_stripMarks (h : (stripMarks g).getLast? = some c) : isMark c = false := by
  have hne : (g.dropWhile isMark).rdropWhile isMark ≠ [] := by
    intro hnil
    rw [stripMarks] at h
    change ((g.dropWhile isMark).rdropWhile isMark).getLast? = some c at h
    rw [hnil] at h
    cases h
  have hlast := List.rdropWhile_last_not isMark (g.dropWhile isMark) hne
  have heq : ((g.dropWhile isMark).rdropWhile isMark).getLast hne = c := by
    have hsome := List.getLast?_eq_some_getLast hne
    exact Option.some.inj (hsome.symm.trans h)
  rw [heq] at hlast
  exact Bool.eq_false_iff.mpr hlast

theorem strip_stripMarks (h : ∀ c ∈ g, isSpace c = true → isMark c = true) :
    PyStr.strip (stripMarks g) = stripMarks g := by
  have hsub : ∀ c ∈ stripMarks g, c ∈ g := by
    intro c hc
    exact (List.dropWhile_sublist isMark).subset ((List.rdropWhile_prefix isMark _).subset hc)
  apply PyStr.strip_eq_self
  · intro c hc
    rw [Bool.eq_false_iff]
    intro hspace
    have hmark := head_stripMarks hc
    rw [h c (hsub c (List.mem_of_head? hc)) hspace] at hmark
    cases hmark
  · intro c hc
    rw [Bool.eq_false_iff]
    intro hspace
    have hmark := last_stripMarks hc
    rw [h c (hsub c (List.mem_of_getLast? hc)) hspace] at hmark
    cases hmark

/-- A captured name has no whitespace at its ends. -/
theorem strip_nameToStore (h : nameToStore tr message = some name) : PyStr.strip name = name := by
  unfold nameToStore at h
  cases hcaptured : captured tr message with
  | none =>
    rw [hcaptured] at h
    cases h
  | some n =>
    rw [hcaptured] at h
    dsimp only at h
    split at h
    · cases h
    · cases h
      obtain ⟨g, hg, rfl⟩ := Option.map_eq_some_iff.mp hcaptured
      obtain ⟨p, hp, hsearch⟩ := List.exists_of_findSome?_eq_some hg
      apply strip_stripMarks
      intro c hc hspace
      exact isMark_of_pattern hp (mem_search hsearch hc) hspace

end NameCapture

/-- The time that an accepted item has in the end: the row's, where both databases took it. -/
def Env.time (env : Env) : PyStr :=
  match env.postgres, env.neo4j with
  | .raises _, _ => env.now
  | _, .raises _ => env.now
  | answer, _ => PyStr.orElse ((answer.value none).getD []) env.now

namespace MemoryService

variable {V : Type} {cm : CaseMap} {vs : VectorStore V} {env : Env} {s : MemoryService V}

theorem items_append {item : MemoryItem} (h : item.createdAt = env.now) :
    (final (append vs env item s)).items = s.items ++ [{ item with createdAt := env.time }] := by
  have hself : { item with createdAt := env.now } = item := by rw [← h]
  unfold append flushPersisted Env.time
  cases env.postgres with
  | raises e =>
    rw [hself]
    rfl
  | _ =>
    cases env.neo4j with
    | raises e =>
      rw [hself]
      rfl
    | _ =>
      rw [← h]
      cases env.flushError <;> rfl

theorem active_write {kind key value : PyStr} {metadata : PyDict} :
    (final (write cm vs env kind key value metadata s)).index.isSome = s.index.isSome := by
  rw [write_eq]
  split
  · rfl
  · unfold append flushPersisted
    cases env.postgres with
    | raises e => rfl
    | _ =>
      cases env.neo4j with
      | raises e => rfl
      | _ => cases env.flushError <;> exact Option.isSome_map

end MemoryService

namespace Chat

variable {V : Type} {rt : ChatRuntime} {vs : VectorStore V} {s : ChatState V}

/-- A `maybe_capture_user_name` call. -/
structure Statement where
  env : NameEnv
  userId : PyStr
  message : PyStr

namespace Statement

/-- The name that the message yields -/
def stated (rt : ChatRuntime) (c : Statement) : PyStr :=
  (NameCapture.nameToStore rt.toTextRules c.message).getD []

/-- The call's message yields this name, which is no noise and can be recalled. -/
structure States (rt : ChatRuntime) (c : Statement) (name : PyStr) : Prop where
  captured : NameCapture.nameToStore rt.toTextRules c.message = some name
  long : 2 ≤ name.length
  valid : NameRecall.valid rt.cm name = true

theorem States.stated_eq {c : Statement} {n : PyStr} (h : c.States rt n) : c.stated rt = n := by
  rw [Statement.stated, h.captured]
  rfl

/-- What is stored of it -/
def stored (rt : ChatRuntime) (c : Statement) : MemoryItem :=
  { MemoryItem.new c.env.write.now c.env.write.uid (str "profile") (str "name") (c.stated rt)
      [(str "source", .str (str "chat_auto_extract")), (str "user_id", .str c.userId),
        (str "field", .str (str "name"))] with createdAt := c.env.write.time }

/-- The name is one of theirs, up to case and spacing. -/
def Repeats (rt : ChatRuntime) (c : Statement) (ds : List Statement) : Bool :=
  ds.any fun d => MemoryService.normalized rt.cm (d.stated rt) = MemoryService.normalized rt.cm (c.stated rt)

end Statement

/-- A statement is kept unless it repeats one of the last 200 kept. -/
def keep (rt : ChatRuntime) (ks : List Statement) (c : Statement) : List Statement :=
  if c.Repeats rt (ks.drop (ks.length - 200)) then ks else ks ++ [c]

def kept (rt : ChatRuntime) (cs : List Statement) : List Statement := cs.foldl (keep rt) []

/-- The entries of the statements that are kept -/
def remembered (rt : ChatRuntime) (cs : List Statement) : List MemoryItem :=
  (kept rt cs).map (Statement.stored rt)

def capture (rt : ChatRuntime) (vs : VectorStore V) (s : ChatState V) (c : Statement) : ChatState V :=
  final (maybeCaptureUserName rt vs c.env c.userId c.message s)

def captures (rt : ChatRuntime) (vs : VectorStore V) (cs : List Statement) (s : ChatState V) :
    ChatState V := cs.foldl (capture rt vs) s

def entries (s : ChatState V) : List MemoryItem := s.tools.world.memory.items

section Kept

variable {cs ks : List Statement} {c d : Statement}

theorem foldl_keep_sublist : (cs.foldl (keep rt) ks).Sublist (ks ++ cs) := by
  induction cs generalizing ks with
  | nil =>
    rw [List.append_nil]
    exact List.Sublist.refl ks
  | cons c cs ih =>
    have hstep : (keep rt ks c).Sublist (ks ++ [c]) := by
      unfold keep
      split
      · exact List.sublist_append_left ks [c]
      · exact List.Sublist.refl _
    rw [List.foldl_cons, List.append_cons]
    exact ih.trans (hstep.append_right cs)

theorem kept_sublist : (kept rt cs).Sublist cs := by
  have h : (cs.foldl (keep rt) []).Sublist ([] ++ cs) := foldl_keep_sublist
  exact h

theorem kept_subset (h : d ∈ kept rt cs) : d ∈ cs := kept_sublist.subset h

/-- As long as 200 are not exceeded every kept statement counts. -/
theorem keep_short (h : ks.length ≤ 200) : keep rt ks c = if c.Repeats rt ks then ks else ks ++ [c] := by
  rw [keep, Nat.sub_eq_zero_of_le h, List.drop_zero]

theorem foldl_keep_prefix : ks <+: cs.foldl (keep rt) ks := by
  induction cs generalizing ks with
  | nil => exact List.prefix_refl ks
  | cons c cs ih =>
    have hstep : ks <+: keep rt ks c := by
      unfold keep
      split
      · exact List.prefix_refl ks
      · exact List.prefix_append ks [c]
    rw [List.foldl_cons]
    exact hstep.trans ih

/-- A statement is kept whose name nobody has stated before. -/
theorem mem_kept_of_new {before after : List Statement}
    (h : ∀ d ∈ before, MemoryService.normalized rt.cm (d.stated rt) ≠
      MemoryService.normalized rt.cm (c.stated rt)) : c ∈ kept rt (before ++ c :: after) := by
  have hnew : c.Repeats rt ((kept rt before).drop ((kept rt before).length - 200)) = false := by
    rw [Statement.Repeats, List.any_eq_false]
    intro d hd
    rw [decide_eq_true_eq]
    exact h d (kept_subset (List.mem_of_mem_drop hd))
  have hkeep : keep rt (kept rt before) c = kept rt before ++ [c] := by
    rw [keep, hnew, if_neg Bool.false_ne_true]
  have hsplit : kept rt (before ++ c :: after) = after.foldl (keep rt) (kept rt before ++ [c]) := by
    rw [kept, List.foldl_append, List.foldl_cons, ← kept, hkeep]
  rw [hsplit]
  exact foldl_keep_prefix.subset (List.mem_append_right _ (List.mem_singleton_self c))

end Kept

theorem kindArg_profile (cm : CaseMap) : MemoryService.kindArg cm (str "profile") = str "profile" := by
  have hstrip : PyStr.strip (PyStr.orElse (str "profile") (str "note")) = str "profile" := by decide
  rw [MemoryService.kindArg, hstrip, cm.ascii _ (by decide)]
  decide

theorem memory_capture {c : Statement} {name : PyStr}
    (h : NameCapture.nameToStore rt.toTextRules c.message = some name) :
    (capture rt vs s c).tools.world.memory =
      final (MemoryService.write rt.cm vs c.env.write (str "profile") (str "name") name
        [(str "source", .str (str "chat_auto_extract")), (str "user_id", .str c.userId),
          (str "field", .str (str "name"))] s.tools.world.memory) := by
  unfold capture maybeCaptureUserName
  rw [h]
  dsimp only
  rw [final_bind]
  unfold onMemory zoom
  split
  · rename_i item t hwrite
    split at hwrite
    · rename_i item' m hrun
      cases hwrite
      rw [hrun]
      dsimp only
      cases PyDict.get? item.metadata (str "filtered") with
      | none => rfl
      | some v =>
        dsimp only
        split <;> rfl
    · cases hwrite
  · rename_i e t hwrite
    split at hwrite
    · cases hwrite
    · rename_i e' m hrun
      cases hwrite
      rw [hrun]
      rfl

/-- What is asked of a duplicate is asked of the names that are kept. -/
theorem isDuplicate_stored {ks : List Statement} {c : Statement} :
    MemoryService.isDuplicate rt.cm (ks.map (Statement.stored rt)) (str "profile") (str "name")
      (c.stated rt) = c.Repeats rt (ks.drop (ks.length - 200)) := by
  rw [MemoryService.isDuplicate, Statement.Repeats, List.any_reverse, List.length_map, ← List.map_drop,
    List.any_map]
  congr 1
  funext d
  rw [Bool.eq_iff_iff]
  simp only [Statement.stored, MemoryItem.new, Function.comp_apply, Bool.and_eq_true, decide_eq_true_iff,
    true_and]
  exact decide_eq_true_iff

/-- One call: a name that the store has is refused, any other is appended, exceptions included. -/
theorem entries_capture (vs : VectorStore V) {ks : List Statement} {c : Statement}
    {name : PyStr} (h : c.States rt name) (hs : entries s = ks.map (Statement.stored rt)) :
    entries (capture rt vs s c) = (keep rt ks c).map (Statement.stored rt) := by
  have hstrip : PyStr.strip name = name := NameCapture.strip_nameToStore h.captured
  have hkey : PyStr.strip (str "name") = str "name" := by decide
  have hnoise : MemoryService.isNoise (str "profile") (str "name") name = false := by
    have hlong := h.long
    have hne : name ≠ [] := by
      intro hnil
      rw [hnil] at hlong
      cases hlong
    unfold MemoryService.isNoise
    rw [hkey, hstrip]
    simp only [Bool.or_eq_false_iff, Bool.and_eq_false_iff, decide_eq_false_iff_not]
    refine ⟨⟨⟨by decide, hne⟩, by omega⟩, Or.inl (by decide)⟩
  have hduplicate : MemoryService.isDuplicate rt.cm (ks.map (Statement.stored rt)) (str "profile")
      (str "name") (c.stated rt) = c.Repeats rt (ks.drop (ks.length - 200)) := isDuplicate_stored
  rw [h.stated_eq] at hduplicate
  unfold entries at hs
  rw [entries, memory_capture h.captured, MemoryService.write_eq, kindArg_profile, hkey, hstrip,
    MemoryService.filtered, hnoise, Bool.false_or, hs, hduplicate, keep]
  split
  · exact hs
  · rw [MemoryService.items_append rfl, hs, List.map_append, ← h.stated_eq]
    rfl

/-- The store after any calls: the statements that were kept. -/
theorem entries_captures (vs : VectorStore V) {cs : List Statement} (hcs : ∀ c ∈ cs, ∃ n, c.States rt n)
    (hempty : entries s = []) : entries (captures rt vs cs s) = remembered rt cs := by
  have hfold : ∀ cs : List Statement, (∀ c ∈ cs, ∃ n, c.States rt n) → ∀ (ks : List Statement)
      (s : ChatState V), entries s = ks.map (Statement.stored rt) →
        entries (captures rt vs cs s) = (cs.foldl (keep rt) ks).map (Statement.stored rt) := by
    intro cs
    induction cs with
    | nil => exact fun _ _ _ hs => hs
    | cons c cs ih =>
      intro hcs ks s hs
      obtain ⟨n, hstates⟩ := hcs c List.mem_cons_self
      rw [List.foldl_cons]
      exact ih (fun d hd => hcs d (List.mem_cons_of_mem c hd)) _ _ (entries_capture vs hstates hs)
  exact hfold cs hcs [] s hempty

theorem active_captures (vs : VectorStore V) {cs : List Statement} (hcs : ∀ c ∈ cs, ∃ n, c.States rt n) :
    (captures rt vs cs s).tools.world.memory.index.isSome = s.tools.world.memory.index.isSome := by
  induction cs generalizing s with
  | nil => rfl
  | cons c cs ih =>
    obtain ⟨n, hstates⟩ := hcs c List.mem_cons_self
    have hone : (capture rt vs s c).tools.world.memory.index.isSome = s.tools.world.memory.index.isSome := by
      rw [memory_capture hstates.captured]
      exact MemoryService.active_write
    exact (ih fun d hd => hcs d (List.mem_cons_of_mem c hd)).trans hone

end Chat

end VirtualPerson
