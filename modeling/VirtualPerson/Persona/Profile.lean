import VirtualPerson.Python.JsonPrefix
import VirtualPerson.Python.JsonUtf8

/-!
# The persona file

`PersonaService` keeps a profile in memory and in `persona.json`, over restarts and over writes that are
cut short. A process may write the file, and may be killed while it does.
-/

namespace VirtualPerson

set_option autoImplicit false

/-- What the service holds: `PersonaProfile(**data)` checks the names of the fields and not the values. -/
structure StoredProfile where
  name : PyVal
  occupation : PyVal
  age : PyVal
  backstory : PyVal
  tone : PyVal
  values : PyVal
  boundaries : PyVal

/-- The text of the file; `garbled` is a file that is no UTF-8. -/
inductive ProfileFile where
  | missing
  | text (t : PyStr)
  | garbled

/-- The arguments of `PersonaService(...)` -/
structure PersonaArgs where
  name : PyStr
  occupation : PyStr
  age : Int
  backstory : Option PyStr

/-- The arguments of `update_profile` -/
structure ProfileUpdate where
  name : Option PyStr
  occupation : Option PyStr
  age : Option Int
  backstory : Option PyStr

namespace StoredProfile

def fields : List PyStr :=
  [str "name", str "occupation", str "age", str "backstory", str "tone", str "values", str "boundaries"]

/-- `PersonaProfile(**data)` -/
def ofData : PyVal → Option StoredProfile
  | .dict d =>
    if d.all fun e => fields.contains e.1 then do
      let name ← Assoc.get? d (str "name")
      let occupation ← Assoc.get? d (str "occupation")
      let age ← Assoc.get? d (str "age")
      let backstory ← Assoc.get? d (str "backstory")
      let tone ← Assoc.get? d (str "tone")
      let values ← Assoc.get? d (str "values")
      let boundaries ← Assoc.get? d (str "boundaries")
      return { name, occupation, age, backstory, tone, values, boundaries }
    else none
  | _ => none

/-- `asdict` -/
def asdict (p : StoredProfile) : PyVal :=
  .dict
    [(str "name", p.name), (str "occupation", p.occupation), (str "age", p.age),
      (str "backstory", p.backstory), (str "tone", p.tone), (str "values", p.values),
      (str "boundaries", p.boundaries)]

end StoredProfile

namespace PersonaService

def defaultBackstory : PyStr :=
  str "Ani is an AI companion persona with a simple character setup: " ++
    str "she presents herself as a 30-year-old waitress who is calm, observant, " ++
    str "and good at listening. She likes helping people organize messy days into " ++
    str "clear next steps."

/-- The profile that `__init__` builds from its arguments -/
def initial (args : PersonaArgs) : StoredProfile where
  name := .str args.name
  occupation := .str args.occupation
  age := .int args.age
  backstory := .str ((args.backstory.getD []).orElse defaultBackstory)
  tone := .str (str "warm, concise, emotionally steady")
  values := .list [.str (str "honesty"), .str (str "helpfulness"), .str (str "consistency")]
  boundaries :=
    .list [.str (str "no deception about AI identity"), .str (str "no manipulative behavior")]

/-- What `_load_if_exists` takes from the file; `none` leaves the profile as it is. -/
def loadIfExists : ProfileFile → Option StoredProfile
  | .missing => none
  | .garbled => none
  | .text t => (Json.loads t).bind StoredProfile.ofData

/-- `if name: self.profile.name = name`, and `if age is not None` -/
def assign (p : StoredProfile) (u : ProfileUpdate) : StoredProfile :=
  let p := if u.name.getD [] ≠ [] then { p with name := .str (u.name.getD []) } else p
  let p := if u.occupation.getD [] ≠ [] then { p with occupation := .str (u.occupation.getD []) } else p
  let p := match u.age with
    | some age => { p with age := .int age }
    | none => p
  match u.backstory with
  | some backstory => { p with backstory := .str backstory }
  | none => p

/-- What has reached the file when the process is killed in `write_text`: nothing yet, the first
characters, or a part that ends within a character. -/
inductive Cut where
  | before
  | after (n : Nat)
  | within

def Cut.leaves (old : ProfileFile) (t : PyStr) : Cut → ProfileFile
  | .before => old
  | .after n => .text (t.take n)
  | .within => .garbled

variable (repr : ℚ → PyStr)

/-- The text that `_save` hands to the file -/
def render (p : StoredProfile) : Option PyStr := Json.dumpsIndent repr false 2 0 p.asdict

/-- `_save`, and whether it returns: opening the file empties it, and a text that cannot be encoded raises
after that. -/
def save (p : StoredProfile) (file : ProfileFile) : ProfileFile × Bool :=
  match render repr p with
  | none => (file, false)
  | some t => if Json.encodable t then (.text t, true) else (.text [], false)

/-- The file after a kill in the midst of `_save` -/
def cutSave (p : StoredProfile) (file : ProfileFile) (cut : Cut) : ProfileFile :=
  match render repr p with
  | none => file
  | some t => cut.leaves file (if Json.encodable t then t else [])

end PersonaService

structure PersonaState where
  file : ProfileFile
  running : Option StoredProfile

inductive PersonaEvent where
  | start (args : PersonaArgs)
  | startCut (args : PersonaArgs) (cut : PersonaService.Cut)
  | update (u : ProfileUpdate)
  | updateCut (u : ProfileUpdate) (cut : PersonaService.Cut)
  | kill

namespace PersonaState

open PersonaService

/-- `__init__` up to its `_save` -/
def loaded (s : PersonaState) (args : PersonaArgs) : StoredProfile :=
  (loadIfExists s.file).getD (initial args)

def step (repr : ℚ → PyStr) (s : PersonaState) : PersonaEvent → PersonaState
  | .start args =>
    let (file, returned) := save repr (s.loaded args) s.file
    { file, running := if returned then some (s.loaded args) else none }
  | .startCut args cut => { file := cutSave repr (s.loaded args) s.file cut, running := none }
  | .update u =>
    match s.running with
    | none => s
    | some p => { file := (save repr (assign p u) s.file).1, running := some (assign p u) }
  | .updateCut u cut =>
    match s.running with
    | none => s
    | some p => { file := cutSave repr (assign p u) s.file cut, running := none }
  | .kill => { s with running := none }

end PersonaState

/-- The profile that the next start shall have, if one was kept, and the running one -/
structure PersonaMemory where
  kept : Option StoredProfile
  running : Option StoredProfile

namespace PersonaMemory

open PersonaService

/-- A profile that can be written is kept, and one that cannot takes the last one with it. -/
def keep (repr : ℚ → PyStr) (p : StoredProfile) : Option StoredProfile :=
  if (render repr p).any Json.encodable then some p else none

/-- A write that was cut keeps the old profile, the new one, or neither. -/
def keepCut (repr : ℚ → PyStr) (old : Option StoredProfile) (p : StoredProfile) : Cut → Option StoredProfile
  | .before => old
  | .after n => if ∀ t ∈ render repr p, t.length ≤ n then keep repr p else none
  | .within => none

def step (repr : ℚ → PyStr) (m : PersonaMemory) : PersonaEvent → PersonaMemory
  | .start args =>
    let p := m.kept.getD (initial args)
    { kept := keep repr p, running := keep repr p }
  | .startCut args cut => { kept := keepCut repr m.kept (m.kept.getD (initial args)) cut, running := none }
  | .update u =>
    match m.running with
    | none => m
    | some p => { kept := keep repr (assign p u), running := some (assign p u) }
  | .updateCut u cut =>
    match m.running with
    | none => m
    | some p => { kept := keepCut repr m.kept (assign p u) cut, running := none }
  | .kill => { m with running := none }

end PersonaMemory

def StoredProfile.Tidy (p : StoredProfile) : Prop := Json.Tidy p.asdict = true

namespace PersonaService

variable {repr : ℚ → PyStr} {p : StoredProfile} {t : PyStr}

theorem ofData_asdict (p : StoredProfile) : StoredProfile.ofData p.asdict = some p := rfl

theorem initial_tidy (args : PersonaArgs) : (initial args).Tidy := rfl

theorem tidy_iff : p.Tidy ↔ Json.tidyItems
    [p.name, p.occupation, p.age, p.backstory, p.tone, p.values, p.boundaries] = true := Iff.rfl

theorem assign_tidy (u : ProfileUpdate) (h : p.Tidy) : (assign p u).Tidy := by
  have hname {p : StoredProfile} (h : p.Tidy) (x : PyStr) : StoredProfile.Tidy { p with name := .str x } := by
    rw [tidy_iff, Json.tidyItems, Bool.and_eq_true] at h ⊢
    exact ⟨rfl, h.2⟩
  have hoccupation {p : StoredProfile} (h : p.Tidy) (x : PyStr) :
      StoredProfile.Tidy { p with occupation := .str x } := by
    simp only [tidy_iff, Json.tidyItems, Bool.and_eq_true] at h ⊢
    exact ⟨h.1, rfl, h.2.2⟩
  have hage {p : StoredProfile} (h : p.Tidy) (x : Int) : StoredProfile.Tidy { p with age := .int x } := by
    simp only [tidy_iff, Json.tidyItems, Bool.and_eq_true] at h ⊢
    exact ⟨h.1, h.2.1, rfl, h.2.2.2⟩
  have hbackstory {p : StoredProfile} (h : p.Tidy) (x : PyStr) :
      StoredProfile.Tidy { p with backstory := .str x } := by
    simp only [tidy_iff, Json.tidyItems, Bool.and_eq_true] at h ⊢
    exact ⟨h.1, h.2.1, h.2.2.1, rfl, h.2.2.2.2⟩
  have h₁ : StoredProfile.Tidy
      (if u.name.getD [] ≠ [] then { p with name := .str (u.name.getD []) } else p) := by
    split
    · exact hname h _
    · exact h
  have h₂ {p : StoredProfile} (h : p.Tidy) : StoredProfile.Tidy
      (if u.occupation.getD [] ≠ [] then { p with occupation := .str (u.occupation.getD []) } else p) := by
    split
    · exact hoccupation h _
    · exact h
  have h₃ {p : StoredProfile} (h : p.Tidy) : StoredProfile.Tidy
      (match u.age with
        | some age => { p with age := .int age }
        | none => p) := by
    split
    · exact hage h _
    · exact h
  unfold assign
  dsimp only
  split
  · exact hbackstory (h₃ (h₂ h₁)) _
  · exact h₃ (h₂ h₁)

theorem load_saved (hp : p.Tidy) (h : render repr p = some t) (ht : Json.encodable t = true) :
    loadIfExists (.text t) = some p := by
  rw [loadIfExists, Json.loads_encodable hp h ht, Option.bind_some, ofData_asdict]

/-- A part of the text of a profile is no profile. -/
theorem load_cut (hp : p.Tidy) (h : render repr p = some t) (ht : Json.encodable t = true) {n : Nat}
    (hn : n < t.length) : loadIfExists (.text (t.take n)) = none := by
  have hread := Json.loads_encodable hp h ht
  rw [render, StoredProfile.asdict, Json.dumpsIndent] at h
  obtain ⟨ts, -, rfl⟩ := Option.map_eq_some_iff.mp h
  cases n with
  | zero => rfl
  | succ n =>
    have hlen : n ≤ (Json.lines 2 0 ts).length := by
      simp at hn
      omega
    have hsplit : [0x7B] ++ Json.lines 2 0 ts ++ [0x7D] =
        0x7B :: (Json.lines 2 0 ts).take n ++ ((Json.lines 2 0 ts).drop n ++ [0x7D]) := by
      nth_rewrite 1 [← List.take_append_drop n (Json.lines 2 0 ts)]
      simp only [List.append_assoc, List.cons_append, List.nil_append]
    have htake : ([0x7B] ++ Json.lines 2 0 ts ++ [0x7D]).take (n + 1) =
        0x7B :: (Json.lines 2 0 ts).take n := by
      rw [List.append_assoc, List.singleton_append, List.take_succ_cons, List.take_append_of_le_length hlen]
    have hlast : ¬ Json.Space ((Json.lines 2 0 ts).drop n ++ [0x7D]) := fun hspace =>
      absurd (hspace 0x7D (List.mem_append_right _ List.mem_cons_self)) (by decide)
    rw [hsplit] at hread
    rw [loadIfExists, htake, Json.loads_cut (.inr (.inl rfl)) hlast hread, Option.bind_none]

theorem load_save (repr : ℚ → PyStr) (hp : p.Tidy) (file : ProfileFile) :
    loadIfExists (save repr p file).1 = PersonaMemory.keep repr p ∧
      (if (save repr p file).2 then some p else none) = PersonaMemory.keep repr p := by
  obtain ⟨t, ht⟩ := Json.Tidy.written repr false 2 0 p.asdict hp
  have hrender : render repr p = some t := ht
  simp only [save, PersonaMemory.keep, hrender, Option.any_some]
  split
  · rename_i henc
    exact ⟨load_saved hp hrender henc, rfl⟩
  · exact ⟨rfl, rfl⟩

theorem load_cutSave (repr : ℚ → PyStr) (hp : p.Tidy) (file : ProfileFile) (cut : Cut) :
    loadIfExists (cutSave repr p file cut) =
      PersonaMemory.keepCut repr (loadIfExists file) p cut := by
  obtain ⟨t, ht⟩ := Json.Tidy.written repr false 2 0 p.asdict hp
  have hrender : render repr p = some t := ht
  simp only [cutSave, hrender]
  cases cut with
  | before => rfl
  | within => rfl
  | after n =>
    simp only [Cut.leaves, PersonaMemory.keepCut, PersonaMemory.keep, hrender, Option.any_some,
      Option.mem_some_iff, forall_eq']
    by_cases henc : Json.encodable t = true
    · by_cases hlen : t.length ≤ n
      · rw [if_pos henc, if_pos henc, if_pos hlen, List.take_of_length_le hlen]
        exact load_saved hp hrender henc
      · rw [if_pos henc, if_neg hlen]
        exact load_cut hp hrender henc (Nat.lt_of_not_le hlen)
    · rw [if_neg henc, if_neg henc, ite_self, List.take_nil]
      rfl

end PersonaService

section Runs

open PersonaService

variable {repr : ℚ → PyStr} {s : PersonaState} {m : PersonaMemory}

/-- The file stands for what is kept. -/
structure Remembers (s : PersonaState) (m : PersonaMemory) : Prop where
  running : s.running = m.running
  kept : loadIfExists s.file = m.kept
  tidyKept : ∀ p ∈ m.kept, p.Tidy
  tidyRunning : ∀ p ∈ m.running, p.Tidy

theorem tidy_keep {p : StoredProfile} (hp : p.Tidy) : ∀ q ∈ PersonaMemory.keep repr p, q.Tidy := by
  intro q hq
  unfold PersonaMemory.keep at hq
  split at hq
  · cases hq
    exact hp
  · cases hq

theorem tidy_keepCut {old : Option StoredProfile} {p : StoredProfile} (hold : ∀ q ∈ old, q.Tidy) (hp : p.Tidy)
    (cut : Cut) : ∀ q ∈ PersonaMemory.keepCut repr old p cut, q.Tidy := by
  intro q hq
  cases cut with
  | before => exact hold q hq
  | within => cases hq
  | after n =>
    rw [PersonaMemory.keepCut] at hq
    split at hq
    · exact tidy_keep hp q hq
    · cases hq

theorem Remembers.loaded (h : Remembers s m) (args : PersonaArgs) :
    s.loaded args = m.kept.getD (initial args) ∧ (s.loaded args).Tidy := by
  have heq : s.loaded args = m.kept.getD (initial args) := by rw [PersonaState.loaded, h.kept]
  refine ⟨heq, ?_⟩
  rw [heq]
  cases hkept : m.kept with
  | none => exact initial_tidy args
  | some p => exact h.tidyKept p hkept

theorem Remembers.step (h : Remembers s m) (e : PersonaEvent) :
    Remembers (s.step repr e) (m.step repr e) := by
  have hnone : ∀ q ∈ (none : Option StoredProfile), q.Tidy := fun q hq => by cases hq
  cases e with
  | start args =>
    obtain ⟨heq, htidy⟩ := h.loaded args
    obtain ⟨hload, hrunning⟩ := load_save repr htidy s.file
    rw [heq] at hload hrunning htidy
    refine ⟨?_, ?_, tidy_keep htidy, tidy_keep htidy⟩
    · rw [PersonaState.step, heq]
      exact hrunning
    · rw [PersonaState.step, heq]
      exact hload
  | startCut args cut =>
    obtain ⟨heq, htidy⟩ := h.loaded args
    have hload := load_cutSave repr htidy s.file cut
    rw [heq, h.kept] at hload
    rw [heq] at htidy
    refine ⟨rfl, ?_, tidy_keepCut h.tidyKept htidy cut, hnone⟩
    rw [PersonaState.step, heq]
    exact hload
  | update u =>
    cases hm : m.running with
    | none =>
      rw [PersonaState.step, PersonaMemory.step, h.running, hm]
      exact h
    | some p =>
      have htidy := assign_tidy u (h.tidyRunning p hm)
      rw [PersonaState.step, PersonaMemory.step, h.running, hm]
      refine ⟨rfl, (load_save repr htidy s.file).1, tidy_keep htidy, fun q hq => ?_⟩
      cases hq
      exact htidy
  | updateCut u cut =>
    cases hm : m.running with
    | none =>
      rw [PersonaState.step, PersonaMemory.step, h.running, hm]
      exact h
    | some p =>
      have htidy := assign_tidy u (h.tidyRunning p hm)
      have hload := load_cutSave repr htidy s.file cut
      rw [h.kept] at hload
      rw [PersonaState.step, PersonaMemory.step, h.running, hm]
      exact ⟨rfl, hload, tidy_keepCut h.tidyKept htidy cut, hnone⟩
  | kill => exact ⟨rfl, h.kept, h.tidyKept, hnone⟩

theorem Remembers.run (h : Remembers s m) (es : List PersonaEvent) :
    Remembers (es.foldl (PersonaState.step repr) s) (es.foldl (PersonaMemory.step repr) m) := by
  induction es generalizing s m with
  | nil => exact h
  | cons e es ih => exact ih (h.step e)

/-- Through restarts, updates and kills the service behaves as one that remembers a profile: a write is kept
whole, and where it was cut, the next start has the old profile, the new one or the first one of all. -/
theorem persona_remembered (file : ProfileFile) (hfile : ∀ p ∈ loadIfExists file, p.Tidy)
    (es : List PersonaEvent) :
    let s := es.foldl (PersonaState.step repr) { file, running := none }
    let m := es.foldl (PersonaMemory.step repr) { kept := loadIfExists file, running := none }
    s.running = m.running ∧ loadIfExists s.file = m.kept := by
  intro s m
  have hstart : Remembers { file, running := none } { kept := loadIfExists file, running := none } :=
    ⟨rfl, rfl, hfile, fun q hq => by cases hq⟩
  have h : Remembers s m := hstart.run es
  exact ⟨h.running, h.kept⟩

theorem persona_remembered_named :
    ([.start ⟨str "Ani", str "waitress", 30, none⟩, .update ⟨some (str "Mia"), none, some 31, none⟩,
        .updateCut ⟨none, some (str "cook"), none, none⟩ (.after 7), .start ⟨str "Eve", [], 40, none⟩].foldl
      (PersonaState.step fun _ => []) ⟨.missing, none⟩).running =
    ([.start ⟨str "Ani", str "waitress", 30, none⟩, .update ⟨some (str "Mia"), none, some 31, none⟩,
        .updateCut ⟨none, some (str "cook"), none, none⟩ (.after 7), .start ⟨str "Eve", [], 40, none⟩].foldl
      (PersonaMemory.step fun _ => []) ⟨none, none⟩).running :=
  (persona_remembered .missing (fun p hp => by cases hp) _).1

end Runs

end VirtualPerson
