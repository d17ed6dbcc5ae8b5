import VirtualPerson.Transition
import VirtualPerson.Ws.Turn

/-!
# Filler audio

`FillerAudioService`: one thread that makes the fillers of either language in advance, next to any
number of calls of `get_filler`. What a synthesis gives, and which phrase or option is chosen, is the
environment's.
-/

namespace VirtualPerson

set_option autoImplicit false

deriving instance DecidableEq for FillerLang

namespace FillerAudio

/-- `_FILLERS` -/
def fillers : FillerLang → List PyStr
  | .zhCN => [str "嗯...", str "好的...", str "让我想想...", str "这个嘛..."]
  | .en => [str "Hmm...", str "Let me think...", str "Well..."]

/-- The key of `_cache` that `get_filler(lang)` reads. -/
def langKey (lang : PyStr) : FillerLang := if (str "zh").isPrefixOf lang then .zhCN else .en

/-- What the two services would give: no primary one, or its answer, and that of the fallback. -/
structure Voices (Audio : Type) where
  primary : Option (Except PyExc Audio)
  fallback : Except PyExc Audio

variable {Audio : Type}

/-- `_synthesize_filler` -/
def synthesizeFiller (v : Voices Audio) : Except PyExc Audio :=
  match v.primary with
  | none => v.fallback
  | some (.ok audio) => .ok audio
  | some (.error e) => if e.isException then v.fallback else .error e

/-- Where `_pre_generate` stands: in the loop over the phrases of a language, or at its end. -/
inductive Generator (Audio : Type) where
  | phrases (lang : FillerLang) (todo : List PyStr) (generated : List Audio)
  | returned
  /-- An exception that `except Exception` does not catch has ended the thread. -/
  | died

inductive Caller (Audio : Type) where
  | idle
  /-- At the lock -/
  | asked (lang : FillerLang)
  /-- It found no options. -/
  | synthesizing (lang : FillerLang) (phrase : PyStr)
  | answered (lang : FillerLang) (answer : Except PyExc Audio)

structure State (Audio : Type) where
  cache : FillerLang → List Audio
  generator : Generator Audio
  caller : Nat → Caller Audio

inductive Label (Audio : Type) where
  | generate (lang : FillerLang) (phrase : PyStr) (voices : Voices Audio)
  | store (lang : FillerLang) (generated : List Audio)
  | getFiller (i : Nat) (lang : PyStr)
  | hit (i : Nat) (lang : FillerLang) (audio : Audio)
  | miss (i : Nat) (lang : FillerLang) (phrase : PyStr)
  | synthesize (i : Nat) (lang : FillerLang) (phrase : PyStr) (voices : Voices Audio)

/-- The dict's order: Chinese, then English. -/
def Generator.after : FillerLang → Generator Audio
  | .zhCN => .phrases .en (fillers .en) []
  | .en => .returned

/-- A list of the phrases whose synthesis returned -/
def Generator.collect (lang : FillerLang) (todo : List PyStr) (generated : List Audio)
    (answer : Except PyExc Audio) : Generator Audio :=
  match answer with
  | .ok audio => .phrases lang todo (generated ++ [audio])
  | .error e => if e.isException then .phrases lang todo generated else .died

def State.init : State Audio :=
  { cache := fun _ => [], generator := .phrases .zhCN (fillers .zhCN) [], caller := fun _ => .idle }

/-- `if generated: with self._lock: self._cache[lang] = generated` -/
def stored (cache : FillerLang → List Audio) (lang : FillerLang) (generated : List Audio) :
    FillerLang → List Audio :=
  if generated = [] then cache else Function.update cache lang generated

def State.setCaller (s : State Audio) (i : Nat) (c : Caller Audio) : State Audio :=
  { s with caller := Function.update s.caller i c }

inductive Step : State Audio → Label Audio → State Audio → Prop where
  | generate {s : State Audio} {lang : FillerLang} {phrase : PyStr} {todo : List PyStr}
      {generated : List Audio} (hgen : s.generator = .phrases lang (phrase :: todo) generated)
      (v : Voices Audio) :
      Step s (.generate lang phrase v)
        { s with generator := .collect lang todo generated (synthesizeFiller v) }
  | store {s : State Audio} {lang : FillerLang} {generated : List Audio}
      (hgen : s.generator = .phrases lang [] generated) :
      Step s (.store lang generated)
        { s with cache := stored s.cache lang generated, generator := .after lang }
  | getFiller {s : State Audio} {i : Nat} (hidle : s.caller i = .idle) (lang : PyStr) :
      Step s (.getFiller i lang) (s.setCaller i (.asked (langKey lang)))
  -- A list in the cache is replaced and never changed: choosing from it needs no lock.
  | hit {s : State Audio} {i : Nat} {lang : FillerLang} {audio : Audio}
      (hasked : s.caller i = .asked lang) (hmem : audio ∈ s.cache lang) :
      Step s (.hit i lang audio) (s.setCaller i (.answered lang (.ok audio)))
  | miss {s : State Audio} {i : Nat} {lang : FillerLang} {phrase : PyStr}
      (hasked : s.caller i = .asked lang) (hempty : s.cache lang = []) (hmem : phrase ∈ fillers lang) :
      Step s (.miss i lang phrase) (s.setCaller i (.synthesizing lang phrase))
  | synthesize {s : State Audio} {i : Nat} {lang : FillerLang} {phrase : PyStr}
      (hcall : s.caller i = .synthesizing lang phrase) (v : Voices Audio) :
      Step s (.synthesize i lang phrase v) (s.setCaller i (.answered lang (synthesizeFiller v)))

def system (Audio : Type) : System (State Audio) (Label Audio) where
  init s := s = .init
  step := Step

variable {s t : State Audio} {l : Label Audio} {ls ms : List (Label Audio)} {lang lang' : FillerLang}
variable {phrase : PyStr} {todo : List PyStr} {generated : List Audio} {v : Voices Audio} {i : Nat}
variable {cache : FillerLang → List Audio} {tries : List (PyStr × Voices Audio)}

/-- A phrase of the language that the thread has tried, and what the services gave. -/
def Label.attempt (lang : FillerLang) : Label Audio → Option (PyStr × Voices Audio)
  | .generate l phrase v => if l = lang then some (phrase, v) else none
  | _ => none

def attempts (ls : List (Label Audio)) (lang : FillerLang) : List (PyStr × Voices Audio) :=
  ls.filterMap (Label.attempt lang)

/-- The audio of the attempts whose synthesis returned -/
def made (tries : List (PyStr × Voices Audio)) : List Audio :=
  tries.filterMap fun a => (synthesizeFiller a.2).toOption

theorem attempts_concat : attempts (ls ++ [l]) lang = attempts ls lang ++ (l.attempt lang).toList := by
  unfold attempts
  rw [List.filterMap_append]
  cases h : l.attempt lang with
  | none => rw [List.filterMap_cons_none h, List.filterMap_nil, Option.toList_none]
  | some a => rw [List.filterMap_cons_some h, List.filterMap_nil, Option.toList_some]

theorem attempts_self :
    attempts (ls ++ [.generate lang phrase v]) lang = attempts ls lang ++ [(phrase, v)] := by
  rw [attempts_concat, Label.attempt, if_pos rfl, Option.toList_some]

theorem attempts_other (h : l.attempt lang = none) : attempts (ls ++ [l]) lang = attempts ls lang := by
  rw [attempts_concat, h, Option.toList_none, List.append_nil]

/-- The cache of a language holds what the attempts at all its phrases made. -/
structure Done (cache : FillerLang → List Audio) (tries : List (PyStr × Voices Audio))
    (lang : FillerLang) : Prop where
  phrases : tries.map Prod.fst = fillers lang
  cached : cache lang = made tries

/-- The thread is in the loop over the phrases of a language, of which these are still to be tried. -/
structure Ahead (cache : FillerLang → List Audio) (tries : List (PyStr × Voices Audio)) (lang : FillerLang)
    (todo : List PyStr) (generated : List Audio) : Prop where
  phrases : tries.map Prod.fst ++ todo = fillers lang
  collected : generated = made tries
  empty : cache lang = []

/-- How far the thread has come, and what the cache holds by then -/
def Standing (cache : FillerLang → List Audio) (tries : FillerLang → List (PyStr × Voices Audio)) :
    Generator Audio → Prop
  | .phrases .zhCN todo generated =>
    Ahead cache (tries .zhCN) .zhCN todo generated ∧ tries .en = [] ∧ cache .en = []
  | .phrases .en todo generated =>
    Done cache (tries .zhCN) .zhCN ∧ Ahead cache (tries .en) .en todo generated
  | .returned => ∀ lang, Done cache (tries lang) lang
  | .died => ∀ lang, cache lang ≠ [] → Done cache (tries lang) lang

theorem Standing.done {tries : FillerLang → List (PyStr × Voices Audio)} {g : Generator Audio}
    (h : Standing cache tries g) (hcache : cache lang ≠ []) : Done cache (tries lang) lang := by
  unfold Standing at h
  split at h
  · cases lang with
    | zhCN => exact absurd h.1.empty hcache
    | en => exact absurd h.2.2 hcache
  · cases lang with
    | zhCN => exact h.1
    | en => exact absurd h.2.empty hcache
  · exact h lang
  · exact h lang hcache

/-- One more attempt: its audio is collected, or its phrase is skipped, or it ends the thread. -/
theorem Ahead.next (h : Ahead cache tries lang (phrase :: todo) generated) (v : Voices Audio) :
    Generator.collect lang todo generated (synthesizeFiller v) = .died ∨
      ∃ more, Generator.collect lang todo generated (synthesizeFiller v) = .phrases lang todo more ∧
        Ahead cache (tries ++ [(phrase, v)]) lang todo more := by
  have hphrases : (tries ++ [(phrase, v)]).map Prod.fst ++ todo = fillers lang := by
    rw [← h.phrases, List.map_append, List.append_assoc]
    rfl
  have hmade : made (tries ++ [(phrase, v)]) = generated ++ (synthesizeFiller v).toOption.toList := by
    rw [h.collected, made, List.filterMap_append]
    cases hv : synthesizeFiller v <;> simp [hv, Except.toOption, made]
  cases hv : synthesizeFiller v with
  | ok audio =>
    right
    refine ⟨generated ++ [audio], rfl, hphrases, ?_, h.empty⟩
    rw [hmade, hv]
    rfl
  | error e =>
    unfold Generator.collect
    dsimp only
    split
    · right
      refine ⟨generated, rfl, hphrases, ?_, h.empty⟩
      rw [hmade, hv]
      exact (List.append_nil generated).symm
    · exact .inl rfl

theorem stored_self (h : generated ≠ []) : stored cache lang generated lang = generated := by
  rw [stored, if_neg h]
  exact Function.update_self lang generated cache

theorem stored_other (h : lang' ≠ lang) : stored cache lang generated lang' = cache lang' := by
  unfold stored
  split
  · rfl
  · exact Function.update_of_ne h generated cache

/-- After the last phrase of a language its cache is all that its attempts made. -/
theorem Ahead.store (h : Ahead cache tries lang [] generated) :
    Done (stored cache lang generated) tries lang := by
  constructor
  · rw [← h.phrases, List.append_nil]
  · rw [← h.collected]
    by_cases hnone : generated = []
    · rw [stored, if_pos hnone, h.empty, hnone]
    · exact stored_self hnone

theorem Done.store (h : Done cache tries lang') (hne : lang' ≠ lang) :
    Done (stored cache lang generated) tries lang' :=
  ⟨h.phrases, (stored_other hne).trans h.cached⟩

theorem standing_generate (h : Standing cache (attempts ls) (.phrases lang (phrase :: todo) generated)) :
    Standing cache (attempts (ls ++ [.generate lang phrase v]))
      (.collect lang todo generated (synthesizeFiller v)) := by
  cases lang with
  | zhCN =>
    obtain ⟨hahead, htries, hcache⟩ := h
    have hen : attempts (ls ++ [.generate .zhCN phrase v]) .en = [] := (attempts_other rfl).trans htries
    rcases hahead.next v with hdied | ⟨more, hmore, hnext⟩
    · -- the thread dies before it has stored anything
      rw [hdied]
      intro lang hne
      cases lang with
      | zhCN => exact absurd hahead.empty hne
      | en => exact absurd hcache hne
    · rw [hmore]
      refine ⟨?_, hen, hcache⟩
      rw [attempts_self]
      exact hnext
  | en =>
    obtain ⟨hdone, hahead⟩ := h
    have hzh : attempts (ls ++ [.generate .en phrase v]) .zhCN = attempts ls .zhCN := attempts_other rfl
    rcases hahead.next v with hdied | ⟨more, hmore, hnext⟩
    · rw [hdied]
      intro lang hne
      cases lang with
      | zhCN =>
        rw [hzh]
        exact hdone
      | en => exact absurd hahead.empty hne
    · rw [hmore]
      constructor
      · rw [hzh]
        exact hdone
      · rw [attempts_self]
        exact hnext

theorem standing_store {tries : FillerLang → List (PyStr × Voices Audio)}
    (h : Standing cache tries (.phrases lang [] generated)) :
    Standing (stored cache lang generated) tries (.after lang) := by
  cases lang with
  | zhCN =>
    obtain ⟨hahead, htries, hcache⟩ := h
    refine ⟨hahead.store, ?_, ?_, ?_⟩
    · rw [htries]
      rfl
    · rw [htries]
      rfl
    · rw [stored_other (by decide), hcache]
  | en =>
    obtain ⟨hdone, hahead⟩ := h
    intro lang
    cases lang with
    | zhCN => exact hdone.store (by decide)
    | en => exact hahead.store

/-- The thread's synthesis of a phrase of the language, or the call's own, has given this. -/
def Voiced (ls : List (Label Audio)) (i : Nat) (lang : FillerLang) (audio : Audio) : Prop :=
  ∃ phrase ∈ fillers lang, ∃ v : Voices Audio, synthesizeFiller v = .ok audio ∧
    (.generate lang phrase v ∈ ls ∨ .synthesize i lang phrase v ∈ ls)

/-- The call was `get_filler` of some `lang` with this key. -/
def Asked (ls : List (Label Audio)) (i : Nat) (lang : FillerLang) : Prop :=
  ∃ asked, .getFiller i asked ∈ ls ∧ langKey asked = lang

/-- What the run says of a call where it stands -/
def Placed (ls : List (Label Audio)) (i : Nat) : Caller Audio → Prop
  | .idle => True
  | .asked lang => Asked ls i lang
  | .synthesizing lang phrase => Asked ls i lang ∧ phrase ∈ fillers lang ∧ .miss i lang phrase ∈ ls
  | .answered lang (.ok audio) => Asked ls i lang ∧ Voiced ls i lang audio
  | .answered lang (.error e) =>
    Asked ls i lang ∧ ∃ phrase v, .synthesize i lang phrase v ∈ ls ∧ synthesizeFiller v = .error e

theorem Asked.mono (h : Asked ls i lang) : Asked (ls ++ [l]) i lang := by
  obtain ⟨asked, hmem, hkey⟩ := h
  exact ⟨asked, List.mem_append_left _ hmem, hkey⟩

theorem Voiced.mono {audio : Audio} (h : Voiced ls i lang audio) : Voiced (ls ++ [l]) i lang audio := by
  obtain ⟨phrase, hphrase, v, hv, hmem⟩ := h
  refine ⟨phrase, hphrase, v, hv, ?_⟩
  rcases hmem with hmem | hmem
  · exact .inl (List.mem_append_left _ hmem)
  · exact .inr (List.mem_append_left _ hmem)

theorem Placed.mono {c : Caller Audio} (h : Placed ls i c) : Placed (ls ++ [l]) i c := by
  cases c with
  | idle => trivial
  | asked lang => exact Asked.mono h
  | synthesizing lang phrase =>
    obtain ⟨hasked, hphrase, hmiss⟩ := h
    exact ⟨hasked.mono, hphrase, List.mem_append_left _ hmiss⟩
  | answered lang answer =>
    cases answer with
    | ok audio => exact ⟨h.1.mono, h.2.mono⟩
    | error e =>
      obtain ⟨hasked, phrase, v, hmem, hv⟩ := h
      exact ⟨hasked.mono, phrase, v, List.mem_append_left _ hmem, hv⟩

/-- What the cache of a language holds was made of its phrases. -/
theorem Done.voiced {audio : Audio} (h : Done cache (attempts ls lang) lang) (hmem : audio ∈ cache lang) :
    Voiced ls i lang audio := by
  rw [h.cached, made, List.mem_filterMap] at hmem
  obtain ⟨⟨phrase, v⟩, htry, hmade⟩ := hmem
  have hphrase : phrase ∈ fillers lang := by
    rw [← h.phrases]
    exact List.mem_map_of_mem (f := Prod.fst) htry
  obtain ⟨l, hl, hattempt⟩ := List.mem_filterMap.mp htry
  have hlabel : l = .generate lang phrase v := by
    cases l <;> simp only [Label.attempt, reduceCtorEq] at hattempt
    split at hattempt
    · cases hattempt
      subst lang
      rfl
    · cases hattempt
  refine ⟨phrase, hphrase, v, ?_, .inl (hlabel ▸ hl)⟩
  cases hv : synthesizeFiller v with
  | error e =>
    rw [hv] at hmade
    cases hmade
  | ok made =>
    rw [hv] at hmade
    cases hmade
    rfl

structure Inv (s : State Audio) (ls : List (Label Audio)) : Prop where
  standing : Standing s.cache (attempts ls) s.generator
  placed : ∀ i, Placed ls i (s.caller i)

theorem inv_init : Inv (.init : State Audio) [] := by
  constructor
  · exact ⟨⟨rfl, rfl, rfl⟩, rfl, rfl⟩
  · exact fun i => trivial

/-- A step of a call leaves the thread and the cache as they are. -/
theorem Inv.call (h : Inv s ls) (hl : ∀ lang, l.attempt lang = none) {c : Caller Audio}
    (hc : Placed (ls ++ [l]) i c) : Inv (s.setCaller i c) (ls ++ [l]) := by
  constructor
  · have htries : attempts (ls ++ [l]) = attempts ls := funext fun lang => attempts_other (hl lang)
    rw [htries]
    exact h.standing
  · intro j
    by_cases hj : j = i
    · subst j
      simpa [State.setCaller] using hc
    · simpa [State.setCaller, hj] using (h.placed j).mono

theorem inv_step (h : Inv s ls) (hst : Step s l t) : Inv t (ls ++ [l]) := by
  cases hst with
  | generate hgen v =>
    have hstanding := h.standing
    rw [hgen] at hstanding
    exact ⟨standing_generate hstanding, fun i => (h.placed i).mono⟩
  | @store lang generated hgen =>
    have hstanding := h.standing
    rw [hgen] at hstanding
    have htries : attempts (ls ++ [.store lang generated]) = attempts ls := funext fun _ => attempts_other rfl
    refine ⟨?_, fun i => (h.placed i).mono⟩
    rw [htries]
    exact standing_store hstanding
  | getFiller hidle asked =>
    exact h.call (fun _ => rfl) ⟨asked, by simp, rfl⟩
  | @hit i lang audio hasked hmem =>
    have hplaced := h.placed i
    rw [hasked] at hplaced
    have hdone := h.standing.done (List.ne_nil_of_mem hmem)
    exact h.call (fun _ => rfl) ⟨Asked.mono hplaced, (hdone.voiced hmem).mono⟩
  | @miss i lang phrase hasked hempty hmem =>
    have hplaced := h.placed i
    rw [hasked] at hplaced
    exact h.call (fun _ => rfl) ⟨Asked.mono hplaced, hmem, by simp⟩
  | @synthesize i lang phrase hcall v =>
    have hplaced := h.placed i
    rw [hcall] at hplaced
    obtain ⟨hasked, hphrase, -⟩ := hplaced
    refine h.call (fun _ => rfl) ?_
    cases hv : synthesizeFiller v with
    | ok audio => exact ⟨hasked.mono, phrase, hphrase, v, hv, .inr (by simp)⟩
    | error e => exact ⟨hasked.mono, phrase, v, by simp, hv⟩

/-- A step that makes fillers of a language, or finds none of them. -/
def Label.Remakes (lang : FillerLang) : Label Audio → Prop
  | .generate l _ _ => l = lang
  | .store l _ => l = lang
  | .miss _ l _ => l = lang
  | .synthesize _ l _ _ => l = lang
  | _ => False

/-- The step is the synthesis of a call that found no options before. -/
def Label.Late (before : List (Label Audio)) (lang : FillerLang) (l : Label Audio) : Prop :=
  ∃ i phrase v, l = .synthesize i lang phrase v ∧ .miss i lang phrase ∈ before

/-- The cache of a language is as it was stored, the thread is past the language, and a call that is
synthesizing for it found no options before. -/
structure Kept (before : List (Label Audio)) (lang : FillerLang) (generated : List Audio) (s : State Audio) :
    Prop where
  cached : s.cache lang = generated
  past : ∀ l todo more, s.generator = .phrases l todo more → lang = .zhCN ∧ l = .en
  late : ∀ i phrase, s.caller i = .synthesizing lang phrase → .miss i lang phrase ∈ before

/-- A step of a call leaves the cache and the thread as they are. -/
theorem Kept.call {before : List (Label Audio)} (h : Kept before lang generated s) {c : Caller Audio}
    (hc : ∀ phrase, c ≠ .synthesizing lang phrase) : Kept before lang generated (s.setCaller i c) := by
  refine ⟨h.cached, h.past, ?_⟩
  intro j phrase hj
  by_cases hij : j = i
  · subst j
    simp only [State.setCaller, Function.update_self] at hj
    exact absurd hj (hc phrase)
  · simp only [State.setCaller, Function.update_of_ne hij] at hj
    exact h.late j phrase hj

variable {before : List (Label Audio)}

theorem kept_store {s : State Audio} (hinv : Inv s before) (h : generated ≠ []) :
    Kept before lang generated
      { s with cache := stored s.cache lang generated, generator := .after lang } := by
  refine ⟨stored_self h, ?_, ?_⟩
  · intro l todo more hgen
    cases lang with
    | zhCN =>
      cases hgen
      exact ⟨rfl, rfl⟩
    | en => cases hgen
  · intro i phrase hcall
    dsimp only at hcall
    have hplaced := hinv.placed i
    rw [hcall] at hplaced
    exact hplaced.2.2

theorem Kept.step (h : Kept before lang generated s) (hne : generated ≠ []) (hst : Step s l t) :
    Kept before lang generated t ∧ (l.Remakes lang → l.Late before lang) := by
  cases hst with
  | @generate l' phrase todo collected hgen v =>
    -- The thread still runs, so it is the Chinese list that is stored and English that is being made.
    obtain ⟨rfl, rfl⟩ := h.past l' (phrase :: todo) collected hgen
    refine ⟨⟨h.cached, ?_, h.late⟩, nofun⟩
    intro l todo' more hnext
    dsimp only at hnext
    unfold Generator.collect at hnext
    split at hnext
    · cases hnext
      exact ⟨rfl, rfl⟩
    · split at hnext
      · cases hnext
        exact ⟨rfl, rfl⟩
      · cases hnext
  | @store l' collected hgen =>
    obtain ⟨rfl, rfl⟩ := h.past l' [] collected hgen
    refine ⟨⟨(stored_other (by decide)).trans h.cached, ?_, h.late⟩, nofun⟩
    intro l todo more hnext
    cases hnext
  | getFiller hidle asked =>
    refine ⟨h.call ?_, False.elim⟩
    intro phrase hc
    cases hc
  | hit hasked hmem =>
    refine ⟨h.call ?_, False.elim⟩
    intro phrase hc
    cases hc
  | @miss i l' phrase hasked hempty hmem =>
    -- a miss needs an empty list
    have hother : l' ≠ lang := by
      rintro rfl
      exact hne (h.cached.symm.trans hempty)
    refine ⟨h.call ?_, fun hl => absurd hl hother⟩
    intro phrase' hc
    cases hc
    exact hother rfl
  | @synthesize i l' phrase hcall v =>
    constructor
    · apply h.call
      intro phrase' hc
      cases hc
    · rintro rfl
      exact ⟨i, phrase, v, rfl, h.late i phrase hcall⟩

theorem Kept.run (h : Kept before lang generated s) (hne : generated ≠ [])
    (hrun : (system Audio).Run s ls t) :
    Kept before lang generated t ∧ ∀ l ∈ ls, l.Remakes lang → l.Late before lang := by
  induction hrun with
  | nil => exact ⟨h, fun l hl => absurd hl List.not_mem_nil⟩
  | cons hst _ ih =>
    obtain ⟨hkept, hfirst⟩ := h.step hne hst
    obtain ⟨hlast, hrest⟩ := ih hkept
    exact ⟨hlast, List.forall_mem_cons.mpr ⟨hfirst, hrest⟩⟩

/-- However the thread and the calls interleave: a call gets audio of a phrase of its own language, or
the exception of its own synthesis; a cache that is not empty holds, in their order, what came of all
the phrases of its language; and once it is filled it stays so, and no call makes audio of that language
any more but those that had found it empty before. -/
theorem fillers_own_language (hrun : (system Audio).Run .init ls t) :
    (∀ i, Placed ls i (t.caller i)) ∧
      (∀ lang, t.cache lang ≠ [] → Done t.cache (attempts ls lang) lang) ∧
      ∀ before lang generated after, ls = before ++ .store lang generated :: after → generated ≠ [] →
        t.cache lang = generated ∧ ∀ l ∈ after, l.Remakes lang → l.Late before lang := by
  have hreach {ls : List (Label Audio)} {s : State Audio} (hrun : (system Audio).Run .init ls s) :
      Inv s ls := by
    simpa using hrun.invariant_labels (I := Inv) (fun h hst => inv_step h hst) inv_init
  have hinv := hreach hrun
  refine ⟨hinv.placed, fun lang hne => hinv.standing.done hne, ?_⟩
  rintro before lang generated after rfl hne
  obtain ⟨s, hbefore, hafter⟩ := hrun.of_append
  cases hafter with
  | cons hst hrest =>
    cases hst with
    | store hgen =>
      obtain ⟨hkept, hlate⟩ := (kept_store (hreach hbefore) hne).run hne hrest
      exact ⟨hkept.cached, hlate⟩

/-- A call asks too early. The primary service fails at the second phrase, both at the fourth. -/
def threeMade : List (Label Nat) :=
  [.getFiller 0 (str "zh"), .miss 0 .zhCN (str "嗯..."),
    .generate .zhCN (str "嗯...") ⟨some (.ok 1), .ok 0⟩,
    .generate .zhCN (str "好的...") ⟨some (.error (.builtin "RuntimeError")), .ok 2⟩,
    .generate .zhCN (str "让我想想...") ⟨none, .ok 3⟩,
    .generate .zhCN (str "这个嘛...") ⟨none, .error (.builtin "RuntimeError")⟩]

/-- A second call finds the list; the first still makes its own audio. -/
def bothServed : List (Label Nat) :=
  [.getFiller 1 (str "zh-TW"), .hit 1 .zhCN 2, .synthesize 0 .zhCN (str "嗯...") ⟨none, .ok 4⟩]

theorem fillers_own_language_zh :
    Placed (threeMade ++ .store .zhCN [1, 2, 3] :: bothServed) 0 (.answered .zhCN (.ok 4)) ∧
      Placed (threeMade ++ .store .zhCN [1, 2, 3] :: bothServed) 1 (.answered .zhCN (.ok 2)) ∧
      ∀ l ∈ bothServed, l.Remakes .zhCN → l.Late threeMade .zhCN := by
  have hrun : (system Nat).Run .init (threeMade ++ .store .zhCN [1, 2, 3] :: bothServed) _ :=
    .cons (.getFiller rfl _) <| .cons (.miss rfl rfl (by decide)) <|
      .cons (.generate rfl _) <| .cons (.generate rfl _) <| .cons (.generate rfl _) <|
      .cons (.generate rfl _) <| .cons (.store rfl) <| .cons (.getFiller rfl _) <|
      .cons (.hit rfl (by decide)) <| .cons (.synthesize rfl _) <| .nil _
  obtain ⟨hplaced, -, hstored⟩ := fillers_own_language hrun
  exact ⟨hplaced 0, hplaced 1, (hstored threeMade .zhCN [1, 2, 3] _ rfl (by decide)).2⟩

end FillerAudio

end VirtualPerson
