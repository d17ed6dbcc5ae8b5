import VirtualPerson.Once
import VirtualPerson.Program
import VirtualPerson.Python.Float
import VirtualPerson.Python.Str

/-!
# Speech recognition

`FasterWhisperSTTService` loads its model once for all threads, with the flag set before
the load, and transcribes a recording in one pass or two. What the model hears and how the
temporary file fares is the environment's.
-/

namespace VirtualPerson

set_option autoImplicit false

namespace SpeechToText

section Loading

variable {μ : Type}

/-- `_ensure_model` and the reading of `_model` after it, by any number of threads. A load that raises
leaves `None`. -/
abbrev loading (μ : Type) : System (Once.State (Option μ)) (Once.Label (Option μ)) :=
  Once.system .beforeBuild none

variable {before after : List (Once.Label (Option μ))} {s : Once.State (Option μ)} {i : Nat} {model : μ}

/-- The model is loaded once. A thread is refused although the model loads exactly when it reads before
the load is done; it has then found the flag set and not waited for the lock. -/
theorem refused_iff (hrun : (loading μ).Run (.start none) (before ++ .read i :: after) s)
    (hloads : some model ∈ s.builds) :
    s.builds = [some model] ∧ (s.pc i = .returned none ↔ ∀ j, .store j ∉ before) ∧
      (s.pc i = .returned none ∨ s.pc i = .returned (some model)) ∧
      (s.pc i = .returned none → .acquire i ∉ before ++ .read i :: after) := by
  have honce : s.builds = [some model] := by
    have hlength := (Once.Sound.of_run hrun).length_builds
    match hbuilds : s.builds with
    | [] =>
      rw [hbuilds] at hloads
      cases hloads
    | [v] =>
      rw [hbuilds, List.mem_singleton] at hloads
      rw [hloads]
    | v :: w :: vs =>
      rw [hbuilds, List.length_cons, List.length_cons] at hlength
      omega
  obtain ⟨v, hret, hempty, hfull⟩ := Once.read_of_run hrun
  have hbuilt : ∀ j, .store j ∈ before → v = some model := by
    intro j hj
    have hv := (hfull j hj).symm.trans honce
    exact List.singleton_inj.mp hv
  have hnone : s.pc i = .returned none ↔ v = none := by
    rw [hret, Once.Pc.returned.injEq]
  refine ⟨honce, hnone.trans ⟨?_, hempty⟩, ?_, ?_⟩
  · rintro hv j hj
    rw [hbuilt j hj] at hv
    cases hv
  · by_cases hstore : ∃ j, Once.Label.store j ∈ before
    · obtain ⟨j, hj⟩ := hstore
      rw [hret, hbuilt j hj]
      exact .inr rfl
    · rw [hret, hempty fun j hj => hstore ⟨j, hj⟩]
      exact .inl rfl
  · intro hrefused hacquire
    have hv := (Once.returned_of_acquire hrun hacquire hrefused).symm.trans honce
    cases List.singleton_inj.mp hv

/-- The second thread comes while the first one loads the model. -/
def early : Once.State (Option Nat) :=
  let loading : Once.State (Option Nat) :=
    { (((Once.State.start none).go 0 .waiting).go 0 .locked).go 0 .building with
      flag := true, holder := some 0 }
  let read := (loading.go 1 .reading).go 1 (.returned none)
  { (read.go 0 (.built (some 7))).go 0 (.leaving none) with cell := some 7, builds := [some 7] }

theorem early_run : (loading Nat).Run (.start none)
    ([.check 0, .acquire 0, .recheck 0, .check 1] ++ .read 1 :: [.build 0 (some 7), .store 0]) early := by
  refine .cons (.unseen rfl rfl) ?_
  refine .cons (.acquire rfl rfl) ?_
  refine .cons (.first rfl rfl) ?_
  refine .cons (.seen rfl rfl) ?_
  refine .cons (.read rfl) ?_
  refine .cons (.build rfl) ?_
  exact .cons (.store rfl) (.nil _)

theorem refused_iff_early : early.pc 1 = .returned none :=
  (refused_iff early_run (List.mem_singleton_self _)).2.1.mpr fun j hj => by simp at hj

end Loading

inductive Language where
  | zh
  | en
  deriving DecidableEq

/-- What a pass over a recording gives: the texts of the segments and the `language_probability`, if it
has one. -/
structure Pass where
  segments : List PyStr
  probability : Option PyFloat

/-- Creating and writing the temporary file, a pass of the model over it, and its removal. -/
inductive SttOp where
  | create (suffix : PyStr)
  | write (path : PyStr)
  | infer (path : PyStr) (language : Option Language)
  | unlink (path : PyStr)

/-- `none` and `false` where it raises -/
def SttOp.Ans : SttOp → Type
  | .create _ => Option PyStr
  | .write _ => Bool
  | .infer _ _ => Option Pass
  | .unlink _ => Bool

abbrev SttSig : Sig := ⟨SttOp, SttOp.Ans⟩

abbrev SttProg := Prog SttSig PyExc

/-- `_normalize_hint`; `none` is `"auto"`. -/
def normalizeHint (cm : CaseMap) (own : PyStr) (languageHint : Option PyStr) : Option Language :=
  let given := PyStr.orElse (PyStr.orElse (languageHint.getD []) own) (str "auto")
  let hint := PyStr.strip (cm.lower given)
  if [str "zh", str "zh-cn", str "chinese"].contains hint then some .zh
  else if [str "en", str "english", str "en-us"].contains hint then some .en
  else none

def indexError : PyExc := .builtin "IndexError"

/-- The suffix that `_save_audio` finds for the first bytes of a recording -/
def suffixOf (audio : List UInt8) : Except PyExc PyStr :=
  let magic := audio.take 4
  if magic = [0x52, 0x49, 0x46, 0x46] then .ok (str ".wav")
  else if magic.take 2 = [0x1A, 0x45] then .ok (str ".webm")
  else if magic = [0x4F, 0x67, 0x67, 0x53] then .ok (str ".ogg")
  else if magic.take 3 = [0x49, 0x44, 0x33] then .ok (str ".mp3")
  else
    match magic with
    | [] => .error indexError
    | first :: rest =>
      if first = 0xFF then
        match rest with
        | [] => .error indexError
        | second :: _ => .ok (if second &&& 0xE0 = 0xE0 then str ".mp3" else str ".wav")
      else .ok (str ".wav")

def perform (o : SttOp) : SttProg (SttSig.Ans o) := .op o .ret

/-- An operation that raised -/
def osError : PyExc := .builtin "OSError"

def saveAudio (audio : List UInt8) : SttProg PyStr := do
  let suffix ← Prog.lift (suffixOf audio)
  match ← perform (.create suffix) with
  | none => .raise osError
  | some path =>
    match ← perform (.write path) with
    | true => return path
    | false => .raise osError

def Pass.text (p : Pass) : PyStr :=
  PyStr.strip (List.intercalate (str " ") (p.segments.map PyStr.strip))

/-- `_transcribe_once`, with a model -/
def transcribeOnce (path : PyStr) (language : Option Language) : SttProg Pass := do
  match ← perform (.infer path language) with
  | none => .raise (.builtin "RuntimeError")
  | some p => return p

/-- `0.70` -/
def confident : PyFloat := .finite (6305039478318694 / 9007199254740992)

/-- `needs_fallback` -/
def needsFallback (pass1 : Option Language) (p : Pass) : Bool :=
  pass1.isSome && (p.text = [] || (p.probability.getD (.finite 0)).lt confident)

def twoPasses (path : PyStr) (pass1 : Option Language) : SttProg PyStr := do
  let p ← transcribeOnce path pass1
  if needsFallback pass1 p then
    let p₂ ← transcribeOnce path none
    return if p₂.text ≠ [] then p₂.text else p.text
  else return p.text

/-- `transcribe`, once the model is there -/
def transcribe (cm : CaseMap) (own : PyStr) (audio : List UInt8) (languageHint : Option PyStr) :
    SttProg PyStr := do
  if audio = [] then return []
  else
    let saved ← (saveAudio audio >>= fun path => pure (some path)).catching fun _ => pure none
    match saved with
    | none => return []
    | some path =>
      let text ← (twoPasses path (normalizeHint cm own languageHint)).catching fun _ => pure []
      let _removed ← perform (.unlink path)
      return text

/-- How the saving of a recording can go -/
inductive Saving : Option PyStr → List SttSig.Event → Prop where
  | noSuffix : Saving none []
  | notCreated (suffix : PyStr) : Saving none [⟨.create suffix, none⟩]
  | notWritten (suffix path : PyStr) : Saving none [⟨.create suffix, some path⟩, ⟨.write path, false⟩]
  | written (suffix path : PyStr) :
      Saving (some path) [⟨.create suffix, some path⟩, ⟨.write path, true⟩]

/-- How the passes over it can go -/
inductive Listening (path : PyStr) (pass1 : Option Language) : PyStr → List SttSig.Event → Prop where
  | raised : Listening path pass1 [] [⟨.infer path pass1, none⟩]
  | once {p : Pass} (h : needsFallback pass1 p = false) :
      Listening path pass1 p.text [⟨.infer path pass1, some p⟩]
  | raisedAgain {p : Pass} (h : needsFallback pass1 p = true) :
      Listening path pass1 [] [⟨.infer path pass1, some p⟩, ⟨.infer path none, none⟩]
  | twice {p p₂ : Pass} (h : needsFallback pass1 p = true) :
      Listening path pass1 (if p₂.text ≠ [] then p₂.text else p.text)
        [⟨.infer path pass1, some p⟩, ⟨.infer path none, some p₂⟩]

section

variable {cm : CaseMap} {own path : PyStr} {audio : List UInt8} {languageHint : Option PyStr}
  {pass1 : Option Language}

theorem saveAudio_yields : ((saveAudio audio >>= fun path => pure (some path)).catching
    fun _ => pure none).Yields (fun _ => True) Saving := by
  unfold saveAudio
  cases suffixOf audio with
  | error e => exact Prog.yields_ret .noSuffix
  | ok suffix =>
    apply Prog.yields_op
    intro created _
    cases created with
    | none => exact Prog.yields_ret (.notCreated suffix)
    | some path =>
      apply Prog.yields_op
      intro wrote _
      cases wrote with
      | false => exact Prog.yields_ret (.notWritten suffix path)
      | true => exact Prog.yields_ret (.written suffix path)

theorem transcribeOnce_bind (language : Option Language) (f : Pass → SttProg PyStr) :
    transcribeOnce path language >>= f = .op (.infer path language) fun
      | none => .raise (.builtin "RuntimeError")
      | some p => f p :=
  congrArg (Prog.op _) (funext fun answer => by cases answer <;> rfl)

theorem twoPasses_yields :
    ((twoPasses path pass1).catching fun _ => pure []).Yields (fun _ => True) (Listening path pass1) := by
  rw [twoPasses, transcribeOnce_bind]
  apply Prog.yields_op
  intro first _
  cases first with
  | none => exact Prog.yields_ret .raised
  | some p =>
    dsimp only
    cases hneeds : needsFallback pass1 p with
    | false => exact Prog.yields_ret (Listening.once hneeds)
    | true =>
      rw [if_pos rfl, transcribeOnce_bind]
      apply Prog.yields_op
      intro second _
      cases second with
      | none => exact Prog.yields_ret (.raisedAgain hneeds)
      | some p₂ => exact Prog.yields_ret (.twice hneeds)

/-- The recordings that a run has written -/
def recordings (tr : List SttSig.Event) : List PyStr :=
  tr.filterMap fun
    | ⟨.write path, true⟩ => some path
    | _ => none

/-- The passes of a run, each over a recording -/
def passes (tr : List SttSig.Event) : List (PyStr × Option Pass) :=
  tr.filterMap fun
    | ⟨.infer path _, answer⟩ => some (path, answer)
    | _ => none

/-- The text that the passes give together: nothing once one has raised. -/
def heard : List (Option Pass) → PyStr
  | [some p] => p.text
  | [some p, some p₂] => if p₂.text ≠ [] then p₂.text else p.text
  | _ => []

/-- The whole of a transcription -/
inductive Transcribed (pass1 : Option Language) : PyStr → List SttSig.Event → Prop where
  | unsaved {tr : List SttSig.Event} (h : Saving none tr) : Transcribed pass1 [] tr
  | saved {path text : PyStr} {tr tr' : List SttSig.Event} (removed : Bool) (h : Saving (some path) tr)
      (h' : Listening path pass1 text tr') :
      Transcribed pass1 text (tr ++ (tr' ++ [⟨.unlink path, removed⟩]))

theorem transcribe_yields : (transcribe cm own audio languageHint).Yields (fun _ => True)
    (Transcribed (normalizeHint cm own languageHint)) := by
  unfold transcribe
  split
  · exact Prog.yields_ret (.unsaved .noSuffix)
  · apply Prog.Yields.bind saveAudio_yields
    intro saved before hsaved
    cases saved with
    | none =>
      apply Prog.yields_ret
      rw [List.append_nil]
      exact .unsaved hsaved
    | some path =>
      apply Prog.Yields.bind twoPasses_yields
      intro text after hheard
      apply Prog.yields_op
      intro removed _
      exact Prog.yields_ret (.saved removed hsaved hheard)

theorem Saving.recordings {saved : Option PyStr} {tr : List SttSig.Event} (h : Saving saved tr) :
    recordings tr = saved.toList ∧ passes tr = [] := by
  cases h <;> exact ⟨rfl, rfl⟩

theorem Listening.recordings {text : PyStr} {tr : List SttSig.Event} (h : Listening path pass1 text tr) :
    recordings tr = [] := by
  cases h <;> rfl

theorem Listening.heard {text : PyStr} {tr : List SttSig.Event} (h : Listening path pass1 text tr) :
    heard ((passes tr).map Prod.snd) = text := by
  cases h <;> rfl

theorem Listening.passes {text : PyStr} {tr : List SttSig.Event} (h : Listening path pass1 text tr) :
    (∀ x ∈ passes tr, x.1 = path) ∧ ∀ p rest, (SpeechToText.passes tr).map Prod.snd = some p :: rest →
      rest.length = if needsFallback pass1 p then 1 else 0 := by
  cases h with
  | raised => exact ⟨by simp [SpeechToText.passes], fun p rest hp => by cases hp⟩
  | once h =>
    refine ⟨by simp [SpeechToText.passes], fun p rest hp => ?_⟩
    cases hp
    rw [h]
    rfl
  | raisedAgain h =>
    refine ⟨by simp [SpeechToText.passes], fun p rest hp => ?_⟩
    cases hp
    rw [h]
    rfl
  | twice h =>
    refine ⟨by simp [SpeechToText.passes], fun p rest hp => ?_⟩
    cases hp
    rw [h]
    rfl

end

/-- A transcription never raises. It removes the recording that it has written as the last thing it does,
whatever the passes do, and gives the text of the passes, which are over that recording; a second one is
made exactly when the language was fixed and the first is not sure of what it heard. -/
theorem transcribe_cleans {cm : CaseMap} {own : PyStr} {audio : List UInt8} {languageHint : Option PyStr}
    {tr : List SttSig.Event} {r : Except PyExc PyStr}
    (hrun : Prog.Runs (transcribe cm own audio languageHint) tr r) :
    r = .ok (heard ((passes tr).map Prod.snd)) ∧
      (∀ path ∈ recordings tr, ∃ before removed, tr = before ++ [⟨.unlink path, removed⟩]) ∧
      (∀ x ∈ passes tr, x.1 ∈ recordings tr) ∧
      ∀ p rest, (passes tr).map Prod.snd = some p :: rest →
        rest.length = if needsFallback (normalizeHint cm own languageHint) p then 1 else 0 := by
  obtain ⟨text, rfl, h⟩ := transcribe_yields tr r hrun fun _ _ => trivial
  cases h with
  | unsaved h =>
    obtain ⟨hrecordings, hpasses⟩ := h.recordings
    rw [hrecordings, hpasses]
    exact ⟨rfl, nofun, nofun, nofun⟩
  | @saved path text before listened removed h h' =>
    obtain ⟨hrecordings, hpasses⟩ := h.recordings
    have hall : recordings (before ++ (listened ++ [⟨.unlink path, removed⟩])) = [path] := by
      unfold recordings at hrecordings ⊢
      rw [List.filterMap_append, List.filterMap_append, hrecordings]
      exact congrArg (_ ++ ·) (congrArg (· ++ _) h'.recordings)
    have hlistened : passes (before ++ (listened ++ [⟨.unlink path, removed⟩])) = passes listened := by
      unfold passes at hpasses ⊢
      rw [List.filterMap_append, List.filterMap_append, hpasses]
      exact List.append_nil _
    rw [hall, hlistened]
    refine ⟨congrArg _ h'.heard.symm, ?_, ?_, h'.passes.2⟩
    · intro path' hpath
      rw [List.mem_singleton.mp hpath]
      exact ⟨before ++ listened, removed, (List.append_assoc ..).symm⟩
    · intro x hx
      rw [h'.passes.1 x hx]
      exact List.mem_singleton_self path

/-- A model that hears "hi" without being sure of the language -/
def hi : (o : SttOp) → o.Ans
  | .create _ => some (str "/tmp/a.wav")
  | .write _ => true
  | .infer _ _ => some { segments := [str " hi "], probability := none }
  | .unlink _ => true

theorem transcribe_cleans_hi :
    ∃ text, (Prog.answered (S := SttSig) hi
      (transcribe .asciiOnly [] [0x52, 0x49, 0x46, 0x46] (some (str "en")))).2 = .ok text :=
  ⟨_, (transcribe_cleans (Prog.runs_answered (S := SttSig) hi _)).1⟩

end SpeechToText

end VirtualPerson
