import VirtualPerson.Voice.TtsCache

/-!
# Two services over one cache

The services that `_build_tts_service` constructs, two of them behind `CachedTTSService` on
one Redis, and which pairs can be served one another's waveforms.
-/

namespace VirtualPerson

set_option autoImplicit false

def PyExc.notImplementedError : PyExc := .builtin "NotImplementedError"

inductive Provider where
  | cosyvoice
  | fishaudio
  | fallback
  deriving DecidableEq

namespace Provider

/-- `provider_name` -/
def name : Provider → PyStr
  | cosyvoice => str "cosyvoice"
  | fishaudio => str "fishaudio"
  | fallback => str "fallback"

/-- What the providers that are implemented answer; `FishAudioTTSService` is not. -/
def synthesize (outcome : Provider → PyStr → Except PyExc (Bytes × PyVal)) :
    Provider → PyStr → Except PyExc (Bytes × PyVal)
  | fishaudio, _ => .error .notImplementedError
  | p, text => outcome p text

end Provider

/-- A service as it is constructed: one provider, or a `ChainedTTSService`. -/
inductive TtsChoice where
  | single (p : Provider)
  | chained (providers : List Provider)
  deriving DecidableEq

namespace TtsChoice

/-- The loop of `ChainedTTSService.synthesize`; `lastErr` is what the last provider raised. -/
def tryProviders (outcome : Provider → PyStr → Except PyExc (Bytes × PyVal)) (text : PyStr) :
    (lastErr : Option PyExc) → List Provider → Except PyExc (Bytes × PyVal)
  | some e, [] => .error e
  | none, [] => Provider.fallback.synthesize outcome text
  | _, p :: ps =>
    match p.synthesize outcome text with
    | .ok result => .ok result
    | .error e => if e.isException then tryProviders outcome text (some e) ps else .error e

def providerName : TtsChoice → PyStr
  | single p => p.name
  | chained _ => str "chain"

def synthesize (outcome : Provider → PyStr → Except PyExc (Bytes × PyVal)) :
    TtsChoice → PyStr → Except PyExc (Bytes × PyVal)
  | single p, text => p.synthesize outcome text
  | chained ps, text => tryProviders outcome text none ps

/-- The service as its wrapper sees it, while its providers answer by `outcome`. -/
def base (outcome : Provider → PyStr → Except PyExc (Bytes × PyVal)) (c : TtsChoice) :
    BaseTTSService where
  providerName := c.providerName
  synthesize := c.synthesize outcome

/-- The list of its providers; a provider by itself is the list of one. -/
def providers : TtsChoice → List Provider
  | single p => [p]
  | chained ps => ps

/-- `provider in {..}` -/
def oneOf (cm : CaseMap) (ttsProvider : PyStr) (names : List String) : Bool :=
  (names.map str).contains (cm.lower ttsProvider)

/-- `_build_tts_service` -/
def build (cm : CaseMap) (ttsProvider : PyStr) : TtsChoice :=
  if oneOf cm ttsProvider ["fishaudio", "fish"] then .chained [.fishaudio, .fallback]
  else if oneOf cm ttsProvider ["cosyvoice", "cosy"] then .chained [.cosyvoice, .fishaudio, .fallback]
  else if oneOf cm ttsProvider ["phase4", "auto", "chain"] then
    .chained [.cosyvoice, .fishaudio, .fallback]
  else .single .fallback

end TtsChoice

namespace CachedTTSService

section Call

variable (lib : CacheLib) (inner : BaseTTSService) (env : CacheEnv) (text : PyStr) (store : CacheStore)

/-- A call that looks into Redis, and finds it answering. -/
def looksUp : Bool :=
  env.enabled && env.client && Redis.encodes (identity inner text) && env.getReturns

/-- What a call returns from Redis. -/
def served : Option (Bytes × PyVal) :=
  if looksUp inner env text then (store (keyOf lib inner text)).bind (readEntry lib) else none

/-- What a call writes to Redis. -/
def written : Option Bytes :=
  if looksUp inner env text && (served lib inner env text store).isNone && decide (env.setex ≠ .failed) then
    match inner.synthesize text with
    | .ok result => writeEntry lib result
    | .error _ => none
  else none

variable {lib inner env text store}

/-- Redis changes by what a call writes under its key, and by nothing else. -/
theorem step_store : (step lib inner (.call env text) store).2 =
    match written lib inner env text store with
    | some entry => Function.update store (keyOf lib inner text) (some entry)
    | none => store := by
  rw [step_call_run]
  unfold written served looksUp
  cases env.enabled && env.client with
  | false => rfl
  | true =>
    cases Redis.encodes (identity inner text) with
    | false => rfl
    | true =>
      unfold lookup
      cases env.getReturns with
      | false => rfl
      | true =>
        simp only [if_true, Bool.and_self, Bool.true_and]
        cases (store (keyOf lib inner text)).bind (readEntry lib) with
        | some hit => rfl
        | none =>
          cases hsetex : decide (env.setex ≠ .failed) with
          | false =>
            have hfailed : env.setex = .failed := by simpa using hsetex
            cases inner.synthesize text with
            | error e => rfl
            | ok result =>
              dsimp only
              cases writeEntry lib result with
              | none => rfl
              | some entry => simp [hfailed]
          | true =>
            have hset : env.setex ≠ .failed := by simpa using hsetex
            cases inner.synthesize text with
            | error e => rfl
            | ok result =>
              simp only [Option.isNone_none, Bool.and_self, if_true]
              cases writeEntry lib result with
              | none => rfl
              | some entry => simp [hset]

end Call

end CachedTTSService

inductive Tenant where
  | first
  | second
  deriving DecidableEq

def Tenant.other : Tenant → Tenant
  | first => second
  | second => first

inductive SharedEvent where
  | call (who : Tenant) (outcome : Provider → PyStr → Except PyExc (Bytes × PyVal)) (env : CacheEnv)
    (text : PyStr)
  | expire (key : PyStr)
  /-- something else writes the key -/
  | overwrite (key : PyStr) (entry : Bytes)

/-- The Redis and, for each key, which of the two services stored its entry. -/
structure SharedCache where
  store : CacheStore
  writer : PyStr → Option Tenant

namespace SharedCache

open CachedTTSService

variable (lib : CacheLib) (services : Tenant → TtsChoice)

def empty : SharedCache := ⟨fun _ => none, fun _ => none⟩

def step (s : SharedCache) : SharedEvent → SharedCache
  | .call who outcome env text =>
    let inner := (services who).base outcome
    { store := (CachedTTSService.step lib inner (.call env text) s.store).2
      writer := if (written lib inner env text s.store).isSome then
          Function.update s.writer (keyOf lib inner text) (some who)
        else s.writer }
  | .expire key =>
    { store := Function.update s.store key none, writer := Function.update s.writer key none }
  | .overwrite key entry =>
    { store := Function.update s.store key (some entry), writer := Function.update s.writer key none }

/-- The call returns what the other service stored. -/
def Crosses (s : SharedCache) : SharedEvent → Prop
  | .call who outcome env text =>
    (served lib ((services who).base outcome) env text s.store).isSome = true ∧
      s.writer (keyOf lib ((services who).base outcome) text) = some who.other
  | _ => False

/-- What the calls of a run hash. -/
def identities (events : List SharedEvent) : Set PyStr :=
  { i | Redis.encodes i = true ∧ ∃ who outcome env text, .call who outcome env text ∈ events ∧
    i = identity ((services who).base outcome) text }

/-- In every run whose digests do not collide, a waveform crosses from the one service to the
other only if they have the same list of providers. -/
def Separated : Prop :=
  ∀ events : List SharedEvent, Set.InjOn lib.sha256 (identities services events) →
    ∀ before e, before ++ [e] <+: events →
      Crosses lib services (before.foldl (step lib services) empty) e →
      (services .first).providers = (services .second).providers

section Names

variable {lib : CacheLib} {services : Tenant → TtsChoice} {events : List SharedEvent}
variable {s : SharedCache} {e : SharedEvent}

/-- Each entry stands under a key that its writer made. -/
def Owned (lib : CacheLib) (services : Tenant → TtsChoice) (events : List SharedEvent)
    (s : SharedCache) : Prop :=
  ∀ key who, s.writer key = some who →
    ∃ outcome text, identity ((services who).base outcome) text ∈ identities services events ∧
      key = keyOf lib ((services who).base outcome) text

theorem identity_base (c : TtsChoice) (outcome : Provider → PyStr → Except PyExc (Bytes × PyVal))
    (text : PyStr) : identity (c.base outcome) text = c.providerName ++ str "|" ++ text := rfl

theorem encodes_of_looksUp {inner : BaseTTSService} {env : CacheEnv} {text : PyStr}
    (h : looksUp inner env text = true) : Redis.encodes (identity inner text) = true := by
  simp only [looksUp, Bool.and_eq_true] at h
  exact h.1.2

theorem looksUp_of_written {inner : BaseTTSService} {env : CacheEnv} {text : PyStr} {store : CacheStore}
    (h : (written lib inner env text store).isSome = true) : looksUp inner env text = true := by
  unfold written at h
  split at h
  · rename_i hcond
    simp only [Bool.and_eq_true] at hcond
    exact hcond.1.1
  · cases h

theorem looksUp_of_served {inner : BaseTTSService} {env : CacheEnv} {text : PyStr} {store : CacheStore}
    (h : (served lib inner env text store).isSome = true) : looksUp inner env text = true := by
  unfold served at h
  split at h
  · rename_i hlooks
    exact hlooks
  · cases h

theorem mem_identities {who : Tenant} {outcome : Provider → PyStr → Except PyExc (Bytes × PyVal)}
    {env : CacheEnv} {text : PyStr} (he : .call who outcome env text ∈ events)
    (h : looksUp ((services who).base outcome) env text = true) :
    identity ((services who).base outcome) text ∈ identities services events :=
  ⟨encodes_of_looksUp h, who, outcome, env, text, he, rfl⟩

theorem Owned.step (h : Owned lib services events s) (he : e ∈ events) :
    Owned lib services events (step lib services s e) := by
  intro key who hwriter
  cases e with
  | call who' outcome env text =>
    dsimp only [SharedCache.step] at hwriter
    split at hwriter
    · rename_i hwritten
      by_cases hkey : key = keyOf lib ((services who').base outcome) text
      · rw [hkey, Function.update_self] at hwriter
        cases hwriter
        exact ⟨outcome, text, mem_identities he (looksUp_of_written hwritten), hkey⟩
      · rw [Function.update_of_ne hkey] at hwriter
        exact h key who hwriter
    · exact h key who hwriter
  | expire key' =>
    by_cases hkey : key = key'
    · rw [hkey] at hwriter
      exact absurd hwriter (by simp [SharedCache.step])
    · dsimp only [SharedCache.step] at hwriter
      rw [Function.update_of_ne hkey] at hwriter
      exact h key who hwriter
  | overwrite key' entry =>
    by_cases hkey : key = key'
    · rw [hkey] at hwriter
      exact absurd hwriter (by simp [SharedCache.step])
    · dsimp only [SharedCache.step] at hwriter
      rw [Function.update_of_ne hkey] at hwriter
      exact h key who hwriter

theorem Owned.run {before : List SharedEvent} (h : Owned lib services events s)
    (hbefore : ∀ e ∈ before, e ∈ events) :
    Owned lib services events (before.foldl (SharedCache.step lib services) s) := by
  induction before generalizing s with
  | nil => exact h
  | cons e before ih =>
    apply ih (h.step (hbefore e List.mem_cons_self))
    exact fun e he => hbefore e (List.mem_cons_of_mem _ he)

/-- Services of different names have no key in common. -/
theorem not_crosses_of_names (hsha : Set.InjOn lib.sha256 (identities services events))
    (hnames : ∀ text text', (services .first).providerName ++ str "|" ++ text ≠
      (services .second).providerName ++ str "|" ++ text')
    (h : Owned lib services events s) (he : e ∈ events) : ¬ Crosses lib services s e := by
  intro hcrosses
  cases e with
  | call who outcome env text =>
    obtain ⟨hserved, hwriter⟩ := hcrosses
    obtain ⟨outcome', text', hidentity', hkey⟩ := h _ _ hwriter
    have hidentity := mem_identities he (looksUp_of_served hserved)
    have hdigest := List.append_cancel_left hkey
    have heq := hsha hidentity hidentity' hdigest
    rw [identity_base, identity_base] at heq
    cases who with
    | first => exact hnames text text' heq
    | second => exact hnames text' text heq.symm
  | expire key => exact hcrosses
  | overwrite key entry => exact hcrosses

end Names

/-- The TTS_PROVIDER values that choose FishAudio first, and those that choose CosyVoice first. -/
def FishFirst (cm : CaseMap) (ttsProvider : PyStr) : Prop :=
  cm.lower ttsProvider ∈ ["fishaudio", "fish"].map str

def CosyFirst (cm : CaseMap) (ttsProvider : PyStr) : Prop :=
  cm.lower ttsProvider ∈ ["cosyvoice", "cosy", "phase4", "auto", "chain"].map str

def fishChain : List Provider := [.fishaudio, .fallback]

def cosyChain : List Provider := [.cosyvoice, .fishaudio, .fallback]

theorem build_cases (cm : CaseMap) (p : PyStr) :
    (FishFirst cm p ∧ ¬ CosyFirst cm p ∧ TtsChoice.build cm p = .chained fishChain) ∨
      (¬ FishFirst cm p ∧ CosyFirst cm p ∧ TtsChoice.build cm p = .chained cosyChain) ∨
      (¬ FishFirst cm p ∧ ¬ CosyFirst cm p ∧ TtsChoice.build cm p = .single .fallback) := by
  unfold FishFirst CosyFirst TtsChoice.build TtsChoice.oneOf
  generalize cm.lower p = lowered
  simp only [List.contains_iff_mem]
  by_cases hfish : lowered ∈ ["fishaudio", "fish"].map str
  · rw [if_pos hfish]
    refine .inl ⟨hfish, ?_, rfl⟩
    have hall : ∀ x ∈ ["fishaudio", "fish"].map str,
        x ∉ ["cosyvoice", "cosy", "phase4", "auto", "chain"].map str := by decide
    exact hall lowered hfish
  · rw [if_neg hfish]
    have hsplit : lowered ∈ ["cosyvoice", "cosy", "phase4", "auto", "chain"].map str ↔
        lowered ∈ ["cosyvoice", "cosy"].map str ∨ lowered ∈ ["phase4", "auto", "chain"].map str := by
      rw [← List.mem_append]
      rfl
    rw [hsplit]
    by_cases hcosy : lowered ∈ ["cosyvoice", "cosy"].map str
    · rw [if_pos hcosy]
      exact .inr (.inl ⟨hfish, .inl hcosy, rfl⟩)
    · rw [if_neg hcosy]
      by_cases hphase : lowered ∈ ["phase4", "auto", "chain"].map str
      · rw [if_pos hphase]
        exact .inr (.inl ⟨hfish, .inr hphase, rfl⟩)
      · rw [if_neg hphase]
        refine .inr (.inr ⟨hfish, ?_, rfl⟩)
        intro h
        rcases h with h | h
        · exact hcosy h
        · exact hphase h

/-- The services that two TTS_PROVIDER values construct. -/
def builtServices (cm : CaseMap) (p p' : PyStr) : Tenant → TtsChoice
  | .first => .build cm p
  | .second => .build cm p'

/-- Both calls find the cache on and everything working. -/
def allWorks : CacheEnv := { enabled := true, client := true, getReturns := true, setex := .returned }

/-- Only the fallback speaks, and it gives the text's own bytes. -/
def fallbackOnly : Provider → PyStr → Except PyExc (Bytes × PyVal)
  | .fallback, text => .ok (text.map UInt8.ofNat, .list [])
  | _, _ => .error .notImplementedError

def hiCall (who : Tenant) : SharedEvent := .call who fallbackOnly allWorks (str "hi")

/-- Two chains share their keys, so the second is served what the first has stored. -/
theorem crosses_of_chains (lib : CacheLib) {services : Tenant → TtsChoice} {ps ps' : List Provider}
    (hfirst : services .first = .chained ps) (hsecond : services .second = .chained ps')
    (hspeaks : (TtsChoice.chained ps).synthesize fallbackOnly (str "hi") =
      .ok ((str "hi").map UInt8.ofNat, .list [])) :
    Crosses lib services (step lib services empty (hiCall .first)) (hiCall .second) := by
  have hrep : Representable lib ((str "hi").map UInt8.ofNat, .list []) := ⟨[], rfl, trivial⟩
  obtain ⟨entry, hwrite, hread⟩ := readEntry_writeEntry hrep
  set inner := (services .first).base fallbackOnly
  set inner' := (services .second).base fallbackOnly
  have hname : inner.providerName = str "chain" := by
    change (services .first).providerName = _
    rw [hfirst]
    rfl
  have hname' : inner'.providerName = str "chain" := by
    change (services .second).providerName = _
    rw [hsecond]
    rfl
  have hkey : keyOf lib inner' (str "hi") = keyOf lib inner (str "hi") := by
    rw [keyOf, keyOf, identity, identity, hname, hname']
  have hlooks : looksUp inner allWorks (str "hi") = true := by
    rw [looksUp, identity, hname]
    decide
  have hlooks' : looksUp inner' allWorks (str "hi") = true := by
    rw [looksUp, identity, hname']
    decide
  have hnone : served lib inner allWorks (str "hi") empty.store = none := by
    rw [served, if_pos hlooks]
    rfl
  have hspeaks' : inner.synthesize (str "hi") = .ok ((str "hi").map UInt8.ofNat, .list []) := by
    change (services .first).synthesize fallbackOnly (str "hi") = _
    rw [hfirst]
    exact hspeaks
  have hwritten : written lib inner allWorks (str "hi") empty.store = some entry := by
    rw [written, hlooks, hnone, hspeaks']
    exact hwrite
  have hstore : (step lib services empty (hiCall .first)).store =
      Function.update empty.store (keyOf lib inner (str "hi")) (some entry) := by
    change (CachedTTSService.step lib inner (.call allWorks (str "hi")) empty.store).2 = _
    rw [step_store, hwritten]
  have hwriter : (step lib services empty (hiCall .first)).writer =
      Function.update empty.writer (keyOf lib inner (str "hi")) (some .first) := by
    change (if (written lib inner allWorks (str "hi") empty.store).isSome then _ else _) = _
    rw [hwritten]
    rfl
  refine ⟨?_, ?_⟩
  · change (served lib inner' allWorks (str "hi") _).isSome = true
    rw [served, if_pos hlooks', hstore, hkey, Function.update_self, Option.bind_some, hread]
    rfl
  · change (step lib services empty (hiCall .first)).writer (keyOf lib inner' (str "hi")) = _
    rw [hwriter, hkey, Function.update_self]
    rfl

/-- Two calls of one text by two chains hash the same. -/
theorem injOn_hiCalls (lib : CacheLib) {services : Tenant → TtsChoice} {ps ps' : List Provider}
    (hfirst : services .first = .chained ps) (hsecond : services .second = .chained ps') :
    Set.InjOn lib.sha256 (identities services [hiCall .first, hiCall .second]) := by
  have hone : ∀ i ∈ identities services [hiCall .first, hiCall .second], i = str "chain|hi" := by
    intro i hi
    obtain ⟨-, who, outcome, env, text, hcall, rfl⟩ := hi
    rcases List.mem_cons.mp hcall with heq | hcall
    · cases heq
      rw [identity_base, hfirst]
      rfl
    · cases List.mem_singleton.mp hcall
      rw [identity_base, hsecond]
      rfl
  intro i hi i' hi' _
  rw [hone i hi, hone i' hi']

theorem not_separated_of_chains (lib : CacheLib) {services : Tenant → TtsChoice}
    {ps ps' : List Provider} (hfirst : services .first = .chained ps)
    (hsecond : services .second = .chained ps') (hne : ps ≠ ps')
    (hspeaks : (TtsChoice.chained ps).synthesize fallbackOnly (str "hi") =
      .ok ((str "hi").map UInt8.ofNat, .list [])) : ¬ Separated lib services := by
  intro h
  have hsame := h [hiCall .first, hiCall .second] (injOn_hiCalls lib hfirst hsecond)
    [hiCall .first] (hiCall .second) (List.prefix_refl _) (crosses_of_chains lib hfirst hsecond hspeaks)
  rw [hfirst, hsecond] at hsame
  exact hne hsame

theorem separated_of_names (lib : CacheLib) {services : Tenant → TtsChoice}
    (hnames : ∀ text text', (services .first).providerName ++ str "|" ++ text ≠
      (services .second).providerName ++ str "|" ++ text') : Separated lib services := by
  intro events hsha before e hprefix hcrosses
  obtain ⟨rest, rfl⟩ := hprefix
  have howned : Owned lib services (before ++ [e] ++ rest) empty := fun _ _ h => by cases h
  have hrun : Owned lib services (before ++ [e] ++ rest)
      (before.foldl (SharedCache.step lib services) empty) := howned.run fun e he => by simp [he]
  exact absurd hcrosses (not_crosses_of_names hsha hnames hrun (by simp))

/-- In every run of two services built by `_build_tts_service` on one Redis, a waveform crosses
only between equal lists of providers, if and only if the two TTS_PROVIDER values do not choose
the one FishAudio first and the other CosyVoice first. -/
theorem separated_iff (lib : CacheLib) (cm : CaseMap) (p p' : PyStr) :
    Separated lib (builtServices cm p p') ↔
      ¬ (FishFirst cm p ∧ CosyFirst cm p') ∧ ¬ (CosyFirst cm p ∧ FishFirst cm p') := by
  have hsame (h : TtsChoice.build cm p = TtsChoice.build cm p') :
      Separated lib (builtServices cm p p') := by
    intro events _ before e _ _
    exact congrArg TtsChoice.providers h
  rcases build_cases cm p with ⟨hf, hc, hb⟩ | ⟨hf, hc, hb⟩ | ⟨hf, hc, hb⟩ <;>
    rcases build_cases cm p' with ⟨hf', hc', hb'⟩ | ⟨hf', hc', hb'⟩ | ⟨hf', hc', hb'⟩
  case inl.inl | inr.inl.inr.inl | inr.inr.inr.inr =>
    simp only [hf, hc, hf', hc', and_true, and_false, not_false_eq_true, and_self, iff_true]
    exact hsame (hb.trans hb'.symm)
  case inl.inr.inl =>
    simp only [hf, hc', and_self, not_true_eq_false, false_and, iff_false]
    exact not_separated_of_chains lib hb hb' (by decide) rfl
  case inr.inl.inl =>
    simp only [hf', hc, and_self, not_true_eq_false, and_false, iff_false]
    exact not_separated_of_chains lib hb hb' (by decide) rfl
  all_goals
    simp only [hf, hc, hf', hc', and_true, and_false, not_false_eq_true, and_self, iff_true]
    apply separated_of_names
    intro text text' heq
    simp only [builtServices, hb, hb'] at heq
    have hhead := congrArg List.head? heq
    cases hhead

/-- FishAudio's chain and CosyVoice's chain on one Redis. -/
theorem not_separated : ¬ ∀ (lib : CacheLib) (cm : CaseMap) (p p' : PyStr),
    Separated lib (builtServices cm p p') := by
  intro h
  have hfish : builtServices .asciiOnly (str "fish") (str "cosy") .first = .chained fishChain := by
    decide
  have hcosy : builtServices .asciiOnly (str "fish") (str "cosy") .second = .chained cosyChain := by
    decide
  exact not_separated_of_chains asciiLib hfish hcosy (by decide) rfl
    (h asciiLib .asciiOnly (str "fish") (str "cosy"))

end SharedCache

end VirtualPerson
