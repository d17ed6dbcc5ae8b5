import VirtualPerson.Machine
import VirtualPerson.ReadThrough
import VirtualPerson.Stateful
import VirtualPerson.Python.Base64
import VirtualPerson.Python.JsonRoundTrip
import VirtualPerson.Infra.Redis
import VirtualPerson.Queue.Delivery

/-!
# The speech cache

`CachedTTSService` over a Redis that may be missing, fail, forget and hold bytes that do
not decode. The wrapped service is a function of the text.
-/

namespace VirtualPerson

set_option autoImplicit false

open Stateful

def asciiBytes (s : PyStr) : Bytes := s.map UInt8.ofNat

/-- The standard library as the cache uses it. -/
structure CacheLib where
  /-- `hashlib.sha256(s.encode("utf-8")).hexdigest()` where `s` can be encoded -/
  sha256 : PyStr → PyStr
  /-- `float.__repr__` -/
  repr : ℚ → PyStr
  /-- `json.loads` on bytes, whose encoding it guesses from the first of them -/
  loads : Bytes → Option PyVal
  loads_ascii : ∀ s : PyStr, (∀ c ∈ s, c < 128) →
    loads (asciiBytes (0x7B :: 0x22 :: s)) = Json.loads (0x7B :: 0x22 :: s)

structure BaseTTSService where
  providerName : PyStr
  /-- The audio and its phonemes. -/
  synthesize : PyStr → Except PyExc (Bytes × PyVal)

inductive SetexOutcome where
  | returned
  | failed
  /-- It raised, but the server had taken the entry. -/
  | failedLate
  deriving DecidableEq

/-- What one call finds. -/
structure CacheEnv where
  /-- `config.tts_cache_enabled` -/
  enabled : Bool
  /-- `get_sync_redis(decode=False)` is not `None` -/
  client : Bool
  getReturns : Bool
  setex : SetexOutcome

abbrev CacheStore := PyStr → Option Bytes

namespace CachedTTSService

variable (lib : CacheLib) (inner : BaseTTSService)

/-- What is hashed. -/
def identity (text : PyStr) : PyStr := inner.providerName ++ str "|" ++ text

def keyOf (text : PyStr) : PyStr := str "vp:tts:" ++ lib.sha256 (identity inner text)

/-- `_key`, which stands outside every `try`. -/
def key (text : PyStr) : Except PyExc PyStr :=
  if Redis.encodes (identity inner text) then .ok (keyOf lib inner text) else .error .encodeError

/-- The inside of the `try` around a hit; `none` where it raises. -/
def readEntry (cached : Bytes) : Option (Bytes × PyVal) :=
  match lib.loads cached with
  | some (.dict payload) =>
    match PyDict.get? payload (str "audio_b64") with
    | some (.str a) =>
      (Base64.decode a).map fun audio =>
        (audio, (PyDict.getD payload (str "phonemes") .pyNone).orElse (.list []))
    | _ => none
  | _ => none

def payload (result : Bytes × PyVal) : PyVal :=
  .dict [(str "audio_b64", .str (Base64.encode result.1)), (str "phonemes", result.2)]

/-- The value of the `SETEX`. -/
def writeEntry (result : Bytes × PyVal) : Option Bytes :=
  (Json.dumps lib.repr true (payload result)).map asciiBytes

def synthesize (env : CacheEnv) (text : PyStr) : EStateM PyExc CacheStore (Bytes × PyVal) := do
  if !env.enabled then MonadExcept.ofExcept (inner.synthesize text)
  else if !env.client then MonadExcept.ofExcept (inner.synthesize text)
  else
    let key ← MonadExcept.ofExcept (key lib inner text)
    if !env.getReturns then MonadExcept.ofExcept (inner.synthesize text)
    else
      match ((← get) key).bind (readEntry lib) with
      | some hit => return hit
      | none =>
        let result ← MonadExcept.ofExcept (inner.synthesize text)
        if env.setex ≠ .failed then
          match writeEntry lib result with
          | some entry => modify fun store => Function.update store key (some entry)
          | none => pure ()
        return result

end CachedTTSService

/-- A call, an entry that expires, or one replaced by bytes that do not decode. -/
inductive CacheEvent (lib : CacheLib) where
  | call (env : CacheEnv) (text : PyStr)
  | expire (key : PyStr)
  | spoil (key : PyStr) (entry : { b : Bytes // CachedTTSService.readEntry lib b = none })

namespace CachedTTSService

variable (lib : CacheLib) (inner : BaseTTSService)

def step : CacheEvent lib → CacheStore → Option (Except PyExc (Bytes × PyVal)) × CacheStore
  | .call env text, store =>
    match synthesize lib inner env text store with
    | .ok result store' => (some (.ok result), store')
    | .error e store' => (some (.error e), store')
  | .expire key, store => (none, Function.update store key none)
  | .spoil key entry, store => (none, Function.update store key (some entry.1))

def machine : Machine CacheStore (CacheEvent lib) (Option (Except PyExc (Bytes × PyVal))) :=
  ⟨step lib inner⟩

/-- What the wrapped service answers to a call. -/
def innerAnswer : CacheEvent lib → Option (Except PyExc (Bytes × PyVal))
  | .call _ text => some (inner.synthesize text)
  | _ => none

section Transparent

variable {lib : CacheLib} {inner : BaseTTSService} {text : PyStr} {store : CacheStore}
  {asked : Set PyStr}

/-- Results whose phonemes JSON keeps. -/
def Representable (lib : CacheLib) (result : Bytes × PyVal) : Prop :=
  ∃ ps, result.2 = .list ps ∧ Json.Exact lib.repr result.2

theorem payload_exact {result : Bytes × PyVal} (h : Representable lib result) :
    Json.Exact lib.repr (payload result) := by
  obtain ⟨-, -, hexact⟩ := h
  have hkeys : [str "audio_b64", str "phonemes"].Nodup := by decide
  have haudio : Json.Stable (Base64.encode result.1) = true :=
    Json.Stable.of_ascii (Base64.encode_ascii result.1)
  exact ⟨hkeys, by decide, haudio, by decide, hexact, trivial⟩

theorem payload_starts {result : Bytes × PyVal} {t : PyStr}
    (h : Json.dumps lib.repr true (payload result) = some t) : ∃ s, t = 0x7B :: 0x22 :: s := by
  rw [payload, Json.dumps] at h
  obtain ⟨ts, hts, rfl⟩ := Option.map_eq_some_iff.mp h
  obtain ⟨t₁, ts', rfl, -, hts'⟩ := Json.dumpsEntries_cons hts
  obtain ⟨t₂, ts'', rfl, -, -⟩ := Json.dumpsEntries_cons hts'
  rw [List.intercalate_cons_of_ne_nil (List.cons_ne_nil _ ts'')]
  exact ⟨_, rfl⟩

/-- An entry is read as the result it was written for. -/
theorem readEntry_writeEntry {result : Bytes × PyVal} (h : Representable lib result) :
    ∃ entry, writeEntry lib result = some entry ∧ readEntry lib entry = some result := by
  have hexact := payload_exact h
  obtain ⟨t, ht, hascii⟩ := Json.dumps_ascii (payload result) hexact
  obtain ⟨s, hs⟩ := payload_starts ht
  refine ⟨asciiBytes t, by rw [writeEntry, ht, Option.map_some], ?_⟩
  have hloads : lib.loads (asciiBytes t) = some (payload result) := by
    rw [← Json.loads_dumps_exact hexact ht, hs]
    apply lib.loads_ascii
    intro c hc
    exact hascii c (hs ▸ List.mem_cons_of_mem _ (List.mem_cons_of_mem _ hc))
  obtain ⟨audio, phonemes⟩ := result
  obtain ⟨ps, rfl, -⟩ := h
  have haudio : PyDict.get? [(str "audio_b64", .str (Base64.encode audio)), (str "phonemes", .list ps)]
      (str "audio_b64") = some (.str (Base64.encode audio)) := rfl
  have hphonemes : PyDict.getD [(str "audio_b64", .str (Base64.encode audio)), (str "phonemes", .list ps)]
      (str "phonemes") .pyNone = .list ps := rfl
  have horElse : (PyVal.list ps).orElse (.list []) = .list ps := by
    cases ps <;> rfl
  rw [readEntry, hloads]
  simp only [payload, haudio, hphonemes, horElse, Base64.decode_encode, Option.map_some]

/-- The one thing a wrapped call does that the service itself would not. -/
def Unkeyed (inner : BaseTTSService) (env : CacheEnv) (text : PyStr) : Bool :=
  env.enabled && env.client && !Redis.encodes (identity inner text)

abbrev Sound (lib : CacheLib) (inner : BaseTTSService) (asked : Set PyStr) (store : CacheStore) : Prop :=
  ReadThrough.Sound asked (keyOf lib inner) (readEntry lib) inner.synthesize store

/-- What `step` makes of a program's end. -/
theorem step_call_eq (env : CacheEnv) (text : PyStr) (store : CacheStore) :
    step lib inner (.call env text) store =
      match synthesize lib inner env text store with
      | .ok result store' => (some (.ok result), store')
      | .error e store' => (some (.error e), store') := rfl

theorem passthrough_run (r : Except PyExc (Bytes × PyVal)) (store : CacheStore) :
    (match (MonadExcept.ofExcept r : EStateM PyExc CacheStore (Bytes × PyVal)) store with
      | .ok result store' => (some (.ok result), store')
      | .error e store' => (some (.error e), store')) = (some r, store) := by
  cases r <;> rfl

/-- A call that finds the cache on and its key: the rest of `synthesize`. -/
def lookup (lib : CacheLib) (inner : BaseTTSService) (env : CacheEnv) (text : PyStr)
    (store : CacheStore) : Option (Except PyExc (Bytes × PyVal)) × CacheStore :=
  if env.getReturns then
    match (store (keyOf lib inner text)).bind (readEntry lib) with
    | some hit => (some (.ok hit), store)
    | none =>
      match inner.synthesize text with
      | .error e => (some (.error e), store)
      | .ok result =>
        match writeEntry lib result with
        | some entry =>
          (some (.ok result),
            if env.setex = .failed then store
            else Function.update store (keyOf lib inner text) (some entry))
        | none => (some (.ok result), store)
  else (some (inner.synthesize text), store)

theorem step_call_run (env : CacheEnv) (text : PyStr) (store : CacheStore) :
    step lib inner (.call env text) store =
      if env.enabled && env.client then
        if Redis.encodes (identity inner text) then lookup lib inner env text store
        else (some (.error .encodeError), store)
      else (some (inner.synthesize text), store) := by
  rw [step_call_eq]
  obtain ⟨enabled, client, getReturns, setex⟩ := env
  cases enabled with
  | false => exact passthrough_run _ store
  | true =>
    cases client with
    | false => exact passthrough_run _ store
    | true =>
      rw [Bool.and_self, if_pos rfl]
      unfold synthesize key
      cases Redis.encodes (identity inner text) with
      | false => rfl
      | true =>
        cases getReturns with
        | false => exact passthrough_run _ store
        | true =>
          unfold lookup
          have hofExcept {α : Type} (a : α) :
              (MonadExcept.ofExcept (.ok a) : EStateM PyExc CacheStore α) = pure a := rfl
          simp only [Bool.not_true, Bool.false_eq_true, if_false, if_true, hofExcept, bind_run, pure_run,
            get_run]
          cases (store (keyOf lib inner text)).bind (readEntry lib) with
          | some hit => rfl
          | none =>
            cases inner.synthesize text with
            | error e => rfl
            | ok result =>
              simp only [hofExcept, bind_run, pure_run]
              cases writeEntry lib result <;> cases setex <;> rfl

/-- One call on a sound store: it answers as the service does, or fails to make its key. -/
theorem step_call (hrep : ∀ text result, inner.synthesize text = .ok result → Representable lib result)
    (hkey : Set.InjOn (keyOf lib inner) asked) (hstore : Sound lib inner asked store) (env : CacheEnv)
    (hasked : Redis.encodes (identity inner text) = true → text ∈ asked) :
    (step lib inner (.call env text) store).1 =
        some (if Unkeyed inner env text then .error .encodeError else inner.synthesize text) ∧
      Sound lib inner asked (step lib inner (.call env text) store).2 := by
  rw [step_call_run, Unkeyed]
  cases hon : env.enabled && env.client with
  | false => exact ⟨rfl, hstore⟩
  | true =>
    cases henc : Redis.encodes (identity inner text) with
    | false => exact ⟨rfl, hstore⟩
    | true =>
      have ht := hasked henc
      rw [if_pos rfl, if_pos rfl, lookup]
      cases env.getReturns with
      | false => exact ⟨rfl, hstore⟩
      | true =>
        rw [if_pos rfl]
        cases hread : (store (keyOf lib inner text)).bind (readEntry lib) with
        | some hit =>
          rw [hstore.hit ht hread]
          exact ⟨rfl, hstore⟩
        | none =>
          cases hinner : inner.synthesize text with
          | error e => exact ⟨rfl, hstore⟩
          | ok result =>
            obtain ⟨entry, hwrite, hentry⟩ := readEntry_writeEntry (hrep text result hinner)
            simp only [hwrite]
            refine ⟨rfl, ?_⟩
            split
            · exact hstore
            · exact hstore.stored hkey ht hentry hinner

/-- The texts whose keys a run uses. -/
def askedIn (inner : BaseTTSService) (events : List (CacheEvent lib)) : Set PyStr :=
  { text | Redis.encodes (identity inner text) = true ∧ ∃ env, .call env text ∈ events }

theorem keyOf_injOn (hsha : Set.InjOn lib.sha256 (identity inner '' asked)) :
    Set.InjOn (keyOf lib inner) asked := by
  intro a ha b hb hkey
  have hdigest := List.append_cancel_left hkey
  have hidentity := hsha (Set.mem_image_of_mem _ ha) (Set.mem_image_of_mem _ hb) hdigest
  exact List.append_cancel_left hidentity

/-- What a run answers to one event. -/
def cachedAnswer (lib : CacheLib) (inner : BaseTTSService) :
    CacheEvent lib → Option (Except PyExc (Bytes × PyVal))
  | .call env text =>
    some (if Unkeyed inner env text then .error .encodeError else inner.synthesize text)
  | _ => none

theorem answers_eq (hrep : ∀ text result, inner.synthesize text = .ok result → Representable lib result)
    (events : List (CacheEvent lib))
    (hsha : Set.InjOn lib.sha256 (identity inner '' askedIn inner events)) :
    (machine lib inner).answers events (fun _ => none) = events.map (cachedAnswer lib inner) := by
  apply Machine.answers_eq_map (fun event => event ∈ events) (Sound lib inner (askedIn inner events)) _
    (fun event h => h) ReadThrough.sound_empty
  intro event store hevent hstore
  cases event with
  | call env text =>
    apply step_call hrep (keyOf_injOn hsha) hstore env
    intro henc
    exact ⟨henc, env, hevent⟩
  | expire key => exact ⟨rfl, hstore.lost key rfl⟩
  | spoil key entry => exact ⟨rfl, hstore.lost key entry.2⟩

/-- Every call of a run answers as the wrapped service does exactly when each call that finds the
cache on has a text with a key, or one for which the service raises what the key does. -/
theorem cachedTts_transparent_iff (lib : CacheLib) (inner : BaseTTSService)
    (hrep : ∀ text result, inner.synthesize text = .ok result → Representable lib result)
    (events : List (CacheEvent lib))
    (hsha : Set.InjOn lib.sha256 (identity inner '' askedIn inner events)) :
    (machine lib inner).answers events (fun _ => none) = events.map (innerAnswer lib inner) ↔
      ∀ env text, .call env text ∈ events → env.enabled = true → env.client = true →
        Redis.encodes (identity inner text) = false → inner.synthesize text = .error .encodeError := by
  rw [answers_eq hrep events hsha, List.map_inj_left]
  constructor
  · intro h env text hcall hon hclient henc
    have hunkeyed : Unkeyed inner env text = true := by simp [Unkeyed, hon, hclient, henc]
    have heq := h _ hcall
    rw [cachedAnswer, innerAnswer, hunkeyed, if_pos rfl] at heq
    exact (Option.some.inj heq).symm
  · intro h event hevent
    cases event with
    | call env text =>
      rw [cachedAnswer, innerAnswer]
      by_cases hunkeyed : Unkeyed inner env text = true
      · rw [if_pos hunkeyed]
        simp only [Unkeyed, Bool.and_eq_true, Bool.not_eq_true'] at hunkeyed
        rw [h env text hevent hunkeyed.1.1 hunkeyed.1.2 hunkeyed.2]
      · rw [if_neg hunkeyed]
    | expire key => rfl
    | spoil key entry => rfl

end Transparent

theorem toNat_asciiBytes {s : PyStr} (h : ∀ c ∈ s, c < 128) : (asciiBytes s).map UInt8.toNat = s := by
  rw [asciiBytes, List.map_map]
  conv_rhs => rw [← List.map_id s]
  apply List.map_congr_left
  intro c hc
  have hlt := h c hc
  exact Nat.mod_eq_of_lt (by omega)

def asciiLib : CacheLib where
  sha256 s :=
    if s = str "fallback|hi" then
      str "73867c1f400f248f52b5bcf6e7688b179bc82fa8213aedbc1b0f03efce5b459f"
    else s
  repr _ := []
  loads b := Json.loads (b.map UInt8.toNat)
  loads_ascii s hs := by
    rw [toNat_asciiBytes]
    exact List.forall_mem_cons.mpr ⟨by decide, List.forall_mem_cons.mpr ⟨by decide, hs⟩⟩

/-- One sample of silence and one phoneme for any text. -/
def silence : Bytes × PyVal :=
  ([0, 0], .list [.dict [(str "phoneme", .str (str "sil")), (str "start", .int 0)]])

def silent : BaseTTSService where
  providerName := str "fallback"
  synthesize _ := .ok silence

theorem silent_representable (text : PyStr) (result : Bytes × PyVal)
    (h : silent.synthesize text = .ok result) : Representable asciiLib result := by
  obtain rfl : silence = result := Except.ok.inj h
  refine ⟨_, rfl, ?_⟩
  apply Json.Exact.of_plain
  decide

def found : CacheEnv := { enabled := true, client := true, getReturns := true, setex := .returned }

/-- A miss, a hit, and a call after the entry has expired. -/
theorem cachedTts_transparent_iff_hi :
    let events : List (CacheEvent asciiLib) :=
      [.call found (str "hi"), .call found (str "hi"), .expire (keyOf asciiLib silent (str "hi")),
        .call found (str "hi")]
    Set.InjOn asciiLib.sha256 (identity silent '' askedIn silent events) ∧
      ((machine asciiLib silent).answers events (fun _ => none) =
          events.map (innerAnswer asciiLib silent) ↔
        ∀ env text, .call env text ∈ events → env.enabled = true → env.client = true →
          Redis.encodes (identity silent text) = false → silent.synthesize text = .error .encodeError) := by
  intro events
  have hsha : Set.InjOn asciiLib.sha256 (identity silent '' askedIn silent events) := by
    have hone (s : PyStr) (hs : s ∈ identity silent '' askedIn silent events) :
        s = identity silent (str "hi") := by
      obtain ⟨text, ⟨-, env, hcall⟩, rfl⟩ := hs
      simp only [events, List.mem_cons, CacheEvent.call.injEq, List.not_mem_nil, or_false, reduceCtorEq,
        false_or, or_self] at hcall
      rw [hcall.2]
    intro a ha b hb _
    rw [hone a ha, hone b hb]
  exact ⟨hsha, cachedTts_transparent_iff asciiLib silent silent_representable events hsha⟩

/-- The key of a lone surrogate raises where the service would have spoken. -/
theorem not_cachedTts_transparent :
    ¬ ∀ (lib : CacheLib) (inner : BaseTTSService)
      (_ : ∀ text result, inner.synthesize text = .ok result → Representable lib result)
      (events : List (CacheEvent lib))
      (_ : Set.InjOn lib.sha256 (identity inner '' askedIn inner events)),
      (machine lib inner).answers events (fun _ => none) = events.map (innerAnswer lib inner) := by
  intro h
  have hnone : askedIn silent [(.call found [0xD800] : CacheEvent asciiLib)] = ∅ := by
    apply Set.eq_empty_of_forall_notMem
    rintro text ⟨henc, env, hcall⟩
    obtain ⟨-, rfl⟩ := CacheEvent.call.inj (List.mem_singleton.mp hcall)
    revert henc
    decide
  have hsame := h asciiLib silent silent_representable [.call found [0xD800]] (by
    rw [hnone, Set.image_empty]
    exact Set.injOn_empty _)
  cases hsame

end CachedTTSService

end VirtualPerson
