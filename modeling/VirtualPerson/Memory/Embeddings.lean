import Mathlib.Analysis.Real.Sqrt
import VirtualPerson.Memory.Semantic
import VirtualPerson.Python.JsonUtf8
import VirtualPerson.Python.Words

/-!
# Embeddings

`EmbeddingService` turns a text into numbers, with a provider that may fail or with feature hashing, and
`get_embedding_service` keeps one service for each configuration. Numbers are taken without rounding.
-/

namespace VirtualPerson

set_option autoImplicit false
set_option linter.unusedSectionVars false

/-- `str.lower`, `\w`, the bits of `blake2b` that are used, and the square root in `np.linalg.norm` -/
structure HashKit (K : Type) [Field K] [LinearOrder K] [IsStrictOrderedRing K] where
  cm : CaseMap
  isWord : Nat → Bool
  digest : PyStr → Nat × Bool
  sqrt : K → K
  sqrt_nonneg : ∀ x, 0 ≤ sqrt x
  sqrt_mul_self : ∀ x, 0 ≤ x → sqrt x * sqrt x = x

variable {K : Type} [Field K] [LinearOrder K] [IsStrictOrderedRing K]

namespace HashKit

variable (kit : HashKit K)

def normalized (text : PyStr) : PyStr := PyStr.collapse false (kit.cm.lower (PyStr.strip text))

/-- `_WORD_RE.findall` -/
def words (norm : PyStr) : List PyStr := (norm.splitOnP fun c => !kit.isWord c).filter fun w => w ≠ []

def compact (norm : PyStr) : PyStr := norm.filter fun c => c != 0x20

def grams (n : Nat) (s : PyStr) : List PyStr := (List.range (s.length + 1 - n)).map fun i => (s.drop i).take n

/-- `_hash_features` -/
def hashFeatures (text : PyStr) : List PyStr :=
  let norm := kit.normalized text
  if norm = [] then []
  else
    (kit.words norm).map (str "w:" ++ ·) ++ (grams 2 (compact norm)).map (str "c2:" ++ ·) ++
      (grams 3 (compact norm)).map (str "c3:" ++ ·) ++ (compact norm).map fun ch => str "c1:" ++ [ch]

/-- One feature more -/
def count (dim : Nat) (vec : List Int) (feat : PyStr) : List Int :=
  vec.modify ((kit.digest feat).1 % dim) (· + if (kit.digest feat).2 then 1 else -1)

def counts (dim : Nat) (text : PyStr) : List Int :=
  (kit.hashFeatures text).foldl (kit.count dim) (List.replicate dim 0)

/-- `np.linalg.norm` -/
def norm (vec : List K) : K := kit.sqrt (vec.map fun x => x * x).sum

/-- `vec /= norm` -/
def scaled (vec : List K) : List K := if 0 < kit.norm vec then vec.map (· / kit.norm vec) else vec

/-- `_hash_vector`; `none` is the `UnicodeEncodeError` of a feature. -/
def hashVector (dim : Nat) (text : PyStr) : Option (List K) :=
  if (kit.hashFeatures text).all Json.encodable then
    some (kit.scaled ((kit.counts dim text).map (Int.cast : Int → K)))
  else none

end HashKit

/-- What `requests.post` comes to: an exception, or a status and what `resp.json()` returns, if it does. -/
inductive OllamaReply where
  | raises
  | answered (status : Int) (json : Option PyVal)

/-- The world outside at the time of a call: what is installed and what it answers. An encoder raises
where it returns `none`. -/
structure EmbedEnv (K : Type) where
  requestsInstalled : Bool
  post : (url model prompt : PyStr) → OllamaReply
  toFloat : PyVal → Option K
  transformersInstalled : Bool
  transformer : PyStr → Option (PyStr → Option (List K))

structure EmbeddingService (K : Type) where
  provider : PyStr
  model : PyStr
  dim : Nat
  baseUrl : PyStr
  stModel : Option (PyStr → Option (List K))
  stFailed : Bool

namespace EmbeddingService

def defaultHashDim : Nat := 256

def ollama : PyStr := str "ollama"
def sentenceTransformers : PyStr := str "sentence_transformers"

/-- `(provider or "hash").strip().lower()` -/
def providerName (cm : CaseMap) (provider : PyStr) : PyStr :=
  cm.lower (PyStr.strip (provider.orElse (str "hash")))

/-- `__init__` -/
def init (cm : CaseMap) (provider model : PyStr) (dim : Int) (baseUrl : PyStr) : EmbeddingService K where
  provider := providerName cm provider
  model
  dim := if 0 < dim then dim.toNat else defaultHashDim
  baseUrl := baseUrl.rdropWhile (· == 0x2F)
  stModel := none
  stFailed := false

def embedOllama (env : EmbedEnv K) (s : EmbeddingService K) (text : PyStr) : Option (List K) :=
  if env.requestsInstalled then
    match env.post (s.baseUrl ++ str "/api/embeddings") (s.model.orElse (str "bge-m3")) text with
    | .answered 200 (some (.dict payload)) =>
      match Assoc.get? payload (str "embedding") with
      | some (.list (x :: xs)) => (x :: xs).mapM env.toFloat
      | _ => none
    | _ => none
  else none

/-- `_load_sentence_transformer`, and whether it tries to load -/
def loadSentenceTransformer (env : EmbedEnv K) (s : EmbeddingService K) :
    EmbeddingService K × Bool × Option (PyStr → Option (List K)) :=
  match s.stModel with
  | some m => (s, false, some m)
  | none =>
    if s.stFailed then (s, false, none)
    else if env.transformersInstalled then
      let name := s.model.orElse (str "BAAI/bge-m3")
      match env.transformer (if name = str "bge-m3" then str "BAAI/bge-m3" else name) with
      | some m => ({ s with stModel := some m }, true, some m)
      | none => ({ s with stFailed := true }, true, none)
    else ({ s with stFailed := true }, true, none)

/-- What the provider makes of the text, under `_safe` -/
def provided (env : EmbedEnv K) (s : EmbeddingService K) (text : PyStr) :
    EmbeddingService K × Bool × Option (List K) :=
  if s.provider = ollama then (s, false, embedOllama env s text)
  else if s.provider = sentenceTransformers then
    let (s, tried, m) := loadSentenceTransformer env s
    (s, tried, m.bind fun encode => encode text)
  else (s, false, none)

/-- `embed`; `none` where it raises. -/
def embed (kit : HashKit K) (env : EmbedEnv K) (s : EmbeddingService K) (text : PyStr) :
    EmbeddingService K × Bool × Option (List K) :=
  let (s', tried, vec) := provided env s text
  match vec.filter fun v => v.length = s.dim with
  | some v => (s', tried, some v)
  | none => (s', tried, kit.hashVector s.dim text)

end EmbeddingService

structure EmbedConfig where
  embeddingProvider : PyStr
  embeddingModel : PyStr
  embeddingDim : Int
  ollamaBaseUrl : PyStr
  deriving DecidableEq

namespace EmbeddingService

/-- `_DEFAULT_DIMS` -/
def defaultDims : List (PyStr × Nat) :=
  [(str "hash", defaultHashDim), (ollama, 1024), (sentenceTransformers, 1024)]

/-- `_resolve_dim` -/
def resolveDim (provider : PyStr) (dim : Int) : Nat :=
  if 0 < dim then dim.toNat else (Assoc.get? defaultDims provider).getD defaultHashDim

/-- The signature under which the service is cached -/
def signature (cm : CaseMap) (c : EmbedConfig) : PyStr × PyStr × Nat × PyStr :=
  let provider := providerName cm c.embeddingProvider
  (provider, c.embeddingModel, resolveDim provider c.embeddingDim,
    c.ollamaBaseUrl.orElse (str "http://127.0.0.1:11434"))

abbrev Cache (K : Type) := List ((PyStr × PyStr × Nat × PyStr) × EmbeddingService K)

/-- `get_embedding_service` -/
def get (cm : CaseMap) (cache : Cache K) (c : EmbedConfig) : EmbeddingService K :=
  (Assoc.get? cache (signature cm c)).getD
    (init cm (signature cm c).1 (signature cm c).2.1 (signature cm c).2.2.1 (signature cm c).2.2.2)

end EmbeddingService

/-- `get_embedding_service(config).embed(text)` at some time -/
structure EmbedCall (K : Type) where
  config : EmbedConfig
  env : EmbedEnv K
  text : PyStr

/-- What a call came to: whether it tried to load a model, and the vector, if it returned one -/
structure EmbedAnswer (K : Type) where
  tried : Bool
  vector : Option (List K)

namespace EmbeddingService

variable (kit : HashKit K)

def call (cache : Cache K) (c : EmbedCall K) : Cache K × EmbedAnswer K :=
  let (s, tried, vector) := embed kit c.env (get kit.cm cache c.config) c.text
  (Assoc.set cache (signature kit.cm c.config) s, { tried, vector })

def answers (cache : Cache K) : List (EmbedCall K) → List (EmbedCall K × EmbedAnswer K)
  | [] => []
  | c :: cs => (c, (call kit cache c).2) :: answers (call kit cache c).1 cs

end EmbeddingService

namespace HashKit

variable {kit : HashKit K} {dim : Nat} {text : PyStr}

theorem length_count (vec : List Int) (feat : PyStr) : (kit.count dim vec feat).length = vec.length :=
  List.length_modify _ _ _

theorem length_counts (text : PyStr) : (kit.counts dim text).length = dim := by
  have hfold (feats : List PyStr) (vec : List Int) :
      (feats.foldl (kit.count dim) vec).length = vec.length := by
    induction feats generalizing vec with
    | nil => rfl
    | cons feat feats ih => rw [List.foldl_cons, ih, length_count]
  rw [counts, hfold, List.length_replicate]

theorem length_scaled (vec : List K) : (kit.scaled vec).length = vec.length := by
  unfold scaled
  split
  · exact List.length_map _
  · rfl

theorem sum_squares_nonneg (vec : List K) : 0 ≤ (vec.map fun x => x * x).sum := by
  apply List.sum_nonneg
  intro y hy
  obtain ⟨x, -, rfl⟩ := List.mem_map.mp hy
  exact mul_self_nonneg x

theorem sum_squares_div (vec : List K) (r : K) :
    ((vec.map (· / r)).map fun x => x * x).sum = (vec.map fun x => x * x).sum / (r * r) := by
  induction vec with
  | nil => simp
  | cons x vec ih =>
    rw [List.map_cons, List.map_cons, List.sum_cons, ih, List.map_cons, List.sum_cons, add_div,
      div_mul_div_comm]

theorem eq_zero_of_sum_squares {vec : List K} (h : (vec.map fun x => x * x).sum = 0) : ∀ x ∈ vec, x = 0 := by
  induction vec with
  | nil => simp
  | cons y vec ih =>
    rw [List.map_cons, List.sum_cons] at h
    have hy := mul_self_nonneg y
    have hrest := sum_squares_nonneg vec
    intro x hx
    rcases List.mem_cons.mp hx with rfl | hx
    · exact mul_self_eq_zero.mp (by linarith)
    · exact ih (by linarith) x hx

/-- The vector has length one, unless it is zero. -/
def Unit (vec : List K) : Prop := (vec.map fun x => x * x).sum = 1 ∨ ∀ x ∈ vec, x = 0

theorem unit_scaled (vec : List K) : Unit (kit.scaled vec) := by
  have hsq := kit.sqrt_mul_self _ (sum_squares_nonneg vec)
  have hnonneg := kit.sqrt_nonneg (vec.map fun x => x * x).sum
  unfold scaled norm
  split
  · rename_i hpos
    left
    rw [sum_squares_div, hsq, div_self]
    rw [← hsq]
    exact (mul_pos hpos hpos).ne'
  · rename_i hzero
    right
    have hsqrt : kit.sqrt (vec.map fun x => x * x).sum = 0 := le_antisymm (not_lt.mp hzero) hnonneg
    rw [hsqrt, mul_zero] at hsq
    exact eq_zero_of_sum_squares hsq.symm

theorem hashVector_spec {vec : List K} (h : kit.hashVector dim text = some vec) :
    vec.length = dim ∧ Unit vec := by
  unfold hashVector at h
  split at h
  · cases h
    exact ⟨by rw [length_scaled, List.length_map, length_counts], unit_scaled _⟩
  · cases h

theorem mem_of_mem_grams {n : Nat} {s g : PyStr} (hg : g ∈ grams n s) : ∀ c ∈ g, c ∈ s := by
  obtain ⟨i, -, rfl⟩ := List.mem_map.mp hg
  intro c hc
  exact List.mem_of_mem_drop (List.mem_of_mem_take hc)

theorem mem_of_mem_words {norm w : PyStr} (hw : w ∈ kit.words norm) : ∀ c ∈ w, c ∈ norm := by
  intro c hc
  exact (PyStr.of_mem_splitOnP (List.mem_filter.mp hw).1 c hc).1

theorem encodable_label {l : String} (hl : ∀ c ∈ str l, c < 0x80) {s : PyStr} (hs : ∀ c ∈ s, Json.Scalar c) :
    Json.encodable (str l ++ s) = true := by
  rw [Json.encodable_iff]
  intro c hc
  rcases List.mem_append.mp hc with hc | hc
  · exact Json.scalar_of_lt (hl c hc)
  · exact hs c hc

/-- The features of a text show each of its characters but spaces. -/
theorem features_encodable_iff (text : PyStr) :
    (kit.hashFeatures text).all Json.encodable = true ↔ ∀ c ∈ kit.normalized text, Json.Scalar c := by
  rw [List.all_eq_true]
  constructor
  · intro h c hc
    by_cases hspace : c = 0x20
    · subst hspace
      exact Json.scalar_of_lt (by decide)
    · have hne : kit.normalized text ≠ [] := List.ne_nil_of_mem hc
      have hmem : str "c1:" ++ [c] ∈ kit.hashFeatures text := by
        simp only [hashFeatures, hne, if_false]
        refine List.mem_append_right _ (List.mem_map.mpr ⟨c, ?_, rfl⟩)
        exact List.mem_filter.mpr ⟨hc, by simpa using hspace⟩
      exact Json.encodable_iff.mp (h _ hmem) c (List.mem_append_right _ List.mem_cons_self)
  · intro h feat hfeat
    have hcompact {c : Nat} (hc : c ∈ compact (kit.normalized text)) : Json.Scalar c :=
      h c (List.mem_of_mem_filter hc)
    unfold hashFeatures at hfeat
    dsimp only at hfeat
    split at hfeat
    · cases hfeat
    · simp only [List.mem_append, List.mem_map] at hfeat
      rcases hfeat with ((⟨w, hw, rfl⟩ | ⟨g, hg, rfl⟩) | ⟨g, hg, rfl⟩) | ⟨c, hc, rfl⟩
      · exact encodable_label (by decide) fun c hc => h c (mem_of_mem_words hw c hc)
      · exact encodable_label (by decide) fun c hc => hcompact (mem_of_mem_grams hg c hc)
      · exact encodable_label (by decide) fun c hc => hcompact (mem_of_mem_grams hg c hc)
      · exact encodable_label (by decide) fun x hx => by
          rw [List.mem_singleton.mp hx]
          exact hcompact hc

theorem hashVector_isSome_iff (dim : Nat) (text : PyStr) :
    (kit.hashVector dim text).isSome = true ↔ ∀ c ∈ kit.normalized text, Json.Scalar c := by
  rw [← features_encodable_iff, hashVector]
  split
  · rename_i h
    simp [h]
  · rename_i h
    simp [h]

end HashKit

namespace EmbeddingService

variable {kit : HashKit K} {env : EmbedEnv K} {s : EmbeddingService K} {cache : Cache K}

/-- The service has tried to load its model; it will not do so again. -/
def Spent (s : EmbeddingService K) : Prop := s.stModel.isSome = true ∨ s.stFailed = true

/-- What a load leaves of the service -/
structure Loaded (s s' : EmbeddingService K) (tried : Bool) : Prop where
  dim : s'.dim = s.dim
  spent : Spent s → Spent s'
  first : tried = true → ¬ Spent s ∧ Spent s'

theorem Loaded.refl (s : EmbeddingService K) : Loaded s s false := ⟨rfl, id, fun h => by cases h⟩

theorem loaded_load (env : EmbedEnv K) (s : EmbeddingService K) :
    Loaded s (loadSentenceTransformer env s).1 (loadSentenceTransformer env s).2.1 := by
  unfold loadSentenceTransformer
  split
  · exact .refl s
  · rename_i hmodel
    split
    · exact .refl s
    · rename_i hfailed
      have hfresh : ¬ Spent s := by
        rintro (h | h)
        · rw [hmodel] at h
          cases h
        · exact hfailed h
      split
      · dsimp only
        split
        · exact ⟨rfl, fun _ => .inl rfl, fun _ => ⟨hfresh, .inl rfl⟩⟩
        · exact ⟨rfl, fun _ => .inr rfl, fun _ => ⟨hfresh, .inr rfl⟩⟩
      · exact ⟨rfl, fun _ => .inr rfl, fun _ => ⟨hfresh, .inr rfl⟩⟩

theorem loaded_provided (env : EmbedEnv K) (s : EmbeddingService K) (text : PyStr) :
    Loaded s (provided env s text).1 (provided env s text).2.1 := by
  unfold provided
  split
  · exact .refl s
  · split
    · exact loaded_load env s
    · exact .refl s

/-- What a service answers has the length that it announces, and only hashing raises. -/
structure Answered (kit : HashKit K) (dim : Nat) (text : PyStr) (vec : Option (List K)) : Prop where
  length : ∀ v ∈ vec, v.length = dim
  raised : vec = none → ∃ c ∈ kit.normalized text, ¬ Json.Scalar c

theorem answered_hash (dim : Nat) (text : PyStr) : Answered kit dim text (kit.hashVector dim text) := by
  constructor
  · intro v hv
    exact (HashKit.hashVector_spec hv).1
  · intro h
    have hnot : ¬ ∀ c ∈ kit.normalized text, Json.Scalar c := by
      rw [← HashKit.hashVector_isSome_iff dim text, h]
      exact Bool.false_ne_true
    simpa using hnot

theorem embed_spec (kit : HashKit K) (env : EmbedEnv K) (s : EmbeddingService K) (text : PyStr) :
    Loaded s (embed kit env s text).1 (embed kit env s text).2.1 ∧
      Answered kit s.dim text (embed kit env s text).2.2 := by
  have hloaded := loaded_provided env s text
  unfold embed
  rcases hp : provided env s text with ⟨s', tried, vec⟩
  rw [hp] at hloaded
  dsimp only
  cases hv : vec.filter fun v => v.length = s.dim with
  | none => exact ⟨hloaded, answered_hash s.dim text⟩
  | some v =>
    refine ⟨hloaded, fun w hw => ?_, fun h => by cases h⟩
    cases hw
    obtain ⟨-, hlen⟩ := Option.filter_eq_some_iff.mp hv
    simpa using hlen

theorem resolveDim_pos (provider : PyStr) (dim : Int) : 0 < resolveDim provider dim := by
  unfold resolveDim
  split
  · omega
  · have hall : ∀ e ∈ defaultDims, 0 < e.2 := by decide
    cases h : Assoc.get? defaultDims provider with
    | none => decide
    | some d =>
      obtain ⟨e, hfind, rfl⟩ := Option.map_eq_some_iff.mp h
      exact hall e (List.mem_of_find?_eq_some hfind)

/-- Each service of the cache has the dimension of its signature. -/
def Sized (cache : Cache K) : Prop := ∀ key s, Assoc.get? cache key = some s → s.dim = key.2.2.1

theorem dim_get (cm : CaseMap) (h : Sized cache) (c : EmbedConfig) :
    (get cm cache c).dim = resolveDim (providerName cm c.embeddingProvider) c.embeddingDim := by
  unfold get
  cases hget : Assoc.get? cache (signature cm c) with
  | some s => exact h _ s hget
  | none =>
    have hpos := resolveDim_pos (providerName cm c.embeddingProvider) c.embeddingDim
    have hcast : (0 : Int) < ((signature cm c).2.2.1 : Int) := Int.natCast_pos.mpr hpos
    rw [Option.getD_none, init, if_pos hcast]
    rfl

/-- The cached service of this signature, or a new one -/
def SpentAt (cache : Cache K) (key : PyStr × PyStr × Nat × PyStr) : Prop :=
  ∃ s, Assoc.get? cache key = some s ∧ Spent s

structure CallSpec (kit : HashKit K) (cache : Cache K) (c : EmbedCall K) : Prop where
  sized : Sized cache → Sized (call kit cache c).1
  answered : Sized cache → Answered kit
    (resolveDim (providerName kit.cm c.config.embeddingProvider) c.config.embeddingDim) c.text
    (call kit cache c).2.vector
  spent : ∀ key, SpentAt cache key → SpentAt (call kit cache c).1 key
  first : (call kit cache c).2.tried = true →
    ¬ SpentAt cache (signature kit.cm c.config) ∧ SpentAt (call kit cache c).1 (signature kit.cm c.config)

theorem call_spec (kit : HashKit K) (cache : Cache K) (c : EmbedCall K) : CallSpec kit cache c := by
  obtain ⟨hloaded, hanswered⟩ := embed_spec kit c.env (get kit.cm cache c.config) c.text
  have hself : Assoc.get? (call kit cache c).1 (signature kit.cm c.config) =
      some (embed kit c.env (get kit.cm cache c.config) c.text).1 := Assoc.get?_set_self _ _ _
  have hother {key} (hne : signature kit.cm c.config ≠ key) :
      Assoc.get? (call kit cache c).1 key = Assoc.get? cache key := Assoc.get?_set_ne _ _ hne
  have hcached {s} (hs : Assoc.get? cache (signature kit.cm c.config) = some s) :
      get kit.cm cache c.config = s := by rw [get, hs, Option.getD_some]
  constructor
  · intro h key s hs
    by_cases hkey : signature kit.cm c.config = key
    · subst hkey
      rw [hself] at hs
      cases hs
      rw [hloaded.dim, dim_get kit.cm h c.config]
      rfl
    · exact h key s (by rwa [hother hkey] at hs)
  · intro h
    rw [← dim_get kit.cm h c.config]
    exact hanswered
  · rintro key ⟨s, hs, hspent⟩
    by_cases hkey : signature kit.cm c.config = key
    · subst hkey
      rw [← hcached hs] at hspent
      exact ⟨_, hself, hloaded.spent hspent⟩
    · exact ⟨s, by rwa [hother hkey], hspent⟩
  · intro htried
    obtain ⟨hfresh, hspent⟩ := hloaded.first htried
    refine ⟨?_, _, hself, hspent⟩
    rintro ⟨s, hs, hs'⟩
    rw [← hcached hs] at hs'
    exact hfresh hs'

/-- Calls with this signature that tried to load a model -/
def triedFor (cm : CaseMap) (key : PyStr × PyStr × Nat × PyStr)
    (as : List (EmbedCall K × EmbedAnswer K)) : Nat :=
  (as.filter fun a => decide (signature cm a.1.config = key) && a.2.tried).length

theorem triedFor_le (key : PyStr × PyStr × Nat × PyStr) (calls : List (EmbedCall K)) (cache : Cache K) :
    triedFor kit.cm key (answers kit cache calls) ≤ 1 ∧
      (SpentAt cache key → triedFor kit.cm key (answers kit cache calls) = 0) := by
  induction calls generalizing cache with
  | nil => exact ⟨Nat.zero_le _, fun _ => rfl⟩
  | cons c calls ih =>
    have hspec := call_spec kit cache c
    obtain ⟨hle, hzero⟩ := ih (call kit cache c).1
    unfold triedFor at hle hzero ⊢
    rw [answers, List.filter_cons]
    split
    · rename_i htried
      rw [Bool.and_eq_true, decide_eq_true_iff] at htried
      obtain ⟨rfl, htried⟩ := htried
      obtain ⟨hfresh, hspent⟩ := hspec.first htried
      exact ⟨by rw [List.length_cons, hzero hspent], fun h => absurd h hfresh⟩
    · exact ⟨hle, fun h => hzero (hspec.spent key h)⟩

theorem answers_answered (calls : List (EmbedCall K)) (h : Sized cache) :
    ∀ a ∈ answers kit cache calls, Answered kit
      (resolveDim (providerName kit.cm a.1.config.embeddingProvider) a.1.config.embeddingDim) a.1.text
      a.2.vector := by
  induction calls generalizing cache with
  | nil =>
    intro a ha
    cases ha
  | cons c calls ih =>
    have hspec := call_spec kit cache c
    intro a ha
    rcases List.mem_cons.mp ha with rfl | ha
    · exact hspec.answered h
    · exact ih (hspec.sized h) a ha

/-- Whatever the providers do and however the configuration changes, each vector has the length that the
configuration asks for, an embedding raises only on a text with a character that UTF-8 lacks, and a model
is loaded at most once for each signature. -/
theorem embeddings_sized (kit : HashKit K) (calls : List (EmbedCall K)) :
    (∀ a ∈ answers kit [] calls,
      (∀ v ∈ a.2.vector,
        v.length = resolveDim (providerName kit.cm a.1.config.embeddingProvider) a.1.config.embeddingDim) ∧
      (a.2.vector = none → ∃ c ∈ kit.normalized a.1.text, ¬ Json.Scalar c)) ∧
    ∀ key, triedFor kit.cm key (answers kit [] calls) ≤ 1 := by
  constructor
  · intro a ha
    have hempty : Sized ([] : Cache K) := fun key s h => by cases h
    obtain ⟨hlength, hraised⟩ := answers_answered calls hempty a ha
    exact ⟨hlength, hraised⟩
  · intro key
    exact (triedFor_le key calls []).1

/-- Letters and digits of ASCII as words, and the sum of a feature's characters as its digest -/
noncomputable def plainKit : HashKit ℝ where
  cm := .asciiOnly
  isWord c := (48 ≤ c && c ≤ 57) || (65 ≤ c && c ≤ 90) || (97 ≤ c && c ≤ 122) || c == 95
  digest feat := (feat.sum, feat.sum % 2 == 0)
  sqrt := Real.sqrt
  sqrt_nonneg := Real.sqrt_nonneg
  sqrt_mul_self _ := Real.mul_self_sqrt

/-- A machine on which nothing is installed -/
def bare : EmbedEnv ℝ where
  requestsInstalled := false
  post _ _ _ := .raises
  toFloat _ := none
  transformersInstalled := false
  transformer _ := none

def localModel : EmbedConfig := ⟨sentenceTransformers, str "bge-m3", 0, []⟩

theorem embeddings_sized_bare :
    triedFor plainKit.cm (signature plainKit.cm localModel)
      (answers plainKit [] [⟨localModel, bare, str "tea"⟩, ⟨localModel, bare, str "coffee"⟩]) ≤ 1 :=
  (embeddings_sized plainKit [⟨localModel, bare, str "tea"⟩, ⟨localModel, bare, str "coffee"⟩]).2 _

section Index

variable (kit env s) (cosineSimilarities : List (List K) → List K → List PyFloat) (topK : Int)

end Index

section Hashed

open MemoryService NumpyVectorIndex

variable {model baseUrl text : PyStr} {dim : Int} {k : SemanticKit K} {i : MemoryItem}

/-- A semantic layer that embeds with the hash vector of this length -/
structure Hashed (kit : HashKit K) (d : Nat) (k : SemanticKit K) : Prop where
  pos : 0 < d
  dim : k.dim = d
  embed : ∀ text, k.embed text = kit.hashVector d text

theorem Hashed.size {d : Nat} (h : Hashed kit d k) : k.size = d := by
  have hpos := h.pos
  rw [SemanticKit.size, h.dim, if_neg (by omega)]

end Hashed

end EmbeddingService

end VirtualPerson
