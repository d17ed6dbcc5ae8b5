import Mathlib.Data.Rat.Floor
import VirtualPerson.Avatar.Blend
import VirtualPerson.Python.Str

/-!
# From a reply to the face

`EmotionMapper` reads an emotion off the text of a reply, the handler sends its expression at the end of
the turn, and the client's controller moves the face there.
-/

namespace VirtualPerson

set_option autoImplicit false

inductive Affect where
  | neutral
  | happy
  | sad
  | surprised
  | thinking
  | confused
  deriving DecidableEq

structure AffectPreset where
  eyes : ℚ
  brows : ℚ
  mouth : ℚ
  head : ℚ
  deriving DecidableEq

structure EmotionResult where
  category : Affect
  intensity : ℚ
  expression : AffectPreset
  transitionMs : Int

namespace EmotionMapper

/-- `AFFECT_PRESETS` -/
def affectPresets : Affect → AffectPreset
  | .neutral => { eyes := 7 / 10, brows := 5 / 10, mouth := 5 / 10, head := 0 }
  | .happy => { eyes := 9 / 10, brows := 7 / 10, mouth := 8 / 10, head := 1 / 10 }
  | .sad => { eyes := 4 / 10, brows := 3 / 10, mouth := 2 / 10, head := -1 / 10 }
  | .surprised => { eyes := 1, brows := 1, mouth := 6 / 10, head := 0 }
  | .thinking => { eyes := 6 / 10, brows := 5 / 10, mouth := 4 / 10, head := 3 / 10 }
  | .confused => { eyes := 7 / 10, brows := 8 / 10, mouth := 45 / 100, head := -2 / 10 }

/-- `RULES` -/
def rules : List (Affect × List PyStr) :=
  [(.happy, [str "happy", str "glad", str "great", str "wonderful", str "awesome", str "😊", str "thanks",
      str "yay"]),
    (.sad, [str "sorry", str "unfortunately", str "sad", str "miss", str "regret", str "😢"]),
    (.surprised, [str "wow", str "unexpected", str "really?", str "omg", str "!?"]),
    (.thinking, [str "hmm", str "let me think", str "consider", str "...", str "perhaps"]),
    (.confused, [str "not sure", str "unclear", str "what do you mean", str "confused", str "maybe"])]

/-- `str.count` of a text that is not empty; `skip` characters belong to the last occurrence. -/
def count (needle : PyStr) : (skip : Nat) → PyStr → Nat
  | _, [] => 0
  | skip + 1, _ :: s => count needle skip s
  | 0, c :: s => if needle <+: c :: s then count needle (needle.length - 1) s + 1 else count needle 0 s

def keywordScore (raw : PyStr) (keywords : List PyStr) : ℚ :=
  min (((keywords.filter fun kw => PyStr.contains raw kw).length : ℚ) * (25 / 100)) 1

/-- What the punctuation adds -/
def punctuated (raw : PyStr) (score : ℚ) : Affect → ℚ
  | .happy => min 1 (score + count (str "!") 0 raw * (8 / 100))
  | .surprised => min 1 (score + (count (str "!") 0 raw + count (str "?") 0 raw : ℚ) * (6 / 100))
  | .thinking => min 1 (score + count (str "...") 0 raw * (12 / 100))
  | _ => score

def scores (raw : PyStr) : List (Affect × ℚ) :=
  (.neutral, 15 / 100) :: rules.map fun r => (r.1, punctuated raw (keywordScore raw r.2) r.1)

/-- `max(scores, key=scores.get)`: the first of the highest -/
def strongest (raw : PyStr) : Affect × ℚ :=
  (scores raw).foldl (fun best x => if best.2 < x.2 then x else best) (.neutral, 15 / 100)

/-- `_apply_intensity` -/
def applyIntensity (preset : AffectPreset) (intensity : ℚ) : AffectPreset :=
  let base := affectPresets .neutral
  { eyes := max 0 (min 1 (base.eyes + (preset.eyes - base.eyes) * intensity))
    brows := max 0 (min 1 (base.brows + (preset.brows - base.brows) * intensity))
    mouth := max 0 (min 1 (base.mouth + (preset.mouth - base.mouth) * intensity))
    head := max 0 (min 1 (base.head + (preset.head - base.head) * intensity)) }

def analyze (cm : CaseMap) (text : PyStr) : EmotionResult :=
  let raw := cm.lower text
  if PyStr.strip raw = [] then
    { category := .neutral, intensity := 0, expression := affectPresets .neutral, transitionMs := 300 }
  else
    let (category, score) := strongest raw
    let intensity := max 0 (min score 1)
    let (category, intensity) := if intensity < 2 / 10 then (.neutral, 1 / 10) else (category, intensity)
    { category
      intensity
      expression := applyIntensity (affectPresets category) intensity
      transitionMs := ⌊300 + 200 * intensity⌋ }

example : (analyze .asciiOnly (str "Wow! Really?")).category = .surprised := by decide +kernel

/-- All four values of an expression lie between zero and one. -/
structure Shown (p : AffectPreset) : Prop where
  eyes : p.eyes ∈ Set.Icc 0 1
  brows : p.brows ∈ Set.Icc 0 1
  mouth : p.mouth ∈ Set.Icc 0 1
  head : p.head ∈ Set.Icc 0 1

theorem shown_applyIntensity (preset : AffectPreset) (intensity : ℚ) :
    Shown (applyIntensity preset intensity) := by
  have hclip (x : ℚ) : max 0 (min 1 x) ∈ Set.Icc (0 : ℚ) 1 :=
    ⟨le_max_left _ _, max_le zero_le_one (min_le_left _ _)⟩
  exact ⟨hclip _, hclip _, hclip _, hclip _⟩

theorem shown_analyze (cm : CaseMap) (text : PyStr) : Shown (analyze cm text).expression := by
  unfold analyze
  dsimp only
  split
  · constructor <;> norm_num [affectPresets]
  · exact shown_applyIntensity _ _

end EmotionMapper

section Face

open Client

variable {K : Type} [Field K] [LinearOrder K] [IsStrictOrderedRing K]
variable {m : JsMath K} {p : AffectPreset}

/-- The `params` of the event -/
def AffectPreset.params (p : AffectPreset) : ExpressionParams K where
  eyes := some (some (p.eyes : K))
  brows := some (some (p.brows : K))
  head := some (some (p.head : K))
  mouth := some (some (p.mouth : K))
  mouthForm := none
  mouthOpen := none

/-- What the controller aims at after the event -/
def AffectPreset.aim (p : AffectPreset) (mouthOpen : K) : Expression K where
  eyes := (p.eyes : K)
  brows := (p.brows : K)
  mouthOpen
  mouthForm := (p.mouth : K)
  head := (p.head : K)

theorem cast_mem {x : ℚ} (hx : x ∈ Set.Icc (0 : ℚ) 1) : (x : K) ∈ Set.Icc (0 : K) 1 := by
  constructor
  · exact_mod_cast hx.1
  · exact_mod_cast hx.2

/-- None of the clamps of the client changes what the server sends. -/
theorem setExpressionTarget_params (hp : EmotionMapper.Shown p) (s : BlendState K) :
    (s.setExpressionTarget p.params).expressionTarget = p.aim s.expressionTarget.mouthOpen := by
  have hhead : (p.head : K) ∈ Set.Icc (-1) 1 := by
    obtain ⟨h₀, h₁⟩ := cast_mem (K := K) hp.head
    exact ⟨by linarith, h₁⟩
  simp only [BlendState.setExpressionTarget, AffectPreset.params, AffectPreset.aim, accept01,
    clamp01_eq (cast_mem hp.eyes), clamp01_eq (cast_mem hp.brows), clamp01_eq (cast_mem hp.mouth),
    clamp_eq hhead]

/-- How far a face is from what it aims at, a while later -/
structure Expression.Approached (target e e' : Expression K) (factor : K) : Prop where
  eyes : e'.eyes - target.eyes = factor * (e.eyes - target.eyes)
  brows : e'.brows - target.brows = factor * (e.brows - target.brows)
  mouthOpen : e'.mouthOpen - target.mouthOpen = factor * (e.mouthOpen - target.mouthOpen)
  mouthForm : e'.mouthForm - target.mouthForm = factor * (e.mouthForm - target.mouthForm)
  head : e'.head - target.head = factor * (e.head - target.head)

theorem smoothExp_sub {current target lambda dt : K} (hl : 0 < lambda) (hd : 0 < dt) :
    smoothExp m current target lambda dt - target = m.exp (-lambda * dt) * (current - target) := by
  have hmove : ¬ (lambda ≤ 0 ∨ dt ≤ 0) := not_or.mpr ⟨not_le.mpr hl, not_le.mpr hd⟩
  rw [smoothExp, if_neg hmove]
  ring

theorem approached_smooth {lambda dt : K} (hl : 0 < lambda) (hd : 0 < dt) (e target : Expression K) :
    Expression.Approached target e (e.smooth m lambda dt target) (m.exp (-lambda * dt)) where
  eyes := smoothExp_sub hl hd
  brows := smoothExp_sub hl hd
  mouthOpen := smoothExp_sub hl hd
  mouthForm := smoothExp_sub hl hd
  head := smoothExp_sub hl hd

/-- After the expression of a reply has come, the face aims at what the server read off the text, its head
never to the other side, and the distance falls off with the time that the frames let pass. -/
theorem expression_reaches_face (cfg : BlendConfig K) (m : JsMath K) (hl : 0 < cfg.expressionLambda)
    (cm : CaseMap) (text : PyStr) (calls : List (BlendCall K)) (times : List K) (ht : times ≠ []) :
    let p := (EmotionMapper.analyze cm text).expression
    let before := calls.foldl (BlendState.call cfg m) (BlendState.create cfg)
    let s := before.setExpressionTarget p.params
    let s' := times.foldl (BlendState.tick cfg m) s
    0 ≤ p.head ∧ s'.expressionTarget = p.aim before.expressionTarget.mouthOpen ∧
      Expression.Approached s'.expressionTarget before.expression s'.expression
        (m.exp (-cfg.expressionLambda * s.elapsed cfg m times)) := by
  intro p before s s'
  have hp : EmotionMapper.Shown p := EmotionMapper.shown_analyze cm text
  have htarget : s.expressionTarget = p.aim before.expressionTarget.mouthOpen :=
    setExpressionTarget_params hp before
  have hafter : BlendState.AfterSeconds cfg m s (s.elapsed cfg m times) s' :=
    BlendState.ticks_afterSeconds ht
  refine ⟨hp.head.1, hafter.expressionTarget.trans htarget, ?_⟩
  have hexpression : s'.expression = s.expression.smooth m cfg.expressionLambda (s.elapsed cfg m times)
      s.expressionTarget := hafter.expression
  have haim : s'.expressionTarget = s.expressionTarget := hafter.expressionTarget
  rw [hexpression, haim]
  exact approached_smooth hl (BlendState.elapsed_pos ht) before.expression s.expressionTarget

theorem expression_reaches_face_wow :
    0 ≤ (EmotionMapper.analyze .asciiOnly (str "Wow!")).expression.head :=
  (expression_reaches_face .default .real (by norm_num [BlendConfig.default]) .asciiOnly (str "Wow!")
    [.speaking true] [16, 33] (List.cons_ne_nil _ _)).1

end Face

end VirtualPerson
