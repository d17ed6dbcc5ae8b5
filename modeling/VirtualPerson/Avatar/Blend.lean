import Mathlib.Algebra.Order.Field.Basic
import Mathlib.Analysis.SpecialFunctions.Trigonometric.Basic
import Mathlib.Order.Interval.Set.Basic
import Mathlib.Tactic.Linarith
import Mathlib.Tactic.Ring

/-!
# The blend controller

`createBlendController` moves the face of the avatar towards its targets, a step in every
frame, and mixes the mouth of the expression with that of the speech. `blend.py` states the
same arithmetic for the server. Floats are taken as numbers of an ordered field, without
the rounding.
-/

namespace VirtualPerson

set_option autoImplicit false
set_option linter.unusedSectionVars false

variable {K : Type} [Field K] [LinearOrder K] [IsStrictOrderedRing K]

/-- `Math.exp`, `Math.sin` and `Math.PI` -/
structure JsMath (K : Type) [Field K] [LinearOrder K] [IsStrictOrderedRing K] where
  exp : K → K
  sin : K → K
  pi : K
  exp_pos : ∀ x, 0 < exp x
  exp_lt_one : ∀ x, x < 0 → exp x < 1
  exp_add : ∀ x y, exp (x + y) = exp x * exp y
  sin_mem : ∀ x, sin x ∈ Set.Icc (-1) 1

/-- The functions that the floats of JavaScript round -/
noncomputable def JsMath.real : JsMath ℝ where
  exp := Real.exp
  sin := Real.sin
  pi := Real.pi
  exp_pos := Real.exp_pos
  exp_lt_one _ h := Real.exp_lt_one_iff.mpr h
  exp_add := Real.exp_add
  sin_mem x := ⟨Real.neg_one_le_sin x, Real.sin_le_one x⟩

namespace BlendPy

/-- `clamp01`; `none` is `None` or a float that is not finite. -/
def clamp01 (value : Option K) (fallback : K) : K := max 0 (min 1 (value.getD fallback))

def expSmooth (m : JsMath K) (current target lam dtSec : K) : K :=
  if dtSec ≤ 0 ∨ lam ≤ 0 then target
  else
    let alpha := 1 - m.exp (-lam * dtSec)
    current + (target - current) * alpha

def blendMouth (expressionOpen speechOpen speechWeight : Option K) (microOpen : K) : K :=
  let w := clamp01 speechWeight 0
  let expr := clamp01 expressionOpen (1 / 20)
  let speech := clamp01 speechOpen (1 / 20)
  let mixed := expr * (1 - w) + speech * w + microOpen
  clamp01 (some mixed) expr

end BlendPy

namespace Client

/-- `clamp01`; `none` is what `Number.isFinite` refuses. -/
def clamp01 (v : Option K) (fallback : K) : K :=
  match v with
  | some v => max 0 (min 1 v)
  | none => fallback

def clamp (v : Option K) (lo hi fallback : K) : K :=
  match v with
  | some v => max lo (min hi v)
  | none => fallback

def smoothExp (m : JsMath K) (current target lambda dtSec : K) : K :=
  if lambda ≤ 0 ∨ dtSec ≤ 0 then target
  else
    let alpha := 1 - m.exp (-lambda * dtSec)
    current + (target - current) * alpha

def lerp (a b t : K) : K := a + (b - a) * t

structure BlendConfig (K : Type) where
  expressionLambda : K
  mouthLambda : K
  speechActivityLambda : K
  bodyLambda : K
  neutralOpen : K
  neutralForm : K
  microEnabled : Bool
  freqHz : K
  mouthOpenAmp : K
  headAmp : K
  idleAmpX : K
  idleAmpY : K
  speakAmpX : K
  speakAmpY : K
  breathBase : K
  breathAmp : K
  maxX : K
  maxY : K

/-- `DEFAULT_BLEND_CONFIG`; the tuning of `app.js` repeats it. -/
def BlendConfig.default : BlendConfig K where
  expressionLambda := 7
  mouthLambda := 20
  speechActivityLambda := 14
  bodyLambda := 8
  neutralOpen := 1 / 20
  neutralForm := 1 / 2
  microEnabled := true
  freqHz := 22 / 100
  mouthOpenAmp := 12 / 1000
  headAmp := 15 / 1000
  idleAmpX := 24 / 10
  idleAmpY := 8 / 10
  speakAmpX := 24 / 10
  speakAmpY := 8 / 10
  breathBase := 35 / 100
  breathAmp := 25 / 100
  maxX := 10
  maxY := 4

structure Expression (K : Type) where
  eyes : K
  brows : K
  mouthOpen : K
  mouthForm : K
  head : K

structure MouthShape (K : Type) where
  mouthOpen : K
  mouthForm : K

structure Body (K : Type) where
  angleX : K
  angleY : K
  breath : K
  phase : K

structure BlendState (K : Type) where
  lastTickMs : K
  microPhase : K
  bodyScale : K
  expression : Expression K
  expressionTarget : Expression K
  speech : MouthShape K
  speechTarget : MouthShape K
  activeCurrent : K
  activeTarget : K
  body : Body K

/-- What is handed to `onApply` -/
structure BlendOut (K : Type) where
  eyes : K
  brows : K
  head : K
  mouthOpen : K
  mouthForm : K
  speechWeight : K
  bodyAngleX : K
  bodyAngleY : K
  breath : K

/-- The parameters of an `avatar.expression` event; a missing one is `none`, and `some none` is one that
is no finite number. -/
structure ExpressionParams (K : Type) where
  eyes : Option (Option K)
  brows : Option (Option K)
  head : Option (Option K)
  mouth : Option (Option K)
  mouthForm : Option (Option K)
  mouthOpen : Option (Option K)

/-- `if (value !== undefined) next = clamp01(value, next)` -/
def accept01 (value : Option (Option K)) (next : K) : K :=
  match value with
  | some v => clamp01 v next
  | none => next

namespace BlendState

variable (cfg : BlendConfig K) (m : JsMath K)

def create : BlendState K where
  lastTickMs := 0
  microPhase := 0
  bodyScale := 1
  expression := { eyes := 7 / 10, brows := 1 / 2, mouthOpen := 1 / 20, mouthForm := 1 / 2, head := 0 }
  expressionTarget := { eyes := 7 / 10, brows := 1 / 2, mouthOpen := 1 / 20, mouthForm := 1 / 2, head := 0 }
  speech := { mouthOpen := cfg.neutralOpen, mouthForm := cfg.neutralForm }
  speechTarget := { mouthOpen := cfg.neutralOpen, mouthForm := cfg.neutralForm }
  activeCurrent := 0
  activeTarget := 0
  body := { angleX := 0, angleY := 0, breath := cfg.breathBase, phase := 0 }

def setExpressionTarget (s : BlendState K) (params : ExpressionParams K) : BlendState K :=
  let next := s.expressionTarget
  { s with
    expressionTarget :=
      { eyes := accept01 params.eyes next.eyes
        brows := accept01 params.brows next.brows
        head := match params.head with
          | some v => clamp v (-1) 1 next.head
          | none => next.head
        mouthForm := accept01 params.mouthForm (accept01 params.mouth next.mouthForm)
        mouthOpen := accept01 params.mouthOpen next.mouthOpen } }

def setSpeechTarget (s : BlendState K) (mouthOpen mouthForm : Option K) : BlendState K :=
  { s with
    speechTarget :=
      { mouthOpen := clamp01 mouthOpen s.speechTarget.mouthOpen
        mouthForm := clamp01 mouthForm s.speechTarget.mouthForm } }

def setSpeaking (s : BlendState K) (active : Bool) : BlendState K :=
  if active then { s with activeTarget := 1 }
  else
    { s with
      activeTarget := 0
      speechTarget := { mouthOpen := cfg.neutralOpen, mouthForm := cfg.neutralForm } }

def setBodyMotionScale (s : BlendState K) (scale : Option K) : BlendState K :=
  { s with bodyScale := clamp scale (4 / 10) 2 1 }

/-- The length of the frame in seconds, between a millisecond and fifty -/
def dtSec (s : BlendState K) (nowMs : K) : K :=
  let last := if s.lastTickMs = 0 then nowMs else s.lastTickMs
  min (1 / 20) (max (1 / 1000) ((nowMs - last) / 1000))

end BlendState

def Expression.smooth (m : JsMath K) (lambda dt : K) (current target : Expression K) : Expression K where
  eyes := smoothExp m current.eyes target.eyes lambda dt
  brows := smoothExp m current.brows target.brows lambda dt
  mouthOpen := smoothExp m current.mouthOpen target.mouthOpen lambda dt
  mouthForm := smoothExp m current.mouthForm target.mouthForm lambda dt
  head := smoothExp m current.head target.head lambda dt

def MouthShape.smooth (m : JsMath K) (lambda dt : K) (current target : MouthShape K) : MouthShape K where
  mouthOpen := smoothExp m current.mouthOpen target.mouthOpen lambda dt
  mouthForm := smoothExp m current.mouthForm target.mouthForm lambda dt

namespace BlendState

variable (cfg : BlendConfig K) (m : JsMath K)

/-- The parts of the face, a frame later -/
def smoothed (s : BlendState K) (dt : K) : BlendState K :=
  { s with
    expression := s.expression.smooth m cfg.expressionLambda dt s.expressionTarget
    activeCurrent := smoothExp m s.activeCurrent s.activeTarget cfg.speechActivityLambda dt
    speech := s.speech.smooth m cfg.mouthLambda dt s.speechTarget
    microPhase := if cfg.microEnabled then s.microPhase + dt * cfg.freqHz * m.pi * 2 else s.microPhase }

def microOpen (s : BlendState K) : K :=
  if cfg.microEnabled then m.sin s.microPhase * cfg.mouthOpenAmp else 0

def microHead (s : BlendState K) : K :=
  if cfg.microEnabled then m.sin (s.microPhase * (8 / 10) + 4 / 10) * cfg.headAmp else 0

def speechWeight (s : BlendState K) : K := clamp01 (some s.activeCurrent) 0

def blendedOpen (s : BlendState K) : K :=
  clamp01 (some (lerp s.expression.mouthOpen s.speech.mouthOpen s.speechWeight + s.microOpen cfg m))
    s.expression.mouthOpen

def blendedForm (s : BlendState K) : K :=
  clamp01 (some (lerp s.expression.mouthForm s.speech.mouthForm s.speechWeight)) s.expression.mouthForm

def speakEnergy (s : BlendState K) : K :=
  let mouthEnergy := clamp01 (some ((s.blendedOpen cfg m - cfg.neutralOpen) / (55 / 100))) 0
  clamp01 (some (s.speechWeight * (65 / 100) + mouthEnergy * (35 / 100))) 0

/-- The body, a frame later -/
def moved (s : BlendState K) (dt : K) : Body K :=
  let energy := s.speakEnergy cfg m
  let phase := s.body.phase + dt * (cfg.freqHz * (7 / 10) + s.speechWeight * (45 / 100)) * m.pi * 2
  let ampX := lerp cfg.idleAmpX cfg.speakAmpX energy * s.bodyScale
  let ampY := lerp cfg.idleAmpY cfg.speakAmpY energy * s.bodyScale
  let targetX := clamp (some (m.sin (phase + 1 / 10) * ampX)) (-cfg.maxX) cfg.maxX 0
  let targetY := clamp (some (m.sin (phase * (85 / 100) + 1) * ampY)) (-cfg.maxY) cfg.maxY 0
  let targetBreath :=
    clamp (some (cfg.breathBase + m.sin (phase * (1 / 2) + 7 / 10) * cfg.breathAmp *
      (45 / 100 + 55 / 100 * energy))) 0 1 cfg.breathBase
  { phase
    angleX := smoothExp m s.body.angleX targetX cfg.bodyLambda dt
    angleY := smoothExp m s.body.angleY targetY cfg.bodyLambda dt
    breath := smoothExp m s.body.breath targetBreath (cfg.bodyLambda * (3 / 4)) dt }

/-- What the face of a frame is -/
def applied (s : BlendState K) : BlendOut K where
  eyes := clamp01 (some s.expression.eyes) (7 / 10)
  brows := clamp01 (some s.expression.brows) (1 / 2)
  head := clamp (some (s.expression.head + s.microHead cfg m)) (-1) 1 0
  mouthOpen := s.blendedOpen cfg m
  mouthForm := s.blendedForm
  speechWeight := s.speechWeight
  bodyAngleX := clamp (some s.body.angleX) (-cfg.maxX) cfg.maxX 0
  bodyAngleY := clamp (some s.body.angleY) (-cfg.maxY) cfg.maxY 0
  breath := clamp01 (some s.body.breath) cfg.breathBase

def tick (s : BlendState K) (nowMs : K) : BlendState K :=
  let dt := s.dtSec nowMs
  let face := { s with lastTickMs := nowMs }.smoothed cfg m dt
  { face with body := face.moved cfg m dt }

end BlendState

/-- A call of the controller; after a tick `applied` goes to `onApply`. -/
inductive BlendCall (K : Type) where
  | expression (params : ExpressionParams K)
  | speech (mouthOpen mouthForm : Option K)
  | speaking (active : Bool)
  | bodyScale (scale : Option K)
  | tick (nowMs : K)

def BlendState.call (cfg : BlendConfig K) (m : JsMath K) (s : BlendState K) : BlendCall K → BlendState K
  | .expression params => s.setExpressionTarget params
  | .speech mouthOpen mouthForm => s.setSpeechTarget mouthOpen mouthForm
  | .speaking active => s.setSpeaking cfg active
  | .bodyScale scale => s.setBodyMotionScale scale
  | .tick nowMs => s.tick cfg m nowMs

theorem lerp_mem {lo hi a b t : K} (ha : a ∈ Set.Icc lo hi) (hb : b ∈ Set.Icc lo hi)
    (ht : t ∈ Set.Icc 0 1) : lerp a b t ∈ Set.Icc lo hi := by
  obtain ⟨ht₀, ht₁⟩ := ht
  have hsplit : lerp a b t = (1 - t) * a + t * b := by
    unfold lerp
    ring
  rw [hsplit]
  constructor
  · nlinarith [mul_nonneg (sub_nonneg.mpr ht₁) (sub_nonneg.mpr ha.1), mul_nonneg ht₀ (sub_nonneg.mpr hb.1)]
  · nlinarith [mul_nonneg (sub_nonneg.mpr ht₁) (sub_nonneg.mpr ha.2), mul_nonneg ht₀ (sub_nonneg.mpr hb.2)]

theorem clamp_mem {v : Option K} {lo hi f : K} (hf : f ∈ Set.Icc lo hi) :
    clamp v lo hi f ∈ Set.Icc lo hi := by
  cases v with
  | none => exact hf
  | some v => exact ⟨le_max_left _ _, max_le (hf.1.trans hf.2) (min_le_left _ _)⟩

theorem clamp_eq {v lo hi f : K} (hv : v ∈ Set.Icc lo hi) :
    clamp (some v) lo hi f = v := by
  simp only [clamp, min_eq_right hv.2, max_eq_right hv.1]

theorem clamp01_eq_clamp (v : Option K) (f : K) : clamp01 v f = clamp v 0 1 f := by
  cases v <;> rfl

theorem clamp01_mem {v : Option K} {f : K} (hf : f ∈ Set.Icc 0 1) :
    clamp01 v f ∈ Set.Icc 0 1 := by
  rw [clamp01_eq_clamp]
  exact clamp_mem hf

theorem clamp01_eq {v f : K} (hv : v ∈ Set.Icc 0 1) : clamp01 (some v) f = v := by
  rw [clamp01_eq_clamp]
  exact clamp_eq hv

theorem clamp01_some_mem (v f : K) : clamp01 (some v) f ∈ Set.Icc 0 1 :=
  ⟨le_max_left _ _, max_le zero_le_one (min_le_left _ _)⟩

theorem accept01_mem {v : Option (Option K)} {next : K} (hn : next ∈ Set.Icc 0 1) :
    accept01 v next ∈ Set.Icc 0 1 := by
  cases v with
  | none => exact hn
  | some v => exact clamp01_mem hn

section Smoothing

variable (m : JsMath K)

/-- A step lands between where it starts and where it aims. -/
theorem smoothExp_mem {lo hi current target : K} (lambda dt : K) (hc : current ∈ Set.Icc lo hi)
    (ht : target ∈ Set.Icc lo hi) : smoothExp m current target lambda dt ∈ Set.Icc lo hi := by
  unfold smoothExp
  split
  · exact ht
  · rename_i h
    obtain ⟨hl, hd⟩ := not_or.mp h
    have hneg : -lambda * dt < 0 := by
      rw [neg_mul]
      exact neg_neg_of_pos (mul_pos (not_le.mp hl) (not_le.mp hd))
    have hpos := m.exp_pos (-lambda * dt)
    have hlt := m.exp_lt_one _ hneg
    exact lerp_mem hc ht ⟨by linarith, by linarith⟩

/-- Two steps towards one target are one step over both frames. -/
theorem smoothExp_smoothExp {dt dt' : K} (current target lambda : K) (hd : 0 < dt) (hd' : 0 < dt') :
    smoothExp m (smoothExp m current target lambda dt) target lambda dt' =
      smoothExp m current target lambda (dt + dt') := by
  unfold smoothExp
  by_cases hl : lambda ≤ 0
  · simp only [hl, true_or, if_true]
  · have hsum : 0 < dt + dt' := add_pos hd hd'
    simp only [hl, not_le.mpr hd, not_le.mpr hd', not_le.mpr hsum, or_self, if_false]
    rw [mul_add, m.exp_add]
    ring

theorem Expression.smooth_smooth {dt dt' : K} (lambda : K) (current target : Expression K) (hd : 0 < dt)
    (hd' : 0 < dt') :
    (current.smooth m lambda dt target).smooth m lambda dt' target =
      current.smooth m lambda (dt + dt') target := by
  simp only [Expression.smooth, smoothExp_smoothExp m _ _ _ hd hd']

theorem MouthShape.smooth_smooth {dt dt' : K} (lambda : K) (current target : MouthShape K) (hd : 0 < dt)
    (hd' : 0 < dt') :
    (current.smooth m lambda dt target).smooth m lambda dt' target =
      current.smooth m lambda (dt + dt') target := by
  simp only [MouthShape.smooth, smoothExp_smoothExp m _ _ _ hd hd']

end Smoothing

/-- A tuning whose resting face lies in the ranges itself -/
structure BlendConfig.Sane (cfg : BlendConfig K) : Prop where
  neutralOpen : cfg.neutralOpen ∈ Set.Icc 0 1
  neutralForm : cfg.neutralForm ∈ Set.Icc 0 1
  breathBase : cfg.breathBase ∈ Set.Icc 0 1
  maxX : 0 ≤ cfg.maxX
  maxY : 0 ≤ cfg.maxY

theorem BlendConfig.default_sane : (BlendConfig.default : BlendConfig K).Sane := by
  constructor <;> norm_num [BlendConfig.default]

structure Expression.InRange (e : Expression K) : Prop where
  eyes : e.eyes ∈ Set.Icc 0 1
  brows : e.brows ∈ Set.Icc 0 1
  mouthOpen : e.mouthOpen ∈ Set.Icc 0 1
  mouthForm : e.mouthForm ∈ Set.Icc 0 1
  head : e.head ∈ Set.Icc (-1) 1

structure MouthShape.InRange (f : MouthShape K) : Prop where
  mouthOpen : f.mouthOpen ∈ Set.Icc 0 1
  mouthForm : f.mouthForm ∈ Set.Icc 0 1

structure Body.InRange (cfg : BlendConfig K) (b : Body K) : Prop where
  angleX : b.angleX ∈ Set.Icc (-cfg.maxX) cfg.maxX
  angleY : b.angleY ∈ Set.Icc (-cfg.maxY) cfg.maxY
  breath : b.breath ∈ Set.Icc 0 1

structure BlendState.InRange (cfg : BlendConfig K) (s : BlendState K) : Prop where
  expression : s.expression.InRange
  expressionTarget : s.expressionTarget.InRange
  speech : s.speech.InRange
  speechTarget : s.speechTarget.InRange
  activeCurrent : s.activeCurrent ∈ Set.Icc 0 1
  activeTarget : s.activeTarget ∈ Set.Icc 0 1
  bodyScale : s.bodyScale ∈ Set.Icc (4 / 10) 2
  body : s.body.InRange cfg

theorem Expression.InRange.smooth {e target : Expression K} (he : e.InRange) (ht : target.InRange)
    (m : JsMath K) (lambda dt : K) : (e.smooth m lambda dt target).InRange where
  eyes := smoothExp_mem m lambda dt he.eyes ht.eyes
  brows := smoothExp_mem m lambda dt he.brows ht.brows
  mouthOpen := smoothExp_mem m lambda dt he.mouthOpen ht.mouthOpen
  mouthForm := smoothExp_mem m lambda dt he.mouthForm ht.mouthForm
  head := smoothExp_mem m lambda dt he.head ht.head

theorem MouthShape.InRange.smooth {f target : MouthShape K} (hf : f.InRange) (ht : target.InRange)
    (m : JsMath K) (lambda dt : K) : (f.smooth m lambda dt target).InRange where
  mouthOpen := smoothExp_mem m lambda dt hf.mouthOpen ht.mouthOpen
  mouthForm := smoothExp_mem m lambda dt hf.mouthForm ht.mouthForm

namespace BlendState

variable {cfg : BlendConfig K} {m : JsMath K} {s : BlendState K}

theorem create_inRange (hc : cfg.Sane) : (create cfg).InRange cfg where
  expression := by constructor <;> norm_num [create]
  expressionTarget := by constructor <;> norm_num [create]
  speech := ⟨hc.neutralOpen, hc.neutralForm⟩
  speechTarget := ⟨hc.neutralOpen, hc.neutralForm⟩
  activeCurrent := ⟨le_refl _, zero_le_one⟩
  activeTarget := ⟨le_refl _, zero_le_one⟩
  bodyScale := by norm_num [create]
  body := ⟨⟨neg_nonpos.mpr hc.maxX, hc.maxX⟩, ⟨neg_nonpos.mpr hc.maxY, hc.maxY⟩, hc.breathBase⟩

theorem InRange.setExpressionTarget (h : s.InRange cfg) (params : ExpressionParams K) :
    (s.setExpressionTarget params).InRange cfg :=
  { h with
    expressionTarget :=
      { eyes := accept01_mem h.expressionTarget.eyes
        brows := accept01_mem h.expressionTarget.brows
        mouthOpen := accept01_mem h.expressionTarget.mouthOpen
        mouthForm := accept01_mem (accept01_mem h.expressionTarget.mouthForm)
        head := by
          unfold BlendState.setExpressionTarget
          cases params.head with
          | none => exact h.expressionTarget.head
          | some v => exact clamp_mem h.expressionTarget.head } }

theorem InRange.setSpeechTarget (h : s.InRange cfg) (mouthOpen mouthForm : Option K) :
    (s.setSpeechTarget mouthOpen mouthForm).InRange cfg :=
  { h with
    speechTarget := ⟨clamp01_mem h.speechTarget.mouthOpen, clamp01_mem h.speechTarget.mouthForm⟩ }

theorem InRange.setSpeaking (hc : cfg.Sane) (h : s.InRange cfg) (active : Bool) :
    (s.setSpeaking cfg active).InRange cfg := by
  cases active with
  | true => exact { h with activeTarget := ⟨zero_le_one, le_refl _⟩ }
  | false =>
    exact { h with
      activeTarget := ⟨le_refl _, zero_le_one⟩
      speechTarget := ⟨hc.neutralOpen, hc.neutralForm⟩ }

theorem InRange.setBodyMotionScale (h : s.InRange cfg) (scale : Option K) :
    (s.setBodyMotionScale scale).InRange cfg :=
  { h with bodyScale := clamp_mem (by norm_num) }

theorem InRange.smoothed (h : s.InRange cfg) (dt : K) : (s.smoothed cfg m dt).InRange cfg :=
  { h with
    expression := h.expression.smooth h.expressionTarget m _ dt
    activeCurrent := smoothExp_mem m _ dt h.activeCurrent h.activeTarget
    speech := h.speech.smooth h.speechTarget m _ dt }

theorem InRange.moved (hc : cfg.Sane) (h : s.InRange cfg) (dt : K) : (s.moved cfg m dt).InRange cfg where
  angleX := smoothExp_mem m _ dt h.body.angleX (clamp_mem ⟨neg_nonpos.mpr hc.maxX, hc.maxX⟩)
  angleY := smoothExp_mem m _ dt h.body.angleY (clamp_mem ⟨neg_nonpos.mpr hc.maxY, hc.maxY⟩)
  breath := smoothExp_mem m _ dt h.body.breath (clamp_mem hc.breathBase)

theorem InRange.tick (hc : cfg.Sane) (h : s.InRange cfg) (nowMs : K) : (s.tick cfg m nowMs).InRange cfg := by
  have hs : BlendState.InRange cfg { s with lastTickMs := nowMs } := { h with }
  have hface := hs.smoothed (m := m) (s.dtSec nowMs)
  exact { hface with body := hface.moved hc (s.dtSec nowMs) }

theorem InRange.call (hc : cfg.Sane) (h : s.InRange cfg) (c : BlendCall K) :
    (s.call cfg m c).InRange cfg := by
  cases c with
  | expression params => exact h.setExpressionTarget params
  | speech mouthOpen mouthForm => exact h.setSpeechTarget mouthOpen mouthForm
  | speaking active => exact h.setSpeaking hc active
  | bodyScale scale => exact h.setBodyMotionScale scale
  | tick nowMs => exact h.tick hc nowMs

theorem InRange.calls (hc : cfg.Sane) (h : s.InRange cfg) (cs : List (BlendCall K)) :
    (cs.foldl (BlendState.call cfg m) s).InRange cfg := by
  induction cs generalizing s with
  | nil => exact h
  | cons c cs ih => exact ih (h.call hc c)

end BlendState

/-- A small push from within a range is clamped by no more than the push. -/
theorem abs_clamp_sub_le {v d lo hi f : K} (hv : v ∈ Set.Icc lo hi) :
    |clamp (some (v + d)) lo hi f - v| ≤ |d| := by
  obtain ⟨hlo, hhi⟩ := hv
  have hneg := neg_abs_le d
  have hpos := le_abs_self d
  have habs := abs_nonneg d
  simp only [clamp]
  rw [abs_le]
  constructor
  · have hmin : v - |d| ≤ min hi (v + d) := le_min (by linarith) (by linarith)
    have hmax := hmin.trans (le_max_right lo (min hi (v + d)))
    linarith
  · have hmax : max lo (min hi (v + d)) ≤ v + |d| :=
      max_le (by linarith) ((min_le_right _ _).trans (by linarith))
    linarith

structure BlendOut.InRange (cfg : BlendConfig K) (o : BlendOut K) : Prop where
  eyes : o.eyes ∈ Set.Icc 0 1
  brows : o.brows ∈ Set.Icc 0 1
  head : o.head ∈ Set.Icc (-1) 1
  mouthOpen : o.mouthOpen ∈ Set.Icc 0 1
  mouthForm : o.mouthForm ∈ Set.Icc 0 1
  speechWeight : o.speechWeight ∈ Set.Icc 0 1
  bodyAngleX : o.bodyAngleX ∈ Set.Icc (-cfg.maxX) cfg.maxX
  bodyAngleY : o.bodyAngleY ∈ Set.Icc (-cfg.maxY) cfg.maxY
  breath : o.breath ∈ Set.Icc 0 1

namespace BlendState

variable {cfg : BlendConfig K} {m : JsMath K} {s : BlendState K}

theorem abs_microOpen_le : |s.microOpen cfg m| ≤ |cfg.mouthOpenAmp| := by
  unfold microOpen
  split
  · rw [abs_mul]
    exact mul_le_of_le_one_left (abs_nonneg _) (abs_le.mpr (m.sin_mem _))
  · rw [abs_zero]
    exact abs_nonneg _

theorem abs_microHead_le : |s.microHead cfg m| ≤ |cfg.headAmp| := by
  unfold microHead
  split
  · rw [abs_mul]
    exact mul_le_of_le_one_left (abs_nonneg _) (abs_le.mpr (m.sin_mem _))
  · rw [abs_zero]
    exact abs_nonneg _

namespace InRange

variable (h : s.InRange cfg)
include h

theorem speechWeight_eq : s.speechWeight = s.activeCurrent := clamp01_eq h.activeCurrent

theorem lerpOpen_mem :
    lerp s.expression.mouthOpen s.speech.mouthOpen s.activeCurrent ∈ Set.Icc 0 1 :=
  lerp_mem h.expression.mouthOpen h.speech.mouthOpen h.activeCurrent

theorem blendedForm_eq :
    s.blendedForm = lerp s.expression.mouthForm s.speech.mouthForm s.activeCurrent := by
  unfold blendedForm
  rw [h.speechWeight_eq]
  exact clamp01_eq (lerp_mem h.expression.mouthForm h.speech.mouthForm h.activeCurrent)

theorem abs_blendedOpen_sub_le :
    |s.blendedOpen cfg m - lerp s.expression.mouthOpen s.speech.mouthOpen s.activeCurrent| ≤
      |cfg.mouthOpenAmp| := by
  unfold blendedOpen
  rw [h.speechWeight_eq, clamp01_eq_clamp]
  exact (abs_clamp_sub_le h.lerpOpen_mem).trans abs_microOpen_le

theorem applied (hc : cfg.Sane) : (s.applied cfg m).InRange cfg where
  eyes := clamp01_some_mem _ 0
  brows := clamp01_some_mem _ 0
  head := clamp_mem (v := some (s.expression.head + s.microHead cfg m)) (f := 0) (by norm_num)
  mouthOpen := clamp01_some_mem _ 0
  mouthForm := clamp01_some_mem _ 0
  speechWeight := clamp01_some_mem _ 0
  bodyAngleX := clamp_mem (v := some s.body.angleX) ⟨neg_nonpos.mpr hc.maxX, hc.maxX⟩
  bodyAngleY := clamp_mem (v := some s.body.angleY) ⟨neg_nonpos.mpr hc.maxY, hc.maxY⟩
  breath := clamp01_mem (v := some s.body.breath) hc.breathBase

end InRange

/-- Whatever is called in whatever order, the clamps of the last line have nothing to cut but the two
small motions. -/
theorem controller_stays_in_range (hc : cfg.Sane) (cs : List (BlendCall K)) :
    let s := cs.foldl (BlendState.call cfg m) (create cfg)
    let o := s.applied cfg m
    s.InRange cfg ∧ o.InRange cfg ∧
      o.eyes = s.expression.eyes ∧ o.brows = s.expression.brows ∧
      o.speechWeight = s.activeCurrent ∧
      o.mouthForm = lerp s.expression.mouthForm s.speech.mouthForm s.activeCurrent ∧
      o.bodyAngleX = s.body.angleX ∧ o.bodyAngleY = s.body.angleY ∧ o.breath = s.body.breath ∧
      |o.head - s.expression.head| ≤ |cfg.headAmp| ∧
      |o.mouthOpen - lerp s.expression.mouthOpen s.speech.mouthOpen s.activeCurrent| ≤
        |cfg.mouthOpenAmp| := by
  intro s o
  have h : s.InRange cfg := (create_inRange hc).calls hc cs
  have hhead : |clamp (some (s.expression.head + s.microHead cfg m)) (-1) 1 0 - s.expression.head| ≤
      |cfg.headAmp| := (abs_clamp_sub_le h.expression.head).trans abs_microHead_le
  exact ⟨h, h.applied hc, clamp01_eq (f := 7 / 10) h.expression.eyes,
    clamp01_eq (f := 1 / 2) h.expression.brows, h.speechWeight_eq, h.blendedForm_eq,
    clamp_eq (f := 0) h.body.angleX, clamp_eq (f := 0) h.body.angleY,
    clamp01_eq (f := cfg.breathBase) h.body.breath, hhead, h.abs_blendedOpen_sub_le⟩

theorem controller_stays_in_range_loud :
    ([.speaking true, .speech (some 9) none, .tick 16, .tick 33].foldl
      (BlendState.call .default .real) (create .default)).InRange BlendConfig.default :=
  (controller_stays_in_range (m := .real) BlendConfig.default_sane
    [.speaking true, .speech (some 9) none, .tick 16, .tick 33]).1

/-- The seconds that frames at these times let pass -/
def elapsed (cfg : BlendConfig K) (m : JsMath K) (s : BlendState K) : List K → K
  | [] => 0
  | nowMs :: times => s.dtSec nowMs + (s.tick cfg m nowMs).elapsed cfg m times

/-- The face after `dt` seconds towards the present targets -/
structure AfterSeconds (cfg : BlendConfig K) (m : JsMath K) (s : BlendState K) (dt : K)
    (s' : BlendState K) : Prop where
  expression : s'.expression = s.expression.smooth m cfg.expressionLambda dt s.expressionTarget
  expressionTarget : s'.expressionTarget = s.expressionTarget
  speech : s'.speech = s.speech.smooth m cfg.mouthLambda dt s.speechTarget
  speechTarget : s'.speechTarget = s.speechTarget
  activeCurrent : s'.activeCurrent = smoothExp m s.activeCurrent s.activeTarget cfg.speechActivityLambda dt
  activeTarget : s'.activeTarget = s.activeTarget
  microPhase : cfg.microEnabled = true → s'.microPhase = s.microPhase + dt * cfg.freqHz * m.pi * 2
  microStill : cfg.microEnabled = false → s'.microPhase = s.microPhase

theorem dtSec_pos (nowMs : K) : 0 < s.dtSec nowMs := by
  have hmin : (0 : K) < 1 / 20 := by norm_num
  have hmax : (0 : K) < 1 / 1000 := by norm_num
  exact lt_min hmin (hmax.trans_le (le_max_left _ _))

theorem tick_afterSeconds (nowMs : K) : AfterSeconds cfg m s (s.dtSec nowMs) (s.tick cfg m nowMs) where
  expression := rfl
  expressionTarget := rfl
  speech := rfl
  speechTarget := rfl
  activeCurrent := rfl
  activeTarget := rfl
  microPhase h := if_pos h
  microStill h := if_neg (by rw [h]; exact Bool.false_ne_true)

/-- A while and another while are the two together. -/
theorem AfterSeconds.trans {s' s'' : BlendState K} {dt dt' : K} (hd : 0 < dt) (hd' : 0 < dt')
    (h : AfterSeconds cfg m s dt s') (h' : AfterSeconds cfg m s' dt' s'') :
    AfterSeconds cfg m s (dt + dt') s'' where
  expression := by
    rw [h'.expression, h.expressionTarget, h.expression, Expression.smooth_smooth m _ _ _ hd hd']
  expressionTarget := h'.expressionTarget.trans h.expressionTarget
  speech := by rw [h'.speech, h.speechTarget, h.speech, MouthShape.smooth_smooth m _ _ _ hd hd']
  speechTarget := h'.speechTarget.trans h.speechTarget
  activeCurrent := by
    rw [h'.activeCurrent, h.activeTarget, h.activeCurrent, smoothExp_smoothExp m _ _ _ hd hd']
  activeTarget := h'.activeTarget.trans h.activeTarget
  microPhase hm := by
    rw [h'.microPhase hm, h.microPhase hm]
    ring
  microStill hm := (h'.microStill hm).trans (h.microStill hm)

theorem elapsed_nonneg (times : List K) : 0 ≤ s.elapsed cfg m times := by
  induction times generalizing s with
  | nil => exact le_refl _
  | cons nowMs times ih => exact add_nonneg (dtSec_pos nowMs).le ih

theorem elapsed_pos {times : List K} (h : times ≠ []) : 0 < s.elapsed cfg m times := by
  cases times with
  | nil => exact absurd rfl h
  | cons nowMs times => exact add_pos_of_pos_of_nonneg (dtSec_pos nowMs) (elapsed_nonneg times)

theorem ticks_afterSeconds {times : List K} (h : times ≠ []) :
    AfterSeconds cfg m s (s.elapsed cfg m times) (times.foldl (BlendState.tick cfg m) s) := by
  induction times generalizing s with
  | nil => exact absurd rfl h
  | cons nowMs times ih =>
    cases times with
    | nil =>
      have helapsed : s.elapsed cfg m [nowMs] = s.dtSec nowMs := add_zero _
      rw [helapsed]
      exact tick_afterSeconds nowMs
    | cons next times =>
      have hrest : next :: times ≠ [] := List.cons_ne_nil _ _
      exact (tick_afterSeconds nowMs).trans (dtSec_pos nowMs) (elapsed_pos hrest) (ih hrest)

/-- Frames between a millisecond and fifty apart -/
def Regular (last : K) (times : List K) : Prop :=
  List.IsChain (fun a b => 1 ≤ b - a ∧ b - a ≤ 50) (last :: times)

theorem dtSec_regular {nowMs : K} (hs : 0 < s.lastTickMs) (h₁ : 1 ≤ nowMs - s.lastTickMs)
    (h₂ : nowMs - s.lastTickMs ≤ 50) : s.dtSec nowMs = (nowMs - s.lastTickMs) / 1000 := by
  have hlow : 1 / 1000 ≤ (nowMs - s.lastTickMs) / 1000 := by linarith
  have hhigh : (nowMs - s.lastTickMs) / 1000 ≤ 1 / 20 := by linarith
  simp only [dtSec, hs.ne', if_false, max_eq_right hlow, min_eq_right hhigh]

theorem elapsed_regular {times : List K} (hs : 0 < s.lastTickMs) (h : Regular s.lastTickMs times) :
    s.elapsed cfg m times =
      ((s.lastTickMs :: times).getLast (List.cons_ne_nil _ _) - s.lastTickMs) / 1000 := by
  induction times generalizing s with
  | nil => simp [elapsed]
  | cons nowMs times ih =>
    obtain ⟨⟨h₁, h₂⟩, hrest⟩ := List.isChain_cons_cons.mp h
    have hnow : 0 < nowMs := by linarith
    have htail := ih (s := s.tick cfg m nowMs) hnow hrest
    have hlast : (s.tick cfg m nowMs).lastTickMs = nowMs := rfl
    rw [hlast] at htail
    rw [elapsed, dtSec_regular hs h₁ h₂, htail, List.getLast_cons (List.cons_ne_nil _ _)]
    ring

/-- The face depends on the time that passed and not on the frames it passed in. -/
theorem frames_compose (s : BlendState K) (times : List K) (h : times ≠ []) :
    let s' := times.foldl (BlendState.tick cfg m) s
    AfterSeconds cfg m s (s.elapsed cfg m times) s' ∧
      (0 < s.lastTickMs → Regular s.lastTickMs times →
        AfterSeconds cfg m s ((times.getLast h - s.lastTickMs) / 1000) s') := by
  intro s'
  refine ⟨ticks_afterSeconds h, fun hs hr => ?_⟩
  have helapsed : s.elapsed cfg m times = _ := elapsed_regular hs hr
  rw [List.getLast_cons h] at helapsed
  rw [← helapsed]
  exact ticks_afterSeconds h

theorem frames_compose_two :
    AfterSeconds .default .real ((create .default).tick .default .real 16) ((50 - 16) / 1000)
      ([33, 50].foldl (BlendState.tick .default .real) ((create .default).tick .default .real 16)) :=
  (frames_compose ((create .default).tick .default .real 16) [33, 50] (List.cons_ne_nil _ _)).2
    (by norm_num [tick, smoothed]) (by simp only [Regular]; norm_num [tick, smoothed])

end BlendState

theorem blendPy_clamp01_eq {v f : K} (hv : v ∈ Set.Icc 0 1) : BlendPy.clamp01 (some v) f = v := by
  simp only [BlendPy.clamp01, Option.getD_some, min_eq_right hv.2, max_eq_right hv.1]

theorem blendPy_clamp01_some (v f g : K) : BlendPy.clamp01 (some v) f = clamp01 (some v) g := rfl

theorem smoothExp_eq_expSmooth (m : JsMath K) (current target lambda dt : K) :
    smoothExp m current target lambda dt = BlendPy.expSmooth m current target lambda dt := by
  unfold smoothExp BlendPy.expSmooth
  exact if_congr or_comm rfl rfl

/-- In every frame the client moves its mouth as the server's helpers do. -/
theorem mouth_agrees {cfg : BlendConfig K} (m : JsMath K) (hc : cfg.Sane) (cs : List (BlendCall K))
    (nowMs : K) :
    let s := cs.foldl (BlendState.call cfg m) (BlendState.create cfg)
    let s' := s.tick cfg m nowMs
    let expr := BlendPy.expSmooth m s.expression.mouthOpen s.expressionTarget.mouthOpen
      cfg.expressionLambda (s.dtSec nowMs)
    let speech := BlendPy.expSmooth m s.speech.mouthOpen s.speechTarget.mouthOpen cfg.mouthLambda
      (s.dtSec nowMs)
    let weight := BlendPy.expSmooth m s.activeCurrent s.activeTarget cfg.speechActivityLambda
      (s.dtSec nowMs)
    (s'.applied cfg m).mouthOpen =
      BlendPy.blendMouth (some expr) (some speech) (some weight) (s'.microOpen cfg m) := by
  intro s s' expr speech weight
  have h : s'.InRange cfg := ((BlendState.create_inRange hc).calls hc cs).tick hc nowMs
  have hexpr : expr = s'.expression.mouthOpen := (smoothExp_eq_expSmooth m _ _ _ _).symm
  have hspeech : speech = s'.speech.mouthOpen := (smoothExp_eq_expSmooth m _ _ _ _).symm
  have hweight : weight = s'.activeCurrent := (smoothExp_eq_expSmooth m _ _ _ _).symm
  have happlied : (s'.applied cfg m).mouthOpen = s'.blendedOpen cfg m := rfl
  rw [hexpr, hspeech, hweight, happlied]
  unfold BlendPy.blendMouth BlendState.blendedOpen
  simp only [blendPy_clamp01_eq h.activeCurrent, blendPy_clamp01_eq h.expression.mouthOpen,
    blendPy_clamp01_eq h.speech.mouthOpen, h.speechWeight_eq]
  have hmix : lerp s'.expression.mouthOpen s'.speech.mouthOpen s'.activeCurrent =
      s'.expression.mouthOpen * (1 - s'.activeCurrent) + s'.speech.mouthOpen * s'.activeCurrent := by
    unfold lerp
    ring
  rw [hmix]
  exact (blendPy_clamp01_some _ _ _).symm

theorem mouth_agrees_loud :
    ∃ expr speech weight,
      ((([.speaking true, .speech (some 9) none].foldl (BlendState.call .default .real)
        (BlendState.create BlendConfig.default)).tick .default .real 16).applied .default .real).mouthOpen =
        BlendPy.blendMouth (some expr) (some speech) (some weight)
          ((([.speaking true, .speech (some 9) none].foldl (BlendState.call .default .real)
            (BlendState.create BlendConfig.default)).tick .default .real 16).microOpen .default .real) :=
  ⟨_, _, _, mouth_agrees .real BlendConfig.default_sane [.speaking true, .speech (some 9) none] 16⟩

end Client

end VirtualPerson
