import Mathlib.Tactic.NormNum
import VirtualPerson.Python.Assoc
import VirtualPerson.Python.Round
import VirtualPerson.Python.Words

/-!
# Lip sync

Phoneme intervals estimated from the letters of a text, and the mouth shapes they are
turned into. The intervals tile the speaking time and the mouth stays in range.
-/

namespace VirtualPerson

set_option autoImplicit false

/-- `str.upper`. What it does outside ASCII is left open. -/
structure UpperMap where
  upper : PyStr → PyStr
  ascii : ∀ s : PyStr, (∀ c ∈ s, c < 128) →
    upper s = s.map fun c => if 97 ≤ c && c ≤ 122 then c - 32 else c

def UpperMap.asciiOnly : UpperMap where
  upper s := s.map fun c => if 97 ≤ c && c ≤ 122 then c - 32 else c
  ascii _ _ := rfl

structure PhonemeStamp where
  phoneme : PyStr
  startMs : Int
  endMs : Int
  deriving DecidableEq

namespace TtsService

/-- `_LETTER_TO_PHONEME` -/
def letterToPhoneme : List (PyStr × List PyStr) :=
  [(str "a", [str "AE", str "AH", str "AA"]), (str "b", [str "B"]), (str "c", [str "K", str "S"]),
    (str "d", [str "D"]), (str "e", [str "EH", str "IY"]), (str "f", [str "F"]),
    (str "g", [str "G"]), (str "h", [str "HH"]), (str "i", [str "IH", str "AY"]),
    (str "j", [str "JH"]), (str "k", [str "K"]), (str "l", [str "L"]), (str "m", [str "M"]),
    (str "n", [str "N"]), (str "o", [str "OW", str "AO"]), (str "p", [str "P"]),
    (str "q", [str "K"]), (str "r", [str "R"]), (str "s", [str "S", str "Z"]),
    (str "t", [str "T"]), (str "u", [str "UW", str "AH"]), (str "v", [str "V"]),
    (str "w", [str "W"]), (str "x", [str "K", str "S"]), (str "y", [str "Y", str "IY"]),
    (str "z", [str "Z"])]

/-- One turn of the inner loop. -/
def addLetter (phonemes : List PyStr) (ch : Nat) : List PyStr :=
  match Assoc.get? letterToPhoneme [ch] with
  | none => phonemes
  | some candidates => phonemes ++ (candidates[phonemes.length % candidates.length]?).toList

def addWord (cm : CaseMap) (phonemes : List PyStr) (word : PyStr) : List PyStr :=
  (cm.lower word).foldl addLetter phonemes ++ [str "SIL"]

def silence : List PhonemeStamp := [{ phoneme := str "SIL", startMs := 0, endMs := 150 }]

/-- The loop over the phonemes, from `cursor` on. -/
def distribute (step total : Int) : (cursor : Int) → List PyStr → List PhonemeStamp
  | _, [] => []
  | cursor, ph :: phs =>
    let stop := min (cursor + step) total
    { phoneme := ph, startMs := cursor, endMs := stop } :: distribute step total stop phs

/-- `_estimated_phoneme_timestamps` -/
def estimatedPhonemeTimestamps (cm : CaseMap) (text : PyStr) (totalDurationMs : Int) :
    List PhonemeStamp :=
  let words := (PyStr.split text).filter fun w => PyStr.strip w ≠ []
  if words = [] then silence
  else
    let phonemes := words.foldl (addWord cm) []
    if phonemes = [] then silence
    else distribute (max 30 (totalDurationMs / phonemes.length)) totalDurationMs 0 phonemes

end TtsService

/-- The keys of `VISEME_PARAMS`; `opened` stands for `"open"`. -/
inductive Viseme where
  | sil
  | closed
  | opened
  | openBack
  | wide
  | mid
  | round
  | bite
  | teeth
  | tip
  | rest
  deriving DecidableEq

structure Mouth where
  mouthOpen : ℚ
  mouthForm : ℚ

structure VisemeFrame where
  timeMs : Int
  viseme : Viseme
  mouth : Mouth

namespace LipSync

/-- `PHONEME_TO_VISEME` -/
def phonemeTable : List (PyStr × Viseme) :=
  [(str "AA", .openBack), (str "AE", .wide), (str "AH", .mid), (str "AO", .round),
    (str "AW", .round), (str "AY", .wide), (str "B", .closed), (str "CH", .rest),
    (str "D", .rest), (str "EH", .mid), (str "ER", .mid), (str "EY", .wide), (str "F", .bite),
    (str "G", .rest), (str "HH", .opened), (str "IH", .mid), (str "IY", .wide),
    (str "JH", .rest), (str "K", .rest), (str "L", .tip), (str "M", .closed),
    (str "N", .closed), (str "NG", .closed), (str "OW", .round), (str "OY", .round),
    (str "P", .closed), (str "R", .mid), (str "S", .teeth), (str "SH", .teeth),
    (str "T", .rest), (str "TH", .tip), (str "UH", .round), (str "UW", .round),
    (str "V", .bite), (str "W", .round), (str "Y", .wide), (str "Z", .teeth),
    (str "SIL", .sil)]

/-- `VISEME_PARAMS` -/
def visemeParams : Viseme → Mouth
  | .sil => ⟨5 / 100, 50 / 100⟩
  | .closed => ⟨2 / 100, 45 / 100⟩
  | .opened => ⟨75 / 100, 55 / 100⟩
  | .openBack => ⟨85 / 100, 40 / 100⟩
  | .wide => ⟨55 / 100, 85 / 100⟩
  | .mid => ⟨45 / 100, 60 / 100⟩
  | .round => ⟨55 / 100, 25 / 100⟩
  | .bite => ⟨30 / 100, 35 / 100⟩
  | .teeth => ⟨25 / 100, 65 / 100⟩
  | .tip => ⟨35 / 100, 50 / 100⟩
  | .rest => ⟨15 / 100, 50 / 100⟩

def phonemeToViseme (um : UpperMap) (phoneme : PyStr) : Viseme :=
  let token := um.upper (PyStr.strip (PyStr.orElse phoneme (str "SIL")))
  (Assoc.get? phonemeTable token).getD ((Assoc.get? phonemeTable (token.take 2)).getD .rest)

/-- `prev + (cur - prev) * (1 - smoothing)` -/
def approach (smoothing prev cur : ℚ) : ℚ := prev + (cur - prev) * (1 - smoothing)

def smooth (smoothing : ℚ) (prev cur : Mouth) : Mouth where
  mouthOpen := approach smoothing prev.mouthOpen cur.mouthOpen
  mouthForm := approach smoothing prev.mouthForm cur.mouthForm

def rounded (m : Mouth) : Mouth where
  mouthOpen := roundTo 4 m.mouthOpen
  mouthForm := roundTo 4 m.mouthForm

/-- The loop over the phonemes; `prev` is kept unrounded. -/
def timeline (um : UpperMap) (smoothing : ℚ) : (prev : Mouth) → List PhonemeStamp → List VisemeFrame
  | _, [] => []
  | prev, item :: items =>
    let viseme := phonemeToViseme um item.phoneme
    let mouth := smooth smoothing prev (visemeParams viseme)
    { timeMs := item.startMs, viseme := viseme, mouth := rounded mouth } ::
      timeline um smoothing mouth items

def buildVisemeTimeline (um : UpperMap) (stamps : List PhonemeStamp) (smoothing : ℚ) :
    List VisemeFrame :=
  if stamps = [] then [{ timeMs := 0, viseme := .sil, mouth := visemeParams .sil }]
  else timeline um smoothing (visemeParams .sil) stamps

section Distribute

open TtsService

variable {step total cursor : Int} {phs : List PyStr}

theorem length_distribute : (distribute step total cursor phs).length = phs.length := by
  induction phs generalizing cursor with
  | nil => rfl
  | cons ph phs ih => rw [distribute, List.length_cons, ih, List.length_cons]

theorem head_distribute (hne : phs ≠ []) :
    (distribute step total cursor phs).head?.map PhonemeStamp.startMs = some cursor := by
  cases phs with
  | nil => exact absurd rfl hne
  | cons ph phs => rfl

/-- Each interval starts where the one before it ends. -/
theorem isChain_distribute :
    (distribute step total cursor phs).IsChain fun a b => a.endMs = b.startMs := by
  induction phs generalizing cursor with
  | nil => exact .nil
  | cons ph phs ih =>
    cases phs with
    | nil => exact .singleton _
    | cons ph' phs => exact .cons_cons rfl ih

/-- The cursor never passes the end, so no interval is negative or out of range. -/
theorem within_distribute (hstep : 0 ≤ step) (hcursor : cursor ≤ total) :
    ∀ p ∈ distribute step total cursor phs,
      cursor ≤ p.startMs ∧ p.startMs ≤ p.endMs ∧ p.endMs ≤ total := by
  induction phs generalizing cursor with
  | nil => nofun
  | cons ph phs ih =>
    have hnext : cursor ≤ min (cursor + step) total := by omega
    have hlast : min (cursor + step) total ≤ total := by omega
    intro p hp
    rcases List.mem_cons.mp hp with rfl | hp
    · exact ⟨le_refl _, hnext, hlast⟩
    · obtain ⟨hstart, hinterval⟩ := ih hlast p hp
      exact ⟨hnext.trans hstart, hinterval⟩

theorem pairwise_distribute (hstep : 0 ≤ step) (hcursor : cursor ≤ total) :
    (distribute step total cursor phs).Pairwise fun a b => a.startMs ≤ b.startMs := by
  induction phs generalizing cursor with
  | nil => exact .nil
  | cons ph phs ih =>
    have hlast : min (cursor + step) total ≤ total := by omega
    refine List.pairwise_cons.mpr ⟨?_, ih hlast⟩
    intro p hp
    have := (within_distribute hstep hlast p hp).1
    dsimp only
    omega

theorem getLast_distribute (hstep : 0 ≤ step) (hcursor : cursor ≤ total) (hne : phs ≠ []) :
    (distribute step total cursor phs).getLast?.map PhonemeStamp.endMs =
      some (min (cursor + step * phs.length) total) := by
  induction phs generalizing cursor with
  | nil => exact absurd rfl hne
  | cons ph phs ih =>
    cases phs with
    | nil => simp [distribute]
    | cons ph' phs =>
      have hlast : min (cursor + step) total ≤ total := by omega
      have hrest := ih hlast (List.cons_ne_nil ph' phs)
      have hskip : (distribute step total cursor (ph :: ph' :: phs)).getLast? =
          (distribute step total (min (cursor + step) total) (ph' :: phs)).getLast? := by
        rw [distribute, distribute, List.getLast?_cons_cons]
      have hpos : 0 ≤ step * (phs.length + 1 : Nat) := Int.mul_nonneg hstep (by omega)
      have hexpand : step * (phs.length + 1 + 1 : Nat) = step * (phs.length + 1 : Nat) + step := by
        push_cast
        ring
      rw [hskip, hrest, List.length_cons, List.length_cons, List.length_cons, hexpand]
      congr 1
      omega

/-- Where the last of `n` steps ends. -/
theorem last_stop {n : Nat} (hn : 0 < n) :
    min (0 + max 30 (total / n) * n) total = if 30 * n ≤ total then total - total % n else total := by
  have hn' : (0 : Int) < n := by exact_mod_cast hn
  have hdiv := Int.mul_ediv_add_emod total n
  have hmod := Int.emod_nonneg total hn'.ne'
  split
  · rename_i hle
    have hstep : 30 ≤ total / n := (Int.le_ediv_iff_mul_le hn').mpr hle
    rw [max_eq_right hstep, mul_comm]
    omega
  · rename_i hlt
    have hstep : total / n < 30 := (Int.ediv_lt_iff_lt_mul hn').mpr (by omega)
    rw [max_eq_left hstep.le]
    omega

theorem sequence_ne_nil (cm : CaseMap) {words : List PyStr} (hne : words ≠ []) :
    words.foldl (addWord cm) [] ≠ [] := by
  rw [← List.dropLast_append_getLast hne, List.foldl_append]
  simp [addWord]

theorem filter_split (text : PyStr) :
    ((PyStr.split text).filter fun w => PyStr.strip w ≠ []) = PyStr.split text := by
  rw [List.filter_eq_self]
  intro w hw
  obtain ⟨hne, hword⟩ := PyStr.word_of_mem_split hw
  obtain ⟨c, cs, rfl⟩ := List.exists_cons_of_ne_nil hne
  simp only [decide_eq_true_eq]
  intro hblank
  have hspace := PyStr.solid_eq_nil_iff.mp (PyStr.strip_eq_nil_iff.mp hblank) c List.mem_cons_self
  rw [hword c List.mem_cons_self] at hspace
  cases hspace

/-- A text with a word has phonemes, and they are distributed over the duration. -/
theorem estimated_eq (cm : CaseMap) {text : PyStr} (hwords : PyStr.split text ≠ []) (total : Int) :
    ∃ phs ≠ [], estimatedPhonemeTimestamps cm text total =
      distribute (max 30 (total / phs.length)) total 0 phs := by
  refine ⟨_, sequence_ne_nil cm hwords, ?_⟩
  unfold estimatedPhonemeTimestamps
  dsimp only
  rw [filter_split, if_neg hwords, if_neg (sequence_ne_nil cm hwords)]

end Distribute

/-- Every value stands between two values of its parameter in `VISEME_PARAMS`. -/
structure InRange (m : Mouth) : Prop where
  openLow : ∃ v, (visemeParams v).mouthOpen ≤ m.mouthOpen
  openHigh : ∃ v, m.mouthOpen ≤ (visemeParams v).mouthOpen
  formLow : ∃ v, (visemeParams v).mouthForm ≤ m.mouthForm
  formHigh : ∃ v, m.mouthForm ≤ (visemeParams v).mouthForm

/-- The same with the least and the greatest values, which are whole numbers of 1/10000. -/
structure InBounds (m : Mouth) : Prop where
  openLow : ((200 : Int) : ℚ) / 10 ^ 4 ≤ m.mouthOpen
  openHigh : m.mouthOpen ≤ ((8500 : Int) : ℚ) / 10 ^ 4
  formLow : ((2500 : Int) : ℚ) / 10 ^ 4 ≤ m.mouthForm
  formHigh : m.mouthForm ≤ ((8500 : Int) : ℚ) / 10 ^ 4

theorem inBounds_visemeParams (v : Viseme) : InBounds (visemeParams v) := by
  cases v <;> constructor <;> norm_num [visemeParams]

theorem InBounds.inRange {m : Mouth} (h : InBounds m) : InRange m where
  openLow := ⟨.closed, le_trans (by norm_num [visemeParams]) h.openLow⟩
  openHigh := ⟨.openBack, le_trans h.openHigh (by norm_num [visemeParams])⟩
  formLow := ⟨.round, le_trans (by norm_num [visemeParams]) h.formLow⟩
  formHigh := ⟨.wide, le_trans h.formHigh (by norm_num [visemeParams])⟩

section Smooth

variable {smoothing prev cur bound : ℚ} {m : Mouth}

/-- A smoothed value is a mean of the two it lies between. -/
theorem approach_eq : approach smoothing prev cur = prev * smoothing + cur * (1 - smoothing) := by
  unfold approach
  ring

theorem le_approach (h0 : 0 ≤ smoothing) (h1 : smoothing ≤ 1) (hprev : bound ≤ prev)
    (hcur : bound ≤ cur) : bound ≤ approach smoothing prev cur := by
  have hp : bound * smoothing ≤ prev * smoothing := mul_le_mul_of_nonneg_right hprev h0
  have hc : bound * (1 - smoothing) ≤ cur * (1 - smoothing) :=
    mul_le_mul_of_nonneg_right hcur (by linarith)
  rw [approach_eq]
  linarith

theorem approach_le (h0 : 0 ≤ smoothing) (h1 : smoothing ≤ 1) (hprev : prev ≤ bound)
    (hcur : cur ≤ bound) : approach smoothing prev cur ≤ bound := by
  have hp : prev * smoothing ≤ bound * smoothing := mul_le_mul_of_nonneg_right hprev h0
  have hc : cur * (1 - smoothing) ≤ bound * (1 - smoothing) :=
    mul_le_mul_of_nonneg_right hcur (by linarith)
  rw [approach_eq]
  linarith

theorem InBounds.smooth (h0 : 0 ≤ smoothing) (h1 : smoothing ≤ 1) (h : InBounds m) (v : Viseme) :
    InBounds (smooth smoothing m (visemeParams v)) where
  openLow := le_approach h0 h1 h.openLow (inBounds_visemeParams v).openLow
  openHigh := approach_le h0 h1 h.openHigh (inBounds_visemeParams v).openHigh
  formLow := le_approach h0 h1 h.formLow (inBounds_visemeParams v).formLow
  formHigh := approach_le h0 h1 h.formHigh (inBounds_visemeParams v).formHigh

theorem InBounds.rounded (h : InBounds m) : InBounds (rounded m) where
  openLow := le_roundTo h.openLow
  openHigh := roundTo_le h.openHigh
  formLow := le_roundTo h.formLow
  formHigh := roundTo_le h.formHigh

end Smooth

section Timeline

variable {um : UpperMap} {smoothing : ℚ} {prev : Mouth} {items : List PhonemeStamp}

theorem map_timeMs_timeline :
    (timeline um smoothing prev items).map VisemeFrame.timeMs = items.map PhonemeStamp.startMs := by
  induction items generalizing prev with
  | nil => rfl
  | cons item items ih => rw [timeline, List.map_cons, ih, List.map_cons]

theorem inBounds_timeline (h0 : 0 ≤ smoothing) (h1 : smoothing ≤ 1) (hprev : InBounds prev) :
    ∀ f ∈ timeline um smoothing prev items, InBounds f.mouth := by
  induction items generalizing prev with
  | nil => nofun
  | cons item items ih =>
    have hnext := hprev.smooth h0 h1 (phonemeToViseme um item.phoneme)
    intro f hf
    rcases List.mem_cons.mp hf with rfl | hf
    · exact hnext.rounded
    · exact ih hnext f hf

end Timeline

/-- The intervals tile the duration from 0 on, up to what the even division leaves over. -/
structure Tiles (totalDurationMs : Int) (stamps : List PhonemeStamp) : Prop where
  start : stamps.head?.map PhonemeStamp.startMs = some 0
  joined : stamps.IsChain fun a b => a.endMs = b.startMs
  forward : ∀ p ∈ stamps, p.startMs ≤ p.endMs
  stop : stamps.getLast?.map PhonemeStamp.endMs = some
    (if 30 * stamps.length ≤ totalDurationMs then totalDurationMs - totalDurationMs % stamps.length
      else totalDurationMs)

structure Follows (totalDurationMs : Int) (stamps : List PhonemeStamp) (frames : List VisemeFrame) :
    Prop where
  onePerInterval : frames.length = stamps.length
  ordered : frames.Pairwise fun a b => a.timeMs ≤ b.timeMs
  timed : ∀ f ∈ frames, 0 ≤ f.timeMs ∧ f.timeMs ≤ totalDurationMs
  mouth : ∀ f ∈ frames, InRange f.mouth

/-- The estimated phonemes of a text with a word tile the duration, and the timeline built of
them has a frame for each, in order, in time and within the range of `VISEME_PARAMS`. -/
theorem lipSync_wellFormed (cm : CaseMap) (um : UpperMap) {text : PyStr} {totalDurationMs : Int}
    {smoothing : ℚ} (hwords : PyStr.split text ≠ []) (htotal : 0 ≤ totalDurationMs)
    (h0 : 0 ≤ smoothing) (h1 : smoothing ≤ 1) :
    Tiles totalDurationMs (TtsService.estimatedPhonemeTimestamps cm text totalDurationMs) ∧
      Follows totalDurationMs (TtsService.estimatedPhonemeTimestamps cm text totalDurationMs)
        (buildVisemeTimeline um (TtsService.estimatedPhonemeTimestamps cm text totalDurationMs)
          smoothing) := by
  obtain ⟨phs, hne, hstamps⟩ := estimated_eq cm hwords totalDurationMs
  rw [hstamps]
  set step := max 30 (totalDurationMs / phs.length)
  set stamps := TtsService.distribute step totalDurationMs 0 phs
  have hstep : 0 ≤ step := le_max_of_le_left (by omega)
  have hlength : stamps.length = phs.length := length_distribute
  have hwithin : ∀ p ∈ stamps, 0 ≤ p.startMs ∧ p.startMs ≤ p.endMs ∧ p.endMs ≤ totalDurationMs :=
    within_distribute hstep htotal
  have hstampsNe : stamps ≠ [] := by
    intro hnil
    rw [hnil] at hlength
    exact hne (List.length_eq_zero_iff.mp hlength.symm)
  have htimeline : buildVisemeTimeline um stamps smoothing =
      timeline um smoothing (visemeParams .sil) stamps := by rw [buildVisemeTimeline, if_neg hstampsNe]
  have htimes : (timeline um smoothing (visemeParams .sil) stamps).map VisemeFrame.timeMs =
      stamps.map PhonemeStamp.startMs := map_timeMs_timeline
  refine ⟨⟨head_distribute hne, isChain_distribute, ?_, ?_⟩, ?_⟩
  · exact fun p hp => (hwithin p hp).2.1
  · rw [getLast_distribute hstep htotal hne, hlength]
    exact congrArg some (last_stop (List.length_pos_iff.mpr hne))
  · rw [htimeline]
    constructor
    · rw [← List.length_map VisemeFrame.timeMs, htimes, List.length_map]
    · rw [← List.pairwise_map (f := VisemeFrame.timeMs) (R := (· ≤ ·)), htimes, List.pairwise_map]
      exact pairwise_distribute hstep htotal
    · intro f hf
      have hmem : f.timeMs ∈ stamps.map PhonemeStamp.startMs := by
        rw [← htimes]
        exact List.mem_map_of_mem hf
      obtain ⟨p, hp, heq⟩ := List.mem_map.mp hmem
      obtain ⟨hlow, hinterval, hhigh⟩ := hwithin p hp
      rw [← heq]
      exact ⟨hlow, hinterval.trans hhigh⟩
    · exact fun f hf => (inBounds_timeline h0 h1 (inBounds_visemeParams .sil) f hf).inRange

theorem lipSync_wellFormed_hello :
    Tiles 400 (TtsService.estimatedPhonemeTimestamps .asciiOnly (str "hello you") 400) ∧
      Follows 400 (TtsService.estimatedPhonemeTimestamps .asciiOnly (str "hello you") 400)
        (buildVisemeTimeline .asciiOnly
          (TtsService.estimatedPhonemeTimestamps .asciiOnly (str "hello you") 400) (35 / 100)) :=
  lipSync_wellFormed .asciiOnly .asciiOnly (by decide) (by decide) (by norm_num) (by norm_num)

end LipSync

end VirtualPerson
