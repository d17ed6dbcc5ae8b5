import Mathlib.Algebra.Order.Field.Rat
import Mathlib.Data.List.Sort
import Mathlib.Tactic.Linarith
import VirtualPerson.Transition

/-!
# The viseme player

`visemePlayer` walks through a timeline of mouth shapes with a cursor, some way further in
every animation frame. What it has shown by then is what a search of the whole timeline
would find due.
-/

namespace VirtualPerson

set_option autoImplicit false

namespace Client

/-- A timeline entry; a field may be missing. -/
structure Frame where
  timeMs : Option Rat
  mouthOpen : Option Rat
  mouthForm : Option Rat

abbrev Mouth := Rat × Rat

/-- `frame.time_ms || 0` -/
def Frame.time (f : Frame) : Rat := f.timeMs.getD 0

def Frame.mouth (f : Frame) : Mouth := (f.mouthOpen.getD (1 / 20), f.mouthForm.getD (1 / 2))

/-- `setMouth(0.05, 0.5)` -/
def restingMouth : Mouth := (1 / 20, 1 / 2)

structure VisemePlayer where
  timeline : List Frame
  startedAtMs : Rat
  cursor : Nat
  /-- The frames that were shown, in order -/
  shown : List Frame
  /-- The calls of `setMouth` -/
  mouths : List Mouth

/-- `[...timeline].sort((a, b) => (a.time_ms || 0) - (b.time_ms || 0))`, which is stable -/
def sortedTimeline (timeline : List Frame) : List Frame :=
  timeline.mergeSort fun a b => a.time ≤ b.time

namespace VisemePlayer

def idle : VisemePlayer :=
  { timeline := [], startedAtMs := 0, cursor := 0, shown := [], mouths := [] }

/-- `startVisemeTimeline` at a time of `performance.now()` -/
def start (p : VisemePlayer) (timeline : List Frame) (nowMs : Rat) : VisemePlayer :=
  { p with timeline := sortedTimeline timeline, startedAtMs := nowMs, cursor := 0 }

def setMouth (p : VisemePlayer) (m : Mouth) : VisemePlayer := { p with mouths := p.mouths ++ [m] }

/-- The loop over the frames from the cursor on -/
def showDue (elapsed : Rat) : List Frame → VisemePlayer → VisemePlayer
  | [], p => p
  | f :: rest, p =>
    if elapsed < f.time then p
    else showDue elapsed rest
      { p.setMouth f.mouth with cursor := p.cursor + 1, shown := p.shown ++ [f] }

/-- A timeline that was shown whole goes once the avatar is silent. -/
def clearShown (p : VisemePlayer) (speaking : Bool) : VisemePlayer :=
  if p.timeline.length ≤ p.cursor ∧ speaking = false then
    { p with timeline := [] }.setMouth restingMouth
  else p

/-- `updateVisemePlayback` up to the fallback -/
def advance (p : VisemePlayer) (nowMs : Rat) (speaking : Bool) : VisemePlayer :=
  if p.timeline = [] then p
  else (showDue (nowMs - p.startedAtMs) (p.timeline.drop p.cursor) p).clearShown speaking

/-- `updateVisemePlayback`; `pulse` is the opening that moves the mouth while frames are lacking. -/
def update (p : VisemePlayer) (nowMs : Rat) (speaking : Bool) (pulse : Rat) : VisemePlayer :=
  let p := p.advance nowMs speaking
  if speaking = true ∧ p.timeline.length ≤ p.cursor then p.setMouth (pulse, 1 / 2) else p

/-- Where the end of a chunk or a new state finds the avatar silent -/
def rest (p : VisemePlayer) (speaking : Bool) : VisemePlayer :=
  if speaking = false ∧ p.timeline.length ≤ p.cursor then p.setMouth restingMouth else p

end VisemePlayer

/-- What happens to a player between two starts -/
inductive VisemeCall where
  | update (nowMs : Rat) (speaking : Bool) (pulse : Rat)
  | rest (speaking : Bool)

def VisemeCall.time : VisemeCall → Option Rat
  | .update nowMs _ _ => some nowMs
  | .rest _ => none

def VisemePlayer.call (p : VisemePlayer) : VisemeCall → VisemePlayer
  | .update nowMs speaking pulse => p.update nowMs speaking pulse
  | .rest speaking => p.rest speaking

namespace VisemePlayer

variable {p q : VisemePlayer} {fs timeline : List Frame} {base : List Frame} {elapsed nowMs start : Rat}

theorem showDue_eq (elapsed : Rat) (fs : List Frame) (p : VisemePlayer) :
    (showDue elapsed fs p).timeline = p.timeline ∧
      (showDue elapsed fs p).startedAtMs = p.startedAtMs ∧
      (showDue elapsed fs p).cursor =
        p.cursor + (fs.takeWhile fun f => f.time ≤ elapsed).length ∧
      (showDue elapsed fs p).shown = p.shown ++ fs.takeWhile fun f => f.time ≤ elapsed := by
  induction fs generalizing p with
  | nil => simp [showDue]
  | cons f fs ih =>
    unfold showDue
    by_cases hlate : elapsed < f.time
    · rw [if_pos hlate, List.takeWhile_cons_of_neg (by simpa using hlate)]
      simp
    · rw [if_neg hlate, List.takeWhile_cons_of_pos (by simpa using hlate)]
      obtain ⟨htimeline, hstarted, hcursor, hshown⟩ :=
        ih { p.setMouth f.mouth with cursor := p.cursor + 1, shown := p.shown ++ [f] }
      refine ⟨htimeline, hstarted, ?_, ?_⟩
      · rw [hcursor, List.length_cons, Nat.add_right_comm, Nat.add_assoc]
      · rw [hshown, List.append_assoc]
        rfl

/-- What is due at the latest time of an update, nothing before the first one -/
def dueBy : Option Rat → Frame → Bool
  | none, _ => false
  | some elapsed, f => f.time ≤ elapsed

theorem dueBy_mono {last : Option Rat} (hlast : ∀ e ∈ last, e ≤ elapsed) (f : Frame)
    (h : dueBy last f = true) : dueBy (some elapsed) f = true := by
  cases last with
  | none => cases h
  | some e =>
    simp only [dueBy, decide_eq_true_eq] at h ⊢
    exact le_trans h (hlast e rfl)

theorem takeWhile_further {a b : Frame → Bool} (hab : ∀ f, a f = true → b f = true) (fs : List Frame) :
    fs.takeWhile a ++ (fs.dropWhile a).takeWhile b = fs.takeWhile b := by
  induction fs with
  | nil => rfl
  | cons f fs ih =>
    by_cases ha : a f = true
    · rw [List.takeWhile_cons_of_pos ha, List.dropWhile_cons_of_pos ha,
        List.takeWhile_cons_of_pos (hab f ha), List.cons_append, ih]
    · rw [List.takeWhile_cons_of_neg ha, List.dropWhile_cons_of_neg ha, List.nil_append]

theorem drop_takeWhile (a : Frame → Bool) (fs : List Frame) :
    fs.drop (fs.takeWhile a).length = fs.dropWhile a := by
  have h : (fs.takeWhile a ++ fs.dropWhile a).drop (fs.takeWhile a).length = fs.dropWhile a :=
    List.drop_left
  rwa [List.takeWhile_append_dropWhile] at h

/-- The player has shown what comes before the first frame of its timeline that is not due, and it
drops a timeline that it has shown whole. -/
structure Into (fs : List Frame) (start : Rat) (base : List Frame) (last : Option Rat)
    (p : VisemePlayer) : Prop where
  shown : p.shown = base ++ fs.takeWhile (dueBy last)
  cursor : p.cursor = (fs.takeWhile (dueBy last)).length
  under : p.timeline = fs ∧ p.startedAtMs = start ∨
    p.timeline = [] ∧ fs.takeWhile (dueBy last) = fs

theorem Into.setMouth {last : Option Rat} (h : Into fs start base last p) (m : Mouth) :
    Into fs start base last (p.setMouth m) := ⟨h.shown, h.cursor, h.under⟩

theorem Into.rest {last : Option Rat} (h : Into fs start base last p) (speaking : Bool) :
    Into fs start base last (p.rest speaking) := by
  unfold VisemePlayer.rest
  split
  · exact h.setMouth _
  · exact h

/-- A later time makes no difference to a timeline that was shown whole. -/
theorem takeWhile_whole {last : Option Rat} (hlast : ∀ e ∈ last, e ≤ elapsed)
    (hwhole : fs.takeWhile (dueBy last) = fs) : fs.takeWhile (dueBy (some elapsed)) = fs := by
  have hsplit := List.takeWhile_append_dropWhile (p := dueBy last) (l := fs)
  rw [hwhole] at hsplit
  have hnone : fs.dropWhile (dueBy last) = [] := List.append_right_eq_self.mp hsplit
  rw [← takeWhile_further (dueBy_mono hlast), hwhole, hnone, List.takeWhile_nil, List.append_nil]

theorem Into.showDue {last : Option Rat} (h : Into fs start base last p)
    (hlive : p.timeline = fs ∧ p.startedAtMs = start) (hlast : ∀ e ∈ last, e ≤ elapsed) :
    Into fs start base (some elapsed) (showDue elapsed (p.timeline.drop p.cursor) p) := by
  have hmono := dueBy_mono hlast
  obtain ⟨htimeline, hstarted, hcursor, hshown⟩ := showDue_eq elapsed (p.timeline.drop p.cursor) p
  rw [hlive.1, h.cursor, drop_takeWhile] at hcursor hshown htimeline hstarted ⊢
  have hfurther : fs.takeWhile (dueBy last) ++
      (fs.dropWhile (dueBy last)).takeWhile (fun f => f.time ≤ elapsed) =
      fs.takeWhile (dueBy (some elapsed)) := takeWhile_further hmono fs
  constructor
  · rw [hshown, h.shown, List.append_assoc, hfurther]
  · rw [hcursor, ← hfurther, List.length_append]
  · exact .inl ⟨htimeline, hstarted.trans hlive.2⟩

/-- Clearing a timeline that the cursor has left changes nothing of what it showed. -/
theorem Into.clearShown {last : Option Rat} (h : Into fs start base last p) (speaking : Bool) :
    Into fs start base last (p.clearShown speaking) := by
  unfold VisemePlayer.clearShown
  split
  · rename_i hend
    apply Into.setMouth
    refine ⟨h.shown, h.cursor, .inr ⟨rfl, ?_⟩⟩
    rcases h.under with ⟨hfs, -⟩ | ⟨-, hwhole⟩
    · rw [hfs, h.cursor] at hend
      exact (List.takeWhile_prefix _).eq_of_length_le hend.1
    · exact hwhole
  · exact h

theorem Into.advance {last : Option Rat} (h : Into fs start base last p) (speaking : Bool)
    (hlast : ∀ e ∈ last, e ≤ nowMs - start) :
    Into fs start base (some (nowMs - start)) (p.advance nowMs speaking) := by
  unfold VisemePlayer.advance
  split
  · rename_i hnil
    have hwhole : fs.takeWhile (dueBy last) = fs := by
      rcases h.under with ⟨hfs, -⟩ | ⟨-, hwhole⟩
      · rw [← hfs, hnil]
        rfl
      · exact hwhole
    have hlater := takeWhile_whole hlast hwhole
    refine ⟨?_, ?_, .inr ⟨hnil, hlater⟩⟩
    · rw [h.shown, hwhole, hlater]
    · rw [h.cursor, hwhole, hlater]
  · rename_i hne
    rcases h.under with hlive | ⟨hnil, -⟩
    · rw [hlive.2]
      exact (h.showDue hlive hlast).clearShown speaking
    · exact absurd hnil hne

theorem Into.update {last : Option Rat} (h : Into fs start base last p) (speaking : Bool) (pulse : Rat)
    (hlast : ∀ e ∈ last, e ≤ nowMs - start) :
    Into fs start base (some (nowMs - start)) (p.update nowMs speaking pulse) := by
  have hadvance := h.advance speaking hlast
  unfold VisemePlayer.update
  dsimp only
  split
  · exact hadvance.setMouth _
  · exact hadvance

theorem Into.calls {calls : List VisemeCall} {last : Option Rat} (h : Into fs start base last p)
    (hlast : ∀ e ∈ last, ∀ t ∈ calls.filterMap VisemeCall.time, e ≤ t - start)
    (hmono : (calls.filterMap VisemeCall.time).Pairwise (· ≤ ·)) :
    Into fs start base
      (((calls.filterMap VisemeCall.time).getLast?.map fun t => t - start).or last)
      (calls.foldl VisemePlayer.call p) := by
  induction calls generalizing p last with
  | nil => exact h
  | cons c calls ih =>
    cases c with
    | rest speaking => exact ih (h.rest speaking) hlast hmono
    | update nowMs speaking pulse =>
      obtain ⟨hlater, hmono⟩ := List.pairwise_cons.mp hmono
      have hnext := ih (h.update speaking pulse fun e he =>
        hlast e he nowMs List.mem_cons_self) ?_ hmono
      · change Into fs start base ((((nowMs :: calls.filterMap VisemeCall.time).getLast?).map
          fun t => t - start).or last) (calls.foldl VisemePlayer.call (p.update nowMs speaking pulse))
        cases hrest : (calls.filterMap VisemeCall.time).getLast? with
        | none =>
          rw [List.getLast?_eq_none_iff] at hrest
          rw [hrest] at hnext ⊢
          exact hnext
        | some t =>
          rw [hrest] at hnext
          rw [List.getLast?_cons, hrest]
          exact hnext
      · intro e he t ht
        cases he
        have := hlater t ht
        linarith

end VisemePlayer

end Client

end VirtualPerson
