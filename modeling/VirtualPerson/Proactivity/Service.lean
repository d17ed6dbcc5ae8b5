import Mathlib.Data.List.Nodup
import VirtualPerson.Python.Value

/-!
# The proactivity service

Reminders, the anti-annoyance gate and the daily summary. Instants are microseconds since
1970, of UTC or of the local wall clock.
-/

namespace VirtualPerson

set_option autoImplicit false

structure Reminder where
  id : PyStr
  message : PyStr
  dueAt : Int
  createdAt : Int
  fired : Bool
  reason : PyStr
  deriving DecidableEq

@[ext]
structure ProactivityService where
  quietStart : Int
  quietEnd : Int
  cooldown : Int
  lastSentAt : Option Int
  reminders : List Reminder

namespace ProactivityService

def hourMicros : Int := 3600 * 1000000

def minuteMicros : Int := 60 * 1000000

def init (quietStart quietEnd cooldownMinutes : Int) : ProactivityService :=
  { quietStart, quietEnd, cooldown := cooldownMinutes * minuteMicros, lastSentAt := none
    reminders := [] }

/-- `now.hour` -/
def hour (now : Int) : Int := now / hourMicros % 24

def isQuietHours (p : ProactivityService) (now : Int) : Bool :=
  let h := hour now
  if p.quietEnd < p.quietStart then p.quietStart ≤ h || h < p.quietEnd
  else p.quietStart ≤ h && h < p.quietEnd

def canSend (p : ProactivityService) (now : Int) : Bool × PyStr :=
  if p.isQuietHours now then (false, str "quiet-hours")
  else if p.lastSentAt.any fun last => now - last < p.cooldown then (false, str "cooldown")
  else (true, str "ok")

def markSent (p : ProactivityService) (now : Int) : ProactivityService := { p with lastSentAt := some now }

/-- A `datetime` lies in the years 1 to 9999. -/
def datetime (instant : Int) : Except PyExc Int :=
  if -62135596800000000 ≤ instant ∧ instant ≤ 253402300799999999 then .ok instant
  else .error .overflowError

/-- `add_reminder`, given what it draws and what `timedelta(minutes=minutes)` returns. -/
def addReminder (p : ProactivityService) (utc createdAt : Int) (id message : PyStr)
    (delta : Except PyExc Int) (reason : PyStr) : Except PyExc Reminder × ProactivityService :=
  match delta.bind fun d => datetime (utc + d) with
  | .error e => (.error e, p)
  | .ok dueAt =>
    let r : Reminder := { id, message, dueAt, createdAt, fired := false, reason }
    (.ok r, { p with reminders := p.reminders ++ [r] })

def cancelReminder (p : ProactivityService) (id : PyStr) : Bool × ProactivityService :=
  match p.reminders.find? fun r => r.id = id && !r.fired with
  | some r => (true, { p with reminders := p.reminders.erase r })
  | none => (false, p)

def isDue (now : Int) (r : Reminder) : Bool := !r.fired && r.dueAt ≤ now

def fire (now : Int) (r : Reminder) : Reminder := if isDue now r then { r with fired := true } else r

/-- `check_due`: the due reminders, each marked as fired. -/
def checkDue (p : ProactivityService) (now : Int) : List Reminder × ProactivityService :=
  ((p.reminders.filter (isDue now)).map (fire now), { p with reminders := p.reminders.map (fire now) })

def summarized (isoformat : Int → PyStr) (r : Reminder) : PyVal :=
  .dict [(str "id", .str r.id), (str "message", .str r.message),
    (str "due_at", .str (isoformat r.dueAt))]

/-- `daily_summary`, given the number of memory items it is passed. -/
def dailySummary (isoformat : Int → PyStr) (now : Int) (reminders : List Reminder)
    (memoryItems : Nat) : PyDict :=
  let upcoming := reminders.filter fun r => !r.fired && r.dueAt ≤ now + 24 * hourMicros
  let overdue := reminders.filter fun r => !r.fired && r.dueAt < now
  [(str "generated_at", .str (isoformat now)),
    (str "upcoming_reminders_24h", .list (upcoming.map (summarized isoformat))),
    (str "overdue_reminders", .list (overdue.map (summarized isoformat))),
    (str "active_reminder_count", .int (reminders.countP fun r => !r.fired)),
    (str "recent_memory_count", .int memoryItems)]

section Gate

variable {p : ProactivityService} {now : Int}

/-- Between hours of the day, the quiet hours are those that follow `quietStart` around the clock
and come before `quietEnd`. -/
theorem isQuietHours_iff (hstart : 0 ≤ p.quietStart ∧ p.quietStart < 24)
    (hend : 0 ≤ p.quietEnd ∧ p.quietEnd < 24) :
    p.isQuietHours now = true ↔
      (hour now - p.quietStart) % 24 < (p.quietEnd - p.quietStart) % 24 := by
  have hhour : 0 ≤ hour now ∧ hour now < 24 := by
    unfold hour
    omega
  unfold isQuietHours
  dsimp only
  split
  · rw [Bool.or_eq_true, decide_eq_true_iff, decide_eq_true_iff]
    omega
  · rw [Bool.and_eq_true, decide_eq_true_iff, decide_eq_true_iff]
    omega

theorem canSend_iff :
    (p.canSend now).1 = true ↔
      p.isQuietHours now = false ∧ ∀ last, p.lastSentAt = some last → p.cooldown ≤ now - last := by
  unfold canSend
  cases hquiet : p.isQuietHours now with
  | true => simp
  | false =>
    cases hlast : p.lastSentAt with
    | none => simp
    | some last =>
      by_cases hearly : now - last < p.cooldown
      · simp [hearly]
      · have hlate : p.cooldown ≤ now - last := Int.not_lt.mp hearly
        simp [hearly, hlate]

end Gate

section Reminders

variable {p : ProactivityService} {now utc createdAt : Int} {id message reason : PyStr}
variable {delta : Except PyExc Int} {r : Reminder}

theorem addReminder_ok (h : (p.addReminder utc createdAt id message delta reason).1 = .ok r) :
    r.id = id ∧ r.fired = false ∧
      (p.addReminder utc createdAt id message delta reason).2 =
        { p with reminders := p.reminders ++ [r] } := by
  unfold addReminder at h ⊢
  cases hdue : delta.bind fun d => datetime (utc + d) with
  | error e =>
    rw [hdue] at h
    cases h
  | ok dueAt =>
    rw [hdue] at h
    cases h
    exact ⟨rfl, rfl, rfl⟩

theorem addReminder_error {e : PyExc}
    (h : (p.addReminder utc createdAt id message delta reason).1 = .error e) :
    (p.addReminder utc createdAt id message delta reason).2 = p := by
  unfold addReminder at h ⊢
  cases hdue : delta.bind fun d => datetime (utc + d) with
  | error e => rfl
  | ok dueAt =>
    rw [hdue] at h
    cases h

/-- What a cancel removes is pending and carries the id. -/
theorem cancelReminder_cases (p : ProactivityService) (id : PyStr) :
    (∃ r ∈ p.reminders, r.id = id ∧ r.fired = false ∧
      p.cancelReminder id = (true, { p with reminders := p.reminders.erase r })) ∨
    ((∀ r ∈ p.reminders, r.id = id → r.fired = true) ∧ p.cancelReminder id = (false, p)) := by
  unfold cancelReminder
  cases hfind : p.reminders.find? fun r => r.id = id && !r.fired with
  | some r =>
    have hr := List.find?_some hfind
    rw [Bool.and_eq_true, decide_eq_true_iff, Bool.not_eq_true'] at hr
    exact .inl ⟨r, List.mem_of_find?_eq_some hfind, hr.1, hr.2, rfl⟩
  | none =>
    refine .inr ⟨fun r hr hid => ?_, rfl⟩
    have hnot := List.find?_eq_none.mp hfind r hr
    simpa [hid] using hnot

/-- With distinct ids nothing pending keeps a cancelled id. -/
theorem not_pending_of_cancel (hids : (p.reminders.map Reminder.id).Nodup)
    (hr : r ∈ (p.cancelReminder id).2.reminders) (hpending : r.fired = false) :
    r ∈ p.reminders ∧ r.id ≠ id := by
  rcases cancelReminder_cases p id with ⟨q, hq, hid, -, heq⟩ | ⟨hall, heq⟩
  · rw [heq] at hr
    have hmem : r ∈ p.reminders := List.mem_of_mem_erase hr
    refine ⟨hmem, fun hsame => ?_⟩
    have hrq : r = q := List.inj_on_of_nodup_map hids hmem hq (hsame.trans hid.symm)
    rw [hrq] at hr
    exact (List.Nodup.of_map Reminder.id hids).not_mem_erase hr
  · rw [heq] at hr
    refine ⟨hr, fun hid => ?_⟩
    rw [hall r hr hid] at hpending
    cases hpending

theorem cancelReminder_sublist (p : ProactivityService) (id : PyStr) :
    (p.cancelReminder id).2.reminders.Sublist p.reminders := by
  rcases cancelReminder_cases p id with ⟨r, -, -, -, heq⟩ | ⟨-, heq⟩
  · rw [heq]
    exact List.erase_sublist
  · rw [heq]

theorem isDue_iff : isDue now r = true ↔ r.fired = false ∧ r.dueAt ≤ now := by
  unfold isDue
  rw [Bool.and_eq_true, Bool.not_eq_true', decide_eq_true_iff]

@[simp] theorem fire_id : (fire now r).id = r.id := by
  unfold fire
  split <;> rfl

theorem fire_of_due (h : isDue now r = true) : fire now r = { r with fired := true } := if_pos h

/-- A reminder still pending after a check was pending before, and not due. -/
theorem fire_pending (h : (fire now r).fired = false) : fire now r = r ∧ isDue now r = false := by
  cases hdue : isDue now r with
  | true =>
    rw [fire_of_due hdue] at h
    cases h
  | false =>
    refine ⟨?_, rfl⟩
    unfold fire
    rw [hdue, if_neg Bool.false_ne_true]

theorem mem_checkDue (h : r ∈ (p.checkDue now).1) :
    { r with fired := false } ∈ p.reminders ∧ r.dueAt ≤ now := by
  obtain ⟨q, hq, rfl⟩ := List.mem_map.mp h
  obtain ⟨hmem, hdue⟩ := List.mem_filter.mp hq
  obtain ⟨hpending, hle⟩ := isDue_iff.mp hdue
  rw [fire_of_due hdue]
  refine ⟨?_, hle⟩
  cases q
  cases hpending
  exact hmem

theorem map_id_fire (rs : List Reminder) : (rs.map (fire now)).map Reminder.id = rs.map Reminder.id := by
  rw [List.map_map]
  exact List.map_congr_left fun r _ => fire_id

theorem checkDue_eq_nil_iff :
    (p.checkDue now).1 = [] ↔ ∀ r ∈ p.reminders, r.dueAt ≤ now → r.fired = true := by
  rw [checkDue, List.map_eq_nil_iff, List.filter_eq_nil_iff]
  constructor
  · intro h r hr hle
    have hnot := h r hr
    rw [isDue_iff, not_and'] at hnot
    simpa using hnot hle
  · intro h r hr hdue
    obtain ⟨hpending, hle⟩ := isDue_iff.mp hdue
    rw [h r hr hle] at hpending
    cases hpending

/-- A check with nothing due changes nothing, and one that changes nothing had nothing due. -/
theorem checkDue_unchanged_iff : (p.checkDue now).2 = p ↔ (p.checkDue now).1 = [] := by
  constructor
  · intro h
    rw [checkDue, List.map_eq_nil_iff, List.filter_eq_nil_iff]
    intro r hr hdue
    have hmap : p.reminders.map (fire now) = p.reminders.map id :=
      (congrArg reminders h).trans (List.map_id _).symm
    have hsame : fire now r = r := List.map_inj_left.mp hmap r hr
    rw [fire_of_due hdue] at hsame
    have hfired := congrArg Reminder.fired hsame
    rw [(isDue_iff.mp hdue).1] at hfired
    cases hfired
  · intro h
    rw [checkDue, List.map_eq_nil_iff, List.filter_eq_nil_iff] at h
    have hmap : p.reminders.map (fire now) = p.reminders :=
      (List.map_congr_left fun r hr => if_neg (h r hr)).trans (List.map_id _)
    exact congrArg (fun rs => { p with reminders := rs }) hmap

end Reminders

end ProactivityService

end VirtualPerson
