import Mathlib.Data.List.Nodup
import VirtualPerson.Proactivity.Service
import VirtualPerson.Transition

/-!
# Proactive nudges

The background job that fires due reminders, the routes it mirrors, and runs of the calls on one
`ProactivityService`.
-/

namespace VirtualPerson

set_option autoImplicit false

open ProactivityService

structure NudgeReply where
  sent : Bool
  reason : PyStr
  due : List Reminder

/-- What the job returns. -/
def NudgeReply.asDict (isoformat : Int → PyStr) (reply : NudgeReply) : PyDict :=
  [(str "sent", .bool reply.sent), (str "reason", .str reply.reason),
    (str "due", .list (reply.due.map (summarized isoformat)))]

/-- `proactive_nudge`, by what the local clock and UTC read. -/
def proactiveNudge (wall utc : Int) (p : ProactivityService) : NudgeReply × ProactivityService :=
  let (ok, reason) := p.canSend wall
  if !ok then ({ sent := false, reason, due := [] }, p)
  else
    let (due, p) := p.checkDue utc
    if due.isEmpty then ({ sent := false, reason := str "no-due-reminders", due := [] }, p)
    else ({ sent := true, reason := str "ok", due }, p.markSent wall)

structure CheckReply where
  canSend : Bool
  reason : PyStr
  dueReminders : List Reminder

/-- GET `/proactivity/check` -/
def proactivityCheck (wall utc : Int) (p : ProactivityService) : CheckReply × ProactivityService :=
  let (canSend, reason) := p.canSend wall
  let (dueReminders, p) := p.checkDue utc
  ({ canSend, reason, dueReminders }, p)

/-- POST `/proactivity/mark-sent` -/
def proactivityMarkSent (wall : Int) (p : ProactivityService) : ProactivityService := p.markSent wall

/-- A check, and the mark where it reports that something can be sent. -/
def checkThenMark (wall utc wallMark : Int) (p : ProactivityService) : ProactivityService :=
  let (reply, p) := proactivityCheck wall utc p
  if reply.canSend && !reply.dueReminders.isEmpty then proactivityMarkSent wallMark p else p

section Nudge

variable {p : ProactivityService} {wall utc wallMark : Int}

/-- A nudge is held back and changes nothing, finds nothing due, or sends what is due. -/
theorem proactiveNudge_cases (wall utc : Int) (p : ProactivityService) :
    ((p.canSend wall).1 = false ∧
      proactiveNudge wall utc p = ({ sent := false, reason := (p.canSend wall).2, due := [] }, p)) ∨
    ((p.canSend wall).1 = true ∧ (p.checkDue utc).1 = [] ∧
      proactiveNudge wall utc p = ({ sent := false, reason := str "no-due-reminders", due := [] }, p)) ∨
    ((p.canSend wall).1 = true ∧ (p.checkDue utc).1 ≠ [] ∧
      proactiveNudge wall utc p =
        ({ sent := true, reason := str "ok", due := (p.checkDue utc).1 },
          (p.checkDue utc).2.markSent wall)) := by
  unfold proactiveNudge
  cases hok : (p.canSend wall).1 with
  | false => exact .inl ⟨rfl, by simp [hok]⟩
  | true =>
    cases hdue : (p.checkDue utc).1 with
    | nil =>
      refine .inr (.inl ⟨rfl, rfl, ?_⟩)
      simp [hok, hdue, checkDue_unchanged_iff.mpr hdue]
    | cons r rs => exact .inr (.inr ⟨rfl, by simp, by simp [hok, hdue]⟩)

theorem checkThenMark_eq :
    checkThenMark wall utc wallMark p =
      if (p.canSend wall).1 = true ∧ (p.checkDue utc).1 ≠ [] then (p.checkDue utc).2.markSent wallMark
      else (p.checkDue utc).2 := by
  unfold checkThenMark proactivityCheck proactivityMarkSent
  simp

theorem markSent_inj {now now' : Int} : p.markSent now = p.markSent now' ↔ now = now' := by
  constructor
  · intro h
    exact Option.some.inj (congrArg lastSentAt h)
  · intro h
    rw [h]

/-- The routes leave the state the job leaves, and consume nothing while nothing can be sent, if
and only if nothing is due, or something can be sent and is marked at the time of the check. -/
theorem checkThenMark_eq_nudge_iff (p : ProactivityService) (wall utc wallMark : Int) :
    (checkThenMark wall utc wallMark p = (proactiveNudge wall utc p).2 ∧
      ((p.canSend wall).1 = false → (proactivityCheck wall utc p).2 = p)) ↔
    (∀ r ∈ p.reminders, r.dueAt ≤ utc → r.fired = true) ∨
      ((p.canSend wall).1 = true ∧ wallMark = wall) := by
  have hcheck : (proactivityCheck wall utc p).2 = (p.checkDue utc).2 := rfl
  rw [checkThenMark_eq, hcheck, ← checkDue_eq_nil_iff]
  rcases proactiveNudge_cases wall utc p with ⟨hok, hnudge⟩ | ⟨hok, hdue, hnudge⟩ | ⟨hok, hdue, hnudge⟩
  · -- held back: the routes have fired whatever was due
    rw [hnudge, hok, if_neg (by simp), checkDue_unchanged_iff]
    simp
  · rw [hnudge, if_neg (by simp [hdue]), checkDue_unchanged_iff]
    simp [hok, hdue]
  · rw [hnudge, if_pos ⟨hok, hdue⟩, markSent_inj]
    simp [hok, hdue]

end Nudge

/-- At two in the morning a reminder of one o'clock is waiting. -/
def atNight : ProactivityService :=
  { init 23 8 120 with
    reminders := [{ id := str "a1", message := str "tea", dueAt := hourMicros, createdAt := 0
                    fired := false, reason := str "user-set" }] }

theorem not_checkThenMark_eq_nudge :
    ¬ ∀ (p : ProactivityService) (wall utc wallMark : Int),
      checkThenMark wall utc wallMark p = (proactiveNudge wall utc p).2 ∧
        ((p.canSend wall).1 = false → (proactivityCheck wall utc p).2 = p) := by
  intro h
  have hconsumed := (h atNight (2 * hourMicros) (2 * hourMicros) (2 * hourMicros)).2 rfl
  have hfired := congrArg (fun p => p.reminders.map Reminder.fired) hconsumed
  exact absurd hfired (by decide)

inductive ProactivityCall where
  | addReminder (createdAt : Int) (id message : PyStr) (delta : Except PyExc Int) (reason : PyStr)
  | cancelReminder (id : PyStr)
  | markSent
  | proactiveNudge

inductive CallReply where
  | added (r : Except PyExc Reminder)
  | cancelled (ok : Bool)
  | marked
  | nudged (reply : NudgeReply)

def ProactivityCall.run (wall utc : Int) (p : ProactivityService) :
    ProactivityCall → CallReply × ProactivityService
  | .addReminder createdAt id message delta reason =>
    let (r, p) := p.addReminder utc createdAt id message delta reason
    (.added r, p)
  | .cancelReminder id =>
    let (ok, p) := p.cancelReminder id
    (.cancelled ok, p)
  | .markSent => (.marked, p.markSent wall)
  | .proactiveNudge =>
    let (reply, p) := VirtualPerson.proactiveNudge wall utc p
    (.nudged reply, p)

/-- A call, what its two clocks read, and what it returned. -/
structure ProactivityEvent where
  wall : Int
  utc : Int
  call : ProactivityCall
  reply : CallReply

structure ProactivityState where
  service : ProactivityService
  wall : Int
  utc : Int

/-- Calls on one service, under clocks that do not go back. -/
def proactivitySystem (quietStart quietEnd cooldownMinutes : Int) :
    System ProactivityState ProactivityEvent where
  init s := s.service = .init quietStart quietEnd cooldownMinutes
  step s e t := s.wall ≤ e.wall ∧ s.utc ≤ e.utc ∧ t.wall = e.wall ∧ t.utc = e.utc ∧
    e.call.run e.wall e.utc s.service = (e.reply, t.service)

namespace ProactivityEvent

def addedIds (e : ProactivityEvent) : List PyStr :=
  match e.reply with
  | .added (.ok r) => [r.id]
  | _ => []

/-- The local times at which something was sent or marked as sent. -/
def sendTimes (e : ProactivityEvent) : List Int :=
  match e.reply with
  | .marked => [e.wall]
  | .nudged reply => if reply.sent then [e.wall] else []
  | _ => []

def emittedIds (e : ProactivityEvent) : List PyStr :=
  match e.reply with
  | .nudged reply => reply.due.map Reminder.id
  | _ => []

def Adds (r : Reminder) (e : ProactivityEvent) : Prop := e.reply = .added (.ok r)

def Cancels (id : PyStr) (e : ProactivityEvent) : Prop := e.call = .cancelReminder id

end ProactivityEvent

open ProactivityEvent

section Runs

variable {quietStart quietEnd cooldownMinutes : Int} {s t s₀ : ProactivityState}
variable {e : ProactivityEvent} {es : List ProactivityEvent} {p q : ProactivityService}

section Calls

variable {wall utc createdAt : Int} {id message reason : PyStr} {delta : Except PyExc Int}

theorem run_addReminder :
    (ProactivityCall.addReminder createdAt id message delta reason).run wall utc p =
      (.added (p.addReminder utc createdAt id message delta reason).1,
        (p.addReminder utc createdAt id message delta reason).2) := rfl

theorem run_cancelReminder :
    (ProactivityCall.cancelReminder id).run wall utc p =
      (.cancelled (p.cancelReminder id).1, (p.cancelReminder id).2) := rfl

theorem run_markSent :
    ProactivityCall.markSent.run wall utc p = (.marked, p.markSent wall) := rfl

theorem run_proactiveNudge :
    ProactivityCall.proactiveNudge.run wall utc p =
      (.nudged (proactiveNudge wall utc p).1, (proactiveNudge wall utc p).2) := rfl

end Calls

/-- What a call comes to: the service it leaves, by the call and its reply. -/
inductive CallEffect (p : ProactivityService) (e : ProactivityEvent) : ProactivityService → Prop where
  | adds (r : Reminder) (added : Adds r e) (pending : r.fired = false)
      (keeps : ∀ id, ¬ Cancels id e) : CallEffect p e { p with reminders := p.reminders ++ [r] }
  | cancels (id : PyStr) (ok : Bool) (call : Cancels id e) (reply : e.reply = .cancelled ok) :
      CallEffect p e (p.cancelReminder id).2
  | marks (reply : e.reply = .marked) (keeps : ∀ id, ¬ Cancels id e) :
      CallEffect p e (p.markSent e.wall)
  | fires (reason : PyStr) (reply : e.reply = .nudged ⟨true, reason, (p.checkDue e.utc).1⟩)
      (keeps : ∀ id, ¬ Cancels id e) : CallEffect p e ((p.checkDue e.utc).2.markSent e.wall)
  | nothing (adds : e.addedIds = []) (emits : e.emittedIds = []) (sends : e.sendTimes = [])
      (keeps : ∀ id, ¬ Cancels id e) : CallEffect p e p

theorem run_effect (h : e.call.run e.wall e.utc p = (e.reply, q)) : CallEffect p e q := by
  obtain ⟨wall, utc, call, reply⟩ := e
  dsimp only at h
  cases call with
  | addReminder createdAt id message delta reason =>
    rw [run_addReminder, Prod.mk.injEq] at h
    obtain ⟨rfl, rfl⟩ := h
    cases hadd : (p.addReminder utc createdAt id message delta reason).1 with
    | error e =>
      rw [addReminder_error hadd]
      exact .nothing rfl rfl rfl fun id hc => by cases hc
    | ok r =>
      obtain ⟨-, hfired, heq⟩ := addReminder_ok hadd
      rw [heq]
      exact .adds r rfl hfired fun id hc => by cases hc
  | cancelReminder id =>
    rw [run_cancelReminder, Prod.mk.injEq] at h
    obtain ⟨rfl, rfl⟩ := h
    exact .cancels id _ rfl rfl
  | markSent =>
    rw [run_markSent, Prod.mk.injEq] at h
    obtain ⟨rfl, rfl⟩ := h
    exact .marks rfl fun id hc => by cases hc
  | proactiveNudge =>
    rw [run_proactiveNudge, Prod.mk.injEq] at h
    obtain ⟨rfl, rfl⟩ := h
    rcases proactiveNudge_cases wall utc p with ⟨-, heq⟩ | ⟨-, -, heq⟩ | ⟨-, -, heq⟩
    · rw [heq]
      exact .nothing rfl rfl rfl fun id hc => by cases hc
    · rw [heq]
      exact .nothing rfl rfl rfl fun id hc => by cases hc
    · rw [heq]
      exact .fires _ rfl fun id hc => by cases hc

/-- A call keeps the settings, and records exactly the sends. -/
theorem run_gate (h : e.call.run e.wall e.utc p = (e.reply, q)) :
    q.quietStart = p.quietStart ∧ q.quietEnd = p.quietEnd ∧ q.cooldown = p.cooldown ∧
      ((e.sendTimes = [] ∧ q.lastSentAt = p.lastSentAt) ∨
        (e.sendTimes = [e.wall] ∧ q.lastSentAt = some e.wall)) := by
  cases run_effect h with
  | adds r added =>
    rw [sendTimes, added]
    exact ⟨rfl, rfl, rfl, .inl ⟨rfl, rfl⟩⟩
  | cancels id ok _ reply =>
    rw [sendTimes, reply]
    rcases cancelReminder_cases p id with ⟨r, -, -, -, heq⟩ | ⟨-, heq⟩
    · rw [heq]
      exact ⟨rfl, rfl, rfl, .inl ⟨rfl, rfl⟩⟩
    · rw [heq]
      exact ⟨rfl, rfl, rfl, .inl ⟨rfl, rfl⟩⟩
  | marks reply =>
    rw [sendTimes, reply]
    exact ⟨rfl, rfl, rfl, .inr ⟨rfl, rfl⟩⟩
  | fires reason reply =>
    rw [sendTimes, reply]
    exact ⟨rfl, rfl, rfl, .inr ⟨rfl, rfl⟩⟩
  | nothing _ _ sends => exact ⟨rfl, rfl, rfl, .inl ⟨sends, rfl⟩⟩

/-- A call adds a reminder, cancels one, fires those that are due, or leaves them all. -/
theorem run_reminders (h : e.call.run e.wall e.utc p = (e.reply, q)) :
    (∃ r, Adds r e ∧ r.fired = false ∧ e.addedIds = [r.id] ∧ e.emittedIds = [] ∧
      (∀ id, ¬ Cancels id e) ∧ q.reminders = p.reminders ++ [r]) ∨
    (∃ id, e.addedIds = [] ∧ e.emittedIds = [] ∧ (∀ id', Cancels id' e → id' = id) ∧
      q.reminders = (p.cancelReminder id).2.reminders) ∨
    (e.addedIds = [] ∧ e.emittedIds = (p.checkDue e.utc).1.map Reminder.id ∧
      (∀ id, ¬ Cancels id e) ∧ q.reminders = (p.checkDue e.utc).2.reminders) ∨
    (e.addedIds = [] ∧ e.emittedIds = [] ∧ (∀ id, ¬ Cancels id e) ∧ q.reminders = p.reminders) := by
  cases run_effect h with
  | adds r added pending keeps =>
    refine .inl ⟨r, added, pending, ?_, ?_, keeps, rfl⟩
    · rw [addedIds, added]
    · rw [emittedIds, added]
  | cancels id ok call reply =>
    refine .inr (.inl ⟨id, ?_, ?_, ?_, rfl⟩)
    · rw [addedIds, reply]
    · rw [emittedIds, reply]
    · intro id' hc
      have hsame := hc.symm.trans call
      cases hsame
      rfl
  | marks reply keeps =>
    refine .inr (.inr (.inr ⟨?_, ?_, keeps, rfl⟩))
    · rw [addedIds, reply]
    · rw [emittedIds, reply]
  | fires reason reply keeps =>
    refine .inr (.inr (.inl ⟨?_, ?_, keeps, rfl⟩))
    · rw [addedIds, reply]
    · rw [emittedIds, reply]
  | nothing adds emits _ keeps => exact .inr (.inr (.inr ⟨adds, emits, keeps, rfl⟩))

/-- The settings, and the last send as the gate reads it. -/
structure Paced (quietStart quietEnd cooldownMinutes : Int) (s : ProactivityState)
    (es : List ProactivityEvent) : Prop where
  quietStart_eq : s.service.quietStart = quietStart
  quietEnd_eq : s.service.quietEnd = quietEnd
  cooldown_eq : s.service.cooldown = cooldownMinutes * minuteMicros
  lastSent : s.service.lastSentAt = none → es.flatMap sendTimes = []
  sent_le : ∀ last, s.service.lastSentAt = some last →
    last ≤ s.wall ∧ ∀ w ∈ es.flatMap sendTimes, w ≤ last

theorem paced_init (h : (proactivitySystem quietStart quietEnd cooldownMinutes).init s) :
    Paced quietStart quietEnd cooldownMinutes s [] where
  quietStart_eq := congrArg ProactivityService.quietStart h
  quietEnd_eq := congrArg ProactivityService.quietEnd h
  cooldown_eq := congrArg ProactivityService.cooldown h
  lastSent _ := rfl
  sent_le last hlast := by
    rw [show s.service = .init quietStart quietEnd cooldownMinutes from h] at hlast
    cases hlast

theorem paced_step (hp : Paced quietStart quietEnd cooldownMinutes s es)
    (hst : (proactivitySystem quietStart quietEnd cooldownMinutes).step s e t) :
    Paced quietStart quietEnd cooldownMinutes t (es ++ [e]) := by
  obtain ⟨hwall, -, htwall, -, hrun⟩ := hst
  obtain ⟨hstart, hend, hcooldown, hsend⟩ := run_gate hrun
  refine ⟨hstart.trans hp.quietStart_eq, hend.trans hp.quietEnd_eq, hcooldown.trans hp.cooldown_eq,
    ?_, ?_⟩
  · intro hnone
    rcases hsend with ⟨htimes, hlast⟩ | ⟨-, hlast⟩
    · rw [List.flatMap_append, List.flatMap_singleton, htimes, List.append_nil]
      exact hp.lastSent (hlast.symm.trans hnone)
    · rw [hlast] at hnone
      cases hnone
  · intro last hlast'
    rw [List.flatMap_append, List.flatMap_singleton, htwall]
    rcases hsend with ⟨htimes, hlast⟩ | ⟨htimes, hlast⟩
    · obtain ⟨hle, hall⟩ := hp.sent_le last (hlast.symm.trans hlast')
      rw [htimes, List.append_nil]
      exact ⟨Int.le_trans hle hwall, hall⟩
    · rw [hlast] at hlast'
      cases hlast'
      refine ⟨Int.le_refl _, fun w hw => ?_⟩
      rw [htimes, List.mem_append, List.mem_singleton] at hw
      rcases hw with hw | rfl
      · cases hbefore : s.service.lastSentAt with
        | none =>
          rw [hp.lastSent hbefore] at hw
          cases hw
        | some before =>
          obtain ⟨hle, hall⟩ := hp.sent_le before hbefore
          exact Int.le_trans (hall w hw) (Int.le_trans hle hwall)
      · exact Int.le_refl _

/-- Which reminders may still be emitted, and which have been. -/
structure Tracked (s : ProactivityState) (es : List ProactivityEvent) : Prop where
  ids : (s.service.reminders.map Reminder.id).Nodup
  known : ∀ r ∈ s.service.reminders, r.id ∈ es.flatMap addedIds
  emitted_known : ∀ id ∈ es.flatMap emittedIds, id ∈ es.flatMap addedIds
  emitted_nodup : (es.flatMap emittedIds).Nodup
  pending : ∀ r ∈ s.service.reminders, r.fired = false →
    Since (Adds r) (Cancels r.id) es ∧ r.id ∉ es.flatMap emittedIds

theorem tracked_init (h : (proactivitySystem quietStart quietEnd cooldownMinutes).init s) :
    Tracked s [] := by
  have hnone : s.service.reminders = [] := congrArg reminders h
  refine ⟨?_, ?_, by simp, List.nodup_nil, ?_⟩
  · rw [hnone]
    exact List.nodup_nil
  · rw [hnone]
    simp
  · rw [hnone]
    simp

theorem flatMap_concat {β : Type} (f : ProactivityEvent → List β) :
    (es ++ [e]).flatMap f = es.flatMap f ++ f e := by
  rw [List.flatMap_append, List.flatMap_singleton]

/-- A reminder joins whose id no earlier one had. -/
theorem Tracked.add (ht : Tracked s es) {r : Reminder} (hadds : Adds r e) (hnew : e.addedIds = [r.id])
    (hnone : e.emittedIds = []) (hcancels : ∀ id, ¬ Cancels id e)
    (hfresh : r.id ∉ es.flatMap addedIds) (heq : t.service.reminders = s.service.reminders ++ [r]) :
    Tracked t (es ++ [e]) := by
  constructor
  · rw [heq, List.map_append, List.map_singleton]
    refine List.Nodup.append ht.ids (List.nodup_singleton _) ?_
    intro id hid hid'
    obtain ⟨q, hq, rfl⟩ := List.mem_map.mp hid
    rw [List.mem_singleton] at hid'
    exact hfresh (hid' ▸ ht.known q hq)
  · intro q hq
    rw [flatMap_concat, hnew]
    rw [heq] at hq
    rcases List.mem_append.mp hq with hq | hq
    · exact List.mem_append_left _ (ht.known q hq)
    · rw [List.mem_singleton.mp hq]
      exact List.mem_append_right _ (List.mem_singleton_self _)
  · intro id hid
    rw [flatMap_concat, hnone, List.append_nil] at hid
    rw [flatMap_concat]
    exact List.mem_append_left _ (ht.emitted_known id hid)
  · rw [flatMap_concat, hnone, List.append_nil]
    exact ht.emitted_nodup
  · intro q hq hpending
    rw [flatMap_concat emittedIds, hnone, List.append_nil]
    rw [heq] at hq
    rcases List.mem_append.mp hq with hq | hq
    · obtain ⟨hsince, hnot⟩ := ht.pending q hq hpending
      exact ⟨hsince.snoc (hcancels q.id), hnot⟩
    · rw [List.mem_singleton.mp hq]
      exact ⟨.mark_last hadds, fun h => hfresh (ht.emitted_known _ h)⟩

/-- Reminders may go; those that stay pending were not cancelled. -/
theorem Tracked.remove (ht : Tracked s es) (hnew : e.addedIds = []) (hnone : e.emittedIds = [])
    (hsub : t.service.reminders.Sublist s.service.reminders)
    (hstay : ∀ q ∈ t.service.reminders, q.fired = false → ¬ Cancels q.id e) :
    Tracked t (es ++ [e]) := by
  constructor
  · exact List.Nodup.sublist (hsub.map _) ht.ids
  · intro q hq
    rw [flatMap_concat, hnew, List.append_nil]
    exact ht.known q (hsub.subset hq)
  · rw [flatMap_concat, flatMap_concat, hnone, hnew, List.append_nil, List.append_nil]
    exact ht.emitted_known
  · rw [flatMap_concat, hnone, List.append_nil]
    exact ht.emitted_nodup
  · intro q hq hpending
    rw [flatMap_concat emittedIds, hnone, List.append_nil]
    obtain ⟨hsince, hnot⟩ := ht.pending q (hsub.subset hq) hpending
    exact ⟨hsince.snoc (hstay q hq hpending), hnot⟩

/-- The due reminders are fired, and were pending until now. -/
theorem Tracked.fire {utc : Int} (ht : Tracked s es) (hnew : e.addedIds = [])
    (hdue : e.emittedIds = (s.service.checkDue utc).1.map Reminder.id) (hcancels : ∀ id, ¬ Cancels id e)
    (heq : t.service.reminders = (s.service.checkDue utc).2.reminders) : Tracked t (es ++ [e]) := by
  have hwas : ∀ id ∈ e.emittedIds, ∃ r ∈ s.service.reminders, r.id = id ∧ r.fired = false := by
    intro id hid
    rw [hdue] at hid
    obtain ⟨r, hr, rfl⟩ := List.mem_map.mp hid
    exact ⟨_, (mem_checkDue hr).1, rfl, rfl⟩
  constructor
  · rw [heq]
    exact (map_id_fire s.service.reminders).symm ▸ ht.ids
  · intro q hq
    rw [flatMap_concat, hnew, List.append_nil]
    rw [heq] at hq
    obtain ⟨r, hr, rfl⟩ := List.mem_map.mp hq
    rw [fire_id]
    exact ht.known r hr
  · intro id hid
    rw [flatMap_concat, hnew, List.append_nil]
    rw [flatMap_concat] at hid
    rcases List.mem_append.mp hid with hid | hid
    · exact ht.emitted_known id hid
    · obtain ⟨r, hr, rfl, -⟩ := hwas id hid
      exact ht.known r hr
  · rw [flatMap_concat]
    refine List.Nodup.append ht.emitted_nodup ?_ ?_
    · rw [hdue, checkDue, map_id_fire]
      exact List.Nodup.sublist (List.filter_sublist.map _) ht.ids
    · intro id hid hid'
      obtain ⟨r, hr, rfl, hpending⟩ := hwas id hid'
      exact (ht.pending r hr hpending).2 hid
  · intro q hq hpending
    rw [heq] at hq
    obtain ⟨r, hr, rfl⟩ := List.mem_map.mp hq
    obtain ⟨hsame, hnotdue⟩ := fire_pending hpending
    rw [hsame] at hpending ⊢
    obtain ⟨hsince, hnot⟩ := ht.pending r hr hpending
    refine ⟨hsince.snoc (hcancels r.id), ?_⟩
    rw [flatMap_concat, List.mem_append]
    intro h
    rcases h with h | h
    · exact hnot h
    · -- the ids are distinct, so what was emitted under this one was this reminder, not due
      rw [hdue] at h
      obtain ⟨q, hq, hid⟩ := List.mem_map.mp h
      obtain ⟨r', hr', rfl⟩ := List.mem_map.mp hq
      obtain ⟨hr', hdue'⟩ := List.mem_filter.mp hr'
      have hrr : r' = r := List.inj_on_of_nodup_map ht.ids hr' hr (fire_id.symm.trans hid)
      rw [hrr, hnotdue] at hdue'
      cases hdue'

theorem tracked_step (hids : ((es ++ [e]).flatMap addedIds).Nodup) (ht : Tracked s es)
    (hst : (proactivitySystem quietStart quietEnd cooldownMinutes).step s e t) :
    Tracked t (es ++ [e]) := by
  obtain ⟨-, -, -, -, hrun⟩ := hst
  rcases run_reminders hrun with ⟨r, hadds, -, hnew, hnone, hcancels, heq⟩ |
    ⟨id, hnew, hnone, hcancels, heq⟩ | ⟨hnew, hdue, hcancels, heq⟩ | ⟨hnew, hnone, hcancels, heq⟩
  · rw [flatMap_concat, hnew] at hids
    apply ht.add hadds hnew hnone hcancels _ heq
    intro h
    exact List.disjoint_of_nodup_append hids h (List.mem_singleton_self _)
  · apply ht.remove hnew hnone
    · rw [heq]
      exact cancelReminder_sublist s.service id
    · intro q hq hpending hcancel
      rw [heq] at hq
      exact (not_pending_of_cancel ht.ids hq hpending).2 (hcancels q.id hcancel)
  · exact ht.fire hnew hdue hcancels heq
  · apply ht.remove hnew hnone
    · rw [heq]
    · exact fun q _ _ => hcancels q.id

theorem isQuietHours_congr {now : Int} (hstart : p.quietStart = q.quietStart)
    (hend : p.quietEnd = q.quietEnd) : p.isQuietHours now = q.isQuietHours now := by
  unfold isQuietHours
  rw [hstart, hend]

theorem paced_run (h₀ : (proactivitySystem quietStart quietEnd cooldownMinutes).init s₀)
    (hrun : (proactivitySystem quietStart quietEnd cooldownMinutes).Run s₀ es s) :
    Paced quietStart quietEnd cooldownMinutes s es :=
  System.Run.invariant_labels (fun hp hst => paced_step hp hst) hrun (paced_init h₀)

theorem tracked_run (h₀ : (proactivitySystem quietStart quietEnd cooldownMinutes).init s₀)
    (hrun : (proactivitySystem quietStart quietEnd cooldownMinutes).Run s₀ es s)
    (hids : (es.flatMap addedIds).Nodup) : Tracked s es := by
  have hall : (es.flatMap addedIds).Nodup → Tracked s es := by
    refine System.Run.invariant_labels (I := fun s es => (es.flatMap addedIds).Nodup → Tracked s es)
      ?_ hrun (fun _ => tracked_init h₀)
    intro s e t es ht hst hids
    have hbefore : (es.flatMap addedIds).Nodup := by
      rw [List.flatMap_append] at hids
      exact hids.of_append_left
    exact tracked_step hids (ht hbefore) hst
  exact hall hids

theorem nudge_of_reply {reply : NudgeReply} (h : e.call.run e.wall e.utc p = (e.reply, q))
    (hnudge : e.reply = .nudged reply) : proactiveNudge e.wall e.utc p = (reply, q) := by
  rw [hnudge] at h
  cases hcall : e.call with
  | addReminder createdAt id message delta reason =>
    rw [hcall, run_addReminder, Prod.mk.injEq] at h
    cases h.1
  | cancelReminder id =>
    rw [hcall, run_cancelReminder, Prod.mk.injEq] at h
    cases h.1
  | markSent =>
    rw [hcall, run_markSent, Prod.mk.injEq] at h
    cases h.1
  | proactiveNudge =>
    rw [hcall, run_proactiveNudge, Prod.mk.injEq, CallReply.nudged.injEq] at h
    exact Prod.ext h.1 h.2

/-- In every run a nudge that sends does so outside quiet hours, which last from one hour of the day to
another, and a cooldown after every send before it, and emits reminders that are due, have not been
cancelled since they were added, and have not been emitted before; a nudge that does not send changes
nothing. -/
theorem nudge_respects_gate {reply : NudgeReply}
    (h₀ : (proactivitySystem quietStart quietEnd cooldownMinutes).init s₀)
    (hrun : (proactivitySystem quietStart quietEnd cooldownMinutes).Run s₀ es s)
    (hst : (proactivitySystem quietStart quietEnd cooldownMinutes).step s e t)
    (hids : (es.flatMap addedIds).Nodup) (hnudge : e.reply = .nudged reply) :
    (reply.sent = true →
      (init quietStart quietEnd cooldownMinutes).isQuietHours e.wall = false ∧
      (0 ≤ quietStart ∧ quietStart < 24 → 0 ≤ quietEnd ∧ quietEnd < 24 →
        (quietEnd - quietStart) % 24 ≤ (hour e.wall - quietStart) % 24) ∧
      (∀ w ∈ es.flatMap sendTimes, cooldownMinutes * minuteMicros ≤ e.wall - w) ∧
      (reply.due.map Reminder.id).Nodup ∧
      ∀ r ∈ reply.due, r.dueAt ≤ e.utc ∧ Since (Adds { r with fired := false }) (Cancels r.id) es ∧
        r.id ∉ es.flatMap emittedIds) ∧
    (reply.sent = false → reply.due = [] ∧ t.service = s.service) := by
  have hp := paced_run h₀ hrun
  have ht := tracked_run h₀ hrun hids
  obtain ⟨-, -, -, -, hcall⟩ := hst
  have hsent := nudge_of_reply hcall hnudge
  rcases proactiveNudge_cases e.wall e.utc s.service with
    ⟨-, heq⟩ | ⟨-, -, heq⟩ | ⟨hok, hdue, heq⟩
  · obtain ⟨rfl, hsame⟩ := Prod.mk.inj (heq.symm.trans hsent)
    exact ⟨(fun h => by cases h), fun _ => ⟨rfl, hsame.symm⟩⟩
  · obtain ⟨rfl, hsame⟩ := Prod.mk.inj (heq.symm.trans hsent)
    exact ⟨(fun h => by cases h), fun _ => ⟨rfl, hsame.symm⟩⟩
  · obtain ⟨rfl, -⟩ := Prod.mk.inj (heq.symm.trans hsent)
    refine ⟨fun _ => ?_, fun h => by cases h⟩
    obtain ⟨hquiet, hcooldown⟩ := canSend_iff.mp hok
    have hawake : (init quietStart quietEnd cooldownMinutes).isQuietHours e.wall = false := by
      rw [← hquiet]
      exact isQuietHours_congr hp.quietStart_eq.symm hp.quietEnd_eq.symm
    refine ⟨hawake, ?_, ?_, ?_, ?_⟩
    · intro hstart hend
      have hnot := mt (isQuietHours_iff hstart hend).mpr (Bool.eq_false_iff.mp hawake)
      exact Int.not_lt.mp hnot
    · intro w hw
      cases hlast : s.service.lastSentAt with
      | none =>
        rw [hp.lastSent hlast] at hw
        cases hw
      | some last =>
        have hgap := hcooldown last hlast
        have hle := (hp.sent_le last hlast).2 w hw
        rw [hp.cooldown_eq] at hgap
        omega
    · rw [checkDue, map_id_fire]
      exact List.Nodup.sublist (List.filter_sublist.map _) ht.ids
    · intro r hr
      obtain ⟨hmem, hle⟩ := mem_checkDue hr
      obtain ⟨hsince, hnot⟩ := ht.pending _ hmem rfl
      exact ⟨hle, hsince, hnot⟩

end Runs

def noonReminder : Reminder :=
  { id := str "a1", message := str "tea", dueAt := 12 * hourMicros, createdAt := 12 * hourMicros
    fired := false, reason := str "user-set" }

def noonAdd : ProactivityEvent :=
  { wall := 12 * hourMicros, utc := 12 * hourMicros
    call := .addReminder (12 * hourMicros) (str "a1") (str "tea") (.ok 0) (str "user-set")
    reply := .added (.ok noonReminder) }

/-- At noon a reminder that is due at once is added and then nudged. -/
theorem nudge_respects_gate_noon :
    (init 23 8 120).isQuietHours (12 * hourMicros) = false ∧
      Since (Adds noonReminder) (Cancels (str "a1")) [noonAdd] := by
  have h₀ : (proactivitySystem 23 8 120).init ⟨init 23 8 120, 0, 0⟩ := rfl
  have hadd : (proactivitySystem 23 8 120).step ⟨init 23 8 120, 0, 0⟩ noonAdd
      ⟨{ init 23 8 120 with reminders := [noonReminder] }, 12 * hourMicros, 12 * hourMicros⟩ :=
    ⟨by decide, by decide, rfl, rfl, rfl⟩
  have hnudge : (proactivitySystem 23 8 120).step
      ⟨{ init 23 8 120 with reminders := [noonReminder] }, 12 * hourMicros, 12 * hourMicros⟩
      ⟨12 * hourMicros, 12 * hourMicros, .proactiveNudge,
        .nudged ⟨true, str "ok", [{ noonReminder with fired := true }]⟩⟩
      ⟨{ init 23 8 120 with
          lastSentAt := some (12 * hourMicros), reminders := [{ noonReminder with fired := true }] },
        12 * hourMicros, 12 * hourMicros⟩ :=
    ⟨Int.le_refl _, Int.le_refl _, rfl, rfl, rfl⟩
  obtain ⟨hquiet, -, -, -, hdue⟩ :=
    (nudge_respects_gate h₀ (.single hadd) hnudge (by decide) rfl).1 rfl
  exact ⟨hquiet, (hdue _ List.mem_cons_self).2.1⟩

end VirtualPerson
