import Mathlib.Algebra.BigOperators.Group.List.Basic
import Mathlib.Algebra.GroupWithZero.Nat
import VirtualPerson.Queue.Settlement

/-!
# The worker's counters

What `Worker._handle_delivery` counts beside what it does to the message, over any
sequence of deliveries.
-/

namespace VirtualPerson

set_option autoImplicit false

open Policy

/-- A delivered envelope: an object with its fields, which can be written again. -/
structure WellFormed (py : Stdlib) (handlers : Registry) where
  body : Bytes
  decoded : PyVal
  fields : Envelope.Fields
  handler : Option PyStr
  loads : py.jsonLoads body = some decoded
  reads : Envelope.read py decoded = .ok fields
  looksUp : lookupHandler handlers fields.taskType = .ok handler
  dumps : (py.jsonDumps (.dict fields.envelope)).isSome

/-- The broker takes every ack and every nack. -/
def Accepts : QueueSig.Event → Prop
  | ⟨.basicAck _, ok⟩ => ok = true
  | ⟨.basicNack _ _, ok⟩ => ok = true
  | _ => True

/-- One delivery of a well-formed envelope to the worker, with what was exchanged for it. -/
structure WorkerDelivery (py : Stdlib) (q : QueueConfig) (handlers : Registry) extends
    WellFormed py handlers where
  tag : Nat
  tr : List QueueSig.Event
  r : Except PyExc Unit
  runs : Prog.Runs (Worker.handleDelivery py q handlers tag body) tr r
  accepts : ∀ e ∈ tr, Accepts e

namespace Ledger

def increments (c : Counter) : QueueSig.Event → Bool
  | ⟨.inc c', _⟩ => decide (c' = c)
  | _ => false

def requeues : QueueSig.Event → Bool
  | ⟨.basicNack _ requeue, ok⟩ => ok && requeue
  | _ => false

/-- A message enters the DLQ: published to the DLX, or rejected into it. -/
def entersDlq (q : QueueConfig) : QueueSig.Event → Bool
  | ⟨.basicPublish m, ok⟩ => ok && decide (m.exchange = q.dlx)
  | ⟨.basicNack _ requeue, ok⟩ => ok && !requeue
  | _ => false

def raised : QueueSig.Event → Bool
  | ⟨.handle _ _, out⟩ => match out.result with
    | .ok _ => false
    | .error _ => true
  | _ => false

def tally (c : Counter) (tr : List QueueSig.Event) : Nat := tr.countP (increments c)

/-- The increments of the three final counters and the returns to the work queue. -/
def outcomes (tr : List QueueSig.Event) : Nat :=
  tally .processed tr + tally .retried tr + tally .deadLettered tr + tr.countP requeues

end Ledger

open Ledger

variable {py : Stdlib} {q : QueueConfig} {handlers : Registry}

/-- The counters account for every outcome of the deliveries. -/
structure Balanced (ds : List (WorkerDelivery py q handlers)) : Prop where
  one : ∀ d ∈ ds, outcomes d.tr = 1
  failed : (ds.map fun d => tally .failed d.tr).sum = ds.countP fun d => d.tr.any raised
  deadLettered : (ds.map fun d => tally .deadLettered d.tr).sum =
    (ds.map fun d => d.tr.countP (entersDlq q)).sum

/-- The `except Exception` block can deal with this outcome: an exception it does not catch or,
on the last attempt, one that cannot be recorded leaves the delivery handler. -/
def Caught (py : Stdlib) (q : QueueConfig) (f : Envelope.Fields) (out : HandlerOutcome) : Prop :=
  match out.result with
  | .ok _ => True
  | .error exc =>
    exc.isException = true ∧
      (q.maxRetries ≤ f.attempts + 1 → ∃ error, exc.repr = some error ∧
        (py.jsonDumps (.dict (PyDict.set (failedEnvelope f out.payload) (str "error")
          (.str error)))).isSome)

/-- The DLX took what was published to it, and the handler ended in a way the worker can record. -/
def Regular (py : Stdlib) (q : QueueConfig) (f : Envelope.Fields) : QueueSig.Event → Prop
  | ⟨.basicPublish m, ok⟩ => m.exchange = q.dlx → ok = true
  | ⟨.handle _ _, out⟩ => Caught py q f out
  | _ => True

def Accountable (d : WorkerDelivery py q handlers) : Prop := ∀ e ∈ d.tr, Regular py q d.fields e

def settledTrace (tag : Nat) (requeue ok : Bool) (c : Counter) : List QueueSig.Event :=
  if ok then [⟨.basicAck tag, true⟩, ⟨.inc c, ()⟩] else [⟨.basicNack tag requeue, true⟩]

theorem forall_settled {P : QueueSig.Event → Prop} {tag : Nat} {requeue ok : Bool} {c : Counter}
    (hack : P ⟨.basicAck tag, true⟩) (hinc : P ⟨.inc c, ()⟩) (hnack : P ⟨.basicNack tag requeue, true⟩) :
    ∀ e ∈ settledTrace tag requeue ok c, P e := by
  cases ok with
  | true => exact List.forall_mem_cons.mpr ⟨hack, List.forall_mem_singleton.mpr hinc⟩
  | false => exact List.forall_mem_singleton.mpr hnack

/-- All the courses a delivery of an envelope with the fields `f` can take. -/
inductive Course (py : Stdlib) (q : QueueConfig) (tag : Nat) (f : Envelope.Fields) :
    List QueueSig.Event → Prop where
  | parked (m : Publish) (ok : Bool) : m.exchange = q.dlx →
      Course py q tag f (⟨.basicPublish m, ok⟩ :: settledTrace tag false ok .deadLettered)
  | done (t : PyStr) (p : PyVal) (out : HandlerOutcome) (u : Unit) : out.result = .ok u →
      Course py q tag f (⟨.handle t p, out⟩ :: settledTrace tag false true .processed)
  | uncaught (t : PyStr) (p : PyVal) (out : HandlerOutcome) (exc : PyExc) :
      out.result = .error exc → exc.isException = false → Course py q tag f [⟨.handle t p, out⟩]
  | unrecorded (t : PyStr) (p : PyVal) (out : HandlerOutcome) (exc e : PyExc) :
      out.result = .error exc → exc.isException = true → failed py q f out.payload exc = .escapes e →
      Course py q tag f [⟨.handle t p, out⟩, ⟨.inc .failed, ()⟩]
  | exhausted (t : PyStr) (p : PyVal) (out : HandlerOutcome) (exc : PyExc) (body : Bytes)
      (m : Publish) (ok : Bool) :
      out.result = .error exc → exc.isException = true →
      failed py q f out.payload exc = .exhausted body → m.exchange = q.dlx →
      Course py q tag f (⟨.handle t p, out⟩ :: ⟨.inc .failed, ()⟩ :: ⟨.basicPublish m, ok⟩ ::
        settledTrace tag false ok .deadLettered)
  | retried (t : PyStr) (p : PyVal) (out : HandlerOutcome) (exc : PyExc) (body : Bytes) (n : Int)
      (m : Publish) (ok : Bool) :
      out.result = .error exc → exc.isException = true →
      failed py q f out.payload exc = .retry body n → m.exchange = q.exchange →
      Course py q tag f (⟨.handle t p, out⟩ :: ⟨.inc .failed, ()⟩ :: ⟨.basicPublish m, ok⟩ ::
        settledTrace tag true ok .retried)
  | unsendable (t : PyStr) (p : PyVal) (out : HandlerOutcome) (exc : PyExc) :
      out.result = .error exc → exc.isException = true →
      failed py q f out.payload exc = .unsendable →
      Course py q tag f (⟨.handle t p, out⟩ :: ⟨.inc .failed, ()⟩ ::
        settledTrace tag true false .retried)

section Courses

variable {tag : Nat} {requeue ok : Bool} {c : Counter} {tr : List QueueSig.Event}
variable {r : Except PyExc Unit} {f : Envelope.Fields}

theorem trace_settle (h : Prog.Runs (settle true tag requeue ok c) tr r)
    (haccepts : ∀ e ∈ tr, Accepts e) : tr = settledTrace tag requeue ok c := by
  cases ok with
  | true =>
    obtain ⟨-, a, rfl⟩ := runs_settle_true_iff.mp h
    have ha : a = true := haccepts _ List.mem_cons_self
    rw [ha]
    rfl
  | false =>
    obtain ⟨-, a, rfl⟩ := runs_settle_false_iff.mp h
    have ha : a = true := haccepts _ List.mem_cons_self
    rw [ha]
    rfl

/-- A publish and the settlement that its answer asks for. -/
theorem trace_publish {m : Publish}
    (h : Prog.Runs (S := QueueSig) (.op (.basicPublish m) fun ok => settle true tag requeue ok c) tr r)
    (haccepts : ∀ e ∈ tr, Accepts e) :
    ∃ ok : Bool, tr = ⟨.basicPublish m, ok⟩ :: settledTrace tag requeue ok c := by
  obtain ⟨ok, rest, rfl, hrest⟩ := Prog.runs_op_iff.mp h
  refine ⟨ok, ?_⟩
  rw [trace_settle hrest fun e he => haccepts e (List.mem_cons_of_mem _ he)]

theorem course_onOutcome {t : PyStr} {p : PyVal} {out : HandlerOutcome}
    (h : Prog.Runs (onOutcome true py q tag f out) tr r) (haccepts : ∀ e ∈ tr, Accepts e) :
    Course py q tag f (⟨.handle t p, out⟩ :: tr) := by
  unfold onOutcome at h
  cases hres : out.result with
  | ok u =>
    simp only [hres] at h
    rw [trace_settle h haccepts]
    exact .done t p out u hres
  | error exc =>
    simp only [hres] at h
    by_cases hexc : exc.isException = false
    · rw [if_pos hexc] at h
      rw [(Prog.runs_raise_iff.mp h).1]
      exact .uncaught t p out exc hres hexc
    · rw [if_neg hexc] at h
      rw [Bool.not_eq_false] at hexc
      obtain ⟨rest, rfl, hfail⟩ := runs_count_bind.mp h
      have haccepts' : ∀ e ∈ rest, Accepts e := fun e he => haccepts e (List.mem_append_right _ he)
      cases hfailed : failed py q f out.payload exc with
      | escapes e =>
        rw [hfailed] at hfail
        rw [(Prog.runs_raise_iff.mp hfail).1]
        exact .unrecorded t p out exc e hres hexc hfailed
      | exhausted body =>
        rw [hfailed] at hfail
        obtain ⟨ok, rfl⟩ := trace_publish hfail haccepts'
        exact .exhausted t p out exc body _ ok hres hexc hfailed rfl
      | retry body n =>
        rw [hfailed] at hfail
        obtain ⟨ok, rfl⟩ := trace_publish hfail haccepts'
        exact .retried t p out exc body n _ ok hres hexc hfailed rfl
      | unsendable =>
        rw [hfailed] at hfail
        rw [trace_settle hfail haccepts']
        exact .unsendable t p out exc hres hexc hfailed

end Courses

theorem WorkerDelivery.course (d : WorkerDelivery py q handlers) : Course py q d.tag d.fields d.tr := by
  have hrun := d.runs
  rw [Worker.handleDelivery_eq, delivery, verdict] at hrun
  simp only [d.loads, d.reads, d.looksUp] at hrun
  cases hhandler : d.handler with
  | none =>
    obtain ⟨body, hbody⟩ := Option.isSome_iff_exists.mp d.dumps
    simp only [hhandler, Envelope.encode, hbody] at hrun
    obtain ⟨ok, htr⟩ := trace_publish hrun d.accepts
    rw [htr]
    exact .parked _ ok rfl
  | some t =>
    simp only [hhandler] at hrun
    obtain ⟨out, rest, htr, hrest⟩ := Prog.runs_op_iff.mp hrun
    rw [htr]
    apply course_onOutcome hrest
    intro e he
    exact d.accepts e (htr ▸ List.mem_cons_of_mem _ he)

section Counts

variable {tag : Nat} {tr : List QueueSig.Event} {f : Envelope.Fields} {out : HandlerOutcome}
variable {exc : PyExc}

theorem caught_iff (hres : out.result = .error exc) (hexc : exc.isException = true) :
    Caught py q f out ↔ ∀ e, failed py q f out.payload exc ≠ .escapes e := by
  simp only [Caught, hres, hexc, true_and]
  unfold failed
  by_cases hmax : q.maxRetries ≤ f.attempts + 1
  · simp only [hmax, true_implies]
    cases exc.repr with
    | none => simp
    | some error =>
      simp only [Envelope.encode, Option.some.injEq, exists_eq_left']
      cases py.jsonDumps (.dict (PyDict.set (failedEnvelope f out.payload) (str "error")
        (.str error))) <;> simp
  · simp only [if_neg hmax]
    cases Envelope.encode py (failedEnvelope f out.payload) <;> simp [hmax]

theorem outcomes_cons (e : QueueSig.Event) (tr : List QueueSig.Event) :
    outcomes (e :: tr) = outcomes tr + ((if increments .processed e then 1 else 0) +
      (if increments .retried e then 1 else 0) + (if increments .deadLettered e then 1 else 0) +
      if requeues e then 1 else 0) := by
  simp only [outcomes, tally, List.countP_cons]
  omega

theorem outcomes_settled (tag : Nat) (requeue ok : Bool) (c : Counter) :
    outcomes (settledTrace tag requeue ok c) =
      if (ok && decide (c ≠ .failed)) || (!ok && requeue) then 1 else 0 := by
  cases ok with
  | true => cases c <;> rfl
  | false => cases requeue <;> rfl

@[simp] theorem regular_publish {m : Publish} {ok : Bool} :
    Regular py q f ⟨.basicPublish m, ok⟩ ↔ (m.exchange = q.dlx → ok = true) := Iff.rfl

@[simp] theorem regular_handle {t : PyStr} {p : PyVal} :
    Regular py q f ⟨.handle t p, out⟩ ↔ Caught py q f out := Iff.rfl

@[simp] theorem regular_inc {c : Counter} : Regular py q f ⟨.inc c, ()⟩ := trivial

theorem regular_settled (tag : Nat) (requeue ok : Bool) (c : Counter) :
    ∀ e ∈ settledTrace tag requeue ok c, Regular py q f e :=
  forall_settled trivial trivial trivial

/-- A delivery has exactly one outcome unless the DLX refused the message or the handler's
exception left the worker. -/
theorem Course.outcomes_eq_one_iff (h : Course py q tag f tr) (hexchange : q.exchange ≠ q.dlx) :
    outcomes tr = 1 ↔ ∀ e ∈ tr, Regular py q f e := by
  have hsettled := @regular_settled py q f
  cases h with
  | parked m ok hm =>
    rw [outcomes_cons, outcomes_settled, List.forall_mem_cons]
    simpa [increments, requeues, hm] using fun _ => hsettled tag false ok .deadLettered
  | done t p out u hres =>
    have hcaught : Caught py q f out := by simp [Caught, hres]
    rw [outcomes_cons, outcomes_settled, List.forall_mem_cons]
    simpa [increments, requeues, hcaught] using hsettled tag false true .processed
  | uncaught t p out exc hres hexc =>
    have hnot : ¬ Caught py q f out := by simp [Caught, hres, hexc]
    simp [outcomes, tally, increments, requeues, hnot]
  | unrecorded t p out exc e hres hexc hfailed =>
    have hnot : ¬ Caught py q f out := fun hc => (caught_iff hres hexc).mp hc e hfailed
    simp [outcomes, tally, increments, requeues, hnot]
  | exhausted t p out exc body m ok hres hexc hfailed hm =>
    have hcaught : Caught py q f out := (caught_iff hres hexc).mpr (by simp [hfailed])
    rw [outcomes_cons, outcomes_cons, outcomes_cons, outcomes_settled]
    simp only [List.forall_mem_cons]
    simpa [hcaught, increments, requeues, hm] using fun _ => hsettled tag false ok .deadLettered
  | retried t p out exc body n m ok hres hexc hfailed hm =>
    have hcaught : Caught py q f out := (caught_iff hres hexc).mpr (by simp [hfailed])
    rw [outcomes_cons, outcomes_cons, outcomes_cons, outcomes_settled]
    simp only [List.forall_mem_cons]
    simpa [hcaught, increments, requeues, hm, hexchange] using hsettled tag true ok .retried
  | unsendable t p out exc hres hexc hfailed =>
    have hcaught : Caught py q f out := (caught_iff hres hexc).mpr (by simp [hfailed])
    rw [outcomes_cons, outcomes_cons, outcomes_settled]
    simp only [List.forall_mem_cons]
    simpa [hcaught, increments, requeues] using hsettled tag true false .retried

/-- Where the outcome is accounted for, so are the handler's exception and the dead letter. -/
theorem Course.counts (h : Course py q tag f tr) (hexchange : q.exchange ≠ q.dlx)
    (hregular : ∀ e ∈ tr, Regular py q f e) :
    tally .failed tr = (if tr.any raised then 1 else 0) ∧
      tally .deadLettered tr = tr.countP (entersDlq q) := by
  cases h with
  | parked m ok hm =>
    have hok : ok = true := hregular _ List.mem_cons_self hm
    simp [tally, settledTrace, hok, hm, increments, raised, entersDlq]
  | done t p out u hres =>
    simp [tally, settledTrace, increments, raised, entersDlq, hres]
  | uncaught t p out exc hres hexc =>
    have hcaught : Caught py q f out := hregular _ List.mem_cons_self
    simp [Caught, hres, hexc] at hcaught
  | unrecorded t p out exc e hres hexc hfailed =>
    have hcaught : Caught py q f out := hregular _ List.mem_cons_self
    exact absurd hfailed ((caught_iff hres hexc).mp hcaught e)
  | exhausted t p out exc body m ok hres hexc hfailed hm =>
    have hok : ok = true := hregular ⟨.basicPublish m, ok⟩ (by simp) hm
    simp [tally, settledTrace, hok, hm, increments, raised, entersDlq, hres]
  | retried t p out exc body n m ok hres hexc hfailed hm =>
    cases ok <;> simp [tally, settledTrace, hm, hexchange, increments, raised, entersDlq, hres]
  | unsendable t p out exc hres hexc hfailed =>
    simp [tally, settledTrace, increments, raised, entersDlq, hres]

end Counts

theorem sum_failed {ds : List (WorkerDelivery py q handlers)} (hexchange : q.exchange ≠ q.dlx)
    (h : ∀ d ∈ ds, Accountable d) :
    (ds.map fun d => tally .failed d.tr).sum = ds.countP fun d => d.tr.any raised := by
  induction ds with
  | nil => rfl
  | cons d ds ih =>
    have hcount := (d.course.counts hexchange (h d List.mem_cons_self)).1
    rw [List.map_cons, List.sum_cons, List.countP_cons, hcount,
      ih fun d hd => h d (List.mem_cons_of_mem _ hd)]
    omega

/-- For every sequence of deliveries of well-formed envelopes: the counters account for every
outcome if and only if no message was refused by the DLX and no exception of a handler left
the worker. -/
theorem counters_balanced_iff (hexchange : q.exchange ≠ q.dlx)
    (ds : List (WorkerDelivery py q handlers)) : Balanced ds ↔ ∀ d ∈ ds, Accountable d := by
  constructor
  · intro h d hd
    exact (d.course.outcomes_eq_one_iff hexchange).mp (h.one d hd)
  · intro h
    constructor
    · intro d hd
      exact (d.course.outcomes_eq_one_iff hexchange).mpr (h d hd)
    · exact sum_failed hexchange h
    · congr 1
      apply List.map_congr_left
      intro d hd
      exact (d.course.counts hexchange (h d hd)).2

/-- `{}` on a registry without handlers. -/
def bracesDelivery (ok : Bool) : WorkerDelivery .braces .default (fun _ => false) where
  body := [0x7B, 0x7D]
  decoded := .dict []
  fields := ⟨[], .str [], .dict [], 0⟩
  handler := none
  loads := rfl
  reads := rfl
  looksUp := rfl
  dumps := rfl
  tag := 7
  tr := ⟨.basicPublish (Channel.message (str "vp.tasks.dlx") [] [0x7B, 0x7D] none
    (some (str "no-handler"))), ok⟩ :: settledTrace 7 false ok .deadLettered
  r := .ok ()
  runs := by
    refine Prog.Runs.op (S := QueueSig) (o := QueueOp.basicPublish _) ok ?_
    cases ok with
    | true =>
      refine Prog.Runs.op (S := QueueSig) (o := QueueOp.basicAck 7) true ?_
      exact Prog.Runs.op (S := QueueSig) (o := QueueOp.inc .deadLettered) () (.ret ())
    | false => exact Prog.Runs.op (S := QueueSig) (o := QueueOp.basicNack 7 false) true (.ret ())
  accepts := List.forall_mem_cons.mpr ⟨trivial, forall_settled rfl trivial rfl⟩

theorem counters_balanced_iff_braces :
    Balanced [bracesDelivery true] ↔ ∀ d ∈ [bracesDelivery true], Accountable d :=
  counters_balanced_iff (by decide) _

/-- A refused publish to the DLX: the nack dead-letters the message and nothing is counted. -/
theorem not_counters_balanced :
    ¬ ∀ (py : Stdlib) (q : QueueConfig) (handlers : Registry) (ds : List (WorkerDelivery py q handlers)),
      q.exchange ≠ q.dlx → Balanced ds := by
  intro h
  have hone := (h _ _ _ [bracesDelivery false] (by decide)).one _ (List.mem_singleton_self _)
  exact absurd hone (by decide)

end VirtualPerson
