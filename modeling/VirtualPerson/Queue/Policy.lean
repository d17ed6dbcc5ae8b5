import VirtualPerson.Queue.Delivery

/-!
# The delivery policy

What `Worker._handle_delivery` and `RabbitMQTaskQueue._handle_delivery` do, as one
flat case distinction: what the body comes to, then what the handler's outcome
comes to. Both handlers are shown equal to it, the worker with its counters on.
-/

namespace VirtualPerson

set_option autoImplicit false

namespace Policy

/-- What a delivery comes to before anything is sent to the broker. -/
inductive Verdict where
  | undecodable
  | broken (e : PyExc)
  | unregistered (body : Bytes)
  | task (taskType : PyStr) (f : Envelope.Fields)

def verdict (py : Stdlib) (handlers : Registry) (body : Bytes) : Verdict :=
  match py.jsonLoads body with
  | none => .undecodable
  | some decoded =>
    match Envelope.read py decoded with
    | .error e => .broken e
    | .ok f =>
      match lookupHandler handlers f.taskType with
      | .error e => .broken e
      | .ok (some t) => .task t f
      | .ok none =>
        match Envelope.encode py f.envelope with
        | .error e => .broken e
        | .ok encoded => .unregistered encoded

theorem verdict_unregistered {py : Stdlib} {handlers : Registry} {body encoded : Bytes}
    (h : verdict py handlers body = .unregistered encoded) :
    ∃ decoded f, py.jsonLoads body = some decoded ∧ Envelope.read py decoded = .ok f ∧
      Envelope.encode py f.envelope = .ok encoded := by
  unfold verdict at h
  split at h
  · cases h
  · rename_i decoded hload
    split at h
    · cases h
    · rename_i f hread
      split at h
      · cases h
      · cases h
      · split at h
        · cases h
        · rename_i body' henc
          cases h
          exact ⟨decoded, f, hload, hread, henc⟩

theorem verdict_task {py : Stdlib} {handlers : Registry} {body : Bytes} {t : PyStr}
    {f : Envelope.Fields} (h : verdict py handlers body = .task t f) :
    ∃ decoded, py.jsonLoads body = some decoded ∧ Envelope.read py decoded = .ok f := by
  unfold verdict at h
  split at h
  · cases h
  · rename_i decoded hload
    split at h
    · cases h
    · rename_i f' hread
      split at h
      · cases h
      · cases h
        exact ⟨decoded, hload, hread⟩
      · split at h <;> cases h

/-- What a caught handler exception comes to. -/
inductive Failure where
  | escapes (e : PyExc)
  | exhausted (body : Bytes)
  | retry (body : Bytes) (attempts : Int)
  | unsendable

def failedEnvelope (f : Envelope.Fields) (payload : PyVal) : PyDict :=
  PyDict.set (Envelope.afterHandler f.envelope payload) (str "attempts") (.int (f.attempts + 1))

def failed (py : Stdlib) (q : QueueConfig) (f : Envelope.Fields) (payload : PyVal)
    (exc : PyExc) : Failure :=
  if q.maxRetries ≤ f.attempts + 1 then
    match exc.repr with
    | none => .escapes .reprError
    | some error =>
      match Envelope.encode py (PyDict.set (failedEnvelope f payload) (str "error") (.str error)) with
      | .error e => .escapes e
      | .ok body => .exhausted body
  else
    match Envelope.encode py (failedEnvelope f payload) with
    | .error _ => .unsendable
    | .ok body => .retry body (f.attempts + 1)

variable (metrics : Bool) (py : Stdlib) (q : QueueConfig) (handlers : Registry) (tag : Nat)

def count (c : Counter) : QueueProg Unit :=
  if metrics then Worker.inc c else .ret ()

def settle (requeue ok : Bool) (c : Counter) : QueueProg Unit :=
  if ok then .op (.basicAck tag) fun _ => count metrics c
  else .op (.basicNack tag requeue) fun _ => .ret ()

def park (body : Bytes) (reason : String) : QueueProg Unit :=
  .op (.basicPublish (Channel.message q.dlx [] body none (some (str reason)))) fun ok =>
    settle metrics tag false ok .deadLettered

def onFailure : Failure → QueueProg Unit
  | .escapes e => .raise e
  | .exhausted body => park metrics q tag body "max-retries"
  | .retry body attempts =>
    .op (.basicPublish (Channel.message q.exchange q.routingKey body (some attempts) none))
      fun ok => settle metrics tag true ok .retried
  | .unsendable => settle metrics tag true false .retried

def onOutcome (f : Envelope.Fields) (out : HandlerOutcome) : QueueProg Unit :=
  match out.result with
  | .ok _ => settle metrics tag false true .processed
  | .error exc =>
    if exc.isException = false then .raise exc
    else do
      count metrics .failed
      onFailure metrics q tag (failed py q f out.payload exc)

def delivery (body : Bytes) : QueueProg Unit :=
  match verdict py handlers body with
  | .undecodable => park metrics q tag body "decode-error"
  | .broken e => .raise e
  | .unregistered encoded => park metrics q tag encoded "no-handler"
  | .task t f => .op (.handle t f.payload) fun out => onOutcome metrics py q tag f out

end Policy

open Policy

section Refinement

variable (py : Stdlib) (q : QueueConfig) (handlers : Registry) (tag : Nat) (body : Bytes)

/-- The reading part of either handler, by what the body comes to. -/
theorem read_eq_verdict (undecodable : QueueProg Unit) (unregistered : Bytes → QueueProg Unit)
    (task : PyStr → Envelope.Fields → QueueProg Unit) :
    (match py.jsonLoads body with
      | none => undecodable
      | some decoded => do
        let f ← Prog.lift (Envelope.read py decoded)
        match ← Prog.lift (lookupHandler handlers f.taskType) with
        | none => do
          let encoded ← Prog.lift (Envelope.encode py f.envelope)
          unregistered encoded
        | some t => task t f) =
      match verdict py handlers body with
      | .undecodable => undecodable
      | .broken e => .raise e
      | .unregistered encoded => unregistered encoded
      | .task t f => task t f := by
  unfold verdict
  cases py.jsonLoads body with
  | none => rfl
  | some decoded =>
    simp only
    cases Envelope.read py decoded with
    | error e => rfl
    | ok f =>
      simp only [Prog.lift_ok, Prog.ret_bind]
      cases lookupHandler handlers f.taskType with
      | error e => rfl
      | ok found =>
        cases found with
        | some t => rfl
        | none =>
          simp only [Prog.lift_ok, Prog.ret_bind]
          cases Envelope.encode py f.envelope <;> rfl

/-- The failure part of either handler, by what the exception comes to; `retried` is told whether
the broker took the copy. -/
theorem retry_eq_failed (f : Envelope.Fields) (payload : PyVal) (exc : PyExc)
    (exhausted : Bytes → QueueProg Unit) (retried : Bool → QueueProg Unit) :
    (if q.maxRetries ≤ f.attempts + 1 then
        match exc.repr with
        | none => .raise .reprError
        | some error => do
          let encoded ← Prog.lift
            (Envelope.encode py (PyDict.set (failedEnvelope f payload) (str "error") (.str error)))
          exhausted encoded
      else do
        let ok ← Channel.republish py q (failedEnvelope f payload) (f.attempts + 1)
        retried ok) =
      match failed py q f payload exc with
      | .escapes e => .raise e
      | .exhausted encoded => exhausted encoded
      | .retry encoded attempts =>
        .op (.basicPublish (Channel.message q.exchange q.routingKey encoded (some attempts) none))
          retried
      | .unsendable => retried false := by
  unfold failed
  rw [Channel.republish_eq]
  split
  · cases exc.repr with
    | none => rfl
    | some error =>
      simp only
      cases Envelope.encode py _ <;> rfl
  · cases Envelope.encode py _ <;> rfl

theorem Worker.handleDelivery_eq :
    Worker.handleDelivery py q handlers tag body = delivery true py q handlers tag body := by
  apply (read_eq_verdict py handlers body _ _ _).trans
  unfold delivery
  cases verdict py handlers body with
  | task t f =>
    simp only
    congr 1
    funext out
    unfold onOutcome
    cases out.result with
    | ok _ =>
      simp only [Channel.safeAck_eq]
      rfl
    | error exc =>
      simp only
      split
      · rfl
      · refine (congrArg (fun p => Worker.inc .failed >>= fun _ => p)
          (retry_eq_failed py q f out.payload exc _ _)).trans ?_
        cases failed py q f out.payload exc <;>
          simp only [Channel.toDlq_eq, Channel.safeAck_eq, Channel.safeNack_eq] <;> rfl
  | broken e => rfl
  | _ =>
    simp only [Channel.toDlq_eq, Channel.safeAck_eq, Channel.safeNack_eq]
    rfl

theorem RabbitMQTaskQueue.handleDelivery_eq :
    RabbitMQTaskQueue.handleDelivery py q handlers tag body = delivery false py q handlers tag body := by
  apply (read_eq_verdict py handlers body _ _ _).trans
  unfold delivery
  cases verdict py handlers body with
  | task t f =>
    simp only
    congr 1
    funext out
    unfold onOutcome
    cases out.result with
    | ok _ =>
      simp only [Channel.safeAck_eq]
      rfl
    | error exc =>
      simp only
      split
      · rfl
      · apply (retry_eq_failed py q f out.payload exc _ _).trans
        cases failed py q f out.payload exc <;>
          simp only [Channel.toDlq_eq, Channel.safeAck_eq, Channel.safeNack_eq] <;> rfl
  | broken e => rfl
  | _ =>
    simp only [Channel.toDlq_eq, Channel.safeAck_eq, Channel.safeNack_eq]
    rfl

end Refinement

inductive Consumer where
  | worker
  | taskQueue
  deriving DecidableEq

namespace Consumer

def handleDelivery (c : Consumer) (py : Stdlib) (q : QueueConfig) (handlers : Registry)
    (tag : Nat) (body : Bytes) : QueueProg Unit :=
  match c with
  | .worker => Worker.handleDelivery py q handlers tag body
  | .taskQueue => RabbitMQTaskQueue.handleDelivery py q handlers tag body

/-- Only the worker counts. -/
def metrics : Consumer → Bool
  | .worker => true
  | .taskQueue => false

theorem handleDelivery_eq (c : Consumer) (py : Stdlib) (q : QueueConfig) (handlers : Registry)
    (tag : Nat) (body : Bytes) :
    c.handleDelivery py q handlers tag body = delivery c.metrics py q handlers tag body := by
  cases c with
  | worker => exact Worker.handleDelivery_eq py q handlers tag body
  | taskQueue => exact RabbitMQTaskQueue.handleDelivery_eq py q handlers tag body

end Consumer

/-- The worker's counters, which neither answer anything nor raise. -/
def QueueOp.counting : (o : QueueOp) → Option o.Ans
  | .inc _ => some ()
  | _ => none

theorem QueueOp.counting_only {o : QueueOp} {a : o.Ans} (h : o.counting = some a) (b : o.Ans) :
    b = a := by
  cases o with
  | inc c => rfl
  | _ => cases h

section SamePolicy

variable {py : Stdlib} {q : QueueConfig} {handlers : Registry} {tag : Nat}

theorem erase_count (metrics : Bool) (c : Counter) :
    (count metrics c).erase QueueOp.counting = .ret () := by
  cases metrics <;> rfl

theorem erase_count_bind (metrics : Bool) (c : Counter) (p : QueueProg Unit) :
    (count metrics c >>= fun _ => p).erase QueueOp.counting = p.erase QueueOp.counting := by
  cases metrics <;> rfl

theorem erase_settle (metrics requeue ok : Bool) (c : Counter) :
    (settle metrics tag requeue ok c).erase QueueOp.counting = settle false tag requeue ok c := by
  cases ok with
  | true =>
    apply (Prog.erase_op_kept rfl _).trans
    congr 1
    funext _
    exact erase_count metrics c
  | false => rfl

theorem erase_park (metrics : Bool) (body : Bytes) (reason : String) :
    (park metrics q tag body reason).erase QueueOp.counting = park false q tag body reason := by
  apply (Prog.erase_op_kept rfl _).trans
  congr 1
  funext ok
  exact erase_settle metrics false ok .deadLettered

theorem erase_onFailure (metrics : Bool) (failure : Failure) :
    (onFailure metrics q tag failure).erase QueueOp.counting = onFailure false q tag failure := by
  cases failure with
  | escapes e => rfl
  | exhausted body => exact erase_park metrics body "max-retries"
  | retry body attempts =>
    apply (Prog.erase_op_kept rfl _).trans
    congr 1
    funext ok
    exact erase_settle metrics true ok .retried
  | unsendable => exact erase_settle metrics true false .retried

theorem erase_onOutcome (metrics : Bool) (f : Envelope.Fields) (out : HandlerOutcome) :
    (onOutcome metrics py q tag f out).erase QueueOp.counting = onOutcome false py q tag f out := by
  unfold onOutcome
  cases out.result with
  | ok _ => exact erase_settle metrics false true .processed
  | error exc =>
    simp only
    split
    · rfl
    · rw [erase_count_bind, erase_onFailure]
      rfl

theorem erase_delivery (metrics : Bool) (body : Bytes) :
    (delivery metrics py q handlers tag body).erase QueueOp.counting =
      delivery false py q handlers tag body := by
  unfold delivery
  cases verdict py handlers body with
  | undecodable => exact erase_park metrics body "decode-error"
  | broken e => rfl
  | unregistered encoded => exact erase_park metrics encoded "no-handler"
  | task t f =>
    apply (Prog.erase_op_kept rfl _).trans
    congr 1
    funext out
    exact erase_onOutcome metrics f out

/-- The two consumers have one delivery policy: the same broker operations in the same order,
with the same arguments and answers, and the same way of ending. -/
theorem handleDelivery_same_policy (py : Stdlib) (q : QueueConfig) (handlers : Registry)
    (tag : Nat) (body : Bytes) :
    (Worker.handleDelivery py q handlers tag body).erase QueueOp.counting =
        RabbitMQTaskQueue.handleDelivery py q handlers tag body ∧
      ∀ (tr : List QueueSig.Event) (r : Except PyExc Unit),
        (RabbitMQTaskQueue.handleDelivery py q handlers tag body).Runs tr r ↔
          ∃ whole, (Worker.handleDelivery py q handlers tag body).Runs whole r ∧
            tr = Prog.kept QueueOp.counting whole := by
  have same : (Worker.handleDelivery py q handlers tag body).erase QueueOp.counting =
      RabbitMQTaskQueue.handleDelivery py q handlers tag body := by
    rw [Worker.handleDelivery_eq, RabbitMQTaskQueue.handleDelivery_eq, erase_delivery]
  refine ⟨same, ?_⟩
  intro tr r
  rw [← same]
  exact Prog.runs_erase_iff fun _ _ h => QueueOp.counting_only h

end SamePolicy

end VirtualPerson
