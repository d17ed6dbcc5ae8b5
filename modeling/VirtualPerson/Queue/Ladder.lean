import VirtualPerson.Retry
import VirtualPerson.Python.Best
import VirtualPerson.Queue.Broker

/-!
# The retry ladder

One message and one consumer, over a broker that takes every publish, ack and nack.
The message is delivered again and again until the work queue is empty. A delivery that
an escaping exception leaves unsettled goes back to the head of the queue.
-/

namespace VirtualPerson

set_option autoImplicit false

open Policy

/-- What `enqueue` puts into an envelope, its counter aside. -/
structure Task where
  id : PyStr
  enqueuedAt : PyStr
  taskType : PyStr
  payload : PyVal

def Task.envelope (t : Task) (attempts : Int) : PyDict :=
  PyDict.set (Envelope.new t.id t.enqueuedAt t.taskType t.payload) (str "attempts") (.int attempts)

/-- The envelope of the dead letter. -/
def Task.deadEnvelope (t : Task) (attempts : Int) (error : PyStr) : PyDict :=
  PyDict.set (t.envelope attempts) (str "error") (.str error)

structure Ladder where
  work : List Publish
  dlq : List Publish
  /-- The delivery in hand; its tag is `delivered`. -/
  unacked : Option Publish
  delivered : Nat
  /-- How often the handler ran. -/
  ran : Nat

namespace Ladder

def start (q : QueueConfig) (body : Bytes) : Ladder :=
  { work := [Channel.message q.exchange q.routingKey body (some 0) none]
    dlq := []
    unacked := none
    delivered := 0
    ran := 0 }

/-- The DLX feeds the DLQ, the task exchange the work queue. -/
def publish (q : QueueConfig) (s : Ladder) (m : Publish) : Ladder :=
  if m.exchange = q.dlx then { s with dlq := s.dlq ++ [m] } else { s with work := s.work ++ [m] }

/-- An unsettled delivery goes back to the work queue. -/
def giveBack (s : Ladder) : Ladder :=
  { s with work := s.unacked.toList ++ s.work, unacked := none }

def reject (s : Ladder) : Ladder :=
  { s with dlq := s.dlq ++ s.unacked.toList, unacked := none }

/-- Run number `i` of the handler ends with `outcome i` and leaves the payload as it is. -/
def serve (q : QueueConfig) (outcome : Nat → Except PyExc Unit) : (o : QueueOp) → Ladder → o.Ans × Ladder
  | .ensureChannel, s => (true, s)
  | .basicPublish m, s => (true, s.publish q m)
  | .basicAck tag, s => (true, if tag = s.delivered then { s with unacked := none } else s)
  | .basicNack tag requeue, s =>
    (true, if tag = s.delivered then if requeue then s.giveBack else s.reject else s)
  | .handle _ payload, s => ({ payload, result := outcome s.ran }, { s with ran := s.ran + 1 })
  | .inc _, s => ((), s)

/-- The broker delivers the first message of the work queue. -/
def deliver (c : Consumer) (py : Stdlib) (q : QueueConfig) (handlers : Registry)
    (outcome : Nat → Except PyExc Unit) (s : Ladder) : Ladder :=
  match s.work with
  | [] => s
  | m :: rest =>
    let tag := s.delivered + 1
    ((c.handleDelivery py q handlers tag m.body).exec (serve q outcome)
      { s with work := rest, unacked := some m, delivered := tag }).2.giveBack

end Ladder

/-- The tries that a counter `a` leaves. -/
def QueueConfig.triesLeft (q : QueueConfig) (a : Int) : Nat := (max 1 (q.maxRetries - a)).toNat

/-- Run number `k`, counted from one, is the first that succeeds. -/
def FirstSuccess (outcome : Nat → Except PyExc Unit) (k : Nat) : Prop :=
  ∃ j, k = j + 1 ∧ outcome j = .ok () ∧ ∀ i < j, outcome i ≠ .ok ()

structure DeadLetter (py : Stdlib) (t : Task) (attempts : Int) (m : Publish) : Prop where
  reason : m.headers = some [(str "x-dlq-reason", .str (str "max-retries"))]
  body : ∃ es, py.jsonLoads m.body = some (.dict es) ∧
    PyDict.get? es (str "attempts") = some (.int attempts) ∧
    (∃ error, PyDict.get? es (str "error") = some (.str error)) ∧
    ∀ k ∈ [str "id", str "type", str "payload", str "enqueued_at"],
      PyDict.get? es k = PyDict.get? (t.envelope attempts) k

/-- The task is done with, after as many runs and with the dead letter that its first success and
its counter ask for. -/
structure Ladder.Settles (py : Stdlib) (q : QueueConfig) (t : Task) (outcome : Nat → Except PyExc Unit)
    (a : Int) (s : Ladder) : Prop where
  work : s.work = []
  success : ∀ k, FirstSuccess outcome k → k ≤ q.triesLeft a → s.ran = k ∧ s.dlq = []
  failure : (∀ k, FirstSuccess outcome k → q.triesLeft a < k) →
    s.ran = q.triesLeft a ∧ ∃ m, s.dlq = [m] ∧ DeadLetter py t (max q.maxRetries (a + 1)) m

def Stdlib.encodes (py : Stdlib) (envelope : PyDict) : Bool := (py.jsonDumps (.dict envelope)).isSome

/-- Whether `json.dumps` takes a dict depends on its entries, not on their order. -/
def Stdlib.Extensional (py : Stdlib) : Prop :=
  ∀ es es', (∀ k, PyDict.get? es k = PyDict.get? es' k) → py.encodes es = py.encodes es'

/-- A handler exception that the consumer can pass on: caught, and with an envelope that can be
written for the retry or, with its `repr`, for the DLQ. `c` counts the retries before. -/
def sendable (py : Stdlib) (q : QueueConfig) (t : Task) (a : Int) (exc : PyExc) (c : Nat) : Bool :=
  exc.isException &&
    if c + 1 < q.triesLeft a then py.encodes (t.envelope (a + c + 1))
    else exc.repr.any fun error => py.encodes (t.deadEnvelope (a + c + 1) error)

def tried (py : Stdlib) (q : QueueConfig) (t : Task) (a : Int) (outcome : Nat → Except PyExc Unit)
    (n c : Nat) : Retry.Try :=
  match outcome n with
  | .ok _ => .success
  | .error exc => if sendable py q t a exc c then .advance else .stall

/-- The body holds the task's envelope with the given counter. -/
def Task.Written (t : Task) (py : Stdlib) (attempts : Int) (body : Bytes) : Prop :=
  ∃ es, py.jsonLoads body = some (.dict es) ∧
    ∀ k, PyDict.get? es k = PyDict.get? (t.envelope attempts) k

namespace Ladder

section Deliver

variable {py : Stdlib} {q : QueueConfig} {t : Task} {handlers : Registry} {a x : Int}
  {outcome : Nat → Except PyExc Unit} {body : Bytes}

theorem get?_set_congr {es es' : PyDict} (h : ∀ k, PyDict.get? es k = PyDict.get? es' k) (k : PyStr)
    (v : PyVal) : ∀ k', PyDict.get? (PyDict.set es k v) k' = PyDict.get? (PyDict.set es' k v) k' := by
  intro k'
  by_cases hk : k = k'
  · subst hk
    rw [PyDict.get?_set_self, PyDict.get?_set_self]
  · rw [PyDict.get?_set_ne _ _ hk, PyDict.get?_set_ne _ _ hk, h]

theorem get?_afterHandler {es : PyDict} {v : PyVal} (h : PyDict.get? es (str "payload") = some v) :
    ∀ k, PyDict.get? (Envelope.afterHandler es v) k = PyDict.get? es k := by
  intro k
  have hset : PyDict.get? (PyDict.set es (str "payload") v) k = PyDict.get? es k := by
    by_cases hk : str "payload" = k
    · subst hk
      rw [PyDict.get?_set_self, h]
    · exact PyDict.get?_set_ne _ _ hk
  unfold Envelope.afterHandler
  split
  · exact hset
  · exact hset
  · rfl

theorem get?_attempts (t : Task) (x : Int) :
    PyDict.get? (t.envelope x) (str "attempts") = some (.int x) := PyDict.get?_set_self _ _ _

theorem get?_envelope_ne (t : Task) (x : Int) {k : PyStr} (hk : str "attempts" ≠ k) :
    PyDict.get? (t.envelope x) k = PyDict.get? (Envelope.new t.id t.enqueuedAt t.taskType t.payload) k :=
  PyDict.get?_set_ne _ _ hk

/-- Writing the next counter over a task's fields gives the fields of its next envelope. -/
theorem get?_next {es : PyDict} (h : ∀ k, PyDict.get? es k = PyDict.get? (t.envelope x) k) (y : Int) :
    ∀ k, PyDict.get? (PyDict.set es (str "attempts") (.int y)) k = PyDict.get? (t.envelope y) k := by
  intro k
  by_cases hk : str "attempts" = k
  · subst hk
    rw [PyDict.get?_set_self, get?_attempts]
  · rw [PyDict.get?_set_ne _ _ hk, h, get?_envelope_ne t x hk, get?_envelope_ne t y hk]

theorem orElse_orElse (v d : PyVal) : (v.orElse d).orElse d = v.orElse d := by
  unfold PyVal.orElse
  split
  · rfl
  · exact ite_self d

theorem toInt_orElse (intOfStr : PyStr → Option Int) (x : Int) :
    ((PyVal.int x).orElse (.int 0)).toInt intOfStr = .ok x := by
  unfold PyVal.orElse
  split
  · rfl
  · rename_i h
    obtain rfl : x = 0 := by simpa [PyVal.truthy] using h
    rfl

theorem written_of_encode (hpy : py.RoundTrips) (h : Envelope.encode py (t.envelope a) = .ok body) :
    t.Written py a body := by
  unfold Envelope.encode at h
  cases hdump : py.jsonDumps (.dict (t.envelope a)) with
  | none =>
    rw [hdump] at h
    cases h
  | some body' =>
    rw [hdump] at h
    cases h
    exact hpy _ _ hdump

theorem verdict_written (hreg : handlers t.taskType = true) (h : t.Written py x body) :
    ∃ f : Envelope.Fields, verdict py handlers body = .task t.taskType f ∧ f.attempts = x ∧
      PyDict.get? f.envelope (str "payload") = some f.payload ∧
      ∀ k, PyDict.get? f.envelope k = PyDict.get? (t.envelope x) k := by
  obtain ⟨es, hload, hget⟩ := h
  have hattempts : PyDict.get? es (str "attempts") = some (.int x) := by rw [hget, get?_attempts]
  have htype : PyDict.get? es (str "type") = some (.str t.taskType) := by
    rw [hget, get?_envelope_ne t x (by decide)]
    rfl
  have hpayload : PyDict.get? es (str "payload") = some (t.payload.orElse (.dict [])) := by
    rw [hget, get?_envelope_ne t x (by decide)]
    rfl
  have hread : Envelope.read py (.dict es) = .ok ⟨es, .str t.taskType, t.payload.orElse (.dict []), x⟩ := by
    simp only [Envelope.read, PyDict.getD, hattempts, htype, hpayload, Option.getD_some, orElse_orElse,
      toInt_orElse]
    rfl
  refine ⟨⟨es, .str t.taskType, t.payload.orElse (.dict []), x⟩, ?_, rfl, hpayload, hget⟩
  simp only [verdict, hload, hread, lookupHandler, hreg, if_true]

variable {s : Ladder} {metrics : Bool}

theorem exec_count_bind (counter : Counter) (p : QueueProg Unit) :
    (do count metrics counter; p).exec (serve q outcome) s = p.exec (serve q outcome) s := by
  cases metrics <;> rfl

theorem exec_count (counter : Counter) :
    ((count metrics counter).exec (serve q outcome) s).2 = s := by
  cases metrics <;> rfl

theorem exec_ack (requeue : Bool) (counter : Counter) :
    ((settle metrics s.delivered requeue true counter).exec (serve q outcome) s).2 =
      { s with unacked := none } := by
  refine (exec_count counter).trans ?_
  exact if_pos rfl

theorem exec_requeue (counter : Counter) :
    ((settle metrics s.delivered true false counter).exec (serve q outcome) s).2 = s.giveBack :=
  if_pos rfl

section Failed

variable {f : Envelope.Fields} (exc : PyExc)

theorem encode_eq_ok {es : PyDict} (h : py.encodes es = true) :
    ∃ body, py.jsonDumps (.dict es) = some body ∧ Envelope.encode py es = .ok body := by
  obtain ⟨body, hdump⟩ := Option.isSome_iff_exists.mp h
  exact ⟨body, hdump, by simp [Envelope.encode, hdump]⟩

theorem encode_eq_error {es : PyDict} (h : py.encodes es = false) :
    Envelope.encode py es = .error .encodeError := by
  have hdump : py.jsonDumps (.dict es) = none := by simpa [Stdlib.encodes] using h
  simp [Envelope.encode, hdump]

theorem get?_failedEnvelope (hx : f.attempts = x)
    (hpayload : PyDict.get? f.envelope (str "payload") = some f.payload)
    (hget : ∀ k, PyDict.get? f.envelope k = PyDict.get? (t.envelope x) k) :
    ∀ k, PyDict.get? (failedEnvelope f f.payload) k = PyDict.get? (t.envelope (x + 1)) k := by
  have hafter : ∀ k, PyDict.get? (Envelope.afterHandler f.envelope f.payload) k =
      PyDict.get? (t.envelope x) k := fun k => (get?_afterHandler hpayload k).trans (hget k)
  intro k
  rw [failedEnvelope, hx]
  exact get?_next hafter (x + 1) k

/-- Below the limit the next envelope goes to the work queue if it can be written. -/
theorem failed_below (hpy : py.RoundTrips) (hext : py.Extensional) (hx : f.attempts = x)
    (hget : ∀ k, PyDict.get? (failedEnvelope f f.payload) k = PyDict.get? (t.envelope (x + 1)) k)
    (hlt : x + 1 < q.maxRetries) :
    (py.encodes (t.envelope (x + 1)) = true ∧
      ∃ body', failed py q f f.payload exc = .retry body' (x + 1) ∧ t.Written py (x + 1) body') ∨
    (py.encodes (t.envelope (x + 1)) = false ∧ failed py q f f.payload exc = .unsendable) := by
  have hbelow : ¬ q.maxRetries ≤ f.attempts + 1 := by omega
  rw [← hext _ _ hget, failed, if_neg hbelow]
  cases hdumps : py.encodes (failedEnvelope f f.payload) with
  | true =>
    obtain ⟨body', hdump, henc⟩ := encode_eq_ok hdumps
    obtain ⟨es, hload, hes⟩ := hpy _ _ hdump
    refine .inl ⟨rfl, body', ?_, es, hload, fun k => (hes k).trans (hget k)⟩
    rw [henc, hx]
  | false =>
    refine .inr ⟨rfl, ?_⟩
    rw [encode_eq_error hdumps]

/-- At the limit the envelope goes to the DLQ if the exception has a `repr` and both can be
written. -/
theorem failed_limit (hpy : py.RoundTrips) (hext : py.Extensional) (hx : f.attempts = x)
    (hget : ∀ k, PyDict.get? (failedEnvelope f f.payload) k = PyDict.get? (t.envelope (x + 1)) k)
    (hlast : q.maxRetries ≤ x + 1) :
    ((exc.repr.any fun error => py.encodes (t.deadEnvelope (x + 1) error)) = true ∧
      ∃ body' es error, failed py q f f.payload exc = .exhausted body' ∧
        py.jsonLoads body' = some (.dict es) ∧
        ∀ k, PyDict.get? es k = PyDict.get? (t.deadEnvelope (x + 1) error) k) ∨
    ((exc.repr.any fun error => py.encodes (t.deadEnvelope (x + 1) error)) = false ∧
      ∃ e, failed py q f f.payload exc = .escapes e) := by
  have hlimit : q.maxRetries ≤ f.attempts + 1 := by omega
  rw [failed, if_pos hlimit]
  cases exc.repr with
  | none => exact .inr ⟨rfl, _, rfl⟩
  | some error =>
    have hget' := get?_set_congr hget (str "error") (.str error)
    dsimp only
    rw [Option.any_some, Task.deadEnvelope, ← hext _ _ hget']
    cases hdumps : py.encodes (PyDict.set (failedEnvelope f f.payload) (str "error") (.str error)) with
    | true =>
      obtain ⟨body', hdump, henc⟩ := encode_eq_ok hdumps
      obtain ⟨es, hload, hes⟩ := hpy _ _ hdump
      refine .inl ⟨rfl, body', es, error, ?_, hload, fun k => (hes k).trans (hget' k)⟩
      rw [henc]
    | false =>
      refine .inr ⟨rfl, .encodeError, ?_⟩
      rw [encode_eq_error hdumps]

end Failed

theorem exec_delivery {f : Envelope.Fields} {tag : Nat}
    (hv : verdict py handlers body = .task t.taskType f) :
    ((delivery metrics py q handlers tag body).exec (serve q outcome) s).2 =
      ((onOutcome metrics py q tag f ⟨f.payload, outcome s.ran⟩).exec (serve q outcome)
        { s with ran := s.ran + 1 }).2 := by
  rw [delivery, hv]
  rfl

/-- Where the message is on a rung of the ladder, after `n` deliveries. -/
def On (py : Stdlib) (q : QueueConfig) (t : Task) (a : Int) (n : Nat) (s : Ladder) : Retry.Rung → Prop
  | .climbing c => (∃ m, s.work = [m] ∧ t.Written py (a + c) m.body) ∧ s.dlq = [] ∧ s.ran = n
  | .succeeded r => s.work = [] ∧ s.dlq = [] ∧ s.ran = r
  | .exhausted r =>
    s.work = [] ∧ s.ran = r ∧ ∃ m, s.dlq = [m] ∧ DeadLetter py t (max q.maxRetries (a + 1)) m

theorem succ_lt_triesLeft {c : Nat} : c + 1 < q.triesLeft a ↔ a + c + 1 < q.maxRetries := by
  unfold QueueConfig.triesLeft
  omega

theorem triesLeft_pos : 0 < q.triesLeft a := by
  unfold QueueConfig.triesLeft
  omega

theorem next_tried_ok {n c : Nat} {u : Unit} (h : outcome n = .ok u) :
    (Retry.Rung.climbing c).next (q.triesLeft a) n (tried py q t a outcome n) = .succeeded (n + 1) := by
  rw [Retry.Rung.next, tried, h]

theorem next_tried_error {n c : Nat} {exc : PyExc} (h : outcome n = .error exc) :
    (Retry.Rung.climbing c).next (q.triesLeft a) n (tried py q t a outcome n) =
      if sendable py q t a exc c then
        if c + 1 < q.triesLeft a then .climbing (c + 1) else .exhausted (n + 1)
      else .climbing c := by
  have htry : tried py q t a outcome n c = if sendable py q t a exc c then .advance else .stall := by
    rw [tried, h]
  rw [Retry.Rung.next, htry]
  cases sendable py q t a exc c with
  | true => rfl
  | false => rfl

/-- The delivery `m` is all that is left, and its handler has run for the `n`-th time. -/
structure InHand (s : Ladder) (m : Publish) (n : Nat) : Prop where
  work : s.work = []
  dlq : s.dlq = []
  unacked : s.unacked = some m
  ran : s.ran = n

theorem on_success {m : Publish} {n : Nat} {u : Unit} {f : Envelope.Fields} (h : InHand s m (n + 1)) :
    On py q t a (n + 1)
      ((onOutcome metrics py q s.delivered f ⟨f.payload, .ok u⟩).exec (serve q outcome) s).2.giveBack
      (.succeeded (n + 1)) := by
  have hack : ((onOutcome metrics py q s.delivered f ⟨f.payload, .ok u⟩).exec (serve q outcome) s).2 =
      { s with unacked := none } := exec_ack false .processed
  rw [hack]
  exact ⟨h.work, h.dlq, h.ran⟩

/-- An exception that escapes, or a copy that cannot be written, leaves the message to be delivered
once more. -/
theorem on_stall {m : Publish} {n c : Nat} (hm : t.Written py (a + c) m.body) (h : InHand s m (n + 1)) :
    On py q t a (n + 1) s.giveBack (.climbing c) := by
  refine ⟨⟨m, ?_, hm⟩, h.dlq, h.ran⟩
  rw [giveBack, h.work, h.unacked]
  rfl

theorem giveBack_giveBack (s : Ladder) : s.giveBack.giveBack = s.giveBack := rfl

theorem exec_publish {m : Publish} (requeue : Bool) (counter : Counter) :
    ((.op (.basicPublish m) fun ok => settle metrics s.delivered requeue ok counter :
      QueueProg Unit).exec (serve q outcome) s).2 = { s.publish q m with unacked := none } := by
  have hdelivered : (s.publish q m).delivered = s.delivered := by
    unfold publish
    split <;> rfl
  rw [Prog.exec_op, ← hdelivered]
  exact exec_ack requeue counter

theorem on_retry {m : Publish} {n c : Nat} (hexchange : q.exchange ≠ q.dlx)
    (hbody : t.Written py (a + c + 1) body) (h : InHand s m (n + 1)) :
    On py q t a (n + 1)
      ((onFailure metrics q s.delivered (.retry body x)).exec (serve q outcome) s).2.giveBack
      (.climbing (c + 1)) := by
  let copy := Channel.message q.exchange q.routingKey body (some x) none
  have hpublish : ((onFailure metrics q s.delivered (.retry body x)).exec (serve q outcome) s).2 =
      { s.publish q copy with unacked := none } := exec_publish true .retried
  have hroute : s.publish q copy = { s with work := s.work ++ [copy] } := if_neg hexchange
  rw [hpublish, hroute]
  refine ⟨⟨copy, ?_, ?_⟩, h.dlq, h.ran⟩
  · simp [giveBack, h.work]
  · rw [Int.natCast_add, ← Int.add_assoc]
    exact hbody

theorem on_exhausted {m : Publish} {n c : Nat} {es : PyDict} {error : PyStr} (hlt : c < q.triesLeft a)
    (hlast : q.maxRetries ≤ a + c + 1) (hload : py.jsonLoads body = some (.dict es))
    (hes : ∀ k, PyDict.get? es k = PyDict.get? (t.deadEnvelope (a + c + 1) error) k)
    (h : InHand s m (n + 1)) :
    On py q t a (n + 1)
      ((onFailure metrics q s.delivered (.exhausted body)).exec (serve q outcome) s).2.giveBack
      (.exhausted (n + 1)) := by
  let dead := Channel.message q.dlx [] body none (some (str "max-retries"))
  have hpublish : ((onFailure metrics q s.delivered (.exhausted body)).exec (serve q outcome) s).2 =
      { s.publish q dead with unacked := none } := exec_publish false .deadLettered
  have hroute : s.publish q dead = { s with dlq := s.dlq ++ [dead] } := if_pos rfl
  have hattempts : a + c + 1 = max q.maxRetries (a + 1) := by
    unfold QueueConfig.triesLeft at hlt
    omega
  rw [hpublish, hroute]
  refine ⟨h.work, h.ran, dead, by simp [giveBack, h.dlq], rfl, es, hload, ?_, ⟨error, ?_⟩, ?_⟩
  · rw [hes, Task.deadEnvelope, PyDict.get?_set_ne _ _ (by decide), get?_attempts, hattempts]
  · rw [hes, Task.deadEnvelope, PyDict.get?_set_self]
  · intro k hk
    have hne : str "error" ≠ k ∧ str "attempts" ≠ k := by
      simp only [List.mem_cons, List.not_mem_nil, or_false] at hk
      rcases hk with rfl | rfl | rfl | rfl <;> decide
    rw [hes, Task.deadEnvelope, PyDict.get?_set_ne _ _ hne.1, hattempts]

theorem on_failure {f : Envelope.Fields} {m : Publish} {exc : PyExc} {n c : Nat} (hpy : py.RoundTrips)
    (hext : py.Extensional) (hexchange : q.exchange ≠ q.dlx) (hm : t.Written py (a + c) m.body)
    (hf : f.attempts = a + c) (hlt : c < q.triesLeft a) (hexc : exc.isException = true)
    (hget : ∀ k, PyDict.get? (failedEnvelope f f.payload) k = PyDict.get? (t.envelope (a + c + 1)) k)
    (h : InHand s m (n + 1)) :
    On py q t a (n + 1)
      ((onFailure metrics q s.delivered (failed py q f f.payload exc)).exec (serve q outcome) s).2.giveBack
      (if sendable py q t a exc c then
        if c + 1 < q.triesLeft a then .climbing (c + 1) else .exhausted (n + 1)
      else .climbing c) := by
  by_cases hbelow : c + 1 < q.triesLeft a
  · rcases failed_below exc hpy hext hf hget (succ_lt_triesLeft.mp hbelow) with
      ⟨hdumps, body', hfailed, hbody'⟩ | ⟨hdumps, hfailed⟩
    · have hsend : sendable py q t a exc c = true := by simp [sendable, hexc, hbelow, hdumps]
      rw [hsend, if_pos rfl, if_pos hbelow, hfailed]
      exact on_retry hexchange hbody' h
    · have hsend : sendable py q t a exc c = false := by simp [sendable, hbelow, hdumps]
      rw [hsend, if_neg Bool.false_ne_true, hfailed]
      have hnack : ((onFailure metrics q s.delivered .unsendable).exec (serve q outcome) s).2 = s.giveBack :=
        exec_requeue .retried
      rw [hnack, giveBack_giveBack]
      exact on_stall hm h
  · have hlast : q.maxRetries ≤ a + c + 1 := by
      have := mt succ_lt_triesLeft.mpr hbelow
      omega
    rcases failed_limit exc hpy hext hf hget hlast with
      ⟨hdumps, body', es, error, hfailed, hload, hes⟩ | ⟨hdumps, e, hfailed⟩
    · have hsend : sendable py q t a exc c = true := by simp [sendable, hexc, hbelow, hdumps]
      rw [hsend, if_pos rfl, if_neg hbelow, hfailed]
      exact on_exhausted hlt hlast hload hes h
    · have hsend : sendable py q t a exc c = false := by simp [sendable, hbelow, hdumps]
      rw [hsend, if_neg Bool.false_ne_true, hfailed]
      exact on_stall hm h

theorem on_deliver {c : Consumer} {count n : Nat} (hpy : py.RoundTrips) (hext : py.Extensional)
    (hexchange : q.exchange ≠ q.dlx) (hreg : handlers t.taskType = true) (hlt : count < q.triesLeft a)
    (h : On py q t a n s (.climbing count)) :
    On py q t a (n + 1) (deliver c py q handlers outcome s)
      ((Retry.Rung.climbing count).next (q.triesLeft a) n (tried py q t a outcome n)) := by
  obtain ⟨⟨m, hwork, hm⟩, hdlq, rfl⟩ := h
  obtain ⟨f, hverdict, hattempts, hpayload, hget⟩ := verdict_written hreg hm
  have hnext := get?_failedEnvelope hattempts hpayload hget
  let hand : Ladder :=
    { s with work := [], unacked := some m, delivered := s.delivered + 1, ran := s.ran + 1 }
  have hhand : InHand hand m (s.ran + 1) := ⟨rfl, hdlq, rfl, rfl⟩
  rw [deliver, hwork]
  dsimp only
  rw [Consumer.handleDelivery_eq, exec_delivery hverdict]
  cases houtcome : outcome s.ran with
  | ok u =>
    rw [next_tried_ok houtcome]
    exact on_success hhand
  | error exc =>
    rw [next_tried_error houtcome]
    cases hexc : exc.isException with
    | false =>
      have hsend : sendable py q t a exc count = false := by simp [sendable, hexc]
      simp only [onOutcome, hexc, hsend, if_true, if_neg Bool.false_ne_true]
      exact on_stall hm hhand
    | true =>
      simp only [onOutcome, hexc, Bool.true_eq_false, if_false]
      rw [exec_count_bind]
      exact on_failure (s := hand) hpy hext hexchange hm hattempts hlt hexc hnext hhand

/-- The message is where the counted tries say, after any number of deliveries. -/
theorem on_after {c : Consumer} (hpy : py.RoundTrips) (hext : py.Extensional)
    (hexchange : q.exchange ≠ q.dlx) (hreg : handlers t.taskType = true)
    (hbody : t.Written py a body) (n : Nat) :
    On py q t a n ((deliver c py q handlers outcome)^[n] (start q body))
      (Retry.after (tried py q t a outcome) (q.triesLeft a) n) := by
  induction n with
  | zero =>
    refine ⟨⟨_, rfl, ?_⟩, rfl, rfl⟩
    rw [Int.natCast_zero, Int.add_zero]
    exact hbody
  | succ n ih =>
    rw [Function.iterate_succ_apply', Retry.after]
    cases hrung : Retry.after (tried py q t a outcome) (q.triesLeft a) n with
    | climbing count =>
      rw [hrung] at ih
      exact on_deliver hpy hext hexchange hreg (Retry.climbing_bounds triesLeft_pos hrung).2 ih
    | succeeded r =>
      rw [hrung] at ih
      rw [deliver, ih.1]
      exact ih
    | exhausted r =>
      rw [hrung] at ih
      rw [deliver, ih.1]
      exact ih

theorem tried_success {n c : Nat} (h : tried py q t a outcome n c = .success) : outcome n = .ok () := by
  unfold tried at h
  cases houtcome : outcome n with
  | ok u => rfl
  | error exc =>
    rw [houtcome] at h
    dsimp only at h
    split at h <;> cases h

theorem tried_advance_iff {n c : Nat} : tried py q t a outcome n c = .advance ↔
    ∃ exc, outcome n = .error exc ∧ sendable py q t a exc c = true := by
  unfold tried
  cases houtcome : outcome n with
  | ok u => simp
  | error exc => simp

theorem after_of_firstSuccess {k : Nat} (hk : FirstSuccess outcome k) (hle : k ≤ q.triesLeft a) :
    Retry.after (tried py q t a outcome) (q.triesLeft a) k = .succeeded k := by
  obtain ⟨j, rfl, hok, hbefore⟩ := hk
  apply Retry.succeeded_of_first (by omega)
  · intro c
    rw [tried, hok]
  · exact fun i hi c htry => hbefore i hi (tried_success htry)

theorem firstSuccess_unique {k k' : Nat} (hk : FirstSuccess outcome k) (hk' : FirstSuccess outcome k') :
    k = k' := by
  obtain ⟨j, rfl, hok, hbefore⟩ := hk
  obtain ⟨j', rfl, hok', hbefore'⟩ := hk'
  rcases Nat.lt_trichotomy j j' with hlt | rfl | hlt
  · exact absurd hok (hbefore' j hlt)
  · rfl
  · exact absurd hok' (hbefore j' hlt)

end Deliver

/-- The message comes to rest as its first success and its counter ask for, exactly when a run in
time succeeds or every run in time fails with an exception that can be passed on. The exchanges
differ: a broker does not declare one exchange as direct and as fanout. -/
theorem settles_iff {py : Stdlib} {q : QueueConfig} {t : Task} {handlers : Registry} {a : Int}
    {outcome : Nat → Except PyExc Unit} {body : Bytes} (c : Consumer) (hpy : py.RoundTrips)
    (hext : py.Extensional) (hexchange : q.exchange ≠ q.dlx) (hreg : handlers t.taskType = true)
    (hbody : Envelope.encode py (t.envelope a) = .ok body) :
    (∃ n, ((deliver c py q handlers outcome)^[n] (start q body)).Settles py q t outcome a) ↔
      (∃ k, FirstSuccess outcome k ∧ k ≤ q.triesLeft a) ∨
        ∀ i < q.triesLeft a, ∃ exc, outcome i = .error exc ∧ sendable py q t a exc i = true := by
  have hon (n : Nat) : On py q t a n ((deliver c py q handlers outcome)^[n] (start q body))
      (Retry.after (tried py q t a outcome) (q.triesLeft a) n) :=
    on_after hpy hext hexchange hreg (written_of_encode hpy hbody) n
  constructor
  · intro h
    obtain ⟨n, hn⟩ := h
    by_cases hsucc : ∃ k, FirstSuccess outcome k ∧ k ≤ q.triesLeft a
    · exact .inl hsucc
    · right
      have hlate : ∀ k, FirstSuccess outcome k → q.triesLeft a < k :=
        fun k hk => Nat.lt_of_not_le fun hle => hsucc ⟨k, hk, hle⟩
      obtain ⟨hran, m, hdlq, -⟩ := hn.failure hlate
      have hrung := hon n
      have hlimit :
          ∃ n, Retry.after (tried py q t a outcome) (q.triesLeft a) n = .exhausted (q.triesLeft a) := by
        refine ⟨n, ?_⟩
        cases hafter : Retry.after (tried py q t a outcome) (q.triesLeft a) n with
        | climbing count =>
          rw [hafter] at hrung
          obtain ⟨⟨m', hwork, -⟩, -⟩ := hrung
          rw [hn.work] at hwork
          cases hwork
        | succeeded r =>
          rw [hafter] at hrung
          rw [hrung.2.1] at hdlq
          cases hdlq
        | exhausted r =>
          rw [hafter] at hrung
          rw [← hran, hrung.2.1]
      intro i hi
      exact tried_advance_iff.mp ((Retry.exhausted_limit_iff triesLeft_pos).mp hlimit i hi)
  · intro h
    rcases h with ⟨k, hk, hle⟩ | hall
    · have hrung := hon k
      rw [after_of_firstSuccess hk hle] at hrung
      refine ⟨k, hrung.1, ?_, ?_⟩
      · intro k' hk' _
        rw [firstSuccess_unique hk' hk]
        exact ⟨hrung.2.2, hrung.2.1⟩
      · exact fun hlate => absurd hle (Nat.not_le.mpr (hlate k hk))
    · have hadvance : ∀ i < q.triesLeft a, tried py q t a outcome i i = .advance :=
        fun i hi => tried_advance_iff.mpr (hall i hi)
      obtain ⟨n, hafter⟩ := (Retry.exhausted_limit_iff triesLeft_pos).mpr hadvance
      have hrung := hon n
      rw [hafter] at hrung
      refine ⟨n, hrung.1, ?_, fun _ => hrung.2⟩
      rintro k ⟨j, rfl, hok, -⟩ hle
      obtain ⟨exc, hexc, -⟩ := hall j hle
      rw [hok] at hexc
      cases hexc

end Ladder

/-- An envelope with an empty payload, by its fields. -/
structure Record where
  task : PyStr × PyStr × PyStr
  attempts : Int
  error : Option PyStr
  deriving DecidableEq

namespace Record

def keys : List PyStr :=
  [str "id", str "type", str "payload", str "attempts", str "enqueued_at", str "error"]

def dict (r : Record) : PyDict :=
  let t : Task := ⟨r.task.1, r.task.2.2, r.task.2.1, .dict []⟩
  match r.error with
  | none => t.envelope r.attempts
  | some error => t.deadEnvelope r.attempts error

def strAt (es : PyDict) (key : String) : Option PyStr :=
  match PyDict.get? es (str key) with
  | some (.str s) => some s
  | _ => none

def intAt (es : PyDict) (key : String) : Option Int :=
  match PyDict.get? es (str key) with
  | some (.int i) => some i
  | _ => none

def emptyAt (es : PyDict) (key : String) : Bool :=
  match PyDict.get? es (str key) with
  | some (.dict []) => true
  | _ => false

def errorAt (es : PyDict) : Option (Option PyStr) :=
  match PyDict.get? es (str "error") with
  | none => some none
  | some (.str s) => some (some s)
  | _ => none

/-- The fields of a dict that is such an envelope. -/
def of (es : PyDict) : Option Record := do
  let id ← strAt es "id"
  let taskType ← strAt es "type"
  let enqueuedAt ← strAt es "enqueued_at"
  let attempts ← intAt es "attempts"
  let error ← errorAt es
  if emptyAt es "payload" && es.all fun e => keys.contains e.1 then
    some ⟨(id, taskType, enqueuedAt), attempts, error⟩
  else none

theorem strAt_eq {es : PyDict} {key : String} {s : PyStr} (h : strAt es key = some s) :
    PyDict.get? es (str key) = some (.str s) := by
  unfold strAt at h
  split at h <;> cases h
  assumption

theorem intAt_eq {es : PyDict} {key : String} {i : Int} (h : intAt es key = some i) :
    PyDict.get? es (str key) = some (.int i) := by
  unfold intAt at h
  split at h <;> cases h
  assumption

theorem emptyAt_eq {es : PyDict} {key : String} (h : emptyAt es key = true) :
    PyDict.get? es (str key) = some (.dict []) := by
  unfold emptyAt at h
  split at h <;> cases h
  assumption

theorem errorAt_eq {es : PyDict} {error : Option PyStr} (h : errorAt es = some error) :
    PyDict.get? es (str "error") = error.map .str := by
  unfold errorAt at h
  split at h <;> cases h <;> assumption

theorem get?_eq_none {es : PyDict} {k : PyStr} (hes : ∀ e ∈ es, e.1 ∈ keys) (hk : k ∉ keys) :
    PyDict.get? es k = none := by
  rw [PyDict.get?, Assoc.get?, Option.map_eq_none_iff, List.find?_eq_none]
  intro e he heq
  exact hk (eq_of_beq heq ▸ hes e he)

theorem envelope_keys (t : Task) (x : Int) : ∀ e ∈ t.envelope x, e.1 ∈ keys := by
  intro e he
  rcases Assoc.mem_set he with rfl | he
  · simp [keys]
  · simp only [Envelope.new, List.mem_cons, List.not_mem_nil, or_false] at he
    rcases he with rfl | rfl | rfl | rfl | rfl <;> simp [keys]

theorem dict_keys (r : Record) : ∀ e ∈ r.dict, e.1 ∈ keys := by
  unfold dict
  cases r.error with
  | none => exact envelope_keys _ _
  | some error =>
    intro e he
    rcases Assoc.mem_set he with rfl | he
    · simp [keys]
    · exact envelope_keys _ _ e he

theorem get?_dict {es : PyDict} {r : Record} (h : of es = some r) :
    ∀ k, PyDict.get? r.dict k = PyDict.get? es k := by
  simp only [of, Option.bind_eq_bind, Option.bind_eq_some_iff] at h
  obtain ⟨id, hid, taskType, htype, enqueuedAt, hat, attempts, hattempts, error, herror, h⟩ := h
  split at h
  · rename_i hrest
    cases h
    rw [Bool.and_eq_true, List.all_eq_true] at hrest
    intro k
    by_cases hk : k ∈ keys
    · simp only [keys, List.mem_cons, List.not_mem_nil, or_false] at hk
      rcases hk with rfl | rfl | rfl | rfl | rfl | rfl
      · rw [strAt_eq hid]
        cases error <;> rfl
      · rw [strAt_eq htype]
        cases error <;> rfl
      · rw [emptyAt_eq hrest.1]
        cases error <;> rfl
      · rw [intAt_eq hattempts]
        cases error <;> rfl
      · rw [strAt_eq hat]
        cases error <;> rfl
      · rw [errorAt_eq herror]
        cases error <;> rfl
    · rw [get?_eq_none (dict_keys _) hk, get?_eq_none (by simpa using hrest.2) hk]
  · cases h

theorem all_keys_iff (es : PyDict) :
    es.all (fun e => keys.contains e.1) = true ↔ ∀ k ∉ keys, PyDict.get? es k = none := by
  constructor
  · exact fun h k => get?_eq_none (by simpa using h)
  · intro h
    rw [List.all_eq_true]
    intro e he
    by_contra hmem
    have hnone := h e.1 (by simpa using hmem)
    rw [PyDict.get?, Assoc.get?, Option.map_eq_none_iff, List.find?_eq_none] at hnone
    exact hnone e he (by simp)

theorem of_congr {es es' : PyDict} (h : ∀ k, PyDict.get? es k = PyDict.get? es' k) : of es = of es' := by
  have hall : es.all (fun e => keys.contains e.1) = es'.all fun e => keys.contains e.1 := by
    rw [Bool.eq_iff_iff, all_keys_iff, all_keys_iff]
    simp only [h]
  have hstr (key : String) : strAt es key = strAt es' key := by rw [strAt, h, strAt]
  have hint : intAt es "attempts" = intAt es' "attempts" := by rw [intAt, h, intAt]
  have hempty : emptyAt es "payload" = emptyAt es' "payload" := by rw [emptyAt, h, emptyAt]
  have herror : errorAt es = errorAt es' := by rw [errorAt, h, errorAt]
  simp only [of, hstr, hint, hempty, herror, hall]

end Record

/-- `json` on the envelopes of a table; other values are not written and other bodies not read. -/
def Stdlib.table (known : List (Record × Bytes)) : Stdlib where
  jsonLoads body := (Assoc.get? (known.map Prod.swap) body).map fun r => .dict r.dict
  jsonDumps
    | .dict es => (Record.of es).bind (Assoc.get? known)
    | _ => none
  intOfStr _ := none

theorem table_extensional (known : List (Record × Bytes)) : (Stdlib.table known).Extensional := by
  intro es es' h
  simp only [Stdlib.encodes, Stdlib.table, Record.of_congr h]

theorem table_roundTrips {known : List (Record × Bytes)} (hrecords : (Assoc.keys known).Nodup)
    (hbodies : (Assoc.keys (known.map Prod.swap)).Nodup) : (Stdlib.table known).RoundTrips := by
  intro es body h
  obtain ⟨r, hr, hbody⟩ := Option.bind_eq_some_iff.mp h
  have hmem : (body, r) ∈ known.map Prod.swap :=
    List.mem_map.mpr ⟨(r, body), (Assoc.get?_eq_some_iff hrecords).mp hbody, rfl⟩
  refine ⟨r.dict, ?_, Record.get?_dict hr⟩
  simp only [Stdlib.table, (Assoc.get?_eq_some_iff hbodies).mpr hmem, Option.map_some]

def boomQueue (maxRetries : Int) : QueueConfig :=
  .init (str "vp.tasks") (str "vp.tasks.q") (str "vp.task") (str "vp.tasks.dlx") (str "vp.tasks.dlq")
    maxRetries

def boomTask : Task := ⟨str "1", str "2026-01-01T00:00:00+00:00", str "boom", .dict []⟩

def boomBody (attempts rest : String) : Bytes :=
  (str "\x7b\"id\": \"1\", \"type\": \"boom\", \"payload\": \x7b\x7d, \"attempts\": " ++ str attempts ++
    str ", \"enqueued_at\": \"2026-01-01T00:00:00+00:00\"" ++ str rest ++ str "\x7d").map UInt8.ofNat

def boomRecord (attempts : Int) (error : Option PyStr) : Record :=
  ⟨(str "1", str "boom", str "2026-01-01T00:00:00+00:00"), attempts, error⟩

/-- A task that always fails is tried twice, then dead-lettered. -/
def boomTable : List (Record × Bytes) :=
  [(boomRecord 0 none, boomBody "0" ""), (boomRecord 1 none, boomBody "1" ""),
    (boomRecord 2 (some (str "RuntimeError()")), boomBody "2" ", \"error\": \"RuntimeError()\"")]

theorem boomTable_roundTrips : (Stdlib.table boomTable).RoundTrips :=
  table_roundTrips (by decide) (by decide)

def boom : PyExc := ⟨str "RuntimeError", some (str "RuntimeError()"), true⟩

theorem settles_iff_boom :
    ∃ n, ((Ladder.deliver .worker (.table boomTable) (boomQueue 2) (fun _ => true) fun _ => .error boom)^[n]
      (Ladder.start (boomQueue 2) (boomBody "0" ""))).Settles (.table boomTable) (boomQueue 2) boomTask
        (fun _ => .error boom) 0 := by
  refine (Ladder.settles_iff .worker boomTable_roundTrips (table_extensional boomTable) (by decide) rfl
    (by rfl)).mpr (.inr ?_)
  intro i hi
  refine ⟨boom, rfl, ?_⟩
  have hi : i < 2 := hi
  obtain rfl | rfl : i = 0 ∨ i = 1 := by omega
  · decide
  · decide

/-- An exception whose `__repr__` raises. -/
def mute : PyExc := ⟨str "RuntimeError", none, true⟩

/-- The task fails with it every time, and one try is allowed. -/
def muteRun (n : Nat) : Ladder :=
  (Ladder.deliver .worker (.table boomTable) (boomQueue 1) (fun _ => true) fun _ => .error mute)^[n]
    (Ladder.start (boomQueue 1) (boomBody "0" ""))

theorem on_muteRun (n : Nat) :
    Ladder.On (.table boomTable) (boomQueue 1) boomTask 0 n (muteRun n) (.climbing 0) := by
  have hbody : boomTask.Written (.table boomTable) 0 (boomBody "0" "") :=
    Ladder.written_of_encode boomTable_roundTrips (by rfl)
  have hstall : Retry.after (tried (.table boomTable) (boomQueue 1) boomTask 0 fun _ => .error mute)
      ((boomQueue 1).triesLeft 0) n = .climbing 0 := Retry.after_of_stall (fun _ => rfl) n
  rw [← hstall]
  exact Ladder.on_after boomTable_roundTrips (table_extensional boomTable) (by decide) rfl hbody n

/-- It is never dead-lettered: every delivery runs the handler once more. -/
theorem not_settles_mute :
    (¬ ∃ n, (muteRun n).Settles (.table boomTable) (boomQueue 1) boomTask (fun _ => .error mute) 0) ∧
      ∀ n, (muteRun n).ran = n := by
  refine ⟨?_, fun n => (on_muteRun n).2.2⟩
  intro h
  obtain ⟨n, hsettles⟩ := h
  obtain ⟨⟨m, hwork, -⟩, -⟩ := on_muteRun n
  have hempty := hsettles.work
  rw [hwork] at hempty
  cases hempty

end VirtualPerson
