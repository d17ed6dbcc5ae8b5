import VirtualPerson.Queue.Policy

/-!
# Settling a delivery

Which message bodies, handlers and handler outcomes leave a delivery settled
exactly once, whatever the broker answers.
-/

namespace VirtualPerson

set_option autoImplicit false

open Policy

inductive Settlement where
  | ack (tag : Nat)
  | nack (tag : Nat) (requeue : Bool)
  deriving DecidableEq

def Settlement.tag : Settlement → Nat
  | .ack tag => tag
  | .nack tag _ => tag

def settlement : QueueSig.Event → Option Settlement
  | ⟨.basicAck tag, _⟩ => some (.ack tag)
  | ⟨.basicNack tag requeue, _⟩ => some (.nack tag requeue)
  | _ => none

def RefusedRetry (q : QueueConfig) : QueueSig.Event → Prop
  | ⟨.basicPublish m, ok⟩ => ok = false ∧ m.exchange = q.exchange ∧ m.routingKey = q.routingKey
  | _ => False

/-- The delivery handler returned, settled its delivery with one call, and sent it
back to the work queue only after a refused retry publish. -/
structure Settled (q : QueueConfig) (tag : Nat) (tr : List QueueSig.Event)
    (r : Except PyExc Unit) : Prop where
  returned : r = .ok ()
  once : ∃ s, tr.filterMap settlement = [s] ∧ s.tag = tag
  requeued : ∀ pre e post, tr = pre ++ e :: post → settlement e = some (.nack tag true) →
    ∃ p ∈ pre, RefusedRetry q p

abbrev Handlers := PyStr → Option (PyVal → HandlerOutcome)

def Handlers.registered (handlers : Handlers) : Registry := fun t => (handlers t).isSome

/-- Every handler call of the run went to the registered handler. -/
def Handlers.Ran (handlers : Handlers) (tr : List QueueSig.Event) : Prop :=
  ∀ t p (out : HandlerOutcome), (⟨.handle t p, out⟩ : QueueSig.Event) ∈ tr →
    ∃ fn, handlers t = some fn ∧ out = fn p

/-- The `except` block can deal with this outcome: the updated envelope can be
written again, and an exception to be recorded has a `repr`. -/
def Recoverable (py : Stdlib) (q : QueueConfig) (f : Envelope.Fields) (out : HandlerOutcome) :
    Prop :=
  match out.result with
  | .ok _ => True
  | .error exc =>
    exc.isException = true ∧
      if q.maxRetries ≤ f.attempts + 1 then
        ∃ error, exc.repr = some error ∧
          (py.jsonDumps (.dict (PyDict.set (failedEnvelope f out.payload) (str "error")
            (.str error)))).isSome
      else (py.jsonDumps (.dict (failedEnvelope f out.payload))).isSome

/-- The body is no JSON at all, or an object with a hashable type and a readable
attempts count, which can be written again if no handler takes it and whose handler
ends in a recoverable way otherwise. -/
def Settleable (py : Stdlib) (q : QueueConfig) (handlers : Handlers) (body : Bytes) : Prop :=
  match py.jsonLoads body with
  | none => True
  | some decoded =>
    ∃ f, Envelope.read py decoded = .ok f ∧
      ((lookupHandler handlers.registered f.taskType = .ok none ∧
          (py.jsonDumps (.dict f.envelope)).isSome) ∨
        ∃ t fn, lookupHandler handlers.registered f.taskType = .ok (some t) ∧
          handlers t = some fn ∧ Recoverable py q f (fn f.payload))

section Runs

variable {metrics : Bool} {py : Stdlib} {q : QueueConfig} {tag : Nat} {requeue ok : Bool}
variable {c : Counter} {tr : List QueueSig.Event} {r : Except PyExc Unit}

/-- The trace of a counter: one event for the worker, none for the task queue. -/
def counted (metrics : Bool) (c : Counter) : List QueueSig.Event :=
  if metrics then [⟨.inc c, ()⟩] else []

@[simp] theorem filterMap_counted : (counted metrics c).filterMap settlement = [] := by
  cases metrics <;> rfl

theorem mem_counted {e : QueueSig.Event} (h : e ∈ counted metrics c) : e = ⟨.inc c, ()⟩ := by
  cases metrics with
  | false => simp [counted] at h
  | true => simpa [counted] using h

theorem runs_count_bind {p : QueueProg Unit} :
    Prog.Runs (do count metrics c; p) tr r ↔
      ∃ rest, tr = counted metrics c ++ rest ∧ Prog.Runs p rest r := by
  cases metrics with
  | false => simp [count, counted]
  | true =>
    change Prog.Runs (S := QueueSig) (.op (QueueOp.inc c) fun _ => p) tr r ↔ _
    rw [Prog.runs_op_iff]
    constructor
    · intro h
      obtain ⟨_, rest, rfl, h⟩ := h
      exact ⟨rest, rfl, h⟩
    · intro h
      obtain ⟨rest, rfl, h⟩ := h
      exact ⟨(), rest, rfl, h⟩

theorem runs_count_iff :
    Prog.Runs (count metrics c) tr r ↔ tr = counted metrics c ∧ r = .ok () := by
  have h := @runs_count_bind metrics c tr r (.ret ())
  cases metrics with
  | false => simp [count, counted]
  | true => simpa [count, counted, Worker.inc] using h

theorem runs_settle_true_iff :
    Prog.Runs (settle metrics tag requeue true c) tr r ↔
      r = .ok () ∧ ∃ a : Bool, tr = ⟨.basicAck tag, a⟩ :: counted metrics c := by
  change Prog.Runs (S := QueueSig) (.op (QueueOp.basicAck tag) fun _ => count metrics c) tr r ↔ _
  simp only [Prog.runs_op_iff, runs_count_iff]
  constructor
  · intro h
    obtain ⟨a, rest, rfl, rfl, rfl⟩ := h
    exact ⟨rfl, a, rfl⟩
  · intro h
    obtain ⟨rfl, a, rfl⟩ := h
    exact ⟨a, _, rfl, rfl, rfl⟩

theorem runs_settle_false_iff :
    Prog.Runs (settle metrics tag requeue false c) tr r ↔
      r = .ok () ∧ ∃ a : Bool, tr = [⟨.basicNack tag requeue, a⟩] := by
  change Prog.Runs (S := QueueSig) (.op (QueueOp.basicNack tag requeue) fun _ => .ret ()) tr r ↔ _
  simp only [Prog.runs_op_iff, Prog.runs_ret_iff]
  constructor
  · intro h
    obtain ⟨a, rest, rfl, rfl, rfl⟩ := h
    exact ⟨rfl, a, rfl⟩
  · intro h
    obtain ⟨rfl, a, rfl⟩ := h
    exact ⟨a, [], rfl, rfl, rfl⟩

/-- After events that settle nothing, one settlement settles the delivery; it may
send it back if one of these events was a refused retry. -/
theorem settled_of_runs_settle (pre : List QueueSig.Event)
    (hpre : pre.filterMap settlement = [])
    (hrequeue : requeue = true → ok = false → ∃ p ∈ pre, RefusedRetry q p)
    (h : Prog.Runs (settle metrics tag requeue ok c) tr r) : Settled q tag (pre ++ tr) r := by
  cases ok with
  | true =>
    obtain ⟨rfl, a, rfl⟩ := runs_settle_true_iff.mp h
    have honce : (pre ++ ⟨.basicAck tag, a⟩ :: counted metrics c).filterMap settlement =
        [.ack tag] := by simp [hpre, settlement]
    refine ⟨rfl, ⟨_, honce, rfl⟩, ?_⟩
    intro pre' e post htr he
    have hmem : Settlement.nack tag true ∈ [Settlement.ack tag] := by
      rw [← honce, htr]
      exact List.mem_filterMap.mpr ⟨e, by simp, he⟩
    simp at hmem
  | false =>
    obtain ⟨rfl, a, rfl⟩ := runs_settle_false_iff.mp h
    refine ⟨rfl, ⟨.nack tag requeue, by simp [hpre, settlement], rfl⟩, ?_⟩
    intro pre' e post htr he
    have hnot : e ∉ pre := by
      intro hmem
      have := List.filterMap_eq_nil_iff.mp hpre e hmem
      rw [he] at this
      cases this
    -- `e` is the nack, so what stands before it is `pre`
    obtain ⟨rfl, rfl⟩ : pre' = pre ∧ e = ⟨.basicNack tag requeue, a⟩ := by
      rcases List.append_eq_append_iff.mp htr with ⟨mid, rfl, hmid⟩ | ⟨mid, rfl, hmid⟩
      · cases mid with
        | nil => simp_all
        | cons y mid => simp at hmid
      · cases mid with
        | nil => simp_all
        | cons y mid =>
          obtain ⟨rfl, _⟩ := List.cons.inj hmid
          exact absurd (by simp) hnot
    have htrue : requeue = true := by simpa [settlement] using he
    exact hrequeue htrue rfl

theorem not_settled_of_runs_raise (pre : List QueueSig.Event) {e : PyExc}
    (h : Prog.Runs (.raise e : QueueProg Unit) tr r) :
    ¬ Settled q tag (pre ++ tr) r := by
  intro hs
  have := hs.returned
  rw [(Prog.runs_raise_iff.mp h).2] at this
  cases this

theorem settled_of_runs_park (pre : List QueueSig.Event) {body : Bytes} {reason : String}
    (hpre : pre.filterMap settlement = [])
    (h : Prog.Runs (park metrics q tag body reason) tr r) : Settled q tag (pre ++ tr) r := by
  obtain ⟨ok, rest, rfl, hrest⟩ := Prog.runs_op_iff.mp h
  have hs : Settled q tag ((pre ++ [⟨.basicPublish _, ok⟩]) ++ rest) r :=
    settled_of_runs_settle _ (by simpa [settlement] using hpre) (by simp) hrest
  simpa using hs

theorem not_settled_of_runs_unsendable (pre : List QueueSig.Event)
    (hpre : ∀ e ∈ pre, ¬ RefusedRetry q e)
    (h : Prog.Runs (settle metrics tag true false c) tr r) : ¬ Settled q tag (pre ++ tr) r := by
  obtain ⟨rfl, a, rfl⟩ := runs_settle_false_iff.mp h
  intro hs
  obtain ⟨p, hp, hrefused⟩ := hs.requeued pre _ [] rfl rfl
  exact hpre p hp hrefused

/-- After a caught handler exception the delivery is settled exactly when the
updated envelope can be sent. -/
theorem settled_onFailure_iff {pre : List QueueSig.Event} {f : Envelope.Fields}
    {out : HandlerOutcome} {exc : PyExc}
    (hout : out.result = .error exc) (hexc : exc.isException = true)
    (hpre : pre.filterMap settlement = []) (hquiet : ∀ e ∈ pre, ¬ RefusedRetry q e)
    (h : Prog.Runs (onFailure metrics q tag (failed py q f out.payload exc)) tr r) :
    Settled q tag (pre ++ tr) r ↔ Recoverable py q f out := by
  simp only [Recoverable, hout, hexc, true_and]
  by_cases hmax : q.maxRetries ≤ f.attempts + 1
  · simp only [failed, if_pos hmax] at h ⊢
    cases hrepr : exc.repr with
    | none =>
      rw [hrepr] at h
      simpa using not_settled_of_runs_raise pre h
    | some error =>
      simp only [hrepr, Envelope.encode] at h
      simp only [Option.some.injEq, exists_eq_left']
      cases henc : py.jsonDumps (.dict (PyDict.set (failedEnvelope f out.payload) (str "error")
          (.str error))) with
      | none =>
        rw [henc] at h
        simpa using not_settled_of_runs_raise pre h
      | some body =>
        rw [henc] at h
        simpa using settled_of_runs_park pre hpre h
  · simp only [failed, if_neg hmax, Envelope.encode] at h ⊢
    cases henc : py.jsonDumps (.dict (failedEnvelope f out.payload)) with
    | none =>
      rw [henc] at h
      simpa using not_settled_of_runs_unsendable pre hquiet h
    | some body =>
      rw [henc] at h
      obtain ⟨ok, rest, rfl, hrest⟩ := Prog.runs_op_iff.mp h
      have hs : Settled q tag ((pre ++ [⟨.basicPublish _, ok⟩]) ++ rest) r :=
        settled_of_runs_settle _ (by simpa [settlement] using hpre)
          (fun _ hok => ⟨⟨.basicPublish _, ok⟩, by simp, hok, rfl, rfl⟩) hrest
      simpa using hs

theorem settled_onOutcome_iff {taskType : PyStr} {f : Envelope.Fields} {out : HandlerOutcome}
    (h : Prog.Runs (onOutcome metrics py q tag f out) tr r) :
    Settled q tag (⟨.handle taskType f.payload, out⟩ :: tr) r ↔ Recoverable py q f out := by
  unfold onOutcome at h
  cases hres : out.result with
  | ok u =>
    simp only [hres] at h
    have hs : Settled q tag ([⟨.handle taskType f.payload, out⟩] ++ tr) r :=
      settled_of_runs_settle _ rfl (by simp) h
    simpa [Recoverable, hres] using hs
  | error exc =>
    simp only [hres] at h
    by_cases hexc : exc.isException = false
    · rw [if_pos hexc] at h
      have hs : ¬ Settled q tag ([⟨.handle taskType f.payload, out⟩] ++ tr) r :=
        not_settled_of_runs_raise _ h
      simpa [Recoverable, hres, hexc] using hs
    · rw [if_neg hexc] at h
      obtain ⟨rest, rfl, hfail⟩ := runs_count_bind.mp h
      have hquiet : ∀ e ∈ (⟨.handle taskType f.payload, out⟩ :: counted metrics .failed :
          List QueueSig.Event), ¬ RefusedRetry q e := by
        intro e he
        rcases List.mem_cons.mp he with rfl | he
        · exact id
        · rw [mem_counted he]
          exact id
      have hs := settled_onFailure_iff hres (by simpa using hexc)
        (by rw [List.filterMap_cons_none rfl, filterMap_counted]) hquiet hfail
      simpa using hs

end Runs

theorem settleable_iff_verdict (py : Stdlib) (q : QueueConfig) (handlers : Handlers)
    (body : Bytes) :
    Settleable py q handlers body ↔
      match verdict py handlers.registered body with
      | .undecodable => True
      | .broken _ => False
      | .unregistered _ => True
      | .task t f => ∃ fn, handlers t = some fn ∧ Recoverable py q f (fn f.payload) := by
  unfold Settleable verdict
  cases py.jsonLoads body with
  | none => rfl
  | some decoded =>
    simp only
    cases Envelope.read py decoded with
    | error e => simp
    | ok f =>
      simp only [Except.ok.injEq, exists_eq_left']
      cases hfound : lookupHandler handlers.registered f.taskType with
      | error e => simp
      | ok found =>
        cases found with
        | none =>
          simp only [Envelope.encode]
          cases py.jsonDumps (.dict f.envelope) <;> simp
        | some t => simp

/-- For every body, registry, handler outcome and broker answer: each consumer
returns, settles the delivery exactly once and sends it back only after a refused
retry publish, if and only if the delivery is settleable. -/
theorem handleDelivery_settled_iff (c : Consumer) (py : Stdlib) (q : QueueConfig)
    (handlers : Handlers) (tag : Nat) (body : Bytes) (tr : List QueueSig.Event)
    (r : Except PyExc Unit)
    (hrun : Prog.Runs (c.handleDelivery py q handlers.registered tag body) tr r)
    (hran : handlers.Ran tr) :
    Settled q tag tr r ↔ Settleable py q handlers body := by
  rw [Consumer.handleDelivery_eq, delivery] at hrun
  rw [settleable_iff_verdict]
  cases hv : verdict py handlers.registered body with
  | undecodable =>
    simp only [hv] at hrun
    simpa using settled_of_runs_park [] rfl hrun
  | broken e =>
    simp only [hv] at hrun
    simpa using not_settled_of_runs_raise [] hrun
  | unregistered encoded =>
    simp only [hv] at hrun
    simpa using settled_of_runs_park [] rfl hrun
  | task t f =>
    simp only [hv] at hrun
    obtain ⟨out, rest, rfl, hrest⟩ := Prog.runs_op_iff.mp hrun
    obtain ⟨fn, hfn, rfl⟩ := hran t f.payload out (by simp)
    simpa [hfn] using settled_onOutcome_iff hrest

/-- `json` on the bodies `{}` and `[]`; every other body is undecodable here. -/
def Stdlib.braces : Stdlib where
  jsonLoads body :=
    if body = [0x7B, 0x7D] then some (.dict [])
    else if body = [0x5B, 0x5D] then some (.list [])
    else none
  jsonDumps
    | .dict [] => some [0x7B, 0x7D]
    | .list [] => some [0x5B, 0x5D]
    | _ => none
  intOfStr _ := none

def QueueConfig.default : QueueConfig :=
  .init (str "vp.tasks") (str "vp.tasks.q") (str "vp.task") (str "vp.tasks.dlx")
    (str "vp.tasks.dlq") 3

/-- `{}` has no registered type: it is parked in the DLQ and acked. -/
theorem handleDelivery_settled_iff_braces :
    Settled .default 7
      [⟨.basicPublish (Channel.message (str "vp.tasks.dlx") [] [0x7B, 0x7D] none
          (some (str "no-handler"))), true⟩,
        ⟨.basicAck 7, true⟩, ⟨.inc .deadLettered, ()⟩] (.ok ()) ↔
      Settleable .braces .default (fun _ => none) [0x7B, 0x7D] := by
  refine handleDelivery_settled_iff .worker .braces .default (fun _ => none) 7 [0x7B, 0x7D] _ _ ?_ ?_
  · refine Prog.Runs.op (S := QueueSig) (o := QueueOp.basicPublish _) true ?_
    refine Prog.Runs.op (S := QueueSig) (o := QueueOp.basicAck 7) true ?_
    exact Prog.Runs.op (S := QueueSig) (o := QueueOp.inc .deadLettered) () (.ret ())
  · intro t p out hmem
    rcases List.mem_cons.mp hmem with h | hmem
    · cases h
    rcases List.mem_cons.mp hmem with h | hmem
    · cases h
    cases List.mem_singleton.mp hmem

/-- The body `[]` decodes to a list, which has no `.get`: the handler raises and the
delivery is neither acked nor nacked. -/
theorem not_every_delivery_settled :
    ¬ ∀ (c : Consumer) (py : Stdlib) (q : QueueConfig) (handlers : Handlers) (tag : Nat)
        (body : Bytes) (tr : List QueueSig.Event) (r : Except PyExc Unit),
        Prog.Runs (c.handleDelivery py q handlers.registered tag body) tr r →
        handlers.Ran tr → Settled q tag tr r := by
  intro hall
  have hrun : Prog.Runs (Consumer.worker.handleDelivery .braces .default
      (Handlers.registered fun _ => none) 7 [0x5B, 0x5D]) [] (.error .attributeError) := .raise _
  have hs := hall _ _ _ (fun _ => none) _ _ _ _ hrun (by intro t p out hmem; simp at hmem)
  cases hs.returned

end VirtualPerson
