import Mathlib.Logic.Function.Basic
import VirtualPerson.Transition
import VirtualPerson.Queue.Settlement

/-!
# Producers, consumers and the broker

Any number of `enqueue` calls and of consumers on one work queue and one DLQ. Each
party runs its program one broker operation at a time; the broker may lose an ack,
refuse a publish after queueing it, and drop a channel at any point.
-/

namespace VirtualPerson

set_option autoImplicit false

open Policy

/-- Broker names shared by all parties, and what each consumer is. -/
structure Deployment where
  py : Stdlib
  exchange : PyStr
  queue : PyStr
  routingKey : PyStr
  dlx : PyStr
  dlq : PyStr
  kind : Nat → Consumer
  maxRetries : Nat → Int
  handlers : Nat → Registry

/-- `json.loads` reads back the fields that `json.dumps` wrote. -/
def Stdlib.RoundTrips (py : Stdlib) : Prop :=
  ∀ es body, py.jsonDumps (.dict es) = some body →
    ∃ es', py.jsonLoads body = some (.dict es') ∧ ∀ k, PyDict.get? es' k = PyDict.get? es k

/-- The task id a message carries. -/
def taskId (py : Stdlib) (body : Bytes) : Option PyStr :=
  match py.jsonLoads body with
  | some (.dict es) =>
    match PyDict.get? es (str "id") with
    | some (.str id) => some id
    | _ => none
  | _ => none

/-- A consumer and its channel. `log` holds the bodies delivered on the channel; a
delivery tag is a position in it. -/
structure ConsumerState where
  channelOpen : Bool
  stopping : Bool
  log : List Bytes
  unsettled : List Nat
  /-- Deliveries received and not yet yielded by `channel.consume`. -/
  ingress : List Nat
  running : Option (Nat × QueueProg Unit)

def ConsumerState.fresh : ConsumerState :=
  { channelOpen := true, stopping := false, log := [], unsettled := [], ingress := [], running := none }

structure BrokerState where
  work : List Bytes
  dlq : List Bytes
  consumers : Nat → ConsumerState
  /-- The running `enqueue` calls with their task ids. -/
  producers : Nat → Option (PyStr × QueueProg Bool)
  /-- Ids of tasks whose handler has returned. -/
  handled : List PyStr
  /-- Ids for which `enqueue` has returned `True`. -/
  accepted : List PyStr

namespace Deployment

def config (d : Deployment) (c : Nat) : QueueConfig :=
  .init d.exchange d.queue d.routingKey d.dlx d.dlq (d.maxRetries c)

def handleDelivery (d : Deployment) (c tag : Nat) (body : Bytes) : QueueProg Unit :=
  (d.kind c).handleDelivery d.py (d.config c) (d.handlers c) tag body

end Deployment

namespace BrokerState

def onConsumer (s : BrokerState) (c : Nat) (f : ConsumerState → ConsumerState) : BrokerState :=
  { s with consumers := Function.update s.consumers c (f (s.consumers c)) }

/-- The DLX feeds the DLQ, the task exchange the work queue. -/
def publish (d : Deployment) (s : BrokerState) (m : Publish) : BrokerState :=
  if m.exchange = d.dlx then { s with dlq := m.body :: s.dlq } else { s with work := m.body :: s.work }

def returnBody (s : BrokerState) (body : Bytes) (requeue : Bool) : BrokerState :=
  if requeue then { s with work := body :: s.work } else { s with dlq := body :: s.dlq }

def requeueAll (s : BrokerState) (c : Nat) (tags : List Nat) : BrokerState :=
  { s with work := (tags.filterMap fun t => (s.consumers c).log[t]?) ++ s.work }

end BrokerState

namespace ConsumerState

def settle (tag : Nat) (cs : ConsumerState) : ConsumerState :=
  { cs with unsettled := cs.unsettled.filter (· ≠ tag) }

def receive (body : Bytes) (cs : ConsumerState) : ConsumerState :=
  { cs with
    log := cs.log ++ [body]
    unsettled := cs.unsettled ++ [cs.log.length]
    ingress := cs.ingress ++ [cs.log.length] }

end ConsumerState

/-- What a broker call of consumer `c`, handling delivery `tag`, may do. An ack or a
nack may be lost whatever the call returns. -/
inductive Effect (d : Deployment) (c tag : Nat) :
    (o : QueueOp) → o.Ans → BrokerState → BrokerState → Prop where
  | channel {s} (b : Bool) : Effect d c tag .ensureChannel b s s
  | published {s} (m : Publish) (ok : Bool) : Effect d c tag (.basicPublish m) ok s (s.publish d m)
  | refused {s} (m : Publish) : Effect d c tag (.basicPublish m) false s s
  | acked {s} (t : Nat) (ok : Bool) :
      Effect d c tag (.basicAck t) ok s (s.onConsumer c (.settle t))
  | ackLost {s} (t : Nat) (ok : Bool) : Effect d c tag (.basicAck t) ok s s
  | nacked {s} {t : Nat} {requeue : Bool} {body : Bytes} (ok : Bool)
      (hmem : t ∈ (s.consumers c).unsettled) (hbody : (s.consumers c).log[t]? = some body) :
      Effect d c tag (.basicNack t requeue) ok s
        ((s.returnBody body requeue).onConsumer c (.settle t))
  | nackLost {s} (t : Nat) (requeue ok : Bool) : Effect d c tag (.basicNack t requeue) ok s s
  | handled {s} {t : PyStr} {p : PyVal} {out : HandlerOutcome} {u : Unit}
      (hout : out.result = .ok u) :
      Effect d c tag (.handle t p) out s
        { s with handled := (((s.consumers c).log[tag]?).bind (taskId d.py)).toList ++ s.handled }
  | failed {s} {t : PyStr} {p : PyVal} {out : HandlerOutcome} {exc : PyExc}
      (hout : out.result = .error exc) : Effect d c tag (.handle t p) out s s
  | counted {s} (x : Counter) (u : Unit) : Effect d c tag (.inc x) u s s

inductive ProducerEffect (d : Deployment) :
    (o : QueueOp) → o.Ans → BrokerState → BrokerState → Prop where
  | channel {s} (b : Bool) : ProducerEffect d .ensureChannel b s s
  | published {s} (m : Publish) (ok : Bool) :
      ProducerEffect d (.basicPublish m) ok s (s.publish d m)
  | refused {s} (m : Publish) : ProducerEffect d (.basicPublish m) false s s

inductive BrokerAction where
  | enqueue (p : Nat) (id : PyStr)
  | producerStep (p : Nat)
  | producerEnd (p : Nat)
  | deliver (c : Nat)
  | take (c : Nat)
  | consumerStep (c : Nat)
  | consumerEnd (c : Nat)
  | stop (c : Nat)
  | skip (c : Nat)
  | cancel (c : Nat)
  | loseChannel (c : Nat)
  | kill (c : Nat)

inductive BrokerStep (d : Deployment) : BrokerState → BrokerAction → BrokerState → Prop where
  | enqueue {s} {p : Nat} (id at_ taskType : PyStr) (payload : PyVal)
      (hidle : s.producers p = none) :
      BrokerStep d s (.enqueue p id)
        { s with
          producers := Function.update s.producers p
            (some (id, RabbitMQTaskQueue.enqueue d.py (d.config p) id at_ taskType payload)) }
  | producerStep {s s'} {p : Nat} {id : PyStr} {o : QueueOp} {k : o.Ans → QueueProg Bool}
      (a : o.Ans) (hrun : s.producers p = some (id, .op o k)) (heff : ProducerEffect d o a s s') :
      BrokerStep d s (.producerStep p)
        { s' with producers := Function.update s'.producers p (some (id, k a)) }
  | producerReturns {s} {p : Nat} {id : PyStr} {b : Bool}
      (hrun : s.producers p = some (id, .ret b)) :
      BrokerStep d s (.producerEnd p)
        { s with
          producers := Function.update s.producers p none
          accepted := if b then id :: s.accepted else s.accepted }
  | producerRaises {s} {p : Nat} {id : PyStr} {e : PyExc}
      (hrun : s.producers p = some (id, .raise e)) :
      BrokerStep d s (.producerEnd p) { s with producers := Function.update s.producers p none }
  | deliver {s} {c : Nat} {before after : List Bytes} {body : Bytes}
      (hopen : (s.consumers c).channelOpen = true) (hwork : s.work = before ++ body :: after) :
      BrokerStep d s (.deliver c)
        (({ s with work := before ++ after } : BrokerState).onConsumer c (.receive body))
  /-- The consume loop yields a delivery to `_handle_delivery`. -/
  | take {s} {c tag : Nat} {rest : List Nat} {body : Bytes}
      (hidle : (s.consumers c).running = none) (hstop : (s.consumers c).stopping = false)
      (hnext : (s.consumers c).ingress = tag :: rest)
      (hbody : (s.consumers c).log[tag]? = some body) :
      BrokerStep d s (.take c) (s.onConsumer c fun cs =>
        { cs with ingress := rest, running := some (tag, d.handleDelivery c tag body) })
  | consumerStep {s s'} {c tag : Nat} {o : QueueOp} {k : o.Ans → QueueProg Unit} (a : o.Ans)
      (hrun : (s.consumers c).running = some (tag, .op o k)) (heff : Effect d c tag o a s s') :
      BrokerStep d s (.consumerStep c)
        (s'.onConsumer c fun cs => { cs with running := some (tag, k a) })
  | consumerReturns {s} {c tag : Nat} {u : Unit}
      (hrun : (s.consumers c).running = some (tag, .ret u)) :
      BrokerStep d s (.consumerEnd c) (s.onConsumer c fun cs => { cs with running := none })
  /-- An exception that leaves `_handle_delivery` ends the consume loop. -/
  | consumerRaises {s} {c tag : Nat} {e : PyExc}
      (hrun : (s.consumers c).running = some (tag, .raise e)) :
      BrokerStep d s (.consumerEnd c)
        (s.onConsumer c fun cs => { cs with running := none, stopping := true })
  | stop {s} (c : Nat) :
      BrokerStep d s (.stop c) (s.onConsumer c fun cs => { cs with stopping := true })
  /-- A stopping consumer drops the delivery its loop has just been handed. -/
  | skip {s} {c tag : Nat} {rest : List Nat} (hstop : (s.consumers c).stopping = true)
      (hnext : (s.consumers c).ingress = tag :: rest) :
      BrokerStep d s (.skip c) (s.onConsumer c fun cs => { cs with ingress := rest })
  /-- `channel.cancel()` returns the deliveries that were never yielded. -/
  | cancel {s} {c : Nat} (hstop : (s.consumers c).stopping = true) :
      BrokerStep d s (.cancel c)
        ((s.requeueAll c (s.consumers c).ingress).onConsumer c fun cs =>
          { cs with
            unsettled := cs.unsettled.filter (· ∉ cs.ingress)
            ingress := [] })
  | loseChannel {s} (c : Nat) :
      BrokerStep d s (.loseChannel c)
        ((s.requeueAll c (s.consumers c).unsettled).onConsumer c fun cs =>
          { cs with channelOpen := false, unsettled := [], ingress := [] })
  /-- The process dies; its channel is lost by a step of its own. -/
  | kill {s} (c : Nat) :
      BrokerStep d s (.kill c)
        (s.onConsumer c fun cs => { cs with running := none, stopping := true })

/-- Both queues may hold messages from earlier; nothing runs yet. -/
def BrokerState.Initial (s : BrokerState) : Prop :=
  (∀ c, s.consumers c = .fresh) ∧ (∀ p, s.producers p = none) ∧ s.accepted = []

def brokerSystem (d : Deployment) : System BrokerState BrokerAction :=
  ⟨BrokerState.Initial, BrokerStep d⟩

end VirtualPerson
