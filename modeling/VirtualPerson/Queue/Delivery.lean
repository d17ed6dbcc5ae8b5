import VirtualPerson.Program
import VirtualPerson.Python.Value

/-!
# The task queue: enqueue and the two delivery handlers

`RabbitMQTaskQueue` (producer and minimal consumer) and `Worker` (the standalone
consumer) as programs over broker operations. Each operation's answer is the
environment's: a publish, ack or nack returns or raises, a handler returns or
raises and may have changed the payload it was given. Log lines are left out.
-/

namespace VirtualPerson

set_option autoImplicit false

abbrev Bytes := List UInt8

/-- The standard library as the queue uses it; `none` where the call raises. -/
structure Stdlib where
  /-- `json.loads(body)` -/
  jsonLoads : Bytes → Option PyVal
  /-- `json.dumps(v, ensure_ascii=False).encode("utf-8")` -/
  jsonDumps : PyVal → Option Bytes
  /-- `int(s)` on a string -/
  intOfStr : PyStr → Option Int

/-- The constructor arguments both classes keep, after their `max(1, int(..))`. -/
structure QueueConfig where
  exchange : PyStr
  queue : PyStr
  routingKey : PyStr
  dlx : PyStr
  dlq : PyStr
  maxRetries : Int
  one_le_maxRetries : 1 ≤ maxRetries

def QueueConfig.init (exchange queue routingKey dlx dlq : PyStr) (maxRetries : Int) :
    QueueConfig :=
  { exchange, queue, routingKey, dlx, dlq
    maxRetries := max 1 maxRetries
    one_le_maxRetries := Int.le_max_left 1 maxRetries }

/-- The arguments of one `basic_publish`, `BasicProperties` included. -/
structure Publish where
  exchange : PyStr
  routingKey : PyStr
  body : Bytes
  headers : Option PyDict
  deliveryMode : Nat
  contentType : PyStr
  mandatory : Bool

/-- How a job handler ended, and the payload as it left it. -/
structure HandlerOutcome where
  payload : PyVal
  result : Except PyExc Unit

inductive Counter where
  | processed
  | failed
  | retried
  | deadLettered
  deriving DecidableEq

inductive QueueOp where
  | ensureChannel
  | basicPublish (m : Publish)
  | basicAck (tag : Nat)
  | basicNack (tag : Nat) (requeue : Bool)
  | handle (taskType : PyStr) (payload : PyVal)
  | inc (c : Counter)

/-- A broker call answers `true` when it returns and `false` when it raises. -/
def QueueOp.Ans : QueueOp → Type
  | .ensureChannel => Bool
  | .basicPublish _ => Bool
  | .basicAck _ => Bool
  | .basicNack _ _ => Bool
  | .handle _ _ => HandlerOutcome
  | .inc _ => Unit

abbrev QueueSig : Sig := ⟨QueueOp, QueueOp.Ans⟩

abbrev QueueProg := Prog QueueSig PyExc

abbrev Registry := PyStr → Bool

/-- What `pika` raises when the broker or the channel refuses. -/
def PyExc.amqpError : PyExc := .builtin "AMQPError"

/-- `except Exception`: other exceptions pass through. -/
def exceptException {α : Type} (p : QueueProg α) (h : PyExc → QueueProg α) : QueueProg α :=
  p.catching fun e => if e.isException then h e else .raise e

/-- A broker call that was answered: it returned, or it raised. -/
def answered (returned : Bool) : QueueProg Unit :=
  if returned then .ret () else .raise .amqpError

namespace Envelope

/-- `_new_envelope`; the id and the time are drawn by the caller. -/
def new (id enqueuedAt taskType : PyStr) (payload : PyVal) : PyDict :=
  [(str "id", .str id), (str "type", .str taskType), (str "payload", payload.orElse (.dict [])),
    (str "attempts", .int 0), (str "enqueued_at", .str enqueuedAt)]

def encode (py : Stdlib) (envelope : PyDict) : Except PyExc Bytes :=
  match py.jsonDumps (.dict envelope) with
  | some body => .ok body
  | none => .error .encodeError

/-- The fields a consumer reads from a decoded body. -/
structure Fields where
  envelope : PyDict
  taskType : PyVal
  payload : PyVal
  attempts : Int

/-- The three reads between decoding and dispatch; only a dict has `.get`. -/
def read (py : Stdlib) : PyVal → Except PyExc Fields
  | .dict es => do
    let attempts ← ((PyDict.getD es (str "attempts") (.int 0)).orElse (.int 0)).toInt py.intOfStr
    .ok { envelope := es
          taskType := PyDict.getD es (str "type") (.str [])
          payload := (PyDict.getD es (str "payload") .pyNone).orElse (.dict [])
          attempts }
  | _ => .error .attributeError

theorem read_ok {py : Stdlib} {decoded : PyVal} {f : Fields} (h : read py decoded = .ok f) :
    decoded = .dict f.envelope := by
  cases decoded with
  | dict es =>
    simp only [read, bind, Except.bind] at h
    split at h
    · cases h
    · cases h
      rfl
  | _ => cases h

/-- The envelope after its handler ran: a non-empty list or dict payload is shared
with the handler, any other payload is not. -/
def afterHandler (es : PyDict) (payload : PyVal) : PyDict :=
  match PyDict.getD es (str "payload") .pyNone with
  | .list (_ :: _) => PyDict.set es (str "payload") payload
  | .dict (_ :: _) => PyDict.set es (str "payload") payload
  | _ => es

end Envelope

/-- `handlers.get(task_type)`: the registered name, if any. -/
def lookupHandler (handlers : Registry) : PyVal → Except PyExc (Option PyStr)
  | .str t => .ok (if handlers t then some t else none)
  | v => if v.hashable then .ok none else .error .typeError

-- The broker helpers: both classes spell these alike; each keeps its name for them.

namespace Channel

def message (exchange routingKey : PyStr) (body : Bytes) (attempts : Option Int)
    (reason : Option PyStr) : Publish :=
  let headers : PyDict :=
    (attempts.map fun a => (str "x-attempts", PyVal.int a)).toList ++
      (reason.map fun r => (str "x-dlq-reason", PyVal.str r)).toList
  { exchange, routingKey, body
    headers := if headers.isEmpty then none else some headers
    deliveryMode := 2
    contentType := str "application/json"
    mandatory := true }

def publish (exchange routingKey : PyStr) (body : Bytes) (attempts : Option Int)
    (reason : Option PyStr) : QueueProg Unit :=
  .op (.basicPublish (message exchange routingKey body attempts reason)) fun ok => answered ok

def toDlq (q : QueueConfig) (body : Bytes) (reason : String) : QueueProg Bool :=
  exceptException
    (do
      publish q.dlx [] body none (some (str reason))
      return true)
    fun _ => return false

/-- The `try` around the retry publish: whether the copy was taken. Encoding the
envelope stands inside it. -/
def republish (py : Stdlib) (q : QueueConfig) (envelope : PyDict) (attempts : Int) :
    QueueProg Bool :=
  exceptException
    (do
      let body ← Prog.lift (Envelope.encode py envelope)
      publish q.exchange q.routingKey body (some attempts) none
      return true)
    fun _ => return false

def safeAck (tag : Nat) : QueueProg Unit :=
  exceptException (.op (.basicAck tag) fun ok => answered ok) fun _ => return ()

def safeNack (tag : Nat) (requeue : Bool) : QueueProg Unit :=
  exceptException (.op (.basicNack tag requeue) fun ok => answered ok) fun _ => return ()

theorem toDlq_eq (q : QueueConfig) (body : Bytes) (reason : String) :
    toDlq q body reason =
      .op (.basicPublish (message q.dlx [] body none (some (str reason)))) fun ok => .ret ok := by
  simp only [toDlq, publish, exceptException, Prog.op_bind, Prog.catching_op]
  congr 1
  funext ok
  cases ok <;> rfl

theorem republish_eq (py : Stdlib) (q : QueueConfig) (envelope : PyDict) (attempts : Int) :
    republish py q envelope attempts =
      match Envelope.encode py envelope with
      | .ok body =>
        .op (.basicPublish (message q.exchange q.routingKey body (some attempts) none))
          fun ok => .ret ok
      | .error _ => .ret false := by
  unfold republish Envelope.encode
  cases py.jsonDumps (.dict envelope) with
  | none => rfl
  | some body =>
    simp only [publish, exceptException, Prog.lift_ok, Prog.ret_bind, Prog.op_bind,
      Prog.catching_op]
    congr 1
    funext ok
    cases ok <;> rfl

theorem safeAck_eq (tag : Nat) : safeAck tag = .op (.basicAck tag) fun _ => .ret () := by
  simp only [safeAck, exceptException, Prog.catching_op]
  congr 1
  funext ok
  cases ok <;> rfl

theorem safeNack_eq (tag : Nat) (requeue : Bool) :
    safeNack tag requeue = .op (.basicNack tag requeue) fun _ => .ret () := by
  simp only [safeNack, exceptException, Prog.catching_op]
  congr 1
  funext ok
  cases ok <;> rfl

end Channel

namespace RabbitMQTaskQueue

abbrev publish := Channel.publish
abbrev toDlq := Channel.toDlq
abbrev republish := Channel.republish
abbrev safeAck := Channel.safeAck
abbrev safeNack := Channel.safeNack

def enqueue (py : Stdlib) (q : QueueConfig) (id enqueuedAt taskType : PyStr) (payload : PyVal) :
    QueueProg Bool :=
  .op .ensureChannel fun (channel : Bool) =>
    if channel then
      exceptException
        (do
          let body ← Prog.lift (Envelope.encode py (Envelope.new id enqueuedAt taskType payload))
          publish q.exchange q.routingKey body (some 0) none
          return true)
        fun _ => return false
    else return false

def handleDelivery (py : Stdlib) (q : QueueConfig) (handlers : Registry) (tag : Nat)
    (body : Bytes) : QueueProg Unit :=
  match py.jsonLoads body with
  | none => do
    if ← toDlq q body "decode-error" then safeAck tag
    else safeNack tag false
  | some decoded => do
    let f ← Prog.lift (Envelope.read py decoded)
    match ← Prog.lift (lookupHandler handlers f.taskType) with
    | none => do
      let encoded ← Prog.lift (Envelope.encode py f.envelope)
      if ← toDlq q encoded "no-handler" then safeAck tag
      else safeNack tag false
    | some taskType =>
      .op (.handle taskType f.payload) fun (out : HandlerOutcome) =>
        match out.result with
        | .ok _ => safeAck tag
        | .error exc => do
          if exc.isException = false then .raise exc else
          let newAttempts := f.attempts + 1
          let envelope := PyDict.set (Envelope.afterHandler f.envelope out.payload)
            (str "attempts") (.int newAttempts)
          if q.maxRetries ≤ newAttempts then
            match exc.repr with
            | none => .raise .reprError
            | some error => do
              let encoded ← Prog.lift
                (Envelope.encode py (PyDict.set envelope (str "error") (.str error)))
              if ← toDlq q encoded "max-retries" then safeAck tag
              else safeNack tag false
          else
            if ← republish py q envelope newAttempts then safeAck tag
            else safeNack tag true

end RabbitMQTaskQueue

namespace Worker

abbrev toDlq := Channel.toDlq
abbrev republish := Channel.republish
abbrev safeAck := Channel.safeAck
abbrev safeNack := Channel.safeNack

def inc (c : Counter) : QueueProg Unit := .op (.inc c) fun _ => .ret ()

def handleDelivery (py : Stdlib) (q : QueueConfig) (handlers : Registry) (tag : Nat)
    (body : Bytes) : QueueProg Unit :=
  match py.jsonLoads body with
  | none => do
    if ← toDlq q body "decode-error" then
      safeAck tag
      inc .deadLettered
    else safeNack tag false
  | some decoded => do
    let f ← Prog.lift (Envelope.read py decoded)
    match ← Prog.lift (lookupHandler handlers f.taskType) with
    | none => do
      let encoded ← Prog.lift (Envelope.encode py f.envelope)
      if ← toDlq q encoded "no-handler" then
        safeAck tag
        inc .deadLettered
      else safeNack tag false
    | some taskType =>
      .op (.handle taskType f.payload) fun (out : HandlerOutcome) =>
        match out.result with
        | .ok _ => do
          safeAck tag
          inc .processed
        | .error exc => do
          if exc.isException = false then .raise exc else
          inc .failed
          let newAttempts := f.attempts + 1
          let envelope := PyDict.set (Envelope.afterHandler f.envelope out.payload)
            (str "attempts") (.int newAttempts)
          if q.maxRetries ≤ newAttempts then
            match exc.repr with
            | none => .raise .reprError
            | some error => do
              let encoded ← Prog.lift
                (Envelope.encode py (PyDict.set envelope (str "error") (.str error)))
              if ← toDlq q encoded "max-retries" then
                safeAck tag
                inc .deadLettered
              else safeNack tag false
          else
            if ← republish py q envelope newAttempts then
              safeAck tag
              inc .retried
            else safeNack tag true

end Worker

end VirtualPerson
