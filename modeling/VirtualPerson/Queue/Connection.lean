import Mathlib.Data.Finset.Card
import VirtualPerson.Transition
import VirtualPerson.Stateful
import VirtualPerson.Queue.Delivery

/-!
# The connection of the task queue

What `RabbitMQTaskQueue` keeps in `_connection` and `_channel`, and which of the
connections it opened are still open. How each broker operation ends, and what it leaves
of the channel and the connection, is the environment's.
-/

namespace VirtualPerson

set_option autoImplicit false

open Stateful

/-- How an operation on a connection ended; the last three raise. -/
inductive Outcome where
  | returned
  | refused
  | channelClosed
  | connectionLost
  deriving DecidableEq

/-- It raised, and the connection is still open. -/
def Outcome.leavesOpen : Outcome → Bool
  | .refused => true
  | .channelClosed => true
  | _ => false

/-- How the steps of one attempt to connect end. -/
structure Setup where
  /-- `import pika` succeeds -/
  pika : Bool
  /-- `URLParameters` and `BlockingConnection` return -/
  connect : Bool
  channel : Outcome
  topology : Outcome
  confirm : Outcome

/-- How a drain ends: its `basic_qos`, its loop, an exception a handler lets out of the loop, and
its `cancel`. -/
structure Drain where
  qos : Outcome
  loop : Outcome
  escaped : Option PyExc
  cancel : Outcome

structure BrokerChannel where
  connection : Nat
  isOpen : Bool
  deriving DecidableEq

/-- The object's fields, and its connections by the order they were opened in: `live` are
those still open. -/
structure QueueClient where
  connection : Option Nat
  channel : Option BrokerChannel
  consumeAborted : Bool
  opened : Nat
  live : Finset Nat

abbrev ClientM := EStateM PyExc QueueClient

namespace QueueClient

def init : QueueClient :=
  { connection := none, channel := none, consumeAborted := false, opened := 0, live := ∅ }

def channelOpen (s : QueueClient) : Bool := s.channel.any (·.isOpen)

def closeChannel (s : QueueClient) : QueueClient :=
  { s with channel := s.channel.map fun ch => { ch with isOpen := false } }

/-- The connection is closed, and its channel with it. -/
def lose (c : Nat) (s : QueueClient) : QueueClient :=
  { s with
    live := s.live.erase c
    channel := s.channel.map fun ch => if ch.connection = c then { ch with isOpen := false } else ch }

def connected (s : QueueClient) : QueueClient :=
  { s with connection := some s.opened, opened := s.opened + 1, live := insert s.opened s.live }

/-- `self._channel = None; self._connection = None` -/
def drop (s : QueueClient) : QueueClient := { s with channel := none, connection := none }

/-- One broker operation on connection `c`. -/
def op (c : Nat) : Outcome → ClientM Unit
  | .returned => pure ()
  | .refused => throw .amqpError
  | .channelClosed => do
    modify closeChannel
    throw .amqpError
  | .connectionLost => do
    modify (lose c)
    throw .amqpError

def connect (returns : Bool) : ClientM Nat := do
  if returns then
    let s ← get
    set s.connected
    return s.opened
  else throw .amqpError

/-- `_ensure_channel` -/
def ensureChannel (o : Setup) : ClientM (Option BrokerChannel) := do
  let s ← get
  if s.channelOpen then return s.channel
  else if !o.pika then return none
  else
    handling PyExc.isException
      (do
        let c ← connect o.connect
        op c o.channel
        modify fun s => { s with channel := some ⟨c, true⟩ }
        op c o.topology
        op c o.confirm
        return (← get).channel)
      fun _ => do
        modify drop
        return none

/-- The arguments of an enqueue, with the id and the time it draws. -/
structure Task where
  id : PyStr
  enqueuedAt : PyStr
  taskType : PyStr
  payload : PyVal

def Task.encode (py : Stdlib) (t : Task) : Except PyExc Bytes :=
  Envelope.encode py (Envelope.new t.id t.enqueuedAt t.taskType t.payload)

variable (py : Stdlib)

def enqueue (o : Setup) (t : Task) (publish : Outcome) : ClientM Bool := do
  match ← ensureChannel o with
  | none => return false
  | some ch =>
    handling PyExc.isException
      (do
        let _body ← MonadExcept.ofExcept (t.encode py)
        op ch.connection publish
        return true)
      fun _ => do
        modify drop
        return false

def setAborted (aborted : Bool) : ClientM Unit := modify fun s => { s with consumeAborted := aborted }

/-- The loop over the deliveries, whose handlers leave the fields alone. -/
def drain (ch : BrokerChannel) (d : Drain) : ClientM Unit := do
  op ch.connection d.qos
  let cancel : ClientM Unit := handling PyExc.isException (op ch.connection d.cancel) fun _ => return ()
  handling (fun _ => true)
    (do
      handling (fun e => e = .amqpError)
        (handling (fun e => e.name = str "KeyboardInterrupt")
          (do
            op ch.connection d.loop
            match d.escaped with
            | some e => throw e
            | none => return ())
          fun _ => return ())
        fun _ => setAborted true
      cancel)
    fun e => do
      cancel
      throw e

/-- `consume`, less the number of deliveries it returns. -/
def consume (o : Setup) (d : Drain) : ClientM Unit := do
  setAborted false
  match ← ensureChannel o with
  | none => setAborted true
  | some ch => drain ch d

def available (o : Setup) : ClientM Bool := return (← ensureChannel o).isSome

/-- `self._channel.close()` -/
def closeOp (c : Nat) : Outcome → ClientM Unit
  | .returned => modify closeChannel
  | outcome => op c outcome

/-- The first `try` of `close`. -/
def tryCloseChannel (outcome : Outcome) : ClientM Unit :=
  handling PyExc.isException
    (do
      match (← get).channel with
      | some ch => if ch.isOpen then closeOp ch.connection outcome
      | none => return ())
    fun _ => return ()

/-- The second. A connection's own `close()` ends it whether it returns or raises. -/
def tryCloseConnection (returns : Bool) : ClientM Unit :=
  handling PyExc.isException
    (do
      let s ← get
      match s.connection with
      | some c =>
        if c ∈ s.live then
          modify (lose c)
          if !returns then throw .amqpError
      | none => return ())
    fun _ => return ()

def close (channel : Outcome) (connectionReturns : Bool) : ClientM Unit := do
  tryCloseChannel channel
  tryCloseConnection connectionReturns
  modify drop

end QueueClient

/-- A call, or what the broker does between calls. -/
inductive QueueCall where
  | enqueue (o : Setup) (t : QueueClient.Task) (publish : Outcome)
  | consume (o : Setup) (d : Drain)
  | available (o : Setup)
  | close (channel : Outcome) (connectionReturns : Bool)
  | channelClosed
  | connectionLost (c : Nat)

namespace QueueClient

variable (py : Stdlib)

def step (s : QueueClient) : QueueCall → QueueClient
  | .enqueue o t publish => final (enqueue py o t publish s)
  | .consume o d => final (consume o d s)
  | .available o => final (available o s)
  | .close channel connectionReturns => final (close channel connectionReturns s)
  | .channelClosed => s.closeChannel
  | .connectionLost c => s.lose c

def run (calls : List QueueCall) : QueueClient := calls.foldl (step py) init

/-- At most one connection is open, and it is the one held. -/
def AtMostOne (s : QueueClient) : Prop := s.live.card ≤ 1 ∧ ∀ c ∈ s.live, s.connection = some c

end QueueClient

/-- How the steps after the connection end: by the first that does not return. -/
def Setup.ending (o : Setup) : Outcome :=
  if o.channel = .returned then if o.topology = .returned then o.confirm else o.topology
  else o.channel

namespace QueueClient

variable {s : QueueClient} {c : Nat} {ch : BrokerChannel}

/-- What an attempt to connect returns and leaves. -/
def attempt (o : Setup) (s : QueueClient) : Option BrokerChannel × QueueClient :=
  if o.connect then
    match o.ending with
    | .returned =>
      let ch : BrokerChannel := ⟨s.opened, true⟩
      (some ch, { s.connected with channel := some ch })
    | .connectionLost => (none, (s.connected.lose s.opened).drop)
    | _ => (none, s.connected.drop)
  else (none, s.drop)

theorem ensureChannel_run (o : Setup) (s : QueueClient) :
    ensureChannel o s =
      if s.channelOpen then .ok s.channel s
      else if o.pika then .ok (attempt o s).1 (attempt o s).2
      else .ok none s := by
  unfold ensureChannel
  rw [bind_run, get_run]
  dsimp only
  cases s.channelOpen with
  | true => rfl
  | false =>
    obtain ⟨pika, connect, channel, topology, confirm⟩ := o
    cases pika with
    | false => rfl
    | true =>
      cases connect with
      | false => rfl
      | true =>
        cases channel with
        | returned =>
          cases topology with
          | returned => cases confirm <;> rfl
          | _ => rfl
        | _ => rfl

/-- Connections are numbered as they are opened, and an open channel is one of the open
connection held. -/
structure Attached (s : QueueClient) : Prop where
  fresh : ∀ c ∈ s.live, c < s.opened
  channel : ∀ ch, s.channel = some ch → ch.isOpen = true →
    s.connection = some ch.connection ∧ ch.connection ∈ s.live

/-- Only the connection held is open. -/
def Single (s : QueueClient) : Prop := ∀ c ∈ s.live, s.connection = some c

/-- The connection held is open. -/
def Held (s : QueueClient) : Prop := ∃ c ∈ s.live, s.connection = some c

theorem atMostOne_iff : AtMostOne s ↔ Single s := by
  constructor
  · exact fun h => h.2
  · intro h
    refine ⟨Finset.card_le_one.mpr ?_, h⟩
    intro a ha b hb
    exact Option.some.inj ((h a ha).symm.trans (h b hb))

theorem Single.not_held (h : Single s) : ¬ s.Held ↔ s.live = ∅ := by
  constructor
  · intro hheld
    apply Finset.eq_empty_of_forall_notMem
    intro c hc
    exact hheld ⟨c, hc, h c hc⟩
  · rintro hempty ⟨c, hc, -⟩
    rw [hempty] at hc
    exact absurd hc (Finset.notMem_empty c)

theorem single_of_live (h : s.live = ∅) : Single s := by
  intro c hc
  rw [h] at hc
  exact absurd hc (Finset.notMem_empty c)

/-- Where no connection is held, an open one is one too many. -/
theorem single_drop : Single s.drop ↔ s.live = ∅ := by
  constructor
  · intro h
    apply Finset.eq_empty_of_forall_notMem
    intro c hc
    cases h c hc
  · exact fun h => single_of_live h

theorem single_connected (h : Attached s) : Single s.connected ↔ s.live = ∅ := by
  constructor
  · intro hsingle
    apply Finset.eq_empty_of_forall_notMem
    intro c hc
    have heq : s.opened = c := Option.some.inj (hsingle c (Finset.mem_insert_of_mem hc))
    exact absurd (h.fresh c hc) (heq ▸ Nat.lt_irrefl _)
  · intro hempty c hc
    change c ∈ insert s.opened s.live at hc
    rw [hempty, Finset.mem_insert] at hc
    rcases hc with rfl | hc
    · rfl
    · exact absurd hc (Finset.notMem_empty c)

theorem Single.lose (h : Single s) (c : Nat) : Single (s.lose c) := by
  intro d hd
  exact h d (Finset.mem_of_mem_erase hd)

/-- The loss of the connection held leaves the others what they are. -/
theorem single_lose (h : s.connection = some c) : Single (s.lose c) ↔ Single s := by
  constructor
  · intro hsingle d hd
    by_cases hdc : d = c
    · rw [hdc]
      exact h
    · exact hsingle d (Finset.mem_erase.mpr ⟨hdc, hd⟩)
  · exact fun hsingle => hsingle.lose c

theorem attached_init : Attached init where
  fresh := fun c hc => absurd hc (Finset.notMem_empty c)
  channel := fun ch hch => by cases hch

theorem Attached.drop (h : Attached s) : Attached s.drop where
  fresh := h.fresh
  channel := fun ch hch => by cases hch

theorem Attached.closeChannel (h : Attached s) : Attached s.closeChannel where
  fresh := h.fresh
  channel := by
    intro ch hch hopen
    obtain ⟨ch', -, rfl⟩ := Option.map_eq_some_iff.mp hch
    cases hopen

theorem Attached.lose (h : Attached s) (c : Nat) : Attached (s.lose c) where
  fresh := fun d hd => h.fresh d (Finset.mem_of_mem_erase hd)
  channel := by
    intro ch hch hopen
    obtain ⟨ch', hch', hif⟩ := Option.map_eq_some_iff.mp hch
    split at hif
    · subst hif
      cases hopen
    · rename_i hne
      subst hif
      obtain ⟨hconn, hlive⟩ := h.channel ch' hch' hopen
      exact ⟨hconn, Finset.mem_erase.mpr ⟨hne, hlive⟩⟩

theorem Attached.insert (h : Attached s) : ∀ c ∈ s.connected.live, c < s.connected.opened := by
  intro c hc
  change c < s.opened + 1
  rcases Finset.mem_insert.mp hc with rfl | hc
  · exact Nat.lt_succ_self _
  · exact Nat.lt_succ_of_lt (h.fresh c hc)

theorem Attached.live_lose_connected (h : Attached s) : (s.connected.lose s.opened).live = s.live := by
  apply Finset.erase_insert
  intro hmem
  exact absurd (h.fresh s.opened hmem) (Nat.lt_irrefl _)

/-- The state an attempt leaves, and the channel it returns. -/
theorem attempt_spec (h : Attached s) (o : Setup) :
    Attached (attempt o s).2 ∧
      (∀ ch, (attempt o s).1 = some ch →
        (attempt o s).2.connection = some ch.connection ∧ ch.connection ∈ (attempt o s).2.live) ∧
      (Single (attempt o s).2 ↔
        s.live = ∅ ∧ ¬ (o.connect = true ∧ o.ending.leavesOpen = true)) := by
  have habandoned : Attached s.connected.drop ∧ ¬ Single s.connected.drop := by
    refine ⟨⟨h.insert, fun ch hch => by cases hch⟩, ?_⟩
    rw [single_drop]
    exact Finset.insert_ne_empty s.opened s.live
  unfold attempt
  cases hc : o.connect with
  | false =>
    refine ⟨h.drop, fun ch hch => (by cases hch), ?_⟩
    rw [if_neg Bool.false_ne_true, single_drop]
    simp
  | true =>
    rw [if_pos rfl]
    cases he : o.ending with
    | returned =>
      refine ⟨⟨h.insert, ?_⟩, ?_, ?_⟩
      · intro ch hch _
        cases hch
        exact ⟨rfl, Finset.mem_insert_self _ _⟩
      · intro ch hch
        cases hch
        exact ⟨rfl, Finset.mem_insert_self _ _⟩
      · apply (single_connected h).trans
        simp [Outcome.leavesOpen]
    | connectionLost =>
      refine ⟨⟨?_, fun ch hch => by cases hch⟩, fun ch hch => (by cases hch), ?_⟩
      · intro c hc
        rw [show (s.connected.lose s.opened).drop.live = s.live from h.live_lose_connected] at hc
        exact Nat.lt_succ_of_lt (h.fresh c hc)
      · rw [single_drop, h.live_lose_connected]
        simp [Outcome.leavesOpen]
    | refused =>
      refine ⟨habandoned.1, fun ch hch => (by cases hch), ?_⟩
      apply iff_of_false habandoned.2
      simp [Outcome.leavesOpen]
    | channelClosed =>
      refine ⟨habandoned.1, fun ch hch => (by cases hch), ?_⟩
      apply iff_of_false habandoned.2
      simp [Outcome.leavesOpen]

/-- A connection attempt that takes the place of an open connection, or that gives up its own. -/
def SetupLeaks (s : QueueClient) (o : Setup) : Prop :=
  s.channelOpen = false ∧ o.pika = true ∧
    (s.Held ∨ (o.connect = true ∧ o.ending.leavesOpen = true))

/-- Whether `_ensure_channel` has a channel to return. -/
def hasChannel (s : QueueClient) (o : Setup) : Prop :=
  s.channelOpen = true ∨ (o.pika = true ∧ o.connect = true ∧ o.ending = .returned)

theorem ensureChannel_spec (h : Attached s) (o : Setup) :
    ∃ r t, ensureChannel o s = .ok r t ∧ Attached t ∧
      (∀ ch, r = some ch → t.connection = some ch.connection ∧ ch.connection ∈ t.live) ∧
      (r.isSome = true ↔ s.hasChannel o) ∧ (Single s → (Single t ↔ ¬ s.SetupLeaks o)) := by
  rw [ensureChannel_run]
  cases hopen : s.channelOpen with
  | true =>
    refine ⟨s.channel, s, rfl, h, ?_, ?_, ?_⟩
    · intro ch hch
      apply h.channel ch hch
      simpa [channelOpen, hch] using hopen
    · apply iff_of_true _ (.inl hopen)
      cases hch : s.channel with
      | none => simp [channelOpen, hch] at hopen
      | some ch => rfl
    · intro hsingle
      apply iff_of_true hsingle
      intro h
      obtain ⟨hclosed, -⟩ := h
      exact absurd (hopen.symm.trans hclosed) Bool.true_eq_false_eq_False
  | false =>
    cases hpika : o.pika with
    | false =>
      refine ⟨none, s, rfl, h, fun ch hch => (by cases hch), ?_, ?_⟩
      · simp [hasChannel, hopen, hpika]
      · intro hsingle
        simp [SetupLeaks, hpika, hsingle]
    | true =>
      obtain ⟨hattached, hch, hsingle⟩ := attempt_spec h o
      refine ⟨_, _, rfl, hattached, hch, ?_, ?_⟩
      · rw [attempt]
        cases hc : o.connect <;> cases he : o.ending <;> simp [hasChannel, hopen, hpika, hc, he]
      · intro hs
        rw [hsingle, ← hs.not_held]
        simp [SetupLeaks, hopen, hpika]

/-- The calls that leave an open connection behind. -/
def Leaks (py : Stdlib) (s : QueueClient) : QueueCall → Prop
  | .enqueue o t publish =>
    s.SetupLeaks o ∨
      (s.hasChannel o ∧ ((∃ e, t.encode py = .error e) ∨ publish.leavesOpen = true))
  | .consume o _ => s.SetupLeaks o
  | .available o => s.SetupLeaks o
  | _ => False

/-- What an enqueue leaves of a channel it was given. -/
theorem publish_final (py : Stdlib) (h : Attached s) (hch : s.connection = some ch.connection)
    (hlive : ch.connection ∈ s.live) (task : Task) (publish : Outcome) :
    let p : ClientM Bool := handling PyExc.isException
      (do
        let _body ← MonadExcept.ofExcept (task.encode py)
        op ch.connection publish
        return true)
      fun _ => do
        modify drop
        return false
    Attached (final (p s)) ∧
      (Single (final (p s)) ↔
        Single s ∧ ¬ ((∃ e, task.encode py = .error e) ∨ publish.leavesOpen = true)) := by
  have hdrop : ¬ Single s.drop := by
    rw [single_drop]
    exact Finset.ne_empty_of_mem hlive
  have hlost : Single (s.lose ch.connection).drop ↔ Single s := by
    rw [single_drop, ← single_lose hch]
    constructor
    · exact fun hempty => single_of_live hempty
    · intro hsingle
      apply hsingle.not_held.mp
      intro h
      obtain ⟨d, hd, hconn⟩ := h
      have heq : ch.connection = d := Option.some.inj (hch.symm.trans hconn)
      exact absurd heq.symm (Finset.ne_of_mem_erase hd)
  dsimp only
  cases henc : task.encode py with
  | error e =>
    have hexc : e = .encodeError := by
      unfold Task.encode Envelope.encode at henc
      split at henc
      · cases henc
      · exact (Except.error.inj henc).symm
    subst hexc
    refine ⟨h.drop, iff_of_false hdrop ?_⟩
    intro h
    obtain ⟨-, hnot⟩ := h
    exact hnot (.inl ⟨_, rfl⟩)
  | ok body =>
    cases publish with
    | returned =>
      refine ⟨h, ?_⟩
      change Single s ↔ _
      simp [Outcome.leavesOpen]
    | connectionLost =>
      refine ⟨(h.lose ch.connection).drop, hlost.trans ?_⟩
      simp [Outcome.leavesOpen]
    | refused =>
      refine ⟨h.drop, iff_of_false hdrop ?_⟩
      simp [Outcome.leavesOpen]
    | channelClosed =>
      refine ⟨h.closeChannel.drop, iff_of_false hdrop ?_⟩
      simp [Outcome.leavesOpen]

/-- A drain, whatever happens to its channel and connection, leaves no other connection open. -/
theorem drain_keeps (ch : BrokerChannel) (P : Prop) (d : Drain) :
    Keeps (fun u => u.connection = some ch.connection ∧ Attached u ∧ (Single u ↔ P)) (drain ch d) := by
  have hop (outcome : Outcome) : Keeps
      (fun u => u.connection = some ch.connection ∧ Attached u ∧ (Single u ↔ P))
      (op ch.connection outcome) := by
    cases outcome with
    | returned => exact .pure ()
    | refused => exact .throw _
    | channelClosed =>
      apply Keeps.bind (.modify fun u hu => ⟨hu.1, hu.2.1.closeChannel, hu.2.2⟩)
      exact fun _ => .throw _
    | connectionLost =>
      apply Keeps.bind (.modify _) fun _ => .throw _
      exact fun u hu => ⟨hu.1, hu.2.1.lose _, (single_lose hu.1).trans hu.2.2⟩
  have hcancel : Keeps (fun u => u.connection = some ch.connection ∧ Attached u ∧ (Single u ↔ P))
      (handling PyExc.isException (op ch.connection d.cancel) fun _ => pure ()) :=
    .handling (hop d.cancel) fun _ => .pure trivial
  apply Keeps.bind (hop d.qos)
  intro _
  apply Ensures.handling _ fun e => Keeps.bind hcancel fun _ => .throw e
  apply Keeps.bind _ fun _ => hcancel
  apply Ensures.handling
  · apply Ensures.handling _ fun _ => .pure trivial
    apply Keeps.bind (hop d.loop)
    intro _
    cases d.escaped with
    | none => exact .pure trivial
    | some e => exact .throw e
  · intro _
    exact Keeps.modify fun u hu => ⟨hu.1, ⟨hu.2.1.fresh, hu.2.1.channel⟩, hu.2.2⟩

theorem tryCloseChannel_run (h : Attached s) (outcome : Outcome) :
    ∃ u, tryCloseChannel outcome s = .ok () u ∧ Attached u ∧ (Single s → Single u) := by
  unfold tryCloseChannel handling
  rw [tryCatch_run, bind_run, get_run]
  cases hch : s.channel with
  | none =>
    simp only [hch]
    exact ⟨s, rfl, h, id⟩
  | some ch =>
    simp only [hch]
    cases ch.isOpen with
    | false => exact ⟨s, rfl, h, id⟩
    | true =>
      cases outcome with
      | returned => exact ⟨_, rfl, h.closeChannel, id⟩
      | refused => exact ⟨_, rfl, h, id⟩
      | channelClosed => exact ⟨_, rfl, h.closeChannel, id⟩
      | connectionLost => exact ⟨_, rfl, h.lose _, fun hsingle => hsingle.lose _⟩

/-- Where the connection held is the only one open, none is left. -/
theorem tryCloseConnection_run (h : Attached s) (returns : Bool) :
    ∃ u, tryCloseConnection returns s = .ok () u ∧ Attached u ∧ (Single s → u.live = ∅) := by
  by_cases hheld : s.Held
  · obtain ⟨c, hc, hconn⟩ := hheld
    refine ⟨s.lose c, ?_, h.lose c, ?_⟩
    · unfold tryCloseConnection handling
      rw [tryCatch_run, bind_run, get_run]
      simp only [hconn, if_pos hc]
      cases returns <;> rfl
    · intro hsingle
      apply Finset.eq_empty_of_forall_notMem
      intro d hd
      have heq : c = d := Option.some.inj (hconn.symm.trans (hsingle d (Finset.mem_of_mem_erase hd)))
      exact Finset.ne_of_mem_erase hd heq.symm
  · refine ⟨s, ?_, h, fun hsingle => hsingle.not_held.mp hheld⟩
    unfold tryCloseConnection handling
    rw [tryCatch_run, bind_run, get_run]
    cases hconn : s.connection with
    | none =>
      simp only [hconn]
      rfl
    | some c =>
      have hc : c ∉ s.live := fun hc => hheld ⟨c, hc, hconn⟩
      simp only [hconn, if_neg hc]
      rfl

theorem close_final (h : Attached s) (channel : Outcome) (connectionReturns : Bool) :
    Attached (final (close channel connectionReturns s)) ∧
      (Single s → Single (final (close channel connectionReturns s))) := by
  obtain ⟨u, hu, hattached, hsingle⟩ := tryCloseChannel_run h channel
  obtain ⟨v, hv, hattached', hempty⟩ := tryCloseConnection_run hattached connectionReturns
  have hrun : close channel connectionReturns s = .ok () v.drop := by
    rw [close, bind_run, hu]
    dsimp only
    rw [bind_run, hv]
    rfl
  rw [hrun]
  exact ⟨hattached'.drop, fun hs => single_drop.mpr (hempty (hsingle hs))⟩

/-- One step: what it breaks, and that it keeps the invariant. -/
theorem step_spec (py : Stdlib) (h : Attached s) (call : QueueCall) :
    Attached (step py s call) ∧ (Single s → (Single (step py s call) ↔ ¬ Leaks py s call)) := by
  cases call with
  | enqueue o task publish =>
    obtain ⟨r, t, hrun, hattached, hch, hhas, hsingle⟩ := ensureChannel_spec h o
    simp only [step, enqueue, bind_run, hrun]
    cases r with
    | none =>
      have hno : ¬ s.hasChannel o := by simpa using hhas
      refine ⟨hattached, fun hs => (hsingle hs).trans ?_⟩
      simp [Leaks, hno]
    | some ch =>
      have hyes : s.hasChannel o := by simpa using hhas
      obtain ⟨hconn, hlive⟩ := hch ch rfl
      obtain ⟨hkeep, hiff⟩ := publish_final py hattached hconn hlive task publish
      refine ⟨hkeep, fun hs => hiff.trans ?_⟩
      rw [hsingle hs]
      simp [Leaks, hyes]
  | consume o d =>
    have hset : Attached { s with consumeAborted := false } := ⟨h.fresh, h.channel⟩
    obtain ⟨r, t, hrun, hattached, hch, -, hsingle⟩ := ensureChannel_spec hset o
    simp only [step, consume, setAborted, bind_run, modify_run, hrun]
    cases r with
    | none =>
      exact ⟨⟨hattached.fresh, hattached.channel⟩, hsingle⟩
    | some ch =>
      obtain ⟨⟨-, hkeep, hiff⟩, -⟩ :=
        drain_keeps ch (Single t) d t ⟨(hch ch rfl).1, hattached, Iff.rfl⟩
      exact ⟨hkeep, fun hs => hiff.trans (hsingle hs)⟩
  | available o =>
    obtain ⟨r, t, hrun, hattached, -, -, hsingle⟩ := ensureChannel_spec h o
    simp only [step, available, bind_run, hrun]
    exact ⟨hattached, hsingle⟩
  | close channel connectionReturns =>
    obtain ⟨hattached, hsingle⟩ := close_final h channel connectionReturns
    exact ⟨hattached, fun hs => iff_of_true (hsingle hs) id⟩
  | channelClosed => exact ⟨h.closeChannel, fun hs => iff_of_true hs id⟩
  | connectionLost c => exact ⟨h.lose c, fun hs => iff_of_true (hs.lose c) id⟩

/-- At most one connection is open, and it is the one held, all along a run exactly when no call
of the run leaves an open connection behind. -/
theorem atMostOne_iff_no_leak (py : Stdlib) (calls : List QueueCall) :
    (∀ before, before <+: calls → AtMostOne (run py before)) ↔
      ∀ before call, before ++ [call] <+: calls → ¬ Leaks py (run py before) call := by
  simp only [atMostOne_iff]
  exact always_iff_no_bad (fun h => (step_spec py h _).1) (fun h hs => (step_spec py h _).2 hs) calls
    attached_init fun c hc => absurd hc (Finset.notMem_empty c)

/-- Two enqueues of a task that no queue takes, each over a connection of its own. -/
theorem not_atMostOne :
    ¬ ∀ (py : Stdlib) (calls : List QueueCall), AtMostOne (run py calls) := by
  intro h
  let py : Stdlib := { jsonLoads := fun _ => none, jsonDumps := fun _ => some [], intOfStr := fun _ => none }
  let ready : Setup :=
    { pika := true, connect := true, channel := .returned, topology := .returned, confirm := .returned }
  let task : Task := { id := [], enqueuedAt := [], taskType := str "echo", payload := .dict [] }
  have hcard := (h py [.enqueue ready task .refused, .enqueue ready task .refused]).1
  revert hcard
  decide

end QueueClient

end VirtualPerson
