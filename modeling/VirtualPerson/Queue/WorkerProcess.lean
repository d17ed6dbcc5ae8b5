import Mathlib.Data.List.Chain
import VirtualPerson.Queue.Settlement

/-!
# The worker process

`python -m app.queue.worker` from its start to its exit: what it takes from the queue, what becomes
of it, and what is still done once the stop flag has been seen.
-/

namespace VirtualPerson

set_option autoImplicit false

open Policy

/-- What the generator of `consume` gives: nothing within the interval, or a delivery. -/
inductive Tick where
  | idle
  | delivery (tag : Nat) (body : Bytes)
  deriving DecidableEq

/-- The calls that return or raise and give nothing back. -/
inductive WorkerCall where
  | importPika
  | connection
  | channel
  | declareTopology
  | confirmDelivery
  | basicQos
  | cancel
  | closeChannel
  | closeConnection
  deriving DecidableEq

inductive LifecycleOp where
  | registry
  | call (c : WorkerCall)
  | take (tick : Tick)
  /-- A look at `_stopping`, which a signal sets at any time -/
  | stopping
  /-- `event=worker_stop processed=%d exit=%d` -/
  | logStop (processed rc : Nat)

/-- A call answers `true` when it returns and `false` when it raises. -/
def LifecycleOp.Ans : LifecycleOp → Type
  | .registry => Except PyExc Registry
  | .call _ => Bool
  | .take _ => Unit
  | .stopping => Bool
  | .logStop _ _ => Unit

/-- What a delivery asks of the broker and the handlers, and what the process does around it. -/
abbrev WorkerSig : Sig := QueueSig.sum ⟨LifecycleOp, LifecycleOp.Ans⟩

abbrev WorkerProg := Prog WorkerSig PyExc

namespace Worker

/-- `except Exception` -/
def guarding {α : Type} (p : WorkerProg α) (h : WorkerProg α) : WorkerProg α :=
  p.catching fun e => if e.isException then h else .raise e

def call (c : WorkerCall) : WorkerProg Unit :=
  .op (.inr (.call c)) fun (returned : Bool) => if returned then .ret () else .raise .amqpError

def connect : WorkerProg Bool := do
  let pika ← guarding (do call .importPika; return true) (return false)
  if pika then
    guarding
      (do
        call .connection
        call .channel
        call .declareTopology
        call .confirmDelivery
        call .basicQos
        return true)
      (return false)
  else return false

variable (py : Stdlib) (q : QueueConfig) (handlers : Registry) (ending : Except PyExc Unit)

/-- The `for` over what the generator gives; asked for more it ends, or raises. -/
def loop (processed : Nat) : List Tick → WorkerProg Nat
  | [] => do
    Prog.lift ending
    return processed
  | tick :: feed =>
    .op (.inr (.take tick)) fun _ =>
      .op (.inr .stopping) fun (stopping : Bool) =>
        if stopping then return processed
        else match tick with
          | .idle => loop processed feed
          | .delivery tag body => do
            Prog.inl (handleDelivery py q handlers tag body)
            .op (.inr .stopping) fun (stopping : Bool) =>
              if stopping then return processed + 1 else loop (processed + 1) feed

def cancel : WorkerProg Unit :=
  guarding (call .cancel) (return ())

def run (feed : List Tick) : WorkerProg Nat :=
  Prog.lastly cancel (loop py q handlers ending 0 feed)

/-- `close` on the two fields that a successful `connect` has set -/
def close : WorkerProg Unit := do
  guarding (call .closeChannel) (return ())
  guarding (call .closeConnection) (return ())

/-- What `main` makes of the way `run` ends: the count and the exit code. -/
def outcome (run : WorkerProg Nat) : WorkerProg (Nat × Nat) :=
  Prog.catching
    (do
      let processed ← run
      return (processed, 0))
    fun e =>
      if e.name = str "KeyboardInterrupt" then return (0, 0)
      else if e.isException then return (0, 1)
      else .raise e

/-- The `try` around the import of the jobs -/
def findHandlers : WorkerProg (Option Registry) :=
  guarding
    (.op (.inr .registry) fun (found : Except PyExc Registry) => do
      let handlers ← Prog.lift found
      return some handlers)
    (return none)

/-- The part of `main` after the connection is made -/
def serve (feed : List Tick) : WorkerProg Nat := do
  let (processed, rc) ← Prog.lastly close (outcome (run py q handlers ending feed))
  .op (.inr (.logStop processed rc)) fun _ => return rc

def main (enabled : Bool) (url : PyStr) (feed : List Tick) : WorkerProg Nat :=
  if !enabled then return 0
  else if url = [] then return 0
  else do
    match ← findHandlers with
    | none => return 1
    | some handlers =>
      if ← connect then serve py q handlers ending feed else return 1

def took (tick : Tick) : WorkerSig.Event := ⟨.inr (.take tick), ()⟩

def looked (stopping : Bool) : WorkerSig.Event := ⟨.inr .stopping, stopping⟩

def called (c : WorkerCall) (returned : Bool) : WorkerSig.Event := ⟨.inr (.call c), returned⟩

def logged (processed rc : Nat) : WorkerSig.Event := ⟨.inr (.logStop processed rc), ()⟩

def registered (handlers : Registry) : WorkerSig.Event :=
  ⟨.inr .registry, (.ok handlers : Except PyExc Registry)⟩

/-- A delivery that the handler has been called for, with what was exchanged for it. -/
structure Handling where
  tag : Nat
  body : Bytes
  exchanges : List QueueSig.Event
  result : Except PyExc Unit
  runs : (handleDelivery py q handlers tag body).Runs exchanges result

inductive Ended where
  | stopped
  /-- The generator has ended, or an exception has left the loop. -/
  | finished (how : Except PyExc Unit)

def Ended.result (processed : Nat) : Ended → Except PyExc Nat
  | .stopped => .ok processed
  | .finished (.ok _) => .ok processed
  | .finished (.error e) => .error e

variable {py q handlers}

namespace Handling

def took (h : Handling py q handlers) : WorkerSig.Event := Worker.took (.delivery h.tag h.body)

def course (h : Handling py q handlers) : List WorkerSig.Event := h.exchanges.map Sig.Event.inl

end Handling

/-- The rounds of the loop: what was handled, what was given out and left alone, how it ended. -/
inductive Serving :
    List (Handling py q handlers) → List (Nat × Bytes) → List WorkerSig.Event → Ended → Prop where
  | finished : Serving [] [] [] (.finished ending)
  | escaped (h : Handling py q handlers) {e : PyExc} (herr : h.result = .error e) :
      Serving [h] [] (h.took :: looked false :: h.course) (.finished (.error e))
  | seenIdle : Serving [] [] [took .idle, looked true] .stopped
  | seen (tag : Nat) (body : Bytes) :
      Serving [] [(tag, body)] [took (.delivery tag body), looked true] .stopped
  | last (h : Handling py q handlers) (hok : h.result = .ok ()) :
      Serving [h] [] (h.took :: looked false :: (h.course ++ [looked true])) .stopped
  | idle {hs left tr e} (rest : Serving hs left tr e) :
      Serving hs left (took .idle :: looked false :: tr) e
  | handled (h : Handling py q handlers) (hok : h.result = .ok ()) {hs left tr e}
      (rest : Serving hs left tr e) :
      Serving (h :: hs) left (h.took :: looked false :: (h.course ++ looked false :: tr)) e

section Runs

variable {ending} {tr : List WorkerSig.Event} {n : Nat} {feed : List Tick} {r : Except PyExc Nat}
variable {hs : List (Handling py q handlers)} {left : List (Nat × Bytes)} {e : Ended}

theorem serving_of_runs (hrun : (loop py q handlers ending n feed).Runs tr r) :
    ∃ (hs : List (Handling py q handlers)) (left : List (Nat × Bytes)) (e : Ended),
      Serving ending hs left tr e ∧ r = e.result (n + hs.length) := by
  induction feed generalizing n tr with
  | nil =>
    unfold loop at hrun
    cases ending with
    | ok u =>
      obtain ⟨rfl, rfl⟩ := Prog.runs_ret_iff.mp hrun
      exact ⟨[], [], .finished (.ok u), .finished, rfl⟩
    | error e =>
      obtain ⟨rfl, rfl⟩ := Prog.runs_raise_iff.mp hrun
      exact ⟨[], [], .finished (.error e), .finished, rfl⟩
  | cons tick feed ih =>
    unfold loop at hrun
    obtain ⟨_, _, rfl, hlook⟩ := Prog.runs_op_iff.mp hrun
    obtain ⟨stopping, _, rfl, hround⟩ := Prog.runs_op_iff.mp hlook
    cases stopping with
    | true =>
      obtain ⟨rfl, rfl⟩ := Prog.runs_ret_iff.mp hround
      cases tick with
      | idle => exact ⟨[], [], .stopped, .seenIdle, rfl⟩
      | delivery tag body => exact ⟨[], [(tag, body)], .stopped, .seen tag body, rfl⟩
    | false =>
      cases tick with
      | idle =>
        obtain ⟨hs, left, e, hserving, rfl⟩ := ih hround
        exact ⟨hs, left, e, .idle hserving, rfl⟩
      | delivery tag body =>
        rcases Prog.Runs.of_bind hround with ⟨_, before, after, rfl, hjob, hrest⟩ | ⟨e, rfl, hjob⟩
        · obtain ⟨own, rfl, hown⟩ := hjob.of_inl
          obtain ⟨stopping, _, rfl, hafter⟩ := Prog.runs_op_iff.mp hrest
          cases stopping with
          | true =>
            obtain ⟨rfl, rfl⟩ := Prog.runs_ret_iff.mp hafter
            exact ⟨[⟨tag, body, own, _, hown⟩], [], .stopped, .last _ rfl, rfl⟩
          | false =>
            obtain ⟨hs, left, e, hserving, rfl⟩ := ih hafter
            refine ⟨⟨tag, body, own, _, hown⟩ :: hs, left, e, .handled _ rfl hserving, ?_⟩
            rw [List.length_cons, Nat.add_right_comm, Nat.add_assoc]
        · obtain ⟨own, rfl, hown⟩ := hjob.of_inl
          exact ⟨[⟨tag, body, own, _, hown⟩], [], .finished (.error e), .escaped _ rfl, rfl⟩

def working : WorkerSig.Event → Bool
  | ⟨.inl _, _⟩ => true
  | ⟨.inr (.take (.delivery _ _)), _⟩ => true
  | _ => false

def takes : WorkerSig.Event → Bool
  | ⟨.inr (.take _), _⟩ => true
  | _ => false

def looks : WorkerSig.Event → Bool
  | ⟨.inr .stopping, _⟩ => true
  | _ => false

/-- An exchange that handles a delivery -/
def job : WorkerSig.Event → Option QueueSig.Event
  | ⟨.inl o, a⟩ => some ⟨o, a⟩
  | _ => none

theorem filter_course (h : Handling py q handlers) : h.course.filter working = h.course := by
  rw [List.filter_eq_self]
  intro ev hev
  obtain ⟨own, -, rfl⟩ := List.mem_map.mp hev
  rfl

theorem filterMap_job_course (h : Handling py q handlers) : h.course.filterMap job = h.exchanges := by
  unfold Handling.course
  rw [List.filterMap_map]
  exact List.filterMap_some

theorem looked_notMem_course (h : Handling py q handlers) (b : Bool) : looked b ∉ h.course := by
  intro hmem
  obtain ⟨own, -, heq⟩ := List.mem_map.mp hmem
  cases heq

/-- Each delivery is handled, all of it, before the next is taken; what is left alone comes last. -/
theorem Serving.in_turn (h : Serving ending hs left tr e) :
    tr.filter working = hs.flatMap (fun h => h.took :: h.course) ++
      left.map fun d => took (.delivery d.1 d.2) := by
  induction h with
  | finished => rfl
  | escaped h herr =>
    change h.took :: h.course.filter working = _
    rw [filter_course]
    simp
  | seenIdle => rfl
  | seen tag body => rfl
  | last h hok =>
    change h.took :: (h.course ++ [looked true]).filter working = _
    rw [List.filter_append, filter_course]
    simp [looked, working]
  | idle rest ih => exact ih
  | @handled h hok hs left tr e rest ih =>
    change h.took :: (h.course ++ looked false :: tr).filter working = _
    rw [List.filter_append, filter_course]
    change h.took :: (h.course ++ tr.filter working) = _
    rw [ih, List.flatMap_cons, List.append_assoc]
    rfl

theorem Serving.jobs (h : Serving ending hs left tr e) : tr.filterMap job = hs.flatMap (·.exchanges) := by
  induction h with
  | finished => rfl
  | escaped h herr =>
    change h.course.filterMap job = _
    rw [filterMap_job_course]
    simp
  | seenIdle => rfl
  | seen tag body => rfl
  | last h hok =>
    change (h.course ++ [looked true]).filterMap job = _
    rw [List.filterMap_append, filterMap_job_course]
    simp [looked, job]
  | idle rest ih => exact ih
  | @handled h hok hs left tr e rest ih =>
    change (h.course ++ looked false :: tr).filterMap job = _
    rw [List.filterMap_append, filterMap_job_course]
    change h.exchanges ++ tr.filterMap job = _
    rw [ih, List.flatMap_cons]

/-- A delivery is left alone where the flag has been seen, and only the last one can be. -/
theorem Serving.leaves (h : Serving ending hs left tr e) :
    left.length ≤ 1 ∧ (left ≠ [] → e = .stopped) := by
  induction h with
  | seen tag body => exact ⟨Nat.le_refl 1, fun _ => rfl⟩
  | idle rest ih => exact ih
  | handled h hok rest ih => exact ih
  | _ => exact ⟨Nat.zero_le 1, fun hne => absurd rfl hne⟩

theorem Serving.returned (h : Serving ending hs left tr e) : ∀ h ∈ hs.dropLast, h.result = .ok () := by
  induction h with
  | @handled h hok hs left tr e rest ih =>
    cases hs with
    | nil => exact fun h hmem => absurd hmem List.not_mem_nil
    | cons h' hs =>
      intro g hmem
      rcases List.mem_cons.mp hmem with rfl | hlater
      · exact hok
      · exact ih g hlater
  | idle rest ih => exact ih
  | _ => exact fun h hmem => absurd hmem List.not_mem_nil

/-- An exception that ends the loop is the generator's, or a handler's. -/
theorem Serving.raised (h : Serving ending hs left tr e) {x : PyExc} (he : e = .finished (.error x)) :
    ending = .error x ∨ ∃ h ∈ hs, h.result = .error x := by
  induction h with
  | finished =>
    cases he
    exact .inl rfl
  | escaped h herr =>
    cases he
    exact .inr ⟨h, List.mem_singleton_self h, herr⟩
  | idle rest ih => exact ih he
  | handled h hok rest ih =>
    rcases ih he with hending | ⟨g, hg, herr⟩
    · exact .inl hending
    · exact .inr ⟨g, List.mem_cons_of_mem h hg, herr⟩
  | _ => cases he

theorem looked_ne_took (b : Bool) (tick : Tick) : looked b ≠ took tick := by
  intro heq
  cases heq

theorem looked_true_ne_false : looked true ≠ looked false := by
  intro heq
  cases heq

theorem looked_notMem_round (h : Handling py q handlers) :
    looked true ∉ h.took :: looked false :: h.course := by
  rw [List.mem_cons, List.mem_cons, not_or, not_or]
  exact ⟨looked_ne_took true _, looked_true_ne_false, looked_notMem_course h true⟩

/-- The loop stops where the flag is seen, and there only. -/
def StopsOnSight (tr : List WorkerSig.Event) (e : Ended) : Prop :=
  (looked true ∉ tr ∧ e ≠ .stopped) ∨
    (e = .stopped ∧ ∃ front, tr = front ++ [looked true] ∧ looked true ∉ front)

theorem StopsOnSight.after {round : List WorkerSig.Event} (hround : looked true ∉ round)
    (h : StopsOnSight tr e) : StopsOnSight (round ++ tr) e := by
  rcases h with ⟨hnot, he⟩ | ⟨he, front, rfl, hfront⟩
  · refine .inl ⟨?_, he⟩
    rw [List.mem_append, not_or]
    exact ⟨hround, hnot⟩
  · refine .inr ⟨he, round ++ front, (List.append_assoc _ _ _).symm, ?_⟩
    rw [List.mem_append, not_or]
    exact ⟨hround, hfront⟩

theorem Serving.stops (h : Serving ending hs left tr e) : StopsOnSight tr e := by
  have hseen : StopsOnSight [looked true] .stopped := .inr ⟨rfl, [], rfl, List.not_mem_nil⟩
  have htook (tick : Tick) : looked true ∉ [took tick] := by
    rw [List.mem_singleton]
    exact looked_ne_took true tick
  induction h with
  | finished => exact .inl ⟨List.not_mem_nil, nofun⟩
  | escaped h herr => exact .inl ⟨looked_notMem_round h, nofun⟩
  | seenIdle => exact hseen.after (htook _)
  | seen tag body => exact hseen.after (htook _)
  | last h hok => exact hseen.after (looked_notMem_round h)
  | @idle hs left tr e rest ih =>
    have hround : looked true ∉ [took .idle, looked false] := by
      rw [List.mem_pair, not_or]
      exact ⟨looked_ne_took true _, looked_true_ne_false⟩
    exact ih.after hround
  | @handled h hok hs left tr e rest ih =>
    have hlook : looked true ∉ [looked false] := by
      rw [List.mem_singleton]
      exact looked_true_ne_false
    exact (ih.after hlook).after (looked_notMem_round h)

/-- Takes, looks and the exchanges of handlers -/
def serves (ev : WorkerSig.Event) : Bool := takes ev || looks ev || (job ev).isSome

theorem serves_course (h : Handling py q handlers) {ev : WorkerSig.Event} (hev : ev ∈ h.course) :
    serves ev = true := by
  obtain ⟨own, -, rfl⟩ := List.mem_map.mp hev
  rfl

theorem Serving.serves (h : Serving ending hs left tr e) : ∀ ev ∈ tr, serves ev = true := by
  induction h with
  | finished => nofun
  | escaped h herr =>
    simp only [List.forall_mem_cons]
    exact ⟨rfl, rfl, fun ev hev => serves_course h hev⟩
  | seenIdle => simp [took, looked, Worker.serves, takes, looks]
  | seen tag body => simp [took, looked, Worker.serves, takes, looks]
  | last h hok =>
    simp only [List.forall_mem_cons, List.forall_mem_append]
    exact ⟨rfl, rfl, fun ev hev => serves_course h hev, rfl, nofun⟩
  | idle rest ih =>
    simp only [List.forall_mem_cons]
    exact ⟨rfl, rfl, ih⟩
  | handled h hok rest ih =>
    simp only [List.forall_mem_cons, List.forall_mem_append]
    exact ⟨rfl, rfl, fun ev hev => serves_course h hev, rfl, ih⟩

/-- A take is followed by a look, and an exchange by another or a look. -/
def Follows (a b : WorkerSig.Event) : Prop :=
  looks a ∨ looks b ∨ ((job a).isSome ∧ (job b).isSome)

theorem isChain_course (h : Handling py q handlers) : h.course.IsChain Follows := by
  unfold Handling.course
  rw [List.isChain_map]
  generalize h.exchanges = exchanges
  induction exchanges with
  | nil => exact .nil
  | cons ev rest ih => exact List.isChain_cons.mpr ⟨fun _ _ => .inr (.inr ⟨rfl, rfl⟩), ih⟩

theorem isChain_look {b : Bool} (h : tr.IsChain Follows) : (looked b :: tr).IsChain Follows :=
  List.isChain_cons.mpr ⟨fun _ _ => .inl rfl, h⟩

theorem isChain_round (h : Handling py q handlers) {b : Bool} (htr : tr.IsChain Follows) :
    (h.took :: looked false :: (h.course ++ looked b :: tr)).IsChain Follows := by
  have hcourse : (h.course ++ looked b :: tr).IsChain Follows := by
    refine List.isChain_append.mpr ⟨isChain_course h, isChain_look htr, ?_⟩
    intro ev _ next hnext
    cases hnext
    exact .inr (.inl rfl)
  apply List.isChain_cons_cons.mpr
  exact ⟨.inr (.inl rfl), isChain_look hcourse⟩

theorem Serving.paced (h : Serving ending hs left tr e) : tr.IsChain Follows := by
  induction h with
  | finished => exact .nil
  | escaped h herr =>
    apply List.isChain_cons_cons.mpr
    exact ⟨.inr (.inl rfl), isChain_look (isChain_course h)⟩
  | last h hok => exact isChain_round h .nil
  | idle rest ih =>
    apply List.isChain_cons_cons.mpr
    exact ⟨.inr (.inl rfl), isChain_look ih⟩
  | handled h hok rest ih => exact isChain_round h ih
  | _ =>
    apply List.isChain_cons_cons.mpr
    exact ⟨.inr (.inl rfl), isChain_look .nil⟩

/-- At most one settlement, and of this delivery -/
def SettlesOwn (tag : Nat) (exchanges : List QueueSig.Event) : Prop :=
  ∃ own : List Settlement, exchanges.filterMap settlement = own ∧ (own.map (·.tag)).Sublist [tag]

section SettlesOwn

variable {metrics requeue ok : Bool} {tag : Nat} {c : Counter} {exchanges : List QueueSig.Event}
variable {result : Except PyExc Unit}

theorem settlesOwn_nil : SettlesOwn tag [] := ⟨[], rfl, List.nil_sublist _⟩

theorem SettlesOwn.cons {ev : QueueSig.Event} (h : SettlesOwn tag exchanges) (hev : settlement ev = none) :
    SettlesOwn tag (ev :: exchanges) := by
  obtain ⟨own, hown, hsub⟩ := h
  exact ⟨own, by rw [List.filterMap_cons_none hev, hown], hsub⟩

theorem settlesOwn_settle (hrun : (settle metrics tag requeue ok c).Runs exchanges result) :
    SettlesOwn tag exchanges := by
  cases ok with
  | true =>
    obtain ⟨-, a, rfl⟩ := runs_settle_true_iff.mp hrun
    refine ⟨[.ack tag], ?_, .refl _⟩
    change Settlement.ack tag :: (counted metrics c).filterMap settlement = _
    rw [filterMap_counted]
  | false =>
    obtain ⟨-, a, rfl⟩ := runs_settle_false_iff.mp hrun
    exact ⟨[.nack tag requeue], rfl, .refl _⟩

theorem settlesOwn_park {body : Bytes} {reason : String}
    (hrun : (park metrics q tag body reason).Runs exchanges result) : SettlesOwn tag exchanges := by
  obtain ⟨ok, rest, rfl, hrest⟩ := Prog.runs_op_iff.mp hrun
  exact (settlesOwn_settle hrest).cons rfl

theorem settlesOwn_onFailure {failure : Failure}
    (hrun : (onFailure metrics q tag failure).Runs exchanges result) : SettlesOwn tag exchanges := by
  cases failure with
  | escapes e =>
    obtain ⟨rfl, -⟩ := Prog.runs_raise_iff.mp hrun
    exact settlesOwn_nil
  | exhausted body => exact settlesOwn_park hrun
  | retry body attempts =>
    obtain ⟨ok, rest, rfl, hrest⟩ := Prog.runs_op_iff.mp hrun
    exact (settlesOwn_settle hrest).cons rfl
  | unsendable => exact settlesOwn_settle hrun

theorem settlesOwn_onOutcome {f : Envelope.Fields} {out : HandlerOutcome}
    (hrun : (onOutcome metrics py q tag f out).Runs exchanges result) : SettlesOwn tag exchanges := by
  unfold onOutcome at hrun
  cases hout : out.result with
  | ok u =>
    rw [hout] at hrun
    exact settlesOwn_settle hrun
  | error exc =>
    rw [hout] at hrun
    dsimp only at hrun
    split at hrun
    · obtain ⟨rfl, -⟩ := Prog.runs_raise_iff.mp hrun
      exact settlesOwn_nil
    · obtain ⟨rest, rfl, hrest⟩ := runs_count_bind.mp hrun
      obtain ⟨own, hown, hsub⟩ := settlesOwn_onFailure hrest
      exact ⟨own, by rw [List.filterMap_append, filterMap_counted, hown, List.nil_append], hsub⟩

theorem settlesOwn_delivery {body : Bytes}
    (hrun : (delivery metrics py q handlers tag body).Runs exchanges result) : SettlesOwn tag exchanges := by
  unfold delivery at hrun
  cases hverdict : verdict py handlers body with
  | undecodable =>
    rw [hverdict] at hrun
    exact settlesOwn_park hrun
  | broken e =>
    rw [hverdict] at hrun
    obtain ⟨rfl, -⟩ := Prog.runs_raise_iff.mp hrun
    exact settlesOwn_nil
  | unregistered encoded =>
    rw [hverdict] at hrun
    exact settlesOwn_park hrun
  | task t f =>
    rw [hverdict] at hrun
    obtain ⟨out, rest, rfl, hrest⟩ := Prog.runs_op_iff.mp hrun
    exact (settlesOwn_onOutcome hrest).cons rfl

end SettlesOwn

theorem settled_sublist (hs : List (Handling py q handlers)) :
    (((hs.flatMap (·.exchanges)).filterMap settlement).map (·.tag)).Sublist (hs.map (·.tag)) := by
  induction hs with
  | nil => exact .slnil
  | cons h hs ih =>
    have hruns := h.runs
    rw [handleDelivery_eq] at hruns
    obtain ⟨own, hown, hsub⟩ := settlesOwn_delivery hruns
    rw [List.flatMap_cons, List.filterMap_append, List.map_append, hown]
    exact hsub.append ih

def opens : WorkerCall → Bool
  | .cancel => false
  | .closeChannel => false
  | .closeConnection => false
  | _ => true

/-- What is done before anything is taken -/
def prepares : WorkerSig.Event → Bool
  | ⟨.inr .registry, _⟩ => true
  | ⟨.inr (.call c), _⟩ => opens c
  | _ => false

section Around

variable {α : Type} {c : WorkerCall} {p : WorkerProg Bool} {reached : Except PyExc Bool}
variable {swallowed : Except PyExc Unit}

theorem runs_swallowed (hrun : (guarding (call c) (return ())).Runs tr swallowed) :
    (∃ returned, tr = [called c returned]) ∧ swallowed = .ok () := by
  obtain ⟨returned, rest, rfl, hrest⟩ := Prog.runs_op_iff.mp hrun
  cases returned with
  | true =>
    obtain ⟨rfl, rfl⟩ := Prog.runs_ret_iff.mp hrest
    exact ⟨⟨true, rfl⟩, rfl⟩
  | false =>
    obtain ⟨rfl, rfl⟩ := Prog.runs_ret_iff.mp hrest
    exact ⟨⟨false, rfl⟩, rfl⟩

/-- A call under `except Exception` that gives up where it raises. -/
theorem runs_attempt (hrun : (guarding (do call c; p) (return false)).Runs tr reached) :
    (tr = [called c false] ∧ reached = .ok false) ∨
      ∃ rest, tr = called c true :: rest ∧ (guarding p (return false)).Runs rest reached := by
  obtain ⟨returned, rest, rfl, hrest⟩ := Prog.runs_op_iff.mp hrun
  cases returned with
  | true => exact .inr ⟨rest, rfl, hrest⟩
  | false =>
    obtain ⟨rfl, rfl⟩ := Prog.runs_ret_iff.mp hrest
    exact .inl ⟨rfl, rfl⟩

/-- Only calls that open, and the queue is reached where the last of them returned. -/
def Reaches (tr : List WorkerSig.Event) (reached : Except PyExc Bool) : Prop :=
  (∀ ev ∈ tr, prepares ev = true) ∧
    ∃ b, reached = .ok b ∧ (called .basicQos true ∈ tr ↔ b = true)

theorem reaches_refused (hopens : opens c = true) : Reaches [called c false] (.ok false) := by
  refine ⟨fun ev hev => ?_, false, rfl, fun hmem => ?_, nofun⟩
  · cases List.mem_singleton.mp hev
    exact hopens
  · cases List.mem_singleton.mp hmem

theorem Reaches.after (h : Reaches tr reached) (hopens : opens c = true) (hne : c ≠ .basicQos) :
    Reaches (called c true :: tr) reached := by
  obtain ⟨hall, b, rfl, hb⟩ := h
  refine ⟨List.forall_mem_cons.mpr ⟨hopens, hall⟩, b, rfl, ?_⟩
  rw [← hb, List.mem_cons]
  constructor
  · intro hmem
    rcases hmem with heq | hmem
    · cases heq
      exact absurd rfl hne
    · exact hmem
  · exact .inr

theorem reaches_attempt (hopens : opens c = true) (hne : c ≠ .basicQos)
    (hrun : (guarding (do call c; p) (return false)).Runs tr reached)
    (hp : ∀ rest, (guarding p (return false)).Runs rest reached → Reaches rest reached) :
    Reaches tr reached := by
  rcases runs_attempt hrun with ⟨rfl, rfl⟩ | ⟨rest, rfl, hrest⟩
  · exact reaches_refused hopens
  · exact (hp rest hrest).after hopens hne

theorem runs_returning {b : Bool} (hrun : (guarding (return b) (return false)).Runs tr reached) :
    tr = [] ∧ reached = .ok b := Prog.runs_ret_iff.mp hrun

theorem reaches_open (hrun : (guarding
    (do
      call .connection
      call .channel
      call .declareTopology
      call .confirmDelivery
      call .basicQos
      return true)
    (return false)).Runs tr reached) : Reaches tr reached := by
  apply reaches_attempt rfl (by decide) hrun
  intro _ hchannel
  apply reaches_attempt rfl (by decide) hchannel
  intro _ htopology
  apply reaches_attempt rfl (by decide) htopology
  intro _ hconfirm
  apply reaches_attempt rfl (by decide) hconfirm
  intro _ hqos
  rcases runs_attempt hqos with ⟨rfl, rfl⟩ | ⟨rest, rfl, hrest⟩
  · exact reaches_refused rfl
  · obtain ⟨rfl, rfl⟩ := runs_returning hrest
    refine ⟨fun ev hev => ?_, true, rfl, fun _ => rfl, fun _ => List.mem_singleton_self _⟩
    cases List.mem_singleton.mp hev
    rfl

theorem reaches_connect (hrun : connect.Runs tr reached) : Reaches tr reached := by
  rcases hrun.of_bind with ⟨pika, before, after, rfl, hpika, hopen⟩ | ⟨e, rfl, hpika⟩
  · rcases runs_attempt hpika with ⟨rfl, hfalse⟩ | ⟨rest, rfl, hrest⟩
    · cases hfalse
      obtain ⟨rfl, rfl⟩ := Prog.runs_ret_iff.mp hopen
      exact reaches_refused rfl
    · obtain ⟨rfl, htrue⟩ := runs_returning hrest
      cases htrue
      exact (reaches_open hopen).after rfl (by decide)
  · rcases runs_attempt hpika with ⟨-, hfalse⟩ | ⟨rest, -, hrest⟩
    · cases hfalse
    · cases (runs_returning hrest).2

theorem runs_close (hrun : close.Runs tr swallowed) :
    (∃ b c, tr = [called .closeChannel b, called .closeConnection c]) ∧ swallowed = .ok () := by
  rcases hrun.of_bind with ⟨_, before, after, rfl, hchannel, hconnection⟩ | ⟨e, rfl, hchannel⟩
  · obtain ⟨⟨b, rfl⟩, -⟩ := runs_swallowed hchannel
    obtain ⟨⟨c, rfl⟩, rfl⟩ := runs_swallowed hconnection
    exact ⟨⟨b, c, rfl⟩, rfl⟩
  · cases (runs_swallowed hchannel).2

/-- What `main` logs and returns where the loop ended like this, or the exception it lets out. -/
def Ended.exit (processed : Nat) : Ended → Except PyExc (Nat × Nat)
  | .stopped => .ok (processed, 0)
  | .finished (.ok _) => .ok (processed, 0)
  | .finished (.error e) =>
    if e.name = str "KeyboardInterrupt" then .ok (0, 0)
    else if e.isException then .ok (0, 1)
    else .error e

theorem runs_run (hrun : (run py q handlers ending feed).Runs tr r) :
    ∃ (hs : List (Handling py q handlers)) (left : List (Nat × Bytes)) (e : Ended)
      (served : List WorkerSig.Event) (a : Bool),
      tr = served ++ [called .cancel a] ∧ Serving ending hs left served e ∧ r = e.result hs.length := by
  obtain ⟨served, _, rfl, hloop, a, rfl⟩ := Prog.Runs.of_lastly_quiet hrun fun _ _ => runs_swallowed
  obtain ⟨hs, left, e, hserving, rfl⟩ := serving_of_runs hloop
  rw [Nat.zero_add]
  exact ⟨hs, left, e, served, a, rfl, hserving, rfl⟩

theorem runs_outcome {exit : Except PyExc (Nat × Nat)}
    (hrun : (outcome (run py q handlers ending feed)).Runs tr exit) :
    ∃ (hs : List (Handling py q handlers)) (left : List (Nat × Bytes)) (e : Ended)
      (served : List WorkerSig.Event) (a : Bool),
      tr = served ++ [called .cancel a] ∧ Serving ending hs left served e ∧ exit = e.exit hs.length := by
  rcases hrun.of_catch with ⟨x, rfl, hreturned⟩ | ⟨x, before, after, rfl, hraised, hexit⟩
  · rcases hreturned.of_bind with ⟨n, before, after, rfl, hn, hx⟩ | ⟨y, hy, -⟩
    · obtain ⟨rfl, hpair⟩ := Prog.runs_ret_iff.mp hx
      cases hpair
      obtain ⟨hs, left, e, served, a, rfl, hserving, hresult⟩ := runs_run hn
      refine ⟨hs, left, e, served, a, List.append_nil _, hserving, ?_⟩
      cases e with
      | stopped =>
        cases hresult
        rfl
      | finished how =>
        cases how with
        | ok u =>
          cases hresult
          rfl
        | error y => cases hresult
    · cases hy
  · rcases hraised.of_bind with ⟨n, _, rest, rfl, -, hx⟩ | ⟨y, hy, hrun'⟩
    · cases (Prog.runs_ret_iff.mp hx).2
    · cases hy
      obtain ⟨hs, left, e, served, a, rfl, hserving, hresult⟩ := runs_run hrun'
      obtain rfl : e = .finished (.error x) := by
        cases e with
        | stopped => cases hresult
        | finished how =>
          cases how with
          | ok u => cases hresult
          | error y =>
            cases hresult
            rfl
      have hend : after = [] ∧ exit =
          if x.name = str "KeyboardInterrupt" then .ok (0, 0)
          else if x.isException then .ok (0, 1)
          else .error x := by
        split_ifs at hexit ⊢
        · exact Prog.runs_ret_iff.mp hexit
        · exact Prog.runs_ret_iff.mp hexit
        · exact Prog.runs_raise_iff.mp hexit
      obtain ⟨rfl, rfl⟩ := hend
      exact ⟨hs, left, _, served, a, List.append_nil _, hserving, rfl⟩

end Around

/-- The end of a process that has been connected -/
def closing (a b c : Bool) (log : List WorkerSig.Event) : List WorkerSig.Event :=
  called .cancel a :: called .closeChannel b :: called .closeConnection c :: log

/-- The log line and the result of a process that has been connected -/
def Exits (e : Ended) (processed : Nat) (log : List WorkerSig.Event) (r : Except PyExc Nat) : Prop :=
  match e.exit processed with
  | .ok (n, rc) => log = [logged n rc] ∧ r = .ok rc
  | .error x => log = [] ∧ r = .error x

theorem runs_serve (hrun : (serve py q handlers ending feed).Runs tr r) :
    ∃ (hs : List (Handling py q handlers)) (left : List (Nat × Bytes)) (e : Ended)
      (served rest : List WorkerSig.Event) (a b c : Bool),
      tr = served ++ closing a b c rest ∧ Serving ending hs left served e ∧ Exits e hs.length rest r := by
  rcases hrun.of_bind with ⟨⟨n, rc⟩, _, after, rfl, hserved, hlog⟩ | ⟨x, rfl, hserved⟩
  · obtain ⟨_, _, rfl, houtcome, b, c, rfl⟩ := hserved.of_lastly_quiet fun _ _ => runs_close
    obtain ⟨hs, left, e, served, a, rfl, hserving, hexit⟩ := runs_outcome houtcome
    obtain ⟨_, _, rfl, hend⟩ := Prog.runs_op_iff.mp hlog
    obtain ⟨rfl, rfl⟩ := Prog.runs_ret_iff.mp hend
    refine ⟨hs, left, e, served, [logged n rc], a, b, c, ?_, hserving, ?_⟩
    · rw [List.append_assoc, List.append_assoc]
      rfl
    · rw [Exits, ← hexit]
      exact ⟨rfl, rfl⟩
  · obtain ⟨_, _, rfl, houtcome, b, c, rfl⟩ := hserved.of_lastly_quiet fun _ _ => runs_close
    obtain ⟨hs, left, e, served, a, rfl, hserving, hexit⟩ := runs_outcome houtcome
    refine ⟨hs, left, e, served, [], a, b, c, ?_, hserving, ?_⟩
    · rw [List.append_assoc]
      rfl
    · rw [Exits, ← hexit]
      exact ⟨rfl, rfl⟩

theorem runs_findHandlers {found : Except PyExc (Option Registry)} (hrun : findHandlers.Runs tr found) :
    (∃ answer : Except PyExc Registry, tr = [⟨.inr .registry, answer⟩] ∧
        ∀ handlers, found = .ok (some handlers) → answer = .ok handlers) ∧
      ∀ x, found = .error x → x.isException = false := by
  obtain ⟨answer, rest, rfl, hrest⟩ := Prog.runs_op_iff.mp hrun
  cases answer with
  | ok handlers =>
    obtain ⟨rfl, rfl⟩ := Prog.runs_ret_iff.mp hrest
    refine ⟨⟨.ok handlers, rfl, ?_⟩, nofun⟩
    intro handlers' heq
    cases heq
    rfl
  | error x =>
    change (if x.isException = true then .ret none else .raise x :
      WorkerProg (Option Registry)).Runs rest found
      at hrest
    split at hrest
    · obtain ⟨rfl, rfl⟩ := Prog.runs_ret_iff.mp hrest
      exact ⟨⟨.error x, rfl, nofun⟩, nofun⟩
    · rename_i hx
      obtain ⟨rfl, rfl⟩ := Prog.runs_raise_iff.mp hrest
      refine ⟨⟨.error x, rfl, nofun⟩, ?_⟩
      intro y hy
      cases hy
      exact Bool.eq_false_iff.mpr hx

/-- The connection was not made: nothing has been taken. -/
structure Unreached (tr : List WorkerSig.Event) (r : Except PyExc Nat) : Prop where
  prepared : ∀ ev ∈ tr, prepares ev = true
  unreached : called .basicQos true ∉ tr
  exit : r = .ok 0 ∨ r = .ok 1 ∨ ∃ x, r = .error x ∧ x.isException = false

theorem runs_main {enabled : Bool} {url : PyStr}
    (hrun : (main py q ending enabled url feed).Runs tr r) :
    Unreached tr r ∨ ∃ (handlers : Registry) (setup rest : List WorkerSig.Event),
      tr = setup ++ rest ∧ (∀ ev ∈ setup, prepares ev = true) ∧ registered handlers ∈ setup ∧
        called .basicQos true ∈ setup ∧ (serve py q handlers ending feed).Runs rest r := by
  unfold main at hrun
  split at hrun
  · obtain ⟨rfl, rfl⟩ := Prog.runs_ret_iff.mp hrun
    exact .inl ⟨nofun, List.not_mem_nil, .inl rfl⟩
  split at hrun
  · obtain ⟨rfl, rfl⟩ := Prog.runs_ret_iff.mp hrun
    exact .inl ⟨nofun, List.not_mem_nil, .inl rfl⟩
  have hprepared (answer : Except PyExc Registry) :
      ∀ ev ∈ [(⟨.inr .registry, answer⟩ : WorkerSig.Event)], prepares ev = true := by
    intro ev hev
    cases List.mem_singleton.mp hev
    rfl
  have hunreached (answer : Except PyExc Registry) :
      called .basicQos true ∉ [(⟨.inr .registry, answer⟩ : WorkerSig.Event)] := by
    intro hmem
    cases List.mem_singleton.mp hmem
  rcases Prog.Runs.of_bind hrun with ⟨found, _, rest, rfl, hfound, hrest⟩ | ⟨x, rfl, hfound⟩
  · obtain ⟨⟨answer, rfl, hanswer⟩, -⟩ := runs_findHandlers hfound
    cases found with
    | none =>
      obtain ⟨rfl, rfl⟩ := Prog.runs_ret_iff.mp hrest
      exact .inl ⟨hprepared answer, hunreached answer, .inr (.inl rfl)⟩
    | some handlers =>
      rcases Prog.Runs.of_bind hrest with
        ⟨reached, opening, after, rfl, hconnect, hafter⟩ | ⟨x, -, hconnect⟩
      · obtain ⟨hopening, b, hb, hqos⟩ := reaches_connect hconnect
        cases hb
        obtain rfl := hanswer handlers rfl
        have hall : ∀ ev ∈ registered handlers :: opening, prepares ev = true :=
          List.forall_mem_append.mpr ⟨hprepared _, hopening⟩
        cases reached with
        | true =>
          exact .inr ⟨handlers, registered handlers :: opening, after, rfl, hall, List.mem_cons_self,
            List.mem_cons_of_mem _ (hqos.mpr rfl), hafter⟩
        | false =>
          obtain ⟨rfl, rfl⟩ := Prog.runs_ret_iff.mp hafter
          rw [List.append_nil]
          refine .inl ⟨hall, ?_, .inr (.inl rfl)⟩
          intro hmem
          rcases List.mem_append.mp hmem with hmem | hmem
          · exact hunreached _ hmem
          · cases hqos.mp hmem
      · obtain ⟨-, b, hb, -⟩ := reaches_connect hconnect
        cases hb
  · obtain ⟨⟨answer, rfl, -⟩, hx⟩ := runs_findHandlers hfound
    exact .inl ⟨hprepared answer, hunreached answer, .inr (.inr ⟨x, rfl, hx x rfl⟩)⟩

def closes : WorkerSig.Event → Bool
  | ⟨.inr (.call c), _⟩ => !opens c
  | _ => false

/-- `hs` are the deliveries that the process has handled, `left` those it was given and left alone. -/
structure WorkedOff (ending : Except PyExc Unit) (tr : List WorkerSig.Event) (r : Except PyExc Nat)
    (hs : List (Handling py q handlers)) (left : List (Nat × Bytes)) : Prop where
  /-- Each is handled, all of it, before the next is taken. -/
  in_turn : tr.filter working = hs.flatMap (fun h => h.took :: h.course) ++
    left.map fun d => took (.delivery d.1 d.2)
  registry : hs ≠ [] → registered handlers ∈ tr
  left_over : left.length ≤ 1 ∧ (left ≠ [] → looked true ∈ tr)
  returned : ∀ h ∈ hs.dropLast, h.result = .ok ()
  paced : (tr.filter serves).IsChain Follows
  settled : (((tr.filterMap job).filterMap settlement).map (·.tag)).Sublist (hs.map (·.tag))
  /-- Once the flag is seen -/
  stopped : ∀ before after, tr = before ++ looked true :: after → r = .ok 0 ∧ ∃ a b c,
    after = [called .cancel a, called .closeChannel b, called .closeConnection c, logged hs.length 0]
  closed : called .basicQos true ∈ tr → ∃ before a b c rest,
    tr = before ++ called .cancel a :: called .closeChannel b :: called .closeConnection c :: rest ∧
      (∀ ev ∈ before, closes ev = false) ∧ ∀ ev ∈ rest, ∃ n rc, ev = logged n rc
  inert : called .basicQos true ∉ tr → ∀ ev ∈ tr, prepares ev = true
  exit : ∀ rc, r = .ok rc → rc = 0 ∨ (rc = 1 ∧ (called .basicQos true ∈ tr →
    ∃ x : PyExc, x.isException = true ∧ (ending = .error x ∨ ∃ h ∈ hs, h.result = .error x)))
  raised : ∀ x, r = .error x → x.isException = false

/-- Events that have no part in the loop -/
structure Outside (tr : List WorkerSig.Event) : Prop where
  working : tr.filter working = []
  serves : tr.filter serves = []
  jobs : tr.filterMap job = []

theorem Outside.unlooked (h : Outside tr) : looked true ∉ tr :=
  fun hmem => List.filter_eq_nil_iff.mp h.serves _ hmem rfl

theorem outside_of_prepares (h : ∀ ev ∈ tr, prepares ev = true) : Outside tr := by
  have hnot {ev : WorkerSig.Event} (hev : ev ∈ tr) :
      working ev = false ∧ serves ev = false ∧ job ev = none := by
    have hprepares := h ev hev
    rcases ev with ⟨o | o, a⟩
    · cases hprepares
    · cases o with
      | registry => exact ⟨rfl, rfl, rfl⟩
      | call c => exact ⟨rfl, rfl, rfl⟩
      | _ => cases hprepares
  constructor
  · exact List.filter_eq_nil_iff.mpr fun ev hev => Bool.eq_false_iff.mp (hnot hev).1
  · exact List.filter_eq_nil_iff.mpr fun ev hev => Bool.eq_false_iff.mp (hnot hev).2.1
  · exact List.filterMap_eq_nil_iff.mpr fun ev hev => (hnot hev).2.2

theorem outside_closing {a b c : Bool} {log : List WorkerSig.Event}
    (hlog : log = [] ∨ ∃ n rc, log = [logged n rc]) : Outside (closing a b c log) := by
  rcases hlog with rfl | ⟨n, rc, rfl⟩ <;> exact ⟨rfl, rfl, rfl⟩

theorem not_closes_of_prepares {ev : WorkerSig.Event} (h : prepares ev = true) : closes ev = false := by
  rcases ev with ⟨o | o, a⟩
  · cases h
  · cases o with
    | call c => exact congrArg not h
    | _ => rfl

theorem not_closes_of_serves {ev : WorkerSig.Event} (h : serves ev = true) : closes ev = false := by
  rcases ev with ⟨o | o, a⟩
  · rfl
  · cases o with
    | call c => cases h
    | _ => rfl

theorem Unreached.workedOff (h : Unreached tr r) :
    WorkedOff ending tr r ([] : List (Handling py q handlers)) [] := by
  have hout := outside_of_prepares h.prepared
  refine ⟨hout.working, fun hne => absurd rfl hne, ⟨Nat.zero_le 1, fun hne => absurd rfl hne⟩, nofun,
    ?_, ?_, ?_, ?_, fun _ => h.prepared, ?_, ?_⟩
  · rw [hout.serves]
    exact .nil
  · rw [hout.jobs]
    exact .slnil
  · rintro before after rfl
    exact absurd (List.mem_append_right _ List.mem_cons_self) hout.unlooked
  · exact fun hreached => absurd hreached h.unreached
  · rintro rc rfl
    rcases h.exit with hzero | hone | ⟨x, hx, -⟩
    · cases hzero
      exact .inl rfl
    · cases hone
      exact .inr ⟨rfl, fun hreached => absurd hreached h.unreached⟩
    · cases hx
  · rintro x rfl
    rcases h.exit with hzero | hone | ⟨y, hy, hexc⟩
    · cases hzero
    · cases hone
    · cases hy
      exact hexc

theorem Serving.exits (h : Serving ending hs left tr e) {n rc : Nat}
    (hexit : e.exit hs.length = .ok (n, rc)) :
    rc = 0 ∨ (rc = 1 ∧
      ∃ x : PyExc, x.isException = true ∧ (ending = .error x ∨ ∃ h ∈ hs, h.result = .error x)) := by
  cases e with
  | stopped =>
    cases hexit
    exact .inl rfl
  | finished how =>
    cases how with
    | ok u =>
      cases hexit
      exact .inl rfl
    | error x =>
      unfold Ended.exit at hexit
      dsimp only at hexit
      split at hexit
      · cases hexit
        exact .inl rfl
      · split at hexit
        · rename_i hx
          cases hexit
          exact .inr ⟨rfl, x, hx, h.raised rfl⟩
        · cases hexit

theorem Ended.exit_error {e : Ended} {n : Nat} {x : PyExc} (h : e.exit n = .error x) :
    x.isException = false := by
  cases e with
  | stopped => cases h
  | finished how =>
    cases how with
    | ok u => cases h
    | error y =>
      unfold Ended.exit at h
      dsimp only at h
      split at h
      · cases h
      · split at h
        · cases h
        · rename_i hy
          cases h
          exact Bool.eq_false_iff.mpr hy

theorem tail_of_unique {α : Type} {x : α} {front back before after : List α} (hfront : x ∉ front)
    (hback : x ∉ back) (h : front ++ x :: back = before ++ x :: after) : after = back := by
  rcases List.append_eq_append_iff.mp h with ⟨middle, -, hrest⟩ | ⟨middle, hfirst, hrest⟩
  · cases middle with
    | nil => exact (List.cons.inj hrest).2.symm
    | cons y middle =>
      refine absurd ?_ hback
      rw [(List.cons.inj hrest).2]
      exact List.mem_append_right middle List.mem_cons_self
  · cases middle with
    | nil => exact (List.cons.inj hrest).2
    | cons y middle =>
      refine absurd ?_ hfront
      rw [hfirst, (List.cons.inj hrest).1]
      exact List.mem_append_right before List.mem_cons_self

theorem Serving.stopped_tail {setup served back before after : List WorkerSig.Event}
    (h : Serving ending hs left served e) (hsetup : Outside setup) (hback : Outside back)
    (heq : setup ++ (served ++ back) = before ++ looked true :: after) : e = .stopped ∧ after = back := by
  rcases h.stops with ⟨hnot, -⟩ | ⟨he, front, rfl, hfront⟩
  · have hmem : looked true ∈ setup ++ (served ++ back) := by
      rw [heq]
      exact List.mem_append_right before List.mem_cons_self
    rw [List.mem_append, List.mem_append] at hmem
    rcases hmem with hmem | hmem | hmem
    · exact absurd hmem hsetup.unlooked
    · exact absurd hmem hnot
    · exact absurd hmem hback.unlooked
  · have hbefore : looked true ∉ setup ++ front := by
      rw [List.mem_append, not_or]
      exact ⟨hsetup.unlooked, hfront⟩
    have hwhole : setup ++ front ++ looked true :: back = before ++ looked true :: after := by
      rw [← heq, List.append_assoc, List.append_assoc]
      rfl
    exact ⟨he, tail_of_unique hbefore hback.unlooked hwhole⟩

theorem Exits.log {n : Nat} {log : List WorkerSig.Event} (h : Exits e n log r) :
    log = [] ∨ ∃ n rc, log = [logged n rc] := by
  unfold Exits at h
  split at h
  · exact .inr ⟨_, _, h.1⟩
  · exact .inl h.1

theorem Exits.code {log : List WorkerSig.Event} (h : Exits e hs.length log r)
    (hserving : Serving ending hs left tr e) {rc : Nat} (hrc : r = .ok rc) :
    rc = 0 ∨ (rc = 1 ∧
      ∃ x : PyExc, x.isException = true ∧ (ending = .error x ∨ ∃ h ∈ hs, h.result = .error x)) := by
  unfold Exits at h
  split at h
  · rename_i n rc' hexit
    rw [h.2] at hrc
    cases hrc
    exact hserving.exits hexit
  · rw [h.2] at hrc
    cases hrc

theorem Exits.raised {n : Nat} {log : List WorkerSig.Event} {x : PyExc} (h : Exits e n log r)
    (hx : r = .error x) : x.isException = false := by
  unfold Exits at h
  split at h
  · rw [h.2] at hx
    cases hx
  · rename_i y hexit
    rw [h.2] at hx
    cases hx
    exact Ended.exit_error hexit

theorem Serving.left_seen (h : Serving ending hs left tr e) (hne : left ≠ []) : looked true ∈ tr := by
  rcases h.stops with ⟨-, hnot⟩ | ⟨-, front, rfl, -⟩
  · exact absurd (h.leaves.2 hne) hnot
  · exact List.mem_append_right front (List.mem_singleton_self _)

/-- A process that has been connected -/
theorem Serving.workedOff {setup served log : List WorkerSig.Event} {a b c : Bool}
    (h : Serving ending hs left served e) (hsetup : ∀ ev ∈ setup, prepares ev = true)
    (hregistry : registered handlers ∈ setup) (hqos : called .basicQos true ∈ setup)
    (hexits : Exits e hs.length log r) :
    WorkedOff ending (setup ++ (served ++ closing a b c log)) r hs left := by
  have hbefore := outside_of_prepares hsetup
  have hafter : Outside (closing a b c log) := outside_closing hexits.log
  have hreached : called .basicQos true ∈ setup ++ (served ++ closing a b c log) :=
    List.mem_append_left _ hqos
  constructor
  · rw [List.filter_append, List.filter_append, hbefore.working, hafter.working, List.nil_append,
      List.append_nil]
    exact h.in_turn
  · exact fun _ => List.mem_append_left _ hregistry
  · exact ⟨h.leaves.1, fun hne =>
      List.mem_append_right setup (List.mem_append_left _ (h.left_seen hne))⟩
  · exact h.returned
  · rw [List.filter_append, List.filter_append, hbefore.serves, hafter.serves, List.nil_append,
      List.append_nil, List.filter_eq_self.mpr h.serves]
    exact h.paced
  · have hjobs : (setup ++ (served ++ closing a b c log)).filterMap job = hs.flatMap (·.exchanges) := by
      rw [List.filterMap_append, List.filterMap_append, hbefore.jobs, hafter.jobs, List.nil_append,
        List.append_nil, h.jobs]
    rw [hjobs]
    exact settled_sublist hs
  · intro before after heq
    obtain ⟨rfl, rfl⟩ := h.stopped_tail hbefore hafter heq
    obtain ⟨rfl, rfl⟩ := hexits
    exact ⟨rfl, a, b, c, rfl⟩
  · intro _
    refine ⟨setup ++ served, a, b, c, log, (List.append_assoc _ _ _).symm, ?_, ?_⟩
    · intro ev hev
      rcases List.mem_append.mp hev with hev | hev
      · exact not_closes_of_prepares (hsetup ev hev)
      · exact not_closes_of_serves (h.serves ev hev)
    · intro ev hev
      rcases hexits.log with rfl | ⟨n, rc, rfl⟩
      · cases hev
      · exact ⟨n, rc, List.mem_singleton.mp hev⟩
  · exact fun hnot => absurd hreached hnot
  · exact fun rc hrc => (hexits.code h hrc).imp_right fun hone => ⟨hone.1, fun _ => hone.2⟩
  · exact fun x => hexits.raised

/-- Over every run of the process, whatever the broker, the handlers and the signals do. -/
theorem worked_off {enabled : Bool} {url : PyStr} (hrun : (main py q ending enabled url feed).Runs tr r) :
    ∃ (handlers : Registry) (hs : List (Handling py q handlers)) (left : List (Nat × Bytes)),
      WorkedOff ending tr r hs left := by
  rcases runs_main hrun with hunreached | ⟨handlers, setup, rest, rfl, hsetup, hregistry, hqos, hserve⟩
  · exact ⟨fun _ => false, [], [], hunreached.workedOff⟩
  · obtain ⟨hs, left, e, served, log, a, b, c, rfl, hserving, hexit⟩ := runs_serve hserve
    exact ⟨handlers, hs, left, hserving.workedOff hsetup hregistry hqos hexit⟩

end Runs

/-- Everything returns, there is a handler for nothing, and no signal comes. -/
def calmly : (o : WorkerSig.Op) → WorkerSig.Ans o
  | .inl .ensureChannel => true
  | .inl (.basicPublish _) => true
  | .inl (.basicAck _) => true
  | .inl (.basicNack _ _) => true
  | .inl (.handle _ payload) => (⟨payload, .ok ()⟩ : HandlerOutcome)
  | .inl (.inc _) => ()
  | .inr .registry => (.ok fun _ => false : Except PyExc Registry)
  | .inr (.call _) => true
  | .inr (.take _) => ()
  | .inr .stopping => false
  | .inr (.logStop _ _) => ()

/-- `{}` comes after an interval in which nothing comes. -/
def bracesRun : List WorkerSig.Event × Except PyExc Nat :=
  Prog.answered calmly (main .braces .default (.ok ()) true (str "amqp://") [.idle, .delivery 7 [0x7B, 0x7D]])

theorem worked_off_braces :
    bracesRun.2 = .ok 0 ∧ ∃ (handlers : Registry) (hs : List (Handling .braces .default handlers))
      (left : List (Nat × Bytes)), WorkedOff (.ok ()) bracesRun.1 bracesRun.2 hs left :=
  ⟨rfl, worked_off (Prog.runs_answered calmly _)⟩

end Worker

end VirtualPerson
