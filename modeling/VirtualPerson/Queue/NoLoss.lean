import VirtualPerson.Queue.Broker

/-!
# No accepted task is lost

The invariant counts a task as held when some copy of it is queued, dead-lettered,
handled, or in flight with a consumer that has not yet secured it elsewhere. A
consumer about to ack a secured delivery does not count, so that copies cannot
vouch for each other.
-/

namespace VirtualPerson

set_option autoImplicit false

open Policy

variable {d : Deployment} {s s' : BrokerState} {task : PyStr}

/-- The exchanges after which a task is safe whatever happens to its delivery. -/
def Secures (py : Stdlib) (task : PyStr) : QueueSig.Event → Prop
  | ⟨.basicPublish m, ok⟩ => ok = true ∧ taskId py m.body = some task
  | ⟨.handle _ _, out⟩ => ∃ u, HandlerOutcome.result out = .ok u
  | _ => False

def Acks (tag : Nat) (e : QueueSig.Event) : Prop := settlement e = some (.ack tag)

/-- Never acks the delivery before securing its task. -/
def AckGuarded (py : Stdlib) (task : PyStr) (tag : Nat) (p : QueueProg Unit) : Prop :=
  p.Guarded (Secures py task) (Acks tag) fun _ => False

def SettlesOnly (tag : Nat) (p : QueueProg Unit) : Prop :=
  p.Guarded (fun _ => False) (fun e => ∃ x, settlement e = some x ∧ x.tag ≠ tag) fun _ => False

def Owes (py : Stdlib) (task : PyStr) (p : QueueProg Bool) : Prop :=
  p.Guarded (Secures py task) (fun _ => False) fun b => b = true

section Programs

variable {py : Stdlib} {q : QueueConfig} {metrics : Bool} {tag : Nat} {handlers : Registry}

theorem taskId_encode (hpy : py.RoundTrips) {es : PyDict} {body : Bytes}
    (henc : Envelope.encode py es = .ok body) (hid : PyDict.get? es (str "id") = some (.str task)) :
    taskId py body = some task := by
  unfold Envelope.encode at henc
  cases hdump : py.jsonDumps (.dict es) with
  | none => simp [hdump] at henc
  | some body' =>
    obtain rfl : body' = body := by simpa [hdump] using henc
    obtain ⟨es', hload, hget⟩ := hpy es _ hdump
    simp [taskId, hload, hget, hid]

theorem get?_id_failedEnvelope (f : Envelope.Fields) (payload : PyVal) :
    PyDict.get? (failedEnvelope f payload) (str "id") = PyDict.get? f.envelope (str "id") := by
  have hafter : PyDict.get? (Envelope.afterHandler f.envelope payload) (str "id") =
      PyDict.get? f.envelope (str "id") := by
    unfold Envelope.afterHandler
    split
    · exact PyDict.get?_set_ne _ _ (by decide)
    · exact PyDict.get?_set_ne _ _ (by decide)
    · rfl
  rw [failedEnvelope, PyDict.get?_set_ne _ _ (by decide), hafter]

theorem ackGuarded_nack (requeue : Bool) (c : Counter) :
    AckGuarded py task tag (settle metrics tag requeue false c) :=
  fun _ => .inr ⟨by simp [Acks, settlement], fun h => h⟩

theorem ackGuarded_publish {m : Publish} (requeue : Bool) (c : Counter)
    (hm : taskId py m.body = some task) :
    AckGuarded py task tag (.op (.basicPublish m) fun ok => settle metrics tag requeue ok c) := by
  intro ok
  cases ok with
  | true => exact .inl ⟨rfl, hm⟩
  | false => exact .inr ⟨by simp [Acks, settlement], ackGuarded_nack requeue c⟩

theorem ackGuarded_count_bind {c : Counter} {p : QueueProg Unit} (h : AckGuarded py task tag p) :
    AckGuarded py task tag (do count metrics c; p) := by
  cases metrics with
  | false => exact h
  | true => exact fun _ => .inr ⟨by simp [Acks, settlement], h⟩

theorem ackGuarded_onFailure (hpy : py.RoundTrips) {f : Envelope.Fields} {payload : PyVal}
    {exc : PyExc} (hid : PyDict.get? f.envelope (str "id") = some (.str task)) :
    AckGuarded py task tag (onFailure metrics q tag (failed py q f payload exc)) := by
  have hid' : PyDict.get? (failedEnvelope f payload) (str "id") = some (.str task) := by
    rw [get?_id_failedEnvelope, hid]
  unfold failed
  split
  · cases exc.repr with
    | none => exact trivial
    | some error =>
      have hid'' : PyDict.get? (PyDict.set (failedEnvelope f payload) (str "error") (.str error))
          (str "id") = some (.str task) := by
        rw [PyDict.get?_set_ne _ _ (by decide), hid']
      simp only
      cases henc : Envelope.encode py
          (PyDict.set (failedEnvelope f payload) (str "error") (.str error)) with
      | error e => exact trivial
      | ok body => exact ackGuarded_publish false _ (taskId_encode hpy henc hid'')
  · cases henc : Envelope.encode py (failedEnvelope f payload) with
    | error e => exact ackGuarded_nack true _
    | ok body => exact ackGuarded_publish true _ (taskId_encode hpy henc hid')

theorem get?_id_of_read {decoded : PyVal} {f : Envelope.Fields} {body : Bytes}
    (hload : py.jsonLoads body = some decoded) (hread : Envelope.read py decoded = .ok f)
    (htask : taskId py body = some task) :
    PyDict.get? f.envelope (str "id") = some (.str task) := by
  rw [Envelope.read_ok hread] at hload
  simp only [taskId, hload] at htask
  split at htask
  · rename_i i hget
    cases htask
    exact hget
  · cases htask

/-- The delivery policy never acks a task's delivery before securing the task. -/
theorem ackGuarded_delivery (hpy : py.RoundTrips) {body : Bytes}
    (htask : taskId py body = some task) :
    AckGuarded py task tag (delivery metrics py q handlers tag body) := by
  unfold delivery
  cases hv : verdict py handlers body with
  | undecodable => exact ackGuarded_publish false _ htask
  | broken e => exact trivial
  | unregistered encoded =>
    obtain ⟨es, f, hload, hread, henc⟩ := verdict_unregistered hv
    exact ackGuarded_publish false _ (taskId_encode hpy henc (get?_id_of_read hload hread htask))
  | task t f =>
    obtain ⟨es, hload, hread⟩ := verdict_task hv
    have hid := get?_id_of_read hload hread htask
    intro out
    cases hres : HandlerOutcome.result out with
    | ok u => exact .inl ⟨u, hres⟩
    | error exc =>
      refine .inr ⟨by simp [Acks, settlement], ?_⟩
      simp only [onOutcome, hres]
      split
      · exact trivial
      · exact ackGuarded_count_bind (ackGuarded_onFailure hpy hid)

theorem settlesOnly_settle (requeue ok : Bool) (c : Counter) :
    SettlesOnly tag (settle metrics tag requeue ok c) := by
  cases ok with
  | false => exact fun _ => .inr ⟨by simp [settlement, Settlement.tag], fun h => h⟩
  | true =>
    refine fun _ => .inr ⟨by simp [settlement, Settlement.tag], ?_⟩
    cases metrics with
    | false => exact fun h => h
    | true => exact fun _ => .inr ⟨by simp [settlement], fun h => h⟩

theorem settlesOnly_publish {m : Publish} (requeue : Bool) (c : Counter) :
    SettlesOnly tag (.op (.basicPublish m) fun ok => settle metrics tag requeue ok c) :=
  fun ok => .inr ⟨by simp [settlement], settlesOnly_settle requeue ok c⟩

theorem settlesOnly_onFailure (x : Failure) : SettlesOnly tag (onFailure metrics q tag x) := by
  cases x with
  | escapes e => exact trivial
  | exhausted body => exact settlesOnly_publish false _
  | retry body attempts => exact settlesOnly_publish true _
  | unsendable => exact settlesOnly_settle true false _

theorem settlesOnly_delivery (body : Bytes) :
    SettlesOnly tag (delivery metrics py q handlers tag body) := by
  unfold delivery
  cases verdict py handlers body with
  | undecodable => exact settlesOnly_publish false _
  | broken e => exact trivial
  | unregistered encoded => exact settlesOnly_publish false _
  | task t f =>
    refine fun out => .inr ⟨by simp [settlement], ?_⟩
    simp only [onOutcome]
    split
    · exact settlesOnly_settle false true _
    · split
      · exact trivial
      · cases metrics with
        | false => exact settlesOnly_onFailure _
        | true => exact fun _ => .inr ⟨by simp [settlement], settlesOnly_onFailure _⟩

theorem owes_enqueue (hpy : py.RoundTrips) (at_ taskType : PyStr) (payload : PyVal) :
    Owes py task (RabbitMQTaskQueue.enqueue py q task at_ taskType payload) := by
  refine fun channel => .inr ⟨fun h => h, ?_⟩
  cases channel with
  | false => simp [Prog.Guarded]
  | true =>
    cases henc : Envelope.encode py (Envelope.new task at_ taskType payload) with
    | error e =>
      have he : e.isException = true := by
        unfold Envelope.encode at henc
        split at henc <;> cases henc
        rfl
      simp [exceptException, he, Prog.Guarded]
    | ok body =>
      intro ok
      cases ok with
      | true => exact .inl ⟨rfl, taskId_encode hpy henc rfl⟩
      | false => exact .inr ⟨fun h => h, Bool.false_ne_true⟩

end Programs

/-- A copy of the task rests in a queue, or its handler has returned. -/
def Stored (d : Deployment) (s : BrokerState) (task : PyStr) : Prop :=
  (∃ body ∈ s.work, taskId d.py body = some task) ∨
    (∃ body ∈ s.dlq, taskId d.py body = some task) ∨ task ∈ s.handled

/-- The consumer holds an unsettled delivery of the task and will not ack it before
the task is safe elsewhere. -/
structure Carries (py : Stdlib) (cs : ConsumerState) (tag : Nat) (task : PyStr) : Prop where
  unsettled : tag ∈ cs.unsettled
  copy : ∃ body, cs.log[tag]? = some body ∧ taskId py body = some task
  guarded : ∀ p, cs.running = some (tag, p) → AckGuarded py task tag p

def Held (d : Deployment) (s : BrokerState) (task : PyStr) : Prop :=
  Stored d s task ∨ ∃ c tag, Carries d.py (s.consumers c) tag task

/-- A running delivery settles only itself and was received before. -/
def Own (s : BrokerState) : Prop :=
  ∀ c tag p, (s.consumers c).running = some (tag, p) →
    SettlesOnly tag p ∧ tag < (s.consumers c).log.length

structure Inv (d : Deployment) (s : BrokerState) : Prop where
  own : Own s
  producers : ∀ p task prog, s.producers p = some (task, prog) → Owes d.py task prog ∨ Held d s task
  accepted : ∀ task ∈ s.accepted, Held d s task

section Effects

variable {c tag t : Nat} {o : QueueOp} {a : o.Ans} {body : Bytes}

@[simp] theorem onConsumer_self (f : ConsumerState → ConsumerState) :
    (s.onConsumer c f).consumers c = f (s.consumers c) := by
  simp [BrokerState.onConsumer]

theorem onConsumer_ne {c' : Nat} (f : ConsumerState → ConsumerState) (h : c' ≠ c) :
    (s.onConsumer c f).consumers c' = s.consumers c' := by
  simp [BrokerState.onConsumer, h]

theorem stored_publish_of_stored (m : Publish) (h : Stored d s task) :
    Stored d (s.publish d m) task := by
  unfold BrokerState.publish
  split
  · rcases h with h | ⟨b, hb, ht⟩ | h
    · exact .inl h
    · exact .inr (.inl ⟨b, List.mem_cons_of_mem _ hb, ht⟩)
    · exact .inr (.inr h)
  · rcases h with ⟨b, hb, ht⟩ | h
    · exact .inl ⟨b, List.mem_cons_of_mem _ hb, ht⟩
    · exact .inr h

theorem stored_publish {m : Publish} (hm : taskId d.py m.body = some task) :
    Stored d (s.publish d m) task := by
  unfold BrokerState.publish
  split
  · exact .inr (.inl ⟨m.body, List.mem_cons_self, hm⟩)
  · exact .inl ⟨m.body, List.mem_cons_self, hm⟩

theorem stored_returnBody_of_stored (requeue : Bool) (h : Stored d s task) :
    Stored d (s.returnBody body requeue) task := by
  unfold BrokerState.returnBody
  split
  · rcases h with ⟨b, hb, ht⟩ | h
    · exact .inl ⟨b, List.mem_cons_of_mem _ hb, ht⟩
    · exact .inr h
  · rcases h with h | ⟨b, hb, ht⟩ | h
    · exact .inl h
    · exact .inr (.inl ⟨b, List.mem_cons_of_mem _ hb, ht⟩)
    · exact .inr (.inr h)

theorem stored_returnBody (requeue : Bool) (hbody : taskId d.py body = some task) :
    Stored d (s.returnBody body requeue) task := by
  unfold BrokerState.returnBody
  split
  · exact .inl ⟨body, List.mem_cons_self, hbody⟩
  · exact .inr (.inl ⟨body, List.mem_cons_self, hbody⟩)

theorem stored_requeueAll_of_stored (tags : List Nat) (h : Stored d s task) :
    Stored d (s.requeueAll c tags) task := by
  rcases h with ⟨b, hb, ht⟩ | h
  · exact .inl ⟨b, List.mem_append_right _ hb, ht⟩
  · exact .inr h

theorem stored_requeueAll {tags : List Nat} (hmem : tag ∈ tags)
    (hcopy : ∃ body, (s.consumers c).log[tag]? = some body ∧ taskId d.py body = some task) :
    Stored d (s.requeueAll c tags) task := by
  obtain ⟨b, hb, ht⟩ := hcopy
  exact .inl ⟨b, List.mem_append_left _ (List.mem_filterMap.mpr ⟨tag, hmem, hb⟩), ht⟩

theorem returnBody_consumers (requeue : Bool) :
    (s.returnBody body requeue).consumers = s.consumers := by
  cases requeue <;> rfl

theorem publish_consumers (m : Publish) : (s.publish d m).consumers = s.consumers := by
  unfold BrokerState.publish
  split <;> rfl

theorem returnBody_books (requeue : Bool) :
    (s.returnBody body requeue).producers = s.producers ∧
      (s.returnBody body requeue).accepted = s.accepted := by
  cases requeue <;> exact ⟨rfl, rfl⟩

theorem publish_books (m : Publish) :
    (s.publish d m).producers = s.producers ∧ (s.publish d m).accepted = s.accepted := by
  unfold BrokerState.publish
  split <;> exact ⟨rfl, rfl⟩

namespace Effect

theorem frame (h : Effect d c tag o a s s') {c' : Nat} (hc : c' ≠ c) :
    s'.consumers c' = s.consumers c' := by
  cases h with
  | published m ok => rw [publish_consumers]
  | acked t ok => exact onConsumer_ne _ hc
  | nacked ok hmem hbody => rw [onConsumer_ne _ hc, returnBody_consumers]
  | _ => rfl

theorem log_running (h : Effect d c tag o a s s') :
    (s'.consumers c).log = (s.consumers c).log ∧
      (s'.consumers c).running = (s.consumers c).running := by
  cases h with
  | published m ok => rw [publish_consumers]; exact ⟨rfl, rfl⟩
  | acked t ok => rw [onConsumer_self]; exact ⟨rfl, rfl⟩
  | nacked ok hmem hbody => rw [onConsumer_self, returnBody_consumers]; exact ⟨rfl, rfl⟩
  | _ => exact ⟨rfl, rfl⟩

theorem books (h : Effect d c tag o a s s') :
    s'.producers = s.producers ∧ s'.accepted = s.accepted := by
  cases h with
  | published m ok => exact publish_books m
  | nacked ok hmem hbody => exact returnBody_books _
  | _ => exact ⟨rfl, rfl⟩

theorem stored (h : Effect d c tag o a s s') (hs : Stored d s task) : Stored d s' task := by
  cases h with
  | published m ok => exact stored_publish_of_stored m hs
  | nacked ok hmem hbody => exact stored_returnBody_of_stored _ hs
  | handled hout =>
    rcases hs with hs | hs | hs
    · exact .inl hs
    · exact .inr (.inl hs)
    · exact .inr (.inr (List.mem_append_right _ hs))
  | _ => exact hs

theorem secured (h : Effect d c tag o a s s') (hsec : Secures d.py task ⟨o, a⟩)
    (hcopy : ∃ body, (s.consumers c).log[tag]? = some body ∧ taskId d.py body = some task) :
    Stored d s' task := by
  cases h with
  | published m ok => exact stored_publish hsec.2
  | refused m => exact absurd hsec.1 Bool.false_ne_true
  | handled hout =>
    obtain ⟨b, hb, ht⟩ := hcopy
    right
    right
    apply List.mem_append_left
    simp [hb, ht]
  | failed hout =>
    obtain ⟨u, hu⟩ := hsec
    rw [hout] at hu
    cases hu
  | _ => exact hsec.elim

/-- An unsettled delivery stays unsettled, goes back to a queue, or was acked. -/
theorem unsettled (h : Effect d c tag o a s s') (hmem : t ∈ (s.consumers c).unsettled)
    (hcopy : ∃ body, (s.consumers c).log[t]? = some body ∧ taskId d.py body = some task) :
    t ∈ (s'.consumers c).unsettled ∨ Stored d s' task ∨ Acks t ⟨o, a⟩ := by
  cases h with
  | published m ok => rw [publish_consumers]; exact .inl hmem
  | acked t' ok =>
    by_cases ht : t = t'
    · exact .inr (.inr (by rw [ht]; rfl))
    · left
      rw [onConsumer_self]
      exact List.mem_filter.mpr ⟨hmem, by simpa using ht⟩
  | @nacked _ t' requeue body ok hmem' hbody =>
    by_cases ht : t = t'
    · obtain ⟨b, hb, htask⟩ := hcopy
      obtain rfl : b = body := by
        rw [ht, hbody] at hb
        exact (Option.some.inj hb).symm
      exact .inr (.inl (stored_returnBody (s := s) requeue htask))
    · left
      rw [onConsumer_self, returnBody_consumers]
      exact List.mem_filter.mpr ⟨hmem, by simpa using ht⟩
  | _ => exact .inl hmem

end Effect

namespace ProducerEffect

theorem frame (h : ProducerEffect d o a s s') :
    s'.consumers = s.consumers ∧ s'.producers = s.producers ∧ s'.accepted = s.accepted := by
  cases h with
  | published m ok => exact ⟨publish_consumers m, publish_books m⟩
  | _ => exact ⟨rfl, rfl, rfl⟩

theorem stored (h : ProducerEffect d o a s s') (hs : Stored d s task) : Stored d s' task := by
  cases h with
  | published m ok => exact stored_publish_of_stored m hs
  | _ => exact hs

theorem secured (h : ProducerEffect d o a s s') (hsec : Secures d.py task ⟨o, a⟩) :
    Stored d s' task := by
  cases h with
  | channel b => exact hsec.elim
  | published m ok => exact stored_publish hsec.2
  | refused m => exact absurd hsec.1 Bool.false_ne_true

theorem held (h : ProducerEffect d o a s s') (hs : Held d s task) : Held d s' task := by
  rcases hs with hs | ⟨c, tag, hc⟩
  · exact .inl (h.stored hs)
  · exact .inr ⟨c, tag, by rw [h.frame.1]; exact hc⟩

end ProducerEffect

end Effects

section Steps

variable {c : Nat} {l : BrokerAction}

theorem held_onConsumer {f : ConsumerState → ConsumerState}
    (hf : ∀ tag, Carries d.py (s.consumers c) tag task →
      Carries d.py (f (s.consumers c)) tag task ∨ Stored d (s.onConsumer c f) task)
    (h : Held d s task) : Held d (s.onConsumer c f) task := by
  rcases h with h | ⟨c', tag, hc⟩
  · exact .inl h
  · by_cases hcc : c' = c
    · subst hcc
      rcases hf tag hc with hc | hs
      · exact .inr ⟨c', tag, by rw [onConsumer_self]; exact hc⟩
      · exact .inl hs
    · exact .inr ⟨c', tag, by rw [onConsumer_ne _ hcc]; exact hc⟩

theorem held_consumerStep {s' : BrokerState} {tag : Nat} {o : QueueOp}
    {k : o.Ans → QueueProg Unit} {a : o.Ans} (hown : Own s)
    (hrun : (s.consumers c).running = some (tag, .op o k)) (heff : Effect d c tag o a s s')
    (h : Held d s task) :
    Held d (s'.onConsumer c fun cs => { cs with running := some (tag, k a) }) task := by
  rcases h with h | ⟨c', t, hc⟩
  · exact .inl (heff.stored h)
  · by_cases hcc : c' = c
    · subst hcc
      obtain ⟨hlog, hrunning⟩ := heff.log_running
      have hcopy : ∃ body, (s'.consumers c').log[t]? = some body ∧
          taskId d.py body = some task := by
        rw [hlog]
        exact hc.copy
      by_cases ht : t = tag
      · subst ht
        rcases (hc.guarded _ hrun).step a with hsec | ⟨hnack, hrest⟩
        · exact .inl (heff.secured hsec hc.copy)
        · rcases heff.unsettled hc.unsettled hc.copy with hmem | hs | hack
          · refine .inr ⟨c', t, ?_⟩
            rw [onConsumer_self]
            exact ⟨hmem, hcopy, fun p hp => by cases hp; exact hrest⟩
          · exact .inl hs
          · exact absurd hack hnack
      · rcases heff.unsettled hc.unsettled hc.copy with hmem | hs | hack
        · refine .inr ⟨c', t, ?_⟩
          rw [onConsumer_self]
          exact ⟨hmem, hcopy, fun p hp => by cases hp; exact absurd rfl ht⟩
        · exact .inl hs
        · rcases (hown _ _ _ hrun).1.step a with hfalse | ⟨honly, -⟩
          · exact hfalse.elim
          · exact absurd ⟨_, hack, ht⟩ honly
    · refine .inr ⟨c', t, ?_⟩
      rw [onConsumer_ne _ hcc, heff.frame hcc]
      exact hc

theorem held_step (hpy : d.py.RoundTrips) (hown : Own s) (h : Held d s task)
    (hst : BrokerStep d s l s') : Held d s' task := by
  cases hst with
  | enqueue id at_ taskType payload hidle => exact h
  | producerStep a hrun heff => exact heff.held h
  | producerReturns hrun => exact h
  | producerRaises hrun => exact h
  | @deliver c before after body hopen hwork =>
    -- the delivered copy becomes a delivery that nothing runs yet
    have hfresh : ∀ p, (s.consumers c).running ≠ some ((s.consumers c).log.length, p) :=
      fun p hp => absurd (hown _ _ _ hp).2 (Nat.lt_irrefl _)
    rcases h with (⟨b, hb, ht⟩ | h) | ⟨c', tag, hc⟩
    · rw [hwork] at hb
      rcases List.mem_append.mp hb with hb | hb
      · exact .inl (.inl ⟨b, List.mem_append_left _ hb, ht⟩)
      · rcases List.mem_cons.mp hb with rfl | hb
        · refine .inr ⟨c, (s.consumers c).log.length, ?_⟩
          rw [onConsumer_self]
          exact ⟨by simp [ConsumerState.receive], ⟨b, by simp [ConsumerState.receive], ht⟩,
            fun p hp => absurd hp (hfresh p)⟩
        · exact .inl (.inl ⟨b, List.mem_append_right _ hb, ht⟩)
    · exact .inl (.inr h)
    · by_cases hcc : c' = c
      · subst hcc
        obtain ⟨b, hb, ht⟩ := hc.copy
        refine .inr ⟨c', tag, ?_⟩
        rw [onConsumer_self]
        refine ⟨List.mem_append_left _ hc.unsettled, ⟨b, ?_, ht⟩, hc.guarded⟩
        have hlt : tag < (s.consumers c').log.length := (List.getElem?_eq_some_iff.mp hb).1
        simp only [ConsumerState.receive]
        rw [List.getElem?_append_left hlt]
        exact hb
      · refine .inr ⟨c', tag, ?_⟩
        rw [onConsumer_ne _ hcc]
        exact hc
  | @take c tag rest body hidle hstop hnext hbody =>
    refine held_onConsumer (fun t hc => .inl ⟨hc.unsettled, hc.copy, ?_⟩) h
    intro p hp
    cases hp
    obtain ⟨b, hb, ht⟩ := hc.copy
    obtain rfl : b = body := by
      rw [hbody] at hb
      exact (Option.some.inj hb).symm
    rw [Deployment.handleDelivery, Consumer.handleDelivery_eq]
    exact ackGuarded_delivery hpy ht
  | consumerStep a hrun heff => exact held_consumerStep hown hrun heff h
  | consumerReturns hrun =>
    exact held_onConsumer (fun t hc => .inl ⟨hc.unsettled, hc.copy, fun p hp => by cases hp⟩) h
  | consumerRaises hrun =>
    exact held_onConsumer (fun t hc => .inl ⟨hc.unsettled, hc.copy, fun p hp => by cases hp⟩) h
  | stop c => exact held_onConsumer (fun t hc => .inl ⟨hc.unsettled, hc.copy, hc.guarded⟩) h
  | skip hstop hnext =>
    exact held_onConsumer (fun t hc => .inl ⟨hc.unsettled, hc.copy, hc.guarded⟩) h
  | kill c =>
    exact held_onConsumer (fun t hc => .inl ⟨hc.unsettled, hc.copy, fun p hp => by cases hp⟩) h
  | @cancel c hstop =>
    have hq : Held d (s.requeueAll c (s.consumers c).ingress) task :=
      h.imp (stored_requeueAll_of_stored _) id
    apply held_onConsumer _ hq
    intro t hc
    by_cases hmem : t ∈ (s.consumers c).ingress
    · exact .inr (stored_requeueAll (s := s) hmem hc.copy)
    · exact .inl ⟨List.mem_filter.mpr ⟨hc.unsettled, decide_eq_true hmem⟩, hc.copy, hc.guarded⟩
  | loseChannel c =>
    have hq : Held d (s.requeueAll c (s.consumers c).unsettled) task :=
      h.imp (stored_requeueAll_of_stored _) id
    exact held_onConsumer (fun t hc => .inr (stored_requeueAll (s := s) hc.unsettled hc.copy)) hq

/-- A change of one consumer keeps `Own` if what it runs afterwards is its own. -/
theorem own_onConsumer {f : ConsumerState → ConsumerState} (hown : Own s)
    (hf : ∀ tag p, (f (s.consumers c)).running = some (tag, p) →
      SettlesOnly tag p ∧ tag < (f (s.consumers c)).log.length) : Own (s.onConsumer c f) := by
  intro c' tag p hp
  by_cases hcc : c' = c
  · subst hcc
    rw [onConsumer_self] at hp ⊢
    exact hf tag p hp
  · rw [onConsumer_ne _ hcc] at hp ⊢
    exact hown c' tag p hp

theorem own_step (hown : Own s) (hst : BrokerStep d s l s') : Own s' := by
  cases hst with
  | enqueue id at_ taskType payload hidle => exact hown
  | producerStep a hrun heff =>
    intro c tag p hp
    simp only [heff.frame.1] at hp ⊢
    exact hown c tag p hp
  | producerReturns hrun => exact hown
  | producerRaises hrun => exact hown
  | deliver hopen hwork =>
    apply own_onConsumer (s := { s with work := _ }) hown
    intro tag p hp
    obtain ⟨honly, hlt⟩ := hown _ tag p hp
    exact ⟨honly, by simp only [ConsumerState.receive, List.length_append]; omega⟩
  | take hidle hstop hnext hbody =>
    apply own_onConsumer hown
    intro tag p hp
    cases hp
    rw [Deployment.handleDelivery, Consumer.handleDelivery_eq]
    exact ⟨settlesOnly_delivery _, (List.getElem?_eq_some_iff.mp hbody).1⟩
  | @consumerStep s' c tag o k a hrun heff =>
    have hown' : Own s' := by
      intro c' t p hp
      by_cases hcc : c' = c
      · subst hcc
        obtain ⟨hlog, hrunning⟩ := heff.log_running
        rw [hrunning] at hp
        rw [hlog]
        exact hown c' t p hp
      · rw [heff.frame hcc] at hp ⊢
        exact hown c' t p hp
    apply own_onConsumer hown'
    intro t p hp
    cases hp
    obtain ⟨honly, hlt⟩ := hown c tag _ hrun
    rcases honly.step a with hfalse | ⟨-, hrest⟩
    · exact hfalse.elim
    · exact ⟨hrest, by simpa only [heff.log_running.1] using hlt⟩
  | consumerReturns hrun =>
    apply own_onConsumer hown
    intro tag p hp
    cases hp
  | consumerRaises hrun =>
    apply own_onConsumer hown
    intro tag p hp
    cases hp
  | stop c => exact own_onConsumer hown fun tag p hp => hown c tag p hp
  | @skip c tag rest hstop hnext => exact own_onConsumer hown fun tag p hp => hown c tag p hp
  | @cancel c hstop =>
    exact own_onConsumer (s := s.requeueAll c _) hown fun tag p hp => hown c tag p hp
  | loseChannel c =>
    exact own_onConsumer (s := s.requeueAll c _) hown fun tag p hp => hown c tag p hp
  | kill c =>
    apply own_onConsumer hown
    intro tag p hp
    cases hp

theorem inv_step (hpy : d.py.RoundTrips) (h : Inv d s) (hst : BrokerStep d s l s') : Inv d s' := by
  have hheld : ∀ {task}, Held d s task → Held d s' task :=
    fun ht => held_step hpy h.own ht hst
  have hacc : ∀ task ∈ s.accepted, Held d s' task := fun task ht => hheld (h.accepted task ht)
  have hprod : ∀ p task prog, s.producers p = some (task, prog) →
      Owes d.py task prog ∨ Held d s' task :=
    fun p task prog hp => (h.producers p task prog hp).imp id hheld
  have hown := own_step h.own hst
  cases hst with
  | @enqueue p id at_ taskType payload hidle =>
    refine ⟨hown, fun p' task prog hp => ?_, hacc⟩
    by_cases hpp : p' = p
    · subst hpp
      simp only [Function.update_self, Option.some.injEq, Prod.mk.injEq] at hp
      obtain ⟨rfl, rfl⟩ := hp
      exact .inl (owes_enqueue hpy at_ taskType payload)
    · simp only [Function.update_of_ne hpp] at hp
      exact hprod p' task prog hp
  | @producerStep s' p id o k a hrun heff =>
    refine ⟨hown, fun p' task prog hp => ?_, fun task ht => ?_⟩
    · by_cases hpp : p' = p
      · subst hpp
        simp only [Function.update_self, Option.some.injEq, Prod.mk.injEq] at hp
        obtain ⟨rfl, rfl⟩ := hp
        rcases h.producers _ _ _ hrun with howes | hh
        · rcases howes.step a with hsec | ⟨-, hrest⟩
          · exact .inr (.inl (heff.secured hsec))
          · exact .inl hrest
        · exact .inr (hheld hh)
      · simp only [Function.update_of_ne hpp] at hp
        rw [heff.frame.2.1] at hp
        exact hprod p' task prog hp
    · simp only at ht
      rw [heff.frame.2.2] at ht
      exact hacc task ht
  | @producerReturns p id b hrun =>
    refine ⟨hown, fun p' task prog hp => ?_, fun task ht => ?_⟩
    · by_cases hpp : p' = p
      · subst hpp
        simp at hp
      · simp only [Function.update_of_ne hpp] at hp
        exact hprod p' task prog hp
    · cases b with
      | false => exact hacc task ht
      | true =>
        rcases List.mem_cons.mp ht with rfl | ht
        · rcases h.producers _ _ _ hrun with howes | hh
          · exact absurd rfl howes
          · exact hheld hh
        · exact hacc task ht
  | @producerRaises p id e hrun =>
    refine ⟨hown, fun p' task prog hp => ?_, hacc⟩
    by_cases hpp : p' = p
    · subst hpp
      simp at hp
    · simp only [Function.update_of_ne hpp] at hp
      exact hprod p' task prog hp
  | consumerStep a hrun heff =>
    refine ⟨hown, fun p' task prog hp => ?_, fun task ht => ?_⟩
    · exact hprod p' task prog (heff.books.1 ▸ hp)
    · exact hacc task (heff.books.2 ▸ ht)
  | _ => exact ⟨hown, hprod, hacc⟩

end Steps

theorem inv_initial (h : s.Initial) : Inv d s where
  own c tag p hp := by
    rw [h.1 c] at hp
    cases hp
  producers p task prog hp := by
    rw [h.2.1 p] at hp
    cases hp
  accepted task ht := by
    rw [h.2.2] at ht
    cases ht

/-- Where a task can be: ready in the work queue, in the DLQ, handled, or in flight
with a consumer that has not settled it. -/
def Present (d : Deployment) (s : BrokerState) (task : PyStr) : Prop :=
  (∃ body ∈ s.work, taskId d.py body = some task) ∨
    (∃ body ∈ s.dlq, taskId d.py body = some task) ∨ task ∈ s.handled ∨
    ∃ c tag body, tag ∈ (s.consumers c).unsettled ∧ (s.consumers c).log[tag]? = some body ∧
      taskId d.py body = some task

theorem Held.present (h : Held d s task) : Present d s task := by
  rcases h with (h | h | h) | ⟨c, tag, hc⟩
  · exact .inl h
  · exact .inr (.inl h)
  · exact .inr (.inr (.inl h))
  · obtain ⟨body, hbody, ht⟩ := hc.copy
    exact .inr (.inr (.inr ⟨c, tag, body, hc.unsettled, hbody, ht⟩))

/-- Every task for which `enqueue` returned `True` is present in every reachable state. -/
theorem accepted_task_present (hpy : d.py.RoundTrips) (h : (brokerSystem d).Reachable s) :
    ∀ task ∈ s.accepted, Present d s task := by
  have hinv : Inv d s := h.invariant inv_initial (fun hi hst => inv_step hpy hi hst)
  exact fun task ht => (hinv.accepted task ht).present

def echoEnvelope : PyDict :=
  Envelope.new (str "1") (str "2026-01-01T00:00:00+00:00") (str "echo") (.dict [])

def echoBody : Bytes :=
  (str ("\x7b\"id\": \"1\", \"type\": \"echo\", \"payload\": \x7b\x7d, \"attempts\": 0, " ++
    "\"enqueued_at\": \"2026-01-01T00:00:00+00:00\"\x7d")).map UInt8.ofNat

/-- `json` on one envelope; other values are not written and other bodies not read. -/
def Stdlib.echo : Stdlib where
  jsonLoads body := if body = echoBody then some (.dict echoEnvelope) else none
  jsonDumps
    | .dict [(k₁, .str id), (k₂, .str ty), (k₃, .dict []), (k₄, .int n), (k₅, .str at_)] =>
      if (k₁, id, k₂, ty, k₃) = (str "id", str "1", str "type", str "echo", str "payload") ∧
          (k₄, n, k₅, at_) = (str "attempts", 0, str "enqueued_at", str "2026-01-01T00:00:00+00:00")
      then some echoBody else none
    | _ => none
  intOfStr _ := none

theorem echo_roundTrips : Stdlib.echo.RoundTrips := by
  intro es body h
  simp only [Stdlib.echo] at h
  split at h
  · rename_i k₁ id k₂ ty k₃ k₄ n k₅ at_ heq
    split at h
    · rename_i hfields
      simp only [Prod.mk.injEq] at hfields
      obtain ⟨⟨rfl, rfl, rfl, rfl, rfl⟩, rfl, rfl, rfl, rfl⟩ := hfields
      cases h
      cases heq
      exact ⟨echoEnvelope, by simp [Stdlib.echo], fun _ => rfl⟩
    · cases h
  · cases h

def Deployment.echo : Deployment where
  py := .echo
  exchange := str "vp.tasks"
  queue := str "vp.tasks.q"
  routingKey := str "vp.task"
  dlx := str "vp.tasks.dlx"
  dlq := str "vp.tasks.dlq"
  kind _ := .worker
  maxRetries _ := 3
  handlers _ _ := true

/-- One task is enqueued and accepted; it waits in the work queue. -/
theorem accepted_task_present_echo :
    ∃ s, (brokerSystem .echo).Reachable s ∧ str "1" ∈ s.accepted ∧ Present .echo s (str "1") := by
  let s₀ : BrokerState := ⟨[], [], fun _ => .fresh, fun _ => none, [], []⟩
  have h₀ : (brokerSystem .echo).Reachable s₀ :=
    .of_init ⟨fun _ => rfl, fun _ => rfl, rfl⟩
  have h₁ := h₀.step (.enqueue (p := 0) (str "1") (str "2026-01-01T00:00:00+00:00") (str "echo")
    (.dict []) rfl)
  have h₂ := h₁.step (.producerStep (p := 0) (o := .ensureChannel) true rfl (.channel true))
  have h₃ := h₂.step (.producerStep (p := 0) (o := .basicPublish
    (Channel.message (str "vp.tasks") (str "vp.task") echoBody (some 0) none)) true rfl
    (.published _ true))
  have h₄ := h₃.step (.producerReturns (p := 0) (b := true) rfl)
  exact ⟨_, h₄, List.mem_cons_self, accepted_task_present echo_roundTrips h₄ _ List.mem_cons_self⟩

end VirtualPerson
