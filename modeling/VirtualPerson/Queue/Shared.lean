import VirtualPerson.Once
import VirtualPerson.Queue.Connection

/-!
# The task queue of a process

`get_task_queue` builds the queue of the process once, for any number of threads, and the
module's `enqueue` hands a task to it under the lock of the queue. The steps of all calls
lie between one another in every order.
-/

namespace VirtualPerson

set_option autoImplicit false

open Stateful

/-- Where a call of `enqueue` or `queue_available` stands: still in `get_task_queue`, or with the queue
it got and the lock of that queue. -/
inductive EnqueueAt where
  | getting
  | waits (q : Nat)
  | holds (q : Nat)
  | worked (q : Nat) (answer : Bool)
  | answered (answer : Bool)

/-- `_attempted`, `_queue` and `_init_lock`, the queues that were made, and the lock of each -/
structure SharedQueue where
  once : Once.State (Option Nat)
  queues : List QueueClient
  lock : Nat → Option Nat
  call : Nat → EnqueueAt

/-- `None` where the queue is switched off; else how the first attempt to connect goes, and the
`close()` after one that fails. -/
inductive Making where
  | disabled
  | attempt (o : Setup) (closing : Outcome) (connectionReturns : Bool)

inductive SharedLabel where
  | get (l : Once.Label (Option Nat))
  | make (i : Nat) (m : Making)
  | got (i : Nat)
  | told (i : Nat)
  | lock (i : Nat)
  | work (i : Nat) (o : Setup) (t : QueueClient.Task) (publish : Outcome)
  | unlock (i : Nat)
  | channelClosed (q : Nat)
  | connectionLost (q c : Nat)

namespace SharedLabel

/-- The call that takes the step, if it is not the broker's -/
def call? : SharedLabel → Option Nat
  | .get l => some l.call
  | .make i _ => some i
  | .got i => some i
  | .told i => some i
  | .lock i => some i
  | .work i _ _ _ => some i
  | .unlock i => some i
  | .channelClosed _ => none
  | .connectionLost _ _ => none

end SharedLabel

namespace Making

/-- `q._ensure_channel()` returns a channel. -/
def connects (o : Setup) : Bool :=
  match QueueClient.available o .init with
  | .ok b _ => b
  | .error _ _ => false

/-- What the process does to the queue that it makes -/
def calls : Making → List QueueCall
  | .disabled => []
  | .attempt o closing connectionReturns =>
    if connects o then [.available o] else [.available o, .close closing connectionReturns]

end Making

def SharedLabel.calls : SharedLabel → List QueueCall
  | .make _ m => m.calls
  | .work _ o t publish => [.enqueue o t publish]
  | .channelClosed _ => [.channelClosed]
  | .connectionLost _ c => [.connectionLost c]
  | _ => []

namespace SharedQueue

def start : SharedQueue :=
  { once := .start none, queues := [], lock := fun _ => none, call := fun _ => .getting }

def go (s : SharedQueue) (i : Nat) (c : EnqueueAt) : SharedQueue :=
  { s with call := Function.update s.call i c }

def setLock (s : SharedQueue) (q : Nat) (holder : Option Nat) : SharedQueue :=
  { s with lock := Function.update s.lock q holder }

variable (py : Stdlib)

def touch (s : SharedQueue) (q : Nat) (c : QueueClient) (call : QueueCall) : SharedQueue :=
  { s with queues := s.queues.set q (c.step py call) }

/-- The value of `_queue` -/
def made (s : SharedQueue) : Making → Option Nat
  | .disabled => none
  | .attempt o _ _ => if Making.connects o then some s.queues.length else none

def make (s : SharedQueue) : Making → SharedQueue
  | .disabled => s
  | .attempt o closing connectionReturns =>
    { s with queues := s.queues ++
      [QueueClient.run py (Making.calls (.attempt o closing connectionReturns))] }

/-- `q.enqueue(task_type, payload)`; what it raises the module's `enqueue` turns into `False`. -/
def enqueueAnswer (c : QueueClient) (o : Setup) (t : QueueClient.Task) (publish : Outcome) : Bool :=
  match QueueClient.enqueue py o t publish c with
  | .ok b _ => b
  | .error _ _ => false

end SharedQueue

open SharedQueue in
inductive SharedQueue.Step (py : Stdlib) (enabled : Bool) :
    SharedQueue → SharedLabel → SharedQueue → Prop where
  | get {s : SharedQueue} {l : Once.Label (Option Nat)} {once : Once.State (Option Nat)}
      (hst : Once.Step .afterStore s.once l once) (hl : ∀ i v, l ≠ .build i v) :
      SharedQueue.Step py enabled s (.get l) { s with once }
  | make {s : SharedQueue} {i : Nat} {m : Making} {once : Once.State (Option Nat)}
      (hm : enabled = false ↔ m = .disabled)
      (hst : Once.Step .afterStore s.once (.build i (s.made m)) once) :
      SharedQueue.Step py enabled s (.make i m) { s.make py m with once }
  | gotNone {s : SharedQueue} {i : Nat} (hcall : s.call i = .getting)
      (hgot : s.once.pc i = .returned none) :
      SharedQueue.Step py enabled s (.got i) (s.go i (.answered false))
  | got {s : SharedQueue} {i q : Nat} (hcall : s.call i = .getting)
      (hgot : s.once.pc i = .returned (some q)) :
      SharedQueue.Step py enabled s (.got i) (s.go i (.waits q))
  | told {s : SharedQueue} {i : Nat} {v : Option Nat} (hcall : s.call i = .getting)
      (hgot : s.once.pc i = .returned v) :
      SharedQueue.Step py enabled s (.told i) (s.go i (.answered v.isSome))
  | lock {s : SharedQueue} {i q : Nat} (hcall : s.call i = .waits q) (hfree : s.lock q = none) :
      SharedQueue.Step py enabled s (.lock i) ((s.go i (.holds q)).setLock q (some i))
  | work {s : SharedQueue} {i q : Nat} {c : QueueClient} {o : Setup} {t : QueueClient.Task}
      {publish : Outcome} (hcall : s.call i = .holds q) (hc : s.queues[q]? = some c) :
      SharedQueue.Step py enabled s (.work i o t publish)
        ((s.touch py q c (.enqueue o t publish)).go i (.worked q (enqueueAnswer py c o t publish)))
  | unlock {s : SharedQueue} {i q : Nat} {answer : Bool} (hcall : s.call i = .worked q answer) :
      SharedQueue.Step py enabled s (.unlock i) ((s.go i (.answered answer)).setLock q none)
  | channelClosed {s : SharedQueue} {q : Nat} {c : QueueClient} (hc : s.queues[q]? = some c) :
      SharedQueue.Step py enabled s (.channelClosed q) (s.touch py q c .channelClosed)
  | connectionLost {s : SharedQueue} {q n : Nat} {c : QueueClient} (hc : s.queues[q]? = some c) :
      SharedQueue.Step py enabled s (.connectionLost q n) (s.touch py q c (.connectionLost n))

def SharedQueue.system (py : Stdlib) (enabled : Bool) : System SharedQueue SharedLabel where
  init s := s = .start
  step := SharedQueue.Step py enabled

namespace EnqueueAt

/-- Between the taking and the giving back of the lock of queue `q` -/
def Holds (q : Nat) : EnqueueAt → Prop
  | .holds q' => q' = q
  | .worked q' _ => q' = q
  | _ => False

/-- The queue that a call has got -/
def queue? : EnqueueAt → Option Nat
  | .waits q => some q
  | .holds q => some q
  | .worked q _ => some q
  | _ => none

def rank : EnqueueAt → Nat
  | .getting => 0
  | .waits _ => 1
  | .holds _ => 2
  | .worked _ _ => 3
  | .answered _ => 4

end EnqueueAt

namespace SharedQueue

section

variable {py : Stdlib} {enabled : Bool} {s t : SharedQueue} {l : SharedLabel} {ls : List SharedLabel}
  {i j q : Nat} {c : EnqueueAt}

@[simp] theorem go_self (s : SharedQueue) (i : Nat) (c : EnqueueAt) : (s.go i c).call i = c :=
  Function.update_self ..

theorem go_ne (s : SharedQueue) (c : EnqueueAt) (h : j ≠ i) : (s.go i c).call j = s.call j :=
  Function.update_of_ne h ..

def Exclusive (s : SharedQueue) : Prop := ∀ i q, (s.call i).Holds q ↔ s.lock q = some i

theorem Exclusive.unique (h : s.Exclusive) (hi : (s.call i).Holds q) (hj : (s.call j).Holds q) :
    i = j := by
  rw [h i q] at hi
  rw [h j q, hi] at hj
  exact Option.some_inj.mp hj

theorem Exclusive.go (h : s.Exclusive) (hlock : t.lock = s.lock) (hcall : t.call = (s.go i c).call)
    (hc : ∀ q, c.Holds q ↔ (s.call i).Holds q) : t.Exclusive := by
  intro j q
  rw [hlock, hcall]
  by_cases hj : j = i
  · subst hj
    rw [go_self, hc q]
    exact h j q
  · rw [go_ne s c hj]
    exact h j q

theorem exclusive_start : start.Exclusive := fun _ _ => iff_of_false id nofun

theorem Exclusive.step (h : s.Exclusive) (hst : SharedQueue.Step py enabled s l t) : t.Exclusive := by
  cases hst with
  | get => exact h
  | make hm hst =>
    rename_i i m once
    cases m <;> exact h
  | gotNone hcall => exact h.go rfl rfl fun q => by rw [hcall]; rfl
  | got hcall => exact h.go rfl rfl fun q => by rw [hcall]; rfl
  | told hcall => exact h.go rfl rfl fun q => by rw [hcall]; rfl
  | @lock i q hcall hfree =>
    intro j r
    change ((s.go i _).call j).Holds r ↔ Function.update s.lock q (some i) r = some j
    by_cases hr : r = q
    · subst hr
      rw [Function.update_self, Option.some_inj]
      by_cases hj : j = i
      · subst hj
        rw [go_self]
        exact iff_of_true rfl rfl
      · rw [go_ne s _ hj, h j r, hfree]
        exact iff_of_false nofun fun heq => hj heq.symm
    · rw [Function.update_of_ne hr]
      by_cases hj : j = i
      · subst hj
        rw [go_self, ← h j r, hcall]
        exact iff_of_false (fun heq => hr heq.symm) id
      · rw [go_ne s _ hj]
        exact h j r
  | work hcall hc => exact h.go rfl rfl fun q => by rw [hcall]; rfl
  | @unlock i q answer hcall =>
    intro j r
    change ((s.go i _).call j).Holds r ↔ Function.update s.lock q none r = some j
    have hholds : (s.call i).Holds q := by
      rw [hcall]
      rfl
    by_cases hr : r = q
    · subst hr
      rw [Function.update_self]
      by_cases hj : j = i
      · subst hj
        rw [go_self]
        exact iff_of_false id nofun
      · rw [go_ne s _ hj]
        exact iff_of_false (fun hin => hj (h.unique hin hholds)) nofun
    · rw [Function.update_of_ne hr]
      by_cases hj : j = i
      · subst hj
        rw [go_self, ← h j r, hcall]
        exact iff_of_false id fun heq => hr heq.symm
      · rw [go_ne s _ hj]
        exact h j r
  | channelClosed => exact h
  | connectionLost => exact h

/-- What holds along every run: the queue that was made, if one was, is as the calls leave it one after
another, and a call that is past `get_task_queue` has what it returned. -/
structure Sound (py : Stdlib) (s : SharedQueue) (ls : List SharedLabel) : Prop where
  once : Once.Sound .afterStore none s.once
  queues : s.queues = [] ∧ ls.flatMap SharedLabel.calls = [] ∨
    s.queues = [QueueClient.run py (ls.flatMap SharedLabel.calls)] ∧ s.once.builds ≠ []
  made : ∀ q, some q ∈ s.once.builds → q < s.queues.length
  passed : ∀ i, (∃ v, s.once.pc i = .returned v) ∨ s.call i = .getting
  got : ∀ i q, (s.call i).queue? = some q → s.once.builds = [some q]

theorem sound_start : Sound py .start [] where
  once := Once.sound_start
  queues := .inl ⟨rfl, rfl⟩
  made q hq := by cases hq
  passed _ := .inr rfl
  got i q h := by cases h

theorem Sound.length_le (h : Sound py s ls) : s.queues.length ≤ 1 := by
  rcases h.queues with ⟨hnone, -⟩ | ⟨hone, -⟩
  · rw [hnone]
    exact Nat.zero_le 1
  · rw [hone]
    exact Nat.le_refl 1

theorem Sound.silent (h : Sound py s ls) (hcalls : l.calls = []) : Sound py s (ls ++ [l]) where
  once := h.once
  queues := by
    rw [List.flatMap_append, List.flatMap_singleton, hcalls, List.append_nil]
    exact h.queues
  made := h.made
  passed := h.passed
  got := h.got

/-- A call goes on that is past `get_task_queue`. -/
theorem Sound.go (h : Sound py s ls) (hpassed : ∃ v, s.once.pc i = .returned v)
    (hq : ∀ q, c.queue? = some q → s.once.builds = [some q]) (lock : Nat → Option Nat) :
    Sound py { s.go i c with lock } ls where
  once := h.once
  queues := h.queues
  made := h.made
  passed j := by
    by_cases hj : j = i
    · subst hj
      exact .inl hpassed
    · exact (h.passed j).imp id (go_ne s c hj).trans
  got j q hjq := by
    change ((s.go i c).call j).queue? = some q at hjq
    by_cases hj : j = i
    · subst hj
      rw [go_self] at hjq
      exact hq q hjq
    · rw [go_ne s c hj] at hjq
      exact h.got j q hjq

/-- Something is done to the queue. -/
theorem Sound.touch {d : QueueClient} {call : QueueCall} (h : Sound py s ls) (hcalls : l.calls = [call])
    (hd : s.queues[q]? = some d) : Sound py (s.touch py q d call) (ls ++ [l]) where
  once := h.once
  queues := by
    rcases h.queues with ⟨hnone, -⟩ | ⟨hone, hbuilds⟩
    · rw [hnone, List.getElem?_nil] at hd
      cases hd
    · refine .inr ⟨?_, hbuilds⟩
      rw [hone, List.getElem?_singleton] at hd
      change s.queues.set q (d.step py call) = _
      rw [List.flatMap_append, List.flatMap_singleton, hcalls, QueueClient.run, List.foldl_append, hone]
      split at hd
      · rename_i hq
        rw [hq, ← Option.some_inj.mp hd]
        rfl
      · cases hd
  made r hr := (h.made r hr).trans_eq (List.length_set ..).symm
  passed := h.passed
  got := h.got

/-- A step of `get_task_queue` that makes no queue -/
theorem Sound.get {ol : Once.Label (Option Nat)} {once : Once.State (Option Nat)} (h : Sound py s ls)
    (hst : Once.Step .afterStore s.once ol once) (hbuilds : once.builds = s.once.builds) :
    Sound py { s with once } ls where
  once := h.once.step hst
  queues := by
    change _ ∨ _ ∧ once.builds ≠ []
    rw [hbuilds]
    exact h.queues
  made q hq := h.made q (hbuilds ▸ hq)
  passed i := by
    rcases h.passed i with ⟨v, hv⟩ | hgetting
    · exact .inl ⟨v, hst.returned hv⟩
    · exact .inr hgetting
  got i q hq := hbuilds.trans (h.got i q hq)

/-- The one step that may make a queue -/
theorem Sound.make {m : Making} {once : Once.State (Option Nat)} (h : Sound py s ls)
    (hst : Once.Step .afterStore s.once (.build i (s.made m)) once) :
    Sound py { s.make py m with once } (ls ++ [.make i m]) := by
  have hbuilds : s.once.builds = [] ∧ once.builds = [s.made m] := by
    cases hst with
    | build hpc =>
      have hnil := (h.once.stage_of hpc trivial).2.1
      exact ⟨hnil, congrArg (· ++ [s.made m]) hnil⟩
  obtain ⟨hqueues, hflat⟩ := h.queues.resolve_right fun hsome => hsome.2 hbuilds.1
  have hcalls : (ls ++ [SharedLabel.make i m]).flatMap SharedLabel.calls = m.calls := by
    rw [List.flatMap_append, List.flatMap_singleton, hflat]
    rfl
  constructor
  · exact h.once.step hst
  · rw [hcalls]
    cases m with
    | disabled => exact .inl ⟨hqueues, rfl⟩
    | attempt o closing connectionReturns =>
      refine .inr ⟨?_, ?_⟩
      · change s.queues ++ [_] = _
        rw [hqueues, List.nil_append]
      · change once.builds ≠ []
        rw [hbuilds.2]
        exact List.cons_ne_nil _ _
  · intro q hq
    change some q ∈ once.builds at hq
    rw [hbuilds.2, List.mem_singleton] at hq
    cases m with
    | disabled => cases hq
    | attempt o closing connectionReturns =>
      change some q = if _ then some s.queues.length else none at hq
      split at hq
      · cases hq
        change s.queues.length < (s.queues ++ [_]).length
        rw [List.length_append]
        exact Nat.lt_succ_self _
      · cases hq
  · intro j
    rcases h.passed j with ⟨v, hv⟩ | hgetting
    · exact .inl ⟨v, hst.returned hv⟩
    · cases m <;> exact .inr hgetting
  · intro j q hq
    have hold : (s.call j).queue? = some q := by
      cases m <;> exact hq
    have hsome := h.got j q hold
    rw [hbuilds.1] at hsome
    cases hsome

theorem Sound.step (h : Sound py s ls) (hst : SharedQueue.Step py enabled s l t) :
    Sound py t (ls ++ [l]) := by
  have hpassed : ∀ {i : Nat} {c : EnqueueAt}, s.call i = c → c ≠ .getting →
      ∃ v, s.once.pc i = .returned v := by
    rintro i c rfl hne
    exact (h.passed i).resolve_right hne
  have hsame : ∀ {i q : Nat} {c : EnqueueAt}, s.call i = c → c.queue? = some q →
      s.once.builds = [some q] := by
    rintro i q c rfl hq
    exact h.got i q hq
  have hdone : ∀ (answer : Bool) (q : Nat), (EnqueueAt.answered answer).queue? = some q →
      s.once.builds = [some q] := fun _ _ hq => by cases hq
  cases hst with
  | get hst hl => exact (h.get hst (hst.builds_eq hl)).silent rfl
  | make hm hst => exact h.make hst
  | gotNone hcall hgot => exact (h.go ⟨_, hgot⟩ (hdone false) s.lock).silent rfl
  | @got i q hcall hgot =>
    refine (h.go ⟨_, hgot⟩ ?_ s.lock).silent rfl
    intro r hr
    cases hr
    exact h.once.returned rfl hgot
  | told hcall hgot => exact (h.go ⟨_, hgot⟩ (hdone _) s.lock).silent rfl
  | @lock i q hcall hfree =>
    have hgo := h.go (c := .holds q) (hpassed hcall fun heq => by cases heq)
      (fun r hr => hsame hcall hr) (Function.update s.lock q (some i))
    exact hgo.silent rfl
  | @work i q c o t publish hcall hc =>
    have htouch := h.touch (l := .work i o t publish) rfl hc
    exact htouch.go (c := .worked q (enqueueAnswer py c o t publish))
      (hpassed hcall fun heq => by cases heq) (fun r hr => hsame hcall hr) s.lock
  | unlock hcall =>
    exact (h.go (hpassed hcall fun heq => by cases heq) (hdone _) _).silent rfl
  | channelClosed hc => exact h.touch rfl hc
  | connectionLost hc => exact h.touch rfl hc

theorem Sound.holder (h : Sound py s ls) (hi : (s.call i).Holds q) : s.once.builds = [some q] := by
  apply h.got i q
  cases hcall : s.call i with
  | holds r =>
    rw [hcall] at hi
    exact congrArg some hi
  | worked r answer =>
    rw [hcall] at hi
    exact congrArg some hi
  | _ =>
    rw [hcall] at hi
    exact hi.elim

/-- How many steps a call has taken, at most -/
def rank (s : SharedQueue) (i : Nat) : Nat := (s.once.pc i).rank + (s.call i).rank

theorem rank_le (s : SharedQueue) (i : Nat) : s.rank i ≤ 12 := by
  have hpc := Once.Pc.rank_le (s.once.pc i)
  have hcall : (s.call i).rank ≤ 4 := by cases s.call i <;> simp [EnqueueAt.rank]
  unfold rank
  omega

/-- Call `i` has got further, and no other has. -/
def Advances (s t : SharedQueue) (i : Nat) : Prop :=
  s.rank i < t.rank i ∧ ∀ j, j ≠ i → t.rank j = s.rank j

theorem advances_once {ol : Once.Label (Option Nat)} (hst : Once.Step .afterStore s.once ol t.once)
    (hcall : t.call = s.call) : s.Advances t ol.call := by
  unfold Advances rank
  rw [hcall]
  constructor
  · have hlt := Once.Step.rank_lt hst
    omega
  · intro j hj
    rw [Once.Step.pc_other hst hj]

theorem advances_go (hcall : t.call = (s.go i c).call) (honce : t.once = s.once)
    (hlt : (s.call i).rank < c.rank) : s.Advances t i := by
  unfold Advances rank
  rw [hcall, honce]
  constructor
  · rw [go_self]
    omega
  · intro j hj
    rw [go_ne s c hj]

theorem advances_step (hst : SharedQueue.Step py enabled s l t) (hi : l.call? = some i) : s.Advances t i := by
  have hrank : ∀ {i : Nat} {c : EnqueueAt}, s.call i = c → (s.call i).rank = c.rank :=
    fun h => congrArg _ h
  cases hst with
  | get hst hl =>
    cases hi
    exact advances_once hst rfl
  | @make i m once hm hst =>
    cases hi
    have hcall : (s.make py m).call = s.call := by cases m <;> rfl
    exact advances_once (t := { s.make py m with once }) hst hcall
  | gotNone hcall hgot =>
    cases hi
    exact advances_go rfl rfl (by rw [hcall]; decide)
  | got hcall hgot =>
    cases hi
    exact advances_go rfl rfl (by rw [hcall]; exact Nat.zero_lt_one)
  | told hcall hgot =>
    cases hi
    exact advances_go rfl rfl (by rw [hcall]; exact Nat.zero_lt_succ _)
  | lock hcall hfree =>
    cases hi
    exact advances_go rfl rfl (by rw [hcall]; exact Nat.one_lt_two)
  | work hcall hc =>
    cases hi
    exact advances_go rfl rfl (by rw [hcall]; exact Nat.lt_succ_self 2)
  | unlock hcall =>
    cases hi
    exact advances_go rfl rfl (by rw [hcall]; exact Nat.lt_succ_self 3)
  | channelClosed => cases hi
  | connectionLost => cases hi

theorem rank_step (hst : SharedQueue.Step py enabled s l t) : s.rank i ≤ t.rank i := by
  cases hcall : l.call? with
  | some j =>
    have h := advances_step hst hcall
    by_cases hij : i = j
    · rw [hij]
      exact Nat.le_of_lt h.1
    · exact Nat.le_of_eq (h.2 i hij).symm
  | none =>
    cases hst with
    | channelClosed => exact Nat.le_refl _
    | connectionLost => exact Nat.le_refl _
    | _ => cases hcall

theorem steps_le (hrun : (SharedQueue.system py enabled).Run s ls t) (i : Nat) :
    (ls.filter fun l => l.call? = some i).length + s.rank i ≤ t.rank i := by
  induction hrun with
  | nil => simp
  | @cons s u t l ls hst _ ih =>
    by_cases hcall : l.call? = some i
    · rw [List.filter_cons_of_pos (by simpa using hcall), List.length_cons]
      have hlt := (advances_step hst hcall).1
      omega
    · rw [List.filter_cons_of_neg (by simpa using hcall)]
      exact Nat.le_trans (Nat.add_le_add_left (rank_step hst) _) ih

/-- Call `i` has begun, and it has not returned. -/
def Pending (s : SharedQueue) (i : Nat) : Prop :=
  s.once.pc i ≠ .idle ∧ ∀ answer, s.call i ≠ .answered answer

/-- An attempt that ends at the import -/
def noPika : Setup :=
  { pika := false, connect := false, channel := .returned, topology := .returned, confirm := .returned }

theorem Sound.progress_get (h : Sound py s ls) (hbegun : s.once.pc i ≠ .idle)
    (hlive : ∀ v, s.once.pc i ≠ .returned v) :
    ∃ l t j, SharedQueue.Step py enabled s l t ∧ l.call? = some j ∧ s.once.pc j ≠ .idle := by
  obtain ⟨ol, once, hst, hidle⟩ := h.once.progress hbegun hlive
  by_cases hbuild : ∃ j v, ol = .build j v
  · obtain ⟨j, v, rfl⟩ := hbuild
    cases hst with
    | build hpc =>
      cases henabled : enabled with
      | false => exact ⟨_, _, j, .make (m := .disabled) (by simp) (.build hpc), rfl, hidle⟩
      | true =>
        exact ⟨_, _, j, .make (m := .attempt noPika .returned true) (by simp) (.build hpc), rfl, hidle⟩
  · exact ⟨_, _, ol.call, .get hst fun j v heq => hbuild ⟨j, v, heq⟩, rfl, hidle⟩

theorem Sound.progress (h : Sound py s ls) (hex : s.Exclusive) (hi : s.Pending i) :
    ∃ l t j, SharedQueue.Step py enabled s l t ∧ l.call? = some j ∧ s.once.pc j ≠ .idle := by
  have hholder : ∀ j q, (s.call j).Holds q →
      ∃ l t j, SharedQueue.Step py enabled s l t ∧ l.call? = some j ∧ s.once.pc j ≠ .idle := by
    intro j q hj
    have hlt := h.made q (by rw [h.holder hj]; exact List.mem_singleton_self _)
    have hbegun : s.once.pc j ≠ .idle := by
      rcases h.passed j with ⟨v, hv⟩ | hgetting
      · rw [hv]
        exact fun heq => by cases heq
      · rw [hgetting] at hj
        exact hj.elim
    cases hcall : s.call j with
    | holds r =>
      rw [hcall] at hj
      cases hj
      let task : QueueClient.Task := { id := [], enqueuedAt := [], taskType := [], payload := .dict [] }
      have hst : SharedQueue.Step py enabled s (.work j noPika task .returned) _ :=
        .work hcall (List.getElem?_eq_getElem hlt)
      exact ⟨_, _, j, hst, rfl, hbegun⟩
    | worked r answer => exact ⟨_, _, j, .unlock hcall, rfl, hbegun⟩
    | _ =>
      rw [hcall] at hj
      exact hj.elim
  cases hcall : s.call i with
  | getting =>
    by_cases hret : ∃ v, s.once.pc i = .returned v
    · obtain ⟨v, hv⟩ := hret
      exact ⟨_, _, i, .told hcall hv, rfl, hi.1⟩
    · exact h.progress_get hi.1 fun v hv => hret ⟨v, hv⟩
  | waits q =>
    cases hlock : s.lock q with
    | none => exact ⟨_, _, i, .lock hcall hlock, rfl, hi.1⟩
    | some j => exact hholder j q ((hex j q).mpr hlock)
  | holds q => exact hholder i q (by rw [hcall]; rfl)
  | worked q answer => exact hholder i q (by rw [hcall]; rfl)
  | answered answer => exact absurd hcall (hi.2 answer)

/-- In every interleaving of any number of calls the process makes at most one queue, which stands as its
calls would leave it one after another, and no two calls work on it at once; and no call takes more
than twelve steps, of which one can always be taken while a call is pending. -/
theorem enqueues_serialise (hrun : (SharedQueue.system py enabled).Run .start ls s) :
    (∀ c ∈ s.queues, s.queues = [c] ∧ c = QueueClient.run py (ls.flatMap SharedLabel.calls)) ∧
      (∀ i j q r, (s.call i).Holds q → (s.call j).Holds r → i = j) ∧
      (∀ i, (ls.filter fun l => l.call? = some i).length ≤ 12) ∧
      ∀ i, s.Pending i →
        ∃ l t j, SharedQueue.Step py enabled s l t ∧ l.call? = some j ∧ s.once.pc j ≠ .idle := by
  have h : Sound py s ls := hrun.invariant_labels (fun h hst => h.step hst) sound_start
  have hex : s.Exclusive := hrun.invariant (fun h hst => h.step hst) exclusive_start
  refine ⟨?_, ?_, ?_, fun i hi => h.progress hex hi⟩
  · intro c hc
    rcases h.queues with ⟨hnone, -⟩ | ⟨hone, -⟩
    · rw [hnone] at hc
      cases hc
    · rw [hone, List.mem_singleton] at hc
      exact ⟨hone.trans (by rw [hc]), hc⟩
  · intro i j q r hi hj
    have hsame := (h.holder hi).symm.trans (h.holder hj)
    cases hsame
    exact hex.unique hi hj
  · intro i
    have hle := steps_le hrun i
    have hmax := rank_le s i
    omega

/-- Two calls have found the flag unset, and the first has made a queue that cannot connect. -/
def raced (py : Stdlib) : SharedQueue :=
  let locked : Once.State (Option Nat) :=
    { (((Once.State.start none).go 0 .waiting).go 1 .waiting).go 0 .locked with holder := some 0 }
  { start.make py (.attempt noPika .returned true) with
    once := { locked.go 0 .building |>.go 0 (.built none) with builds := [none] } }

theorem raced_run : (SharedQueue.system py true).Run .start
    [.get (.check 0), .get (.check 1), .get (.acquire 0), .get (.recheck 0),
      .make 0 (.attempt noPika .returned true)] (raced py) := by
  refine .cons (.get (.unseen rfl rfl) nofun) ?_
  refine .cons (.get (.unseen rfl rfl) nofun) ?_
  refine .cons (.get (.acquire rfl rfl) nofun) ?_
  refine .cons (.get (.first rfl rfl) nofun) ?_
  exact .cons (.make (by simp) (.build rfl)) (.nil _)

/-- A JSON library that reads nothing and writes the empty text -/
def mute : Stdlib :=
  { jsonLoads := fun _ => none, jsonDumps := fun _ => some [], intOfStr := fun _ => none }

theorem enqueues_serialise_raced :
    ∃ l t j, SharedQueue.Step mute true (raced mute) l t ∧ l.call? = some j ∧
      (raced mute).once.pc j ≠ .idle :=
  (enqueues_serialise raced_run).2.2.2 1 ⟨(fun h => by cases h), (fun _ h => by cases h)⟩

end

end SharedQueue

end VirtualPerson
