import Mathlib.Algebra.Order.Field.Rat
import Mathlib.Tactic.Linarith
import VirtualPerson.Transition

/-!
# The socket of the browser

`WSClient` makes a socket, and a new one some time after the last one closed. The browser
runs its handlers one after another: each socket opens at most once and closes at most once,
and a timer that was not cleared fires once.
-/

namespace VirtualPerson

set_option autoImplicit false

namespace Client

inductive ReadyState where
  | connecting
  | opened
  | closing
  | closed
  deriving DecidableEq

inductive Status where
  | connected
  | disconnected
  | reconnecting
  | error
  deriving DecidableEq

structure WSClient (β : Type) where
  /-- Every socket that was made; `socket` is the last of them. -/
  sockets : List ReadyState
  reconnectMs : Rat
  reconnectTimer : Option Nat
  intentionalClose : Bool
  /-- What `setTimeout` was called with and neither fired nor was cleared: identifier and delay -/
  timers : List (Nat × Rat)
  /-- Identifiers given out so far; they are positive. -/
  timersMade : Nat
  /-- What `onStatus` was called with -/
  statuses : List Status
  /-- The socket and the data of each `socket.send` -/
  sent : List (Nat × β)

variable {β : Type}

def maxReconnectMs : Rat := 15000

namespace WSClient

def new : WSClient β :=
  { sockets := [], reconnectMs := 1000, reconnectTimer := none, intentionalClose := false,
    timers := [], timersMade := 0, statuses := [], sent := [] }

def onStatus (c : WSClient β) (s : Status) : WSClient β := { c with statuses := c.statuses ++ [s] }

def scheduleReconnect (c : WSClient β) : WSClient β :=
  match c.reconnectTimer with
  | some _ => c
  | none =>
    let id := c.timersMade + 1
    { c.onStatus .reconnecting with
      reconnectTimer := some id
      timers := c.timers ++ [(id, c.reconnectMs)]
      timersMade := id }

/-- `made` is false where `new WebSocket(url)` throws. -/
def connect (c : WSClient β) (made : Bool) : WSClient β :=
  let c := { c with intentionalClose := false }
  if made then { c with sockets := c.sockets ++ [.connecting] } else c.scheduleReconnect

def onopen (c : WSClient β) (i : Nat) : WSClient β :=
  { c with sockets := c.sockets.set i .opened, reconnectMs := 1000 }.onStatus .connected

def onclose (c : WSClient β) (i : Nat) : WSClient β :=
  let c := { c with sockets := c.sockets.set i .closed }.onStatus .disconnected
  if c.intentionalClose then c else c.scheduleReconnect

def onerror (c : WSClient β) : WSClient β := c.onStatus .error

/-- The callback of `setTimeout` -/
def reconnect (c : WSClient β) (id : Nat) (made : Bool) : WSClient β :=
  { c with
    timers := c.timers.filter fun t => t.1 ≠ id
    reconnectTimer := none
    reconnectMs := min (c.reconnectMs * (3 / 2)) maxReconnectMs }.connect made

def send (c : WSClient β) (data : β) : WSClient β :=
  if c.sockets.getLast? = some .opened then
    { c with sent := c.sent ++ [(c.sockets.length - 1, data)] }
  else c

/-- `socket.close()` -/
def closeSocket : ReadyState → ReadyState
  | .closed => .closed
  | _ => .closing

def close (c : WSClient β) : WSClient β :=
  { c with
    intentionalClose := true
    timers := c.timers.filter fun t => some t.1 ≠ c.reconnectTimer
    reconnectTimer := none
    sockets := c.sockets.modify (c.sockets.length - 1) closeSocket }

end WSClient

inductive SocketEvent (β : Type) where
  | connect (made : Bool)
  | opened (i : Nat)
  | closed (i : Nat)
  | error (i : Nat)
  /-- The other side begins the closing, of which no handler is told. -/
  | shutting (i : Nat)
  | timer (id : Nat) (made : Bool)
  | send (data : β)
  | close

/-- The calls of the app, and the events of the browser in any order. -/
inductive SocketStep : WSClient β → SocketEvent β → WSClient β → Prop where
  | connect {c : WSClient β} {made : Bool} : SocketStep c (.connect made) (c.connect made)
  | opened {c : WSClient β} {i : Nat} (hi : c.sockets[i]? = some .connecting) :
      SocketStep c (.opened i) (c.onopen i)
  | closed {c : WSClient β} {i : Nat} {s : ReadyState} (hi : c.sockets[i]? = some s)
      (hs : s ≠ .closed) : SocketStep c (.closed i) (c.onclose i)
  | error {c : WSClient β} {i : Nat} {s : ReadyState} (hi : c.sockets[i]? = some s)
      (hs : s ≠ .closed) : SocketStep c (.error i) c.onerror
  | shutting {c : WSClient β} {i : Nat} (hi : c.sockets[i]? = some .opened) :
      SocketStep c (.shutting i) { c with sockets := c.sockets.set i .closing }
  | timer {c : WSClient β} {id : Nat} {made : Bool} (hid : id ∈ c.timers.map Prod.fst) :
      SocketStep c (.timer id made) (c.reconnect id made)
  | send {c : WSClient β} {data : β} : SocketStep c (.send data) (c.send data)
  | close {c : WSClient β} : SocketStep c .close c.close

/-- The page makes its client and connects at once. -/
def socketSystem : System (WSClient β) (SocketEvent β) where
  init c := ∃ made, c = WSClient.new.connect made
  step := SocketStep

/-- The app connects only where no socket is left and no reconnect is pending, as the page does,
which connects once. -/
def WSClient.ConnectsAtRest (c : WSClient β) (l : SocketEvent β) : Prop :=
  ∀ made, l = .connect made → c.reconnectTimer = none ∧ ∀ s ∈ c.sockets, s = .closed

def backoff (k : Nat) : Rat := min (1000 * (3 / 2) ^ k) maxReconnectMs

def SocketEvent.counted (k : Nat) : SocketEvent β → Nat
  | .opened _ => 0
  | .timer _ _ => k + 1
  | _ => k

/-- Timers that have fired since a socket opened last -/
def retries (ls : List (SocketEvent β)) : Nat := ls.foldl SocketEvent.counted 0

theorem retries_concat (ls : List (SocketEvent β)) (l : SocketEvent β) :
    retries (ls ++ [l]) = l.counted (retries ls) := by
  rw [retries, List.foldl_append]
  rfl

theorem backoff_zero : backoff 0 = 1000 := by
  unfold backoff maxReconnectMs
  norm_num

theorem backoff_succ (k : Nat) : backoff (k + 1) = min (backoff k * (3 / 2)) maxReconnectMs := by
  unfold backoff maxReconnectMs
  rcases le_total (1000 * (3 / 2 : Rat) ^ k) 15000 with h | h
  · rw [min_eq_left h, pow_succ, mul_assoc]
  · have hnext : (15000 : Rat) ≤ 1000 * (3 / 2) ^ (k + 1) := by
      rw [pow_succ]
      linarith
    rw [min_eq_right h, min_eq_right hnext, min_eq_right (by norm_num)]

theorem backoff_mem (k : Nat) : 1000 ≤ backoff k ∧ backoff k ≤ 15000 := by
  have hpow : (1 : Rat) ≤ (3 / 2) ^ k := one_le_pow₀ (by norm_num)
  constructor
  · apply le_min
    · linarith
    · unfold maxReconnectMs
      norm_num
  · exact min_le_right _ _

namespace WSClient

/-- The timers that are pending are the one that `reconnectTimer` names. -/
structure Timed (ls : List (SocketEvent β)) (c : WSClient β) : Prop where
  delay : c.reconnectMs = backoff (retries ls)
  pending : c.timers.map Prod.fst = c.reconnectTimer.toList
  quiet : c.intentionalClose = true → c.reconnectTimer = none
  /-- A client that was not closed has a socket or waits for the next one. -/
  alive : c.intentionalClose = false →
    c.reconnectTimer ≠ none ∨ ∃ s, c.sockets.getLast? = some s ∧ s ≠ .closed

section Timed

variable {c c' : WSClient β} {ls : List (SocketEvent β)} {l : SocketEvent β} {i id : Nat}

theorem scheduleReconnect_some (h : c.reconnectTimer = some id) : c.scheduleReconnect = c := by
  rw [scheduleReconnect, h]

theorem scheduleReconnect_none (h : c.reconnectTimer = none) :
    c.scheduleReconnect =
      { c.onStatus .reconnecting with
        reconnectTimer := some (c.timersMade + 1)
        timers := c.timers ++ [(c.timersMade + 1, c.reconnectMs)]
        timersMade := c.timersMade + 1 } := by
  rw [scheduleReconnect, h]

@[simp] theorem scheduleReconnect_sockets : c.scheduleReconnect.sockets = c.sockets := by
  unfold scheduleReconnect
  split <;> rfl

@[simp] theorem scheduleReconnect_reconnectMs :
    c.scheduleReconnect.reconnectMs = c.reconnectMs := by
  unfold scheduleReconnect
  split <;> rfl

@[simp] theorem scheduleReconnect_intentionalClose :
    c.scheduleReconnect.intentionalClose = c.intentionalClose := by
  unfold scheduleReconnect
  split <;> rfl

theorem scheduleReconnect_pending (h : c.timers.map Prod.fst = c.reconnectTimer.toList) :
    c.scheduleReconnect.timers.map Prod.fst = c.scheduleReconnect.reconnectTimer.toList := by
  cases htimer : c.reconnectTimer with
  | some id => rw [scheduleReconnect_some htimer, h]
  | none =>
    rw [htimer] at h
    rw [scheduleReconnect_none htimer]
    simp_all

theorem scheduleReconnect_waits : c.scheduleReconnect.reconnectTimer ≠ none := by
  unfold scheduleReconnect
  split
  · rename_i id h
    rw [h]
    exact Option.some_ne_none id
  · exact Option.some_ne_none _

theorem Timed.of_connect {made : Bool} (hdelay : c.reconnectMs = backoff (retries ls))
    (hpending : c.timers.map Prod.fst = c.reconnectTimer.toList) : Timed ls (c.connect made) := by
  unfold connect
  cases made with
  | true =>
    refine ⟨hdelay, hpending, nofun, fun _ => .inr ⟨.connecting, ?_, nofun⟩⟩
    exact List.getLast?_concat
  | false =>
    constructor
    · rw [← hdelay]
      exact scheduleReconnect_reconnectMs
    · exact scheduleReconnect_pending (c := { c with intentionalClose := false }) hpending
    · intro h
      have : false = true := scheduleReconnect_intentionalClose.symm.trans h
      cases this
    · exact fun _ => .inl scheduleReconnect_waits

/-- A socket that is the last one before a change of one of them still is. -/
theorem getLast?_set {ss : List ReadyState} {s s' : ReadyState} (hi : ss[i]? = some s)
    (hs' : s' ≠ .closed) (h : ∃ s, ss.getLast? = some s ∧ s ≠ .closed) :
    ∃ s, (ss.set i s').getLast? = some s ∧ s ≠ .closed := by
  obtain ⟨last, hlast, hopen⟩ := h
  rw [List.getLast?_eq_getElem?] at hlast ⊢
  rw [List.length_set, List.getElem?_set]
  split
  · rename_i heq
    have hlt : i < ss.length := (List.getElem?_eq_some_iff.mp hi).1
    exact ⟨s', by rw [if_pos (by omega)], hs'⟩
  · exact ⟨last, hlast, hopen⟩

theorem Timed.opened (h : Timed ls c) (hi : c.sockets[i]? = some .connecting) :
    Timed (ls ++ [.opened i]) (c.onopen i) := by
  refine ⟨?_, h.pending, h.quiet, ?_⟩
  · rw [retries_concat, SocketEvent.counted, backoff_zero]
    rfl
  · intro hclose
    rcases h.alive hclose with htimer | hlast
    · exact .inl htimer
    · exact .inr (getLast?_set hi nofun hlast)

theorem Timed.closed (h : Timed ls c) : Timed (ls ++ [.closed i]) (c.onclose i) := by
  have hretries : retries (ls ++ [.closed i]) = retries ls := retries_concat ls _
  unfold onclose
  dsimp only
  split
  · rename_i hclose
    refine ⟨by rw [hretries]; exact h.delay, h.pending, h.quiet, ?_⟩
    intro hopen
    cases hclose.symm.trans hopen
  · rename_i hopen
    constructor
    · rw [scheduleReconnect_reconnectMs, hretries]
      exact h.delay
    · exact scheduleReconnect_pending h.pending
    · rw [scheduleReconnect_intentionalClose]
      exact fun hclose => absurd hclose hopen
    · exact fun _ => .inl scheduleReconnect_waits

/-- The timer that fires is the one that the client waits for. -/
theorem Timed.timer_eq (h : Timed ls c) (hid : id ∈ c.timers.map Prod.fst) :
    c.reconnectTimer = some id := by
  rw [h.pending, Option.mem_toList] at hid
  exact hid

theorem Timed.timers_of_fired (h : Timed ls c) (hid : id ∈ c.timers.map Prod.fst) :
    c.timers.filter (fun t => t.1 ≠ id) = [] := by
  rw [List.filter_eq_nil_iff]
  intro t ht
  have hmem : t.1 ∈ c.timers.map Prod.fst := List.mem_map_of_mem ht
  have heq := (h.timer_eq hmem).symm.trans (h.timer_eq hid)
  simp [Option.some.inj heq]

theorem Timed.timer (h : Timed ls c) {made : Bool} (hid : id ∈ c.timers.map Prod.fst) :
    Timed (ls ++ [.timer id made]) (c.reconnect id made) := by
  apply Timed.of_connect
  · rw [retries_concat, SocketEvent.counted, backoff_succ, ← h.delay]
  · rw [h.timers_of_fired hid]
    rfl

theorem Timed.close (h : Timed ls c) : Timed (ls ++ [.close]) c.close := by
  refine ⟨?_, ?_, fun _ => rfl, nofun⟩
  · rw [retries_concat]
    exact h.delay
  · have hnil : c.timers.filter (fun t => some t.1 ≠ c.reconnectTimer) = [] := by
      rw [List.filter_eq_nil_iff]
      intro t ht
      have hmem : t.1 ∈ c.timers.map Prod.fst := List.mem_map_of_mem ht
      simp [h.timer_eq hmem]
    rw [WSClient.close, hnil]
    rfl

theorem Timed.send (h : Timed ls c) (data : β) : Timed (ls ++ [.send data]) (c.send data) := by
  have hretries : retries (ls ++ [.send data]) = retries ls := retries_concat ls _
  unfold WSClient.send
  split
  · exact ⟨by rw [hretries]; exact h.delay, h.pending, h.quiet, h.alive⟩
  · exact ⟨by rw [hretries]; exact h.delay, h.pending, h.quiet, h.alive⟩

theorem Timed.step (h : Timed ls c) (hst : SocketStep c l c') : Timed (ls ++ [l]) c' := by
  cases hst with
  | connect => exact .of_connect (by rw [retries_concat]; exact h.delay) h.pending
  | opened hi => exact h.opened hi
  | closed => exact h.closed
  | error => exact ⟨by rw [retries_concat]; exact h.delay, h.pending, h.quiet, h.alive⟩
  | shutting hi =>
    refine ⟨by rw [retries_concat]; exact h.delay, h.pending, h.quiet, ?_⟩
    exact fun hclose => (h.alive hclose).imp_right (getLast?_set hi nofun)
  | timer hid => exact h.timer hid
  | send => exact h.send _
  | close => exact h.close

theorem Timed.of_init (h : socketSystem.init c) : Timed [] c := by
  obtain ⟨made, rfl⟩ := h
  apply Timed.of_connect
  · exact backoff_zero.symm
  · rfl

theorem Timed.of_run {c₀ : WSClient β} (h0 : socketSystem.init c₀)
    (hrun : socketSystem.Run c₀ ls c) : Timed ls c :=
  hrun.invariant_labels (I := fun c ls => Timed ls c) Timed.step (.of_init h0)

/-- A timer is made with the delay that holds after the step. -/
theorem new_timer (hst : SocketStep c l c') {t : Nat × Rat} (ht : t ∈ c'.timers)
    (hnew : t ∉ c.timers) : t.2 = c'.reconnectMs := by
  have scheduled : ∀ d : WSClient β, t ∈ d.scheduleReconnect.timers → t ∉ d.timers →
      t.2 = d.scheduleReconnect.reconnectMs := by
    intro d ht hnew
    rw [scheduleReconnect_reconnectMs]
    cases htimer : d.reconnectTimer with
    | some id =>
      rw [scheduleReconnect_some htimer] at ht
      exact absurd ht hnew
    | none =>
      rw [scheduleReconnect_none htimer] at ht
      rcases List.mem_append.mp ht with ht | ht
      · exact absurd ht hnew
      · rw [List.mem_singleton.mp ht]
  have connected : ∀ (d : WSClient β) (made : Bool), t ∈ (d.connect made).timers → t ∉ d.timers →
      t.2 = (d.connect made).reconnectMs := by
    intro d made ht hnew
    cases made with
    | true => exact absurd ht hnew
    | false => exact scheduled { d with intentionalClose := false } ht hnew
  cases hst with
  | connect => exact connected c _ ht hnew
  | opened => exact absurd ht hnew
  | closed =>
    unfold onclose at ht ⊢
    dsimp only at ht ⊢
    split at ht
    · exact absurd ht hnew
    · rename_i hopen
      rw [if_neg hopen]
      exact scheduled _ ht hnew
  | error => exact absurd ht hnew
  | shutting => exact absurd ht hnew
  | timer =>
    apply connected _ _ ht
    exact fun hmem => hnew (List.mem_filter.mp hmem).1
  | send =>
    unfold WSClient.send at ht
    split at ht <;> exact absurd ht hnew
  | close => exact absurd (List.mem_filter.mp ht).1 hnew

/-- Where the very first socket cannot be made, the reconnect comes after a second. -/
theorem first_timer {c₀ : WSClient β} (h0 : socketSystem.init c₀) : ∀ t ∈ c₀.timers, t.2 = backoff 0 := by
  obtain ⟨made, rfl⟩ := h0
  rw [backoff_zero]
  cases made with
  | true => exact fun t ht => absurd ht List.not_mem_nil
  | false =>
    intro t ht
    rw [List.mem_singleton.mp ht]
    rfl

end Timed

end WSClient

/-- Over every run of the page's client at most one reconnect is pending, the one that
`_reconnectTimer` names, and each, also one that the very first `connect` makes, has the delay that the
number of retries since the last opening gives: one second, half as much again for every retry, fifteen
seconds at most. -/
theorem reconnect_paced {c₀ c : WSClient β} {ls : List (SocketEvent β)} (h0 : socketSystem.init c₀)
    (hrun : socketSystem.Run c₀ ls c) :
    c.timers.map Prod.fst = c.reconnectTimer.toList ∧ (∀ t ∈ c₀.timers, t.2 = backoff 0) ∧
      ∀ l c', SocketStep c l c' → ∀ t ∈ c'.timers, t ∉ c.timers →
        t.2 = backoff (retries (ls ++ [l])) ∧ 1000 ≤ t.2 ∧ t.2 ≤ 15000 := by
  have h := WSClient.Timed.of_run h0 hrun
  refine ⟨h.pending, WSClient.first_timer h0, ?_⟩
  intro l c' hst t ht hnew
  have hdelay : t.2 = backoff (retries (ls ++ [l])) := by
    rw [WSClient.new_timer hst ht hnew]
    exact (h.step hst).delay
  rw [hdelay]
  exact ⟨rfl, backoff_mem _⟩

/-- The first socket opens and closes, and a second one is made. -/
def retried : WSClient String :=
  ((((WSClient.new.connect true).onopen 0).send "hi").onclose 0).reconnect 1 true

theorem retried_run :
    (socketSystem.restrict WSClient.ConnectsAtRest).Run (WSClient.new.connect true)
      [.opened 0, .send "hi", .closed 0, .timer 1 true] retried := by
  refine .cons ⟨nofun, .opened rfl⟩ ?_
  refine .cons ⟨nofun, .send⟩ ?_
  refine .cons ⟨nofun, .closed (s := .opened) rfl nofun⟩ ?_
  exact .cons ⟨nofun, .timer (by decide)⟩ (.nil _)

/-- The second socket closes before it opens. -/
def twiceClosed : WSClient String := retried.onclose 1

theorem step_twiceClosed : SocketStep retried (.closed 1) twiceClosed :=
  .closed (s := .connecting) rfl nofun

theorem twiceClosed_run :
    (socketSystem.restrict WSClient.ConnectsAtRest).Run (WSClient.new.connect true)
      ([.opened 0, .send "hi", .closed 0, .timer 1 true] ++ [.closed 1]) twiceClosed :=
  retried_run.append (.single ⟨nofun, step_twiceClosed⟩)

/-- The second reconnect comes after a second and a half. -/
theorem reconnect_paced_twiceClosed :
    retried.timers.map Prod.fst = retried.reconnectTimer.toList ∧
      ∀ t ∈ twiceClosed.timers, t.2 = backoff 1 := by
  obtain ⟨hpending, -, hdelay⟩ := reconnect_paced ⟨true, rfl⟩ retried_run.of_restrict
  refine ⟨hpending, fun t ht => (hdelay _ _ step_twiceClosed t ht ?_).1⟩
  exact fun hmem => by cases hmem

namespace WSClient

/-- What a closed client stays: the sockets and the frames are those at the closing. -/
structure Silent (before c : WSClient β) : Prop where
  closing : c.intentionalClose = true
  waits : c.reconnectTimer = none
  timers : c.timers = []
  made : c.sockets.length = before.sockets.length
  shut : ∀ s, c.sockets.getLast? = some s → s = .closing ∨ s = .closed
  sent : c.sent = before.sent

section Silent

variable {before c c' : WSClient β} {ls : List (SocketEvent β)} {l : SocketEvent β} {i : Nat}

theorem closeSocket_shut (s : ReadyState) : closeSocket s = .closing ∨ closeSocket s = .closed := by
  cases s
  · exact .inl rfl
  · exact .inl rfl
  · exact .inl rfl
  · exact .inr rfl

theorem close_last {s : ReadyState} (hs : c.close.sockets.getLast? = some s) :
    s = .closing ∨ s = .closed := by
  unfold WSClient.close at hs
  rw [List.getLast?_eq_getElem?, List.length_modify, List.getElem?_modify_eq] at hs
  obtain ⟨s', -, rfl⟩ := Option.map_eq_some_iff.mp hs
  exact closeSocket_shut s'

theorem Timed.closed_silent (h : Timed ls c) : Silent c c.close := by
  refine ⟨rfl, rfl, ?_, ?_, fun s hs => close_last hs, rfl⟩
  · have hpending := (h.close).pending
    exact List.map_eq_nil_iff.mp hpending
  · exact List.length_modify ..

theorem Silent.set (h : Silent before c) {s' : ReadyState}
    (hlast : i + 1 = c.sockets.length → s' = .closing ∨ s' = .closed) {s : ReadyState}
    (hs : (c.sockets.set i s').getLast? = some s) : s = .closing ∨ s = .closed := by
  rw [List.getLast?_eq_getElem?, List.length_set] at hs
  by_cases heq : i = c.sockets.length - 1
  · subst heq
    obtain ⟨hlt, rfl⟩ := List.getElem?_eq_some_iff.mp hs
    rw [List.length_set] at hlt
    rw [List.getElem_set_self]
    exact hlast (by omega)
  · rw [List.getElem?_set_ne heq, ← List.getLast?_eq_getElem?] at hs
    exact h.shut s hs

theorem Silent.step (h : Silent before c) (hst : SocketStep c l c') (hl : ∀ made, l ≠ .connect made) :
    Silent before c' := by
  cases hst with
  | connect => exact absurd rfl (hl _)
  | @opened i hi =>
    refine ⟨h.closing, h.waits, h.timers, ?_, ?_, h.sent⟩
    · exact (List.length_set ..).trans h.made
    · intro s hs
      apply h.set _ hs
      intro hlast
      -- the last socket is not one that can open
      have heq : i = c.sockets.length - 1 := by omega
      rw [heq, ← List.getLast?_eq_getElem?] at hi
      rcases h.shut _ hi with hs | hs <;> cases hs
  | closed hi hs =>
    have hclosing := h.closing
    unfold onclose
    dsimp only
    rw [if_pos (by exact hclosing)]
    refine ⟨h.closing, h.waits, h.timers, ?_, ?_, h.sent⟩
    · exact (List.length_set ..).trans h.made
    · intro s hs
      exact h.set (fun _ => .inr rfl) hs
  | error => exact ⟨h.closing, h.waits, h.timers, h.made, h.shut, h.sent⟩
  | shutting hi =>
    refine ⟨h.closing, h.waits, h.timers, ?_, ?_, h.sent⟩
    · exact (List.length_set ..).trans h.made
    · intro s hs
      exact h.set (fun _ => .inl rfl) hs
  | timer hid =>
    rw [h.timers] at hid
    cases hid
  | send =>
    unfold WSClient.send
    split
    · rename_i hopen
      rcases h.shut _ hopen with hs | hs <;> cases hs
    · exact h
  | close =>
    refine ⟨rfl, rfl, ?_, ?_, fun s hs => close_last hs, h.sent⟩
    · rw [WSClient.close, h.timers]
      rfl
    · exact (List.length_modify ..).trans h.made

theorem Silent.run (h : Silent before c) (hrun : socketSystem.Run c ls c')
    (hls : ∀ made, .connect made ∉ ls) : Silent before c' := by
  induction hrun with
  | nil => exact h
  | cons hst _ ih =>
    apply ih
    · exact h.step hst fun made heq => hls made (heq ▸ List.mem_cons_self)
    · exact fun made hmem => hls made (List.mem_cons_of_mem _ hmem)

end Silent

end WSClient

/-- Until the app closes it the client always has a socket that is not closed or a reconnect that is
pending, and from a `close` to the next `connect` it makes no socket, sets no timer and sends
nothing, whatever the sockets do. -/
theorem reconnects_until_closed {c₀ c : WSClient β} {ls : List (SocketEvent β)}
    (h0 : socketSystem.init c₀) (hrun : socketSystem.Run c₀ ls c) :
    (c.intentionalClose = false →
      c.timers ≠ [] ∨ ∃ s, c.sockets.getLast? = some s ∧ s ≠ .closed) ∧
      ∀ ms d, socketSystem.Run c.close ms d → (∀ made, .connect made ∉ ms) →
        d.sockets.length = c.sockets.length ∧ d.timers = [] ∧ d.sent = c.sent := by
  have h := WSClient.Timed.of_run h0 hrun
  constructor
  · intro hopen
    rcases h.alive hopen with htimer | hlast
    · apply Or.inl
      intro hnil
      have hpending := h.pending
      rw [hnil, List.map_nil] at hpending
      exact htimer (Option.toList_eq_nil_iff.mp hpending.symm)
    · exact .inr hlast
  · intro ms d hrun hms
    have hsilent := h.closed_silent.run hrun hms
    exact ⟨hsilent.made, hsilent.timers, hsilent.sent⟩

/-- A third socket opens. -/
def reopened : WSClient String := (twiceClosed.reconnect 2 true).onopen 2

/-- The app has closed the client, its socket is closed, and the app still sends. -/
def hungUp : WSClient String := (reopened.close.onclose 2).send "bye"

theorem reconnects_until_closed_reopened :
    (reopened.timers ≠ [] ∨ ∃ s, reopened.sockets.getLast? = some s ∧ s ≠ .closed) ∧
      socketSystem.Run reopened.close [.closed 2, .send "bye"] hungUp ∧
      hungUp.sockets.length = reopened.sockets.length ∧ hungUp.timers = [] ∧ hungUp.sent = reopened.sent := by
  have hrun : socketSystem.Run (WSClient.new.connect true)
      (([.opened 0, .send "hi", .closed 0, .timer 1 true] ++ [.closed 1]) ++ [.timer 2 true, .opened 2])
      reopened :=
    twiceClosed_run.of_restrict.append (.cons (.timer (by decide)) (.single (.opened rfl)))
  have hafter : socketSystem.Run reopened.close [.closed 2, .send "bye"] hungUp :=
    .cons (.closed (s := .closing) rfl nofun) (.single .send)
  obtain ⟨halive, hsilent⟩ := reconnects_until_closed ⟨true, rfl⟩ hrun
  exact ⟨halive rfl, hafter, hsilent _ _ hafter fun made hmem => by simp at hmem⟩

namespace WSClient

/-- Only the last socket is not closed, and it is closed while a reconnect is pending. -/
structure Alone (c : WSClient β) : Prop where
  last : ∀ i s, c.sockets[i]? = some s → s ≠ .closed → i + 1 = c.sockets.length
  waits : c.reconnectTimer ≠ none → ∀ s ∈ c.sockets, s = .closed

section Alone

variable {c c' : WSClient β} {ls : List (SocketEvent β)} {l : SocketEvent β} {i : Nat}

theorem Alone.of_closed (h : ∀ s ∈ c.sockets, s = .closed) : Alone c := by
  refine ⟨?_, fun _ => h⟩
  intro i s hi hs
  exact absurd (h s (List.mem_of_getElem? hi)) hs

theorem Alone.of_connect {made : Bool} (htimer : c.reconnectTimer = none)
    (h : ∀ s ∈ c.sockets, s = .closed) : Alone (c.connect made) := by
  unfold connect
  cases made with
  | false => exact .of_closed (by simpa using h)
  | true =>
    refine ⟨?_, fun hwaits => absurd htimer hwaits⟩
    intro i s hi hs
    change (c.sockets ++ [.connecting])[i]? = some s at hi
    change i + 1 = (c.sockets ++ [ReadyState.connecting]).length
    rw [List.length_append, List.length_singleton]
    by_cases hlt : i < c.sockets.length
    · rw [List.getElem?_append_left hlt] at hi
      exact absurd (h s (List.mem_of_getElem? hi)) hs
    · have hle := (List.getElem?_eq_some_iff.mp hi).1
      rw [List.length_append, List.length_singleton] at hle
      omega

/-- A socket that is not closed is the only one: without it there is none. -/
theorem Alone.set_closed (h : Alone c) {s : ReadyState} (hi : c.sockets[i]? = some s)
    (hs : s ≠ .closed) : ∀ s ∈ c.sockets.set i .closed, s = .closed := by
  intro s' hs'
  obtain ⟨j, hj⟩ := List.getElem?_of_mem hs'
  by_cases heq : i = j
  · subst heq
    rw [List.getElem?_set_self (List.getElem?_eq_some_iff.mp hi).1] at hj
    exact (Option.some.inj hj).symm
  · rw [List.getElem?_set_ne heq] at hj
    by_contra hopen
    have := h.last i s hi hs
    have := h.last j s' hj hopen
    omega

theorem Alone.waits_none (h : Alone c) {s : ReadyState} (hi : c.sockets[i]? = some s)
    (hs : s ≠ .closed) : c.reconnectTimer = none := by
  by_contra hwaits
  exact hs (h.waits hwaits s (List.mem_of_getElem? hi))

/-- Changing the state of a socket that is not closed leaves it the only one. -/
theorem Alone.set (h : Alone c) {s s' : ReadyState} (hi : c.sockets[i]? = some s) (hs : s ≠ .closed)
    {d : WSClient β} (hsockets : d.sockets = c.sockets.set i s')
    (htimer : d.reconnectTimer = c.reconnectTimer) : Alone d := by
  constructor
  · intro j t hj ht
    rw [hsockets] at hj ⊢
    rw [List.length_set]
    by_cases heq : i = j
    · subst heq
      exact h.last i s hi hs
    · rw [List.getElem?_set_ne heq] at hj
      exact h.last j t hj ht
  · intro hwaits
    rw [htimer, h.waits_none hi hs] at hwaits
    exact absurd rfl hwaits

theorem modify_last {ss : List ReadyState} {s : ReadyState}
    (hi : (ss.modify (ss.length - 1) closeSocket)[i]? = some s) (hs : s ≠ .closed) :
    ∃ s', ss[i]? = some s' ∧ s' ≠ .closed := by
  rw [List.getElem?_modify] at hi
  obtain ⟨s', hs', hmap⟩ := Option.map_eq_some_iff.mp hi
  refine ⟨s', hs', ?_⟩
  rintro rfl
  apply hs
  rw [← hmap]
  split <;> rfl

theorem Alone.step (h : Alone c) (htimed : Timed ls c) (hrest : c.ConnectsAtRest l)
    (hst : SocketStep c l c') : Alone c' := by
  cases hst with
  | connect =>
    obtain ⟨htimer, hclosed⟩ := hrest _ rfl
    exact .of_connect htimer hclosed
  | opened hi => exact h.set hi nofun rfl rfl
  | closed hi hs =>
    have hclosed := h.set_closed hi hs
    unfold onclose
    dsimp only
    split
    · exact .of_closed hclosed
    · apply Alone.of_closed
      rw [scheduleReconnect_sockets]
      exact hclosed
  | error => exact ⟨h.last, h.waits⟩
  | shutting hi => exact h.set hi nofun rfl rfl
  | timer hid =>
    apply Alone.of_connect rfl
    apply h.waits
    rw [htimed.timer_eq hid]
    exact Option.some_ne_none _
  | send =>
    unfold WSClient.send
    split
    · exact ⟨h.last, h.waits⟩
    · exact h
  | close =>
    refine ⟨?_, fun hwaits => absurd rfl hwaits⟩
    intro i s hi hs
    obtain ⟨s', hi', hs'⟩ := modify_last hi hs
    rw [WSClient.close, List.length_modify]
    exact h.last i s' hi' hs'

end Alone

end WSClient

/-- Where the app connects at rest only, no two sockets are ever open, opening or closing at once,
none is while a reconnect is pending, and what is sent goes to the one that is open. -/
theorem one_socket_at_a_time {c₀ c : WSClient β} {ls : List (SocketEvent β)}
    (h0 : socketSystem.init c₀)
    (hrun : (socketSystem.restrict WSClient.ConnectsAtRest).Run c₀ ls c) :
    (∀ (i j : Nat) (s t : ReadyState), c.sockets[i]? = some s → c.sockets[j]? = some t →
        s ≠ ReadyState.closed → t ≠ ReadyState.closed → i = j) ∧
      (c.timers ≠ [] → ∀ s ∈ c.sockets, s = .closed) ∧
      ∀ data, c.send data = c ∨
        ∃ i, c.sockets[i]? = some .opened ∧ (c.send data).sent = c.sent ++ [(i, data)] := by
  have hinv : WSClient.Alone c ∧ WSClient.Timed ls c := by
    have hstart : WSClient.Alone c₀ ∧ WSClient.Timed [] c₀ := by
      refine ⟨?_, .of_init h0⟩
      obtain ⟨made, rfl⟩ := h0
      exact .of_connect rfl nofun
    refine hrun.invariant_labels (I := fun c ls => WSClient.Alone c ∧ WSClient.Timed ls c) ?_ hstart
    intro c l c' ls h hst
    obtain ⟨hrest, hst⟩ := hst
    exact ⟨h.1.step h.2 hrest hst, h.2.step hst⟩
  obtain ⟨halone, htimed⟩ := hinv
  refine ⟨?_, ?_, ?_⟩
  · intro i j s t hi hj hs ht
    have := halone.last i s hi hs
    have := halone.last j t hj ht
    omega
  · intro htimers
    apply halone.waits
    intro hnone
    have hpending := htimed.pending
    rw [hnone] at hpending
    exact htimers (List.map_eq_nil_iff.mp hpending)
  · intro data
    unfold WSClient.send
    split
    · rename_i hopen
      rw [List.getLast?_eq_getElem?] at hopen
      exact .inr ⟨_, hopen, rfl⟩
    · exact .inl rfl

/-- With a second socket that is opening, after one that has closed -/
theorem one_socket_at_a_time_retried :
    (∀ (i j : Nat) (s t : ReadyState), retried.sockets[i]? = some s → retried.sockets[j]? = some t →
        s ≠ ReadyState.closed → t ≠ ReadyState.closed → i = j) ∧
      (retried.timers ≠ [] → ∀ s ∈ retried.sockets, s = .closed) ∧
      (retried.send "bye" = retried ∨ ∃ i, retried.sockets[i]? = some .opened ∧
        (retried.send "bye").sent = retried.sent ++ [(i, "bye")]) := by
  obtain ⟨hone, hwaits, hsent⟩ := one_socket_at_a_time ⟨true, rfl⟩ retried_run
  exact ⟨hone, hwaits, hsent "bye"⟩

end Client

end VirtualPerson
