import Mathlib.Logic.Function.Basic
import VirtualPerson.Transition
import VirtualPerson.Python.Base64
import VirtualPerson.Python.JsonRoundTrip

/-!
# The CosyVoice bridge

`CosyVoiceTTSService` and its worker process, joined by two pipes of lines. The calls take
turns on the lock; the worker may print noise and may die at any point. Every line carries,
for the proofs only, the number of the call it belongs to.
-/

namespace VirtualPerson

set_option autoImplicit false

namespace CosyVoice

/-- `json.dumps`; neither side writes a float. -/
def dumpsLine (v : PyVal) : Option PyStr := Json.dumps (fun _ => str "0.0") true v

def requestObject (text lang : PyStr) : PyVal := .dict [(str "text", .str text), (str "lang", .str lang)]

structure Request where
  call : Nat
  text : PyStr
  lang : PyStr

/-- What the client writes for a call, less its line break. -/
def Request.line (r : Request) : PyStr := (dumpsLine (requestObject r.text r.lang)).getD []

/-- `bytes.strip` drops these. -/
def isAsciiSpace (c : Nat) : Bool := c == 0x20 || (0x09 ≤ c && c ≤ 0x0D)

/-- `raw_line.strip().startswith(b"{")` -/
def braced (line : PyStr) : Bool := decide ((line.dropWhile isAsciiSpace).head? = some 0x7B)

/-- A line the worker printed; `call` is the call it answers. -/
structure OutLine where
  call : Option Nat
  text : PyStr

/-- What the model makes of a text. -/
inductive Inference where
  | raised (error : PyStr)
  | noAudio
  | audio (wav : List UInt8) (sampleRate durationMs latencyMs : Int)

/-- What the outside world has in store for one request. -/
structure WorkerEnv where
  /-- The error of `_load_model`, if it raises. -/
  loadError : Option PyStr
  inference : Inference
  /-- The text of a `JSONDecodeError`. -/
  parseError : PyStr

def errorObject (error : PyStr) : PyDict :=
  [(str "ok", .bool false), (str "error", .str error)]

/-- `synthesize`, `none` where it raises. -/
def workerSynthesize (env : WorkerEnv) (req : PyVal) : Option PyDict :=
  match env.loadError with
  | some e => some (errorObject (str "model_load_failed: " ++ e))
  | none =>
    match req with
    | .dict es =>
      match PyDict.getD es (str "text") (.str []) with
      | .str text =>
        if PyStr.strip text = [] then some (errorObject (str "empty_text"))
        else
          match env.inference with
          | .raised e => some (errorObject e)
          | .noAudio => some (errorObject (str "no_audio_generated"))
          | .audio wav sampleRate durationMs latencyMs =>
            some
              [(str "ok", .bool true), (str "audio_b64", .str (Base64.encode wav)),
                (str "sample_rate", .int sampleRate), (str "duration_ms", .int durationMs),
                (str "latency_ms", .int latencyMs)]
      | _ => none
    | _ => none

/-- What the loop of `main` does with one line of its input. -/
inductive Handled where
  | skipped
  | printed (line : PyStr)
  | raised

def handled (printed : Option PyStr) : Handled :=
  match printed with
  | some line => .printed line
  | none => .raised

def handleLine (env : WorkerEnv) (line : PyStr) : Handled :=
  if PyStr.strip line = [] then .skipped
  else
    match Json.loads (PyStr.strip line) with
    | none => handled (dumpsLine (.dict (errorObject (str "json_parse: " ++ env.parseError))))
    | some req => handled ((workerSynthesize env req).bind fun result => dumpsLine (.dict result))

structure Process where
  alive : Bool
  /-- The lines written to it that it has not read. -/
  stdin : List Request
  /-- The request it is at work on. -/
  busy : Option Request
  /-- The lines it printed that nobody has read. -/
  stdout : List OutLine
  /-- The calls whose requests it read, in order. -/
  received : List Nat
  /-- The complete lines it printed, in order. -/
  printed : List OutLine

def Process.started : Process :=
  { alive := true, stdin := [], busy := none, stdout := [], received := [], printed := [] }

def Process.unborn : Process := { Process.started with alive := false }

/-- Where the call that holds the lock stands. -/
inductive Phase where
  | entered
  | checked
  | ready
  | reading
  deriving DecidableEq

structure Bridge where
  /-- The process in `_proc`. -/
  proc : Option Nat
  procs : Nat → Process
  spawned : Nat
  calls : Nat
  lock : Option (Request × Phase)
  /-- The calls that got past reading, each with the line it read. -/
  results : List (Nat × OutLine)

namespace Bridge

def init : Bridge :=
  { proc := none, procs := fun _ => .unborn, spawned := 0, calls := 0, lock := none, results := [] }

def withProcess (s : Bridge) (p : Nat) (x : Process) : Bridge :=
  { s with procs := Function.update s.procs p x }

/-- `Popen`: a process with pipes of its own. -/
def spawn (s : Bridge) : Bridge :=
  { s with
    proc := some s.spawned
    spawned := s.spawned + 1
    procs := Function.update s.procs s.spawned .started }

/-- What `poll() is None` may answer of `_proc`: a worker just dead may still pass for alive. -/
def Polls (s : Bridge) (seenAlive : Bool) : Prop :=
  match s.proc with
  | none => seenAlive = false
  | some p => (s.procs p).alive = true → seenAlive = true

end Bridge

open Bridge

inductive Label where
  | enter
  | restart (seenAlive : Bool)
  | ensure (seenAlive spawns : Bool)
  | background (seenAlive spawns : Bool)
  | write (succeeds : Bool)
  | unassigned
  | readNoise
  | readResponse
  | readEnd
  | receive (p : Nat)
  | answer (p : Nat)
  | skip (p : Nat)
  | noise (p : Nat)
  | die (p : Nat)

/-- One step of one party. -/
inductive Step : Bridge → Label → Bridge → Prop where
  /-- `with self._lock` of a call whose text is cleaned -/
  | enter {s : Bridge} (r : Request) (hlock : s.lock = none) (hcall : r.call = s.calls) :
      Step s .enter { s with calls := s.calls + 1, lock := some (r, .entered) }
  /-- `_auto_restart`; the warm-up it starts is a call of its own -/
  | restart {s : Bridge} {r : Request} {seenAlive : Bool} (hlock : s.lock = some (r, .entered))
      (hpoll : s.Polls seenAlive) :
      Step s (.restart seenAlive)
        { s with lock := some (r, .checked), proc := if seenAlive then s.proc else none }
  /-- `_ensure_worker` inside a call; where `Popen` raises, so does the call -/
  | ensure {s : Bridge} {r : Request} {seenAlive spawns : Bool} (hlock : s.lock = some (r, .checked))
      (hpoll : s.Polls seenAlive) :
      Step s (.ensure seenAlive spawns)
        (if seenAlive then { s with lock := some (r, .ready) }
        else if spawns then { s.spawn with lock := some (r, .ready) }
        else { s with lock := none })
  /-- `_ensure_worker` of a warm-up thread -/
  | background {s : Bridge} {seenAlive spawns : Bool} (hlock : s.lock = none)
      (hpoll : s.Polls seenAlive) :
      Step s (.background seenAlive spawns) (if !seenAlive && spawns then s.spawn else s)
  /-- `stdin.write` and `flush`, which fail only where the worker is dead -/
  | write {s : Bridge} {r : Request} {p : Nat} {succeeds : Bool} (hlock : s.lock = some (r, .ready))
      (hproc : s.proc = some p) (halive : (s.procs p).alive = true → succeeds = true) :
      Step s (.write succeeds)
        (if succeeds then
          { s.withProcess p { s.procs p with stdin := (s.procs p).stdin ++ [r] } with
            lock := some (r, .reading) }
        else { s with lock := none })
  /-- the `assert` before it -/
  | unassigned {s : Bridge} {r : Request} (hlock : s.lock = some (r, .ready)) (hproc : s.proc = none) :
      Step s .unassigned { s with lock := none }
  | readNoise {s : Bridge} {r : Request} {p : Nat} {o : OutLine} {rest : List OutLine}
      (hlock : s.lock = some (r, .reading)) (hproc : s.proc = some p)
      (hout : (s.procs p).stdout = o :: rest) (hnoise : braced o.text = false) :
      Step s .readNoise (s.withProcess p { s.procs p with stdout := rest })
  | readResponse {s : Bridge} {r : Request} {p : Nat} {o : OutLine} {rest : List OutLine}
      (hlock : s.lock = some (r, .reading)) (hproc : s.proc = some p)
      (hout : (s.procs p).stdout = o :: rest) (hbraced : braced o.text = true) :
      Step s .readResponse
        { s.withProcess p { s.procs p with stdout := rest } with
          lock := none, results := s.results ++ [(r.call, o)] }
  /-- `readline` returned nothing -/
  | readEnd {s : Bridge} {r : Request} {p : Nat} (hlock : s.lock = some (r, .reading))
      (hproc : s.proc = some p) (hout : (s.procs p).stdout = []) (hdead : (s.procs p).alive = false) :
      Step s .readEnd { s with proc := none, lock := none }
  | receive {s : Bridge} {p : Nat} {r : Request} {rest : List Request}
      (halive : (s.procs p).alive = true) (hidle : (s.procs p).busy = none)
      (hin : (s.procs p).stdin = r :: rest) :
      Step s (.receive p)
        (s.withProcess p
          { s.procs p with
            stdin := rest, busy := some r, received := (s.procs p).received ++ [r.call] })
  | answer {s : Bridge} {p : Nat} {r : Request} {env : WorkerEnv} {line : PyStr}
      (halive : (s.procs p).alive = true) (hbusy : (s.procs p).busy = some r)
      (hline : handleLine env r.line = .printed line) :
      Step s (.answer p)
        (s.withProcess p
          { s.procs p with
            busy := none
            stdout := (s.procs p).stdout ++ [⟨some r.call, line⟩]
            printed := (s.procs p).printed ++ [⟨some r.call, line⟩] })
  /-- a blank line is answered by nothing -/
  | skip {s : Bridge} {p : Nat} {r : Request} {env : WorkerEnv} (halive : (s.procs p).alive = true)
      (hbusy : (s.procs p).busy = some r) (hskip : handleLine env r.line = .skipped) :
      Step s (.skip p) (s.withProcess p { s.procs p with busy := none })
  | noise {s : Bridge} {p : Nat} {text : PyStr} (halive : (s.procs p).alive = true)
      (hnoise : braced text = false) (hline : 0x0A ∉ text) :
      Step s (.noise p)
        (s.withProcess p
          { s.procs p with
            stdout := (s.procs p).stdout ++ [⟨none, text⟩]
            printed := (s.procs p).printed ++ [⟨none, text⟩] })
  /-- at any point -/
  | die {s : Bridge} {p : Nat} (halive : (s.procs p).alive = true) :
      Step s (.die p) (s.withProcess p { s.procs p with alive := false })
  /-- in the middle of printing an answer, of which a beginning is left in the pipe -/
  | dieAnswering {s : Bridge} {p : Nat} {r : Request} {env : WorkerEnv} {line torn : PyStr}
      (halive : (s.procs p).alive = true) (hbusy : (s.procs p).busy = some r)
      (hline : handleLine env r.line = .printed line) (htorn : torn <+: line) (hne : torn ≠ []) :
      Step s (.die p)
        (s.withProcess p
          { s.procs p with
            alive := false
            busy := none
            stdout := (s.procs p).stdout ++ [⟨some r.call, torn⟩] })

def system : System Bridge Label where
  init s := s = .init
  step := Step

theorem dumps_dict_head {repr : ℚ → PyStr} {ascii : Bool} {es : PyDict} {t : PyStr}
    (h : Json.dumps repr ascii (.dict es) = some t) : ∃ s, t = 0x7B :: s := by
  rw [Json.dumps] at h
  obtain ⟨ts, -, rfl⟩ := Option.map_eq_some_iff.mp h
  exact ⟨_, rfl⟩

theorem braced_cons (s : PyStr) : braced (0x7B :: s) = true := rfl

theorem Request.line_eq (r : Request) : dumpsLine (requestObject r.text r.lang) = some r.line := rfl

/-- A request is no blank line. -/
theorem Request.strip_ne_nil (r : Request) : PyStr.strip r.line ≠ [] := by
  obtain ⟨s, hs⟩ := dumps_dict_head r.line_eq
  rw [ne_eq, PyStr.strip_eq_nil_iff, hs]
  exact List.cons_ne_nil 0x7B _

theorem handled_eq_printed {printed : Option PyStr} {line : PyStr} (h : handled printed = .printed line) :
    printed = some line := by
  cases printed with
  | none => cases h
  | some line' => rw [Handled.printed.inj h]

/-- Whatever the worker prints for a line is a dict. -/
theorem handleLine_printed {env : WorkerEnv} {request line : PyStr}
    (h : handleLine env request = .printed line) : ∃ es, dumpsLine (.dict es) = some line := by
  unfold handleLine at h
  split at h
  · cases h
  · split at h
    · exact ⟨_, handled_eq_printed h⟩
    · obtain ⟨es, -, hdumps⟩ := Option.bind_eq_some_iff.mp (handled_eq_printed h)
      exact ⟨es, hdumps⟩

theorem handleLine_ne_skipped (env : WorkerEnv) (r : Request) : handleLine env r.line ≠ .skipped := by
  unfold handleLine
  rw [if_neg r.strip_ne_nil]
  split
  · cases dumpsLine (.dict (errorObject (str "json_parse: " ++ env.parseError))) <;> exact Handled.noConfusion
  · rename_i req _
    cases (workerSynthesize env req).bind fun result => dumpsLine (.dict result) <;>
      exact Handled.noConfusion

theorem strip_enclosed (s : PyStr) : PyStr.strip ([0x7B] ++ s ++ [0x7D]) = [0x7B] ++ s ++ [0x7D] := by
  have hleft : PyStr.lstrip ([0x7B] ++ s ++ [0x7D]) = [0x7B] ++ s ++ [0x7D] := rfl
  rw [PyStr.strip, hleft]
  exact List.rdropWhile_concat_neg _ _ _ (by decide)

/-- The worker reads what the client wrote, where no text holds half a surrogate pair. -/
theorem handleLine_request (env : WorkerEnv) (r : Request) (htext : Json.Stable r.text = true)
    (hlang : Json.Stable r.lang = true) :
    handleLine env r.line =
      handled ((workerSynthesize env (requestObject r.text r.lang)).bind fun result =>
        dumpsLine (.dict result)) := by
  have hexact : Json.Exact (fun _ => str "0.0") (requestObject r.text r.lang) := by
    have hkeys : [str "text", str "lang"].Nodup := by decide
    exact ⟨hkeys, by decide, htext, by decide, hlang, trivial⟩
  have hstrip : PyStr.strip r.line = r.line := strip_enclosed _
  unfold handleLine
  rw [if_neg r.strip_ne_nil, hstrip, Json.loads_dumps_exact hexact r.line_eq]

/-- An answer, or the beginning of one, is a line that the client takes. -/
theorem braced_torn {env : WorkerEnv} {request line torn : PyStr}
    (h : handleLine env request = .printed line) (htorn : torn <+: line) (hne : torn ≠ []) :
    braced torn = true := by
  obtain ⟨es, hdumps⟩ := handleLine_printed h
  obtain ⟨s, rfl⟩ := dumps_dict_head hdumps
  cases torn with
  | nil => exact absurd rfl hne
  | cons c torn =>
    rw [(List.cons_prefix_cons.mp htorn).1]
    exact braced_cons torn

/-- The calls answered by these lines. -/
def answersIn (out : List OutLine) : List Nat := out.filterMap (·.call)

namespace Process

variable {x : Process} {E : List Nat}

/-- The calls whose requests or answers are under way in a process, the oldest first. -/
def due (x : Process) : List Nat := answersIn x.stdout ++ (x.busy.toList ++ x.stdin).map (·.call)

/-- Just the answers `E` are still to be read of the process, which a dead one may owe. -/
structure Owing (E : List Nat) (x : Process) : Prop where
  unread : answersIn x.stdout <+: E
  due : x.alive = true → x.due = E

/-- A line answers a call when it looks like an answer, and the calls answered are those read but
for the one at work on. -/
structure Booked (x : Process) : Prop where
  unread : ∀ o ∈ x.stdout, braced o.text = o.call.isSome
  printed : ∀ o ∈ x.printed, braced o.text = o.call.isSome
  received : x.alive = true → x.received = answersIn x.printed ++ x.busy.toList.map (·.call)

theorem owing_started : Owing [] Process.started := ⟨List.prefix_refl [], fun _ => rfl⟩

theorem booked_started : Booked Process.started :=
  ⟨fun _ h => absurd h List.not_mem_nil, fun _ h => absurd h List.not_mem_nil, fun _ => rfl⟩

theorem booked_unborn : Booked Process.unborn :=
  ⟨fun _ h => absurd h List.not_mem_nil, fun _ h => absurd h List.not_mem_nil, fun h => by cases h⟩

section Moves

variable {r : Request} {o : OutLine} {rest : List OutLine}

theorem Owing.receive {pending : List Request} (h : Owing E x) (hidle : x.busy = none)
    (hin : x.stdin = r :: pending) :
    Owing E { x with stdin := pending, busy := some r, received := x.received ++ [r.call] } := by
  refine ⟨h.unread, fun halive => (h.due halive) ▸ ?_⟩
  simp [Process.due, hidle, hin]

theorem Booked.receive {pending : List Request} (h : Booked x) (hidle : x.busy = none)
    (halive : x.alive = true) :
    Booked { x with stdin := pending, busy := some r, received := x.received ++ [r.call] } := by
  refine ⟨h.unread, h.printed, fun _ => ?_⟩
  have hreceived := h.received halive
  rw [hidle] at hreceived
  simp [hreceived]

theorem Owing.answer (h : Owing E x) (hbusy : x.busy = some r) (halive : x.alive = true) (line : PyStr) :
    Owing E
      { x with
        busy := none
        stdout := x.stdout ++ [⟨some r.call, line⟩]
        printed := x.printed ++ [⟨some r.call, line⟩] } := by
  have hdue := h.due halive
  refine ⟨?_, fun _ => ?_⟩
  · rw [← hdue]
    simp [Process.due, hbusy, answersIn]
  · rw [← hdue]
    simp [Process.due, hbusy, answersIn]

theorem Booked.answer (h : Booked x) (hbusy : x.busy = some r) (halive : x.alive = true)
    {line : PyStr} (hline : braced line = true) :
    Booked
      { x with
        busy := none
        stdout := x.stdout ++ [⟨some r.call, line⟩]
        printed := x.printed ++ [⟨some r.call, line⟩] } := by
  refine ⟨?_, ?_, fun _ => ?_⟩
  · exact List.forall_mem_append.mpr ⟨h.unread, List.forall_mem_singleton.mpr hline⟩
  · exact List.forall_mem_append.mpr ⟨h.printed, List.forall_mem_singleton.mpr hline⟩
  · have hreceived := h.received halive
    rw [hbusy] at hreceived
    simp [hreceived, answersIn]

theorem Owing.noise (h : Owing E x) (text : PyStr) :
    Owing E
      { x with
        stdout := x.stdout ++ [⟨none, text⟩]
        printed := x.printed ++ [⟨none, text⟩] } := by
  have hsame : answersIn (x.stdout ++ [⟨none, text⟩]) = answersIn x.stdout := by
    simp [answersIn]
  refine ⟨hsame ▸ h.unread, fun halive => ?_⟩
  rw [← h.due halive, Process.due, Process.due, hsame]

theorem Booked.noise (h : Booked x) {text : PyStr} (hnoise : braced text = false) :
    Booked
      { x with
        stdout := x.stdout ++ [⟨none, text⟩]
        printed := x.printed ++ [⟨none, text⟩] } := by
  refine ⟨?_, ?_, fun halive => ?_⟩
  · exact List.forall_mem_append.mpr ⟨h.unread, List.forall_mem_singleton.mpr hnoise⟩
  · exact List.forall_mem_append.mpr ⟨h.printed, List.forall_mem_singleton.mpr hnoise⟩
  · rw [h.received halive]
    simp [answersIn]

theorem Owing.dead (h : Owing E x) : Owing E { x with alive := false } :=
  ⟨h.unread, fun halive => by cases halive⟩

theorem Booked.dead (h : Booked x) : Booked { x with alive := false } :=
  ⟨h.unread, h.printed, fun halive => by cases halive⟩

theorem Owing.deadAnswering (h : Owing E x) (hbusy : x.busy = some r) (halive : x.alive = true)
    (torn : PyStr) :
    Owing E { x with alive := false, busy := none, stdout := x.stdout ++ [⟨some r.call, torn⟩] } := by
  refine ⟨?_, fun halive' => by cases halive'⟩
  rw [← h.due halive]
  simp [Process.due, hbusy, answersIn]

theorem Booked.deadAnswering (h : Booked x) {torn : PyStr} (htorn : braced torn = true) :
    Booked { x with alive := false, busy := none, stdout := x.stdout ++ [⟨some r.call, torn⟩] } := by
  refine ⟨?_, h.printed, fun halive => by cases halive⟩
  exact List.forall_mem_append.mpr ⟨h.unread, List.forall_mem_singleton.mpr htorn⟩

/-- A request written to a process that owes nothing is all it owes. -/
theorem Owing.write (h : Owing [] x) (r : Request) : Owing [r.call] { x with stdin := x.stdin ++ [r] } := by
  have hnone : answersIn x.stdout = [] := List.prefix_nil.mp h.unread
  refine ⟨hnone ▸ List.nil_prefix, fun halive => ?_⟩
  have hdue := h.due halive
  simp only [Process.due, hnone, List.nil_append, List.map_eq_nil_iff, List.append_eq_nil_iff] at hdue
  simp [Process.due, hnone, hdue.1, hdue.2]

theorem Booked.write (h : Booked x) (r : Request) : Booked { x with stdin := x.stdin ++ [r] } :=
  ⟨h.unread, h.printed, h.received⟩

theorem Booked.read (h : Booked x) (hout : x.stdout = o :: rest) :
    Booked { x with stdout := rest } :=
  ⟨fun o' ho' => h.unread o' (hout ▸ List.mem_cons_of_mem o ho'), h.printed, h.received⟩

theorem Owing.readNoise (h : Owing E x) (hout : x.stdout = o :: rest) (hcall : o.call = none) :
    Owing E { x with stdout := rest } := by
  have hsame : answersIn x.stdout = answersIn rest := by
    rw [hout, answersIn, List.filterMap_cons_none hcall]
    rfl
  refine ⟨hsame ▸ h.unread, fun halive => ?_⟩
  rw [← h.due halive, Process.due, Process.due, hsame]

/-- The first answer read of a process is the one it owes, and then it owes nothing. -/
theorem Owing.readResponse {c : Nat} (h : Owing [c] x) (hout : x.stdout = o :: rest)
    (hcall : o.call.isSome = true) : o.call = some c ∧ Owing [] { x with stdout := rest } := by
  obtain ⟨d, hd⟩ := Option.isSome_iff_exists.mp hcall
  have hsplit : answersIn x.stdout = d :: answersIn rest := by
    rw [hout, answersIn, List.filterMap_cons_some hd]
    rfl
  have hunread := h.unread
  rw [hsplit, List.cons_prefix_cons] at hunread
  refine ⟨hunread.1 ▸ hd, hunread.2, fun halive => ?_⟩
  have hdue := h.due halive
  rw [Process.due, hsplit, List.cons_append] at hdue
  exact (List.cons.inj hdue).2

end Moves

end Process

open Process

/-- The answers still to be read: that of the call that has written its request. -/
def Bridge.expected (s : Bridge) : List Nat :=
  match s.lock with
  | some (r, .reading) => [r.call]
  | _ => []

structure InStep (s : Bridge) : Prop where
  current : ∀ p, s.proc = some p → Owing s.expected (s.procs p)
  booked : ∀ p, Booked (s.procs p)
  results : ∀ c o, (c, o) ∈ s.results → o.call = some c

section Invariant

variable {s t : Bridge} {l : Label}

theorem inStep_init : InStep init where
  current := fun p hp => by cases hp
  booked := fun p => booked_unborn
  results := fun c o h => absurd h List.not_mem_nil

theorem booked_withProcess (h : ∀ p, Booked (s.procs p)) {p : Nat} {x : Process}
    (hx : Booked x) (q : Nat) : Booked ((s.withProcess p x).procs q) := by
  by_cases hq : q = p
  · subst hq
    simpa [withProcess] using hx
  · simpa [withProcess, hq] using h q

theorem owing_withProcess {E : List Nat} {p : Nat} {x : Process} (hx : s.proc = some p → Owing E x)
    (h : ∀ q, s.proc = some q → Owing E (s.procs q)) (q : Nat) (hq : s.proc = some q) :
    Owing E ((s.withProcess p x).procs q) := by
  by_cases hqp : q = p
  · subst hqp
    simpa [withProcess] using hx hq
  · simpa [withProcess, hqp] using h q hq

/-- What one process does that changes nothing of what it owes. -/
theorem InStep.work (h : InStep s) {p : Nat} {x : Process}
    (howes : ∀ E, Owing E (s.procs p) → Owing E x) (hx : Booked x) : InStep (s.withProcess p x) where
  current := fun q hq =>
    owing_withProcess (E := s.expected) (fun hp => howes _ (h.current p hp)) h.current q hq
  booked := booked_withProcess h.booked hx
  results := h.results

/-- A step of the client that touches no process, before its request or after its answer. -/
theorem InStep.turn (h : InStep s) (hexpected : t.expected = s.expected)
    (hproc : ∀ p, t.proc = some p → s.proc = some p) (hprocs : t.procs = s.procs)
    (hresults : t.results = s.results) : InStep t where
  current := by
    intro p hp
    rw [hexpected, hprocs]
    exact h.current p (hproc p hp)
  booked := by
    rw [hprocs]
    exact h.booked
  results := by
    rw [hresults]
    exact h.results

/-- A step of the client on the pipes of the process it holds. -/
theorem InStep.exchange (h : InStep s) {p : Nat} {x : Process} (hproc : t.proc = some p)
    (hprocs : t.procs = (s.withProcess p x).procs) (howes : Owing t.expected x) (hx : Booked x)
    (hresults : ∀ c o, (c, o) ∈ t.results → o.call = some c) : InStep t where
  current := by
    intro q hq
    obtain rfl : p = q := Option.some.inj (hproc.symm.trans hq)
    rw [hprocs]
    simpa [withProcess] using howes
  booked := by
    rw [hprocs]
    exact booked_withProcess h.booked hx
  results := hresults

theorem InStep.spawn (h : InStep s) (hexpected : t.expected = []) (hproc : t.proc = some s.spawned)
    (hprocs : t.procs = s.spawn.procs) (hresults : t.results = s.results) : InStep t where
  current := by
    intro p hp
    obtain rfl : s.spawned = p := Option.some.inj (hproc.symm.trans hp)
    rw [hexpected, hprocs]
    simpa [Bridge.spawn] using owing_started
  booked := by
    rw [hprocs]
    exact booked_withProcess h.booked booked_started
  results := by
    rw [hresults]
    exact h.results

theorem InStep.step (h : InStep s) (hstep : Step s l t) : InStep t := by
  cases hstep with
  | enter r hlock hcall =>
    refine h.turn ?_ (fun p hp => hp) rfl rfl
    simp [expected, hlock]
  | restart hlock hpoll =>
    rename_i r seenAlive
    refine h.turn ?_ ?_ rfl rfl
    · simp [expected, hlock]
    · intro p hp
      cases seenAlive with
      | true => exact hp
      | false => cases hp
  | ensure hlock hpoll =>
    rename_i r seenAlive spawns
    cases seenAlive with
    | true =>
      refine h.turn ?_ (fun p hp => hp) rfl rfl
      simp [expected, hlock]
    | false =>
      cases spawns with
      | true => exact h.spawn rfl rfl rfl rfl
      | false =>
        refine h.turn ?_ (fun p hp => hp) rfl rfl
        simp [expected, hlock]
  | background hlock hpoll =>
    rename_i seenAlive spawns
    cases seenAlive with
    | true => exact h
    | false =>
      cases spawns with
      | true =>
        refine h.spawn ?_ rfl rfl rfl
        simp [expected, Bridge.spawn, hlock]
      | false => exact h
  | write hlock hproc halive =>
    rename_i r p succeeds
    have hnone : s.expected = [] := by simp [expected, hlock]
    cases succeeds with
    | true =>
      have howes := h.current p hproc
      rw [hnone] at howes
      exact h.exchange hproc rfl (howes.write r) ((h.booked p).write r) h.results
    | false => exact h.turn hnone.symm (fun p hp => hp) rfl rfl
  | unassigned hlock hproc =>
    refine h.turn ?_ (fun p hp => hp) rfl rfl
    simp [expected, hlock]
  | readNoise hlock hproc hout hnoise =>
    rename_i r p o rest
    have hcall : o.call = none := by
      have hmark := (h.booked p).unread o (hout ▸ List.mem_cons_self)
      rw [hnoise] at hmark
      simpa using hmark.symm
    exact h.work (fun E hE => hE.readNoise hout hcall) ((h.booked p).read hout)
  | readResponse hlock hproc hout hbraced =>
    rename_i r p o rest
    have hcall : o.call.isSome = true := by
      rw [← (h.booked p).unread o (hout ▸ List.mem_cons_self), hbraced]
    have howes := h.current p hproc
    have hexpected : s.expected = [r.call] := by simp [expected, hlock]
    rw [hexpected] at howes
    obtain ⟨hown, hrest⟩ := howes.readResponse hout hcall
    refine h.exchange hproc rfl hrest ((h.booked p).read hout) ?_
    intro c o' hmem
    rcases List.mem_append.mp hmem with hmem | hmem
    · exact h.results c o' hmem
    · cases List.mem_singleton.mp hmem
      exact hown
  | readEnd hlock hproc hout hdead =>
    exact ⟨fun p hp => (by cases hp), h.booked, h.results⟩
  | receive halive hidle hin =>
    exact h.work (fun E hE => hE.receive hidle hin) ((h.booked _).receive hidle halive)
  | answer halive hbusy hline =>
    have hbraced := braced_torn hline (List.prefix_refl _) (by
      obtain ⟨es, hdumps⟩ := handleLine_printed hline
      obtain ⟨s, rfl⟩ := dumps_dict_head hdumps
      exact List.cons_ne_nil 0x7B s)
    exact h.work (fun E hE => hE.answer hbusy halive _) ((h.booked _).answer hbusy halive hbraced)
  | skip halive hbusy hskip => exact absurd hskip (handleLine_ne_skipped _ _)
  | noise halive hnoise hline =>
    exact h.work (fun E hE => hE.noise _) ((h.booked _).noise hnoise)
  | die halive => exact h.work (fun E hE => hE.dead) (h.booked _).dead
  | dieAnswering halive hbusy hline htorn hne =>
    exact h.work (fun E hE => hE.deadAnswering hbusy halive _)
      ((h.booked _).deadAnswering (braced_torn hline htorn hne))

/-- A call that gets past reading has read the answer to its own request, and a living worker has
printed just one answer to each request it read, but for the one it is at work on. -/
theorem cosyVoice_in_step (h : system.Reachable s) :
    (∀ c o, (c, o) ∈ s.results → o.call = some c) ∧
      ∀ p, (s.procs p).alive = true →
        (s.procs p).received =
            answersIn (s.procs p).printed ++ (s.procs p).busy.toList.map (·.call) ∧
          ∀ o ∈ (s.procs p).printed, braced o.text = o.call.isSome := by
  have hinv : InStep s := by
    apply h.invariant (I := InStep)
    · rintro s rfl
      exact inStep_init
    · exact fun h hstep => h.step hstep
  refine ⟨hinv.results, fun p halive => ?_⟩
  exact ⟨(hinv.booked p).received halive, (hinv.booked p).printed⟩

end Invariant

def hi : Request := { call := 0, text := str "hi", lang := str "en" }

def again : Request := { call := 1, text := str "you", lang := str "en" }

def noGpu : WorkerEnv := { loadError := some (str "no GPU"), inference := .noAudio, parseError := [] }

/-- A call starts the worker, which fails to load its model and says so; a line of a library is left in the
pipe, and the next call reads past it to its own answer. -/
theorem cosyVoice_in_step_hi :
    ∃ s, system.Reachable s ∧ s.results.map (fun result => (result.1, result.2.call)) =
      [(0, some 0), (1, some 1)] ∧
      (∀ c o, (c, o) ∈ s.results → o.call = some c) ∧
      ∀ p, (s.procs p).alive = true →
        (s.procs p).received =
            answersIn (s.procs p).printed ++ (s.procs p).busy.toList.map (·.call) ∧
          ∀ o ∈ (s.procs p).printed, braced o.text = o.call.isSome := by
  obtain ⟨line, hline⟩ : ∃ line, handleLine noGpu hi.line = .printed line := by
    rw [handleLine_request noGpu hi (by decide) (by decide)]
    exact ⟨_, rfl⟩
  obtain ⟨line', hline'⟩ : ∃ line, handleLine noGpu again.line = .printed line := by
    rw [handleLine_request noGpu again (by decide) (by decide)]
    exact ⟨_, rfl⟩
  have hbraced {r : Request} {line : PyStr} (h : handleLine noGpu r.line = .printed line) :
      braced line = true := by
    obtain ⟨es, hdumps⟩ := handleLine_printed h
    obtain ⟨s, rfl⟩ := dumps_dict_head hdumps
    exact braced_cons s
  have hinit : system.Reachable .init := .of_init rfl
  have hentered := hinit.step (Step.enter hi rfl rfl)
  have hchecked := hentered.step (show Step _ (.restart false) _ from .restart rfl rfl)
  have hready := hchecked.step (show Step _ (.ensure false true) _ from .ensure rfl rfl)
  have hwritten := hready.step (show Step _ (.write true) _ from .write rfl rfl fun _ => rfl)
  have hreceived := hwritten.step (show Step _ (.receive 0) _ from .receive rfl rfl rfl)
  have hanswered := hreceived.step (show Step _ (.answer 0) _ from .answer rfl rfl hline)
  have hread := hanswered.step (show Step _ .readResponse _ from .readResponse rfl rfl rfl (hbraced hline))
  have hnoise := hread.step (show Step _ (.noise 0) _ from
    @Step.noise _ 0 (str "loading") rfl (by decide) (by decide))
  have hentered' := hnoise.step (Step.enter again rfl rfl)
  have hchecked' := hentered'.step (show Step _ (.restart true) _ from .restart rfl fun _ => rfl)
  have hready' := hchecked'.step (show Step _ (.ensure true false) _ from .ensure rfl fun _ => rfl)
  have hwritten' := hready'.step (show Step _ (.write true) _ from .write rfl rfl fun _ => rfl)
  have hreceived' := hwritten'.step (show Step _ (.receive 0) _ from .receive rfl rfl rfl)
  have hanswered' := hreceived'.step (show Step _ (.answer 0) _ from .answer rfl rfl hline')
  have hskipped := hanswered'.step (show Step _ .readNoise _ from .readNoise rfl rfl rfl (by decide))
  have hread' := hskipped.step (show Step _ .readResponse _ from .readResponse rfl rfl rfl (hbraced hline'))
  exact ⟨_, hread', rfl, cosyVoice_in_step hread'⟩

end CosyVoice

end VirtualPerson
