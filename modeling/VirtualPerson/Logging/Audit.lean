import VirtualPerson.LineLog
import VirtualPerson.Infra.Redis
import VirtualPerson.Python.JsonRoundTrip

/-!
# The audit log

`AuditLogger` keeps every event in memory and appends each as a line of JSON to a file; an
append that fails is let pass. What a reader of the file gets back.
-/

namespace VirtualPerson

set_option autoImplicit false

namespace AuditLogger

/-- An `AuditEvent` with its time -/
structure Event where
  type : PyStr
  detail : PyStr
  loggedAt : PyStr
  deriving DecidableEq

/-- `asdict(event)` -/
def Event.asdict (e : Event) : PyVal :=
  .dict [(str "type", .str e.type), (str "detail", .str e.detail), (str "at", .str e.loggedAt)]

/-- `json.dumps(asdict(event), ensure_ascii=False)` -/
def Event.line (e : Event) : PyStr := (Json.dumps (fun _ => []) false e.asdict).getD []

structure Log where
  events : List Event
  file : PyStr

/-- In the file, the bytes that are left of a character cut in two -/
def tornCharacter : Nat := 0x110000

/-- What the file system makes of an append; a cut goes between two characters or through one. -/
inductive Append where
  | written
  | failed
  | cut (k : Nat) (within : Bool)

def Append.outcome : Append → LineLog.Outcome Nat
  | .written => .written
  | .failed => .failed
  | .cut k within => .cut k (if within then [tornCharacter] else [])

/-- What becomes of the append: text that does not encode is not written. -/
def Event.outcome (e : Event) (system : Append) : LineLog.Outcome Nat :=
  if Redis.encodes e.line then system.outcome else .failed

def log (l : Log) (e : Event × Append) : Log :=
  { events := l.events ++ [e.1], file := LineLog.append 0x0A l.file (e.1.line, e.1.outcome e.2) }

def Event.ofDict (v : PyVal) : Option Event :=
  match v with
  | .dict d =>
    match PyDict.get? d (str "type"), PyDict.get? d (str "detail"), PyDict.get? d (str "at") with
    | some (.str type), some (.str detail), some (.str loggedAt) => some ⟨type, detail, loggedAt⟩
    | _, _, _ => none
  | _ => none

/-- What a reader makes of a line; one that is not UTF-8 is skipped. -/
def readLine (line : PyStr) : Option Event :=
  if tornCharacter ∈ line then none else (Json.loads line).bind Event.ofDict

/-- A reader of the file, line by line -/
def read (file : PyStr) : List Event := (file.splitOn 0x0A).filterMap readLine

variable {e : Event} {calls : List (Event × Append)}

theorem line_eq (e : Event) : Json.dumps (fun _ => []) false e.asdict = some e.line := rfl

theorem newline_notMem_line (e : Event) : 0x0A ∉ e.line := by
  intro hmem
  have hprintable := Json.dumps_printable (fun _ _ hc => by cases hc) e.asdict (line_eq e) 0x0A hmem
  omega

/-- Outside ASCII a character stands in the text as it is. -/
theorem escape_self {c : Nat} (hc : 0x80 ≤ c) : Json.escape false c = [c] := by
  have hshort : Assoc.get? Json.shortEscapes c = none := by
    rw [Assoc.get?, Option.map_eq_none_iff, List.find?_eq_none]
    intro p hp
    have hlow : p.1 < 0x80 := by
      revert p
      decide
    rw [beq_iff_eq]
    omega
  rw [Json.escape, hshort]
  exact if_pos ⟨by omega, .inr rfl⟩

theorem encodes_of_quote {s : PyStr} (h : Redis.encodes (Json.quote false s) = true) :
    Redis.encodes s = true := by
  rw [Redis.encodes, List.all_eq_true] at h ⊢
  intro c hc
  by_cases hlow : c < 0x80
  · simp
    omega
  · apply h c
    rw [Json.quote, List.mem_append, List.mem_append, List.mem_flatMap]
    refine .inl (.inr ⟨c, hc, ?_⟩)
    rw [escape_self (Nat.not_lt.mp hlow)]
    exact List.mem_singleton_self c

theorem stable_of_encodes {s : PyStr} (h : Redis.encodes s = true) : Json.Stable s = true := by
  induction s with
  | nil => rfl
  | cons c s ih =>
    rw [Redis.encodes, List.all_cons, Bool.and_eq_true] at h
    obtain ⟨hc, hs⟩ := h
    simp only [Bool.or_eq_true, Bool.and_eq_true, decide_eq_true_eq] at hc
    have hhigh : Json.isHigh c = false := by
      rw [Bool.eq_false_iff, Ne, Json.isHigh, Bool.and_eq_true, decide_eq_true_eq, decide_eq_true_eq]
      omega
    have hlt : c < 0x110000 := by omega
    rw [Json.Stable, ih hs, hhigh]
    simp [hlt]

theorem encodes_append {s t : PyStr} (h : Redis.encodes (s ++ t) = true) :
    Redis.encodes s = true ∧ Redis.encodes t = true := by
  rwa [Redis.encodes, List.all_append, Bool.and_eq_true] at h

theorem plain_of_encodes (h : Redis.encodes e.line = true) : Json.Plain e.asdict = true := by
  let field : String → PyStr → PyStr := fun key value => Json.entry false (str key) (Json.quote false value)
  have hline : e.line = [0x7B] ++ (field "type" e.type ++ (str ", " ++ (field "detail" e.detail ++
      (str ", " ++ field "at" e.loggedAt)))) ++ [0x7D] := by
    simp [Event.line, Event.asdict, Json.dumps, Json.dumpsEntries, List.intercalate, field]
  have hfield : ∀ key value, Redis.encodes (field key value) = true → Json.Stable value = true :=
    fun key value hfield => stable_of_encodes (encodes_of_quote (encodes_append hfield).2)
  rw [hline] at h
  obtain ⟨htype, hrest⟩ := encodes_append (encodes_append (encodes_append h).1).2
  obtain ⟨hdetail, hrest⟩ := encodes_append (encodes_append hrest).2
  obtain ⟨-, hat⟩ := encodes_append hrest
  have hkeys : ([str "type", str "detail", str "at"] : List PyStr).Nodup := by decide
  simp only [Event.asdict, Json.Plain, Json.plainEntries, hfield _ _ htype, hfield _ _ hdetail,
    hfield _ _ hat, List.map_cons, List.map_nil, hkeys, Bool.and_true, decide_true, Bool.true_and]
  decide

/-- What was written reads back. -/
theorem readLine_line (h : Redis.encodes e.line = true) : readLine e.line = some e := by
  have hwhole : tornCharacter ∉ e.line := fun hmem => by
    have hencodes := List.all_eq_true.mp h _ hmem
    revert hencodes
    decide
  rw [readLine, if_neg hwhole, Json.loads_dumps (plain_of_encodes h) (line_eq e)]
  rfl

def run (calls : List (Event × Append)) : Log := calls.foldl log { events := [], file := [] }

def entry (call : Event × Append) : List Nat × LineLog.Outcome Nat :=
  (call.1.line, call.1.outcome call.2)

/-- The events that were written whole, each after a whole line -/
def standing (whole : Bool) : List (Event × Append) → List Event
  | [] => []
  | call :: calls =>
    match call.1.outcome call.2 with
    | .written => if whole then call.1 :: standing true calls else standing true calls
    | .failed => standing whole calls
    | .cut _ _ => standing false calls

theorem foldl_log (l : Log) (calls : List (Event × Append)) :
    calls.foldl log l =
      { events := l.events ++ calls.map Prod.fst
        file := (calls.map entry).foldl (LineLog.append 0x0A) l.file } := by
  induction calls generalizing l with
  | nil => simp
  | cons call calls ih =>
    rw [List.foldl_cons, ih]
    simp [log, entry]

theorem newline_notMem_torn (e : Event) (system : Append) : 0x0A ∉ (e.outcome system).torn := by
  unfold Event.outcome
  split
  · cases system with
    | written => exact List.not_mem_nil
    | failed => exact List.not_mem_nil
    | cut k within =>
      cases within with
      | false => exact List.not_mem_nil
      | true =>
        intro hmem
        have hnewline : 0x0A = tornCharacter := List.mem_singleton.mp hmem
        revert hnewline
        decide
  · exact List.not_mem_nil

theorem read_run (calls : List (Event × Append)) :
    read (run calls).file = (LineLog.lines [] (calls.map entry)).filterMap readLine := by
  have hlines : ∀ x ∈ calls.map entry, 0x0A ∉ x.1 ∧ 0x0A ∉ x.2.torn := by
    intro x hx
    obtain ⟨call, -, rfl⟩ := List.mem_map.mp hx
    exact ⟨newline_notMem_line call.1, newline_notMem_torn call.1 call.2⟩
  have hnil : 0x0A ∉ ([] : PyStr) := List.not_mem_nil
  have hsplit := LineLog.splitOn_lines hnil hlines
  rw [read, run, foldl_log, LineLog.foldl_append]
  exact congrArg _ hsplit

theorem encodes_of_written {system : Append} (h : e.outcome system = .written) :
    Redis.encodes e.line = true := by
  by_contra hbad
  rw [Event.outcome, if_neg hbad] at h
  cases h

theorem clean_standing (whole : Bool) (calls : List (Event × Append)) :
    (LineLog.clean whole (calls.map entry)).filterMap readLine = standing whole calls := by
  induction calls generalizing whole with
  | nil => rfl
  | cons call calls ih =>
    rw [List.map_cons, entry, standing]
    cases houtcome : call.1.outcome call.2 with
    | written =>
      have hread := readLine_line (encodes_of_written houtcome)
      cases whole with
      | true =>
        rw [LineLog.clean, if_pos rfl, List.filterMap_cons_some hread, ih]
        rfl
      | false => exact ih true
    | failed => exact ih whole
    | cut k torn => exact ih false

/-- Every event is kept in memory. A reader of the file gets, in their order, all the events that were
written whole after a whole line, whatever characters they hold and whatever else failed; and where no
append was cut short it gets exactly those that were written. -/
theorem audit_reads_back (calls : List (Event × Append)) :
    (run calls).events = calls.map Prod.fst ∧
      (standing true calls).Sublist (read (run calls).file) ∧
      ((∀ call ∈ calls, (call.1.outcome call.2).isCut = false) →
        read (run calls).file = standing true calls) := by
  refine ⟨?_, ?_, ?_⟩
  · rw [run, foldl_log, List.nil_append]
  · rw [read_run, ← clean_standing]
    exact (LineLog.clean_sublist _).1.filterMap _
  · intro hnone
    have hcut : ∀ x ∈ calls.map entry, x.2.isCut = false := by
      intro x hx
      obtain ⟨call, hcall, rfl⟩ := List.mem_map.mp hx
      exact hnone call hcall
    rw [read_run, LineLog.lines_eq hcut, List.filterMap_append, clean_standing]
    exact List.append_nil _

end AuditLogger

end VirtualPerson
