import Mathlib.Data.List.ReduceOption
import VirtualPerson.Python.Value
import VirtualPerson.Transition

/-!
# The incremental TTS worker

`tts_worker` as a machine that takes chunks from its queue, merges them into
sentences and has them spoken, and its run next to the producer that fills the queue.
-/

namespace VirtualPerson

set_option autoImplicit false

inductive Piece where
  | part (p : PyStr)
  | separator

namespace Piece

def text : Piece → PyStr
  | .part p => p
  | .separator => str "。"

/-- What a piece says of the chunks. -/
def spoken : Piece → PyStr
  | .part p => p
  | .separator => []

end Piece

namespace TtsWorker

def isPause (c : Nat) : Bool := PyStr.oneOf "。！？!?，,；;：:" c

/-- The loop body over the parts: a separator goes between two parts without a pause. -/
def addPart (merged : List Piece) (p : PyStr) : List Piece :=
  match PyStr.strip p with
  | [] => merged
  | c :: p' =>
    match merged.getLast?.bind fun last => last.text.getLast? with
    | some l =>
      if !isPause l && !isPause c then merged ++ [.separator, .part (c :: p')]
      else merged ++ [.part (c :: p')]
    | none => merged ++ [.part (c :: p')]

def pieces (parts : List PyStr) : List Piece := parts.foldl addPart []

def sentence (parts : List PyStr) : PyStr := (pieces parts).flatMap Piece.text

def spoken (parts : List PyStr) : PyStr := (pieces parts).flatMap Piece.spoken

/-- A chunk that survives stripping. -/
def nonblank (p : PyStr) : Bool := PyStr.strip p != []

end TtsWorker

inductive WorkerPc where
  | waiting
  | merging (parts : List PyStr) (totalChars mergeTarget : Nat)
  | synthesizing (parts : List PyStr) (sawEnd : Bool)
  /-- Before `build_viseme_timeline`. -/
  | shaping (sawEnd : Bool)
  /-- In `_safe_send_state(websocket, "speaking")`. -/
  | announcing (sawEnd : Bool)
  /-- In `_send_audio_response`. -/
  | sending (sawEnd : Bool)
  | returned
  | raised (e : PyExc)

structure TtsWorker where
  queue : List (Option PyStr)
  pc : WorkerPc
  firstChunkDone : Bool
  sentFirstAudio : Bool

namespace TtsWorker

def next (sawEnd : Bool) : WorkerPc := if sawEnd then .returned else .waiting

def afterMerge (parts : List PyStr) (sawEnd : Bool) : WorkerPc :=
  if sentence parts = [] then next sawEnd else .synthesizing parts sawEnd

def mergeTarget (fast firstChunkDone : Bool) : Nat := if fast && !firstChunkDone then 20 else 90

end TtsWorker

inductive TtsEvent where
  | put (x : Option PyStr)
  | get (x : Option PyStr)
  | mergeEmpty
  | mergeFull
  /-- A call of `synthesize` on the sentence of these chunks. -/
  | synthesize (parts : List PyStr) (out : Except PyExc Unit)
  | visemes (out : Except PyExc Unit)
  | speaking (out : Except PyExc Unit)
  | audio (out : Except PyExc Unit)

open TtsWorker

/-- One step of `tts_worker`; each `get` and `get_nowait` is a step of its own. -/
inductive WorkerStep (fast : Bool) : TtsWorker → TtsEvent → TtsWorker → Prop where
  | getChunk {w : TtsWorker} {item : PyStr} {q : List (Option PyStr)} (hpc : w.pc = .waiting)
      (hq : w.queue = some item :: q) :
      WorkerStep fast w (.get (some item))
        { w with queue := q, pc := .merging [item] item.length (mergeTarget fast w.firstChunkDone) }
  | getEnd {w : TtsWorker} {q : List (Option PyStr)} (hpc : w.pc = .waiting)
      (hq : w.queue = none :: q) :
      WorkerStep fast w (.get none) { w with queue := q, pc := .returned }
  | mergeChunk {w : TtsWorker} {parts : List PyStr} {total target : Nat} {item : PyStr}
      {q : List (Option PyStr)} (hpc : w.pc = .merging parts total target) (hlt : total < target)
      (hq : w.queue = some item :: q) :
      WorkerStep fast w (.get (some item))
        { w with queue := q, pc := .merging (parts ++ [item]) (total + item.length) target }
  | mergeEnd {w : TtsWorker} {parts : List PyStr} {total target : Nat} {q : List (Option PyStr)}
      (hpc : w.pc = .merging parts total target) (hlt : total < target) (hq : w.queue = none :: q) :
      WorkerStep fast w (.get none) { w with queue := q, pc := afterMerge parts true }
  | mergeEmpty {w : TtsWorker} {parts : List PyStr} {total target : Nat}
      (hpc : w.pc = .merging parts total target) (hlt : total < target) (hq : w.queue = []) :
      WorkerStep fast w .mergeEmpty { w with pc := afterMerge parts false }
  | mergeFull {w : TtsWorker} {parts : List PyStr} {total target : Nat}
      (hpc : w.pc = .merging parts total target) (hle : target ≤ total) :
      WorkerStep fast w .mergeFull { w with pc := afterMerge parts false }
  | synthesized {w : TtsWorker} {parts : List PyStr} {sawEnd : Bool} (u : Unit)
      (hpc : w.pc = .synthesizing parts sawEnd) :
      WorkerStep fast w (.synthesize parts (.ok u))
        { w with pc := .shaping sawEnd, firstChunkDone := true }
  | synthesisFailed {w : TtsWorker} {parts : List PyStr} {sawEnd : Bool} (e : PyExc)
      (hpc : w.pc = .synthesizing parts sawEnd) :
      WorkerStep fast w (.synthesize parts (.error e))
        { w with pc := if e.isException then next sawEnd else .raised e }
  | shaped {w : TtsWorker} {sawEnd : Bool} (u : Unit) (hpc : w.pc = .shaping sawEnd) :
      WorkerStep fast w (.visemes (.ok u))
        { w with
          pc := if w.sentFirstAudio then .sending sawEnd else .announcing sawEnd
          sentFirstAudio := true }
  | announced {w : TtsWorker} {sawEnd : Bool} (u : Unit) (hpc : w.pc = .announcing sawEnd) :
      WorkerStep fast w (.speaking (.ok u)) { w with pc := .sending sawEnd }
  | sent {w : TtsWorker} {sawEnd : Bool} (u : Unit) (hpc : w.pc = .sending sawEnd) :
      WorkerStep fast w (.audio (.ok u)) { w with pc := next sawEnd }
  | shapingRaises {w : TtsWorker} {sawEnd : Bool} (e : PyExc) (hpc : w.pc = .shaping sawEnd) :
      WorkerStep fast w (.visemes (.error e)) { w with pc := .raised e }
  | announcingRaises {w : TtsWorker} {sawEnd : Bool} (e : PyExc) (hpc : w.pc = .announcing sawEnd) :
      WorkerStep fast w (.speaking (.error e)) { w with pc := .raised e }
  | sendingRaises {w : TtsWorker} {sawEnd : Bool} (e : PyExc) (hpc : w.pc = .sending sawEnd) :
      WorkerStep fast w (.audio (.error e)) { w with pc := .raised e }

namespace TtsWorker

/-- A worker just created, before it runs. -/
def start : TtsWorker :=
  { queue := [], pc := .waiting, firstChunkDone := false, sentFirstAudio := false }

/-- How many steps of its own the worker can still take before it looks at the queue. -/
def pcWeight : WorkerPc → Nat
  | .merging .. => 5
  | .synthesizing .. => 4
  | .shaping _ => 3
  | .announcing _ => 2
  | .sending _ => 1
  | _ => 0

def weight (w : TtsWorker) : Nat := 6 * w.queue.length + pcWeight w.pc

theorem no_step_of_returned {fast : Bool} {w w' : TtsWorker} {e : TtsEvent}
    (h : w.pc = .returned) : ¬ WorkerStep fast w e w' := by
  intro hw
  cases hw <;> simp_all

end TtsWorker

structure TtsState where
  /-- What the producer still has to put. -/
  toPut : List (Option PyStr)
  worker : TtsWorker

/-- No websocket send fails, `synthesize` raises nothing but `Exception`s, and its timestamps are such that
`build_viseme_timeline` does not raise. -/
def TtsEvent.Smooth : TtsEvent → Prop
  | .synthesize _ (.error e) => e.isException = true
  | .visemes (.error _) => False
  | .speaking (.error _) => False
  | .audio (.error _) => False
  | _ => True

def gets (es : List TtsEvent) : List (Option PyStr) :=
  es.filterMap fun | .get x => some x | _ => none

/-- The chunks of each call of `synthesize`, in call order. -/
def calls (es : List TtsEvent) : List (List PyStr) :=
  es.filterMap fun | .synthesize parts _ => some parts | _ => none

namespace WorkerPc

/-- The chunks taken and not yet passed to `synthesize`. -/
def inHand : WorkerPc → List PyStr
  | .merging parts _ _ => parts
  | .synthesizing parts _ => parts
  | _ => []

/-- The worker will not look at the queue again. -/
def sawEnd : WorkerPc → Bool
  | .synthesizing _ b => b
  | .shaping b => b
  | .announcing b => b
  | .sending b => b
  | .returned => true
  | .raised _ => true
  | _ => false

theorem next_ne_raised (b : Bool) (e : PyExc) : next b ≠ .raised e := by
  cases b <;> exact fun h => by cases h

theorem afterMerge_ne_raised (parts : List PyStr) (b : Bool) (e : PyExc) :
    afterMerge parts b ≠ .raised e := by
  unfold afterMerge
  split
  · exact next_ne_raised b e
  · exact fun h => by cases h

end WorkerPc

/-- Nothing is lost between the producer and the calls of `synthesize`. -/
structure TtsInv (chunks : List PyStr) (s : TtsState) (es : List TtsEvent) : Prop where
  fifo : gets es ++ s.worker.queue ++ s.toPut = chunks.map some ++ [none]
  spoken : (calls es).flatten.filter nonblank ++ s.worker.pc.inHand.filter nonblank =
    (gets es).reduceOption.filter nonblank
  ended : none ∈ gets es ↔ s.worker.pc.sawEnd = true
  alive : ∀ e, s.worker.pc ≠ .raised e

section Invariant

variable {fast : Bool} {chunks : List PyStr} {s t : TtsState} {es : List TtsEvent} {e : TtsEvent}

theorem gets_concat (es : List TtsEvent) (e : TtsEvent) : gets (es ++ [e]) = gets es ++ gets [e] :=
  List.filterMap_append ..

theorem calls_concat (es : List TtsEvent) (e : TtsEvent) :
    calls (es ++ [e]) = calls es ++ calls [e] :=
  List.filterMap_append ..

theorem TtsInv.silent (h : TtsInv chunks s es) (hget : gets [e] = []) (hcall : calls [e] = [])
    {pc : WorkerPc} {first sent : Bool}
    (hhand : pc.inHand.filter nonblank = s.worker.pc.inHand.filter nonblank)
    (hend : pc.sawEnd = s.worker.pc.sawEnd) (halive : ∀ e, pc ≠ .raised e) :
    TtsInv chunks { s with worker := { s.worker with
      pc, firstChunkDone := first, sentFirstAudio := sent } } (es ++ [e]) where
  fifo := by
    rw [gets_concat, hget, List.append_nil]
    exact h.fifo
  spoken := by
    rw [gets_concat, calls_concat, hget, hcall, List.append_nil, List.append_nil, ← h.spoken, ← hhand]
  ended := by
    rw [gets_concat, hget, List.append_nil, h.ended, ← hend]
  alive := halive

/-- A step that takes `x` from the queue: a chunk into the hand, or the end mark. -/
theorem TtsInv.take (h : TtsInv chunks s es) {x : Option PyStr} {q : List (Option PyStr)}
    {pc : WorkerPc} (hq : s.worker.queue = x :: q) (hopen : s.worker.pc.sawEnd = false)
    (hhand : pc.inHand.filter nonblank =
      s.worker.pc.inHand.filter nonblank ++ x.toList.filter nonblank)
    (hend : pc.sawEnd = x.isNone) (halive : ∀ e, pc ≠ .raised e) :
    TtsInv chunks { s with worker := { s.worker with queue := q, pc } } (es ++ [.get x]) where
  fifo := by
    rw [gets_concat, ← h.fifo, hq]
    simp [gets]
  spoken := by
    have htake : (gets (es ++ [.get x])).reduceOption = (gets es).reduceOption ++ x.toList := by
      rw [gets_concat, List.reduceOption_append]
      cases x <;> rfl
    have hcalls : calls (es ++ [.get x]) = calls es := by
      rw [calls_concat]
      exact List.append_nil _
    rw [htake, hcalls, List.filter_append, ← h.spoken, List.append_assoc, ← hhand]
  ended := by
    have hnone : none ∉ gets es := by
      rw [h.ended, hopen]
      exact Bool.false_ne_true
    have hone : gets [.get x] = [x] := rfl
    rw [gets_concat, hone, List.mem_append, hend]
    cases x <;> simp [hnone]
  alive := halive

theorem TtsInv.call (h : TtsInv chunks s es) {parts : List PyStr} {out : Except PyExc Unit}
    {pc : WorkerPc} {first : Bool} (hparts : s.worker.pc.inHand = parts) (hhand : pc.inHand = [])
    (hend : pc.sawEnd = s.worker.pc.sawEnd) (halive : ∀ e, pc ≠ .raised e) :
    TtsInv chunks { s with worker := { s.worker with pc, firstChunkDone := first } }
      (es ++ [.synthesize parts out]) where
  fifo := by
    rw [gets_concat]
    simpa [gets] using h.fifo
  spoken := by
    have hcalls : calls (es ++ [.synthesize parts out]) = calls es ++ [parts] := calls_concat _ _
    have hgets : gets (es ++ [.synthesize parts out]) = gets es := by
      rw [gets_concat]
      exact List.append_nil _
    rw [hcalls, hgets, hhand, ← h.spoken, hparts]
    simp
  ended := by
    rw [gets_concat]
    simpa [gets, hend] using h.ended
  alive := halive

def TtsState.weight (s : TtsState) : Nat := 7 * s.toPut.length + s.worker.weight

end Invariant

end VirtualPerson
