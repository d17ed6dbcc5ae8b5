import VirtualPerson.Python.Slice
import VirtualPerson.Python.Value

/-!
# The conversation history

`SessionService` with its in-memory store, and the calls a client makes on it.
-/

namespace VirtualPerson

set_option autoImplicit false

/-- One entry of a user's history; its time is never read. -/
structure SessionTurn where
  role : PyStr
  content : PyStr

/-- What `get` returns for a turn. -/
def SessionTurn.toDict (t : SessionTurn) : PyVal :=
  .dict [(str "role", .str t.role), (str "content", .str t.content)]

structure SessionService where
  maxTurns : Int
  history : List (PyStr × List SessionTurn)

namespace SessionService

/-- `turns[-self.max_turns:]` where the list is over its bound -/
def trim {α : Type} (maxTurns : Int) (turns : List α) : List α :=
  if maxTurns < turns.length then sliceFrom (-maxTurns) turns else turns

/-- `self._history[user_id]`; the entry that a `defaultdict` adds is an empty one. -/
def turnsOf (s : SessionService) (userId : PyStr) : List SessionTurn :=
  (Assoc.get? s.history userId).getD []

def add (s : SessionService) (userId role content : PyStr) : SessionService :=
  { s with
    history := Assoc.set s.history userId (trim s.maxTurns (s.turnsOf userId ++ [⟨role, content⟩])) }

def get (s : SessionService) (userId : PyStr) (limit : Option Int) : List SessionTurn :=
  limited limit (s.turnsOf userId)

def clear (s : SessionService) (userId : PyStr) : SessionService :=
  { s with history := Assoc.erase s.history userId }

end SessionService

/-- What a `datetime.isoformat()` returns. -/
def IsoTime : Type := { s : PyStr // ∀ c ∈ s, c < 128 }

inductive SessionCall where
  | add (userId role content : PyStr) (now : IsoTime)
  | get (userId : PyStr) (limit : Option Int)
  | clear (userId : PyStr)

def SessionCall.userId : SessionCall → PyStr
  | .add userId _ _ _ => userId
  | .get userId _ => userId
  | .clear userId => userId

/-- What a call returns: the turns of a `get`. -/
abbrev SessionAnswer := Option (List PyVal)

namespace SessionService

def call (s : SessionService) : SessionCall → SessionAnswer × SessionService
  | .add userId role content _ => (none, s.add userId role content)
  | .get userId limit => (some ((s.get userId limit).map SessionTurn.toDict), s)
  | .clear userId => (none, s.clear userId)

theorem turnsOf_add (s : SessionService) (userId role content u : PyStr) :
    (s.add userId role content).turnsOf u =
      if u = userId then trim s.maxTurns (s.turnsOf userId ++ [⟨role, content⟩]) else s.turnsOf u := by
  unfold turnsOf add
  split
  · rename_i h
    rw [h, Assoc.get?_set_self]
    rfl
  · rename_i h
    rw [Assoc.get?_set_ne _ _ (Ne.symm h)]

theorem turnsOf_clear (s : SessionService) (userId u : PyStr) :
    (s.clear userId).turnsOf u = if u = userId then [] else s.turnsOf u := by
  unfold turnsOf clear
  split
  · rename_i h
    rw [h, Assoc.get?_erase_self]
    rfl
  · rename_i h
    rw [Assoc.get?_erase_ne _ (Ne.symm h)]

end SessionService

end VirtualPerson
