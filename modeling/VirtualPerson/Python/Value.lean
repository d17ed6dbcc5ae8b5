import Mathlib.Data.Rat.Defs
import VirtualPerson.Python.Assoc
import VirtualPerson.Python.Str

/-!
# Python values and exceptions

The values `json.loads` can return, plus opaque objects, which `json.dumps`
refuses.
-/

namespace VirtualPerson

set_option autoImplicit false

inductive PyFloat where
  | finite (q : ℚ)
  | inf (negative : Bool)
  | nan
  deriving DecidableEq

inductive PyVal where
  | pyNone
  | bool (b : Bool)
  | int (i : Int)
  | float (x : PyFloat)
  | str (s : PyStr)
  | list (xs : List PyVal)
  | dict (entries : List (PyStr × PyVal))
  | object (id : Nat)

abbrev PyDict := List (PyStr × PyVal)

/-- An exception in flight. -/
structure PyExc where
  name : PyStr
  /-- What `repr(exc)` returns; `none` when `__repr__` itself raises. -/
  repr : Option PyStr
  /-- Whether `except Exception` catches it (`SystemExit` and the like pass through). -/
  isException : Bool
  deriving DecidableEq

namespace PyExc

def builtin (name : String) : PyExc := ⟨str name, some (str name), true⟩

def attributeError : PyExc := builtin "AttributeError"
def typeError : PyExc := builtin "TypeError"
def valueError : PyExc := builtin "ValueError"
def overflowError : PyExc := builtin "OverflowError"
def encodeError : PyExc := builtin "UnicodeEncodeError"
def reprError : PyExc := builtin "Exception"

end PyExc

namespace PyVal

def truthy : PyVal → Bool
  | .pyNone => false
  | .bool b => b
  | .int i => i != 0
  | .float (.finite q) => q != 0
  | .float _ => true
  | .str s => !s.isEmpty
  | .list xs => !xs.isEmpty
  | .dict es => !es.isEmpty
  | .object _ => true

def orElse (v d : PyVal) : PyVal := if v.truthy then v else d

/-- Whether `hash(v)` succeeds, as a dict lookup needs. -/
def hashable : PyVal → Bool
  | .list _ => false
  | .dict _ => false
  | _ => true

/-- `int(v)`; `intOfStr` is its parser of decimal strings. -/
def toInt (intOfStr : PyStr → Option Int) : PyVal → Except PyExc Int
  | .bool b => .ok (if b then 1 else 0)
  | .int i => .ok i
  | .float (.finite q) => .ok (q.num.tdiv q.den)
  | .float (.inf _) => .error .overflowError
  | .float .nan => .error .valueError
  | .str s => match intOfStr s with
    | some i => .ok i
    | none => .error .valueError
  | _ => .error .typeError

end PyVal

namespace PyDict

def get? (d : PyDict) (k : PyStr) : Option PyVal := Assoc.get? d k

/-- `d.get(k, default)` -/
def getD (d : PyDict) (k : PyStr) (default : PyVal) : PyVal := (get? d k).getD default

/-- `d[k] = v` -/
def set (d : PyDict) (k : PyStr) (v : PyVal) : PyDict := Assoc.set d k v

@[simp] theorem get?_set_self (d : PyDict) (k : PyStr) (v : PyVal) : get? (set d k v) k = some v :=
  Assoc.get?_set_self d k v

theorem get?_set_ne (d : PyDict) {k k' : PyStr} (v : PyVal) (hne : k ≠ k') :
    get? (set d k v) k' = get? d k' :=
  Assoc.get?_set_ne d v hne

end PyDict

end VirtualPerson
