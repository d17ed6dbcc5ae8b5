import VirtualPerson.Memory.Service

/-!
# Capturing and recalling a user's name

`maybe_capture_user_name`, with its patterns as one parametrised matcher, and
`recall_user_name`.
-/

namespace VirtualPerson

set_option autoImplicit false

/-- The case map and `\w` on one code point. -/
structure TextRules where
  cm : CaseMap
  isWord : Nat → Bool

namespace NameCapture

/-- Equality under `re.IGNORECASE`, for a literal in lower case; the non-ASCII characters are
those whose case folds to an ASCII letter. -/
def sameIgnoringCase (literal c : Nat) : Bool :=
  c == literal || (97 ≤ literal && literal ≤ 122 && c + 32 == literal) ||
    (literal == 105 && (c == 0x130 || c == 0x131)) || (literal == 115 && c == 0x17F) ||
    (literal == 107 && c == 0x212A)

/-- `[A-Za-z]` under `re.IGNORECASE` -/
def isLetter (c : Nat) : Bool :=
  (65 ≤ c && c ≤ 90) || (97 ≤ c && c ≤ 122) || c == 0x130 || c == 0x131 || c == 0x17F || c == 0x212A

/-- `[A-Za-z\- '\.]` -/
def isNamePart (c : Nat) : Bool := isLetter c || PyStr.oneOf "- '." c

/-- `[\u4e00-\u9fffA-Za-z0-9·•]` -/
def isHanOrWord (c : Nat) : Bool :=
  (0x4e00 ≤ c && c ≤ 0x9fff) || isLetter c || (48 ≤ c && c ≤ 57) || PyStr.oneOf "·•" c

structure NamePattern where
  /-- The phrase starts with `\b`. -/
  boundary : Bool
  phrase : PyStr
  minSpaces : Nat
  first : Nat → Bool
  rest : Nat → Bool
  maxRest : Nat

def english (phrase : String) : NamePattern :=
  { boundary := true, phrase := str phrase, minSpaces := 1, first := isLetter, rest := isNamePart
    maxRest := 39 }

def chinese (phrase : String) : NamePattern :=
  { boundary := false, phrase := str phrase, minSpaces := 0, first := isHanOrWord
    rest := isHanOrWord, maxRest := 19 }

def patterns : List NamePattern :=
  [english "my name is", english "i am", english "i'm", english "call me", chinese "我是",
    chinese "我叫"]

def startsWith : (phrase s : PyStr) → Bool
  | [], _ => true
  | _ :: _, [] => false
  | l :: ls, c :: s => sameIgnoringCase l c && startsWith ls s

/-- The group of a match at this place, `prev` being the character before it. No character is both a
space and the start of a name, so nothing is tried twice. -/
def matchAt (tr : TextRules) (p : NamePattern) (prev : Option Nat) (s : PyStr) : Option PyStr :=
  let atBoundary := ((prev.map tr.isWord).getD false) != ((s.head?.map tr.isWord).getD false)
  if (p.boundary && !atBoundary) || !startsWith p.phrase s then none
  else
    let after := s.drop p.phrase.length
    match after.dropWhile isSpace with
    | [] => none
    | c :: body =>
      if p.minSpaces ≤ (after.takeWhile isSpace).length && p.first c then
        some (c :: (body.takeWhile p.rest).take p.maxRest)
      else none

/-- `re.search`: the leftmost match. -/
def search (tr : TextRules) (p : NamePattern) : (prev : Option Nat) → PyStr → Option PyStr
  | prev, [] => matchAt tr p prev []
  | prev, c :: s => (matchAt tr p prev (c :: s)).or (search tr p (some c) s)

/-- `name.strip("\"'，。,.!！?？:： ")` -/
def stripMarks (name : PyStr) : PyStr :=
  let mark := PyStr.oneOf "\"'，。,.!！?？:： "
  (name.dropWhile mark).rdropWhile mark

def captured (tr : TextRules) (message : PyStr) : Option PyStr :=
  (patterns.findSome? fun p => search tr p none message).map stripMarks

def invalidNames : List PyStr :=
  [str "什么", str "什么名字", str "谁", str "你谁", str "我", str "你", str "unknown", str "name",
    str "名字", str "what", str "who"]

def nameToStore (tr : TextRules) (message : PyStr) : Option PyStr :=
  match captured tr message with
  | none => none
  | some name =>
    if name = [] || (invalidNames ++ [str "my", str "your"]).contains (tr.cm.lower name) ||
        [str "什么", str "？", str "?"].any (PyStr.contains name) then none
    else some name

end NameCapture

namespace NameRecall

def valid (cm : CaseMap) (v : PyStr) : Bool :=
  let t := cm.lower (PyStr.strip v)
  !(t = [] || NameCapture.invalidNames.contains t) &&
    !(PyStr.contains t (str "什么") || PyStr.contains t (str "?") || PyStr.contains t (str "？"))

def ofUser (userId : PyStr) (h : MemoryItem) : Bool :=
  match PyDict.get? h.metadata (str "user_id") with
  | some (.str u) => u = userId
  | _ => false

/-- `recall_user_name` on the hits of its search. -/
def fromHits (cm : CaseMap) (userId : PyStr) (hits : List MemoryItem) : Option PyStr :=
  let candidates := hits.filter fun h => cm.lower h.key = str "name"
  let userSpecific := candidates.filter fun h => ofUser userId h && valid cm h.value
  let globalValid := candidates.filter fun h => valid cm h.value
  let pool := if userSpecific.isEmpty then globalValid else userSpecific
  (pool.mergeSort fun a b => PyStr.le a.createdAt b.createdAt).getLast?.map fun h => PyStr.strip h.value

end NameRecall

end VirtualPerson
