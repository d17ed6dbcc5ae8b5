import VirtualPerson.Python.Value

/-!
# The services of a chat turn

Moderation, the persona and the audit log.
-/

namespace VirtualPerson

set_option autoImplicit false

namespace SafetyService

def blockedInputTerms : List PyStr :=
  [str "make malware", str "harm someone", str "bypass safeguards", str "how to hack",
    str "build a weapon", str "steal identity"]

def blockedOutputTerms : List PyStr :=
  [str "here is how to hack", str "here is malware code", str "instructions to harm",
    str "bypass security"]

/-- The refusal of a text that holds a blocked term; `none` when it passes. -/
def moderate (cm : CaseMap) (terms : List PyStr) (refusal text : PyStr) : Option PyStr :=
  if terms.any (PyStr.contains (cm.lower text)) then some refusal else none

def inputRefusal : PyStr := str "I can't help with harmful or unsafe requests."

def check (cm : CaseMap) (text : PyStr) : Option PyStr :=
  moderate cm blockedInputTerms inputRefusal text

def checkOutput (cm : CaseMap) (text : PyStr) : Option PyStr :=
  moderate cm blockedOutputTerms (str "Output contained unsafe content.") text

def Passes (cm : CaseMap) (text : PyStr) : Prop := checkOutput cm text = none

instance (cm : CaseMap) (text : PyStr) : Decidable (Passes cm text) :=
  inferInstanceAs (Decidable (_ = none))

theorem passes_iff {cm : CaseMap} {text : PyStr} :
    Passes cm text ↔ ∀ term ∈ blockedOutputTerms, ¬ term <:+: cm.lower text := by
  unfold Passes checkOutput moderate
  rw [ite_eq_right_iff]
  simp [PyStr.contains]

/-- Outside ASCII nothing is known of `lower`, so this is the case that can be decided. -/
theorem passes_of_ascii (cm : CaseMap) {text : PyStr} (hascii : ∀ c ∈ text, c < 128)
    (h : Passes .asciiOnly text) : Passes cm text := by
  rw [passes_iff] at h ⊢
  rwa [cm.ascii text hascii]

theorem eq_of_check_eq_some {cm : CaseMap} {text refusal : PyStr} (h : check cm text = some refusal) :
    refusal = inputRefusal := by
  unfold check moderate at h
  split at h
  · exact (Option.some.inj h).symm
  · cases h

end SafetyService

structure PersonaProfile where
  name : PyStr
  occupation : PyStr
  age : Int
  backstory : PyStr
  tone : PyStr
  values : List PyStr
  boundaries : List PyStr

namespace PersonaService

def shortBackground (p : PersonaProfile) : PyStr :=
  str "I’m " ++ p.name ++ str ". My persona background is: " ++ p.backstory

def systemPrompt (p : PersonaProfile) : PyStr :=
  str "You are " ++ p.name ++ str ", an AI companion persona. " ++
    str "Background: occupation=" ++ p.occupation ++ str ", age=" ++ str (toString p.age) ++
    str ", story=" ++ p.backstory ++ str ". " ++
    str "Tone=" ++ p.tone ++ str ". " ++
    str "Values=" ++ List.intercalate (str ", ") p.values ++ str ". " ++
    str "Boundaries=" ++ List.intercalate (str ", ") p.boundaries ++ str ". " ++
    str "Always be transparent that you are AI when needed."

def enforce (message : PyStr) : PyStr := message

end PersonaService

structure AuditEvent where
  type : PyStr
  detail : PyStr

end VirtualPerson
