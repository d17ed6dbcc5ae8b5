import VirtualPerson.Chat.OutputSafety
import VirtualPerson.Python.JsonLayout

/-!
# The stream of an OpenAI-compatible server

`chat_stream` reads the lines of the response one after another: blank lines and lines that
are not JSON are passed over, `[DONE]` ends the stream, and a chunk gives its delta, if it
has one. The pipeline puts the deltas together.
-/

namespace VirtualPerson

set_option autoImplicit false

namespace OpenAICompatClient

/-- `v.get(key)` -/
def get (v : PyVal) (key : PyStr) : Except PyExc PyVal :=
  match v with
  | .dict d => .ok (PyDict.getD d key .pyNone)
  | _ => .error .attributeError

/-- `v[0]` -/
def first : PyVal → Except PyExc PyVal
  | .list (v :: _) => .ok v
  | .list [] => .error (.builtin "IndexError")
  | .str (c :: _) => .ok (.str [c])
  | .str [] => .error (.builtin "IndexError")
  | .dict _ => .error (.builtin "KeyError")
  | _ => .error .typeError

/-- The delta of a chunk, `none` where the stream passes over it -/
def deltaOf (obj : PyVal) : Except PyExc (Option PyVal) := do
  let choices ← get obj (str "choices")
  if !choices.truthy then return none
  else
    let choice ← first choices
    let delta ← get choice (str "delta")
    let content ← get (delta.orElse (.dict [])) (str "content")
    return if content.truthy then some content else none

/-- What the stream does with a line -/
inductive LineRead where
  | passed
  | done
  | delta (content : PyVal)
  | raised (e : PyExc)

def dataLine (line : PyStr) : PyStr :=
  if str "data: " <+: line then line.drop (str "data: ").length else line

def readLine (line : PyStr) : LineRead :=
  if line = [] then .passed
  else if PyStr.strip (dataLine line) = str "[DONE]" then .done
  else
    match Json.loads (dataLine line) with
    | none => .passed
    | some obj =>
      match deltaOf obj with
      | .ok none => .passed
      | .ok (some content) => .delta content
      | .error e => .raised e

/-- The lines of a response, and the exception that breaks it off, if one does -/
structure Response where
  lines : List PyStr
  failure : Option PyExc

/-- The deltas that the caller of `chat_stream` adds up, and what ends the stream. A delta that is not a
string fails there: `streamed_text += delta`. -/
def chatStream (failure : Option PyExc) : List PyStr → List PyStr × Option PyExc
  | [] => ([], failure)
  | line :: lines =>
    match readLine line with
    | .passed => chatStream failure lines
    | .done => ([], none)
    | .delta (.str content) =>
      let (deltas, ending) := chatStream failure lines
      (content :: deltas, ending)
    | .delta _ => ([], some .typeError)
    | .raised e => ([], some e)

def Response.deltas (r : Response) : List PyStr × Option PyExc := chatStream r.failure r.lines

/-- A line before the end mark: a chunk with the text it brings, if any, a comment that keeps the
connection alive, or the blank line after an event. -/
inductive ServerLine where
  | chunk (text : PyStr) (obj : PyDict) (content : Option PyStr)
  | comment (text : PyStr)
  | blank

namespace ServerLine

def render : ServerLine → PyStr
  | .chunk text _ _ => str "data: " ++ text
  | .comment text => 0x3A :: text
  | .blank => []

/-- The text of a chunk is JSON for its object, however it is laid out, and `content` is what the
object brings. -/
def WellFormed : ServerLine → Prop
  | .chunk text obj content =>
    Json.loads text = some (.dict obj) ∧ deltaOf (.dict obj) = .ok (content.map .str)
  | _ => True

def content : ServerLine → Option PyStr
  | .chunk _ _ content => content
  | _ => none

end ServerLine

section

variable {failure : Option PyExc}

end

section

open Chat Stateful

variable {V : Type} {cfg : ChatConfig} {rt : ChatRuntime} {vs : VectorStore V} {env : StreamEnv}
  {userId message : PyStr} {g : Gen V} {r : Response}

/-- The pipeline's call of `chat_stream` is answered by `r`. -/
def Answers (env : StreamEnv) (userId message : PyStr) (g : Gen V) (r : Response) : Prop :=
  env.stream (PersonaService.systemPrompt g.chat.persona) message
    (g.chat.sessions.get userId (some 10)) = r.deltas

end

section

open Chat

def answering (r : Response) : StreamEnv := { streaming [] with stream := fun _ _ _ => r.deltas }

end

end OpenAICompatClient

end VirtualPerson
