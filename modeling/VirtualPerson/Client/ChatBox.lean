import Mathlib.Data.List.Nodup
import VirtualPerson.Transition
import VirtualPerson.Python.Str

/-!
# The chat box

The children of `#messages` and the two elements that `chat.js` keeps: the thinking bubble
and the assistant message that partial texts are written into. What each call leaves on the
page, over every order of calls.
-/

namespace VirtualPerson

set_option autoImplicit false

namespace Client

/-- A string of the page, as its code units -/
abbrev JsStr := List Nat

/-- `s.replace(/c/g, by)` for a single character -/
def replaceAll (c : Nat) (new : JsStr) (s : JsStr) : JsStr :=
  s.flatMap fun x => if x = c then new else [x]

def escHtml (s : JsStr) : JsStr :=
  replaceAll 0x3E (str "&gt;") (replaceAll 0x3C (str "&lt;") (replaceAll 0x26 (str "&amp;") s))

/-- A parser reads a carriage return as a line feed, and leaves out one that a line feed follows. -/
def newlines : JsStr → JsStr
  | [] => []
  | c :: s =>
    if c = 0x0D then if s.head? = some 0x0A then newlines s else 0x0A :: newlines s
    else c :: newlines s

/-- The characters of a source without tags; `none` where a tag starts, or at a reference other than
the three that `_escHtml` writes. -/
def unescaped : JsStr → Option JsStr
  | [] => some []
  | 0x26 :: 0x61 :: 0x6D :: 0x70 :: 0x3B :: s => (unescaped s).map (0x26 :: ·)
  | 0x26 :: 0x6C :: 0x74 :: 0x3B :: s => (unescaped s).map (0x3C :: ·)
  | 0x26 :: 0x67 :: 0x74 :: 0x3B :: s => (unescaped s).map (0x3E :: ·)
  | c :: s => if c = 0x26 ∨ c = 0x3C then none else (unescaped s).map (c :: ·)

def withoutNul (s : JsStr) : JsStr := s.filter (· ≠ 0)

/-- The text that a parser makes of a source without tags -/
def htmlText (s : JsStr) : Option JsStr := (unescaped (newlines s)).map withoutNul

/-- What a parser makes of a text that is escaped -/
def parsed (s : JsStr) : JsStr := withoutNul (newlines s)

theorem escHtml_cons (c : Nat) (s : JsStr) :
    escHtml (c :: s) =
      (if c = 0x26 then str "&amp;" else if c = 0x3C then str "&lt;"
        else if c = 0x3E then str "&gt;" else [c]) ++ escHtml s := by
  unfold escHtml replaceAll
  rw [List.flatMap_cons, List.flatMap_append, List.flatMap_append]
  congr 1
  by_cases hamp : c = 0x26
  · subst hamp
    decide
  · by_cases hlt : c = 0x3C
    · subst hlt
      decide
    · by_cases hgt : c = 0x3E
      · subst hgt
        decide
      · simp [hamp, hlt, hgt]

theorem unescaped_escHtml (s : JsStr) : unescaped (escHtml s) = some s := by
  induction s with
  | nil => rfl
  | cons c s ih =>
    rw [escHtml_cons]
    by_cases hamp : c = 0x26
    · subst hamp
      change (unescaped (escHtml s)).map (0x26 :: ·) = _
      rw [ih]
      rfl
    · by_cases hlt : c = 0x3C
      · subst hlt
        change (unescaped (escHtml s)).map (0x3C :: ·) = _
        rw [ih]
        rfl
      · by_cases hgt : c = 0x3E
        · subst hgt
          change (unescaped (escHtml s)).map (0x3E :: ·) = _
          rw [ih]
          rfl
        · rw [if_neg hamp, if_neg hlt, if_neg hgt, List.singleton_append, unescaped]
          · rw [if_neg (by omega), ih]
            rfl
          all_goals
            intro s' h
            cases h
            exact absurd rfl hamp

theorem newlines_append {s : JsStr} (h : 0x0D ∉ s) (s' : JsStr) :
    newlines (s ++ s') = s ++ newlines s' := by
  induction s with
  | nil => rfl
  | cons c s ih =>
    rw [List.mem_cons, not_or] at h
    rw [List.cons_append, newlines, if_neg (Ne.symm h.1), ih h.2]
    rfl

theorem head_escHtml (s : JsStr) : (escHtml s).head? = some 0x0A ↔ s.head? = some 0x0A := by
  cases s with
  | nil => rfl
  | cons c s =>
    rw [escHtml_cons, List.head?_append, List.head?_cons]
    by_cases hlf : c = 0x0A
    · subst hlf
      rfl
    · refine iff_of_false (fun h => ?_) fun h => hlf (Option.some.inj h)
      split at h
      · cases h
      · split at h
        · cases h
        · split at h
          · cases h
          · exact hlf (Option.some.inj h)

/-- Escaping leaves the line ends alone. -/
theorem newlines_escHtml (s : JsStr) : newlines (escHtml s) = escHtml (newlines s) := by
  induction s with
  | nil => rfl
  | cons c s ih =>
    by_cases hcr : c = 0x0D
    · subst hcr
      change newlines (0x0D :: escHtml s) = _
      rw [newlines, newlines, if_pos rfl, if_pos rfl, ih]
      simp only [head_escHtml]
      split <;> rfl
    · rw [newlines, if_neg hcr, escHtml_cons, escHtml_cons, newlines_append, ih]
      split
      · decide
      · split
        · decide
        · split
          · decide
          · exact fun h => hcr (List.mem_singleton.mp h).symm

/-- What is escaped is text to a parser, and the same text but for line ends and U+0000. -/
theorem htmlText_escHtml (s : JsStr) : htmlText (escHtml s) = some (parsed s) := by
  rw [htmlText, newlines_escHtml, unescaped_escHtml]
  rfl

theorem parsed_eq_self {s : JsStr} (hcr : 0x0D ∉ s) (hnul : 0 ∉ s) : parsed s = s := by
  have hnewlines : newlines s = s := by
    have happend := newlines_append hcr []
    rwa [List.append_nil, newlines, List.append_nil] at happend
  rw [parsed, hnewlines, withoutNul, List.filter_eq_self]
  intro c hc
  rw [decide_eq_true_eq]
  rintro rfl
  exact hnul hc

inductive Role where
  | user
  | system
  | assistant
  | other (name : JsStr)
  deriving DecidableEq

inductive Node where
  | message (role : Role) (body : JsStr)
  | thinking
  deriving DecidableEq

def Node.mapBody (f : JsStr → JsStr) : Node → Node
  | .message role body => .message role (f body)
  | .thinking => .thinking

structure ChatBox where
  /-- The elements on the page, each with its number -/
  children : List (Nat × Node)
  /-- Elements made so far -/
  made : Nat
  thinkingEl : Option Nat
  activeAssistantEl : Option Nat

namespace ChatBox

def empty : ChatBox := { children := [], made := 0, thinkingEl := none, activeAssistantEl := none }

def appendChild (b : ChatBox) (n : Node) : ChatBox :=
  { b with children := b.children ++ [(b.made, n)], made := b.made + 1 }

def removeThinking (b : ChatBox) : ChatBox :=
  match b.thinkingEl with
  | none => b
  | some id => { b with children := b.children.filter fun c => c.1 ≠ id, thinkingEl := none }

/-- The body is assigned as HTML, so the page shows what a parser makes of it. -/
def addMessage (b : ChatBox) (role : Role) (text : JsStr) : ChatBox :=
  let b := b.removeThinking
  let next := b.appendChild (.message role ((htmlText (escHtml text)).getD []))
  if role = .assistant then { next with activeAssistantEl := some b.made } else next

/-- `bodyEl.textContent` of one element is assigned. -/
def setBody (b : ChatBox) (id : Nat) (f : JsStr → JsStr) : ChatBox :=
  { b with children := b.children.map fun c => if c.1 = id then (c.1, c.2.mapBody f) else c }

def appendAssistantPartial (b : ChatBox) (text : JsStr) : ChatBox :=
  if text = [] then b
  else
    let b := b.removeThinking
    match b.activeAssistantEl with
    | some id => b.setBody id fun body => body ++ text
    | none =>
      { b.appendChild (.message .assistant []) with activeAssistantEl := some b.made }.setBody b.made
        fun body => body ++ text

def finalizeAssistantMessage (b : ChatBox) (text : JsStr) : ChatBox :=
  match b.activeAssistantEl with
  | some id => { b.setBody id fun _ => text with activeAssistantEl := none }
  | none => b.addMessage .assistant text

def resetAssistantDraft (b : ChatBox) : ChatBox := { b with activeAssistantEl := none }

def showThinking (b : ChatBox) : ChatBox :=
  match b.thinkingEl with
  | some _ => b
  | none => { b.appendChild .thinking with thinkingEl := some b.made }

end ChatBox

inductive ChatBoxCall where
  | addMessage (role : Role) (text : JsStr)
  | appendAssistantPartial (text : JsStr)
  | finalizeAssistantMessage (text : JsStr)
  | resetAssistantDraft
  | showThinking
  | removeThinking

def ChatBox.call (b : ChatBox) : ChatBoxCall → ChatBox
  | .addMessage role text => b.addMessage role text
  | .appendAssistantPartial text => b.appendAssistantPartial text
  | .finalizeAssistantMessage text => b.finalizeAssistantMessage text
  | .resetAssistantDraft => b.resetAssistantDraft
  | .showThinking => b.showThinking
  | .removeThinking => b.removeThinking

namespace ChatBox

/-- The elements are numbered as they were made; the bubble on the page is the one that
`_thinkingEl` holds, and `_activeAssistantEl` is an assistant message. -/
structure WellFormed (b : ChatBox) : Prop where
  numbered : (b.children.map Prod.fst).Nodup
  made : ∀ c ∈ b.children, c.1 < b.made
  thinking : b.children.filter (fun c => c.2 = .thinking) =
    b.thinkingEl.toList.map fun id => (id, .thinking)
  active : ∀ id, b.activeAssistantEl = some id → ∃ body, (id, .message .assistant body) ∈ b.children

variable {b : ChatBox} {id : Nat} {n m : Node} {role : Role} {text : JsStr}

theorem wellFormed_empty : WellFormed empty := ⟨List.nodup_nil, nofun, rfl, nofun⟩

/-- An element is told by its number. -/
theorem WellFormed.eq_of_mem (h : b.WellFormed) (hn : (id, n) ∈ b.children)
    (hm : (id, m) ∈ b.children) : n = m :=
  congrArg Prod.snd (List.inj_on_of_nodup_map h.numbered hn hm rfl)

theorem WellFormed.thinking_mem (h : b.WellFormed) :
    (id, .thinking) ∈ b.children ↔ b.thinkingEl = some id := by
  have hmem : (id, Node.thinking) ∈ b.children.filter (fun c => c.2 = .thinking) ↔
      (id, Node.thinking) ∈ b.children := by simp
  rw [← hmem, h.thinking]
  simp

theorem WellFormed.removeThinking_children (h : b.WellFormed) :
    b.removeThinking.children = b.children.filter fun c => c.2 ≠ .thinking := by
  unfold removeThinking
  split
  · rename_i hnone
    have hthinking := h.thinking
    rw [hnone, Option.toList_none, List.map_nil, List.filter_eq_nil_iff] at hthinking
    rw [eq_comm, List.filter_eq_self]
    intro c hc
    simpa using hthinking c hc
  · rename_i id hsome
    apply List.filter_congr
    intro c hc
    obtain ⟨i, n⟩ := c
    rw [decide_eq_decide, not_iff_not]
    constructor
    · rintro rfl
      exact h.eq_of_mem hc (h.thinking_mem.mpr hsome)
    · rintro rfl
      exact Option.some.inj ((h.thinking_mem.mp hc).symm.trans hsome)

@[simp] theorem removeThinking_made : b.removeThinking.made = b.made := by
  unfold removeThinking
  split <;> rfl

@[simp] theorem removeThinking_active : b.removeThinking.activeAssistantEl = b.activeAssistantEl := by
  unfold removeThinking
  split <;> rfl

@[simp] theorem removeThinking_thinkingEl : b.removeThinking.thinkingEl = none := by
  unfold removeThinking
  split
  · assumption
  · rfl

theorem WellFormed.removeThinking (h : b.WellFormed) : b.removeThinking.WellFormed := by
  have hchildren := h.removeThinking_children
  constructor
  · rw [hchildren]
    exact h.numbered.sublist (List.filter_sublist.map _)
  · intro c hc
    rw [hchildren] at hc
    rw [removeThinking_made]
    exact h.made c (List.mem_filter.mp hc).1
  · rw [removeThinking_thinkingEl, hchildren, List.filter_filter, Option.toList_none, List.map_nil,
      List.filter_eq_nil_iff]
    simp
  · intro id hid
    rw [removeThinking_active] at hid
    obtain ⟨body, hbody⟩ := h.active id hid
    rw [hchildren]
    exact ⟨body, List.mem_filter.mpr ⟨hbody, by simp⟩⟩

theorem WellFormed.append (h : b.WellFormed) {a t : Option Nat}
    (ha : a = b.activeAssistantEl ∨ a = some b.made ∧ ∃ body, n = .message .assistant body)
    (ht : n ≠ .thinking ∧ t = b.thinkingEl ∨
      n = .thinking ∧ b.thinkingEl = none ∧ t = some b.made) :
    { b.appendChild n with activeAssistantEl := a, thinkingEl := t }.WellFormed := by
  have hfresh : b.made ∉ b.children.map Prod.fst := by
    intro hmem
    obtain ⟨c, hc, heq⟩ := List.mem_map.mp hmem
    have := h.made c hc
    omega
  constructor
  · change ((b.children ++ [(b.made, n)]).map Prod.fst).Nodup
    rw [List.map_append, List.nodup_append]
    refine ⟨h.numbered, List.nodup_singleton _, ?_⟩
    rintro i hi j hj rfl
    cases List.mem_singleton.mp hj
    exact hfresh hi
  · intro c hc
    change c.1 < b.made + 1
    rcases List.mem_append.mp hc with hc | hc
    · have := h.made c hc
      omega
    · cases List.mem_singleton.mp hc
      omega
  · change (b.children ++ [(b.made, n)]).filter _ = t.toList.map _
    rw [List.filter_append, h.thinking]
    rcases ht with ⟨hn, rfl⟩ | ⟨rfl, hnone, rfl⟩
    · simp [hn]
    · simp [hnone]
  · intro id hid
    change a = some id at hid
    rcases ha with rfl | ⟨rfl, body, rfl⟩
    · obtain ⟨body, hbody⟩ := h.active id hid
      exact ⟨body, List.mem_append_left _ hbody⟩
    · cases hid
      exact ⟨body, List.mem_append_right _ List.mem_cons_self⟩

theorem setBody_fst (f : JsStr → JsStr) :
    (b.setBody id f).children.map Prod.fst = b.children.map Prod.fst := by
  unfold setBody
  rw [List.map_map]
  apply List.map_congr_left
  intro c _
  dsimp only [Function.comp]
  split <;> rfl

theorem mem_setBody (f : JsStr → JsStr) {i : Nat} :
    (i, n) ∈ (b.setBody id f).children ↔
      i ≠ id ∧ (i, n) ∈ b.children ∨ i = id ∧ ∃ old, (i, old) ∈ b.children ∧ n = old.mapBody f := by
  unfold setBody
  rw [List.mem_map]
  constructor
  · rintro ⟨⟨j, old⟩, hc, heq⟩
    split at heq
    · rename_i hid
      cases heq
      exact .inr ⟨hid, old, hc, rfl⟩
    · rename_i hid
      cases heq
      exact .inl ⟨hid, hc⟩
  · rintro (⟨hid, hc⟩ | ⟨rfl, old, hc, rfl⟩)
    · exact ⟨_, hc, if_neg hid⟩
    · exact ⟨_, hc, if_pos rfl⟩

/-- A bubble has no body to assign. -/
theorem setBody_thinking (b : ChatBox) (f : JsStr → JsStr) :
    b.children.filter (fun c => c.2 = .thinking) =
      (b.setBody id f).children.filter fun c => c.2 = .thinking := by
  unfold setBody
  induction b.children with
  | nil => rfl
  | cons c cs ih =>
    obtain ⟨i, n⟩ := c
    rw [List.map_cons, List.filter_cons, List.filter_cons, ih]
    cases n <;> by_cases heq : i = id <;> simp [heq, Node.mapBody]

theorem WellFormed.setBody (h : b.WellFormed) (f : JsStr → JsStr) : (b.setBody id f).WellFormed := by
  constructor
  · rw [setBody_fst]
    exact h.numbered
  · intro c hc
    have hmem : c.1 ∈ (b.setBody id f).children.map Prod.fst := List.mem_map_of_mem hc
    rw [setBody_fst] at hmem
    obtain ⟨c', hc', heq⟩ := List.mem_map.mp hmem
    exact heq ▸ h.made c' hc'
  · rw [← b.setBody_thinking f]
    exact h.thinking
  · intro i hi
    obtain ⟨body, hbody⟩ := h.active i hi
    by_cases heq : i = id
    · exact ⟨f body, (mem_setBody f).mpr (.inr ⟨heq, _, hbody, rfl⟩)⟩
    · exact ⟨body, (mem_setBody f).mpr (.inl ⟨heq, hbody⟩)⟩

theorem addMessage_eq (b : ChatBox) (role : Role) (text : JsStr) :
    b.addMessage role text =
      { b.removeThinking.appendChild (.message role (parsed text)) with
        activeAssistantEl := if role = .assistant then some b.made else b.activeAssistantEl } := by
  unfold addMessage
  dsimp only
  rw [htmlText_escHtml, removeThinking_made]
  split
  · rfl
  · rw [← removeThinking_active]
    rfl

theorem WellFormed.addMessage (h : b.WellFormed) (role : Role) (text : JsStr) :
    (b.addMessage role text).WellFormed := by
  rw [addMessage_eq]
  refine h.removeThinking.append ?_ (.inl ⟨nofun, rfl⟩)
  by_cases hrole : role = .assistant
  · rw [if_pos hrole, removeThinking_made]
    exact .inr ⟨rfl, parsed text, by rw [hrole]⟩
  · rw [if_neg hrole, removeThinking_active]
    exact .inl rfl

/-- The element that a partial text is written into, and the box that holds it -/
def drafted (b : ChatBox) : ChatBox :=
  match b.activeAssistantEl with
  | some _ => b.removeThinking
  | none =>
    { b.removeThinking.appendChild (.message .assistant []) with activeAssistantEl := some b.made }

theorem appendAssistantPartial_eq (hne : text ≠ []) :
    b.appendAssistantPartial text =
      b.drafted.setBody (b.activeAssistantEl.getD b.made) fun body => body ++ text := by
  unfold appendAssistantPartial drafted
  rw [if_neg hne]
  dsimp only
  rw [removeThinking_active, removeThinking_made]
  cases b.activeAssistantEl <;> rfl

theorem WellFormed.drafted (h : b.WellFormed) : b.drafted.WellFormed := by
  unfold ChatBox.drafted
  split
  · exact h.removeThinking
  · refine h.removeThinking.append ?_ (.inl ⟨nofun, rfl⟩)
    rw [removeThinking_made]
    exact .inr ⟨rfl, [], rfl⟩

theorem WellFormed.reset (h : b.WellFormed) : { b with activeAssistantEl := none }.WellFormed :=
  ⟨h.numbered, h.made, h.thinking, nofun⟩

theorem WellFormed.showThinking (h : b.WellFormed) : b.showThinking.WellFormed := by
  unfold ChatBox.showThinking
  split
  · exact h
  · rename_i hnone
    exact h.append (.inl rfl) (.inr ⟨rfl, hnone, rfl⟩)

theorem WellFormed.call (h : b.WellFormed) (c : ChatBoxCall) : (b.call c).WellFormed := by
  cases c with
  | addMessage role text => exact h.addMessage role text
  | appendAssistantPartial text =>
    by_cases hne : text = []
    · subst hne
      exact h
    · change (b.appendAssistantPartial text).WellFormed
      rw [appendAssistantPartial_eq hne]
      exact h.drafted.setBody _
  | finalizeAssistantMessage text =>
    change (b.finalizeAssistantMessage text).WellFormed
    unfold finalizeAssistantMessage
    split
    · exact (h.setBody _).reset
    · exact h.addMessage .assistant text
  | resetAssistantDraft => exact h.reset
  | showThinking => exact h.showThinking
  | removeThinking => exact h.removeThinking

/-- The messages of the user, of the page itself and of other roles -/
def said (b : ChatBox) : List (Role × JsStr) :=
  b.children.filterMap fun c => match c.2 with
    | .message .assistant _ => none
    | .message role body => some (role, body)
    | .thinking => none

theorem WellFormed.said_removeThinking (h : b.WellFormed) : b.removeThinking.said = b.said := by
  unfold said
  rw [h.removeThinking_children, List.filterMap_filter]
  apply List.filterMap_congr
  intro c _
  obtain ⟨i, n⟩ := c
  cases n <;> rfl

theorem said_append {a : Option Nat} :
    { b.appendChild n with activeAssistantEl := a }.said =
      b.said ++ (match n with
        | .message .assistant _ => []
        | .message role body => [(role, body)]
        | .thinking => []) := by
  change (b.children ++ [(b.made, n)]).filterMap _ = _
  rw [List.filterMap_append]
  congr 1
  rcases n with ⟨_ | _ | _ | _, _⟩ | _ <;> rfl

/-- Assigning the body of an assistant message changes no other. -/
theorem WellFormed.said_setBody (h : b.WellFormed) (hid : ∃ body, (id, .message .assistant body) ∈ b.children)
    (f : JsStr → JsStr) : (b.setBody id f).said = b.said := by
  obtain ⟨body, hbody⟩ := hid
  unfold said ChatBox.setBody
  rw [List.filterMap_map]
  apply List.filterMap_congr
  intro c hc
  obtain ⟨i, n⟩ := c
  dsimp only [Function.comp]
  by_cases heq : i = id
  · subst heq
    rw [h.eq_of_mem hc hbody, if_pos rfl]
    rfl
  · rw [if_neg heq]

/-- What a call is to add to the messages that are not the assistant's -/
def told : ChatBoxCall → List (Role × JsStr)
  | .addMessage .assistant _ => []
  | .addMessage role text => [(role, text)]
  | _ => []

/-- Messages as the parser shows them -/
def shown (ms : List (Role × JsStr)) : List (Role × JsStr) := ms.map fun m => (m.1, parsed m.2)

theorem shown_append (ms ms' : List (Role × JsStr)) : shown (ms ++ ms') = shown ms ++ shown ms' :=
  List.map_append

theorem shown_eq_self {ms : List (Role × JsStr)} (h : ∀ m ∈ ms, 0x0D ∉ m.2 ∧ 0 ∉ m.2) :
    shown ms = ms := by
  have hsame : ∀ m ∈ ms, (m.1, parsed m.2) = m := fun m hm => by rw [parsed_eq_self (h m hm).1 (h m hm).2]
  rw [shown, List.map_congr_left hsame, List.map_id']

theorem WellFormed.said_addMessage (h : b.WellFormed) (role : Role) (text : JsStr) :
    (b.addMessage role text).said = b.said ++ shown (told (.addMessage role text)) := by
  rw [addMessage_eq, said_append, h.said_removeThinking]
  cases role <;> rfl

theorem WellFormed.said_drafted (h : b.WellFormed) : b.drafted.said = b.said := by
  unfold ChatBox.drafted
  split
  · exact h.said_removeThinking
  · rw [said_append, h.said_removeThinking, List.append_nil]

theorem WellFormed.drafted_active (h : b.WellFormed) :
    ∃ body, (b.activeAssistantEl.getD b.made, .message .assistant body) ∈ b.drafted.children := by
  unfold ChatBox.drafted
  cases hactive : b.activeAssistantEl with
  | some id =>
    obtain ⟨body, hbody⟩ := h.removeThinking.active id (by rw [removeThinking_active, hactive])
    exact ⟨body, hbody⟩
  | none =>
    refine ⟨[], List.mem_append_right _ ?_⟩
    rw [removeThinking_made]
    exact List.mem_cons_self

theorem WellFormed.said_call (h : b.WellFormed) (c : ChatBoxCall) :
    (b.call c).said = b.said ++ shown (told c) := by
  cases c with
  | addMessage role text => exact h.said_addMessage role text
  | appendAssistantPartial text =>
    change (b.appendAssistantPartial text).said = b.said ++ []
    rw [List.append_nil]
    by_cases hne : text = []
    · subst hne
      rfl
    · rw [appendAssistantPartial_eq hne, h.drafted.said_setBody h.drafted_active, h.said_drafted]
  | finalizeAssistantMessage text =>
    change (b.finalizeAssistantMessage text).said = b.said ++ []
    rw [List.append_nil]
    unfold finalizeAssistantMessage
    split
    · rename_i id hid
      exact h.said_setBody (h.active id hid) _
    · rw [h.said_addMessage]
      exact List.append_nil _
  | resetAssistantDraft => exact (List.append_nil _).symm
  | showThinking =>
    change b.showThinking.said = b.said ++ []
    unfold ChatBox.showThinking
    split
    · rw [List.append_nil]
    · exact said_append (n := .thinking) (a := b.activeAssistantEl)
  | removeThinking => exact h.said_removeThinking.trans (List.append_nil _).symm

theorem wellFormed_run (h : b.WellFormed) (calls : List ChatBoxCall) :
    (calls.foldl call b).WellFormed := by
  induction calls generalizing b with
  | nil => exact h
  | cons c calls ih => exact ih (h.call c)

end ChatBox

/-- Over any calls, what the user and the page said stands there, all of it and in order, as a parser
reads it: unchanged but for carriage returns and U+0000. There is at most one thinking bubble. -/
theorem chatBox_keeps_said (calls : List ChatBoxCall) :
    (calls.foldl ChatBox.call .empty).said = ChatBox.shown (calls.flatMap ChatBox.told) ∧
      ((∀ m ∈ calls.flatMap ChatBox.told, 0x0D ∉ m.2 ∧ 0 ∉ m.2) →
        (calls.foldl ChatBox.call .empty).said = calls.flatMap ChatBox.told) ∧
      ((calls.foldl ChatBox.call .empty).children.filter fun c => c.2 = .thinking).length ≤ 1 := by
  have hsaid : ∀ b : ChatBox, b.WellFormed →
      (calls.foldl ChatBox.call b).said = b.said ++ ChatBox.shown (calls.flatMap ChatBox.told) := by
    induction calls with
    | nil => exact fun b _ => (List.append_nil _).symm
    | cons c calls ih =>
      intro b hb
      rw [List.foldl_cons, ih _ (hb.call c), hb.said_call c, List.flatMap_cons, ChatBox.shown_append,
        List.append_assoc]
  have hall : (calls.foldl ChatBox.call .empty).said = ChatBox.shown (calls.flatMap ChatBox.told) :=
    hsaid .empty ChatBox.wellFormed_empty
  refine ⟨hall, ?_, ?_⟩
  · exact fun hplain => hall.trans (ChatBox.shown_eq_self hplain)
  · rw [(ChatBox.wellFormed_run ChatBox.wellFormed_empty calls).thinking, List.length_map]
    cases (calls.foldl ChatBox.call .empty).thinkingEl with
    | none => exact Nat.zero_le 1
    | some id => exact Nat.le_refl 1

/-- A user's message that looks like HTML, an answer in two parts, and a message of the page -/
def markedUp : List ChatBoxCall :=
  [.addMessage .user (str "a < b & c"), .showThinking, .appendAssistantPartial (str "Ye"),
    .appendAssistantPartial (str "s"), .finalizeAssistantMessage (str "Yes"), .showThinking,
    .addMessage .system (str "<b>offline</b>")]

theorem chatBox_keeps_said_markedUp :
    (markedUp.foldl ChatBox.call .empty).said =
      [(.user, str "a < b & c"), (.system, str "<b>offline</b>")] :=
  (chatBox_keeps_said markedUp).2.1 (by decide)

/-- A box, and the replies that were finished: the element of each and its text as it was shown -/
structure Told where
  box : ChatBox
  replies : List (Nat × JsStr)

namespace Told

def start : Told := { box := .empty, replies := [] }

/-- A text that an element is made with goes through the parser. -/
def finished (b : ChatBox) : ChatBoxCall → List (Nat × JsStr)
  | .addMessage .assistant text => [(b.made, parsed text)]
  | .finalizeAssistantMessage text =>
    match b.activeAssistantEl with
    | some id => [(id, text)]
    | none => [(b.made, parsed text)]
  | _ => []

def call (t : Told) (c : ChatBoxCall) : Told :=
  { box := t.box.call c, replies := t.replies ++ finished t.box c }

/-- Every finished reply stands on the page as it was finished. -/
def Shown (t : Told) : Prop :=
  ∀ e ∈ t.replies, (e.1, .message .assistant e.2) ∈ t.box.children

/-- A partial text, or a final text other than what is shown of the reply, comes while the active element
is that of a finished reply. -/
def Overwrites (t : Told) : ChatBoxCall → Prop
  | .appendAssistantPartial text => text ≠ [] ∧ ∃ e ∈ t.replies, t.box.activeAssistantEl = some e.1
  | .finalizeAssistantMessage text =>
    ∃ e ∈ t.replies, t.box.activeAssistantEl = some e.1 ∧ e.2 ≠ text
  | _ => False

section Told

variable {b : ChatBox} {t : Told} {id : Nat} {n : Node} {role : Role} {text : JsStr}

theorem mem_removeThinking (h : b.WellFormed) :
    (id, .message role text) ∈ b.removeThinking.children ↔ (id, .message role text) ∈ b.children := by
  rw [h.removeThinking_children, List.mem_filter]
  exact and_iff_left (by simp)

theorem mem_addMessage (h : b.WellFormed) {i : Nat} {r : Role} {body : JsStr} :
    (i, .message r body) ∈ (b.addMessage role text).children ↔
      (i, .message r body) ∈ b.children ∨ i = b.made ∧ r = role ∧ body = parsed text := by
  rw [ChatBox.addMessage_eq]
  change _ ∈ b.removeThinking.children ++ [(b.removeThinking.made, Node.message role (parsed text))] ↔ _
  rw [List.mem_append, mem_removeThinking h, ChatBox.removeThinking_made]
  simp

/-- A call that leaves the finished replies as they are, and shows the ones it finishes -/
theorem Shown.kept {c : ChatBoxCall} (hs : t.Shown)
    (hkeep : ∀ e ∈ t.replies, (e.1, Node.message .assistant e.2) ∈ t.box.children →
      (e.1, Node.message .assistant e.2) ∈ (t.box.call c).children)
    (hmore : ∀ e ∈ finished t.box c, (e.1, Node.message .assistant e.2) ∈ (t.box.call c).children) :
    (t.call c).Shown := by
  intro e he
  rcases List.mem_append.mp he with he | he
  · exact hkeep e he (hs e he)
  · exact hmore e he

theorem shown_addMessage (h : t.box.WellFormed) (hs : t.Shown) (role : Role) (text : JsStr) :
    (t.call (.addMessage role text)).Shown := by
  refine hs.kept (fun e _ hmem => (mem_addMessage h).mpr (.inl hmem)) ?_
  intro e he
  cases role with
  | assistant =>
    cases List.mem_singleton.mp he
    exact (mem_addMessage h).mpr (.inr ⟨rfl, rfl, rfl⟩)
  | _ => cases he

theorem mem_drafted (h : b.WellFormed) {i : Nat} {body : JsStr}
    (hmem : (i, .message .assistant body) ∈ b.children) :
    (i, .message .assistant body) ∈ b.drafted.children := by
  unfold ChatBox.drafted
  split
  · exact (mem_removeThinking h).mpr hmem
  · exact List.mem_append_left _ ((mem_removeThinking h).mpr hmem)

theorem shown_written (h : t.box.WellFormed) (hs : t.Shown) (hne : text ≠ []) :
    (t.call (.appendAssistantPartial text)).Shown ↔
      ¬ ∃ e ∈ t.replies, t.box.activeAssistantEl = some e.1 := by
  have hcall : (t.call (.appendAssistantPartial text)).box =
      t.box.drafted.setBody (t.box.activeAssistantEl.getD t.box.made) fun body => body ++ text :=
    ChatBox.appendAssistantPartial_eq hne
  constructor
  · rintro hshown ⟨e, he, hactive⟩
    have hmem := hshown e (List.mem_append_left _ he)
    rw [hcall, hactive, ChatBox.mem_setBody] at hmem
    rcases hmem with ⟨hne, -⟩ | ⟨-, old, hold, heq⟩
    · exact hne rfl
    · rw [h.drafted.eq_of_mem hold (mem_drafted h (hs e he))] at heq
      injection heq with _ heq
      exact hne (List.append_right_eq_self.mp heq.symm)
  · intro hnone
    refine hs.kept ?_ (fun e he => by cases he)
    intro e he hmem
    change _ ∈ (t.box.appendAssistantPartial text).children
    rw [ChatBox.appendAssistantPartial_eq hne, ChatBox.mem_setBody]
    refine .inl ⟨?_, mem_drafted h hmem⟩
    -- the element is not the active one, and not the one that is made
    cases hactive : t.box.activeAssistantEl with
    | some id =>
      rintro rfl
      exact hnone ⟨e, he, hactive⟩
    | none =>
      have hlt := h.made _ hmem
      exact Nat.ne_of_lt hlt

theorem shown_finalize (h : t.box.WellFormed) (hs : t.Shown) (text : JsStr) :
    (t.call (.finalizeAssistantMessage text)).Shown ↔
      ¬ ∃ e ∈ t.replies, t.box.activeAssistantEl = some e.1 ∧ e.2 ≠ text := by
  cases hactive : t.box.activeAssistantEl with
  | none =>
    have hcall : t.box.finalizeAssistantMessage text = t.box.addMessage .assistant text := by
      rw [ChatBox.finalizeAssistantMessage, hactive]
    refine iff_of_true ?_ ?_
    · refine hs.kept (c := .finalizeAssistantMessage text) ?_ ?_
      · intro e _ hmem
        change _ ∈ (t.box.finalizeAssistantMessage text).children
        rw [hcall]
        exact (mem_addMessage h).mpr (.inl hmem)
      · intro e he
        rw [finished, hactive] at he
        cases List.mem_singleton.mp he
        change _ ∈ (t.box.finalizeAssistantMessage text).children
        rw [hcall]
        exact (mem_addMessage h).mpr (.inr ⟨rfl, rfl, rfl⟩)
    · rintro ⟨e, -, heq, -⟩
      cases heq
  | some id =>
    have hmem_call : ∀ i body, (i, Node.message .assistant body) ∈
        (t.box.call (.finalizeAssistantMessage text)).children ↔
        i ≠ id ∧ (i, .message .assistant body) ∈ t.box.children ∨ i = id ∧ body = text := by
      intro i body
      change _ ∈ (t.box.finalizeAssistantMessage text).children ↔ _
      rw [ChatBox.finalizeAssistantMessage, hactive]
      refine (ChatBox.mem_setBody fun _ => text).trans ?_
      obtain ⟨old, hold⟩ := h.active id hactive
      constructor
      · rintro (hother | ⟨rfl, old', hold', heq⟩)
        · exact .inl hother
        · rw [h.eq_of_mem hold' hold] at heq
          injection heq with _ heq
          exact .inr ⟨rfl, heq⟩
      · rintro (hother | ⟨rfl, rfl⟩)
        · exact .inl hother
        · exact .inr ⟨rfl, _, hold, rfl⟩
    constructor
    · rintro hshown ⟨e, he, heq, htext⟩
      have hmem := hshown e (List.mem_append_left _ he)
      cases heq
      rcases (hmem_call _ _).mp hmem with ⟨hne, -⟩ | ⟨-, heq⟩
      · exact hne rfl
      · exact htext heq
    · intro hnone
      refine hs.kept (c := .finalizeAssistantMessage text) ?_ ?_
      · intro e he hmem
        rw [hmem_call]
        by_cases heq : e.1 = id
        · right
          refine ⟨heq, ?_⟩
          by_contra htext
          exact hnone ⟨e, he, by rw [heq], htext⟩
        · exact .inl ⟨heq, hmem⟩
      · intro e he
        rw [finished, hactive] at he
        cases List.mem_singleton.mp he
        rw [hmem_call]
        exact .inr ⟨rfl, rfl⟩

/-- A call spoils a finished reply exactly where it overwrites one. -/
theorem shown_call (h : t.box.WellFormed) (hs : t.Shown) (c : ChatBoxCall) :
    (t.call c).Shown ↔ ¬ t.Overwrites c := by
  have hquiet : ∀ c', finished t.box c' = [] →
      (∀ e ∈ t.replies, (e.1, Node.message .assistant e.2) ∈ t.box.children →
        (e.1, Node.message .assistant e.2) ∈ (t.box.call c').children) → (t.call c').Shown := by
    intro c' hnil hkeep
    refine hs.kept hkeep ?_
    rw [hnil]
    exact fun e he => by cases he
  cases c with
  | addMessage role text => exact iff_of_true (shown_addMessage h hs role text) not_false
  | appendAssistantPartial text =>
    by_cases hne : text = []
    · subst hne
      refine iff_of_true (hquiet _ rfl fun e _ hmem => hmem) ?_
      rintro ⟨hne, -⟩
      exact hne rfl
    · rw [shown_written h hs hne]
      exact not_congr (and_iff_right hne).symm
  | finalizeAssistantMessage text => exact shown_finalize h hs text
  | resetAssistantDraft => exact iff_of_true (hquiet _ rfl fun e _ hmem => hmem) not_false
  | showThinking =>
    refine iff_of_true (hquiet _ rfl ?_) not_false
    intro e _ hmem
    change _ ∈ t.box.showThinking.children
    unfold ChatBox.showThinking
    split
    · exact hmem
    · exact List.mem_append_left _ hmem
  | removeThinking =>
    refine iff_of_true (hquiet _ rfl ?_) not_false
    exact fun e _ hmem => (mem_removeThinking h).mpr hmem

end Told

end Told

/-- Along any calls every finished reply stays on the page, word for word, exactly as long as no partial
text and no other final text comes while the active element is that of a finished reply. -/
theorem replies_stay_iff (calls : List ChatBoxCall) :
    (∀ before, before <+: calls → (before.foldl Told.call .start).Shown) ↔
      ∀ before c, before ++ [c] <+: calls → ¬ (before.foldl Told.call .start).Overwrites c := by
  refine always_iff_no_bad (I := fun t => t.box.WellFormed) ?_ ?_ calls ?_ ?_
  · exact fun h => h.call _
  · exact fun h hs => Told.shown_call h hs _
  · exact ChatBox.wellFormed_empty
  · exact fun e he => by cases he

end Client

end VirtualPerson
