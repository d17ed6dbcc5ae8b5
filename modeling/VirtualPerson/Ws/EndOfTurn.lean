import VirtualPerson.Ws.ProtocolV2

/-!
# The end of a streamed turn

Only the remainder of the text is spoken with `is_last=True`. Whether the last audio chunk of a
turn is marked depends on what the last sentence leaves behind, and on its synthesis.
-/

namespace VirtualPerson

set_option autoImplicit false

namespace StreamingTurnOrchestrator

/-- What a fragment leaves in the buffer. -/
def nextBuffer (buffer fragment : PyStr) : PyStr :=
  if isSentenceBoundary (buffer ++ fragment) then [] else buffer ++ fragment

/-- The text behind the last completed sentence. -/
def remainder (fragments : List PyStr) : PyStr := fragments.foldl nextBuffer []

def lastFlag : ProtocolEvent → Option Bool
  | .audioChunk _ _ isLast _ => some isLast
  | _ => none

/-- The `is_last` of each audio chunk. -/
def lastFlags (events : List ProtocolEvent) : List Bool := events.filterMap lastFlag

/-- If there is an audio chunk at all, the last one is marked, and no other. -/
def EndMarked (events : List ProtocolEvent) : Prop :=
  lastFlags events ≠ [] → ∃ front, lastFlags events = front ++ [true] ∧ true ∉ front

def delivered : OrchestratorSig.Event → Option PyStr
  | ⟨.synthesize text, .ok (audio, _)⟩ => if (detectMime audio).isOk then some text else none
  | _ => none

/-- The texts for which the speech service gave audio whose type can be read. -/
def deliveredTexts (tr : List OrchestratorSig.Event) : List PyStr := tr.filterMap delivered

section Boundary

theorem getLast?_rdropWhile (s : PyStr) :
    (s.rdropWhile isSpace).getLast? = (PyStr.solid s).getLast? := by
  induction s using List.reverseRecOn with
  | nil => rfl
  | append_singleton s c ih =>
    rw [List.rdropWhile_concat, PyStr.solid_append]
    cases hspace : isSpace c with
    | true => simpa [PyStr.solid, hspace] using ih
    | false => simp [PyStr.solid, hspace]

theorem isSentenceBoundary_congr {s t : PyStr} (h : PyStr.solid s = PyStr.solid t) :
    isSentenceBoundary s = isSentenceBoundary t := by
  rw [isSentenceBoundary, isSentenceBoundary, getLast?_rdropWhile, getLast?_rdropWhile, h]

theorem isSentenceBoundary_strip (s : PyStr) :
    isSentenceBoundary (PyStr.strip s) = isSentenceBoundary s :=
  isSentenceBoundary_congr (PyStr.solid_strip s)

theorem isSentenceBoundary_nextBuffer (buffer fragment : PyStr) :
    isSentenceBoundary (nextBuffer buffer fragment) = false := by
  rw [nextBuffer]
  split
  · rfl
  · rename_i hopen
    exact Bool.eq_false_iff.mpr hopen

theorem isSentenceBoundary_remainder (fragments : List PyStr) :
    isSentenceBoundary (remainder fragments) = false := by
  induction fragments using List.reverseRecOn with
  | nil => rfl
  | append_singleton fragments fragment _ =>
    rw [remainder, List.foldl_append]
    exact isSentenceBoundary_nextBuffer _ fragment

end Boundary

section Marks

variable {um : UpperMap} {wavMs : Nat → Int} {p : Progress} {tr tr' : List OrchestratorSig.Event}

theorem deliveredTexts_append (tr tr' : List OrchestratorSig.Event) :
    deliveredTexts (tr ++ tr') = deliveredTexts tr ++ deliveredTexts tr' := List.filterMap_append

theorem lastFlags_append (tr tr' : List OrchestratorSig.Event) :
    lastFlags (sends (tr ++ tr')) = lastFlags (sends tr) ++ lastFlags (sends tr') := by
  rw [sends_append, lastFlags, List.filterMap_append]
  rfl

/-- One synthesis: it delivers, and sends one chunk, or it does neither. -/
inductive Voiced (text : PyStr) (isLast : Bool) : List PyStr → List Bool → Prop where
  | mute : Voiced text isLast [] []
  | chunk : Voiced text isLast [text] [isLast]

/-- Completed sentences, none of whose chunks is marked. -/
structure Unmarked (tr : List OrchestratorSig.Event) : Prop where
  boundary : ∀ text ∈ deliveredTexts tr, isSentenceBoundary text = true
  flags : lastFlags (sends tr) = (deliveredTexts tr).map fun _ => false

theorem Unmarked.append (h : Unmarked tr) (h' : Unmarked tr') : Unmarked (tr ++ tr') where
  boundary text htext := by
    rw [deliveredTexts_append] at htext
    rcases List.mem_append.mp htext with htext | htext
    · exact h.boundary text htext
    · exact h'.boundary text htext
  flags := by rw [lastFlags_append, deliveredTexts_append, h.flags, h'.flags, List.map_append]

/-- Exchanges without a synthesis and without a chunk. -/
theorem Unmarked.idle (hdelivered : deliveredTexts tr = []) (hflags : lastFlags (sends tr) = []) :
    Unmarked tr where
  boundary text htext := by
    rw [hdelivered] at htext
    cases htext
  flags := by rw [hflags, hdelivered]; rfl

theorem Unmarked.of_voiced {text : PyStr} (hboundary : isSentenceBoundary text = true)
    (h : Voiced text false (deliveredTexts tr) (lastFlags (sends tr))) : Unmarked tr := by
  generalize htexts : deliveredTexts tr = texts at h
  generalize hflags : lastFlags (sends tr) = flags at h
  cases h with
  | mute => exact .idle htexts hflags
  | chunk =>
    constructor
    · intro spoken hspoken
      rw [htexts] at hspoken
      rw [List.mem_singleton.mp hspoken]
      exact hboundary
    · rw [htexts, hflags]
      rfl

theorem voiced_unreadable {text : PyStr} {isLast : Bool} {audio : List UInt8} {e : PyExc}
    {phonemes : List PhonemeStamp} (hmime : detectMime audio = .error e) :
    Voiced text isLast
      (deliveredTexts [⟨.cancelled, false⟩, ⟨.synthesize text, .ok (audio, phonemes)⟩]) [] := by
  have hnone : delivered ⟨.synthesize text, .ok (audio, phonemes)⟩ = none := by
    rw [delivered, hmime]
    rfl
  rw [deliveredTexts, List.filterMap_cons_none rfl, List.filterMap_cons_none hnone]
  exact .mute

/-- Audio that can be read is sent, whatever becomes of the sends. -/
theorem voiced_readable {text mime : PyStr} {isLast : Bool} {audio : List UInt8}
    {phonemes : List PhonemeStamp} (hmime : detectMime audio = .ok mime)
    (hdelivered : deliveredTexts tr = []) (hflags : lastFlags (sends tr) = [isLast]) :
    Voiced text isLast
      (deliveredTexts (⟨.cancelled, false⟩ :: ⟨.synthesize text, .ok (audio, phonemes)⟩ :: tr))
      (lastFlags (sends tr)) := by
  have hsome : delivered ⟨.synthesize text, .ok (audio, phonemes)⟩ = some text := by
    rw [delivered, hmime]
    rfl
  rw [deliveredTexts, List.filterMap_cons_none rfl, List.filterMap_cons_some hsome, hflags]
  change Voiced text isLast (text :: deliveredTexts tr) _
  rw [hdelivered]
  exact .chunk

theorem meets_synthesizeAndSend (text : PyStr) (seq offset : Int) (isLast : Bool) :
    Prog.Meets (TokenReads false)
      (fun _ tr => Voiced text isLast (deliveredTexts tr) (lastFlags (sends tr)))
      (fun _ tr => Voiced text isLast (deliveredTexts tr) (lastFlags (sends tr)))
      (synthesizeAndSend um wavMs text seq offset isLast) := by
  apply meets_look
  apply Prog.meets_op
  intro ans _
  cases ans with
  | error e =>
    dsimp only
    split
    · exact Prog.meets_ret .mute
    · exact Prog.meets_raise .mute
  | ok result =>
    obtain ⟨audio, phonemes⟩ := result
    dsimp only
    cases hmime : detectMime audio with
    | error e => exact Prog.meets_raise (voiced_unreadable hmime)
    | ok mime =>
      apply meets_send fun _ => voiced_readable hmime rfl rfl
      apply meets_send fun _ => voiced_readable hmime rfl rfl
      exact Prog.meets_ret (voiced_readable hmime rfl rfl)

theorem meets_onFragment (p : Progress) (fragment : PyStr) :
    Prog.Meets (TokenReads false)
      (fun p' tr => Unmarked tr ∧ p'.buffer = nextBuffer p.buffer fragment) (fun _ tr => Unmarked tr)
      (onFragment um wavMs p fragment) := by
  apply meets_send fun _ => .idle rfl rfl
  by_cases hboundary : isSentenceBoundary (p.buffer ++ fragment) = true
  · have hnext : nextBuffer p.buffer fragment = [] := if_pos hboundary
    rw [if_pos hboundary, if_neg (solid_boundary hboundary), hnext]
    have hsentence : isSentenceBoundary (PyStr.strip (p.buffer ++ fragment)) = true := by
      rw [isSentenceBoundary_strip, hboundary]
    apply ((meets_synthesizeAndSend _ (p.seq + 1) p.offset false).imp (fun _ _ h => h) _).bind
    · intro offset before hvoiced
      apply Prog.meets_ret
      rw [List.append_nil]
      exact ⟨.of_voiced hsentence hvoiced, rfl⟩
    · intro e tr hvoiced
      exact .of_voiced hsentence hvoiced
  · rw [if_neg hboundary]
    exact Prog.meets_ret ⟨.idle rfl rfl, (if_neg hboundary).symm⟩

theorem meets_consume (p : Progress) (fragments : List PyStr) :
    Prog.Meets (TokenReads false)
      (fun p' tr => Unmarked tr ∧ p'.buffer = fragments.foldl nextBuffer p.buffer)
      (fun _ tr => Unmarked tr) (consume um wavMs p fragments) := by
  induction fragments generalizing p with
  | nil =>
    apply meets_awaitNext fun _ => .idle rfl rfl
    exact Prog.meets_ret ⟨.idle rfl rfl, rfl⟩
  | cons fragment fragments ih =>
    apply meets_awaitNext fun _ => .idle rfl rfl
    apply meets_look
    have hquiet : Unmarked [⟨.next, .ok ()⟩, ⟨.cancelled, false⟩] := .idle rfl rfl
    apply ((meets_onFragment p fragment).imp (fun _ _ h => h) _).bind
    · intro p' before hfirst
      apply (ih p').imp
      · intro p'' after hrest
        exact ⟨(hquiet.append hfirst.1).append hrest.1, by rw [hrest.2, hfirst.2]; rfl⟩
      · intro e after hrest
        exact (hquiet.append hfirst.1).append hrest
    · intro e tr hraised
      exact hquiet.append hraised

/-- A turn up to some point: sentences, and perhaps the remainder `rest` behind them. -/
inductive Closing (rest : PyStr) : List PyStr → List Bool → Prop where
  | unmarked (texts : List PyStr) (boundary : ∀ text ∈ texts, isSentenceBoundary text = true) :
      Closing rest texts (texts.map fun _ => false)
  | marked (texts : List PyStr) (boundary : ∀ text ∈ texts, isSentenceBoundary text = true)
      (solid : rest ≠ []) : Closing rest (texts ++ [rest]) ((texts.map fun _ => false) ++ [true])

def Closes (rest : PyStr) (tr : List OrchestratorSig.Event) : Prop :=
  Closing rest (deliveredTexts tr) (lastFlags (sends tr))

variable {rest : PyStr}

theorem Unmarked.closes (h : Unmarked tr) : Closes rest tr := by
  rw [Closes, h.flags]
  exact .unmarked _ h.boundary

/-- The remainder is the last text that is spoken. -/
theorem Unmarked.closes_append (h : Unmarked tr) (hsolid : rest ≠ [])
    (hvoiced : Voiced rest true (deliveredTexts tr') (lastFlags (sends tr'))) :
    Closes rest (tr ++ tr') := by
  rw [Closes, deliveredTexts_append, lastFlags_append, h.flags]
  generalize deliveredTexts tr' = texts at hvoiced
  generalize lastFlags (sends tr') = flags at hvoiced
  cases hvoiced with
  | mute =>
    rw [List.append_nil, List.append_nil]
    exact .unmarked _ h.boundary
  | chunk => exact .marked _ h.boundary hsolid

theorem Closes.idle_append (h : Closes rest tr) (hdelivered : deliveredTexts tr' = [])
    (hflags : lastFlags (sends tr') = []) : Closes rest (tr ++ tr') := by
  rw [Closes, deliveredTexts_append, lastFlags_append, hdelivered, hflags, List.append_nil,
    List.append_nil]
  exact h

theorem meets_flushRemainder (p : Progress) (h : Unmarked tr) :
    Prog.Meets (TokenReads false) (fun _ after => Closes (PyStr.strip p.buffer) (tr ++ after))
      (fun _ after => Closes (PyStr.strip p.buffer) (tr ++ after)) (flushRemainder um wavMs p) := by
  by_cases hblank : PyStr.strip p.buffer = []
  · rw [flushRemainder, if_pos hblank]
    exact Prog.meets_ret (h.closes.idle_append rfl rfl)
  · rw [flushRemainder, if_neg hblank]
    apply meets_look
    have hlook : Unmarked (tr ++ [⟨.cancelled, false⟩]) := h.append (.idle rfl rfl)
    apply ((meets_synthesizeAndSend _ (p.seq + 1) p.offset true).imp (fun _ _ h => h) _).bind
    · intro offset after hvoiced
      apply Prog.meets_ret
      rw [List.append_nil, List.append_cons]
      exact hlook.closes_append hblank hvoiced
    · intro e after hvoiced
      rw [List.append_cons]
      exact hlook.closes_append hblank hvoiced

theorem meets_run (seq : Int) (fragments : List PyStr) :
    Prog.Meets (TokenReads false) (fun _ tr => Closes (PyStr.strip (remainder fragments)) tr)
      (fun _ tr => Closes (PyStr.strip (remainder fragments)) tr) (run um wavMs seq fragments) := by
  set start : Progress := { buffer := [], fullText := [], offset := 0, seq }
  apply Prog.Meets.catching (R := fun _ tr => Closes (PyStr.strip (remainder fragments)) tr)
  · apply ((meets_consume start fragments).imp (fun _ _ h => h) _).bind
    · intro p before hbefore
      obtain ⟨hunmarked, hbuffer⟩ := hbefore
      have hrest : p.buffer = remainder fragments := hbuffer
      rw [← hrest]
      apply (meets_flushRemainder p hunmarked).bind
      intro _ after hcloses
      apply Prog.meets_ret
      rw [List.append_nil]
      exact hcloses
    · intro e tr hunmarked
      exact hunmarked.closes
  · intro e before hcloses
    split
    · apply meets_send fun _ => hcloses.idle_append rfl rfl
      exact Prog.meets_raise (hcloses.idle_append rfl rfl)
    · exact Prog.meets_raise (hcloses.idle_append rfl rfl)

theorem Closing.endMarked_iff {texts : List PyStr} {events : List ProtocolEvent}
    (hopen : isSentenceBoundary rest = false) (h : Closing rest texts (lastFlags events)) :
    EndMarked events ↔ texts = [] ∨ rest ≠ [] ∧ rest ∈ texts := by
  unfold EndMarked
  generalize lastFlags events = flags at h
  cases h with
  | unmarked _ boundary =>
    constructor
    · intro hmarked
      by_cases hnil : texts = []
      · exact .inl hnil
      · obtain ⟨front, hfront, -⟩ := hmarked (by simpa using hnil)
        have hmem : true ∈ texts.map fun _ => false := by simp [hfront]
        simp at hmem
    · rintro (rfl | ⟨-, hmem⟩)
      · intro hne
        exact absurd rfl hne
      · rw [boundary rest hmem] at hopen
        cases hopen
  | marked texts boundary hsolid =>
    constructor
    · intro _
      exact .inr ⟨hsolid, by simp⟩
    · intro _ _
      exact ⟨_, rfl, by simp⟩

end Marks

/-- In a turn that is never cancelled, the last audio chunk sent is the one marked as the last if and
only if no synthesis delivers audio, or the text behind the last completed sentence is not blank and
its synthesis delivers. -/
theorem run_endMarked_iff (um : UpperMap) (wavMs : Nat → Int) (seq : Int) (fragments : List PyStr)
    (tr : List OrchestratorSig.Event) (r : Except PyExc PyStr)
    (hrun : Prog.Runs (run um wavMs seq fragments) tr r) (hlive : ∀ ev ∈ tr, TokenReads false ev) :
    EndMarked (sends tr) ↔
      deliveredTexts tr = [] ∨
        PyStr.strip (remainder fragments) ≠ [] ∧
          PyStr.strip (remainder fragments) ∈ deliveredTexts tr := by
  have hopen : isSentenceBoundary (PyStr.strip (remainder fragments)) = false := by
    rw [isSentenceBoundary_strip, isSentenceBoundary_remainder]
  obtain ⟨hret, hraise⟩ := meets_run seq fragments tr r hrun hlive
  cases r with
  | ok text => exact (hret text rfl).endMarked_iff hopen
  | error e => exact (hraise e rfl).endMarked_iff hopen

theorem tokenReads_twoBytes (o : OrchestratorSig.Op) : TokenReads false ⟨o, twoBytes o⟩ := by
  cases o <;> trivial

theorem run_endMarked_yo : EndMarked (sends (Prog.answered twoBytes
    (run .asciiOnly (fun n => n / 44) 0 [str "Hi!", str " Yo"])).1) :=
  (run_endMarked_iff .asciiOnly (fun n => n / 44) 0 [str "Hi!", str " Yo"] _ _
    (Prog.runs_answered twoBytes _) (Prog.forall_mem_answered tokenReads_twoBytes _)).mpr
    (.inr ⟨by decide, by decide⟩)

/-- A text that ends with a sentence is spoken in full, and no chunk is marked. -/
theorem run_endMarked_fails :
    Prog.Runs (run .asciiOnly (fun n => n / 44) 0 [str "Hi!"])
        (Prog.answered twoBytes (run .asciiOnly (fun n => n / 44) 0 [str "Hi!"])).1 (.ok (str "Hi!")) ∧
      (∀ ev ∈ (Prog.answered twoBytes (run .asciiOnly (fun n => n / 44) 0 [str "Hi!"])).1,
        TokenReads false ev) ∧
      lastFlags (sends (Prog.answered twoBytes
        (run .asciiOnly (fun n => n / 44) 0 [str "Hi!"])).1) = [false] ∧
      ¬ EndMarked (sends (Prog.answered twoBytes
        (run .asciiOnly (fun n => n / 44) 0 [str "Hi!"])).1) := by
  have hflags : lastFlags (sends (Prog.answered twoBytes
      (run .asciiOnly (fun n => n / 44) 0 [str "Hi!"])).1) = [false] := by rfl
  refine ⟨Prog.runs_answered twoBytes _, Prog.forall_mem_answered tokenReads_twoBytes _, hflags, ?_⟩
  intro hmarked
  rw [EndMarked, hflags] at hmarked
  obtain ⟨front, hfront, -⟩ := hmarked (by simp)
  have hlast := congrArg List.getLast? hfront
  simp at hlast

end StreamingTurnOrchestrator

end VirtualPerson
