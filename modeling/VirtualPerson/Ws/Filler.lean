import VirtualPerson.Ws.Turn

/-!
# Filler audio

The order of the filler and the answer's audio in a streaming turn. Whether the answer has been
heard is looked at when a delta arrives; the filler goes out two waits later.
-/

namespace VirtualPerson

set_option autoImplicit false

namespace TurnEvent

/-- In a streaming turn only the filler is sent outside the worker. -/
def SendsFiller : TurnEvent → Prop
  | .send .audio (.ok _) => True
  | _ => False

def SendsAnswer : TurnEvent → Prop
  | .worker (.audio (.ok _)) => True
  | _ => False

def Receives : TurnEvent → Prop
  | .next _ _ => True
  | _ => False

instance : DecidablePred SendsFiller := fun e => by
  unfold SendsFiller
  split <;> infer_instance

end TurnEvent

open TurnEvent

structure FillerFirst (es : List TurnEvent) : Prop where
  once : es.countP SendsFiller ≤ 1
  first : AllAlong (fun before e => e.SendsFiller → ∀ x ∈ before, ¬ x.SendsAnswer) es

/-- No audio of the answer is sent between a delta and the filler that it brings. -/
def AnswerWaits (es : List TurnEvent) : Prop :=
  AllAlong (fun before e => e.SendsFiller → ¬ Since SendsAnswer Receives before) es

def WorkerPc.speaks : WorkerPc → Bool
  | .announcing _ => true
  | .sending _ => true
  | _ => false

namespace TtsWorker

theorem speaks_next (sawEnd : Bool) : (next sawEnd).speaks = false := by
  cases sawEnd <;> rfl

theorem speaks_afterMerge (parts : List PyStr) (sawEnd : Bool) :
    (afterMerge parts sawEnd).speaks = false := by
  unfold afterMerge
  split
  · exact speaks_next sawEnd
  · rfl

/-- The worker speaks only once `sent_first_audio` is set. -/
def Announced (w : TtsWorker) : Prop := w.pc.speaks = true → w.sentFirstAudio = true

theorem announced_of_silent {w : TtsWorker} (h : w.pc.speaks = false) : w.Announced := by
  intro hw
  rw [h] at hw
  cases hw

section Steps

variable {fast : Bool} {w w' : TtsWorker} {e : TtsEvent}

theorem Announced.step (hw : w.Announced) (h : WorkerStep fast w e w') : w'.Announced := by
  cases h with
  | mergeEnd => exact announced_of_silent (speaks_afterMerge _ _)
  | mergeEmpty => exact announced_of_silent (speaks_afterMerge _ _)
  | mergeFull => exact announced_of_silent (speaks_afterMerge _ _)
  | sent => exact announced_of_silent (speaks_next _)
  | synthesisFailed =>
    apply announced_of_silent
    dsimp only
    split
    · exact speaks_next _
    · rfl
  | shaped => exact fun _ => rfl
  | announced u hpc => exact fun _ => hw (by rw [hpc]; rfl)
  | _ => exact announced_of_silent rfl

theorem sentFirstAudio_mono (h : WorkerStep fast w e w') (hw : w.sentFirstAudio = true) :
    w'.sentFirstAudio = true := by
  cases h with
  | shaped => rfl
  | _ => exact hw

theorem speaks_of_answer (h : WorkerStep fast w e w') (he : (TurnEvent.worker e).SendsAnswer) :
    w.pc.speaks = true := by
  cases h with
  | sent u hpc =>
    rw [hpc]
    rfl
  | _ => cases he

end Steps

end TtsWorker

inductive Stage where
  | opening
  /-- The answer is spoken as a whole. -/
  | whole
  /-- A filler is on its way. -/
  | filling
  | passing

def TurnPc.stage : TurnPc → Stage
  | .entering => .opening
  | .thinking => .opening
  | .opening => .opening
  | .chatting => .whole
  | .synthesizing _ => .whole
  | .shaping _ => .whole
  | .sounding _ => .whole
  | .fetchingFiller _ => .filling
  | .shapingFiller _ => .filling
  | .soundingFiller _ => .filling
  | _ => .passing

def Turn.fillers (s : Turn) : Nat := if s.worker.isSome && s.sentFillerAudio then 1 else 0

def Answered (es : List TurnEvent) : Prop := ∃ x ∈ es, x.SendsAnswer

structure FillerInv (s : Turn) (es : List TurnEvent) : Prop where
  count : es.countP SendsFiller = s.fillers
  streamed : s.pc.stage ≠ .whole
  unopened : s.pc.stage = .opening → s.worker = none
  announced : ∀ w, s.worker = some w → w.Announced
  answered : Answered es → ∃ w, s.worker = some w ∧ w.sentFirstAudio = true
  filling : s.pc.stage = .filling →
    s.sentFillerAudio = false ∧ s.worker.isSome = true ∧
      (Answered es → Since SendsAnswer Receives es)

section Turn

variable {cfg : TurnConfig} {s t : Turn} {e : TurnEvent} {es : List TurnEvent}

theorem answered_concat : Answered (es ++ [e]) ↔ Answered es ∨ e.SendsAnswer := by
  simp [Answered, or_and_right, exists_or]

theorem fillerInv_init (h : (turnSystem cfg).init s) : FillerInv s [] := by
  obtain ⟨hpc, hw⟩ := h
  constructor
  · simp [Turn.fillers, hw]
  · simp [hpc, TurnPc.stage]
  · exact fun _ => hw
  · intro w h
    cases hw.symm.trans h
  · intro ⟨x, hx, _⟩
    cases hx
  · intro h
    rw [hpc] at h
    cases h

/-- The worker, once created, stays and never takes back what it has announced. -/
def Turn.Continues (s t : Turn) : Prop :=
  s.worker = none ∧ t.worker = none ∨
    ∃ w w', s.worker = some w ∧ t.worker = some w' ∧ (w.Announced → w'.Announced) ∧
      (w.sentFirstAudio = true → w'.sentFirstAudio = true)

theorem Turn.Continues.of_eq (h : t.worker = s.worker) : s.Continues t := by
  cases hw : s.worker with
  | none => exact .inl ⟨hw, h.trans hw⟩
  | some w => exact .inr ⟨w, w, hw, h.trans hw, id, id⟩

theorem Turn.Continues.isSome (h : s.Continues t) : t.worker.isSome = s.worker.isSome := by
  obtain ⟨hs, ht⟩ | ⟨w, w', hs, ht, -⟩ := h
  · rw [hs, ht]
  · rw [hs, ht]
    rfl

/-- Neither the filler nor the answer is heard at this step. -/
def TurnEvent.Silent (e : TurnEvent) : Prop := ¬ e.SendsFiller ∧ ¬ e.SendsAnswer

theorem countP_fillers_concat (he : ¬ e.SendsFiller) :
    (es ++ [e]).countP SendsFiller = es.countP SendsFiller := by
  simp [he]

theorem FillerInv.frame (h : FillerInv s es) (hc : s.Continues t)
    (hsent : t.sentFillerAudio = s.sentFillerAudio) (hf : ¬ e.SendsFiller)
    (ha : e.SendsAnswer → ∃ w, t.worker = some w ∧ w.sentFirstAudio = true)
    (hwhole : t.pc.stage ≠ .whole) (hopening : t.pc.stage = .opening → s.pc.stage = .opening)
    (hfilling : t.pc.stage = .filling → s.sentFillerAudio = false ∧ s.worker.isSome = true ∧
      (Answered (es ++ [e]) → Since SendsAnswer Receives (es ++ [e]))) :
    FillerInv t (es ++ [e]) := by
  constructor
  · rw [countP_fillers_concat hf, h.count, Turn.fillers, Turn.fillers, hc.isSome, hsent]
  · exact hwhole
  · intro ht
    have hnone := h.unopened (hopening ht)
    obtain ⟨-, ht⟩ | ⟨w, w', hs, -⟩ := hc
    · exact ht
    · cases hnone.symm.trans hs
  · intro v hv
    obtain ⟨-, ht⟩ | ⟨w, w', hs, ht, hann, -⟩ := hc
    · cases ht.symm.trans hv
    · cases ht.symm.trans hv
      exact hann (h.announced w hs)
  · intro hanswered
    rcases answered_concat.mp hanswered with hes | he
    · obtain ⟨w, hw, hfirst⟩ := h.answered hes
      obtain ⟨hs, -⟩ | ⟨v, v', hs, ht, -, hmono⟩ := hc
      · cases hs.symm.trans hw
      · cases hs.symm.trans hw
        exact ⟨v', ht, hmono hfirst⟩
    · exact ha he
  · intro ht
    obtain ⟨hno, hsome, hsince⟩ := hfilling ht
    exact ⟨hsent.trans hno, hc.isSome.trans hsome, hsince⟩

theorem FillerInv.pass (h : FillerInv s es) (he : e.Silent) (hc : s.Continues t)
    (hsent : t.sentFillerAudio = s.sentFillerAudio) (ht : t.pc.stage = .passing) :
    FillerInv t (es ++ [e]) := by
  apply h.frame hc hsent he.1 fun ha => absurd ha he.2
  all_goals
    rw [ht]
    exact nofun

theorem FillerInv.keep (h : FillerInv s es) (he : e.Silent) (hreceives : ¬ e.Receives)
    (hc : s.Continues t) (hsent : t.sentFillerAudio = s.sentFillerAudio)
    (ht : t.pc.stage = s.pc.stage) : FillerInv t (es ++ [e]) := by
  apply h.frame hc hsent he.1 fun ha => absurd ha he.2
  · rw [ht]
    exact h.streamed
  · exact ht.symm.trans
  · intro hfilling
    obtain ⟨hno, hsome, hsince⟩ := h.filling (ht.symm.trans hfilling)
    refine ⟨hno, hsome, fun ha => ?_⟩
    exact (hsince ((answered_concat.mp ha).resolve_right he.2)).snoc hreceives

/-- What a call that is not heard leaves: it failed, or the turn went on as `k` says. -/
theorem FillerInv.call {α : Type} {out : Except PyExc α} {k : α → Turn} (h : FillerInv s es)
    (hw : t.worker = s.worker) (hsent : t.sentFillerAudio = s.sentFillerAudio)
    (herr : ∀ x, out = .error x → e.Silent) (hk : ∀ a, out = .ok a → FillerInv (k a) (es ++ [e])) :
    FillerInv (t.after out k) (es ++ [e]) := by
  cases out with
  | ok a => exact hk a rfl
  | error x => exact h.pass (herr x rfl) (.of_eq hw) hsent rfl

section Calls

variable {α : Type} {out : Except PyExc α} {k : α → Turn}

theorem FillerInv.call_pass (h : FillerInv s es) (he : e.Silent) (hw : t.worker = s.worker)
    (hsent : t.sentFillerAudio = s.sentFillerAudio)
    (hk : ∀ a, (k a).worker = s.worker ∧ (k a).sentFillerAudio = s.sentFillerAudio ∧
      (k a).pc.stage = .passing) : FillerInv (t.after out k) (es ++ [e]) := by
  apply h.call hw hsent fun _ _ => he
  intro a _
  obtain ⟨hkw, hks, hstage⟩ := hk a
  exact h.pass he (.of_eq hkw) hks hstage

theorem FillerInv.call_keep (h : FillerInv s es) (he : e.Silent) (hreceives : ¬ e.Receives)
    (hw : t.worker = s.worker) (hsent : t.sentFillerAudio = s.sentFillerAudio)
    (hk : ∀ a, (k a).worker = s.worker ∧ (k a).sentFillerAudio = s.sentFillerAudio ∧
      (k a).pc.stage = s.pc.stage) : FillerInv (t.after out k) (es ++ [e]) := by
  apply h.call hw hsent fun _ _ => he
  intro a _
  obtain ⟨hkw, hks, hstage⟩ := hk a
  exact h.keep he hreceives (.of_eq hkw) hks hstage

end Calls

@[simp] theorem stage_tell (s : Turn) (sentences : List PyStr) (last : Bool) :
    (s.tell sentences last).pc.stage = .passing := by
  cases sentences <;> cases last <;> rfl

theorem not_heard_of_fillerDue {w : TtsWorker} {elapsedMs : Nat}
    (h : s.fillerDue cfg w elapsedMs = true) :
    w.sentFirstAudio = false ∧ s.sentFillerAudio = false := by
  simp only [Turn.fillerDue, Bool.and_eq_true, Bool.not_eq_true'] at h
  exact ⟨h.1.1.2, h.1.2⟩

theorem FillerInv.opened (h : FillerInv s es) (hpc : s.pc = .opening) (he : e.Silent)
    (htw : t.worker = some .start) (hts : t.sentFillerAudio = false) (ht : t.pc = .receiving) :
    FillerInv t (es ++ [e]) := by
  have hnone : s.worker = none := h.unopened (by rw [hpc]; rfl)
  constructor
  · rw [countP_fillers_concat he.1, h.count]
    simp [Turn.fillers, hnone, hts]
  · rw [ht]
    exact fun h => by cases h
  · intro hopening
    rw [ht] at hopening
    cases hopening
  · intro w hw
    cases htw.symm.trans hw
    exact TtsWorker.announced_of_silent rfl
  · intro ha
    obtain ⟨w, hw, -⟩ := h.answered ((answered_concat.mp ha).resolve_right he.2)
    cases hnone.symm.trans hw
  · intro hfilling
    rw [ht] at hfilling
    cases hfilling

theorem FillerInv.received (h : FillerInv s es) {w : TtsWorker} (hw : s.worker = some w)
    {elapsedMs : Nat} {d : Option PyStr} (he : e.Silent) :
    FillerInv (s.receive cfg w elapsedMs d) (es ++ [e]) := by
  cases d with
  | none => exact h.pass he (.of_eq rfl) rfl (stage_tell _ _ _)
  | some delta =>
    simp only [Turn.receive]
    split
    · rename_i hdue
      obtain ⟨hfirst, hfiller⟩ := not_heard_of_fillerDue hdue
      refine h.frame (.of_eq rfl) rfl he.1 (fun ha => absurd ha he.2) ?_ ?_ ?_
      · exact fun h => by cases h
      · exact fun h => by cases h
      refine fun _ => ⟨hfiller, by rw [hw]; rfl, ?_⟩
      -- the check: had the answer been heard, no filler would be fetched
      intro ha
      obtain ⟨v, hv, hsent⟩ := h.answered ((answered_concat.mp ha).resolve_right he.2)
      cases hw.symm.trans hv
      rw [hfirst] at hsent
      cases hsent
    · exact h.pass he (.of_eq rfl) rfl (stage_tell _ _ _)

theorem FillerInv.sounded (h : FillerInv s es) (hpc : s.pc.stage = .filling) (he : e.SendsFiller)
    (ha : ¬ e.SendsAnswer) (hw : t.worker = s.worker) (hsent : t.sentFillerAudio = true)
    (ht : t.pc.stage = .passing) : FillerInv t (es ++ [e]) := by
  obtain ⟨hno, hsome, -⟩ := h.filling hpc
  constructor
  · have hzero : es.countP SendsFiller = 0 := by
      rw [h.count]
      simp [Turn.fillers, hno]
    simp [Turn.fillers, hw, hsome, hsent, hzero, he]
  · rw [ht]
    exact nofun
  · rw [ht]
    exact nofun
  · rw [hw]
    exact h.announced
  · intro hanswered
    rw [hw]
    exact h.answered ((answered_concat.mp hanswered).resolve_right ha)
  · rw [ht]
    exact nofun

theorem FillerInv.worker (h : FillerInv s es) {w w' : TtsWorker} {e : TtsEvent} {a : AvatarState}
    (hw : s.worker = some w) (hstep : WorkerStep cfg.fast w e w') :
    FillerInv { s with worker := some w', avatar := a } (es ++ [.worker e]) := by
  refine h.frame (.inr ⟨w, w', hw, rfl, fun h => h.step hstep, TtsWorker.sentFirstAudio_mono hstep⟩)
    rfl nofun ?_ h.streamed id ?_
  · intro ha
    have hannounced := h.announced w hw (TtsWorker.speaks_of_answer hstep ha)
    exact ⟨w', rfl, TtsWorker.sentFirstAudio_mono hstep hannounced⟩
  · intro hfilling
    obtain ⟨hno, hsome, hsince⟩ := h.filling hfilling
    refine ⟨hno, hsome, fun hanswered => ?_⟩
    rcases answered_concat.mp hanswered with hes | he
    · exact (hsince hes).snoc nofun
    · exact Since.mark_last he

theorem fillerInv_step (hstreaming : cfg.streaming = true) (h : FillerInv s es)
    (hst : TurnStep cfg s e t) : FillerInv t (es ++ [e]) := by
  cases hst with
  | enter hpc hfree => exact h.keep ⟨nofun, nofun⟩ nofun (.of_eq rfl) rfl (by rw [hpc]; rfl)
  | thinking out hpc =>
    exact h.call_keep ⟨nofun, nofun⟩ nofun rfl rfl fun _ =>
      ⟨rfl, rfl, by rw [hpc, hstreaming]; rfl⟩
  | chat out hpc => exact absurd (by rw [hpc]; rfl) h.streamed
  | speaking out hpc =>
    exact h.call_pass ⟨nofun, nofun⟩ rfl rfl fun _ => ⟨rfl, rfl, by rw [hstreaming]; rfl⟩
  | synthesize out hpc => exact absurd (by rw [hpc]; rfl) h.streamed
  | visemes out hpc => exact absurd (by rw [hpc]; rfl) h.streamed
  | audio out hpc => exact absurd (by rw [hpc]; rfl) h.streamed
  | openStream out hpc =>
    refine h.call rfl rfl (fun _ _ => ⟨nofun, nofun⟩) fun _ _ => ?_
    exact h.opened hpc ⟨nofun, nofun⟩ rfl rfl rfl
  | next out elapsedMs hpc hw =>
    refine h.call rfl rfl (fun _ _ => ⟨nofun, nofun⟩) fun _ _ => ?_
    exact h.received hw ⟨nofun, nofun⟩
  | getFiller out hpc =>
    exact h.call_keep ⟨nofun, nofun⟩ nofun rfl rfl fun _ => ⟨rfl, rfl, by rw [hpc]; rfl⟩
  | fillerVisemes out hpc =>
    exact h.call_keep ⟨nofun, nofun⟩ nofun rfl rfl fun _ => ⟨rfl, rfl, by rw [hpc]; rfl⟩
  | fillerAudio out hpc =>
    refine h.call rfl rfl ?_ ?_
    · intro x hx
      rw [hx]
      exact ⟨nofun, nofun⟩
    · intro u hu
      rw [hu]
      exact h.sounded (by rw [hpc]; rfl) trivial nofun rfl rfl (stage_tell _ _ _)
  | chatPartial out hpc => exact h.call_pass ⟨nofun, nofun⟩ rfl rfl fun _ => ⟨rfl, rfl, rfl⟩
  | put hpc hw =>
    exact h.pass ⟨nofun, nofun⟩ (.inr ⟨_, _, hw, rfl, id, id⟩) rfl (stage_tell _ _ _)
  | putEnd hpc hw => exact h.pass ⟨nofun, nofun⟩ (.inr ⟨_, _, hw, rfl, id, id⟩) rfl rfl
  | joinReturned hpc hw hret =>
    refine h.pass ⟨nofun, nofun⟩ (.of_eq rfl) rfl ?_
    unfold Turn.joined
    split <;> rfl
  | joinRaised hpc hw hraised => exact h.pass ⟨nofun, nofun⟩ (.of_eq rfl) rfl rfl
  | expression out hpc => exact h.call_pass ⟨nofun, nofun⟩ rfl rfl fun _ => ⟨rfl, rfl, rfl⟩
  | reply out hpc => exact h.call_pass ⟨nofun, nofun⟩ rfl rfl fun _ => ⟨rfl, rfl, rfl⟩
  | idle out hpc => exact h.pass ⟨nofun, nofun⟩ (.of_eq rfl) rfl rfl
  | leave hpc => exact h.pass ⟨nofun, nofun⟩ (.of_eq rfl) rfl rfl
  | worker hw hstep => exact h.worker hw hstep

theorem fillerInv_run {s₀ : Turn} (hstreaming : cfg.streaming = true)
    (h₀ : (turnSystem cfg).init s₀) (hrun : (turnSystem cfg).Run s₀ es s) : FillerInv s es :=
  hrun.invariant_labels (I := FillerInv) (fun hi hst => fillerInv_step hstreaming hi hst)
    (fillerInv_init h₀)

theorem Turn.fillers_le_one (s : Turn) : s.fillers ≤ 1 := by
  unfold Turn.fillers
  split <;> omega

/-- At a filler, what was heard of the answer came after the check. -/
theorem FillerInv.unanswered_iff (h : FillerInv s es) (hst : TurnStep cfg s e t)
    (he : e.SendsFiller) :
    (∀ x ∈ es, ¬ x.SendsAnswer) ↔ ¬ Since SendsAnswer Receives es := by
  have hfilling : s.pc.stage = .filling := by
    cases hst with
    | fillerAudio out hpc => rw [hpc]; rfl
    | audio out hpc => exact absurd (by rw [hpc]; rfl) h.streamed
    | _ => cases he
  obtain ⟨-, -, hsince⟩ := h.filling hfilling
  constructor
  · rintro hnone ⟨before, x, after, rfl, hx, -⟩
    exact hnone x (by simp) hx
  · intro hnot x hx hanswer
    exact hnot (hsince ⟨x, hx, hanswer⟩)

/-- In every run of a streaming turn, at most one filler goes out and nothing of the answer before
it, exactly when no answer audio is sent while the filler is fetched. -/
theorem fillerFirst_iff (cfg : TurnConfig) (hstreaming : cfg.streaming = true) {s₀ s : Turn}
    {es : List TurnEvent} (h₀ : (turnSystem cfg).init s₀) (hrun : (turnSystem cfg).Run s₀ es s) :
    FillerFirst es ↔ AnswerWaits es := by
  have hfirst : ∀ before e after, es = before ++ e :: after → e.SendsFiller →
      ((∀ x ∈ before, ¬ x.SendsAnswer) ↔ ¬ Since SendsAnswer Receives before) := by
    intro before e after hes he
    obtain ⟨u, hbefore, hrest⟩ := System.Run.of_append (hes ▸ hrun)
    cases hrest with
    | cons hst _ => exact (fillerInv_run hstreaming h₀ hbefore).unanswered_iff hst he
  constructor
  · intro h before e after hes he
    exact (hfirst before e after hes he).mp (h.first before e after hes he)
  · intro h
    constructor
    · rw [(fillerInv_run hstreaming h₀ hrun).count]
      exact s.fillers_le_one
    · intro before e after hes he
      exact (hfirst before e after hes he).mpr (h before e after hes he)

end Turn

def fillerTurn : TurnConfig := { fast := false, streaming := true, filler := true }

/-- `好，` -/
def good : PyStr := [0x597d, 0xff0c]

/-- The stream's first delta comes late. -/
def lateEvents : List TurnEvent :=
  [.enter, .send (.state .thinking) (.ok ()), .openStream (.ok ()), .next (.ok (some good)) 1250,
    .getFiller .zhCN (.ok ()), .visemes (.ok ()), .send .audio (.ok ())]

theorem fillerFirst_iff_late :
    ∃ s, (turnSystem fillerTurn).Run Turn.first lateEvents s ∧
      (FillerFirst lateEvents ↔ AnswerWaits lateEvents) := by
  have hrun : (turnSystem fillerTurn).Run Turn.first lateEvents
      { Turn.first with
        pc := .telling [good] false
        locked := true
        turnInProgress := true
        avatar := .thinking
        response := good
        chunker := { buf := [], softLimitChars := 24, firstChunkEmitted := true }
        sentFillerAudio := true
        worker := some .start } := by
    refine .cons (.enter rfl rfl) (.cons (.thinking (.ok ()) rfl) ?_)
    refine .cons (.openStream (.ok ()) rfl) (.cons (.next (.ok (some good)) 1250 rfl rfl) ?_)
    refine .cons (.getFiller (.ok ()) rfl) (.cons (.fillerVisemes (.ok ()) rfl) ?_)
    exact .cons (.fillerAudio (.ok ()) rfl) (.nil _)
  exact ⟨_, hrun, fillerFirst_iff fillerTurn rfl ⟨rfl, rfl⟩ hrun⟩

/-- The first clause is synthesized while the filler for the second delta is fetched. -/
def overlappedEvents : List TurnEvent :=
  [.enter, .send (.state .thinking) (.ok ()), .openStream (.ok ()), .next (.ok (some good)) 300,
    .send (.chatPartial good) (.ok ()), .put (some good), .worker (.get (some good)),
    .worker .mergeEmpty, .next (.ok (some good)) 1300, .worker (.synthesize [good] (.ok ())),
    .worker (.visemes (.ok ())), .worker (.speaking (.ok ())), .worker (.audio (.ok ())),
    .getFiller .zhCN (.ok ()), .visemes (.ok ())]

theorem not_fillerFirst :
    ¬ ∀ (cfg : TurnConfig) (s₀ s : Turn) (es : List TurnEvent), cfg.streaming = true →
      (turnSystem cfg).init s₀ → (turnSystem cfg).Run s₀ es s → FillerFirst es := by
  intro hall
  have hrun : (turnSystem fillerTurn).Run Turn.first
      (overlappedEvents ++ [.send .audio (.ok ())])
      { Turn.first with
        pc := .receiving
        locked := true
        turnInProgress := true
        avatar := .speaking
        response := good ++ good
        chunker := { buf := good, softLimitChars := 24, firstChunkEmitted := true }
        sentFillerAudio := true
        worker := some
          { queue := [], pc := .waiting, firstChunkDone := true, sentFirstAudio := true } } := by
    refine .cons (.enter rfl rfl) (.cons (.thinking (.ok ()) rfl) ?_)
    refine .cons (.openStream (.ok ()) rfl) (.cons (.next (.ok (some good)) 300 rfl rfl) ?_)
    refine .cons (.chatPartial (.ok ()) rfl) (.cons (.put rfl rfl) ?_)
    refine .cons (.worker rfl (.getChunk rfl rfl)) (.cons (.worker rfl (.mergeEmpty rfl ?_ rfl)) ?_)
    · decide
    refine .cons (.next (.ok (some good)) 1300 rfl rfl) ?_
    refine .cons (.worker rfl (.synthesized () rfl)) (.cons (.worker rfl (.shaped () rfl)) ?_)
    refine .cons (.worker rfl (.announced () rfl)) (.cons (.worker rfl (.sent () rfl)) ?_)
    refine .cons (.getFiller (.ok ()) rfl) (.cons (.fillerVisemes (.ok ()) rfl) ?_)
    exact .cons (.fillerAudio (.ok ()) rfl) (.nil _)
  have h := hall fillerTurn _ _ _ rfl ⟨rfl, rfl⟩ hrun
  apply h.first overlappedEvents (.send .audio (.ok ())) [] rfl trivial (.worker (.audio (.ok ())))
  · simp [overlappedEvents]
  · trivial

end VirtualPerson
