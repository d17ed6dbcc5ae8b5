import VirtualPerson.Chat.Keeping
import VirtualPerson.Chat.OutputSafety
import VirtualPerson.Ws.Handler

/-!
# One token per turn

The limiter's verdict as a gate in front of a turn. It opens at most once; before that the
code of a request or a frame makes only free calls, and after a refusal too.
-/

namespace VirtualPerson

set_option autoImplicit false

variable {V : Type}

inductive Cost where
  /-- The limiter itself. -/
  | gate
  /-- Reads of the clock and of the handler, sends and the VAD. -/
  | free
  /-- STT, LLM and TTS. -/
  | paid
  /-- Memory and session, and the tools, which work on the memory. -/
  | stored
  /-- The rest of a turn. -/
  | turn
  deriving DecidableEq

def AppOp.cost : AppOp V → Cost
  | .allow _ => .gate
  | .monotonicMs => .free
  | .lastAudioSendMs => .free
  | .lastResponseText => .free
  | .send _ => .free
  | .sendState _ => .free
  | .detect _ => .free
  | .transcribe _ _ => .paid
  | .log _ _ => .turn
  | .persona => .turn
  | .listTools => .turn
  | .executeTool _ _ => .stored
  | .writeMemory _ _ _ _ => .stored
  | .searchName => .stored
  | .retrieve _ => .stored
  | .rate => .turn
  | .getSession _ _ => .stored
  | .addSession _ _ _ => .stored
  | .chat _ _ _ _ => .paid
  | .chatStream _ _ _ => .paid
  | .yield _ => .turn
  | .enqueue _ => .turn

def TurnEvent.cost : TurnEvent → Cost
  | .synthesize _ _ => .paid
  | .getFiller _ _ => .paid
  | .worker (.synthesize _ _) => .paid
  | _ => .turn

/-- What `allow` returned; a call that raises does not let the turn in. -/
def AppOp.verdict : (o : AppOp V) → Except PyExc o.Result → Option Bool
  | .allow _, .ok r => some r.1
  | .allow _, .error _ => some false
  | _, _ => none

namespace ServingEvent

def cost : ServingEvent V → Cost
  | .call ev => ev.op.cost
  | .start => .turn
  | .turn e => e.cost

def verdict : ServingEvent V → Option Bool
  | .call ev => ev.op.verdict ev.ans
  | _ => none

/-- A step of a turn's processing, its STT, LLM, TTS, memory and session calls included. -/
def Works (e : ServingEvent V) : Prop := e.cost ≠ .gate ∧ e.cost ≠ .free

end ServingEvent

/-- What a request or frame did took one token before any work, or did no work. -/
structure OneToken (es : List (ServingEvent V)) : Prop where
  granted : ∀ before e after, es = before ++ e :: after → e.Works →
    ∃ a ∈ before, a.verdict = some true
  once : (∃ e ∈ es, e.Works) → es.countP (fun e => e.verdict.isSome) = 1
  refused : (∃ e ∈ es, e.verdict = some false) → ∀ e ∈ es, ¬ e.Works

inductive Gate where
  | closed
  | opened
  | refused

namespace Gate

/-- Where the gate stands after an event; `none` where the event is out of order. -/
def read (g : Gate) (e : ServingEvent V) : Option Gate :=
  match g, e.verdict with
  | .closed, some true => some .opened
  | .closed, some false => some .refused
  | _, some _ => none
  | .opened, none => some .opened
  | g, none => if e.cost = .free then some g else none

def hear (g : Gate) (ev : (AppSig V).Event) : Option Gate := g.read (.call ev)

end Gate

section Reads

variable {g g' : Gate} {e : ServingEvent V} {es : List (ServingEvent V)}

theorem read_opened : Gate.opened.read e = some g' ↔ e.verdict = none ∧ g' = .opened := by
  unfold Gate.read
  cases e.verdict with
  | none => simp [eq_comm]
  | some b => simp

theorem read_refused :
    Gate.refused.read e = some g' ↔ (e.verdict = none ∧ e.cost = .free) ∧ g' = .refused := by
  unfold Gate.read
  cases e.verdict with
  | none => by_cases h : e.cost = .free <;> simp [h, eq_comm]
  | some b => simp

theorem read_closed :
    Gate.closed.read e = some g' ↔
      ((e.verdict = none ∧ e.cost = .free) ∧ g' = .closed) ∨
        (e.verdict = some true ∧ g' = .opened) ∨ (e.verdict = some false ∧ g' = .refused) := by
  unfold Gate.read
  cases e.verdict with
  | none => by_cases h : e.cost = .free <;> simp [h, eq_comm]
  | some b => cases b <;> simp [eq_comm]

theorem foldlM_opened (h : es.foldlM Gate.read .opened = some g) :
    ∀ e ∈ es, e.verdict = none := by
  induction es with
  | nil => exact fun e he => absurd he List.not_mem_nil
  | cons e es ih =>
    obtain ⟨g', hread, hrest⟩ := Option.bind_eq_some_iff.mp h
    obtain ⟨he, rfl⟩ := read_opened.mp hread
    exact List.forall_mem_cons.mpr ⟨he, ih hrest⟩

theorem foldlM_refused (h : es.foldlM Gate.read .refused = some g) :
    ∀ e ∈ es, e.verdict = none ∧ e.cost = .free := by
  induction es with
  | nil => exact fun e he => absurd he List.not_mem_nil
  | cons e es ih =>
    obtain ⟨g', hread, hrest⟩ := Option.bind_eq_some_iff.mp h
    obtain ⟨he, rfl⟩ := read_refused.mp hread
    exact List.forall_mem_cons.mpr ⟨he, ih hrest⟩

/-- Free calls, and after them perhaps the limiter with what its verdict allows. -/
theorem foldlM_closed (h : es.foldlM Gate.read .closed = some g) :
    (∀ e ∈ es, e.verdict = none ∧ e.cost = .free) ∨
      ∃ before a after, es = before ++ a :: after ∧
        (∀ e ∈ before, e.verdict = none ∧ e.cost = .free) ∧
        ((a.verdict = some true ∧ ∀ e ∈ after, e.verdict = none) ∨
          (a.verdict = some false ∧ ∀ e ∈ after, e.verdict = none ∧ e.cost = .free)) := by
  induction es with
  | nil => exact .inl fun e he => absurd he List.not_mem_nil
  | cons e es ih =>
    obtain ⟨g', hread, hrest⟩ := Option.bind_eq_some_iff.mp h
    rcases read_closed.mp hread with ⟨he, rfl⟩ | ⟨he, rfl⟩ | ⟨he, rfl⟩
    · rcases ih hrest with hall | ⟨before, a, after, rfl, hbefore, hafter⟩
      · exact .inl (List.forall_mem_cons.mpr ⟨he, hall⟩)
      · exact .inr ⟨e :: before, a, after, rfl, List.forall_mem_cons.mpr ⟨he, hbefore⟩, hafter⟩
    · exact .inr ⟨[], e, es, rfl, fun e he => absurd he List.not_mem_nil, .inl ⟨he, foldlM_opened hrest⟩⟩
    · exact .inr ⟨[], e, es, rfl, fun e he => absurd he List.not_mem_nil,
        .inr ⟨he, foldlM_refused hrest⟩⟩

theorem cost_of_verdict {b : Bool} (h : e.verdict = some b) : e.cost = .gate := by
  cases e with
  | call ev =>
    obtain ⟨o, a⟩ := ev
    cases o with
    | allow id => rfl
    | _ => cases h
  | start => cases h
  | turn e => cases h

theorem not_works_of_free (h : e.cost = .free) : ¬ e.Works := fun hworks => hworks.2 h

theorem not_works_of_verdict {b : Bool} (h : e.verdict = some b) : ¬ e.Works :=
  fun hworks => hworks.1 (cost_of_verdict h)

theorem oneToken_of_idle (hidle : ∀ e ∈ es, ¬ e.Works) : OneToken es := by
  constructor
  · intro before e after hes hworks
    exact absurd hworks (hidle e (by rw [hes]; simp))
  · intro hworks
    obtain ⟨e, he, hworks⟩ := hworks
    exact absurd hworks (hidle e he)
  · exact fun _ => hidle

section Granted

variable {a : ServingEvent V} {before after : List (ServingEvent V)}

theorem countP_verdict (ha : a.verdict = some true) (hbefore : ∀ e ∈ before, e.verdict = none)
    (hafter : ∀ e ∈ after, e.verdict = none) :
    (before ++ a :: after).countP (fun e => e.verdict.isSome) = 1 := by
  have hnone : ∀ e ∈ before ++ after, ¬ e.verdict.isSome = true := by
    intro e he
    rcases List.mem_append.mp he with he | he
    · simp [hbefore e he]
    · simp [hafter e he]
  have hsome : a.verdict.isSome = true := by rw [ha]; rfl
  have hrest := List.countP_eq_zero.mpr hnone
  rw [List.countP_append] at hrest ⊢
  rw [List.countP_cons, if_pos hsome]
  omega

/-- Work comes only behind the verdict. -/
theorem mem_of_works {before' after' : List (ServingEvent V)} (ha : a.verdict = some true)
    (hbefore : ∀ e ∈ before, e.cost = .free) (hes : before ++ a :: after = before' ++ e :: after')
    (hworks : e.Works) : a ∈ before' := by
  rcases List.append_eq_append_iff.mp hes with ⟨mid, rfl, hmid⟩ | ⟨mid, rfl, hmid⟩
  · cases mid with
    | nil =>
      cases hmid
      exact absurd hworks (not_works_of_verdict ha)
    | cons b mid =>
      obtain ⟨rfl, -⟩ := List.cons.inj hmid
      simp
  · cases mid with
    | nil =>
      cases hmid
      exact absurd hworks (not_works_of_verdict ha)
    | cons b mid =>
      obtain ⟨rfl, -⟩ := List.cons.inj hmid
      exact absurd hworks (not_works_of_free (hbefore e (by simp)))

theorem oneToken_of_granted (ha : a.verdict = some true)
    (hbefore : ∀ e ∈ before, e.verdict = none ∧ e.cost = .free)
    (hafter : ∀ e ∈ after, e.verdict = none) : OneToken (before ++ a :: after) := by
  constructor
  · intro before' e after' hes hworks
    exact ⟨a, mem_of_works ha (fun e he => (hbefore e he).2) hes hworks, ha⟩
  · exact fun _ => countP_verdict ha (fun e he => (hbefore e he).1) hafter
  · intro hrefused
    obtain ⟨e, he, hverdict⟩ := hrefused
    rcases List.mem_append.mp he with he | he
    · rw [(hbefore e he).1] at hverdict
      cases hverdict
    · rcases List.mem_cons.mp he with rfl | he
      · cases ha.symm.trans hverdict
      · rw [hafter e he] at hverdict
        cases hverdict

end Granted

theorem oneToken_of_gate (h : es.foldlM Gate.read .closed = some g) : OneToken es := by
  rcases foldlM_closed h with hall | ⟨before, a, after, rfl, hbefore, hverdict⟩
  · exact oneToken_of_idle fun e he => not_works_of_free (hall e he).2
  · rcases hverdict with ⟨ha, hafter⟩ | ⟨ha, hafter⟩
    · exact oneToken_of_granted ha hbefore hafter
    · apply oneToken_of_idle
      intro e he
      rcases List.mem_append.mp he with he | he
      · exact not_works_of_free (hbefore e he).2
      · rcases List.mem_cons.mp he with rfl | he
        · exact not_works_of_verdict ha
        · exact not_works_of_free (hafter e he).2

end Reads

/-- The gate stands at `g` all through the program. -/
def Stays {α : Type} (g : Gate) (p : AppM V α) : Prop :=
  p.Follows Gate.hear (fun _ g' => g' = g) (fun _ g' => g' = g) g

section Stays

variable {α β : Type} {g : Gate} {p : AppM V α}

theorem stays_pure (a : α) : Stays g (pure a : AppM V α) := rfl

theorem stays_lift (r : Except PyExc α) : Stays g (Prog.lift r : AppM V α) := Prog.keeps_lift r

theorem Stays.bind {q : AppM V β} {f : β → AppM V α} (h : Stays g q) (hf : ∀ b, Stays g (f b)) :
    Stays g (q >>= f) := Prog.Keeps.bind h hf

theorem Stays.handling {caught : PyExc → Bool} {f : PyExc → AppM V α} (h : Stays g p)
    (hf : ∀ e, Stays g (f e)) : Stays g (Calls.handling caught p f) := Calls.keeps_handling h hf

/-- Behind the gate every call but the limiter's is in order. -/
theorem stays_perform (o : AppOp V) (ho : o.cost ≠ .gate) : Stays .opened (perform o) := by
  intro a
  have hverdict : (ServingEvent.call (V := V) ⟨o, a⟩).verdict = none := by
    cases o with
    | allow id => exact absurd rfl ho
    | _ => rfl
  exact ⟨.opened, read_opened.mpr ⟨hverdict, rfl⟩, stays_lift a⟩

/-- A free call is in order everywhere. -/
theorem stays_free (o : AppOp V) (ho : o.cost = .free) : Stays g (perform o) := by
  intro a
  have hverdict : (ServingEvent.call (V := V) ⟨o, a⟩).verdict = none := by
    cases o with
    | allow id => cases ho
    | _ => rfl
  refine ⟨g, ?_, stays_lift a⟩
  cases g with
  | opened => exact read_opened.mpr ⟨hverdict, rfl⟩
  | refused => exact read_refused.mpr ⟨⟨hverdict, ho⟩, rfl⟩
  | closed => exact read_closed.mpr (.inl ⟨⟨hverdict, ho⟩, rfl⟩)

end Stays

section Pipelines

variable (cfg : ChatConfig) (rt : ChatRuntime) (userId message : PyStr) (body : ChatTurnIn)

/-- The stream's fallback goes past the endpoint, so no pipeline calls the limiter. -/
theorem observes_opened : Calls.Observes (V := V) Gate.hear .opened := by
  constructor
  · intro o ho a
    apply read_opened.mpr
    refine ⟨?_, rfl⟩
    cases o with
    | allow id => exact ho.elim
    | _ => rfl
  · intro userId message response
    apply Stays.bind
    · exact stays_perform _ nofun
    · intro _
      exact stays_perform _ nofun

theorem stays_runChatTurn : Stays .opened (Calls.runChatTurn cfg rt body : AppM V ChatResult) :=
  Calls.keeps_runChatTurn observes_opened cfg rt body

theorem stays_chatViaPipeline :
    Stays .opened (Calls.chatViaPipeline cfg rt userId message : AppM V ChatResult) :=
  stays_runChatTurn cfg rt _

theorem stays_streamChat : Stays .opened (Calls.streamChat cfg rt userId message : AppM V Unit) :=
  Calls.keeps_streamChat observes_opened cfg rt userId message

end Pipelines

/-- The end of a program that starts in front of the gate: a turn is due only where it is open. -/
def Admits (p : AppM V Next) (g : Gate) : Prop :=
  p.Follows Gate.hear (fun next g' => ∀ text userId, next = .turn text userId → g' = .opened)
    (fun _ _ => True) g

section Gates

variable {h : AvatarWebSocketHandler} {cfg : ServerConfig} (rt : ChatRuntime)

theorem admits_done (g : Gate) : Admits (V := V) (.ret .done) g := nofun

theorem Stays.admits {p : AppM V Next} (hp : Stays .opened p) : Admits p .opened :=
  hp.imp (fun _ _ hg _ _ _ => hg) fun _ _ _ => trivial

theorem Stays.then {α β : Type} {ok : β → Gate → Prop} {g : Gate} {q : AppM V α} {f : α → AppM V β}
    (hq : Stays g q) (hf : ∀ a, (f a).Follows Gate.hear ok (fun _ _ => True) g) :
    (q >>= f).Follows Gate.hear ok (fun _ _ => True) g := by
  apply Prog.Follows.bind (hq.imp (fun _ _ hg => hg) fun _ _ _ => trivial)
  intro a g' hg'
  rw [hg']
  exact hf a

/-- The limiter's call decides where the gate stands. -/
theorem follows_allow {α : Type} {ok : α → Gate → Prop} {callerId : PyStr}
    {f : Bool × ℚ → AppM V α} (hgranted : ∀ retryAfter, (f (true, retryAfter)).Follows Gate.hear ok
      (fun _ _ => True) .opened)
    (hrefused : ∀ retryAfter, (f (false, retryAfter)).Follows Gate.hear ok (fun _ _ => True) .refused) :
    Prog.Follows Gate.hear ok (fun _ _ => True) (perform (.allow callerId) >>= f) .closed := by
  intro a
  cases a with
  | error e => exact ⟨.refused, rfl, trivial⟩
  | ok r =>
    obtain ⟨allowed, retryAfter⟩ := r
    cases allowed with
    | true => exact ⟨.opened, rfl, hgranted retryAfter⟩
    | false => exact ⟨.refused, rfl, hrefused retryAfter⟩

theorem stays_processTurn (body : ChatTurnIn) :
    Stays .opened (processTurn cfg rt body : AppM V ChatTurnReply) := by
  apply Stays.bind
  · exact stays_runChatTurn cfg.toChatConfig rt body
  intro result
  split
  · apply Stays.bind
    · apply Stays.handling
      · exact stays_perform _ nofun
      · intro e
        exact stays_pure _
    · intro _
      exact stays_pure _
  · exact stays_pure _

theorem admits_chatTurn (henabled : cfg.rateLimitEnabled = true) (client : Option PyStr)
    (body : ChatTurnIn) : Admits (serve (V := V) h cfg rt (.http client body)) .closed := by
  have hturn : (chatTurn cfg rt client body : AppM V ChatTurnReply).Follows Gate.hear
      (fun _ _ => True) (fun _ _ => True) .closed := by
    rw [chatTurn, if_pos henabled]
    apply follows_allow
    · intro _
      exact (stays_processTurn rt body).imp (fun _ _ _ => trivial) fun _ _ _ => trivial
    · intro _
      exact trivial
  apply Prog.Follows.bind hturn
  intro _ g _
  exact admits_done g

theorem follows_rateLimitOk (hwired : h.rateLimiter = true) (henabled : cfg.rateLimitEnabled = true)
    (peer : Option PyStr) (userId : PyStr) :
    (rateLimitOk h cfg peer userId : AppM V Bool).Follows Gate.hear
      (fun ok g => ok = true → g = .opened) (fun _ _ => True) .closed := by
  rw [rateLimitOk, hwired, henabled]
  apply follows_allow
  · intro _
    exact fun _ => rfl
  · intro _
    apply Stays.then
    · exact stays_free _ rfl
    intro _
    apply Stays.then
    · exact stays_free _ rfl
    · intro _
      exact nofun

/-- A frame that is given up starts no turn, wherever the gate stands. -/
theorem follows_giveUp (g : Gate) :
    (giveUp : AppM V Next).Follows Gate.hear (fun next g' => next = .done ∧ g' = g)
      (fun _ g' => g' = g) g := by
  apply Prog.Follows.bind
  · exact stays_free _ rfl
  intro _ g₁ hg₁
  rw [hg₁]
  apply Prog.Follows.bind
  · exact stays_free _ rfl
  · intro _ g₂ hg₂
    exact ⟨rfl, hg₂⟩

theorem stays_giveUp (g : Gate) : Stays g (giveUp : AppM V Next) :=
  (follows_giveUp g).imp (fun _ _ hg => hg.2) fun _ _ hg => hg

theorem admits_giveUp (g : Gate) : Admits (giveUp : AppM V Next) g := by
  apply (follows_giveUp g).imp
  · intro next g' hdone text userId hturn
    cases hdone.1.symm.trans hturn
  · intro _ _ _
    exact trivial

theorem stays_transcribed (userId text : PyStr) :
    Stays .opened (transcribed rt userId text : AppM V Next) := by
  apply Stays.bind
  · exact stays_free _ rfl
  intro _
  split
  · apply Stays.bind
    · exact stays_free _ rfl
    intro last
    split
    · exact stays_giveUp _
    · apply Stays.bind
      · exact stays_free _ rfl
      · intro _
        exact stays_pure _
  · exact stays_giveUp _

theorem admits_spoken (hwired : h.rateLimiter = true) (henabled : cfg.rateLimitEnabled = true)
    (peer : Option PyStr) (chunk : List UInt8) (userId : PyStr) (sttLanguage : Option PyStr) :
    Admits (spoken h cfg rt peer chunk userId sttLanguage : AppM V Next) .closed := by
  apply Prog.Follows.bind (follows_rateLimitOk hwired henabled peer userId)
  intro ok g hok
  cases ok with
  | false => exact admits_done g
  | true =>
    cases hok rfl
    apply Stays.then
    · exact stays_perform _ nofun
    · intro text
      exact (stays_transcribed rt userId text).admits

theorem admits_listened (hwired : h.rateLimiter = true) (henabled : cfg.rateLimitEnabled = true)
    (peer chunk : Option PyStr) (userId : PyStr) (sttLanguage : Option PyStr) :
    Admits (listened h cfg rt peer chunk userId sttLanguage : AppM V Next) .closed := by
  apply Stays.then
  · exact stays_free _ rfl
  intro _
  apply Stays.then
  · exact stays_free _ rfl
  intro _
  apply Stays.then
  · exact stays_lift _
  intro bytes
  apply Stays.then
  · exact stays_free _ rfl
  intro segments
  split
  · apply Stays.then
    · exact stays_free _ rfl
    · intro _
      exact admits_giveUp _
  · exact admits_spoken rt hwired henabled peer bytes userId sttLanguage

theorem admits_handle (hwired : h.rateLimiter = true) (henabled : cfg.rateLimitEnabled = true)
    (peer : Option PyStr) (frame : WsFrame) :
    Admits (handle h cfg rt peer frame : AppM V Next) .closed := by
  cases frame with
  | chat text userId =>
    apply Prog.Follows.bind (follows_rateLimitOk hwired henabled peer _)
    intro ok g hok
    cases ok with
    | false => exact admits_done g
    | true =>
      intro _ _ _
      exact hok rfl
  | audio chunk userId sttLanguage =>
    apply Stays.then
    · exact stays_free _ rfl
    intro now
    apply Stays.then
    · exact stays_free _ rfl
    intro last
    split
    · exact admits_giveUp _
    · exact admits_listened rt hwired henabled peer chunk _ sttLanguage
  | micStart =>
    apply Stays.then
    · exact stays_free _ rfl
    · intro _
      exact admits_done _
  | micStop =>
    apply Stays.then
    · exact stays_free _ rfl
    · intro _
      exact admits_done _
  | other => exact admits_done _

theorem admits_serve (hwired : h.rateLimiter = true) (henabled : cfg.rateLimitEnabled = true)
    (i : Incoming) : Admits (serve h cfg rt i : AppM V Next) .closed := by
  cases i with
  | http client body => exact admits_chatTurn rt henabled client body
  | ws peer frame => exact admits_handle rt hwired henabled peer frame

end Gates

def Callee.Stays : Callee V → Prop
  | .func p => VirtualPerson.Stays .opened p
  | .iterator p => VirtualPerson.Stays .opened p

/-- The gate is where the request or frame needs it. -/
def Serving.Admitted : Serving V → Gate → Prop
  | .running p, g => Admits p g
  | .turn _ c, g => g = .opened ∧ c.Stays

section Runs

variable {h : AvatarWebSocketHandler} {cfg : ServerConfig} {rt : ChatRuntime}
variable {s s' : Serving V} {e : ServingEvent V} {g : Gate}

theorem stays_callee (userId text : PyStr) : (callee (V := V) h cfg rt userId text).Stays := by
  unfold callee
  split
  · exact stays_streamChat cfg.toChatConfig rt userId text
  · apply VirtualPerson.Stays.bind
    · exact stays_chatViaPipeline cfg.toChatConfig rt userId text
    · intro result
      exact stays_pure _

/-- Behind the gate a call leaves it open. -/
theorem stays_step {α : Type} {o : AppOp V} {k : Except PyExc o.Result → AppM V α}
    (hp : Stays .opened (.op o k : AppM V α)) (a : Except PyExc o.Result) :
    Gate.opened.read (ServingEvent.call (V := V) ⟨o, a⟩) = some .opened ∧ Stays .opened (k a) := by
  obtain ⟨g, hg, hk⟩ := Prog.Follows.step hp a
  obtain ⟨-, rfl⟩ := read_opened.mp hg
  exact ⟨hg, hk⟩

theorem stays_calleeStep {c c' : Callee V} {ev : (AppSig V).Event} (hc : c.Stays)
    (hst : CalleeStep c ev c') : Gate.opened.read (.call ev) = some .opened ∧ c'.Stays := by
  cases hst with
  | func a => exact stays_step hc a
  | iterator a hyield => exact stays_step hc a

theorem stays_calleeGives {c c' : Callee V} {e : TurnEvent} (hc : c.Stays) (hgives : CalleeGives c e c') :
    c'.Stays := by
  cases hgives with
  | returned response => exact hc
  | raised e => exact hc
  | yielded elapsedMs => exact (stays_step hc (.ok ())).2
  | ended u elapsedMs => exact hc
  | failed e elapsedMs => exact stays_pure ()

theorem step_admitted (hs : s.Admitted g) (hst : ServingStep h cfg rt s e s') :
    ∃ g', g.read e = some g' ∧ s'.Admitted g' := by
  cases hst with
  | call a => exact Prog.Follows.step hs a
  | start ht =>
    cases hs _ _ rfl
    exact ⟨.opened, rfl, rfl, stays_callee _ _⟩
  | callee hpc hstep =>
    obtain ⟨rfl, hc⟩ := hs
    obtain ⟨hread, hc'⟩ := stays_calleeStep hc hstep
    exact ⟨.opened, hread, rfl, hc'⟩
  | gives hgives hstep =>
    obtain ⟨rfl, hc⟩ := hs
    exact ⟨.opened, rfl, rfl, stays_calleeGives hc hgives⟩
  | turn hown hstep =>
    obtain ⟨rfl, hc⟩ := hs
    exact ⟨.opened, rfl, rfl, hc⟩

theorem gate_run {s₀ : Serving V} {es : List (ServingEvent V)} (hwired : h.rateLimiter = true)
    (henabled : cfg.rateLimitEnabled = true) (h₀ : (servingSystem h cfg rt V).init s₀)
    (hrun : (servingSystem h cfg rt V).Run s₀ es s) :
    ∃ g, es.foldlM Gate.read .closed = some g ∧ s.Admitted g := by
  obtain ⟨i, rfl⟩ := h₀
  have hstart : ∃ g, ([] : List (ServingEvent V)).foldlM Gate.read .closed = some g ∧
      (Serving.running (V := V) (serve h cfg rt i)).Admitted g :=
    ⟨.closed, rfl, admits_serve rt hwired henabled i⟩
  have hinv := hrun.invariant_labels
    (I := fun s es => ∃ g, es.foldlM Gate.read .closed = some g ∧ s.Admitted g) ?_ hstart
  · rw [List.nil_append] at hinv
    exact hinv
  · intro s e s' es hs hst
    obtain ⟨g, hes, hs⟩ := hs
    obtain ⟨g', hread, hs'⟩ := step_admitted hs hst
    refine ⟨g', ?_, hs'⟩
    rw [List.foldlM_append, hes]
    change (some g >>= fun g => g.read e >>= pure) = some g'
    rw [Option.bind_eq_bind, Option.bind_some, hread]
    rfl

end Runs

/-- With rate limiting on, in every interleaving of requests and frames each of them takes one
token before its work, or does no work. -/
theorem one_token_per_turn (h : AvatarWebSocketHandler) (cfg : ServerConfig) (rt : ChatRuntime)
    (hwired : h.rateLimiter = true) (henabled : cfg.rateLimitEnabled = true)
    {ls : List (Nat × Option (ServingEvent V))} {ss : List (Serving V)}
    (hrun : (servingSystem h cfg rt V).pool.Run [] ls ss) (i : Nat) :
    OneToken (System.ofCopy i ls) := by
  rcases System.run_of_pool hrun i with hnone | ⟨s₀, s, h₀, hcopy⟩
  · rw [hnone]
    exact oneToken_of_gate (g := .closed) rfl
  · obtain ⟨g, hes, -⟩ := gate_run hwired henabled h₀ hcopy
    exact oneToken_of_gate hes

def limitedConfig : ServerConfig :=
  { llmProvider := str "openai_compat", ollamaModel := [], openaiCompatModel := []
    llmStripThinking := false, wsStreamEnabled := true, rateLimitEnabled := true
    queueEnabled := false, fast := false }

/-- A chat frame that the limiter lets in. -/
def helloEvents : List (Nat × Option (ServingEvent Unit)) :=
  [(0, none), (0, some (.call ⟨.allow (PyStr.orElse [] (str "ann")), .ok (true, 0)⟩)), (0, some .start)]

theorem one_token_per_turn_hello :
    ∃ ss, (servingSystem wsHandler limitedConfig Chat.asciiRuntime Unit).pool.Run [] helloEvents ss ∧
      OneToken (System.ofCopy 0 helloEvents) := by
  have hrun : (servingSystem wsHandler limitedConfig Chat.asciiRuntime Unit).pool.Run [] helloEvents
      [.turn Turn.first (callee wsHandler limitedConfig Chat.asciiRuntime (str "ann") (str "hello"))] := by
    refine .cons ⟨rfl, _, ⟨.ws none (.chat (some (str "hello")) (some (str "ann"))), rfl⟩, rfl⟩ ?_
    exact .cons ⟨_, _, rfl, .call _, rfl⟩ (.single ⟨_, _, rfl, .start ⟨rfl, rfl⟩, rfl⟩)
  exact ⟨_, hrun, one_token_per_turn wsHandler limitedConfig Chat.asciiRuntime rfl rfl hrun 0⟩

end VirtualPerson
