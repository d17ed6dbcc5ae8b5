import Mathlib.Logic.Function.Basic
import VirtualPerson.Chat.Keeping
import VirtualPerson.Ws.Handler

/-!
# Requests and frames under observation

An automaton that reads the calls of a request or frame and is where it began once they are
over. Side by side every request and frame has its own, and a call moves the one it is of.
-/

namespace VirtualPerson

set_option autoImplicit false

variable {V : Type}

def nextOp {α : Type} : AppM V α → Option (AppOp V)
  | .op o _ => some o
  | _ => none

namespace Serving

def nextCall : Serving V → Option (AppOp V)
  | .running p => nextOp p
  | .turn _ (.func p) => nextOp p
  | .turn _ (.iterator p) => nextOp p

end Serving

/-- What the endpoint calls besides the pipeline. -/
def Gating : AppOp V → Prop
  | .allow _ => True
  | .enqueue _ => True
  | _ => False

/-- What the handler says to the client, and its limiter. -/
def Telling : AppOp V → Prop
  | .allow _ => True
  | .send _ => True
  | .sendState _ => True
  | _ => False

/-- What the code of a frame calls before the turn it may start. -/
def Framing : AppOp V → Prop
  | .allow _ => True
  | .send _ => True
  | .sendState _ => True
  | .monotonicMs => True
  | .lastAudioSendMs => True
  | .lastResponseText => True
  | .detect _ => True
  | .transcribe _ _ => True
  | _ => False

section Only

variable (h : AvatarWebSocketHandler) (cfg : ServerConfig) (rt : ChatRuntime)

theorem only_rateLimitOk (peer : Option PyStr) (userId : PyStr) :
    (rateLimitOk h cfg peer userId : AppM V Bool).Only Telling := by
  unfold rateLimitOk
  split
  · trivial
  · apply Prog.Only.bind
    · exact Calls.only_perform trivial
    intro verdict
    obtain ⟨allowed, retryAfter⟩ := verdict
    cases allowed with
    | true => trivial
    | false =>
      apply Prog.Only.bind
      · exact Calls.only_perform trivial
      intro _
      apply Prog.Only.bind
      · exact Calls.only_perform trivial
      · intro _
        trivial

theorem only_giveUp : (giveUp : AppM V Next).Only Telling := by
  apply Prog.Only.bind
  · exact Calls.only_perform trivial
  intro _
  apply Prog.Only.bind
  · exact Calls.only_perform trivial
  · intro _
    trivial

theorem Framing.of_telling {o : AppOp V} (h : Telling o) : Framing o := by
  cases o <;> trivial

theorem framing_giveUp : (giveUp : AppM V Next).Only Framing := only_giveUp.mono fun _ => .of_telling

theorem only_transcribed (userId text : PyStr) :
    (transcribed rt userId text : AppM V Next).Only Framing := by
  apply Prog.Only.bind
  · exact Calls.only_perform trivial
  intro _
  split
  · apply Prog.Only.bind
    · exact Calls.only_perform trivial
    intro last
    split
    · exact framing_giveUp
    · apply Prog.Only.bind
      · exact Calls.only_perform trivial
      · intro _
        trivial
  · exact framing_giveUp

theorem only_listened (peer chunk : Option PyStr) (userId : PyStr) (sttLanguage : Option PyStr) :
    (listened h cfg rt peer chunk userId sttLanguage : AppM V Next).Only Framing := by
  apply Prog.Only.bind
  · exact Calls.only_perform trivial
  intro _
  apply Prog.Only.bind
  · exact Calls.only_perform trivial
  intro _
  apply Prog.Only.bind
  · exact Prog.only_lift _
  intro bytes
  apply Prog.Only.bind
  · exact Calls.only_perform trivial
  intro segments
  split
  · apply Prog.Only.bind
    · exact Calls.only_perform trivial
    · intro _
      exact framing_giveUp
  · apply Prog.Only.bind
    · exact (only_rateLimitOk h cfg peer userId).mono fun _ => .of_telling
    intro ok
    split
    · apply Prog.Only.bind
      · exact Calls.only_perform trivial
      · intro text
        exact only_transcribed rt userId text
    · trivial

theorem only_handle (peer : Option PyStr) (frame : WsFrame) :
    (handle h cfg rt peer frame : AppM V Next).Only Framing := by
  cases frame with
  | chat text userId =>
    apply Prog.Only.bind
    · exact (only_rateLimitOk h cfg peer _).mono fun _ => .of_telling
    · intro ok
      split <;> trivial
  | audio chunk userId sttLanguage =>
    apply Prog.Only.bind
    · exact Calls.only_perform trivial
    intro now
    apply Prog.Only.bind
    · exact Calls.only_perform trivial
    intro last
    split
    · exact framing_giveUp
    · exact only_listened h cfg rt peer chunk _ sttLanguage
  | micStart =>
    apply Prog.Only.bind
    · exact Calls.only_perform trivial
    · intro _
      trivial
  | micStop =>
    apply Prog.Only.bind
    · exact Calls.only_perform trivial
    · intro _
      trivial
  | other => trivial

end Only

section Observer

universe w

variable {M : Type w}

/-- Past the calls made so far, and before the rest. -/
def Midway {α : Type} (next : M → (AppSig V).Event → Option M) (b m : M) (p : AppM V α) : Prop :=
  p.Follows next (fun _ m' => m' = b) (fun _ m' => m' = b) m

def Serving.Midway (next : M → (AppSig V).Event → Option M) (b m : M) : Serving V → Prop
  | .running p => VirtualPerson.Midway next b m p
  | .turn _ (.func p) => VirtualPerson.Midway next b m p
  | .turn _ (.iterator p) => VirtualPerson.Midway next b m p

/-- The automaton is at `b` between the requests and frames and follows what they call. -/
structure Observer (h : AvatarWebSocketHandler) (cfg : ServerConfig) (rt : ChatRuntime)
    (next : M → (AppSig V).Event → Option M) (b : M) : Prop where
  pipelines : Calls.Observes next b
  serve : ∀ i, Prog.Keeps next b (serve h cfg rt i)
  yields : ∀ m m' text, next m ⟨.yield text, .ok ()⟩ = some m' → m' = m

variable {h : AvatarWebSocketHandler} {cfg : ServerConfig} {rt : ChatRuntime}
variable {next : M → (AppSig V).Event → Option M} {b m : M} {s s' : Serving V}

theorem keeps_processTurn (hp : Calls.Observes next b) (hgate : ∀ o, Gating o → ∀ a, next b ⟨o, a⟩ = some b)
    (body : ChatTurnIn) : Prog.Keeps next b (processTurn cfg rt body : AppM V ChatTurnReply) := by
  apply Prog.Keeps.bind
  · exact Calls.keeps_runChatTurn hp cfg.toChatConfig rt body
  intro result
  split
  · apply Prog.Keeps.bind
    · apply Calls.keeps_handling
      · exact (Calls.only_perform trivial).keeps hgate
      · intro e
        exact Prog.keeps_pure _
    · intro _
      exact Prog.keeps_pure _
  · exact Prog.keeps_pure _

/-- An automaton that ignores the endpoint's own calls. -/
theorem keeps_http (hp : Calls.Observes next b) (hgate : ∀ o, Gating o → ∀ a, next b ⟨o, a⟩ = some b)
    (client : Option PyStr) (body : ChatTurnIn) :
    Prog.Keeps next b (VirtualPerson.serve h cfg rt (.http client body) : AppM V Next) := by
  apply Prog.Keeps.bind
  · unfold chatTurn
    split
    · apply Prog.Keeps.bind
      · exact (Calls.only_perform trivial).keeps hgate
      intro verdict
      obtain ⟨allowed, retryAfter⟩ := verdict
      cases allowed with
      | true => exact keeps_processTurn hp hgate body
      | false => exact Prog.keeps_pure _
    · exact keeps_processTurn hp hgate body
  · intro _
    exact Prog.keeps_pure _

theorem Serving.Midway.turn {t : Turn} {c : Callee V} (hs : Serving.Midway next b m (.turn t c))
    (t' : Turn) : Serving.Midway next b m (.turn t' c) := by
  cases c <;> exact hs

theorem midway_callee (hobs : Observer h cfg rt next b) (t : Turn) (userId text : PyStr) :
    Serving.Midway next b b (.turn t (callee h cfg rt userId text)) := by
  unfold callee
  split
  · exact Calls.keeps_streamChat hobs.pipelines cfg.toChatConfig rt userId text
  · apply Prog.Keeps.bind
    · exact Calls.keeps_chatViaPipeline hobs.pipelines cfg.toChatConfig rt userId text
    · intro result
      exact Prog.keeps_pure _

theorem midway_call {ev : (AppSig V).Event} (hs : s.Midway next b m)
    (hst : ServingStep h cfg rt s (.call ev) s') :
    ∃ m', next m ev = some m' ∧ s'.Midway next b m' := by
  cases hst with
  | call a => exact hs a
  | callee hpc hstep =>
    cases hstep with
    | func a => exact hs a
    | iterator a hyield => exact hs a

/-- Whatever else happens leaves the automaton where it is. -/
theorem midway_silent (hobs : Observer h cfg rt next b) {e : ServingEvent V} (he : ∀ ev, e ≠ .call ev)
    (hs : s.Midway next b m) (hst : ServingStep h cfg rt s e s') : s'.Midway next b m := by
  cases hst with
  | call a => exact absurd rfl (he _)
  | callee hpc hstep => exact absurd rfl (he _)
  | start ht =>
    have hm : m = b := hs
    rw [hm]
    exact midway_callee hobs _ _ _
  | turn hown hstep => exact hs.turn _
  | gives hgives hstep =>
    cases hgives with
    | returned response => exact hs
    | raised e => exact hs
    | @yielded text k elapsedMs =>
      obtain ⟨m', hm', hk⟩ := Prog.Follows.step hs (.ok ())
      rw [hobs.yields m m' text hm'] at hk
      exact hk
    | ended u elapsedMs => exact hs
    | failed e elapsedMs => exact hs

/-- Away from `b` a call is still to come, and the automaton follows it. -/
theorem midway_upcoming {α : Type} {p : AppM V α} (hp : VirtualPerson.Midway next b m p) (hm : m ≠ b) :
    ∃ o, nextOp p = some o ∧ ∀ a, (next m ⟨o, a⟩).isSome := by
  cases p with
  | ret a => exact absurd hp hm
  | raise e => exact absurd hp hm
  | op o k =>
    refine ⟨o, rfl, ?_⟩
    intro a
    obtain ⟨m', hm', -⟩ := hp.step a
    rw [hm']
    rfl

theorem Serving.Midway.upcoming (hs : s.Midway next b m) (hm : m ≠ b) :
    ∃ o, s.nextCall = some o ∧ ∀ a, (next m ⟨o, a⟩).isSome := by
  cases s with
  | running p => exact midway_upcoming hs hm
  | turn t c =>
    cases c with
    | func p => exact midway_upcoming hs hm
    | iterator p => exact midway_upcoming hs hm

end Observer

section Pool

universe w

variable {M : Type w} {h : AvatarWebSocketHandler} {cfg : ServerConfig} {rt : ChatRuntime}
variable {next : M → (AppSig V).Event → Option M} {b : M} {ms : Nat → M} {ss ss' : List (Serving V)}

/-- `ms` says where the automaton of each request and frame stands. -/
structure Observed (next : M → (AppSig V).Event → Option M) (b : M) (ms : Nat → M)
    (ss : List (Serving V)) : Prop where
  midway : ∀ i (s : Serving V), ss[i]? = some s → s.Midway next b (ms i)
  later : ∀ i, ss.length ≤ i → ms i = b

theorem observed_nil : Observed (V := V) next b (fun _ => b) [] := by
  refine ⟨?_, fun _ _ => rfl⟩
  intro i s hi
  rw [List.getElem?_nil] at hi
  cases hi

theorem Observed.join (ho : Observed next b ms ss) (hobs : Observer h cfg rt next b) {i : Nat}
    (hst : (servingSystem h cfg rt V).pool.step ss (i, none) ss') : Observed next b ms ss' := by
  obtain ⟨-, s, ⟨incoming, hs⟩, rfl⟩ := hst
  constructor
  · intro j s' hj
    by_cases hlt : j < ss.length
    · rw [List.getElem?_append_left hlt] at hj
      exact ho.midway j s' hj
    · rw [List.getElem?_append_right (by omega)] at hj
      obtain ⟨_, hs'⟩ := List.getElem?_eq_some_iff.mp hj
      rw [List.getElem_singleton] at hs'
      rw [ho.later j (by omega), ← hs', hs]
      exact hobs.serve incoming
  · intro j hj
    rw [List.length_append] at hj
    exact ho.later j (by omega)

/-- Where one of them moves on, the others stand as they are. -/
theorem Observed.set (ho : Observed next b ms ss) {i : Nat} {s s' : Serving V} {m : M}
    (hs : ss[i]? = some s) (hs' : s'.Midway next b m) :
    Observed next b (Function.update ms i m) (ss.set i s') := by
  have hi : i < ss.length := (List.getElem?_eq_some_iff.mp hs).1
  constructor
  · intro j s'' hj
    by_cases heq : j = i
    · subst heq
      rw [List.getElem?_set_self hi] at hj
      rw [Function.update_self, ← Option.some.inj hj]
      exact hs'
    · rw [List.getElem?_set_ne (Ne.symm heq)] at hj
      rw [Function.update_of_ne heq]
      exact ho.midway j s'' hj
  · intro j hj
    rw [List.length_set] at hj
    rw [Function.update_of_ne (by omega)]
    exact ho.later j hj

theorem Observed.silent (ho : Observed next b ms ss) (hobs : Observer h cfg rt next b) {i : Nat}
    {e : ServingEvent V} (he : ∀ ev, e ≠ .call ev)
    (hst : (servingSystem h cfg rt V).pool.step ss (i, some e) ss') : Observed next b ms ss' := by
  obtain ⟨s, s', hs, hst, rfl⟩ := hst
  rw [← Function.update_eq_self i ms]
  exact ho.set hs (midway_silent hobs he (ho.midway i s hs) hst)

theorem Observed.call (ho : Observed next b ms ss) {i : Nat} {ev : (AppSig V).Event}
    (hst : (servingSystem h cfg rt V).pool.step ss (i, some (.call ev)) ss') :
    ∃ m, next (ms i) ev = some m ∧ Observed next b (Function.update ms i m) ss' := by
  obtain ⟨s, s', hs, hst, rfl⟩ := hst
  obtain ⟨m, hm, hs'⟩ := midway_call (ho.midway i s hs) hst
  exact ⟨m, hm, ho.set hs hs'⟩

/-- A call that leaves its automaton where it was. -/
theorem Observed.stay {i : Nat} {m : M} (ho : Observed next b (Function.update ms i m) ss)
    (hm : ms i = m) : Observed next b ms ss := by
  have hms : Function.update ms i m = ms := by rw [← hm, Function.update_eq_self]
  rw [hms] at ho
  exact ho

/-- Only what is under way is away from `b`. -/
theorem Observed.upcoming (ho : Observed next b ms ss) {i : Nat} (hm : ms i ≠ b) :
    ∃ s, ss[i]? = some s ∧ ∃ o, s.nextCall = some o ∧ ∀ a, (next (ms i) ⟨o, a⟩).isSome := by
  have hi : i < ss.length := by
    by_contra hle
    exact hm (ho.later i (by omega))
  have hs : ss[i]? = some ss[i] := List.getElem?_eq_getElem hi
  exact ⟨_, hs, (ho.midway i _ hs).upcoming hm⟩

end Pool

end VirtualPerson
