import VirtualPerson.Chat.OutputSafety
import VirtualPerson.Session.Backends
import VirtualPerson.Ws.Observed

/-!
# Questions and answers

Requests and frames side by side on one `SessionService`. A turn makes its two `add` calls one
after the other, and those of other turns may come between them.
-/

namespace VirtualPerson

set_option autoImplicit false

variable {V : Type}

namespace Exchanges

/-- What the sessions answer to a call, and what it leaves. -/
inductive SessionsStep : SessionService → (AppSig V).Event → SessionService → Prop where
  | add {s : SessionService} (userId role content : PyStr) :
      SessionsStep s ⟨.addSession userId role content, .ok ()⟩ (s.add userId role content)
  | get {s : SessionService} (userId : PyStr) (limit : Option Int) :
      SessionsStep s ⟨.getSession userId limit, .ok (s.get userId limit)⟩ s
  | other {s : SessionService} {ev : (AppSig V).Event}
      (hadd : ∀ userId role content, ev.op ≠ .addSession userId role content)
      (hget : ∀ userId limit, ev.op ≠ .getSession userId limit) : SessionsStep s ev s

structure ChatServer (V : Type) where
  sessions : SessionService
  serving : List (Serving V)

abbrev ChatLabel (V : Type) := Nat × Option (ServingEvent V)

section System

variable (h : AvatarWebSocketHandler) (cfg : ServerConfig) (rt : ChatRuntime)

/-- Requests and frames in every order of their steps, and the sessions that their calls meet. -/
def chatSystem (V : Type) : System (ChatServer V) (ChatLabel V) where
  init s := s = { sessions := { maxTurns := 20, history := [] }, serving := [] }
  step s l s' :=
    (servingSystem h cfg rt V).pool.step s.serving l s'.serving ∧
      match l with
      | (_, some (.call ev)) => SessionsStep s.sessions ev s'.sessions
      | _ => s'.sessions = s.sessions

end System

/-- The turn has added the question and is about to add the answer. -/
def Answering (u : PyStr) (s : Serving V) : Prop :=
  ∃ content, s.nextCall = some (.addSession u (str "assistant") content)

/-- No call is left, unless for a generator that stands at a `yield` for good. -/
def Finished (s : Serving V) : Prop := ∀ o, s.nextCall = some o → ∃ text, o = .yield text

/-- A question is added only while no other turn is between its two `add` calls for the user. -/
def Unmixed (s : ChatServer V) (l : ChatLabel V) : Prop :=
  ∀ i ev u question, l = (i, some (.call ev)) → ev.op = .addSession u (str "user") question →
    ∀ j s', s.serving[j]? = some s' → Answering u s' → j = i

def addedOp (u : PyStr) : AppOp V → Option SessionTurn
  | .addSession userId role content => if userId = u then some ⟨role, content⟩ else none
  | _ => none

def addedBy (u : PyStr) : ChatLabel V → Option (Nat × SessionTurn)
  | (i, some (.call ev)) => (addedOp u ev.op).map fun t => (i, t)
  | _ => none

/-- What was added to the history of a user, each entry with the request or frame that added it. -/
def entries (u : PyStr) (ls : List (ChatLabel V)) : List (Nat × SessionTurn) := ls.filterMap (addedBy u)

/-- A turn with its question and its answer. -/
structure Exchange where
  turn : Nat
  question : PyStr
  answer : PyStr

def Exchange.entries (x : Exchange) : List (Nat × SessionTurn) :=
  [(x.turn, ⟨str "user", x.question⟩), (x.turn, ⟨str "assistant", x.answer⟩)]

/-- The history holds the last exchanges whole: each question is followed by its turn's answer. -/
def Adjacent (u : PyStr) (ls : List (ChatLabel V)) (s : SessionService) : Prop :=
  ∃ xs : List Exchange, xs.flatMap Exchange.entries <:+ entries u ls ∧
    s.turnsOf u = (xs.flatMap Exchange.entries).map Prod.snd

/-- The user whose question waits for its answer; `none` for a call out of order. -/
def hear (m : Option PyStr) : (AppSig V).Event → Option (Option PyStr)
  | ⟨.addSession userId role _, a⟩ =>
    match m with
    | none => if role = str "user" then some (if a.isOk then some userId else none) else none
    | some u => if userId = u ∧ role = str "assistant" then some none else none
  | _ => if m = none then some none else none

theorem keeps_record (userId message response : PyStr) :
    Prog.Keeps hear none (Calls.record userId message response : AppM V Unit) := by
  intro a
  cases a with
  | error e => exact ⟨none, rfl, rfl⟩
  | ok _ =>
    refine ⟨some userId, rfl, ?_⟩
    intro b
    refine ⟨none, if_pos ⟨rfl, rfl⟩, ?_⟩
    exact Prog.keeps_lift b

/-- A call that adds nothing. -/
def Adless (o : AppOp V) : Prop := ∀ userId role content, o ≠ .addSession userId role content

theorem hear_adless {o : AppOp V} (ho : Adless o) (a : Except PyExc o.Result) :
    hear none ⟨o, a⟩ = some none := by
  cases o with
  | addSession userId role content => exact absurd rfl (ho userId role content)
  | _ => rfl

theorem hear_adless_eq {m m' : Option PyStr} {o : AppOp V} {a : Except PyExc o.Result} (ho : Adless o)
    (h : hear m ⟨o, a⟩ = some m') : m = none ∧ m' = none := by
  cases m with
  | none =>
    rw [hear_adless ho] at h
    exact ⟨rfl, (Option.some.inj h).symm⟩
  | some u =>
    cases o with
    | addSession userId role content => exact absurd rfl (ho userId role content)
    | _ => cases h

theorem hear_waiting {u : PyStr} {m' : Option PyStr} {o : AppOp V} {a : Except PyExc o.Result}
    (h : hear (some u) ⟨o, a⟩ = some m') :
    ∃ content, o = .addSession u (str "assistant") content ∧ m' = none := by
  cases o with
  | addSession userId role content =>
    dsimp only [hear] at h
    split at h
    · rename_i heq
      obtain ⟨rfl, rfl⟩ := heq
      exact ⟨content, rfl, (Option.some.inj h).symm⟩
    · cases h
  | _ => cases h

theorem hear_question {userId role content : PyStr} {m' : Option PyStr}
    (h : hear (V := V) none ⟨.addSession userId role content, .ok ()⟩ = some m') :
    role = str "user" ∧ m' = some userId := by
  dsimp only [hear] at h
  split at h
  · rename_i hrole
    exact ⟨hrole, (Option.some.inj h).symm⟩
  · cases h

theorem addedBy_adless {o : AppOp V} {a : Except PyExc o.Result} (ho : Adless o) (u : PyStr) (i : Nat) :
    addedBy u (i, some (.call ⟨o, a⟩)) = none := by
  cases o with
  | addSession userId role content => exact absurd rfl (ho userId role content)
  | _ => rfl

theorem observes_pairing : Calls.Observes (V := V) hear none := by
  constructor
  · intro o ho a
    apply hear_adless
    intro userId role content heq
    rw [heq] at ho
    exact ho
  · exact keeps_record

section Serve

variable (h : AvatarWebSocketHandler) (cfg : ServerConfig) (rt : ChatRuntime)

theorem Adless.of_framing {o : AppOp V} (h : Framing o) : Adless o := by
  intro userId role content heq
  rw [heq] at h
  exact h

/-- The observer of the pairs. -/
theorem observer_pairing : Observer (V := V) h cfg rt hear none where
  pipelines := observes_pairing
  serve i := by
    cases i with
    | http client body =>
      apply keeps_http observes_pairing
      intro o ho a
      apply hear_adless
      intro userId role content heq
      rw [heq] at ho
      exact ho
    | ws peer frame =>
      exact (only_handle h cfg rt peer frame).keeps fun _ ho a => hear_adless (Adless.of_framing ho) a
  yields m m' text hread := by
    have hadless : Adless (.yield text : AppOp V) := nofun
    obtain ⟨rfl, rfl⟩ := hear_adless_eq hadless hread
    rfl

end Serve

/-- The last question of a user that still waits for its answer, if there is one. -/
inductive Waiting (u : PyStr) (ms : Nat → Option PyStr) : List (Nat × SessionTurn) → Prop where
  | none (h : ∀ i, ms i ≠ some u) : Waiting u ms []
  | one {i : Nat} (question : PyStr) (hi : ms i = some u) (h : ∀ j, ms j = some u → j = i) :
      Waiting u ms [(i, ⟨str "user", question⟩)]

/-- Whole exchanges, and the question that waits. -/
def Ordered (u : PyStr) (ms : Nat → Option PyStr) (es : List (Nat × SessionTurn)) : Prop :=
  ∃ xs waiting, es = List.flatMap Exchange.entries xs ++ waiting ∧ Waiting u ms waiting

/-- `ms` says whose question waits in each of the requests and frames. -/
structure Tracked (ms : Nat → Option PyStr) (s : ChatServer V) (ls : List (ChatLabel V)) : Prop where
  observed : Observed hear none ms s.serving
  bound : s.sessions.maxTurns = 20
  kept : ∀ u, s.sessions.turnsOf u = ((entries u ls).map Prod.snd).rtake 20
  ordered : ∀ u, Ordered u ms (entries u ls)

section Ordered

variable {u : PyStr} {ms : Nat → Option PyStr} {es : List (Nat × SessionTurn)} {i : Nat}

theorem Ordered.congr {ms' : Nat → Option PyStr} (h : Ordered u ms es)
    (hms : ∀ j, ms' j = some u ↔ ms j = some u) : Ordered u ms' es := by
  obtain ⟨xs, waiting, rfl, hwaiting⟩ := h
  refine ⟨xs, waiting, rfl, ?_⟩
  cases hwaiting with
  | none hnone => exact .none fun j hj => hnone j ((hms j).mp hj)
  | one question hi hone => exact .one question ((hms _).mpr hi) fun j hj => hone j ((hms j).mp hj)

/-- A question joins where none waits. -/
theorem Ordered.ask (h : Ordered u ms es) (hfree : ∀ j, ms j ≠ some u) (question : PyStr) :
    Ordered u (Function.update ms i (some u)) (es ++ [(i, ⟨str "user", question⟩)]) := by
  obtain ⟨xs, waiting, rfl, hwaiting⟩ := h
  cases hwaiting with
  | one question hi hone => exact absurd hi (hfree _)
  | none hnone =>
    refine ⟨xs, [(i, ⟨str "user", question⟩)], by rw [List.append_nil], ?_⟩
    apply Waiting.one question (Function.update_self i _ ms)
    intro j hj
    by_contra hne
    rw [Function.update_of_ne hne] at hj
    exact hfree j hj

/-- The answer joins the question of its turn. -/
theorem Ordered.answer (h : Ordered u ms es) (hi : ms i = some u) (answer : PyStr) :
    Ordered u (Function.update ms i none) (es ++ [(i, ⟨str "assistant", answer⟩)]) := by
  obtain ⟨xs, waiting, rfl, hwaiting⟩ := h
  cases hwaiting with
  | none hnone => exact absurd hi (hnone i)
  | @one k question hk hone =>
    obtain rfl := hone i hi
    refine ⟨xs ++ [⟨i, question, answer⟩], [], by simp [Exchange.entries], ?_⟩
    apply Waiting.none
    intro j hj
    by_cases hne : j = i
    · rw [hne, Function.update_self] at hj
      cases hj
    · rw [Function.update_of_ne hne] at hj
      exact hne (hone j hj)

end Ordered

section Runs

variable {h : AvatarWebSocketHandler} {cfg : ServerConfig} {rt : ChatRuntime}
variable {s s' : ChatServer V} {ls : List (ChatLabel V)} {ms : Nat → Option PyStr}

theorem entries_append (u : PyStr) (ls : List (ChatLabel V)) (l : ChatLabel V) :
    entries u (ls ++ [l]) = entries u ls ++ (addedBy u l).toList := by
  rw [entries, List.filterMap_append]
  congr 1

theorem entries_silent {u : PyStr} {l : ChatLabel V} (hl : addedBy u l = none) :
    entries u (ls ++ [l]) = entries u ls := by
  rw [entries_append, hl]
  exact List.append_nil _

theorem trim_rtake (xs : List SessionTurn) (t : SessionTurn) :
    SessionService.trim 20 (xs.rtake 20 ++ [t]) = (xs ++ [t]).rtake 20 := by
  rw [SessionService.trim_eq_rtake (by decide)]
  exact rtake_append_rtake 20 xs [t]

/-- A step that adds nothing leaves the histories. -/
theorem Tracked.silent {l : ChatLabel V} (ht : Tracked ms s ls) (hl : ∀ u, addedBy u l = none)
    (hsessions : s'.sessions = s.sessions) (hobserved : Observed hear none ms s'.serving) :
    Tracked ms s' (ls ++ [l]) := by
  refine ⟨hobserved, ?_, ?_, ?_⟩
  · rw [hsessions]
    exact ht.bound
  · intro u
    rw [hsessions, entries_silent (hl u)]
    exact ht.kept u
  · intro u
    rw [entries_silent (hl u)]
    exact ht.ordered u

/-- Whoever waits for an answer is about to give it. -/
theorem Tracked.answering (ht : Tracked ms s ls) {i : Nat} {u : PyStr} (hi : ms i = some u) :
    ∃ s₁, s.serving[i]? = some s₁ ∧ Answering u s₁ := by
  obtain ⟨s₁, hs₁, o, ho, hnext⟩ := ht.observed.upcoming (i := i) (by rw [hi]; exact Option.some_ne_none u)
  refine ⟨s₁, hs₁, ?_⟩
  obtain ⟨m', hm'⟩ := Option.isSome_iff_exists.mp (hnext (.error .typeError))
  rw [hi] at hm'
  obtain ⟨content, rfl, -⟩ := hear_waiting hm'
  exact ⟨content, ho⟩

section Add

variable {i : Nat} {userId role content : PyStr} {a : Except PyExc Unit}

theorem entries_add : entries userId (ls ++ [(i, some (.call ⟨.addSession userId role content, a⟩))]) =
    entries userId ls ++ [(i, ⟨role, content⟩)] := by
  rw [entries_append, addedBy, addedOp, if_pos rfl]
  rfl

theorem entries_add_other {u : PyStr} (hne : userId ≠ u) :
    entries u (ls ++ [(i, some (.call ⟨.addSession userId role content, a⟩))]) = entries u ls := by
  apply entries_silent
  rw [addedBy, addedOp, if_neg hne]
  rfl

theorem kept_add (ht : Tracked ms s ls) (u : PyStr) :
    (s.sessions.add userId role content).turnsOf u =
      ((entries u (ls ++ [(i, some (.call ⟨.addSession userId role content, a⟩))])).map
        Prod.snd).rtake 20 := by
  rw [SessionService.turnsOf_add, ht.bound]
  split
  · rename_i heq
    rw [heq, ht.kept, entries_add, List.map_append, trim_rtake]
    rfl
  · rename_i hne
    rw [ht.kept, entries_add_other (Ne.symm hne)]

end Add

/-- An `add` call changes what waits for its own user only. -/
theorem ordered_add {i : Nat} {userId role content : PyStr} {a : Except PyExc Unit} {m' : Option PyStr}
    (ht : Tracked ms s ls) (hbefore : ∀ u, ms i = some u → u = userId)
    (hafter : ∀ u, m' = some u → u = userId)
    (hadded : Ordered userId (Function.update ms i m') (entries userId ls ++ [(i, ⟨role, content⟩)]))
    (u : PyStr) : Ordered u (Function.update ms i m')
      (entries u (ls ++ [(i, some (.call ⟨.addSession userId role content, a⟩))])) := by
  by_cases heq : userId = u
  · subst heq
    rw [entries_add]
    exact hadded
  · rw [entries_add_other heq]
    apply (ht.ordered u).congr
    intro j
    by_cases hj : j = i
    · rw [hj, Function.update_self]
      constructor
      · exact fun hm' => absurd (hafter u hm').symm heq
      · exact fun hm => absurd (hbefore u hm).symm heq
    · rw [Function.update_of_ne hj]

theorem ordered_of_hear {i : Nat} {userId role content : PyStr} {m' : Option PyStr}
    (ht : Tracked ms s ls)
    (hhear : hear (V := V) (ms i) ⟨.addSession userId role content, .ok ()⟩ = some m')
    (hunmixed : Unmixed s (i, some (.call ⟨.addSession userId role content, .ok ()⟩))) (u : PyStr) :
    Ordered u (Function.update ms i m')
      (entries u (ls ++ [(i, some (.call ⟨.addSession userId role content, .ok ()⟩))])) := by
  cases hm : ms i with
  | none =>
    rw [hm] at hhear
    obtain ⟨rfl, rfl⟩ := hear_question hhear
    apply ordered_add ht
    · intro u hu
      cases hm.symm.trans hu
    · exact fun u hu => (Option.some.inj hu).symm
    · apply (ht.ordered userId).ask
      -- whoever waits is about to answer, which is this turn at most, and it does not wait
      intro j hj
      obtain ⟨s₁, hs₁, hanswering⟩ := ht.answering hj
      obtain rfl := hunmixed i _ userId content rfl rfl j s₁ hs₁ hanswering
      cases hm.symm.trans hj
  | some v =>
    rw [hm] at hhear
    obtain ⟨answer, hop, rfl⟩ := hear_waiting hhear
    cases hop
    apply ordered_add ht
    · exact fun u hu => Option.some.inj (hu.symm.trans hm)
    · intro u hu
      cases hu
    · exact (ht.ordered userId).answer hm content

theorem Tracked.call (ht : Tracked ms s ls) {i : Nat} {ev : (AppSig V).Event}
    (hst : (servingSystem h cfg rt V).pool.step s.serving (i, some (.call ev)) s'.serving)
    (hsessions : SessionsStep s.sessions ev s'.sessions) (hunmixed : Unmixed s (i, some (.call ev))) :
    ∃ ms', Tracked ms' s' (ls ++ [(i, some (.call ev))]) := by
  obtain ⟨m', hhear, hobserved⟩ := ht.observed.call hst
  generalize hafter : s'.sessions = after at hsessions
  cases hsessions with
  | add userId role content =>
    refine ⟨Function.update ms i m', hobserved, ?_, ?_, ?_⟩
    · rw [hafter]
      exact ht.bound
    · intro u
      rw [hafter]
      exact kept_add ht u
    · exact ordered_of_hear ht hhear hunmixed
  | get userId limit =>
    have hadless : Adless (.getSession userId limit : AppOp V) := nofun
    obtain ⟨hm, rfl⟩ := hear_adless_eq hadless hhear
    exact ⟨ms, ht.silent (fun u => rfl) hafter (hobserved.stay hm)⟩
  | other hadd hget =>
    obtain ⟨hm, rfl⟩ := hear_adless_eq hadd hhear
    exact ⟨ms, ht.silent (fun u => addedBy_adless hadd u i) hafter (hobserved.stay hm)⟩

theorem tracked_step {l : ChatLabel V} (ht : Tracked ms s ls)
    (hst : ((chatSystem h cfg rt V).restrict Unmixed).step s l s') :
    ∃ ms', Tracked ms' s' (ls ++ [l]) := by
  obtain ⟨hunmixed, hpool, hsessions⟩ := hst
  obtain ⟨i, e⟩ := l
  have hobs : Observer (V := V) h cfg rt hear none := observer_pairing h cfg rt
  cases e with
  | none => exact ⟨ms, ht.silent (fun u => rfl) hsessions (ht.observed.join hobs hpool)⟩
  | some e =>
    cases e with
    | call ev => exact ht.call hpool hsessions hunmixed
    | start =>
      have hcall : ∀ ev, ServingEvent.start (V := V) ≠ .call ev := nofun
      exact ⟨ms, ht.silent (fun u => rfl) hsessions (ht.observed.silent hobs hcall hpool)⟩
    | turn e =>
      have hcall : ∀ ev, ServingEvent.turn (V := V) e ≠ .call ev := nofun
      exact ⟨ms, ht.silent (fun u => rfl) hsessions (ht.observed.silent hobs hcall hpool)⟩

theorem tracked_run (hs : (chatSystem h cfg rt V).init s)
    (hrun : ((chatSystem h cfg rt V).restrict Unmixed).Run s ls s') : ∃ ms, Tracked ms s' ls := by
  have hstart : ∃ ms, Tracked ms s [] := by
    cases hs
    exact ⟨fun _ => none, observed_nil, rfl, fun u => rfl, fun u => ⟨[], [], rfl, .none nofun⟩⟩
  have hinv := hrun.invariant_labels (I := fun s ls => ∃ ms, Tracked ms s ls)
    (fun ht hst => ht.elim fun ms ht => tracked_step ht hst) hstart
  rwa [List.nil_append] at hinv

/-- Nothing waits once all have finished. -/
theorem Tracked.whole (ht : Tracked ms s ls) (hfin : ∀ s₁ ∈ s.serving, Finished s₁) (u : PyStr) :
    ∃ xs : List Exchange, entries u ls = xs.flatMap Exchange.entries := by
  obtain ⟨xs, waiting, hes, hwaiting⟩ := ht.ordered u
  cases hwaiting with
  | none h => exact ⟨xs, by rw [hes, List.append_nil]⟩
  | one question hi hone =>
    obtain ⟨s₁, hs₁, content, hnext⟩ := ht.answering hi
    obtain ⟨text, heq⟩ := hfin s₁ (List.mem_of_getElem? hs₁) _ hnext
    cases heq

end Runs

theorem drop_entries (n : Nat) (xs : List Exchange) :
    (xs.flatMap Exchange.entries).drop (2 * n) = (xs.drop n).flatMap Exchange.entries := by
  induction n generalizing xs with
  | zero => rfl
  | succ n ih =>
    cases xs with
    | nil => simp
    | cons x xs => exact ih xs

theorem length_entries (xs : List Exchange) : (xs.flatMap Exchange.entries).length = 2 * xs.length := by
  induction xs with
  | nil => rfl
  | cons x xs ih =>
    rw [List.flatMap_cons, List.length_append, ih, List.length_cons]
    change 2 + 2 * xs.length = _
    omega

/-- An even bound cuts no exchange in two. -/
theorem rtake_entries (n : Nat) (xs : List Exchange) :
    (xs.flatMap Exchange.entries).rtake (2 * n) = (xs.rtake n).flatMap Exchange.entries := by
  rw [List.rtake, List.rtake, length_entries, ← Nat.mul_sub, drop_entries]

/-- As long as no question is added between the two `add` calls of another turn of its user, in every
interleaving of requests and frames the history holds each question next to its answer when all
have finished. -/
theorem history_adjacent (h : AvatarWebSocketHandler) (cfg : ServerConfig) (rt : ChatRuntime)
    {s₀ s : ChatServer V} {ls : List (ChatLabel V)} (h₀ : (chatSystem h cfg rt V).init s₀)
    (hrun : ((chatSystem h cfg rt V).restrict Unmixed).Run s₀ ls s)
    (hfin : ∀ s₁ ∈ s.serving, Finished s₁) (u : PyStr) : Adjacent u ls s.sessions := by
  obtain ⟨ms, ht⟩ := tracked_run h₀ hrun
  obtain ⟨xs, hxs⟩ := ht.whole hfin u
  refine ⟨xs.rtake 10, ?_, ?_⟩
  · rw [hxs, ← rtake_entries]
    exact List.drop_suffix _ _
  · rw [ht.kept, hxs, ← rtake_entries 10]
    simp only [List.rtake, List.map_drop, List.length_map]

section Example

def plainConfig : ServerConfig :=
  { llmProvider := str "openai_compat", ollamaModel := [], openaiCompatModel := []
    llmStripThinking := false, wsStreamEnabled := true, rateLimitEnabled := false
    queueEnabled := false, fast := false }

def asking (user question : String) : Incoming :=
  .http none { userId := str user, message := str question, style := none }

def calling (i : Nat) (ev : (AppSig Unit).Event) : ChatLabel Unit := (i, some (.call ev))

def readsPersona (i : Nat) : ChatLabel Unit := calling i ⟨.persona, .ok Chat.firstState.persona⟩

def adds (i : Nat) (user : String) (role content : PyStr) : ChatLabel Unit :=
  calling i ⟨.addSession (str user) role content, .ok ()⟩

def logs (i : Nat) (user : String) : ChatLabel Unit :=
  calling i ⟨.log (str "chat_turn") (str "user=" ++ str user), .ok ()⟩

def background : PyStr :=
  PersonaService.enforce (PersonaService.shortBackground Chat.firstState.persona)

abbrev server : System (ChatServer Unit) (ChatLabel Unit) :=
  chatSystem wsHandler plainConfig Chat.asciiRuntime Unit

variable {s : ChatServer Unit} {i : Nat}

theorem step_join (incoming : Incoming) :
    server.step s (s.serving.length, none)
      { s with serving := s.serving ++
        [.running (serve wsHandler plainConfig Chat.asciiRuntime incoming)] } :=
  ⟨⟨rfl, _, ⟨incoming, rfl⟩, rfl⟩, rfl⟩

theorem step_call {o : AppOp Unit} {k : Except PyExc o.Result → AppM Unit Next} {a : Except PyExc o.Result}
    {sessions : SessionService} (hi : s.serving[i]? = some (.running (.op o k)))
    (hsessions : SessionsStep s.sessions ⟨o, a⟩ sessions) :
    server.step s (calling i ⟨o, a⟩) { sessions, serving := s.serving.set i (.running (k a)) } :=
  ⟨⟨_, _, hi, .call a, rfl⟩, hsessions⟩

def emptySessions : SessionService := { maxTurns := 20, history := [] }

/-- The next call adds nothing to the user's history. -/
theorem not_answering {s₁ : Serving Unit} {o : AppOp Unit} {u : PyStr} (hnext : s₁.nextCall = some o)
    (ho : addedOp u o = none) : ¬ Answering u s₁ := by
  intro h
  obtain ⟨content, hcall⟩ := h
  cases hnext.symm.trans hcall
  rw [addedOp, if_pos rfl] at ho
  cases ho

/-- Only a question can mix two turns. -/
theorem unmixed_other {l : ChatLabel Unit}
    (h : ∀ ev, l.2 = some (.call ev) → ∀ u question, ev.op ≠ .addSession u (str "user") question) :
    Unmixed s l := by
  intro i ev u question hl hop
  exact absurd hop (h ev (congrArg Prod.snd hl) u question)

theorem unmixed_answer (user : String) (content : PyStr) :
    Unmixed s (adds i user (str "assistant") content) := by
  apply unmixed_other
  intro ev hev u question hop
  cases hev
  have hrole : str "assistant" = str "user" := (AppOp.addSession.inj hop).2.1
  revert hrole
  decide

theorem unmixed_question {user : String} {question : PyStr}
    (h : ∀ j s', s.serving[j]? = some s' → j ≠ i → ¬ Answering (str user) s') :
    Unmixed s (adds i user (str "user") question) := by
  intro j ev u question' hl hop k s' hk hanswering
  cases hl
  cases hop
  by_contra hne
  exact h k s' hk hne hanswering

theorem unmixed_first {s₁ s₂ : Serving Unit} {user : String} {question : PyStr} (hs : s.serving = [s₁, s₂])
    (h : ¬ Answering (str user) s₂) : Unmixed s (adds 0 user (str "user") question) := by
  apply unmixed_question
  intro j s' hj hne
  rw [hs] at hj
  rcases j with _ | _ | j
  · exact absurd rfl hne
  · cases hj
    exact h
  · cases hj

theorem unmixed_second {s₁ s₂ : Serving Unit} {user : String} {question : PyStr} (hs : s.serving = [s₁, s₂])
    (h : ¬ Answering (str user) s₁) : Unmixed s (adds 1 user (str "user") question) := by
  apply unmixed_question
  intro j s' hj hne
  rw [hs] at hj
  rcases j with _ | _ | j
  · cases hj
    exact h
  · exact absurd rfl hne
  · cases hj

/-- The turns of two users, step by step side by side -/
def sideLabels : List (ChatLabel Unit) :=
  [(0, none), (1, none), readsPersona 0, readsPersona 1, adds 0 "ann" (str "user") (str "who are you"),
    adds 1 "bob" (str "user") (str "your story"), adds 0 "ann" (str "assistant") background,
    adds 1 "bob" (str "assistant") background, logs 0 "ann", logs 1 "bob"]

def sideSessions : SessionService :=
  (((emptySessions.add (str "ann") (str "user") (str "who are you")).add (str "bob") (str "user")
    (str "your story")).add (str "ann") (str "assistant") background).add (str "bob") (str "assistant")
    background

theorem finished_done : Finished (.running (.ret .done) : Serving Unit) := nofun

theorem finished_pair :
    ∀ s₁ ∈ [Serving.running (V := Unit) (.ret .done), .running (.ret .done)], Finished s₁ := by
  intro s₁ hs₁
  have hdone : s₁ = .running (.ret .done) := by simpa using hs₁
  rw [hdone]
  exact finished_done

theorem history_adjacent_side :
    (server.restrict Unmixed).Run { sessions := emptySessions, serving := [] } sideLabels
        { sessions := sideSessions, serving := [.running (.ret .done), .running (.ret .done)] } ∧
      ∀ u, Adjacent u sideLabels sideSessions := by
  have hrun : (server.restrict Unmixed).Run { sessions := emptySessions, serving := [] } sideLabels
      { sessions := sideSessions, serving := [.running (.ret .done), .running (.ret .done)] } := by
    refine .cons ⟨unmixed_other nofun, step_join (asking "ann" "who are you")⟩ ?_
    refine .cons ⟨unmixed_other nofun, step_join (asking "bob" "your story")⟩ ?_
    refine .cons ⟨unmixed_other (by rintro _ ⟨⟩ _ _ ⟨⟩), step_call rfl (.other nofun nofun)⟩ ?_
    refine .cons ⟨unmixed_other (by rintro _ ⟨⟩ _ _ ⟨⟩), step_call rfl (.other nofun nofun)⟩ ?_
    refine .cons ⟨unmixed_first rfl (not_answering rfl rfl), step_call rfl (.add _ _ _)⟩ ?_
    refine .cons ⟨unmixed_second rfl (not_answering rfl rfl), step_call rfl (.add _ _ _)⟩ ?_
    refine .cons ⟨unmixed_answer _ _, step_call rfl (.add _ _ _)⟩ ?_
    refine .cons ⟨unmixed_answer _ _, step_call rfl (.add _ _ _)⟩ ?_
    refine .cons ⟨unmixed_other (by rintro _ ⟨⟩ _ _ ⟨⟩), step_call rfl (.other nofun nofun)⟩ ?_
    refine .cons ⟨unmixed_other (by rintro _ ⟨⟩ _ _ ⟨⟩), step_call rfl (.other nofun nofun)⟩ ?_
    exact .nil _
  exact ⟨hrun, history_adjacent _ _ _ rfl hrun finished_pair⟩

def mixedLabels : List (ChatLabel Unit) :=
  [(0, none), (1, none), readsPersona 0, readsPersona 1, adds 0 "ann" (str "user") (str "who are you"),
    adds 1 "ann" (str "user") (str "your story"), adds 0 "ann" (str "assistant") background,
    adds 1 "ann" (str "assistant") background, logs 0 "ann", logs 1 "ann"]

def mixedSessions : SessionService :=
  (((emptySessions.add (str "ann") (str "user") (str "who are you")).add (str "ann") (str "user")
    (str "your story")).add (str "ann") (str "assistant") background).add (str "ann") (str "assistant")
    background

theorem mixed_run : server.Run { sessions := emptySessions, serving := [] } mixedLabels
    { sessions := mixedSessions, serving := [.running (.ret .done), .running (.ret .done)] } := by
  refine .cons (step_join (asking "ann" "who are you")) ?_
  refine .cons (step_join (asking "ann" "your story")) ?_
  refine .cons (step_call rfl (.other nofun nofun)) ?_
  refine .cons (step_call rfl (.other nofun nofun)) ?_
  refine .cons (step_call rfl (.add _ _ _)) ?_
  refine .cons (step_call rfl (.add _ _ _)) ?_
  refine .cons (step_call rfl (.add _ _ _)) ?_
  refine .cons (step_call rfl (.add _ _ _)) ?_
  refine .cons (step_call rfl (.other nofun nofun)) ?_
  refine .cons (step_call rfl (.other nofun nofun)) ?_
  exact .nil _

/-- Both questions are added before the first answer. -/
theorem not_history_adjacent :
    ¬ ∀ (h : AvatarWebSocketHandler) (cfg : ServerConfig) (rt : ChatRuntime) (V : Type)
      (s₀ s : ChatServer V) (ls : List (ChatLabel V)), (chatSystem h cfg rt V).init s₀ →
      (chatSystem h cfg rt V).Run s₀ ls s → (∀ s₁ ∈ s.serving, Finished s₁) →
        ∀ u, Adjacent u ls s.sessions := by
  intro hall
  obtain ⟨xs, -, hturns⟩ := hall _ _ _ _ _ _ _ rfl mixed_run finished_pair (str "ann")
  have hmixed : mixedSessions.turnsOf (str "ann") =
      [⟨str "user", str "who are you"⟩, ⟨str "user", str "your story"⟩, ⟨str "assistant", background⟩,
        ⟨str "assistant", background⟩] := rfl
  rw [hmixed] at hturns
  cases xs with
  | nil => cases hturns
  | cons x xs =>
    have hsecond := congrArg (fun turns => turns[1]?.map SessionTurn.role) hturns
    have hroles : some (str "user") = some (str "assistant") := hsecond
    revert hroles
    decide

end Example

end Exchanges

end VirtualPerson
