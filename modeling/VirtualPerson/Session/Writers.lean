import VirtualPerson.Session.Backends
import VirtualPerson.Transition

/-!
# Concurrent writers of one session list

Any number of `add` and `clear` calls on one key, their Redis commands interleaved. The list
stays an end of what was pushed since the last `DEL`, and `LTRIM`s still due are all that can
make it too long.
-/

namespace VirtualPerson

set_option autoImplicit false

open Redis RedisSessionStore

section Ends

variable {α : Type} {bound pending pending' : Nat} {xs pushed : List α}

/-- An end of what was pushed, long enough, and too long by the pending cuts at most. -/
structure EndsWith (bound pending : Nat) (xs pushed : List α) : Prop where
  suffix : xs <:+ pushed
  enough : min bound pushed.length ≤ xs.length
  length_le : xs.length ≤ bound + pending

theorem EndsWith.nil (bound pending : Nat) : EndsWith bound pending ([] : List α) [] :=
  ⟨List.suffix_rfl, Nat.min_le_right _ _, Nat.zero_le _⟩

theorem EndsWith.push (h : EndsWith bound pending xs pushed) (x : α) :
    EndsWith bound (pending + 1) (xs ++ [x]) (pushed ++ [x]) := by
  obtain ⟨⟨front, rfl⟩, henough, hle⟩ := h
  simp only [List.length_append] at henough
  constructor
  · exact ⟨front, (List.append_assoc front xs [x]).symm⟩
  · simp only [List.length_append, List.length_singleton]
    omega
  · rw [List.length_append, List.length_singleton]
    omega

theorem EndsWith.cut (h : EndsWith bound pending xs pushed) (pending' : Nat) :
    EndsWith bound pending' (xs.rtake bound) pushed := by
  have hlen := length_rtake bound xs
  have henough := h.enough
  constructor
  · exact (List.drop_suffix _ xs).trans h.suffix
  · omega
  · omega

theorem EndsWith.mono (h : EndsWith bound pending xs pushed) (hle : pending ≤ pending') :
    EndsWith bound pending' xs pushed :=
  ⟨h.suffix, h.enough, h.length_le.trans (Nat.add_le_add_left hle bound)⟩

theorem EndsWith.eq_rtake (h : EndsWith bound 0 xs pushed) :
    xs = pushed.rtake (min bound pushed.length) := by
  have hlen : xs.length = min bound pushed.length := by
    have hle := h.suffix.length_le
    have henough := h.enough
    have hbound := h.length_le
    omega
  rw [← hlen]
  exact eq_rtake_of_suffix h.suffix

end Ends

/-- The calls that write, as programs. -/
def RedisSessionStore.write (store : RedisSessionStore) : SessionCall → Option (RedisM Unit)
  | .add userId role content now => some (store.add userId role content now)
  | .clear userId => some (store.clear userId)
  | .get _ _ => none

def SessionCall.isAdd : SessionCall → Bool
  | .add _ _ _ _ => true
  | _ => false

/-- A call in progress and the rest of its program. -/
structure Writer where
  call : SessionCall
  rest : RedisM Unit

/-- The writer's next command is its `LTRIM`. -/
def Writer.awaitsTrim (w : Writer) : Bool :=
  match w.rest with
  | .op (.command (.ltrim _ _ _)) _ => true
  | _ => false

/-- What was pushed to the key since its last `DEL`. -/
def RedisCommand.record (k : PyStr) : RedisCommand → List PyStr → List PyStr
  | .rpush k' v, pushed => if k' = k then pushed ++ [v] else pushed
  | .delete k', pushed => if k' = k then [] else pushed
  | _, pushed => pushed

structure Writers (σ : Type) where
  server : σ
  pushed : List PyStr
  running : List Writer

namespace Writers

variable {σ : Type}

def pendingTrims (s : Writers σ) : Nat := s.running.countP Writer.awaitsTrim

/-- One step of one client; no command fails. -/
inductive Step (R : RedisServer σ) (store : RedisSessionStore) (k : PyStr) :
    Writers σ → Writers σ → Prop where
  | start {s : Writers σ} {c : SessionCall} {p : RedisM Unit} (hkey : key c.userId = k)
      (hwrite : store.write c = some p) :
      Step R store k s { s with running := s.running ++ [⟨c, p⟩] }
  | client {s : Writers σ} {before after : List Writer} {c : SessionCall}
      {f : Bool → RedisM Unit} (hrunning : s.running = before ++ ⟨c, .op .client f⟩ :: after) :
      Step R store k s
        { s with
          server := (R.serve .client s.server).2
          running := before ++ ⟨c, f (R.serve .client s.server).1⟩ :: after }
  | command {s : Writers σ} {before after : List Writer} {c : SessionCall} {o : RedisCommand}
      {f : Except PyExc (List PyStr) → RedisM Unit}
      (hrunning : s.running = before ++ ⟨c, .op (.command o) f⟩ :: after)
      (hsendable : o.sendable = true) :
      Step R store k s
        { server := (R.serve (.command o) s.server).2
          pushed := o.record k s.pushed
          running := before ++ ⟨c, f (R.serve (.command o) s.server).1⟩ :: after }
  | finish {s : Writers σ} {before after : List Writer} {c : SessionCall}
      (hrunning : s.running = before ++ ⟨c, .ret ()⟩ :: after) :
      Step R store k s { s with running := before ++ after }

/-- The clients of one key, which starts empty. -/
def system (R : RedisServer σ) (store : RedisSessionStore) (k : PyStr) : System (Writers σ) Unit where
  init s := R.lists s.server k = [] ∧ s.pushed = [] ∧ s.running = []
  step s _ t := Step R store k s t

end Writers

/-- A program whose every `RPUSH` to the key is followed at once by an `LTRIM` to the bound, and
that otherwise only deletes the key; `due` tells that the `LTRIM` comes next. -/
def Disciplined (k : PyStr) (maxTurns : Int) (adds : Bool) : (due : Bool) → RedisM Unit → Prop
  | due, .ret _ => due = false
  | due, .raise _ => due = false
  | due, .op .client f => due = false ∧ Disciplined k maxTurns adds false (f true)
  | due, .op (.command (.rpush k' _)) f =>
    k' = k ∧ adds = true ∧ due = false ∧ Disciplined k maxTurns adds true (f (.ok []))
  | due, .op (.command (.ltrim k' start stop)) f =>
    k' = k ∧ start = -maxTurns ∧ stop = -1 ∧ adds = true ∧ due = true ∧
      Disciplined k maxTurns adds false (f (.ok []))
  | due, .op (.command (.expire _ _)) f => due = false ∧ Disciplined k maxTurns adds false (f (.ok []))
  | due, .op (.command (.delete k')) f =>
    k' = k ∧ due = false ∧ Disciplined k maxTurns adds false (f (.ok []))
  | _, .op (.command (.lrange _ _ _)) _ => False

theorem disciplined_write {store : RedisSessionStore} {c : SessionCall} {p : RedisM Unit}
    (hwrite : store.write c = some p) : Disciplined (key c.userId) store.maxTurns c.isAdd false p := by
  cases c with
  | add userId role content now =>
    cases hwrite
    exact ⟨rfl, rfl, rfl, rfl, rfl, rfl, rfl, rfl, rfl, rfl, rfl⟩
  | get userId limit => cases hwrite
  | clear userId =>
    cases hwrite
    exact ⟨rfl, rfl, rfl, rfl⟩

section Disciplined

variable {σ : Type} {R : RedisServer σ} {k : PyStr} {maxTurns : Int} {adds due : Bool} {s : σ}
  {pending : Nat} {pushed : List PyStr}

theorem awaitsTrim_of_disciplined {c : SessionCall} {p : RedisM Unit}
    (h : Disciplined k maxTurns adds due p) : Writer.awaitsTrim ⟨c, p⟩ = due := by
  cases p with
  | ret a => exact Eq.symm h
  | raise e => exact Eq.symm h
  | op o f =>
    cases o with
    | client => exact h.1.symm
    | command o =>
      cases o with
      | rpush k' v => exact h.2.2.1.symm
      | ltrim k' start stop => exact h.2.2.2.2.1.symm
      | expire k' seconds => exact h.1.symm
      | lrange k' start stop => cases h
      | delete k' => exact h.2.1.symm

theorem isAdd_of_due {p : RedisM Unit} (h : Disciplined k maxTurns adds true p) : adds = true := by
  cases p with
  | ret a => cases h
  | raise e => cases h
  | op o f =>
    cases o with
    | client => cases h.1
    | command o =>
      cases o with
      | rpush k' v => cases h.2.2.1
      | ltrim k' start stop => exact h.2.2.2.1
      | expire k' seconds => cases h.1
      | lrange k' start stop => cases h
      | delete k' => cases h.2.1

/-- What one command of a disciplined program does to the key's list, and what the program owes
then. -/
theorem disciplined_command (hpos : 1 ≤ maxTurns) {o : RedisCommand}
    {f : Except PyExc (List PyStr) → RedisM Unit}
    (h : Disciplined k maxTurns adds due (.op (.command o) f)) (hsendable : o.sendable = true)
    (hends : EndsWith maxTurns.toNat (pending + due.toNat) (R.lists s k) pushed) :
    ∃ due', Disciplined k maxTurns adds due' (f (R.serve (.command o) s).1) ∧
      EndsWith maxTurns.toNat (pending + due'.toNat) (R.lists (R.serve (.command o) s).2 k)
        (o.record k pushed) := by
  obtain ⟨hreply, hlists⟩ := R.accepts o s hsendable
  rw [hreply, hlists]
  cases o with
  | rpush k' v =>
    obtain ⟨rfl, -, rfl, hrest⟩ := h
    refine ⟨true, hrest, ?_⟩
    change EndsWith _ _ (Function.update (R.lists s) k' (R.lists s k' ++ [v]) k')
      (if k' = k' then pushed ++ [v] else pushed)
    rw [Function.update_self, if_pos rfl]
    exact hends.push v
  | ltrim k' start stop =>
    obtain ⟨rfl, rfl, rfl, -, rfl, hrest⟩ := h
    refine ⟨false, hrest, ?_⟩
    change EndsWith _ _ (Function.update (R.lists s) k' (range (-maxTurns) (-1) (R.lists s k')) k') pushed
    rw [Function.update_self, SessionService.range_eq_trim, SessionService.trim_eq_rtake hpos]
    exact hends.cut _
  | expire k' seconds =>
    obtain ⟨rfl, hrest⟩ := h
    exact ⟨false, hrest, hends⟩
  | lrange k' start stop => cases h
  | delete k' =>
    obtain ⟨rfl, rfl, hrest⟩ := h
    refine ⟨false, hrest, ?_⟩
    change EndsWith _ _ (Function.update (R.lists s) k' [] k') (if k' = k' then [] else pushed)
    rw [Function.update_self, if_pos rfl]
    exact .nil _ _

end Disciplined

namespace Writers

variable {σ : Type} {R : RedisServer σ} {store : RedisSessionStore} {k : PyStr} {s t : Writers σ}

structure Inv (R : RedisServer σ) (store : RedisSessionStore) (k : PyStr) (s : Writers σ) : Prop where
  disciplined : ∀ w ∈ s.running,
    Disciplined k store.maxTurns w.call.isAdd w.awaitsTrim w.rest
  ends : EndsWith store.maxTurns.toNat s.pendingTrims (R.lists s.server k) s.pushed

theorem countP_running (before after : List Writer) (w : Writer) :
    (before ++ w :: after).countP Writer.awaitsTrim =
      before.countP Writer.awaitsTrim + after.countP Writer.awaitsTrim + w.awaitsTrim.toNat := by
  rw [List.countP_append, List.countP_cons]
  cases w.awaitsTrim
  · simp
  · simp only [if_true, Bool.toNat_true]
    omega

theorem mem_running {before after : List Writer} {w w' x : Writer} (hx : x ∈ before ++ w' :: after) :
    x = w' ∨ x ∈ before ++ w :: after := by
  simp only [List.mem_append, List.mem_cons] at hx ⊢
  tauto

theorem Inv.advance (h : Inv R store k s) {before after : List Writer} {c : SessionCall}
    {p p' : RedisM Unit} (hrunning : s.running = before ++ ⟨c, p⟩ :: after) {due : Bool}
    (hp' : Disciplined k store.maxTurns c.isAdd due p') {server : σ} {pushed : List PyStr}
    (hends : EndsWith store.maxTurns.toNat
      (before.countP Writer.awaitsTrim + after.countP Writer.awaitsTrim + due.toNat)
      (R.lists server k) pushed) :
    Inv R store k { server, pushed, running := before ++ ⟨c, p'⟩ :: after } := by
  have hdue : Writer.awaitsTrim ⟨c, p'⟩ = due := awaitsTrim_of_disciplined hp'
  constructor
  · intro w hw
    rcases mem_running (w := ⟨c, p⟩) hw with rfl | hw
    · rw [hdue]
      exact hp'
    · rw [← hrunning] at hw
      exact h.disciplined w hw
  · change EndsWith _ ((before ++ ⟨c, p'⟩ :: after).countP Writer.awaitsTrim) _ _
    rw [countP_running, hdue]
    exact hends

theorem Inv.step (hpos : 1 ≤ store.maxTurns) (h : Inv R store k s) (hst : Step R store k s t) :
    Inv R store k t := by
  have hrun {before after : List Writer} {w : Writer} (hrunning : s.running = before ++ w :: after) :
      Disciplined k store.maxTurns w.call.isAdd w.awaitsTrim w.rest ∧
        EndsWith store.maxTurns.toNat
          (before.countP Writer.awaitsTrim + after.countP Writer.awaitsTrim + w.awaitsTrim.toNat)
          (R.lists s.server k) s.pushed := by
    have hends := h.ends
    rw [pendingTrims, hrunning, countP_running] at hends
    exact ⟨h.disciplined w (by rw [hrunning]; simp), hends⟩
  cases hst with
  | @start c p hkey hwrite =>
    subst hkey
    have hp := disciplined_write hwrite
    have hdue : Writer.awaitsTrim ⟨c, p⟩ = false := awaitsTrim_of_disciplined hp
    constructor
    · intro w hw
      rcases List.mem_append.mp hw with hw | hw
      · exact h.disciplined w hw
      · rw [List.mem_singleton.mp hw, hdue]
        exact hp
    · have hpending : List.countP Writer.awaitsTrim (s.running ++ [⟨c, p⟩]) = s.pendingTrims := by
        rw [countP_running, hdue]
        rfl
      change EndsWith _ (List.countP Writer.awaitsTrim (s.running ++ [⟨c, p⟩])) _ _
      rw [hpending]
      exact h.ends
  | @client before after c f hrunning =>
    obtain ⟨⟨-, hp'⟩, hends⟩ := hrun hrunning
    rw [R.reachable]
    exact h.advance hrunning hp' hends
  | @command before after c o f hrunning hsendable =>
    obtain ⟨hp, hends⟩ := hrun hrunning
    obtain ⟨due', hp', hends'⟩ := disciplined_command hpos hp hsendable hends
    exact h.advance hrunning hp' hends'
  | @finish before after c hrunning =>
    obtain ⟨-, hends⟩ := hrun hrunning
    constructor
    · intro w hw
      apply h.disciplined w
      rw [hrunning]
      simp only [List.mem_append, List.mem_cons] at hw ⊢
      tauto
    · change EndsWith _ (List.countP Writer.awaitsTrim (before ++ after)) _ _
      rw [List.countP_append]
      exact hends

theorem Inv.reachable (hpos : 1 ≤ store.maxTurns) (h : (system R store k).Reachable s) :
    Inv R store k s := by
  apply h.invariant (I := Inv R store k)
  · rintro s ⟨hlist, hpushed, hrunning⟩
    constructor
    · rw [hrunning]
      simp
    · rw [hlist, hpushed]
      exact .nil _ _
  · intro s l t hs hst
    exact hs.step hpos hst

/-- A pending `LTRIM` is that of an `add` in progress. -/
theorem Inv.pendingTrims_eq_zero (h : Inv R store k s) (hadds : ∀ w ∈ s.running, w.call.isAdd = false) :
    s.pendingTrims = 0 := by
  rw [pendingTrims, List.countP_eq_zero]
  intro w hw hawaits
  have hp := h.disciplined w hw
  rw [hawaits] at hp
  exact Bool.false_ne_true ((hadds w hw).symm.trans (isAdd_of_due hp))

/-- Concurrent writers never lose a recent turn. -/
theorem recent_turns_kept (R : RedisServer σ) (store : RedisSessionStore) (k : PyStr)
    (hpos : 1 ≤ store.maxTurns) (h : (system R store k).Reachable s) :
    R.lists s.server k <:+ s.pushed ∧
      min store.maxTurns.toNat s.pushed.length ≤ (R.lists s.server k).length ∧
      (R.lists s.server k).length ≤ store.maxTurns.toNat + s.pendingTrims ∧
      ((∀ w ∈ s.running, w.call.isAdd = false) →
        R.lists s.server k = s.pushed.rtake (min store.maxTurns.toNat s.pushed.length)) := by
  have hinv := Inv.reachable hpos h
  refine ⟨hinv.ends.suffix, hinv.ends.enough, hinv.ends.length_le, ?_⟩
  intro hadds
  have hends := hinv.ends
  rw [hinv.pendingTrims_eq_zero hadds] at hends
  exact hends.eq_rtake

/-- Two `add`s that both have pushed; the first has cut too. -/
theorem recent_turns_kept_pushed :
    ∃ s, (system .plain { maxTurns := 1, sessionTtl := 60 } (key [])).Reachable s ∧
      s.pendingTrims = 1 ∧ s.pushed.length = 2 ∧ (RedisServer.plain.lists s.server (key [])).length = 1 ∧
      RedisServer.plain.lists s.server (key []) <:+ s.pushed ∧
      min 1 s.pushed.length ≤ (RedisServer.plain.lists s.server (key [])).length ∧
      (RedisServer.plain.lists s.server (key [])).length ≤ 1 + s.pendingTrims ∧
      ((∀ w ∈ s.running, w.call.isAdd = false) →
        RedisServer.plain.lists s.server (key []) = s.pushed.rtake (min 1 s.pushed.length)) := by
  let R := RedisServer.plain
  let store : RedisSessionStore := { maxTurns := 1, sessionTtl := 60 }
  let empty : Writers Lists := { server := fun _ => [], pushed := [], running := [] }
  let c : SessionCall := .add [] (str "user") (str "hi") noon
  let d : SessionCall := .add [] (str "assistant") (str "hello") noon
  have h₀ : (system R store (key [])).Reachable empty := .of_init ⟨rfl, rfl, rfl⟩
  have h₁ := h₀.step (l := ()) (show Step R store (key []) empty _ from .start (c := c) rfl rfl)
  have h₂ := h₁.step (l := ()) (show Step R store (key []) _ _ from .start (c := d) rfl rfl)
  have h₃ := h₂.step (l := ()) (@Step.client _ _ _ _ _ [] [_] c _ rfl)
  have h₄ := h₃.step (l := ()) (@Step.client _ _ _ _ _ [_] [] d _ rfl)
  have h₅ := h₄.step (l := ()) (@Step.command _ _ _ _ _ [] [_] c _ _ rfl (by decide))
  have h₆ := h₅.step (l := ()) (@Step.command _ _ _ _ _ [_] [] d _ _ rfl (by decide))
  have h₇ := h₆.step (l := ()) (@Step.command _ _ _ _ _ [] [_] c _ _ rfl (by decide))
  exact ⟨_, h₇, rfl, rfl, rfl, recent_turns_kept R store (key []) (by decide) h₇⟩

end Writers

end VirtualPerson
