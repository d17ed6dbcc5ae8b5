import VirtualPerson.Session.Backends

/-!
# Isolation of users

What one user reads does not depend on another's calls: always in memory, and on Redis
exactly where the two ids do not share a list that holds anything.
-/

namespace VirtualPerson

set_option autoImplicit false

open Redis RedisSessionStore

namespace SessionCall

def reads (u : PyStr) : SessionCall → Bool
  | .get userId _ => userId = u
  | _ => false

theorem userId_of_reads {u : PyStr} {c : SessionCall} (h : c.reads u = true) :
    ∃ limit, c = .get u limit := by
  cases c with
  | get userId limit => exact ⟨limit, by rw [of_decide_eq_true h]⟩
  | add userId role content now => cases h
  | clear userId => cases h

end SessionCall

/-- What `u` reads is the same with all the calls of `v` removed. -/
def Sessions.Isolated {σ : Type} (R : RedisServer σ) (maxTurns sessionTtl : Int) (available : Bool)
    (s₀ : σ) (u v : PyStr) : Prop :=
  let start := (init maxTurns sessionTtl (str "auto") available, s₀)
  ∀ calls : List SessionCall,
    (machine R).observed (SessionCall.reads u) calls start =
      (machine R).observed (SessionCall.reads u) (calls.filter fun c => !(c.userId == v)) start

namespace SessionService

theorem turnsOf_call_ne {m : SessionService} {c : SessionCall} {u : PyStr} (h : c.userId ≠ u) :
    (m.call c).2.turnsOf u = m.turnsOf u := by
  cases c with
  | add userId role content now => exact (turnsOf_add m userId role content u).trans (if_neg (Ne.symm h))
  | get userId limit => rfl
  | clear userId => exact (turnsOf_clear m userId u).trans (if_neg (Ne.symm h))

/-- Two services with the same history of one user. -/
structure SameFor (u : PyStr) (m m' : SessionService) : Prop where
  maxTurns_eq : m.maxTurns = m'.maxTurns
  turns_eq : m.turnsOf u = m'.turnsOf u

theorem SameFor.call {u : PyStr} {m m' : SessionService} (h : SameFor u m m') (c : SessionCall) :
    SameFor u (m.call c).2 (m'.call c).2 := by
  refine ⟨?_, ?_⟩
  · rw [call_maxTurns, call_maxTurns, h.maxTurns_eq]
  · by_cases hu : c.userId = u
    · cases c with
      | add userId role content now =>
        cases hu
        have hturns : m.turnsOf userId = m'.turnsOf userId := h.turns_eq
        change (m.add userId role content).turnsOf userId = (m'.add userId role content).turnsOf userId
        rw [turnsOf_add, turnsOf_add, h.maxTurns_eq, hturns]
      | get userId limit => exact h.turns_eq
      | clear userId =>
        cases hu
        change (m.clear userId).turnsOf userId = (m'.clear userId).turnsOf userId
        rw [turnsOf_clear, turnsOf_clear, if_pos rfl, if_pos rfl]
    · rw [turnsOf_call_ne hu, turnsOf_call_ne hu, h.turns_eq]

end SessionService

namespace Sessions

variable {σ : Type} {R : RedisServer σ} {maxTurns sessionTtl : Int} {s₀ : σ} {u v : PyStr}

theorem isolated_inMemory (huv : u ≠ v) : Isolated R maxTurns sessionTtl false s₀ u v := by
  intro calls
  apply Machine.observed_filter fun x y => x.1.redis = none ∧ y.1.redis = none ∧
    SessionService.SameFor u x.1.inMemory y.1.inMemory
  · rintro c ⟨S, s⟩ y hc ⟨hS, hy, hsame⟩
    have hne : c.userId ≠ u := fun heq => huv (heq.symm.trans (beq_iff_eq.mp hc))
    change (step R c (S, s)).2.1.redis = none ∧ y.1.redis = none ∧
      SessionService.SameFor u (step R c (S, s)).2.1.inMemory y.1.inMemory
    rw [step_inMemory hS]
    exact ⟨hS, hy, (SessionService.call_maxTurns _ c).trans hsame.maxTurns_eq,
      (SessionService.turnsOf_call_ne hne).trans hsame.turns_eq⟩
  · rintro c ⟨S, s⟩ ⟨S', s'⟩ ⟨hS, hS', hsame⟩
    change (step R c (S, s)).2.1.redis = none ∧ (step R c (S', s')).2.1.redis = none ∧
      SessionService.SameFor u (step R c (S, s)).2.1.inMemory (step R c (S', s')).2.1.inMemory
    rw [step_inMemory hS, step_inMemory hS']
    exact ⟨hS, hS', hsame.call c⟩
  · rintro c ⟨S, s⟩ ⟨S', s'⟩ hc ⟨hS, hS', hsame⟩
    obtain ⟨limit, rfl⟩ := SessionCall.userId_of_reads hc
    refine ⟨beq_eq_false_iff_ne.mpr huv, ?_⟩
    change (step R _ (S, s)).1 = (step R _ (S', s')).1
    rw [step_inMemory hS, step_inMemory hS']
    change Except.ok (some ((limited limit (S.inMemory.turnsOf u)).map SessionTurn.toDict)) = _
    rw [hsame.turns_eq]
    rfl
  · exact ⟨rfl, rfl, rfl, rfl⟩

/-- A relation between two lists at the key of `u` that every call keeps. -/
theorem isolated_redis (rel : List PyStr → List PyStr → Prop) (huv : u ≠ v)
    (h₀ : rel (R.lists s₀ (key u)) (R.lists s₀ (key u)))
    (hhidden : ∀ c db xs, c.userId = v → rel (db (key u)) xs →
      rel (RedisSessionStore.effect { maxTurns, sessionTtl } c db (key u)) xs)
    (hstep : ∀ c db db', rel (db (key u)) (db' (key u)) →
      rel (RedisSessionStore.effect { maxTurns, sessionTtl } c db (key u))
        (RedisSessionStore.effect { maxTurns, sessionTtl } c db' (key u)))
    (hread : ∀ xs ys, rel xs ys → xs = ys) : Isolated R maxTurns sessionTtl true s₀ u v := by
  intro calls
  let store : RedisSessionStore := { maxTurns, sessionTtl }
  apply Machine.observed_filter fun x y => x.1.redis = some store ∧ y.1.redis = some store ∧
    rel (R.lists x.2 (key u)) (R.lists y.2 (key u))
  · rintro c ⟨S, s⟩ y hc ⟨hS, hy, hrel⟩
    obtain ⟨-, hkeep, hlists⟩ := step_redis (R := R) (s := s) hS c
    change (step R c (S, s)).2.1.redis = some store ∧ y.1.redis = some store ∧
      rel (R.lists (step R c (S, s)).2.2 (key u)) (R.lists y.2 (key u))
    rw [hkeep, hlists]
    exact ⟨hS, hy, hhidden c _ _ (beq_iff_eq.mp hc) hrel⟩
  · rintro c ⟨S, s⟩ ⟨S', s'⟩ ⟨hS, hS', hrel⟩
    obtain ⟨-, hkeep, hlists⟩ := step_redis (R := R) (s := s) hS c
    obtain ⟨-, hkeep', hlists'⟩ := step_redis (R := R) (s := s') hS' c
    change (step R c (S, s)).2.1.redis = some store ∧ (step R c (S', s')).2.1.redis = some store ∧
      rel (R.lists (step R c (S, s)).2.2 (key u)) (R.lists (step R c (S', s')).2.2 (key u))
    rw [hkeep, hlists, hkeep', hlists']
    exact ⟨hS, hS', hstep c _ _ hrel⟩
  · rintro c ⟨S, s⟩ ⟨S', s'⟩ hc ⟨hS, hS', hrel⟩
    obtain ⟨limit, rfl⟩ := SessionCall.userId_of_reads hc
    refine ⟨beq_eq_false_iff_ne.mpr huv, ?_⟩
    change (step R _ (S, s)).1 = (step R _ (S', s')).1
    rw [(step_redis hS _).1, (step_redis hS' _).1]
    unfold answer
    dsimp only
    rw [hread _ _ hrel]
  · exact ⟨rfl, rfl, h₀⟩

end Sessions

namespace RedisSessionStore

variable {store : RedisSessionStore} {c : SessionCall} {db db' : Lists} {k : PyStr}

theorem trimmed_singleton {maxTurns : Int} (h : int64 (-maxTurns) = true → 0 ≤ maxTurns) (x : PyStr) :
    trimmed maxTurns [x] = [x] := by
  unfold trimmed
  split
  · rename_i hint
    have hnonneg := h hint
    rw [SessionService.range_eq_trim, SessionService.trim]
    split
    · rename_i hlt
      have hlt : maxTurns < 1 := hlt
      have hzero : maxTurns = 0 := by omega
      rw [hzero]
      rfl
    · rfl
  · rfl

theorem trimmed_singleton_of_neg {maxTurns : Int} (hint : int64 (-maxTurns) = true)
    (hneg : maxTurns < 0) (x : PyStr) : trimmed maxTurns [x] = [] := by
  have hlen : ([x].length : Int) = 1 := rfl
  rw [trimmed, if_pos hint, SessionService.range_eq_trim, SessionService.trim, if_pos (by omega),
    sliceFrom, if_neg (by omega)]
  apply List.drop_eq_nil_of_le
  omega

theorem effect_add (store : RedisSessionStore) (userId role content : PyStr) (now : IsoTime)
    (db : Lists) :
    store.effect (.add userId role content now) db =
      if encodes (key userId) && encodes (payloadText role content now) then
        Function.update db (key userId)
          (trimmed store.maxTurns (db (key userId) ++ [payloadText role content now]))
      else db := rfl

theorem effect_ne (h : key c.userId ≠ k) : store.effect c db k = db k := by
  cases c with
  | add userId role content now =>
    rw [effect_add]
    split
    · exact Function.update_of_ne (Ne.symm h) _ _
    · rfl
  | get userId limit => rfl
  | clear userId =>
    rw [effect_clear]
    split
    · exact Function.update_of_ne (Ne.symm h) _ _
    · rfl

theorem effect_of_not_encodes (h : encodes (key c.userId) = false) : store.effect c db = db := by
  cases c with
  | add userId role content now =>
    rw [effect_add]
    apply if_neg
    simp [show encodes (key userId) = false from h]
  | get userId limit => rfl
  | clear userId =>
    rw [effect_clear]
    exact if_neg (by simp [show encodes (key userId) = false from h])

theorem effect_congr (h : db k = db' k) : store.effect c db k = store.effect c db' k := by
  by_cases hk : key c.userId = k
  · cases c with
    | add userId role content now =>
      cases hk
      have h : db (key userId) = db' (key userId) := h
      rw [effect_add, effect_add, h]
      split
      · simp [SessionCall.userId]
      · exact h
    | get userId limit => exact h
    | clear userId =>
      cases hk
      rw [effect_clear, effect_clear]
      split
      · simp [SessionCall.userId]
      · exact h
  · rw [effect_ne hk, effect_ne hk, h]

theorem effect_eq_nil (hint : int64 (-store.maxTurns) = true) (hneg : store.maxTurns < 0)
    (h : db k = []) : store.effect c db k = [] := by
  by_cases hk : key c.userId = k
  · cases c with
    | add userId role content now =>
      cases hk
      have h : db (key userId) = [] := h
      change store.effect _ db (key userId) = []
      rw [effect_add]
      split
      · rw [Function.update_self, h, List.nil_append, trimmed_singleton_of_neg hint hneg]
      · exact h
    | get userId limit => exact h
    | clear userId =>
      cases hk
      change store.effect _ db (key userId) = []
      rw [effect_clear]
      split
      · exact Function.update_self _ _ _
      · exact h
  · rw [effect_ne hk, h]

end RedisSessionStore

namespace Sessions

variable {σ : Type} {R : RedisServer σ} {maxTurns sessionTtl : Int} {s₀ : σ} {u v : PyStr}

theorem isolated_of_unshared (huv : u ≠ v) (h : key u ≠ key v ∨ encodes (key v) = false) :
    Isolated R maxTurns sessionTtl true s₀ u v := by
  apply isolated_redis Eq huv rfl
  · intro c db xs hc hrel
    rw [← hrel]
    rcases h with hne | hencodes
    · exact effect_ne (by rw [hc]; exact Ne.symm hne)
    · rw [effect_of_not_encodes (by rw [hc]; exact hencodes)]
  · intro c db db' hrel
    exact effect_congr hrel
  · intro xs ys hrel
    exact hrel

theorem isolated_of_neg (huv : u ≠ v) (h₀ : ∀ k, R.lists s₀ k = []) (hint : int64 (-maxTurns) = true)
    (hneg : maxTurns < 0) : Isolated R maxTurns sessionTtl true s₀ u v := by
  apply isolated_redis (fun xs ys => xs = [] ∧ ys = []) huv ⟨h₀ _, h₀ _⟩
  · rintro c db xs - ⟨hdb, hxs⟩
    exact ⟨effect_eq_nil hint hneg hdb, hxs⟩
  · rintro c db db' ⟨hdb, hdb'⟩
    exact ⟨effect_eq_nil hint hneg hdb, effect_eq_nil hint hneg hdb'⟩
  · rintro xs ys ⟨rfl, rfl⟩
    rfl

/-- On a shared list that keeps what is added, `u` reads what `v` said. -/
theorem not_isolated_of_shared (huv : u ≠ v) (h₀ : ∀ k, R.lists s₀ k = []) (hkey : key u = key v)
    (hencodes : encodes (key v) = true) (hkept : int64 (-maxTurns) = true → 0 ≤ maxTurns) :
    ¬ Isolated R maxTurns sessionTtl true s₀ u v := by
  intro h
  let store : RedisSessionStore := { maxTurns, sessionTtl }
  let said : SessionCall := .add v (str "user") (str "hi") noon
  let text := payloadText (str "user") (str "hi") noon
  let S := init maxTurns sessionTtl (str "auto") true
  have hS : S.redis = some store := rfl
  have hcalls := h [said, .get u none]
  -- the list that both ids share holds the one turn
  have hlist : store.effect said (R.lists s₀) (key u) = [text] := by
    rw [effect_add, if_pos (by rw [hencodes]; decide), hkey, Function.update_self, h₀]
    exact RedisSessionStore.trimmed_singleton hkept text
  obtain ⟨-, hkeep, hlists⟩ := step_redis (R := R) (s := s₀) hS said
  have hdecode : decode text = some (.ok (SessionTurn.toDict ⟨str "user", str "hi"⟩)) :=
    decode_payload noon (by decide) (by decide)
  have hwith : ((machine R).step (.get u none) ((machine R).step said (S, s₀)).2).1 =
      .ok (some [SessionTurn.toDict ⟨str "user", str "hi"⟩]) := by
    have hnext : (step R said (S, s₀)).2.1.redis = some store :=
      (congrArg Sessions.redis hkeep).trans hS
    change (step R (.get u none) ((step R said (S, s₀)).2.1, (step R said (S, s₀)).2.2)).1 = _
    rw [(step_redis hnext _).1, hlists, answer, hkey, if_pos hencodes, ← hkey, hlist,
      List.filterMap_cons_some hdecode]
    rfl
  have hwithout : ((machine R).step (.get u none) (S, s₀)).1 = .ok (some []) := by
    change (step R (.get u none) (S, s₀)).1 = _
    rw [(step_redis hS _).1, answer, hkey, if_pos hencodes, h₀]
    rfl
  have hreads : SessionCall.reads u (.get u none) = true := decide_eq_true rfl
  have hsaid : (said.userId == v) = true := beq_self_eq_true v
  have hother : ((SessionCall.get u none).userId == v) = false := beq_eq_false_iff_ne.mpr huv
  rw [List.filter_cons_of_neg (by simp [hsaid]), List.filter_cons_of_pos (by simp [hother])] at hcalls
  have hadds : SessionCall.reads u said = false := rfl
  simp only [Machine.observed, hadds, hreads, Bool.false_eq_true, if_false, if_true,
    List.filter_nil] at hcalls
  rw [List.cons.injEq, hwith, hwithout] at hcalls
  cases hcalls.1

theorem isolated_iff (R : RedisServer σ) (maxTurns sessionTtl : Int) (h₀ : ∀ k, R.lists s₀ k = [])
    (huv : u ≠ v) :
    Isolated R maxTurns sessionTtl false s₀ u v ∧
      (Isolated R maxTurns sessionTtl true s₀ u v ↔
        key u ≠ key v ∨ encodes (key v) = false ∨ (int64 (-maxTurns) = true ∧ maxTurns < 0)) := by
  refine ⟨isolated_inMemory huv, ?_, ?_⟩
  · intro h
    by_contra hcond
    rw [not_or, not_or, not_not, Bool.not_eq_false] at hcond
    obtain ⟨hkey, hencodes, hkept⟩ := hcond
    apply not_isolated_of_shared huv h₀ hkey hencodes _ h
    intro hint
    by_contra hneg
    exact hkept ⟨hint, Int.not_le.mp hneg⟩
  · intro h
    rcases h with hne | hencodes | ⟨hint, hneg⟩
    · exact isolated_of_unshared huv (.inl hne)
    · exact isolated_of_unshared huv (.inr hencodes)
    · exact isolated_of_neg huv h₀ hint hneg

theorem isolated_iff_alice :
    Isolated .plain 20 60 false (fun _ => []) (str "alice") (str "bob") ∧
      (Isolated .plain 20 60 true (fun _ => []) (str "alice") (str "bob") ↔
        key (str "alice") ≠ key (str "bob") ∨ encodes (key (str "bob")) = false ∨
          (int64 (-20) = true ∧ (20 : Int) < 0)) :=
  isolated_iff .plain 20 60 (fun _ => rfl) (by decide)

/-- The ids "a" and "a" with a line end share one list. -/
theorem not_isolated :
    ¬ ∀ u v : PyStr, u ≠ v → Isolated .plain 20 60 true (fun _ => []) u v := by
  intro h
  have hkept : int64 (-20) = true → (0 : Int) ≤ 20 := by decide
  exact not_isolated_of_shared (u := str "a") (v := str "a\n") (by decide) (fun _ => rfl) (by decide)
    (by decide) hkept (h _ _ (by decide))

end Sessions

end VirtualPerson
