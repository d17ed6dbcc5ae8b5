import VirtualPerson.Machine
import VirtualPerson.Session.RedisStore

/-!
# The session backends compared

The service on Redis answers like the service in memory, and one user's calls leave the
answers to another's unchanged, up to ids and texts that Redis keys and JSON do not keep apart.
-/

namespace VirtualPerson

set_option autoImplicit false

open Redis RedisSessionStore

namespace Sessions

variable {σ : Type}

/-- One call on the service in front of a server. -/
def step (R : RedisServer σ) (c : SessionCall) (x : Sessions × σ) :
    Except PyExc SessionAnswer × Sessions × σ :=
  let r := Prog.exec R.serve (x.1.call c) x.2
  (r.1.map Prod.fst, (r.1.toOption.map Prod.snd).getD x.1, r.2)

def machine (R : RedisServer σ) :
    Machine (Sessions × σ) SessionCall (Except PyExc SessionAnswer) where
  step := step R

variable {R : RedisServer σ} {S : Sessions} {s : σ}

/-- The answers of a fresh service; `available` tells whether Redis is reachable. -/
def answers (R : RedisServer σ) (maxTurns sessionTtl : Int) (available : Bool) (s₀ : σ)
    (calls : List SessionCall) : List (Except PyExc SessionAnswer) :=
  (machine R).answers calls (init maxTurns sessionTtl (str "auto") available, s₀)

theorem step_inMemory (h : S.redis = none) (c : SessionCall) :
    step R c (S, s) =
      (.ok (S.inMemory.call c).1, { S with inMemory := (S.inMemory.call c).2 }, s) := by
  obtain ⟨inMemory, redis⟩ := S
  cases h
  rfl

theorem step_redis {store : RedisSessionStore} (h : S.redis = some store) (c : SessionCall) :
    (step R c (S, s)).1 = answer c (R.lists s) ∧ (step R c (S, s)).2.1 = S ∧
      R.lists (step R c (S, s)).2.2 = store.effect c (R.lists s) := by
  obtain ⟨hanswer, hlists⟩ := exec_call R store s c
  have hexec : Prog.exec R.serve (S.call c) s =
      Prog.exec R.serve (store.call c >>= fun answer => .ret (answer, S)) s := by
    unfold call
    rw [h]
    rfl
  unfold step
  dsimp only
  rw [hexec, Prog.exec_bind]
  revert hanswer hlists
  rcases Prog.exec R.serve (store.call c) s with ⟨r, t⟩
  rintro rfl hlists
  cases hr : answer c (R.lists s) with
  | ok a => exact ⟨rfl, rfl, hlists⟩
  | error e => exact ⟨rfl, rfl, hlists⟩

end Sessions

namespace SessionService

variable {α β : Type}

theorem trim_map (f : α → β) (maxTurns : Int) (xs : List α) :
    trim maxTurns (xs.map f) = (trim maxTurns xs).map f := by
  unfold trim
  rw [List.length_map]
  split
  · exact sliceFrom_map f (-maxTurns) xs
  · rfl

/-- `LTRIM key -max_turns -1` keeps what the slice keeps. -/
theorem range_eq_trim (maxTurns : Int) (xs : List α) : range (-maxTurns) (-1) xs = trim maxTurns xs := by
  have hall : xs.take ((xs.length : Int) + -1 + 1).toNat = xs := by
    apply List.take_of_length_le
    omega
  unfold range trim sliceFrom
  rw [if_pos (by decide : (-1 : Int) < 0)]
  dsimp only
  rw [hall]
  split <;> split
  · congr 1
    omega
  · rename_i hle
    have hzero : (max 0 ((xs.length : Int) + -maxTurns)).toNat = 0 := by omega
    rw [hzero, List.drop_zero]
  · rfl
  · rename_i hle
    have hzero : (-maxTurns).toNat = 0 := by omega
    rw [hzero, List.drop_zero]

theorem trim_eq_rtake {maxTurns : Int} (h : 1 ≤ maxTurns) (xs : List α) :
    trim maxTurns xs = xs.rtake maxTurns.toNat := by
  unfold trim
  split
  · exact sliceFrom_neg (by omega) xs
  · have hzero : xs.length - maxTurns.toNat = 0 := by omega
    rw [List.rtake, hzero, List.drop_zero]

end SessionService

namespace SessionCall

/-- The call with its user id stripped as for a Redis key. -/
def strip : SessionCall → SessionCall
  | .add userId role content now => .add (stripControl userId) role content now
  | .get userId limit => .get (stripControl userId) limit
  | .clear userId => .clear (stripControl userId)

/-- An `add` whose key the client can encode and whose texts come back from JSON as they were. -/
def Faithful : SessionCall → Bool
  | .add userId role content _ => encodes (key userId) && Json.Stable role && Json.Stable content
  | _ => true

end SessionCall

namespace RedisSessionStore

theorem key_inj {u v : PyStr} : key u = key v ↔ stripControl u = stripControl v :=
  List.append_right_inj (str "vp:sess:")

theorem effect_clear (store : RedisSessionStore) (userId : PyStr) (db : Lists) :
    store.effect (.clear userId) db =
      if encodes (key userId) then Function.update db (key userId) [] else db := rfl

theorem filterMap_of_map {ts : List SessionTurn} {raw : List PyStr}
    (h : raw.map decode = ts.map fun t => some (.ok t.toDict)) :
    raw.filterMap decode = ts.map fun t => .ok t.toDict := by
  have hsome := congrArg (List.filterMap id) h
  simpa [List.filterMap_map, Function.comp_def] using hsome

theorem mapM_ok (ds : List PyVal) :
    (ds.map fun d => (.ok d : Except PyExc PyVal)).mapM id = .ok ds := by
  induction ds with
  | nil => rfl
  | cons d ds ih =>
    rw [List.map_cons, List.mapM_cons, ih]
    rfl

/-- The lists of a server read as the histories in memory. -/
structure Mirrors (db : Lists) (m : SessionService) : Prop where
  stored : ∀ u, encodes (key u) = true →
    (db (key u)).map decode = (m.turnsOf (stripControl u)).map fun t => some (.ok t.toDict)
  unstored : ∀ u, encodes (key u) = false → m.turnsOf (stripControl u) = []

variable {store : RedisSessionStore} {db : Lists} {m : SessionService}

theorem Mirrors.answer_get (h : Mirrors db m) (userId : PyStr) (limit : Option Int) :
    answer (.get userId limit) db = .ok (m.call (.get (stripControl userId) limit)).1 := by
  have hraw : ((if encodes (key userId) then db (key userId) else []).filterMap decode).mapM id =
      .ok ((m.turnsOf (stripControl userId)).map SessionTurn.toDict) := by
    cases henc : encodes (key userId) with
    | true =>
      rw [if_pos rfl, filterMap_of_map (h.stored userId henc)]
      have := mapM_ok ((m.turnsOf (stripControl userId)).map SessionTurn.toDict)
      rwa [List.map_map] at this
    | false =>
      rw [if_neg (by decide), h.unstored userId henc]
      rfl
  have hmap := limited_map SessionTurn.toDict limit (m.turnsOf (stripControl userId))
  change Except.map _ _ = .ok (some ((limited limit _).map SessionTurn.toDict))
  rw [hraw, ← hmap]
  rfl

theorem Mirrors.add (h : Mirrors db m) (hmax : m.maxTurns = store.maxTurns)
    (hint : int64 (-store.maxTurns) = true) {userId role content : PyStr} {now : IsoTime}
    (hfaithful : (SessionCall.add userId role content now).Faithful = true) :
    Mirrors (store.effect (.add userId role content now) db)
      (m.add (stripControl userId) role content) := by
  simp only [SessionCall.Faithful, Bool.and_eq_true] at hfaithful
  obtain ⟨⟨henc, hrole⟩, hcontent⟩ := hfaithful
  have heffect : store.effect (.add userId role content now) db =
      Function.update db (key userId)
        (trimmed store.maxTurns (db (key userId) ++ [payloadText role content now])) :=
    if_pos (by rw [henc, encodes_payload now hrole hcontent]; rfl)
  rw [heffect]
  constructor
  · intro u hu
    rw [SessionService.turnsOf_add]
    by_cases hkey : key u = key userId
    · rw [if_pos (key_inj.mp hkey), hkey, Function.update_self, trimmed, if_pos hint,
        SessionService.range_eq_trim, ← SessionService.trim_map, ← SessionService.trim_map, hmax,
        List.map_append, List.map_append, h.stored userId henc, List.map_singleton,
        decode_payload now hrole hcontent]
      rfl
    · rw [if_neg (fun heq => hkey (key_inj.mpr heq)), Function.update_of_ne hkey]
      exact h.stored u hu
  · intro u hu
    have hne : stripControl u ≠ stripControl userId := by
      intro heq
      rw [key_inj.mpr heq, henc] at hu
      cases hu
    rw [SessionService.turnsOf_add, if_neg hne]
    exact h.unstored u hu

theorem Mirrors.clear (h : Mirrors db m) (userId : PyStr) :
    Mirrors (store.effect (.clear userId) db) (m.clear (stripControl userId)) := by
  constructor
  · intro u hu
    rw [SessionService.turnsOf_clear]
    by_cases hkey : key u = key userId
    · rw [effect_clear, if_pos (hkey ▸ hu), hkey, Function.update_self, if_pos (key_inj.mp hkey)]
      rfl
    · rw [if_neg (fun heq => hkey (key_inj.mpr heq)), effect_clear]
      split
      · rw [Function.update_of_ne hkey]
        exact h.stored u hu
      · exact h.stored u hu
  · intro u hu
    rw [SessionService.turnsOf_clear]
    split
    · rfl
    · exact h.unstored u hu

theorem Mirrors.step (h : Mirrors db m) (store : RedisSessionStore) (hmax : m.maxTurns = store.maxTurns)
    (hint : int64 (-store.maxTurns) = true) {c : SessionCall} (hc : c.Faithful = true) :
    answer c db = .ok (m.call c.strip).1 ∧ Mirrors (store.effect c db) (m.call c.strip).2 := by
  cases c with
  | add userId role content now => exact ⟨rfl, h.add hmax hint hc⟩
  | get userId limit => exact ⟨h.answer_get userId limit, h⟩
  | clear userId => exact ⟨rfl, h.clear userId⟩

end RedisSessionStore

/-- The last `limit` elements, all of them for `None` and 0; a negative limit leaves out the first. -/
def lastOf {α : Type} (limit : Option Int) (xs : List α) : List α :=
  match limit with
  | none => xs
  | some n => if n = 0 then xs else if 0 < n then xs.rtake n.toNat else xs.drop (-n).toNat

theorem limited_eq_lastOf {α : Type} (limit : Option Int) (xs : List α) :
    limited limit xs = lastOf limit xs := by
  cases limit with
  | none => rfl
  | some n =>
    unfold limited lastOf
    dsimp only
    split
    · rfl
    · split
      · rename_i hpos
        exact sliceFrom_neg hpos xs
      · rw [sliceFrom, if_neg (by omega)]

/-- The turns added for each user since the user's last clear. -/
abbrev HistoryLog := PyStr → List SessionTurn

/-- What the service is for: the last `limit` of the last `maxTurns` turns. -/
def historyLog (maxTurns : Int) : Machine HistoryLog SessionCall (Except PyExc SessionAnswer) where
  step
    | .add userId role content _, log =>
      (.ok none, Function.update log userId (log userId ++ [⟨role, content⟩]))
    | .get userId limit, log =>
      (.ok (some ((lastOf limit ((log userId).rtake maxTurns.toNat)).map SessionTurn.toDict)), log)
    | .clear userId, log => (.ok none, Function.update log userId [])

namespace SessionService

/-- The histories in memory are the ends of the logged ones. -/
structure Bounds (m : SessionService) (maxTurns : Int) (log : HistoryLog) : Prop where
  maxTurns_eq : m.maxTurns = maxTurns
  turns : ∀ u, m.turnsOf u = (log u).rtake maxTurns.toNat

theorem Bounds.step {m : SessionService} {maxTurns : Int} {log : HistoryLog} (h : Bounds m maxTurns log)
    (hpos : 1 ≤ maxTurns) (c : SessionCall) :
    Except.ok (m.call c).1 = ((historyLog maxTurns).step c log).1 ∧
      Bounds (m.call c).2 maxTurns ((historyLog maxTurns).step c log).2 := by
  cases c with
  | add userId role content now =>
    refine ⟨rfl, h.maxTurns_eq, ?_⟩
    intro u
    change (m.add userId role content).turnsOf u =
      (Function.update log userId (log userId ++ [⟨role, content⟩]) u).rtake maxTurns.toNat
    rw [turnsOf_add]
    by_cases hu : u = userId
    · rw [if_pos hu, hu, Function.update_self, h.maxTurns_eq, trim_eq_rtake hpos, h.turns,
        rtake_append_rtake]
    · rw [if_neg hu, Function.update_of_ne hu]
      exact h.turns u
  | get userId limit =>
    refine ⟨?_, h⟩
    change Except.ok (some ((limited limit (m.turnsOf userId)).map SessionTurn.toDict)) = _
    rw [h.turns, limited_eq_lastOf]
    rfl
  | clear userId =>
    refine ⟨rfl, h.maxTurns_eq, ?_⟩
    intro u
    change (m.clear userId).turnsOf u = (Function.update log userId [] u).rtake maxTurns.toNat
    rw [turnsOf_clear]
    by_cases hu : u = userId
    · rw [if_pos hu, hu, Function.update_self, List.rtake_nil]
    · rw [if_neg hu, Function.update_of_ne hu]
      exact h.turns u

end SessionService

theorem SessionService.call_maxTurns (m : SessionService) (c : SessionCall) :
    (m.call c).2.maxTurns = m.maxTurns := by
  cases c <;> rfl

section Agreement

variable {σ : Type} {R : RedisServer σ} {maxTurns sessionTtl : Int} {S S' : Sessions} {s s' s₀ : σ}

theorem inMemory_answers_log (hpos : 1 ≤ maxTurns) (hS : S.redis = none) {log : HistoryLog}
    (hbounds : S.inMemory.Bounds maxTurns log) (calls : List SessionCall) :
    (Sessions.machine R).answers calls (S, s) = (historyLog maxTurns).answers calls log := by
  have hsim : (Sessions.machine R).answers calls (S, s) =
      (historyLog maxTurns).answers (calls.map id) log := by
    apply Machine.answers_eq_of_simulation (fun _ => True)
      (fun x log => x.1.redis = none ∧ x.1.inMemory.Bounds maxTurns log) _ (fun _ _ => trivial)
      ⟨hS, hbounds⟩
    rintro c ⟨S, s⟩ log - ⟨hS, hbounds⟩
    obtain ⟨hanswer, hnext⟩ := hbounds.step hpos c
    change (Sessions.step R c (S, s)).1 = _ ∧ (Sessions.step R c (S, s)).2.1.redis = none ∧
      (Sessions.step R c (S, s)).2.1.inMemory.Bounds _ _
    rw [Sessions.step_inMemory hS]
    exact ⟨hanswer, hS, hnext⟩
  rwa [List.map_id] at hsim

/-- The service on Redis answers as the one whose histories its lists mirror. -/
theorem redis_answers_inMemory (hint : int64 (-maxTurns) = true) {calls : List SessionCall}
    (hcalls : ∀ c ∈ calls, c.Faithful = true) (hS : S.redis = some { maxTurns, sessionTtl })
    (hS' : S'.redis = none) (hmax : S'.inMemory.maxTurns = maxTurns)
    (hmirrors : Mirrors (R.lists s) S'.inMemory) :
    (Sessions.machine R).answers calls (S, s) =
      (Sessions.machine R).answers (calls.map SessionCall.strip) (S', s') := by
  apply Machine.answers_eq_of_simulation (fun c => c.Faithful = true)
    (fun x y => x.1.redis = some { maxTurns, sessionTtl } ∧ y.1.redis = none ∧
      y.1.inMemory.maxTurns = maxTurns ∧ Mirrors (R.lists x.2) y.1.inMemory) _ hcalls
    ⟨hS, hS', hmax, hmirrors⟩
  rintro c ⟨S, s⟩ ⟨S', s'⟩ hc ⟨hS, hS', hmax, hmirrors⟩
  obtain ⟨hanswer, hkeep, hlists⟩ := Sessions.step_redis (R := R) (s := s) hS c
  obtain ⟨hagree, hnext⟩ := hmirrors.step { maxTurns, sessionTtl } hmax hint hc
  change (Sessions.step R c (S, s)).1 = (Sessions.step R c.strip (S', s')).1 ∧
    (Sessions.step R c (S, s)).2.1.redis = _ ∧ (Sessions.step R c.strip (S', s')).2.1.redis = none ∧
    (Sessions.step R c.strip (S', s')).2.1.inMemory.maxTurns = _ ∧
    Mirrors (R.lists (Sessions.step R c (S, s)).2.2) (Sessions.step R c.strip (S', s')).2.1.inMemory
  rw [Sessions.step_inMemory hS', hanswer, hkeep, hlists]
  exact ⟨hagree, hS, hS', (SessionService.call_maxTurns _ _).trans hmax, hnext⟩

/-- Redis answers as the memory does, and from one turn on both answer from the log. -/
theorem redis_sessions_agree (R : RedisServer σ) (maxTurns sessionTtl : Int)
    (hint : int64 (-maxTurns) = true) {calls : List SessionCall}
    (hcalls : ∀ c ∈ calls, c.Faithful = true) {s₀ : σ} (h₀ : ∀ k, R.lists s₀ k = []) :
    Sessions.answers R maxTurns sessionTtl true s₀ calls =
        Sessions.answers R maxTurns sessionTtl false s₀ (calls.map SessionCall.strip) ∧
      (1 ≤ maxTurns →
        Sessions.answers R maxTurns sessionTtl true s₀ calls =
          (historyLog maxTurns).answers (calls.map SessionCall.strip) fun _ => []) := by
  have hempty : Mirrors (R.lists s₀) { maxTurns, history := [] } := by
    constructor
    · intro u _
      rw [h₀]
      rfl
    · intro u _
      rfl
  have hredis : Sessions.answers R maxTurns sessionTtl true s₀ calls =
      Sessions.answers R maxTurns sessionTtl false s₀ (calls.map SessionCall.strip) :=
    redis_answers_inMemory hint hcalls rfl rfl rfl hempty
  refine ⟨hredis, ?_⟩
  intro hpos
  have hbounds : SessionService.Bounds { maxTurns, history := [] } maxTurns fun _ => [] :=
    ⟨rfl, fun _ => (List.rtake_nil _).symm⟩
  exact hredis.trans (inMemory_answers_log hpos rfl hbounds _)

end Agreement

def noon : IsoTime := ⟨str "2026-01-01T12:00:00+00:00", by decide⟩

/-- How many turns an answer holds. -/
def turnCount : Except PyExc SessionAnswer → Nat
  | .ok (some turns) => turns.length
  | _ => 0

theorem redis_sessions_agree_hi :
    Sessions.answers .plain 2 60 true (fun _ => [])
        [.add (str "a\n") (str "user") (str "hi") noon, .get (str "a") none] =
      Sessions.answers .plain 2 60 false (fun _ => [])
        [.add (str "a") (str "user") (str "hi") noon, .get (str "a") none] ∧
    Sessions.answers .plain 2 60 true (fun _ => [])
        [.add (str "a\n") (str "user") (str "hi") noon, .get (str "a") none] =
      (historyLog 2).answers
        [.add (str "a") (str "user") (str "hi") noon, .get (str "a") none] fun _ => [] := by
  have hcalls : ∀ c ∈ [SessionCall.add (str "a\n") (str "user") (str "hi") noon, .get (str "a") none],
      c.Faithful = true := by decide
  have h := redis_sessions_agree .plain 2 60 (by decide) hcalls fun _ => rfl
  exact ⟨h.1, h.2 (by decide)⟩

/-- An id that is no UTF-8 text is remembered in memory and forgotten by Redis. -/
theorem not_sessions_agree :
    ¬ ∀ (maxTurns sessionTtl : Int) (calls : List SessionCall),
      Sessions.answers .plain maxTurns sessionTtl true (fun _ => []) calls =
        Sessions.answers .plain maxTurns sessionTtl false (fun _ => [])
          (calls.map SessionCall.strip) := by
  intro h
  have hcount := congrArg (List.map turnCount)
    (h 20 60 [.add [0xD800] (str "user") (str "hi") noon, .get [0xD800] none])
  revert hcount
  decide

end VirtualPerson
