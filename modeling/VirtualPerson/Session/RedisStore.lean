import VirtualPerson.Infra.Redis
import VirtualPerson.Python.JsonRoundTrip
import VirtualPerson.Session.Service

/-!
# The Redis session store

`RedisSessionStore` as programs over Redis commands, `SessionService` in front of it, and
what each call does to the lists of a server.
-/

namespace VirtualPerson

set_option autoImplicit false

open Redis

structure RedisSessionStore where
  maxTurns : Int
  /-- `config.session_ttl` -/
  sessionTtl : Int

namespace RedisSessionStore

/-- `_CONTROL_RE.sub("", user_id)` -/
def stripControl (userId : PyStr) : PyStr := userId.filter fun c => !(c ≤ 0x1F || c == 0x7F)

def key (userId : PyStr) : PyStr := str "vp:sess:" ++ stripControl userId

/-- `json.dumps` of a turn; no float occurs in it. -/
def payload (role content : PyStr) (now : IsoTime) : Except PyExc PyStr :=
  match Json.dumps (fun _ => []) true
      (.dict [(str "role", .str role), (str "content", .str content), (str "at", .str now.1)]) with
  | some text => .ok text
  | none => .error .typeError

def add (store : RedisSessionStore) (userId role content : PyStr) (now : IsoTime) : RedisM Unit := do
  if ← client then
    let text ← Prog.lift (payload role content now)
    failSoft () do
      let _ ← command (.rpush (key userId) text)
      let _ ← command (.ltrim (key userId) (-store.maxTurns) (-1))
      let _ ← command (.expire (key userId) store.sessionTtl)
      return ()
  else return ()

/-- One element of the list; `none` where it is skipped. -/
def decode (item : PyStr) : Option (Except PyExc PyVal) :=
  match Json.loads item with
  | none => none
  | some (.dict d) =>
    some (.ok (.dict [(str "role", PyDict.getD d (str "role") .pyNone),
      (str "content", PyDict.getD d (str "content") .pyNone)]))
  -- `d.get` on anything but a dict
  | some _ => some (.error .attributeError)

def get (_ : RedisSessionStore) (userId : PyStr) (limit : Option Int) : RedisM (List PyVal) := do
  if ← client then
    let raw ← failSoft [] (command (.lrange (key userId) 0 (-1)))
    let turns ← Prog.lift ((raw.filterMap decode).mapM id)
    return limited limit turns
  else return []

def clear (_ : RedisSessionStore) (userId : PyStr) : RedisM Unit := do
  if ← client then
    failSoft () do
      let _ ← command (.delete (key userId))
      return ()
  else return ()

def call (store : RedisSessionStore) : SessionCall → RedisM SessionAnswer
  | .add userId role content now => do
    store.add userId role content now
    return none
  | .get userId limit => do
    let turns ← store.get userId limit
    return some turns
  | .clear userId => do
    store.clear userId
    return none

def payloadText (role content : PyStr) (now : IsoTime) : PyStr :=
  [0x7B] ++ List.intercalate (str ", ") [Json.entry true (str "role") (Json.quote true role),
    Json.entry true (str "content") (Json.quote true content),
    Json.entry true (str "at") (Json.quote true now.1)] ++ [0x7D]

theorem decode_payload {role content : PyStr} (now : IsoTime) (hrole : Json.Stable role = true)
    (hcontent : Json.Stable content = true) :
    decode (payloadText role content now) = some (.ok (SessionTurn.toDict ⟨role, content⟩)) := by
  let turn : PyVal :=
    .dict [(str "role", .str role), (str "content", .str content), (str "at", .str now.1)]
  have hkeys : [str "role", str "content", str "at"].Nodup := by decide
  have hplain : Json.Plain turn = true := by
    simp only [turn, Json.Plain, Json.plainEntries, List.map_cons, List.map_nil, hkeys, hrole,
      hcontent, Json.Stable.of_ascii now.2]
    decide
  have hdumps : Json.dumps (fun _ => []) true turn = some (payloadText role content now) := rfl
  rw [decode, Json.loads_dumps hplain hdumps]
  rfl

theorem encodes_payload {role content : PyStr} (now : IsoTime) (hrole : Json.Stable role = true)
    (hcontent : Json.Stable content = true) : encodes (payloadText role content now) = true := by
  apply encodes_of_ascii
  have h₁ := Json.quote_ascii (Json.Stable.lt hrole)
  have h₂ := Json.quote_ascii (Json.Stable.lt hcontent)
  have h₃ := Json.quote_ascii (s := now.1) (fun c hc => by have := now.2 c hc; omega)
  simp only [payloadText, Json.entry, List.intercalate_cons_cons, List.intercalate_singleton,
    List.forall_mem_append]
  and_intros
  all_goals first | exact h₁ | exact h₂ | exact h₃ | decide

/-- What the `LTRIM` of an `add` leaves of a list. -/
def trimmed (maxTurns : Int) (xs : List PyStr) : List PyStr :=
  if int64 (-maxTurns) then range (-maxTurns) (-1) xs else xs

/-- What a call does to the lists of a server. -/
def effect (store : RedisSessionStore) : SessionCall → Lists → Lists
  | .add userId role content now, db =>
    let text := payloadText role content now
    if encodes (key userId) && encodes text then
      Function.update db (key userId) (trimmed store.maxTurns (db (key userId) ++ [text]))
    else db
  | .get _ _, db => db
  | .clear userId, db => if encodes (key userId) then Function.update db (key userId) [] else db

def answer : SessionCall → Lists → Except PyExc SessionAnswer
  | .get userId limit, db =>
    let raw := if encodes (key userId) then db (key userId) else []
    ((raw.filterMap decode).mapM id).map fun turns => some (limited limit turns)
  | _, _ => .ok none

section Exec

variable {σ : Type} (R : RedisServer σ) (store : RedisSessionStore) (s : σ)

theorem exec_add (userId role content : PyStr) (now : IsoTime) :
    (Prog.exec R.serve (store.add userId role content now) s).1 = .ok () ∧
      R.lists (Prog.exec R.serve (store.add userId role content now) s).2 =
        store.effect (.add userId role content now) (R.lists s) := by
  let text := payloadText role content now
  let k := key userId
  have hadd : Prog.exec R.serve (store.add userId role content now) s =
      Prog.exec R.serve (failSoft () do
        let _ ← command (.rpush k text)
        let _ ← command (.ltrim k (-store.maxTurns) (-1))
        let _ ← command (.expire k store.sessionTtl)
        return ()) s := by
    rw [add, exec_client]
    rfl
  rw [hadd]
  cases hpush : (RedisCommand.rpush k text).sendable with
  | false =>
    have heffect : store.effect (.add userId role content now) (R.lists s) = R.lists s :=
      if_neg (by simpa [RedisCommand.sendable, k, text] using hpush)
    rw [exec_failSoft_refused hpush, heffect]
    exact ⟨rfl, (R.refuses _ s hpush).2⟩
  | true =>
    have hlists := (R.accepts _ s hpush).2
    have heffect : store.effect (.add userId role content now) (R.lists s) =
        Function.update (R.lists s) k (trimmed store.maxTurns (R.lists s k ++ [text])) := if_pos hpush
    have hk : encodes k = true := (Bool.and_eq_true_iff.mp hpush).1
    rw [exec_failSoft_accepted hpush, heffect]
    cases htrim : (RedisCommand.ltrim k (-store.maxTurns) (-1)).sendable with
    | false =>
      have hkept : trimmed store.maxTurns (R.lists s k ++ [text]) = R.lists s k ++ [text] := by
        apply if_neg
        intro hint
        have hsend : (RedisCommand.ltrim k (-store.maxTurns) (-1)).sendable = true := by
          rw [RedisCommand.sendable, hk, hint]
          rfl
        exact absurd (hsend.symm.trans htrim) (by decide)
      rw [exec_failSoft_refused htrim, hkept, (R.refuses _ _ htrim).2]
      exact ⟨rfl, hlists⟩
    | true =>
      have hint : int64 (-store.maxTurns) = true :=
        (Bool.and_eq_true_iff.mp (Bool.and_eq_true_iff.mp htrim).1).2
      rw [exec_failSoft_accepted htrim]
      obtain ⟨hok, hlast⟩ := exec_failSoft_last (R := R) (.expire k store.sessionTtl) _
      refine ⟨hok, hlast.trans ?_⟩
      rw [(R.accepts _ _ htrim).2, hlists]
      simp [RedisCommand.effect, trimmed, hint]

theorem exec_lift (r : Except PyExc (List PyVal)) (limit : Option Int) (t : σ) :
    Prog.exec R.serve (Prog.lift r >>= fun turns => .ret (limited limit turns)) t =
      (r.map (limited limit), t) := by
  cases r <;> rfl

theorem exec_get (userId : PyStr) (limit : Option Int) :
    (Prog.exec R.serve (store.get userId limit) s).1 =
        (((if encodes (key userId) then R.lists s (key userId) else []).filterMap decode).mapM id).map
          (limited limit) ∧
      R.lists (Prog.exec R.serve (store.get userId limit) s).2 = R.lists s := by
  let c : RedisCommand := .lrange (key userId) 0 (-1)
  have hget : Prog.exec R.serve (store.get userId limit) s =
      Prog.exec R.serve (failSoft [] (command c) >>= fun raw =>
        Prog.lift ((raw.filterMap decode).mapM id) >>= fun turns => .ret (limited limit turns)) s := by
    rw [get, exec_client]
    rfl
  have hc : c.sendable = encodes (key userId) := by
    have hints : (int64 0 && int64 (-1)) = true := by decide
    change (encodes (key userId) && int64 0 && int64 (-1)) = _
    rw [Bool.and_assoc, hints, Bool.and_true]
  rw [hget, Prog.exec_bind, ← command_bind_ret]
  cases hsend : c.sendable with
  | true =>
    rw [exec_failSoft_accepted hsend, exec_failSoft_ret, ← hc, if_pos hsend]
    dsimp only
    rw [exec_lift]
    refine ⟨?_, (R.accepts c s hsend).2⟩
    change Except.map _ (((range 0 (-1) (R.lists s (key userId))).filterMap decode).mapM id) = _
    rw [range_zero_neg_one]
  | false =>
    rw [exec_failSoft_refused hsend, ← hc, if_neg (by simp [hsend])]
    dsimp only
    rw [exec_lift]
    exact ⟨rfl, (R.refuses c s hsend).2⟩

theorem exec_call (c : SessionCall) :
    (Prog.exec R.serve (store.call c) s).1 = answer c (R.lists s) ∧
      R.lists (Prog.exec R.serve (store.call c) s).2 = store.effect c (R.lists s) := by
  cases c with
  | add userId role content now =>
    obtain ⟨hok, hlists⟩ := exec_add R store s userId role content now
    rw [call, Prog.exec_bind]
    revert hok hlists
    rcases Prog.exec R.serve (store.add userId role content now) s with ⟨r, t⟩
    rintro rfl hlists
    exact ⟨rfl, hlists⟩
  | get userId limit =>
    obtain ⟨hget, hlists⟩ := exec_get R store s userId limit
    rw [call, Prog.exec_bind, answer]
    revert hget hlists
    generalize (List.filterMap decode _).mapM id = turns
    rcases Prog.exec R.serve (store.get userId limit) s with ⟨r, t⟩
    rintro rfl hlists
    cases turns <;> exact ⟨rfl, hlists⟩
  | clear userId =>
    have hclear : Prog.exec R.serve (store.clear userId) s =
        Prog.exec R.serve (failSoft () (command (.delete (key userId)) >>= fun _ => .ret ())) s := by
      rw [clear, exec_client]
      rfl
    obtain ⟨hok, hlists⟩ := exec_failSoft_last (R := R) (.delete (key userId)) s
    rw [← hclear] at hok hlists
    rw [call, Prog.exec_bind]
    revert hok hlists
    rcases Prog.exec R.serve (store.clear userId) s with ⟨r, t⟩
    rintro rfl hlists
    exact ⟨rfl, hlists⟩

end Exec

end RedisSessionStore

/-- `SessionService` with the backend that `_init_redis` chose. -/
structure Sessions where
  inMemory : SessionService
  redis : Option RedisSessionStore

namespace Sessions

/-- `__init__`; `available` is `redis_available()`. -/
def init (maxTurns sessionTtl : Int) (sessionBackend : PyStr) (available : Bool) : Sessions where
  inMemory := { maxTurns, history := [] }
  redis :=
    if sessionBackend = str "auto" ∨ sessionBackend = str "redis" then
      if available then some { maxTurns, sessionTtl } else none
    else none

def call (S : Sessions) (c : SessionCall) : RedisM (SessionAnswer × Sessions) :=
  match S.redis with
  | some store => do
    let answer ← store.call c
    return (answer, S)
  | none =>
    let r := S.inMemory.call c
    return (r.1, { S with inMemory := r.2 })

end Sessions

end VirtualPerson
