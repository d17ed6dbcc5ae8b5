import Mathlib.Logic.Function.Basic
import VirtualPerson.Program
import VirtualPerson.Python.Value

/-!
# Redis lists

The list commands the stores send, and what a reachable server does with them. A server is
known only by the lists it keeps; no key expires.
-/

namespace VirtualPerson

set_option autoImplicit false

inductive RedisCommand where
  | rpush (key value : PyStr)
  | ltrim (key : PyStr) (start stop : Int)
  | expire (key : PyStr) (seconds : Int)
  | lrange (key : PyStr) (start stop : Int)
  | delete (key : PyStr)

inductive RedisOp where
  /-- `get_sync_redis(decode=True)`; answered `false` where it returns `None`. -/
  | client
  | command (c : RedisCommand)

abbrev RedisOp.Ans : RedisOp → Type
  | .client => Bool
  | .command _ => Except PyExc (List PyStr)

abbrev redisSig : Sig where
  Op := RedisOp
  Ans := RedisOp.Ans

abbrev RedisM (α : Type) := Prog redisSig PyExc α

namespace Redis

def client : RedisM Bool := .op .client .ret

def command (c : RedisCommand) : RedisM (List PyStr) := .op (.command c) .lift

/-- `try: p except Exception: return default` -/
def failSoft {α : Type} (default : α) (p : RedisM α) : RedisM α :=
  p.catching fun e => if e.isException then .ret default else .raise e

abbrev Lists := PyStr → List PyStr

/-- The elements at `start` to `stop`, both counted from the end where negative. -/
def range {α : Type} (start stop : Int) (xs : List α) : List α :=
  let first := if start < 0 then max 0 (xs.length + start) else start
  let last := if stop < 0 then xs.length + stop else stop
  (xs.take (last + 1).toNat).drop first.toNat

/-- Whether `s.encode("utf-8")` succeeds. -/
def encodes (s : PyStr) : Bool := s.all fun c => c < 0xD800 || (0xE000 ≤ c && c < 0x110000)

def int64 (i : Int) : Bool := -0x8000000000000000 ≤ i && i < 0x8000000000000000

end Redis

namespace RedisCommand

open Redis

/-- The client can encode the command and the server reads its integers. -/
def sendable : RedisCommand → Bool
  | .rpush k v => encodes k && encodes v
  | .ltrim k start stop => encodes k && int64 start && int64 stop
  | .expire k seconds => encodes k && int64 seconds
  | .lrange k start stop => encodes k && int64 start && int64 stop
  | .delete k => encodes k

def effect : RedisCommand → Lists → Lists
  | .rpush k v, db => Function.update db k (db k ++ [v])
  | .ltrim k start stop, db => Function.update db k (range start stop (db k))
  | .delete k, db => Function.update db k []
  | .expire _ _, db => db
  | .lrange _ _ _, db => db

def reply : RedisCommand → Lists → List PyStr
  | .lrange k start stop, db => range start stop (db k)
  | _, _ => []

end RedisCommand

/-- A reachable server and its client library. -/
structure RedisServer (σ : Type) where
  serve : (o : redisSig.Op) → σ → redisSig.Ans o × σ
  /-- The list at a key, empty where there is none. -/
  lists : σ → Redis.Lists
  reachable : ∀ s, serve .client s = (true, s)
  accepts : ∀ c s, c.sendable = true →
    (serve (.command c) s).1 = .ok (c.reply (lists s)) ∧
      lists (serve (.command c) s).2 = c.effect (lists s)
  refuses : ∀ c s, c.sendable = false →
    (∃ e : PyExc, e.isException = true ∧ (serve (.command c) s).1 = .error e) ∧
      lists (serve (.command c) s).2 = lists s

namespace RedisServer

/-- A command on a server that keeps its lists and nothing else. -/
def run (c : RedisCommand) (db : Redis.Lists) : Except PyExc (List PyStr) × Redis.Lists :=
  if c.sendable then (.ok (c.reply db), c.effect db) else (.error .encodeError, db)

def plain : RedisServer Redis.Lists where
  serve
    | .client, db => (true, db)
    | .command c, db => run c db
  lists := id
  reachable _ := rfl
  accepts c db h := by
    have hrun : run c db = (.ok (c.reply db), c.effect db) := if_pos h
    exact ⟨congrArg Prod.fst hrun, congrArg Prod.snd hrun⟩
  refuses c db h := by
    have hrun : run c db = (.error .encodeError, db) := if_neg (by simp [h])
    exact ⟨⟨.encodeError, rfl, congrArg Prod.fst hrun⟩, congrArg Prod.snd hrun⟩

end RedisServer

namespace Redis

variable {σ α : Type} {R : RedisServer σ} {s : σ} {c : RedisCommand}

theorem exec_client (f : Bool → RedisM α) :
    Prog.exec R.serve (client >>= f) s = Prog.exec R.serve (f true) s := by
  change Prog.exec R.serve (f (R.serve .client s).1) (R.serve .client s).2 = _
  rw [R.reachable]

theorem exec_accepted (h : c.sendable = true) (f : List PyStr → RedisM α) :
    Prog.exec R.serve (command c >>= f) s =
      Prog.exec R.serve (f (c.reply (R.lists s))) (R.serve (.command c) s).2 := by
  change Prog.exec R.serve (Prog.lift (R.serve (.command c) s).1 >>= f) (R.serve (.command c) s).2 = _
  rw [(R.accepts c s h).1]
  rfl

theorem exec_refused (h : c.sendable = false) (f : List PyStr → RedisM α) :
    ∃ e : PyExc, e.isException = true ∧
      Prog.exec R.serve (command c >>= f) s = (.error e, (R.serve (.command c) s).2) := by
  obtain ⟨e, he, hserve⟩ := (R.refuses c s h).1
  refine ⟨e, he, ?_⟩
  change Prog.exec R.serve (Prog.lift (R.serve (.command c) s).1 >>= f) (R.serve (.command c) s).2 = _
  rw [hserve]
  rfl

theorem exec_failSoft (default : α) (p : RedisM α) :
    Prog.exec R.serve (failSoft default p) s = match Prog.exec R.serve p s with
      | (.ok a, t) => (.ok a, t)
      | (.error e, t) => if e.isException then (.ok default, t) else (.error e, t) := by
  rw [failSoft, Prog.exec_catching]
  rcases Prog.exec R.serve p s with ⟨a | e, t⟩
  · dsimp only
    split <;> rfl
  · rfl

theorem exec_failSoft_accepted (h : c.sendable = true) (default : α) (f : List PyStr → RedisM α) :
    Prog.exec R.serve (failSoft default (command c >>= f)) s =
      Prog.exec R.serve (failSoft default (f (c.reply (R.lists s)))) (R.serve (.command c) s).2 := by
  rw [exec_failSoft, exec_accepted h, exec_failSoft]

theorem exec_failSoft_refused (h : c.sendable = false) (default : α) (f : List PyStr → RedisM α) :
    Prog.exec R.serve (failSoft default (command c >>= f)) s =
      (.ok default, (R.serve (.command c) s).2) := by
  obtain ⟨e, he, hexec⟩ := exec_refused (R := R) (s := s) h f
  rw [exec_failSoft, hexec]
  exact if_pos he

theorem exec_failSoft_ret (default a : α) :
    Prog.exec R.serve (failSoft default (.ret a)) s = (.ok a, s) := rfl

theorem exec_failSoft_last (c : RedisCommand) (s : σ) :
    (Prog.exec R.serve (failSoft () (command c >>= fun _ => .ret ())) s).1 = .ok () ∧
      R.lists (Prog.exec R.serve (failSoft () (command c >>= fun _ => .ret ())) s).2 =
        if c.sendable then c.effect (R.lists s) else R.lists s := by
  cases h : c.sendable with
  | true =>
    rw [exec_failSoft_accepted h, exec_failSoft_ret]
    exact ⟨rfl, (R.accepts c s h).2⟩
  | false =>
    rw [exec_failSoft_refused h]
    exact ⟨rfl, (R.refuses c s h).2⟩

theorem command_bind_ret (c : RedisCommand) : (command c >>= fun a => .ret a) = command c := by
  change Prog.op _ _ = Prog.op _ _
  congr 1
  funext a
  cases a <;> rfl

theorem encodes_of_ascii {s : PyStr} (h : ∀ c ∈ s, c < 128) : encodes s = true := by
  rw [encodes, List.all_eq_true]
  intro c hc
  have := h c hc
  simp
  omega

theorem range_zero_neg_one {xs : List PyStr} : range 0 (-1) xs = xs := by
  have hlen : ((xs.length : Int) + -1 + 1).toNat = xs.length := by omega
  change (xs.take ((xs.length : Int) + -1 + 1).toNat).drop 0 = xs
  rw [hlen, List.take_length, List.drop_zero]

end Redis

end VirtualPerson
