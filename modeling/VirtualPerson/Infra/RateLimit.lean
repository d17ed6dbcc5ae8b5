import Mathlib.Algebra.Order.Floor.Ring
import Mathlib.Data.Rat.Floor
import Mathlib.Tactic.FieldSimp
import VirtualPerson.CreditAccount
import VirtualPerson.Python.Str
import VirtualPerson.Transition

/-!
# The token-bucket rate limiter

`TokenBucketLimiter` and its Lua script over exact rational time. A bucket is a
credit account: its expiry gives back no more than its refill would have.
-/

namespace VirtualPerson

set_option autoImplicit false

/-- The Redis hash of one bucket and the time at which its key expires. -/
structure Bucket where
  tokens : ℚ
  ts : ℚ
  expiresAt : ℚ

structure LuaReply where
  allowed : Bool
  retryAfter : ℚ

/-- `_LUA_TOKEN_BUCKET` at server time `now`; an expired key reads as missing. -/
def luaTokenBucket (capacity refill requested ttl now : ℚ) (bucket : Option Bucket) :
    LuaReply × Bucket :=
  let tokens := (bucket.map Bucket.tokens).getD capacity
  let ts := (bucket.map Bucket.ts).getD now
  let elapsed := if now - ts < 0 then 0 else now - ts
  let tokens := tokens + elapsed * refill
  let tokens := if capacity < tokens then capacity else tokens
  if requested ≤ tokens then
    ({ allowed := true, retryAfter := 0 },
      { tokens := tokens - requested, ts := now, expiresAt := now + ttl })
  else
    ({ allowed := false, retryAfter := if 0 < refill then (requested - tokens) / refill else ttl },
      { tokens, ts := now, expiresAt := now + ttl })

/-- `_compute_ttl`; `int` of a positive number is its floor. -/
def computeTtl (capacity : Int) (refillPerSec : ℚ) : Int :=
  if 0 < refillPerSec then max 60 (⌊(capacity : ℚ) / refillPerSec * 2⌋ + 1) else 3600

structure TokenBucketLimiter where
  capacity : Int
  refillPerSec : ℚ
  ttl : Int
  one_le_capacity : 1 ≤ capacity
  refill_nonneg : 0 ≤ refillPerSec
  ttl_eq : ttl = computeTtl capacity refillPerSec

abbrev Buckets := PyStr → Option Bucket

namespace TokenBucketLimiter

def init (capacity : Int) (refillPerSec : ℚ) : TokenBucketLimiter where
  capacity := max 1 capacity
  refillPerSec := max 0 refillPerSec
  ttl := computeTtl (max 1 capacity) (max 0 refillPerSec)
  one_le_capacity := le_max_left 1 capacity
  refill_nonneg := le_max_left 0 refillPerSec
  ttl_eq := rfl

/-- `_key`: control characters are dropped from the user id. -/
def key (userId : PyStr) : PyStr := str "vp:rl:" ++ userId.filter fun c => !(c ≤ 0x1F || c == 0x7F)

/-- The bucket a script running at `now` finds. -/
def live (db : Buckets) (now : ℚ) (k : PyStr) : Option Bucket :=
  (db k).filter fun b => now < b.expiresAt

/-- `allow`; without Redis every call is allowed. -/
def allow (L : TokenBucketLimiter) (reachable : Bool) (now : ℚ) (userId : PyStr) (db : Buckets) :
    (Bool × ℚ) × Buckets :=
  if reachable then
    let (reply, bucket) :=
      luaTokenBucket L.capacity L.refillPerSec 1 L.ttl now (live db now (key userId))
    (if reply.allowed then (true, 0)
      else (false, if reply.retryAfter < 0 then 0 else reply.retryAfter),
      Function.update db (key userId) (some bucket))
  else ((true, 0), db)

end TokenBucketLimiter

structure LimiterState where
  buckets : Buckets
  clock : ℚ

structure RateCall where
  userId : PyStr
  now : ℚ
  allowed : Bool
  retryAfter : ℚ

/-- Calls at non-decreasing server times, Redis reachable, from an empty database. -/
def limiterSystem (L : TokenBucketLimiter) : System LimiterState RateCall where
  init s := ∀ k, s.buckets k = none
  step s c t := s.clock ≤ c.now ∧ t.clock = c.now ∧
    L.allow true c.now c.userId s.buckets = ((c.allowed, c.retryAfter), t.buckets)

open TokenBucketLimiter

section Script

variable {capacity refill ttl now : ℚ} {b : Bucket}

def grant (allowed : Bool) : ℚ := if allowed then 1 else 0

/-- What the script does with a bucket that has refilled to `tokens`. -/
theorem luaTokenBucket_eq (bucket : Option Bucket) {tokens : ℚ}
    (htokens : tokens = min capacity ((bucket.map Bucket.tokens).getD capacity +
      refill * (now - (bucket.map Bucket.ts).getD now)))
    (hts : (bucket.map Bucket.ts).getD now ≤ now) :
    luaTokenBucket capacity refill 1 ttl now bucket =
      if 1 ≤ tokens then
        ({ allowed := true, retryAfter := 0 }, { tokens := tokens - 1, ts := now, expiresAt := now + ttl })
      else
        ({ allowed := false, retryAfter := if 0 < refill then (1 - tokens) / refill else ttl },
          { tokens, ts := now, expiresAt := now + ttl }) := by
  have hrefilled : (if capacity < (bucket.map Bucket.tokens).getD capacity +
      (if now - (bucket.map Bucket.ts).getD now < 0 then 0
        else now - (bucket.map Bucket.ts).getD now) * refill then capacity
      else (bucket.map Bucket.tokens).getD capacity +
        (if now - (bucket.map Bucket.ts).getD now < 0 then 0
          else now - (bucket.map Bucket.ts).getD now) * refill) = tokens := by
    rw [if_neg (not_lt.mpr (sub_nonneg.mpr hts)), mul_comm, htokens]
    split
    · rename_i hlt
      exact (min_eq_left hlt.le).symm
    · rename_i hle
      exact (min_eq_right (not_lt.mp hle)).symm
  simp only [luaTokenBucket, hrefilled]

/-- The script charges the refilled bucket, and never more than is in it. -/
theorem luaTokenBucket_spec (bucket : Option Bucket) {tokens : ℚ}
    (htokens : tokens = min capacity ((bucket.map Bucket.tokens).getD capacity +
      refill * (now - (bucket.map Bucket.ts).getD now)))
    (hts : (bucket.map Bucket.ts).getD now ≤ now) (hnonneg : 0 ≤ tokens) :
    let r := luaTokenBucket capacity refill 1 ttl now bucket
    r.2.tokens + grant r.1.allowed = tokens ∧ 0 ≤ r.2.tokens ∧ r.2.ts = now ∧
      r.2.expiresAt = now + ttl := by
  rw [luaTokenBucket_eq bucket htokens hts]
  split
  · rename_i hone
    exact ⟨by simp [grant], by linarith, rfl, rfl⟩
  · exact ⟨by simp [grant], hnonneg, rfl, rfl⟩

end Script

section Runs

variable {L : TokenBucketLimiter} {s t s₀ : LimiterState} {ls : List RateCall} {c : RateCall}
variable {k : PyStr}

/-- An idle bucket is full again before its key expires. -/
theorem capacity_le_refill_mul_ttl (hrefill : 0 < L.refillPerSec) :
    (L.capacity : ℚ) ≤ L.refillPerSec * L.ttl := by
  have hcap : (0 : ℚ) < L.capacity := by
    exact_mod_cast lt_of_lt_of_le Int.one_pos L.one_le_capacity
  have hfloor : (L.capacity : ℚ) / L.refillPerSec * 2 < L.ttl := by
    rw [L.ttl_eq, computeTtl, if_pos hrefill]
    have hlt := Int.lt_floor_add_one ((L.capacity : ℚ) / L.refillPerSec * 2)
    apply lt_of_lt_of_le hlt
    exact_mod_cast le_max_right 60 (⌊(L.capacity : ℚ) / L.refillPerSec * 2⌋ + 1)
  have hdiv : (L.capacity : ℚ) / L.refillPerSec ≤ L.ttl := by
    have hpos : 0 < (L.capacity : ℚ) / L.refillPerSec := div_pos hcap hrefill
    linarith
  rw [div_le_iff₀ hrefill] at hdiv
  linarith

def charges (k : PyStr) (ls : List RateCall) : List (Charge ℚ) :=
  (ls.filter fun c => key c.userId = k).map fun c => ⟨c.now, grant c.allowed⟩

/-- The stored bucket of `k` is a credit account with the calls so far as its history. -/
def Accounted (L : TokenBucketLimiter) (k : PyStr) (s : LimiterState) (ls : List RateCall) : Prop :=
  match s.buckets k with
  | none => charges k ls = []
  | some b => Account (L.capacity : ℚ) L.refillPerSec b.tokens b.ts (charges k ls) ∧
      0 ≤ b.tokens ∧ b.tokens ≤ L.capacity ∧ b.ts ≤ s.clock ∧ b.expiresAt = b.ts + L.ttl

theorem charges_concat_of_eq (h : key c.userId = k) :
    charges k (ls ++ [c]) = charges k ls ++ [⟨c.now, grant c.allowed⟩] := by
  simp [charges, h]

theorem charges_concat_of_ne (h : key c.userId ≠ k) : charges k (ls ++ [c]) = charges k ls := by
  simp [charges, h]

def scriptAnswer (L : TokenBucketLimiter) (s : LimiterState) (c : RateCall) : LuaReply × Bucket :=
  luaTokenBucket L.capacity L.refillPerSec 1 L.ttl c.now (live s.buckets c.now (key c.userId))

theorem step_eq (hst : (limiterSystem L).step s c t) :
    c.allowed = (scriptAnswer L s c).1.allowed ∧
      t.buckets = Function.update s.buckets (key c.userId) (some (scriptAnswer L s c).2) := by
  obtain ⟨-, -, hallow⟩ := hst
  simp only [allow, if_true, Prod.mk.injEq] at hallow
  obtain ⟨hanswer, hbuckets⟩ := hallow
  refine ⟨?_, hbuckets.symm⟩
  rw [scriptAnswer]
  split at hanswer
  · rename_i hallowed
    rw [hallowed]
    exact (congrArg Prod.fst hanswer).symm
  · rename_i hdenied
    rw [Bool.not_eq_true] at hdenied
    rw [hdenied]
    exact (congrArg Prod.fst hanswer).symm

theorem scriptAnswer_full (h : live s.buckets c.now (key c.userId) = none) :
    (scriptAnswer L s c).2.tokens + grant (scriptAnswer L s c).1.allowed = L.capacity ∧
      0 ≤ (scriptAnswer L s c).2.tokens ∧ (scriptAnswer L s c).2.ts = c.now ∧
      (scriptAnswer L s c).2.expiresAt = c.now + L.ttl := by
  have hcap : (0 : ℚ) ≤ L.capacity := by
    exact_mod_cast le_trans (by decide : (0 : Int) ≤ 1) L.one_le_capacity
  rw [scriptAnswer, h]
  exact luaTokenBucket_spec none (by simp) (le_refl _) hcap

theorem scriptAnswer_refilled {b : Bucket} (h : live s.buckets c.now (key c.userId) = some b)
    (hts : b.ts ≤ c.now) (htokens : 0 ≤ b.tokens) :
    (scriptAnswer L s c).2.tokens + grant (scriptAnswer L s c).1.allowed =
        min (L.capacity : ℚ) (b.tokens + L.refillPerSec * (c.now - b.ts)) ∧
      0 ≤ (scriptAnswer L s c).2.tokens ∧ (scriptAnswer L s c).2.ts = c.now ∧
      (scriptAnswer L s c).2.expiresAt = c.now + L.ttl := by
  have hcap : (0 : ℚ) ≤ L.capacity := by
    exact_mod_cast le_trans (by decide : (0 : Int) ≤ 1) L.one_le_capacity
  have hearned : 0 ≤ L.refillPerSec * (c.now - b.ts) :=
    mul_nonneg L.refill_nonneg (sub_nonneg.mpr hts)
  rw [scriptAnswer, h]
  exact luaTokenBucket_spec (some b) rfl hts (le_min hcap (add_nonneg htokens hearned))

theorem grant_nonneg (allowed : Bool) : 0 ≤ grant allowed := by
  cases allowed <;> simp [grant]

/-- The account after a call: a first call and one after expiry find a full bucket, any
other call the stored one. -/
theorem accounted_step (hrefill : 0 < L.refillPerSec) (h : Accounted L k s ls)
    (hst : (limiterSystem L).step s c t) : Accounted L k t (ls ++ [c]) := by
  obtain ⟨hallowed, hbuckets⟩ := step_eq hst
  obtain ⟨hclock, hclock', -⟩ := hst
  unfold Accounted at h ⊢
  by_cases hk : key c.userId = k
  · subst hk
    have hg := grant_nonneg (scriptAnswer L s c).1.allowed
    rw [hbuckets, Function.update_self, charges_concat_of_eq rfl, hallowed]
    simp only
    cases hstored : s.buckets (key c.userId) with
    | none =>
      rw [hstored] at h
      obtain ⟨htotal, hnonneg, hts, hexp⟩ :=
        scriptAnswer_full (L := L) (s := s) (c := c) (by simp [live, hstored])
      simp only at h
      rw [h, hts, hclock', hexp]
      refine ⟨?_, hnonneg, by linarith, le_refl _, rfl⟩
      have hopened : Account (L.capacity : ℚ) L.refillPerSec L.capacity c.now [] :=
        .opened (le_refl _)
      exact .charge ⟨c.now, _⟩ hopened (le_refl _) hnonneg htotal.le (by simp only; linarith)
    | some b =>
      rw [hstored] at h
      obtain ⟨hacc, htokens, htokens', hts', hexp'⟩ := h
      have hle : b.ts ≤ c.now := hts'.trans hclock
      by_cases hlive : c.now < b.expiresAt
      · obtain ⟨htotal, hnonneg, hts, hexp⟩ := scriptAnswer_refilled (L := L) (s := s) (c := c) (b := b)
          (by simp [live, hstored, hlive]) hle htokens
        rw [hts, hclock', hexp]
        have hcap := htotal.le.trans (min_le_left _ _)
        refine ⟨?_, hnonneg, by linarith, le_refl _, rfl⟩
        exact .charge ⟨c.now, _⟩ hacc hle hnonneg hcap (htotal.le.trans (min_le_right _ _))
      · obtain ⟨htotal, hnonneg, hts, hexp⟩ :=
          scriptAnswer_full (L := L) (s := s) (c := c) (by simp [live, hstored, not_lt.mp hlive])
        rw [hts, hclock', hexp]
        refine ⟨?_, hnonneg, by linarith, le_refl _, rfl⟩
        -- the key expired: the time since the last call has earned a full bucket
        have hidle : (L.ttl : ℚ) ≤ c.now - b.ts := by
          rw [hexp'] at hlive
          linarith
        have hearned : (L.capacity : ℚ) ≤ L.refillPerSec * (c.now - b.ts) :=
          (capacity_le_refill_mul_ttl hrefill).trans
            (mul_le_mul_of_nonneg_left hidle L.refill_nonneg)
        exact .charge ⟨c.now, _⟩ hacc hle hnonneg htotal.le (by simp only; linarith)
  · have hsame : t.buckets k = s.buckets k := by
      rw [hbuckets, Function.update_of_ne (Ne.symm hk)]
    rw [hsame, charges_concat_of_ne hk]
    cases hstored : s.buckets k with
    | none =>
      rw [hstored] at h
      exact h
    | some b =>
      rw [hstored] at h
      obtain ⟨hacc, htokens, htokens', hts, hexp⟩ := h
      exact ⟨hacc, htokens, htokens', hts.trans (hclock.trans hclock'.ge), hexp⟩

def allowedIn (k : PyStr) (a b : ℚ) (ls : List RateCall) : List RateCall :=
  ls.filter fun c => key c.userId = k ∧ c.allowed = true ∧ a ≤ c.now ∧ c.now ≤ b

theorem length_allowedIn (a b : ℚ) (ls : List RateCall) :
    ((allowedIn k a b ls).length : ℚ) = spent a b (charges k ls) := by
  induction ls using List.reverseRecOn with
  | nil => rfl
  | append_singleton ls c ih =>
    have hsplit : allowedIn k a b (ls ++ [c]) = allowedIn k a b ls ++ allowedIn k a b [c] :=
      List.filter_append ..
    rw [hsplit, List.length_append, Nat.cast_add, ih]
    by_cases hk : key c.userId = k
    · rw [charges_concat_of_eq hk, spent_concat]
      by_cases hwindow : a ≤ c.now ∧ c.now ≤ b
      · cases hc : c.allowed <;> simp [allowedIn, hk, hc, hwindow, grant]
      · simp only [if_neg hwindow, allowedIn]
        have hnot : ¬ (key c.userId = k ∧ c.allowed = true ∧ a ≤ c.now ∧ c.now ≤ b) :=
          fun h => hwindow h.2.2
        simp [hnot]
    · rw [charges_concat_of_ne hk]
      simp [allowedIn, hk]

/-- In every window the calls allowed on one key are at most `capacity + refill * length`,
and every stored bucket holds between nothing and its capacity. -/
theorem allowed_in_window_le (hrefill : 0 < L.refillPerSec) (h₀ : (limiterSystem L).init s₀)
    (hrun : (limiterSystem L).Run s₀ ls s) (k : PyStr) {a b : ℚ} (hab : a ≤ b) :
    ((allowedIn k a b ls).length : ℚ) ≤ L.capacity + L.refillPerSec * (b - a) ∧
      ∀ bucket, s.buckets k = some bucket → 0 ≤ bucket.tokens ∧ bucket.tokens ≤ L.capacity := by
  have hinit : Accounted L k s₀ [] := by
    unfold Accounted
    rw [h₀ k]
    rfl
  have hacc : Accounted L k s ls :=
    System.Run.invariant_labels (fun hi hst => accounted_step hrefill hi hst) hrun hinit
  have hcap : (0 : ℚ) ≤ L.capacity := by
    exact_mod_cast le_trans (by decide : (0 : Int) ≤ 1) L.one_le_capacity
  unfold Accounted at hacc
  rw [length_allowedIn]
  cases hstored : s.buckets k with
  | none =>
    rw [hstored] at hacc
    simp only at hacc
    have hwindow : 0 ≤ L.refillPerSec * (b - a) := mul_nonneg hrefill.le (sub_nonneg.mpr hab)
    rw [hacc]
    refine ⟨?_, fun bucket hbucket => by cases hbucket⟩
    simp only [spent, List.filter_nil, List.map_nil, List.sum_nil]
    linarith
  | some bucket =>
    rw [hstored] at hacc
    obtain ⟨hacc, htokens, htokens', -⟩ := hacc
    refine ⟨hacc.spent_le hcap hrefill.le hab, fun bucket' hbucket => ?_⟩
    cases hbucket
    exact ⟨htokens, htokens'⟩

end Runs

def twoBurst : TokenBucketLimiter := .init 2 1

/-- Three calls of a user within half a second -/
def burst : List RateCall :=
  [⟨str "ana", 5, true, 0⟩, ⟨str "ana", 5, true, 0⟩, ⟨str "ana", 11 / 2, false, 1 / 2⟩]

/-- The bucket after a call of `burst` -/
def anasBucket (tokens ts : ℚ) : Buckets :=
  Function.update (fun _ => none) (key (str "ana")) (some { tokens, ts, expiresAt := ts + twoBurst.ttl })

theorem allow_first : twoBurst.allow true 5 (str "ana") (fun _ => none) = ((true, 0), anasBucket 1 5) := by
  simp [allow, luaTokenBucket, live, twoBurst, TokenBucketLimiter.init, anasBucket]
  norm_num

/-- Before the bucket expires a call finds what was left and what has come since. -/
theorem allow_again {tokens ts now : ℚ} (hts : ts ≤ now) (hnow : now < ts + 60)
    (hcap : tokens + (now - ts) ≤ 2) :
    twoBurst.allow true now (str "ana") (anasBucket tokens ts) =
      if 1 ≤ tokens + (now - ts) then ((true, 0), anasBucket (tokens + (now - ts) - 1) now)
      else ((false, 1 - (tokens + (now - ts))), anasBucket (tokens + (now - ts)) now) := by
  have httl : (twoBurst.ttl : ℚ) = 60 := by
    have hint : twoBurst.ttl = 60 := by
      simp [twoBurst, TokenBucketLimiter.init, computeTtl]
      norm_num
    rw [hint]
    norm_num
  have hcapacity : (twoBurst.capacity : ℚ) = 2 := by simp [twoBurst, TokenBucketLimiter.init]
  have hrefill : twoBurst.refillPerSec = 1 := by simp [twoBurst, TokenBucketLimiter.init]
  have hlive : live (anasBucket tokens ts) now (key (str "ana")) =
      some { tokens, ts, expiresAt := ts + twoBurst.ttl } := by
    rw [live, anasBucket, Function.update_self, Option.filter_some, httl, if_pos (decide_eq_true hnow)]
  have hupdate (b : Bucket) : Function.update (anasBucket tokens ts) (key (str "ana")) (some b) =
      Function.update (fun _ => none) (key (str "ana")) (some b) := Function.update_idem ..
  have helapsed : ¬ now - ts < 0 := not_lt.mpr (sub_nonneg.mpr hts)
  unfold allow luaTokenBucket
  simp only [hlive, hupdate, hcapacity, hrefill, Option.map_some, Option.getD_some, helapsed, not_lt.mpr hcap,
    if_true, if_false, mul_one, zero_lt_one, div_one]
  split
  · rfl
  · rename_i hfew
    have hpositive : ¬ 1 - (tokens + (now - ts)) < 0 := by linarith
    simp [hpositive, anasBucket]

theorem burst_run : (limiterSystem twoBurst).Run ⟨fun _ => none, 0⟩ burst
    ⟨anasBucket (1 / 2) (11 / 2), 11 / 2⟩ := by
  have hsecond : twoBurst.allow true 5 (str "ana") (anasBucket 1 5) = ((true, 0), anasBucket 0 5) := by
    rw [allow_again le_rfl (by norm_num) (by norm_num), if_pos (by norm_num)]
    norm_num
  have hthird : twoBurst.allow true (11 / 2) (str "ana") (anasBucket 0 5) =
      ((false, 1 / 2), anasBucket (1 / 2) (11 / 2)) := by
    rw [allow_again (by norm_num) (by norm_num) (by norm_num), if_neg (by norm_num)]
    norm_num
  have h₁ : (limiterSystem twoBurst).step ⟨fun _ => none, 0⟩ ⟨str "ana", 5, true, 0⟩ ⟨anasBucket 1 5, 5⟩ :=
    ⟨by norm_num, rfl, allow_first⟩
  have h₂ : (limiterSystem twoBurst).step ⟨anasBucket 1 5, 5⟩ ⟨str "ana", 5, true, 0⟩ ⟨anasBucket 0 5, 5⟩ :=
    ⟨le_rfl, rfl, hsecond⟩
  have h₃ : (limiterSystem twoBurst).step ⟨anasBucket 0 5, 5⟩ ⟨str "ana", 11 / 2, false, 1 / 2⟩
      ⟨anasBucket (1 / 2) (11 / 2), 11 / 2⟩ := ⟨by norm_num, rfl, hthird⟩
  exact .cons h₁ (.cons h₂ (.single h₃))

/-- The first two calls take the two tokens, and the third is refused. -/
theorem allowed_in_window_le_burst :
    ((allowedIn (key (str "ana")) 5 6 burst).length : ℚ) ≤
        twoBurst.capacity + twoBurst.refillPerSec * (6 - 5) ∧
      ∀ bucket, anasBucket (1 / 2) (11 / 2) (key (str "ana")) = some bucket →
        0 ≤ bucket.tokens ∧ bucket.tokens ≤ twoBurst.capacity := by
  have hrefill : 0 < twoBurst.refillPerSec := by simp [twoBurst, TokenBucketLimiter.init]
  have hempty : (limiterSystem twoBurst).init ⟨fun _ => none, 0⟩ := fun _ => rfl
  have hwindow : (5 : ℚ) ≤ 6 := by norm_num
  exact allowed_in_window_le hrefill hempty burst_run (key (str "ana")) hwindow

end VirtualPerson
