import VirtualPerson.Infra.RateLimit

/-!
# The retry time of a denied call

How long the limiter tells a denied caller to wait, over every run that follows the denial.
-/

namespace VirtualPerson

set_option autoImplicit false

open TokenBucketLimiter

section Retry

variable {L : TokenBucketLimiter} {s t u v s₀ : LimiterState} {ls ms : List RateCall}
variable {c x : RateCall} {k : PyStr} {due : ℚ}

/-- The bucket of `k` will hold one token at `due`, if nothing but denied calls comes before. -/
def Waiting (L : TokenBucketLimiter) (k : PyStr) (due : ℚ) (s : LimiterState) : Prop :=
  ∃ b, s.buckets k = some b ∧ readyAt L.refillPerSec 1 b.tokens b.ts = due ∧
    0 ≤ b.tokens ∧ b.ts ≤ s.clock ∧ b.expiresAt = b.ts + L.ttl

theorem one_le_capacity_cast (L : TokenBucketLimiter) : (1 : ℚ) ≤ L.capacity := by
  exact_mod_cast L.one_le_capacity

/-- The answer to a call whose refilled bucket holds `tokens`. -/
theorem step_answer {b : Option Bucket} {tokens : ℚ} (hst : (limiterSystem L).step s c t)
    (hlive : live s.buckets c.now (key c.userId) = b)
    (htokens : tokens = min (L.capacity : ℚ) ((b.map Bucket.tokens).getD L.capacity +
      L.refillPerSec * (c.now - (b.map Bucket.ts).getD c.now)))
    (hts : (b.map Bucket.ts).getD c.now ≤ c.now) (hrefill : 0 < L.refillPerSec) :
    (1 ≤ tokens ∧ c.allowed = true) ∨
      (tokens < 1 ∧ c.allowed = false ∧ c.retryAfter = (1 - tokens) / L.refillPerSec ∧
        t.buckets = Function.update s.buckets (key c.userId)
          (some { tokens, ts := c.now, expiresAt := c.now + L.ttl })) := by
  obtain ⟨-, -, hallow⟩ := hst
  simp only [allow, if_true, hlive, luaTokenBucket_eq b htokens hts] at hallow
  by_cases hone : 1 ≤ tokens
  · simp only [if_pos hone, if_true, Prod.mk.injEq] at hallow
    exact .inl ⟨hone, hallow.1.1.symm⟩
  · have hwait : 0 < (1 - tokens) / L.refillPerSec :=
      div_pos (sub_pos.mpr (not_le.mp hone)) hrefill
    simp only [if_neg hone, if_pos hrefill, not_lt.mpr hwait.le, if_false, Bool.false_eq_true,
      Prod.mk.injEq] at hallow
    exact .inr ⟨not_le.mp hone, hallow.1.1.symm, hallow.1.2.symm, hallow.2.symm⟩

/-- A call that finds no live bucket is allowed. -/
theorem allowed_of_missing (hrefill : 0 < L.refillPerSec) (hst : (limiterSystem L).step s c t)
    (hlive : live s.buckets c.now (key c.userId) = none) : c.allowed = true := by
  have hcap := one_le_capacity_cast L
  have htokens : (L.capacity : ℚ) = min (L.capacity : ℚ) (((none : Option Bucket).map Bucket.tokens).getD
      L.capacity + L.refillPerSec * (c.now - ((none : Option Bucket).map Bucket.ts).getD c.now)) := by
    simp
  rcases step_answer hst hlive htokens (le_refl _) hrefill with ⟨-, hallowed⟩ | ⟨hlt, -⟩
  · exact hallowed
  · linarith

theorem live_of_stored {b : Bucket} (hstored : s.buckets k = some b) (hlive : c.now < b.expiresAt) :
    live s.buckets c.now k = some b := by
  simp [live, hstored, hlive]

theorem live_eq_some {b : Bucket} {now : ℚ} (h : live s.buckets now k = some b) :
    s.buckets k = some b := by
  unfold live at h
  exact (Option.filter_eq_some_iff.mp h).1

/-- A denied call finds between nothing and one token, and waits for the rest of it. -/
theorem denied_spec (hrefill : 0 < L.refillPerSec) (hacc : Accounted L (key c.userId) s ls)
    (hst : (limiterSystem L).step s c t) (hdenied : c.allowed = false) :
    0 < c.retryAfter ∧ c.retryAfter ≤ 1 / L.refillPerSec ∧
      Waiting L (key c.userId) (c.now + c.retryAfter) t := by
  cases hlive : live s.buckets c.now (key c.userId) with
  | none =>
    rw [allowed_of_missing hrefill hst hlive] at hdenied
    cases hdenied
  | some b =>
    unfold Accounted at hacc
    rw [live_eq_some hlive] at hacc
    obtain ⟨-, htokens, -, hts, -⟩ := hacc
    have hclock : t.clock = c.now := hst.2.1
    have hle : b.ts ≤ c.now := hts.trans hst.1
    have hearned : 0 ≤ L.refillPerSec * (c.now - b.ts) := mul_nonneg hrefill.le (sub_nonneg.mpr hle)
    rcases step_answer hst hlive rfl hle hrefill with ⟨-, hallowed⟩ | ⟨hlt, -, hretry, hbuckets⟩
    · rw [hallowed] at hdenied
      cases hdenied
    · have hnonneg : 0 ≤ min (L.capacity : ℚ) (b.tokens + L.refillPerSec * (c.now - b.ts)) :=
        le_min (by linarith [one_le_capacity_cast L]) (add_nonneg htokens hearned)
      have hstored := congrFun hbuckets (key c.userId)
      rw [Function.update_self] at hstored
      refine ⟨?_, ?_, _, hstored, ?_, hnonneg, hclock.ge, rfl⟩
      · rw [hretry]
        exact div_pos (sub_pos.mpr hlt) hrefill
      · rw [hretry]
        exact div_le_div_of_nonneg_right (sub_le_self 1 hnonneg) hrefill.le
      · rw [hretry]
        rfl

/-- The time waited for comes before the key expires. -/
theorem due_le_expiresAt {b : Bucket} (hrefill : 0 < L.refillPerSec) (htokens : 0 ≤ b.tokens)
    (hdue : readyAt L.refillPerSec 1 b.tokens b.ts = due) (hexp : b.expiresAt = b.ts + L.ttl) :
    due ≤ b.expiresAt := by
  have hfull := (one_le_capacity_cast L).trans (capacity_le_refill_mul_ttl hrefill)
  rw [← hdue, readyAt_le_iff hrefill, hexp]
  linarith

/-- Before the time waited for, a call on the key is denied and moves that time no more than a
call on another key does. -/
theorem waiting_step (hrefill : 0 < L.refillPerSec) (hw : Waiting L k due s)
    (hst : (limiterSystem L).step s c t) (hearly : key c.userId = k → c.now < due) :
    Waiting L k due t ∧ (key c.userId = k → c.allowed = false) := by
  obtain ⟨b, hstored, hdue, htokens, hts, hexp⟩ := hw
  have hclock : t.clock = c.now := hst.2.1
  have hle : b.ts ≤ c.now := hts.trans hst.1
  by_cases hk : key c.userId = k
  · have hnow := hearly hk
    rw [← hk] at hstored
    have hlive := live_of_stored (c := c) hstored
      (hnow.trans_le (due_le_expiresAt hrefill htokens hdue hexp))
    have hshort : b.tokens + L.refillPerSec * (c.now - b.ts) < 1 := by
      rw [← not_le, ← readyAt_le_iff hrefill, hdue, not_le]
      exact hnow
    have hmin : b.tokens + L.refillPerSec * (c.now - b.ts) =
        min (L.capacity : ℚ) (b.tokens + L.refillPerSec * (c.now - b.ts)) :=
      (min_eq_right (hshort.le.trans (one_le_capacity_cast L))).symm
    rcases step_answer hst hlive hmin hle hrefill with ⟨hone, -⟩ | ⟨-, hdenied, -, hbuckets⟩
    · exact absurd hone (not_le.mpr hshort)
    · have hearned : 0 ≤ L.refillPerSec * (c.now - b.ts) :=
        mul_nonneg hrefill.le (sub_nonneg.mpr hle)
      have hstored' := congrFun hbuckets k
      rw [hk, Function.update_self] at hstored'
      refine ⟨⟨_, hstored', ?_, add_nonneg htokens hearned, hclock.ge, rfl⟩, fun _ => hdenied⟩
      -- the refills of the denied calls add up
      rw [readyAt_settled hrefill]
      exact hdue
  · have hsame : t.buckets k = s.buckets k := by
      rw [(step_eq hst).2, Function.update_of_ne (Ne.symm hk)]
    exact ⟨⟨b, hsame.trans hstored, hdue, htokens, hle.trans hclock.ge, hexp⟩, fun h => absurd h hk⟩

theorem waiting_over (hrefill : 0 < L.refillPerSec) (hw : Waiting L k due s)
    (hst : (limiterSystem L).step s c t) (hk : key c.userId = k) (hdue : due ≤ c.now) :
    c.allowed = true := by
  obtain ⟨b, hstored, hready, -, hts, -⟩ := hw
  rw [← hk] at hstored
  by_cases hlive : c.now < b.expiresAt
  · have hone : 1 ≤ b.tokens + L.refillPerSec * (c.now - b.ts) := by
      rw [← readyAt_le_iff hrefill, hready]
      exact hdue
    rcases step_answer hst (live_of_stored hstored hlive) rfl (hts.trans hst.1) hrefill with
      ⟨-, hallowed⟩ | ⟨hlt, -⟩
    · exact hallowed
    · exact absurd (le_min (one_le_capacity_cast L) hone) (not_le.mpr hlt)
  · -- an expired key starts over with a full bucket
    exact allowed_of_missing hrefill hst (by simp [live, hstored, not_lt.mp hlive])

theorem waiting_run (hrefill : 0 < L.refillPerSec) (hrun : (limiterSystem L).Run s ms t)
    (hearly : ∀ y ∈ ms, key y.userId = k → y.now < due) (hw : Waiting L k due s) :
    Waiting L k due t := by
  induction hrun with
  | nil => exact hw
  | cons hst _ ih =>
    apply ih (fun y hy => hearly y (List.mem_cons_of_mem _ hy))
    exact (waiting_step hrefill hw hst (hearly _ List.mem_cons_self)).1

theorem run_now_le (hrun : (limiterSystem L).Run s ms t) : s.clock ≤ t.clock ∧ ∀ y ∈ ms, y.now ≤ t.clock := by
  induction hrun with
  | nil => exact ⟨le_refl _, by simp⟩
  | cons hst _ ih =>
    obtain ⟨hle, hclock, -⟩ := hst
    rw [hclock] at ih
    refine ⟨hle.trans ih.1, fun y hy => ?_⟩
    rcases List.mem_cons.mp hy with rfl | hy
    · exact ih.1
    · exact ih.2 y hy

/-- A denied call is told to wait at most the time one token takes. On its key every call before
the end of that time is denied, and the first call from then on is allowed. -/
theorem retry_after_exact (hrefill : 0 < L.refillPerSec) (h₀ : (limiterSystem L).init s₀)
    (hrun : (limiterSystem L).Run s₀ ls s) (hst : (limiterSystem L).step s c t)
    (hdenied : c.allowed = false) :
    0 < c.retryAfter ∧ c.retryAfter ≤ 1 / L.refillPerSec ∧
      ∀ ms u x v, (limiterSystem L).Run t ms u → (limiterSystem L).step u x v →
        key x.userId = key c.userId →
        (x.now < c.now + c.retryAfter → x.allowed = false) ∧
        (c.now + c.retryAfter ≤ x.now →
          (∀ y ∈ ms, key y.userId = key c.userId → y.now < c.now + c.retryAfter) →
          x.allowed = true) := by
  have hinit : Accounted L (key c.userId) s₀ [] := by
    unfold Accounted
    rw [h₀ (key c.userId)]
    rfl
  have hacc : Accounted L (key c.userId) s ls :=
    System.Run.invariant_labels (fun hi hst => accounted_step hrefill hi hst) hrun hinit
  obtain ⟨hpos, hle, hwaiting⟩ := denied_spec hrefill hacc hst hdenied
  refine ⟨hpos, hle, fun ms u x v hms hx hk => ⟨fun hearly => ?_, fun hdue hfirst => ?_⟩⟩
  · -- the clock does not go back, so the calls in between were early as well
    have hbetween : ∀ y ∈ ms, key y.userId = key c.userId → y.now < c.now + c.retryAfter :=
      fun y hy _ => (((run_now_le hms).2 y hy).trans hx.1).trans_lt hearly
    have hw := waiting_run hrefill hms hbetween hwaiting
    exact (waiting_step hrefill hw hx fun _ => hearly).2 hk
  · exact waiting_over hrefill (waiting_run hrefill hms hfirst hwaiting) hx hk hdue

end Retry

def oneASecond : TokenBucketLimiter := .init 1 1

/-- The second of two calls at once has to wait a second. -/
theorem retry_after_exact_second :
    (0 : ℚ) < 1 ∧ (1 : ℚ) ≤ 1 / oneASecond.refillPerSec := by
  have hfirst : oneASecond.allow true 5 (str "ana") (fun _ => none) =
      ((true, 0), Function.update (fun _ => none) (key (str "ana"))
        (some { tokens := 0, ts := 5, expiresAt := 5 + oneASecond.ttl })) := by
    simp [allow, luaTokenBucket, live, oneASecond, TokenBucketLimiter.init]
  have hstep : (limiterSystem oneASecond).step ⟨fun _ => none, 0⟩ ⟨str "ana", 5, true, 0⟩
      ⟨Function.update (fun _ => none) (key (str "ana"))
        (some { tokens := 0, ts := 5, expiresAt := 5 + oneASecond.ttl }), 5⟩ :=
    ⟨by norm_num, rfl, hfirst⟩
  have hrefill : 0 < oneASecond.refillPerSec := by simp [oneASecond, TokenBucketLimiter.init]
  have hsecond : (oneASecond.allow true 5 (str "ana") (Function.update (fun _ => none) (key (str "ana"))
      (some { tokens := 0, ts := 5, expiresAt := 5 + oneASecond.ttl }))).1 = (false, 1) := by
    norm_num [allow, luaTokenBucket, live, oneASecond, TokenBucketLimiter.init, computeTtl, Option.filter]
  have hdenied := retry_after_exact (c := ⟨str "ana", 5, false, 1⟩) (t := ⟨_, 5⟩) hrefill (fun _ => rfl)
    (.single hstep) ⟨le_refl _, rfl, Prod.ext hsecond rfl⟩ rfl
  exact ⟨hdenied.1, hdenied.2.1⟩

end VirtualPerson
