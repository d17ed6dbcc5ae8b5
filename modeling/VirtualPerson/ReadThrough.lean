import Mathlib.Data.Set.Function

/-!
# Read-through caches

A store of encoded results by key, in which entries may vanish or be spoiled at any time.
It is sound while every entry that can be read is the result for its key. Nothing here
mentions a program.
-/

namespace VirtualPerson

set_option autoImplicit false

namespace ReadThrough

variable {τ κ β ρ ε : Type}

/-- What can be read at the key of a question asked is the result for the question. -/
def Sound (asked : Set τ) (key : τ → κ) (decode : β → Option ρ) (f : τ → Except ε ρ)
    (store : κ → Option β) : Prop :=
  ∀ t ∈ asked, ∀ r, (store (key t)).bind decode = some r → f t = .ok r

variable {asked : Set τ} {key : τ → κ} {decode : β → Option ρ} {f : τ → Except ε ρ}
  {store : κ → Option β} {t : τ} {r : ρ} {b : β}

theorem sound_empty : Sound asked key decode f fun _ => none := by
  intro t _ r hr
  cases hr

theorem Sound.hit (h : Sound asked key decode f store) (ht : t ∈ asked)
    (hr : (store (key t)).bind decode = some r) : f t = .ok r :=
  h t ht r hr

variable [DecidableEq κ]

/-- An entry that cannot be read, or none, in place of any other. -/
theorem Sound.lost (h : Sound asked key decode f store) (k : κ) {entry : Option β}
    (hentry : entry.bind decode = none) : Sound asked key decode f (Function.update store k entry) := by
  intro t ht r hr
  by_cases hk : key t = k
  · rw [hk, Function.update_self, hentry] at hr
    cases hr
  · rw [Function.update_of_ne hk] at hr
    exact h t ht r hr

theorem Sound.stored (h : Sound asked key decode f store) (hkey : Set.InjOn key asked) (ht : t ∈ asked)
    (hb : decode b = some r) (hf : f t = .ok r) :
    Sound asked key decode f (Function.update store (key t) (some b)) := by
  intro t' ht' r' hr'
  by_cases hk : key t' = key t
  · rw [hk, Function.update_self, Option.bind_some, hb] at hr'
    rw [hkey ht' ht hk, hf, Option.some.inj hr']
  · rw [Function.update_of_ne hk] at hr'
    exact h t' ht' r' hr'

end ReadThrough

end VirtualPerson
