import Mathlib.Data.List.Induction
import Mathlib.Data.List.Nodup
import VirtualPerson.Python.Assoc

/-!
# The best entry for each key

A dict filled entry by entry, where an entry replaces one that it betters. Among entries
that can be compared the dict ends up with a best one for each key.
-/

namespace VirtualPerson

set_option autoImplicit false

namespace Assoc

variable {κ α : Type} [DecidableEq κ] {lt : α → α → Bool} {d es : List (κ × α)} {k : κ} {a : α}

def keys (d : List (κ × α)) : List κ := d.map (·.1)

/-- `if k not in d or a > d[k]: d[k] = a` -/
def improve (lt : α → α → Bool) (d : List (κ × α)) (k : κ) (a : α) : List (κ × α) :=
  match get? d k with
  | some b => if lt b a then set d k a else d
  | none => set d k a

def best (lt : α → α → Bool) (es : List (κ × α)) : List (κ × α) :=
  es.foldl (fun d e => improve lt d e.1 e.2) []

theorem keys_set (d : List (κ × α)) (k : κ) (a : α) :
    keys (set d k a) = if k ∈ keys d then keys d else keys d ++ [k] := by
  induction d with
  | nil => rfl
  | cons e es ih =>
    by_cases h : e.1 = k
    · simp [set, h, keys]
    · have hne : ¬ k = e.1 := fun heq => h heq.symm
      rw [set, if_neg h]
      change e.1 :: keys (set es k a) = _
      rw [ih]
      by_cases hk : k ∈ keys es
      · simp [keys, hne, show k ∈ es.map (·.1) from hk]
      · simp [keys, hne, show ¬ k ∈ es.map (·.1) from hk]

/-- An assignment to a known key writes at its place. -/
theorem set_eq_set [BEq κ] [LawfulBEq κ] {i : Nat} (h : (keys d).idxOf? k = some i) :
    set d k a = d.set i (k, a) := by
  induction d generalizing i with
  | nil => cases h
  | cons e es ih =>
    change (e.1 :: keys es).idxOf? k = some i at h
    rw [List.idxOf?_cons] at h
    by_cases he : e.1 = k
    · rw [if_pos (by simpa using he)] at h
      cases h
      rw [set, if_pos he, List.set_cons_zero]
    · rw [if_neg (by simpa using he)] at h
      obtain ⟨j, hj, rfl⟩ := Option.map_eq_some_iff.mp h
      rw [set, if_neg he, List.set_cons_succ, ih hj]

theorem set_eq_append (h : k ∉ keys d) : set d k a = d ++ [(k, a)] := by
  induction d with
  | nil => rfl
  | cons e es ih =>
    obtain ⟨he, hes⟩ := not_or.mp (mt List.mem_cons.mpr h)
    rw [set, if_neg (Ne.symm he), ih hes, List.cons_append]

theorem nodup_keys_set (h : (keys d).Nodup) : (keys (set d k a)).Nodup := by
  rw [keys_set]
  split
  · exact h
  · rename_i hk
    rw [List.nodup_append]
    refine ⟨h, List.nodup_singleton k, ?_⟩
    intro x hx y hy
    rw [List.mem_singleton.mp hy]
    exact fun heq => hk (heq ▸ hx)

theorem mem_set_iff (h : (keys d).Nodup) {e : κ × α} :
    e ∈ set d k a ↔ e = (k, a) ∨ (e ∈ d ∧ e.1 ≠ k) := by
  induction d with
  | nil => simp [set]
  | cons x xs ih =>
    obtain ⟨hx, hxs⟩ := List.nodup_cons.mp h
    by_cases hk : x.1 = k
    · rw [set, if_pos hk, List.mem_cons]
      apply or_congr Iff.rfl
      constructor
      · intro he
        refine ⟨List.mem_cons_of_mem _ he, ?_⟩
        intro heq
        exact hx (List.mem_map.mpr ⟨e, he, heq.trans hk.symm⟩)
      · intro h
        obtain ⟨he, hne⟩ := h
        rcases List.mem_cons.mp he with rfl | he
        · exact absurd hk hne
        · exact he
    · rw [set, if_neg hk, List.mem_cons, ih hxs, List.mem_cons]
      constructor
      · intro h
        rcases h with rfl | rfl | ⟨he, hne⟩
        · exact .inr ⟨.inl rfl, hk⟩
        · exact .inl rfl
        · exact .inr ⟨.inr he, hne⟩
      · intro h
        rcases h with rfl | ⟨rfl | he, hne⟩
        · exact .inr (.inl rfl)
        · exact .inl rfl
        · exact .inr (.inr ⟨he, hne⟩)

theorem get?_eq_some_iff (h : (keys d).Nodup) : get? d k = some a ↔ (k, a) ∈ d := by
  induction d with
  | nil => simp [get?]
  | cons x xs ih =>
    obtain ⟨hx, hxs⟩ := List.nodup_cons.mp h
    by_cases hk : x.1 = k
    · have hget : get? (x :: xs) k = some x.2 := by simp [get?, hk]
      rw [hget, Option.some.injEq, List.mem_cons]
      constructor
      · intro ha
        left
        rw [← hk, ← ha]
      · intro h
        rcases h with heq | hmem
        · rw [← heq]
        · exact absurd (List.mem_map.mpr ⟨_, hmem, hk.symm⟩) hx
    · have hget : get? (x :: xs) k = get? xs k := by simp [get?, hk]
      rw [hget, ih hxs, List.mem_cons]
      constructor
      · exact fun hmem => .inr hmem
      · intro h
        rcases h with heq | hmem
        · exact absurd (congrArg Prod.fst heq).symm hk
        · exact hmem

theorem get?_eq_none_iff : get? d k = none ↔ ∀ b, (k, b) ∉ d := by
  rw [get?, Option.map_eq_none_iff, List.find?_eq_none]
  constructor
  · intro h b hb
    exact h _ hb (by simp)
  · intro h e he heq
    have hk : e.1 = k := by simpa using heq
    exact h e.2 (hk ▸ he)

/-- Every value stands under its key. -/
structure Keyed (f : α → κ) (d : List (κ × α)) : Prop where
  nodup : (keys d).Nodup
  key : ∀ e ∈ d, e.1 = f e.2

section Keyed

variable {f : α → κ}

omit [DecidableEq κ] in
theorem Keyed.nil : Keyed f ([] : List (κ × α)) where
  nodup := List.nodup_nil
  key _ he := absurd he List.not_mem_nil

theorem Keyed.set (h : Keyed f d) (a : α) : Keyed f (set d (f a) a) where
  nodup := nodup_keys_set h.nodup
  key e he := by
    rcases mem_set he with rfl | he
    · rfl
    · exact h.key e he

omit [DecidableEq κ] in
theorem Keyed.map_values (h : Keyed f d) : (values d).map f = keys d := by
  rw [values, List.map_map]
  apply List.map_congr_left
  intro e he
  exact (h.key e he).symm

theorem keyed_index (xs : List α) : Keyed f (index f xs) := by
  have hfold : ∀ d : List (κ × α), Keyed f d → Keyed f (xs.foldl (fun d x => Assoc.set d (f x) x) d) := by
    induction xs with
    | nil => exact fun d h => h
    | cons x xs ih => exact fun d h => ih _ (h.set x)
  exact hfold [] .nil

theorem get?_index (xs : List α) (k : κ) :
    get? (index f xs) k = xs.reverse.find? fun x => decide (f x = k) := by
  induction xs using List.reverseRecOn with
  | nil => rfl
  | append_singleton xs x ih =>
    have hindex : index f (xs ++ [x]) = Assoc.set (index f xs) (f x) x := by
      simp [index, List.foldl_append]
    rw [hindex, List.reverse_append, List.reverse_singleton, List.singleton_append, List.find?_cons]
    by_cases h : f x = k
    · rw [h, get?_set_self]
      simp
    · rw [get?_set_ne _ _ h, ih]
      simp [h]

/-- The values of an index are the elements that no later one of their key has replaced. -/
theorem mem_values_index {xs : List α} {a : α} :
    a ∈ values (index f xs) ↔ ∃ before after, xs = before ++ a :: after ∧ ∀ b ∈ after, f b ≠ f a := by
  have hkeyed := keyed_index (f := f) xs
  have hmem : a ∈ values (index f xs) ↔ get? (index f xs) (f a) = some a := by
    rw [get?_eq_some_iff hkeyed.nodup, values, List.mem_map]
    constructor
    · intro h
      obtain ⟨⟨k, b⟩, he, rfl⟩ := h
      rw [← hkeyed.key _ he]
      exact he
    · exact fun h => ⟨_, h, rfl⟩
  rw [hmem, get?_index, List.find?_eq_some_iff_append]
  constructor
  · intro h
    obtain ⟨-, after, before, hxs, hafter⟩ := h
    refine ⟨before.reverse, after.reverse, ?_, ?_⟩
    · rw [← List.reverse_reverse xs, hxs]
      simp
    · intro b hb
      simpa using hafter b (List.mem_reverse.mp hb)
  · intro h
    obtain ⟨before, after, rfl, hafter⟩ := h
    refine ⟨by simp, after.reverse, before.reverse, by simp, ?_⟩
    intro b hb
    simpa using hafter b (List.mem_reverse.mp hb)

end Keyed

/-- Comparable elements are strictly and weakly ordered by `lt`. -/
structure Compares (lt : α → α → Bool) (P : α → Prop) : Prop where
  asymm : ∀ a b, lt a b = true → lt b a = false
  not_lt_trans : ∀ a b c, P b → lt a b = false → lt b c = false → lt a c = false

theorem Compares.irrefl {P : α → Prop} (h : Compares lt P) (a : α) : lt a a = false := by
  cases haa : lt a a with
  | false => rfl
  | true => exact haa.symm.trans (h.asymm a a haa)

/-- `d` holds one of the entries `es` for each of their keys, and a best one where all the
entries of the key are comparable. -/
structure Keeps (lt : α → α → Bool) (P : α → Prop) (es d : List (κ × α)) : Prop where
  nodup : (keys d).Nodup
  mem : ∀ e ∈ d, e ∈ es
  total : ∀ e ∈ es, ∃ a, (e.1, a) ∈ d
  best : ∀ e ∈ d, (∀ a, (e.1, a) ∈ es → P a) → ∀ a, (e.1, a) ∈ es → lt e.2 a = false

variable {P : α → Prop}

theorem Keeps.set (hlt : Compares lt P) (h : Keeps lt P es d)
    (hbetter : ∀ b, (k, b) ∈ d → lt b a = true) : Keeps lt P (es ++ [(k, a)]) (set d k a) := by
  constructor
  · exact nodup_keys_set h.nodup
  · intro e he
    rcases (mem_set_iff h.nodup).mp he with rfl | ⟨he, -⟩
    · simp
    · exact List.mem_append_left _ (h.mem e he)
  · intro e he
    rcases List.mem_append.mp he with he | he
    · exact key_mem_set (h.total e he)
    · rw [List.mem_singleton.mp he]
      exact ⟨a, set_mem d k a⟩
  · intro e he hP b hb
    rcases (mem_set_iff h.nodup).mp he with rfl | ⟨he, hne⟩
    · rcases List.mem_append.mp hb with hb | hb
      · -- the entry that was kept before is not below `b`, and the new one is above it
        obtain ⟨c, hc⟩ := h.total (k, b) hb
        have hcb : lt c b = false := by
          apply h.best (k, c) hc
          · intro x hx
            exact hP x (List.mem_append_left _ hx)
          · exact hb
        have hPc : P c := hP c (List.mem_append_left _ (h.mem _ hc))
        exact hlt.not_lt_trans a c b hPc (hlt.asymm c a (hbetter c hc)) hcb
      · cases List.mem_singleton.mp hb
        exact hlt.irrefl a
    · rcases List.mem_append.mp hb with hb | hb
      · apply h.best e he
        · intro x hx
          exact hP x (List.mem_append_left _ hx)
        · exact hb
      · exact absurd (congrArg Prod.fst (List.mem_singleton.mp hb)) hne

theorem Keeps.improve (hlt : Compares lt P) (h : Keeps lt P es d) (k : κ) (a : α) :
    Keeps lt P (es ++ [(k, a)]) (improve lt d k a) := by
  unfold Assoc.improve
  cases hget : get? d k with
  | none =>
    apply h.set hlt
    intro b hb
    exact absurd hb (get?_eq_none_iff.mp hget b)
  | some b =>
    have hmem : (k, b) ∈ d := (get?_eq_some_iff h.nodup).mp hget
    have honly (c : α) (hc : (k, c) ∈ d) : c = b := by
      have hc' := (get?_eq_some_iff h.nodup).mpr hc
      exact Option.some.inj (hc'.symm.trans hget)
    dsimp only
    split
    · rename_i hba
      apply h.set hlt
      intro c hc
      rw [honly c hc]
      exact hba
    · rename_i hba
      constructor
      · exact h.nodup
      · intro e he
        exact List.mem_append_left _ (h.mem e he)
      · intro e he
        rcases List.mem_append.mp he with he | he
        · exact h.total e he
        · rw [List.mem_singleton.mp he]
          exact ⟨b, hmem⟩
      · intro e he hP c hc
        rcases List.mem_append.mp hc with hc | hc
        · apply h.best e he
          · intro x hx
            exact hP x (List.mem_append_left _ hx)
          · exact hc
        · obtain ⟨hk, rfl⟩ := Prod.mk.injEq .. ▸ List.mem_singleton.mp hc
          rw [honly e.2 (hk ▸ he)]
          simpa using hba

theorem keeps_best (hlt : Compares lt P) (es : List (κ × α)) : Keeps lt P es (best lt es) := by
  induction es using List.reverseRecOn with
  | nil =>
    constructor
    · exact List.nodup_nil
    · exact fun e he => he
    · exact fun e he => absurd he List.not_mem_nil
    · exact fun e he => absurd he List.not_mem_nil
  | append_singleton es e ih =>
    have hstep : best lt (es ++ [e]) = Assoc.improve lt (best lt es) e.1 e.2 := by
      rw [best, List.foldl_append]
      rfl
    rw [hstep]
    exact ih.improve hlt e.1 e.2

omit [DecidableEq κ] in
theorem eraseDups_concat [BEq κ] [LawfulBEq κ] (ks : List κ) (k : κ) :
    (ks ++ [k]).eraseDups = if k ∈ ks then ks.eraseDups else ks.eraseDups ++ [k] := by
  rw [List.eraseDups_append]
  by_cases hk : k ∈ ks
  · rw [if_pos hk]
    simp [List.removeAll, hk]
  · rw [if_neg hk]
    simp [List.removeAll, hk, List.eraseDups_cons]

theorem keys_improve (d : List (κ × α)) (k : κ) (a : α) :
    keys (improve lt d k a) = if k ∈ keys d then keys d else keys d ++ [k] := by
  rw [← keys_set d k a]
  unfold improve
  cases hget : get? d k with
  | none => rfl
  | some b =>
    dsimp only
    split
    · rfl
    · -- the key has its entry, so an assignment would leave the keys alone as well
      have hk : k ∈ keys d := by
        by_contra hk
        apply absurd hget
        rw [get?_eq_none_iff.mpr]
        · nofun
        · intro b hb
          exact hk (List.mem_map.mpr ⟨_, hb, rfl⟩)
      rw [keys_set, if_pos hk]

/-- The keys stand in the order of their first entries. -/
theorem keys_best [BEq κ] [LawfulBEq κ] (lt : α → α → Bool) (es : List (κ × α)) :
    keys (best lt es) = (keys es).eraseDups := by
  induction es using List.reverseRecOn with
  | nil => rfl
  | append_singleton es e ih =>
    have hstep : best lt (es ++ [e]) = improve lt (best lt es) e.1 e.2 := by
      rw [best, List.foldl_append]
      rfl
    have hkeys : keys (es ++ [e]) = keys es ++ [e.1] := List.map_append
    rw [hstep, keys_improve, hkeys, eraseDups_concat, ih]
    simp only [List.mem_eraseDups]

omit [DecidableEq κ] in
theorem pairwise_eraseDups [BEq κ] [LawfulBEq κ] (ks : List κ) :
    ks.eraseDups.Pairwise fun a b => ks.idxOf a < ks.idxOf b := by
  induction ks using List.reverseRecOn with
  | nil => exact .nil
  | append_singleton ks k ih =>
    have hold (a : κ) (ha : a ∈ ks.eraseDups) : (ks ++ [k]).idxOf a = ks.idxOf a :=
      List.idxOf_append_of_mem (List.mem_eraseDups.mp ha)
    have hpair : ks.eraseDups.Pairwise fun a b => (ks ++ [k]).idxOf a < (ks ++ [k]).idxOf b := by
      apply ih.imp_of_mem
      intro a b ha hb hab
      rw [hold a ha, hold b hb]
      exact hab
    rw [eraseDups_concat]
    split
    · exact hpair
    · rename_i hk
      rw [List.pairwise_append]
      refine ⟨hpair, List.pairwise_singleton _ _, ?_⟩
      intro a ha b hb
      rw [List.mem_singleton.mp hb, hold a ha, List.idxOf_append_of_notMem hk]
      have hlt := List.idxOf_lt_length_of_mem (List.mem_eraseDups.mp ha)
      omega

end Assoc

end VirtualPerson
