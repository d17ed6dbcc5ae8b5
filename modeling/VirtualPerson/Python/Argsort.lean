import Mathlib.Data.List.Basic
import Mathlib.Order.Lattice

/-!
# Stable sorts by a key

The positions of a list in the order of their keys, and what makes an order the stable
one: a permutation, sorted, with the elements of one key in the order they came in.
-/

namespace VirtualPerson

set_option autoImplicit false

variable {α β κ ε : Type}

/-- `np.argsort(keys, kind="stable")` -/
def argsort (before : κ → κ → Bool) (keys : List κ) : List Nat :=
  (keys.zipIdx.mergeSort fun a b => before a.1 b.1).map Prod.snd

/-- The elements at the sorted positions are the sorted elements. -/
theorem argsort_map (before : κ → κ → Bool) (f : α → κ) (xs : List α) :
    (argsort before (xs.map f)).map (fun i => xs[i]?) =
      (xs.mergeSort fun a b => before (f a) (f b)).map some := by
  let r (a b : α × Nat) : Bool := before (f a.1) (f b.1)
  have hzip : (xs.map f).zipIdx = xs.zipIdx.map (Prod.map f id) := List.zipIdx_map
  have hsort : (xs.map f).zipIdx.mergeSort (fun a b => before a.1 b.1) =
      (xs.zipIdx.mergeSort r).map (Prod.map f id) := by
    rw [hzip]
    symm
    apply List.map_mergeSort
    intro a _ b _
    rfl
  have hfst : (xs.zipIdx.mergeSort r).map Prod.fst = xs.mergeSort fun a b => before (f a) (f b) := by
    rw [List.map_mergeSort (s := fun a b => before (f a) (f b)) fun a _ b _ => rfl,
      List.zipIdx_map_fst]
  rw [argsort, hsort, ← hfst, List.map_map, List.map_map, List.map_map]
  apply List.map_congr_left
  intro a ha
  exact List.mem_zipIdx_iff_getElem?.mp (List.mem_mergeSort.mp ha)

theorem mapM_of_map_some {g : Nat → Except ε β} {h : α → β} {xs ys : List α} {is : List Nat}
    (hg : ∀ i a, xs[i]? = some a → g i = .ok (h a))
    (his : is.map (fun i => xs[i]?) = ys.map some) : is.mapM g = .ok (ys.map h) := by
  induction is generalizing ys with
  | nil =>
    cases ys with
    | nil => rfl
    | cons y ys => cases his
  | cons i is ih =>
    cases ys with
    | nil => cases his
    | cons y ys =>
      obtain ⟨hi, his⟩ := List.cons.inj his
      rw [List.mapM_cons, hg i y hi, ih his]
      rfl

/-- A loop over the first sorted positions that reads an element at each of them. -/
theorem mapM_take_argsort {g : Nat → Except ε β} {h : α → β} {before : κ → κ → Bool} {f : α → κ}
    {xs : List α} (hg : ∀ i a, xs[i]? = some a → g i = .ok (h a)) (n : Nat) :
    ((argsort before (xs.map f)).take n).mapM g =
      .ok (((xs.mergeSort fun a b => before (f a) (f b)).take n).map h) := by
  apply mapM_of_map_some hg
  rw [List.map_take, argsort_map, List.map_take]

/-- `ys` is `xs` stably sorted by decreasing `f`. -/
structure Decreasing [LE κ] (f : α → κ) (xs ys : List α) : Prop where
  perm : ys.Perm xs
  sorted : ys.Pairwise fun a b => f b ≤ f a
  stable : ∀ v (p : α → Bool), (∀ a, p a = true ↔ f a = v) → ys.filter p = xs.filter p

theorem decreasing_mergeSort [LinearOrder κ] [DecidableLE κ] (f : α → κ) (xs : List α) :
    Decreasing f xs (xs.mergeSort fun a b => decide (f b ≤ f a)) := by
  have htrans (a b c : α) (hab : decide (f b ≤ f a) = true) (hbc : decide (f c ≤ f b) = true) :
      decide (f c ≤ f a) = true := by
    simp only [decide_eq_true_eq] at hab hbc ⊢
    exact le_trans hbc hab
  have htotal (a b : α) : (decide (f b ≤ f a) || decide (f a ≤ f b)) = true := by
    simpa using le_total (f b) (f a)
  have hperm := List.mergeSort_perm xs fun a b => decide (f b ≤ f a)
  refine ⟨hperm, ?_, ?_⟩
  · apply (List.pairwise_mergeSort htrans htotal xs).imp
    intro a b hab
    exact of_decide_eq_true hab
  · intro v p hp
    -- the elements of one key are sorted as they stand, so the sort keeps them as a sublist
    have hpair : (xs.filter p).Pairwise fun a b => decide (f b ≤ f a) = true := by
      apply List.Pairwise.imp_of_mem _ (List.pairwise_of_forall (R := fun _ _ => True) fun _ _ => trivial)
      intro a b ha hb _
      have hav := (hp a).mp (List.mem_filter.mp ha).2
      have hbv := (hp b).mp (List.mem_filter.mp hb).2
      rw [hav, hbv]
      exact decide_eq_true le_rfl
    have hsub := (List.sublist_mergeSort htrans htotal hpair List.filter_sublist).filter p
    rw [List.filter_filter] at hsub
    simp only [Bool.and_self] at hsub
    exact (hsub.eq_of_length (hperm.filter p).length_eq.symm).symm

/-- Equal elements keep the relation in which they stand. -/
theorem Decreasing.pairwise [LE κ] [DecidableEq κ] {f : α → κ} {xs ys : List α} {r : α → α → Prop}
    (h : Decreasing f xs ys) (hr : xs.Pairwise r) :
    ys.Pairwise fun a b => f b ≤ f a ∧ (f a = f b → r a b) := by
  apply h.sorted.and
  rw [List.pairwise_iff_forall_sublist]
  intro a b hab heq
  have hfilter := h.stable (f a) (fun c => decide (f c = f a)) fun c => decide_eq_true_iff
  have hsub : [a, b].Sublist (ys.filter fun c => decide (f c = f a)) := by
    have := hab.filter fun c => decide (f c = f a)
    simpa [heq] using this
  rw [hfilter] at hsub
  exact List.pairwise_iff_forall_sublist.mp hr (hsub.trans List.filter_sublist)

/-- The first elements of a falling list are those with few elements above them. -/
theorem mem_take_iff_countP [LinearOrder κ] {f : α → κ} {xs : List α} {a : α}
    (h : xs.Pairwise fun a b => f b < f a) (n : Nat) :
    a ∈ xs.take n ↔ a ∈ xs ∧ xs.countP (fun b => decide (f a < f b)) < n := by
  induction xs generalizing n with
  | nil => simp
  | cons x xs ih =>
    obtain ⟨hx, hxs⟩ := List.pairwise_cons.mp h
    cases n with
    | zero => simp
    | succ n =>
      rw [List.take_succ_cons, List.mem_cons, List.mem_cons, ih hxs, List.countP_cons]
      by_cases hax : a = x
      · subst hax
        have hnone : xs.countP (fun b => decide (f a < f b)) = 0 := by
          rw [List.countP_eq_zero]
          intro b hb
          simpa using (hx b hb).le
        simp [hnone]
      · constructor
        · intro hmem
          rcases hmem with heq | ⟨hmem, hcount⟩
          · exact absurd heq hax
          · rw [if_pos (decide_eq_true (hx a hmem))]
            exact ⟨.inr hmem, by omega⟩
        · intro hboth
          obtain ⟨hmem, hcount⟩ := hboth
          rcases hmem with heq | hmem
          · exact absurd heq hax
          · rw [if_pos (decide_eq_true (hx a hmem))] at hcount
            exact .inr ⟨hmem, by omega⟩

theorem mem_take_mergeSort_iff [LinearOrder κ] {f : α → κ} {xs : List α} {a : α}
    (hties : xs.Pairwise fun a b => f a ≠ f b) (n : Nat) :
    a ∈ (xs.mergeSort fun a b => decide (f b ≤ f a)).take n ↔
      a ∈ xs ∧ xs.countP (fun b => decide (f a < f b)) < n := by
  have hdecreasing := decreasing_mergeSort f xs
  have hne := hdecreasing.perm.symm.pairwise hties fun h => h.symm
  have hfalling := (hdecreasing.sorted.and hne).imp fun h => lt_of_le_of_ne h.1 h.2.symm
  rw [mem_take_iff_countP hfalling n, hdecreasing.perm.mem_iff, hdecreasing.perm.countP_eq]

/-- `sorted(xs)[-1]` is a greatest element. -/
theorem getLast?_mergeSort {le : α → α → Bool}
    (htrans : ∀ a b c, le a b = true → le b c = true → le a c = true)
    (htotal : ∀ a b, (le a b || le b a) = true) {xs : List α} {a : α}
    (h : (xs.mergeSort le).getLast? = some a) : a ∈ xs ∧ ∀ b ∈ xs, le b a = true := by
  obtain ⟨ys, hys⟩ := List.getLast?_eq_some_iff.mp h
  have hmem (b : α) : b ∈ xs ↔ b ∈ ys ++ [a] := by rw [← hys, List.mem_mergeSort]
  have hsorted := List.pairwise_mergeSort htrans htotal xs
  rw [hys, List.pairwise_append] at hsorted
  refine ⟨(hmem a).mpr (by simp), fun b hb => ?_⟩
  rcases List.mem_append.mp ((hmem b).mp hb) with hb | hb
  · exact hsorted.2.2 b hb a (List.mem_singleton_self a)
  · rw [List.mem_singleton.mp hb]
    simpa using htotal a a

end VirtualPerson
