import Mathlib.Data.List.Basic

/-!
# Insertion-ordered dictionaries

A dict is the list of its entries in insertion order: assigning to an existing key
keeps the key's place, a new key goes to the end.
-/

namespace VirtualPerson

set_option autoImplicit false

namespace Assoc

variable {κ α : Type} [DecidableEq κ]

def get? (d : List (κ × α)) (k : κ) : Option α := (d.find? fun e => e.1 == k).map (·.2)

def set (d : List (κ × α)) (k : κ) (a : α) : List (κ × α) :=
  match d with
  | [] => [(k, a)]
  | e :: es => if e.1 = k then (k, a) :: es else e :: set es k a

/-- `{f(x): x for x in xs}` -/
def index (f : α → κ) (xs : List α) : List (κ × α) := xs.foldl (fun d x => set d (f x) x) []

/-- `d.pop(k, None)` -/
def erase (d : List (κ × α)) (k : κ) : List (κ × α) := d.filter fun e => !(e.1 == k)

def values (d : List (κ × α)) : List α := d.map (·.2)

@[simp] theorem get?_set_self (d : List (κ × α)) (k : κ) (a : α) : get? (set d k a) k = some a := by
  induction d with
  | nil => simp [set, get?]
  | cons e es ih =>
    by_cases h : e.1 = k
    · simp [set, h, get?]
    · have ht : get? (e :: set es k a) k = get? (set es k a) k := by simp [get?, h]
      rw [set, if_neg h, ht, ih]

theorem get?_set_ne (d : List (κ × α)) {k k' : κ} (a : α) (hne : k ≠ k') :
    get? (set d k a) k' = get? d k' := by
  induction d with
  | nil => simp [set, get?, hne]
  | cons e es ih =>
    by_cases h : e.1 = k
    · simp [set, h, get?, hne]
    · have hcons (es' : List (κ × α)) (heq : get? es' k' = get? es k') :
          get? (e :: es') k' = get? (e :: es) k' := by
        by_cases h' : e.1 = k'
        · simp [get?, h']
        · simpa [get?, h'] using heq
      rw [set, if_neg h]
      exact hcons _ ih

@[simp] theorem get?_erase_self (d : List (κ × α)) (k : κ) : get? (erase d k) k = none := by
  rw [get?, erase, Option.map_eq_none_iff, List.find?_eq_none]
  intro e he
  simpa using (List.mem_filter.mp he).2

theorem get?_erase_ne (d : List (κ × α)) {k k' : κ} (hne : k ≠ k') : get? (erase d k) k' = get? d k' := by
  induction d with
  | nil => rfl
  | cons e es ih =>
    by_cases h : e.1 = k
    · have hskip : get? (e :: es) k' = get? es k' := by simp [get?, h, hne]
      rw [hskip, ← ih, erase, List.filter_cons_of_neg (by simp [h]), erase]
    · rw [erase, List.filter_cons_of_pos (by simp [h])]
      by_cases h' : e.1 = k'
      · simp [get?, h']
      · simpa [get?, erase, h'] using ih

theorem mem_set {d : List (κ × α)} {k : κ} {a : α} {e : κ × α} (h : e ∈ set d k a) :
    e = (k, a) ∨ e ∈ d := by
  induction d with
  | nil => exact .inl (List.mem_singleton.mp h)
  | cons e' es ih =>
    by_cases hk : e'.1 = k
    · rw [set, if_pos hk] at h
      exact (List.mem_cons.mp h).imp id (List.mem_cons_of_mem _)
    · rw [set, if_neg hk] at h
      rcases List.mem_cons.mp h with rfl | h
      · exact .inr List.mem_cons_self
      · exact (ih h).imp id (List.mem_cons_of_mem _)

theorem set_mem (d : List (κ × α)) (k : κ) (a : α) : (k, a) ∈ set d k a := by
  induction d with
  | nil => exact List.mem_singleton_self _
  | cons e es ih =>
    by_cases hk : e.1 = k
    · rw [set, if_pos hk]
      exact List.mem_cons_self
    · rw [set, if_neg hk]
      exact List.mem_cons_of_mem _ ih

theorem key_mem_set {d : List (κ × α)} {k k' : κ} {a : α} (h : ∃ b, (k', b) ∈ d) :
    ∃ b, (k', b) ∈ set d k a := by
  by_cases hne : k' = k
  · exact ⟨a, hne ▸ set_mem d k a⟩
  · obtain ⟨b, hb⟩ := h
    refine ⟨b, ?_⟩
    induction d with
    | nil => cases hb
    | cons e es ih =>
      rcases List.mem_cons.mp hb with rfl | hb
      · rw [set, if_neg hne]
        exact List.mem_cons_self
      · by_cases hk : e.1 = k
        · rw [set, if_pos hk]
          exact List.mem_cons_of_mem _ hb
        · rw [set, if_neg hk]
          exact List.mem_cons_of_mem _ (ih hb)

section Index

variable {f : α → κ}

theorem mem_foldl_index {xs : List α} {d : List (κ × α)} {e : κ × α}
    (h : e ∈ xs.foldl (fun d x => set d (f x) x) d) : e ∈ d ∨ (e.2 ∈ xs ∧ e.1 = f e.2) := by
  induction xs generalizing d with
  | nil => exact .inl h
  | cons x xs ih =>
    rcases ih h with h | ⟨hmem, hk⟩
    · rcases mem_set h with rfl | h
      · exact .inr ⟨List.mem_cons_self, rfl⟩
      · exact .inl h
    · exact .inr ⟨List.mem_cons_of_mem _ hmem, hk⟩

theorem key_mem_foldl_index {xs : List α} {d : List (κ × α)} {k : κ}
    (h : (∃ b, (k, b) ∈ d) ∨ ∃ x ∈ xs, f x = k) :
    ∃ b, (k, b) ∈ xs.foldl (fun d x => set d (f x) x) d := by
  induction xs generalizing d with
  | nil =>
    rcases h with h | ⟨x, hx, -⟩
    · exact h
    · cases hx
  | cons y xs ih =>
    apply ih
    rcases h with h | ⟨x, hx, hk⟩
    · exact .inl (key_mem_set h)
    · rcases List.mem_cons.mp hx with rfl | hx
      · exact .inl ⟨x, hk ▸ set_mem _ _ _⟩
      · exact .inr ⟨x, hx, hk⟩

theorem mem_of_mem_index {xs : List α} {a : α} (h : a ∈ values (index f xs)) : a ∈ xs := by
  obtain ⟨e, he, rfl⟩ := List.mem_map.mp h
  rcases mem_foldl_index he with h | ⟨hmem, -⟩
  · cases h
  · exact hmem

/-- Every element of the list has a representative with its key among the values. -/
theorem exists_mem_index {xs : List α} {x : α} (hx : x ∈ xs) :
    ∃ a ∈ values (index f xs), f a = f x := by
  obtain ⟨b, hb⟩ := key_mem_foldl_index (f := f) (d := []) (.inr ⟨x, hx, rfl⟩)
  rcases mem_foldl_index hb with h | ⟨-, hk⟩
  · cases h
  · exact ⟨b, List.mem_map.mpr ⟨_, hb, rfl⟩, hk.symm⟩

end Index

end Assoc

end VirtualPerson
