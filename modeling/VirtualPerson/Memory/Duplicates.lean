import VirtualPerson.Memory.Atomicity
import VirtualPerson.Transition

/-!
# Recent duplicates

A stored item stays within the last 200 until 200 more have been accepted, whatever is deleted
around it, and as long as it is there every write equal to it is refused.
-/

namespace VirtualPerson

set_option autoImplicit false

open MemoryService Stateful

/-- A call in its surroundings, and whether it was a write that got past the checks. -/
structure StoreEvent where
  env : Env
  call : MemoryCall
  accepted : Bool

/-- Whether `write` gets past its checks. -/
def accepts (cm : CaseMap) (items : List MemoryItem) : MemoryCall → Bool
  | .write kind key value _ =>
    !filtered cm items (kindArg cm kind) (PyStr.strip key) (PyStr.strip value)
  | _ => false

/-- Calls on a service that started empty; a call that raises leaves what it has done. -/
def storeSystem {V : Type} (cm : CaseMap) (vs : VectorStore V) : System (MemoryService V) StoreEvent where
  init s := s.items = []
  step s e t := e.accepted = accepts cm s.items e.call ∧ t = final (e.call.run cm vs e.env s)

/-- The call takes the item out of the store. -/
def MemoryCall.Removes (x : MemoryItem) : MemoryCall → Prop
  | .write .. => False
  | .delete kind key => named kind key x = true
  | .eraseAll => True

section Recent

variable {x y : MemoryItem} {items : List MemoryItem} {n m : Nat}

/-- At most `n` items stand after `x`. -/
def Recent (x : MemoryItem) (n : Nat) (items : List MemoryItem) : Prop :=
  ∃ before after, items = before ++ x :: after ∧ after.length ≤ n

theorem Recent.last (x : MemoryItem) (items : List MemoryItem) : Recent x 0 (items ++ [x]) :=
  ⟨items, [], rfl, Nat.le_refl 0⟩

theorem Recent.snoc (h : Recent x n items) (y : MemoryItem) : Recent x (n + 1) (items ++ [y]) := by
  obtain ⟨before, after, rfl, hlen⟩ := h
  refine ⟨before, after ++ [y], by simp, ?_⟩
  rw [List.length_append, List.length_singleton]
  omega

theorem Recent.filter (h : Recent x n items) {p : MemoryItem → Bool} (hp : p x = true) :
    Recent x n (items.filter p) := by
  obtain ⟨before, after, rfl, hlen⟩ := h
  refine ⟨before.filter p, after.filter p, ?_, Nat.le_trans (List.length_filter_le p after) hlen⟩
  rw [List.filter_append, List.filter_cons_of_pos hp]

theorem Recent.mem_window (h : Recent x n items) (hn : n < m) : x ∈ items.drop (items.length - m) := by
  obtain ⟨before, after, rfl, hlen⟩ := h
  rw [List.drop_append_of_le_length]
  · exact List.mem_append_right _ List.mem_cons_self
  · rw [List.length_append, List.length_cons]
    omega

end Recent

section Runs

variable {V : Type} {cm : CaseMap} {vs : VectorStore V} {env : Env} {s t u : MemoryService V}
variable {e : StoreEvent} {es : List StoreEvent} {x : MemoryItem} {n : Nat}
variable {kind key value : PyStr} {metadata : PyDict}

theorem final_run_write :
    final ((MemoryCall.write kind key value metadata).run cm vs env s) =
      final (write cm vs env kind key value metadata s) := by
  unfold MemoryCall.run
  rw [final_bind]
  cases write cm vs env kind key value metadata s <;> rfl

theorem final_run_delete :
    final ((MemoryCall.delete kind key).run cm vs env s) = final (delete vs env kind key s) := by
  unfold MemoryCall.run
  rw [final_bind]
  cases delete vs env kind key s <;> rfl

/-- What a delete leaves, whether it returned or raised. -/
theorem items_delete (vs : VectorStore V) (env : Env) (kind key : PyStr) (s : MemoryService V) :
    (final (delete vs env kind key s)).items = s.items.filter fun i => !named kind key i := by
  unfold delete flushPersisted
  cases env.postgres with
  | raises e => rfl
  | _ =>
    cases env.neo4j with
    | raises e => rfl
    | _ =>
      simp only [bind_run, get_run, set_run, call, pure_run]
      split
      · cases env.flushError <;> rfl
      · rfl

/-- A call keeps an item that it does not remove, with at most one more after it. -/
theorem recent_step (h : Recent x n s.items) (hkept : ¬ e.call.Removes x)
    (hst : (storeSystem cm vs).step s e t) :
    Recent x (n + e.accepted.toNat) t.items := by
  obtain ⟨haccepted, rfl⟩ := hst
  cases hcall : e.call with
  | write kind key value metadata =>
    rw [haccepted, hcall, final_run_write, write_eq, accepts]
    cases filtered cm s.items (kindArg cm kind) (PyStr.strip key) (PyStr.strip value) with
    | true => exact h
    | false =>
      obtain ⟨createdAt, hitems⟩ := final_append vs e.env (.new e.env.now e.env.uid (kindArg cm kind)
        (PyStr.strip key) (PyStr.strip value) metadata) s
      rw [if_neg (by simp), hitems]
      exact h.snoc _
  | delete kind key =>
    rw [haccepted, hcall, final_run_delete, items_delete]
    rw [hcall] at hkept
    exact h.filter (by simpa [MemoryCall.Removes] using hkept)
  | eraseAll =>
    rw [hcall] at hkept
    exact absurd trivial hkept

theorem recent_run (hrun : (storeSystem cm vs).Run s es t) (hkept : ∀ e ∈ es, ¬ e.call.Removes x)
    (h : Recent x n s.items) : Recent x (n + es.countP StoreEvent.accepted) t.items := by
  induction hrun generalizing n with
  | nil => exact h
  | @cons s t w e es hst _ ih =>
    have hnext := ih (fun e' he' => hkept e' (List.mem_cons_of_mem e he'))
      (recent_step h (hkept e List.mem_cons_self) hst)
    rw [List.countP_cons]
    cases hacc : e.accepted with
    | true =>
      rw [hacc] at hnext
      rwa [if_pos rfl, Nat.add_comm (List.countP _ es), ← Nat.add_assoc]
    | false =>
      rw [hacc] at hnext
      rwa [if_neg (by simp)]

theorem isDuplicate_of_recent (h : Recent x n s.items) (hn : n < 200)
    (hkey : normalized cm key = normalized cm x.key)
    (hvalue : normalized cm value = normalized cm x.value) :
    isDuplicate cm s.items x.kind key value = true := by
  have hmem : x ∈ (s.items.drop (s.items.length - 200)).reverse :=
    List.mem_reverse.mpr (h.mem_window hn)
  exact List.any_eq_true.mpr ⟨x, hmem, by simp [hkey, hvalue]⟩

theorem normalized_strip (text : PyStr) : normalized cm (PyStr.strip text) = normalized cm text := by
  unfold normalized
  rw [PyStr.strip_strip]

theorem items_of_accepted (hst : (storeSystem cm vs).step s e t) (hacc : e.accepted = true) :
    ∃ x, t.items = s.items ++ [x] := by
  obtain ⟨haccepted, rfl⟩ := hst
  rw [hacc] at haccepted
  cases hcall : e.call with
  | write kind key value metadata =>
    rw [hcall, accepts, eq_comm, Bool.not_eq_true'] at haccepted
    rw [final_run_write, write_eq, haccepted, if_neg (by simp)]
    obtain ⟨createdAt, hitems⟩ := final_append vs e.env (.new e.env.now e.env.uid (kindArg cm kind)
      (PyStr.strip key) (PyStr.strip value) metadata) s
    exact ⟨_, hitems⟩
  | delete kind key =>
    rw [hcall] at haccepted
    cases haccepted
  | eraseAll =>
    rw [hcall] at haccepted
    cases haccepted

/-- A write that is accepted, in any state, adds an item `x`. As long as no call has removed `x`
and fewer than 200 writes have been accepted since, a write of the same kind, an empty kind read as
its default, and the same key and value up to case and white space is refused and changes
nothing. -/
theorem recent_duplicate_filtered (hst : (storeSystem cm vs).step s e t) (hacc : e.accepted = true) :
    ∃ x, t.items = s.items ++ [x] ∧
      ∀ es u, (storeSystem cm vs).Run t es u → (∀ e' ∈ es, ¬ e'.call.Removes x) →
        es.countP StoreEvent.accepted < 200 →
        ∀ (env : Env) (kind key value : PyStr) (metadata : PyDict), kindArg cm kind = x.kind →
          normalized cm key = normalized cm x.key → normalized cm value = normalized cm x.value →
          write cm vs env kind key value metadata u =
            .ok (.new env.now env.uid x.kind (PyStr.strip key) (PyStr.strip value)
              (PyDict.set metadata (str "filtered") (.bool true))) u := by
  obtain ⟨x, hx⟩ := items_of_accepted hst hacc
  refine ⟨x, hx, ?_⟩
  intro es u hrun hkept hfew env kind key value metadata hkind hkey hvalue
  have hfirst : Recent x 0 t.items := by
    rw [hx]
    exact .last x s.items
  have hrecent := recent_run hrun hkept hfirst
  rw [Nat.zero_add] at hrecent
  have hdup := isDuplicate_of_recent hrecent hfew ((normalized_strip key).trans hkey)
    ((normalized_strip value).trans hvalue)
  rw [write_eq, filtered, hkind, hdup, Bool.or_true, if_pos rfl]

end Runs

def lisbonEvent (kind : PyStr) : StoreEvent where
  env := .fileOnly (str "t") (str "u1")
  call := .write kind (str "city") (str "Lisbon") []
  accepted := true

def lisbonOf (kind : PyStr) : MemoryItem := .new (str "t") (str "u1") kind (str "city") (str "Lisbon") []

def dogEvent : StoreEvent where
  env := .fileOnly (str "t") (str "u2")
  call := .write (str "note") (str "dog") (str "Rex") []
  accepted := true

def dogGone : StoreEvent where
  env := .fileOnly (str "t") (str "u3")
  call := .delete (str "note") (str "dog")
  accepted := false

/-- Another note is written and deleted in between. -/
theorem recent_duplicate_filtered_lisbon :
    (storeSystem .asciiOnly VectorStore.inert).Run (synced [])
        [lisbonEvent (str "Note"), dogEvent, dogGone] (synced [lisbonOf (str "note")]) ∧
      write .asciiOnly VectorStore.inert (.fileOnly [] []) [] (str "City ") (str "LISBON") []
          (synced [lisbonOf (str "note")]) =
        .ok (.new [] [] (str "note") (str "City") (str "LISBON") [(str "filtered", .bool true)])
          (synced [lisbonOf (str "note")]) := by
  have hst : (storeSystem .asciiOnly VectorStore.inert).step (synced []) (lisbonEvent (str "Note"))
      (synced [lisbonOf (str "note")]) := ⟨rfl, rfl⟩
  have hrun : (storeSystem .asciiOnly VectorStore.inert).Run (synced [lisbonOf (str "note")])
      [dogEvent, dogGone] (synced [lisbonOf (str "note")]) := .cons ⟨rfl, rfl⟩ (.single ⟨rfl, rfl⟩)
  obtain ⟨x, hx, hall⟩ := recent_duplicate_filtered hst rfl
  obtain rfl : lisbonOf (str "note") = x := (List.cons.inj hx).1
  have hkept : ∀ e ∈ [dogEvent, dogGone],
      ¬ e.call.Removes (lisbonOf (str "note")) := by
    intro e he
    simp only [List.mem_cons, List.not_mem_nil, or_false] at he
    rcases he with rfl | rfl
    · exact id
    · have hother : named (str "note") (str "dog") (lisbonOf (str "note")) = false := by decide
      exact Bool.eq_false_iff.mp hother
  exact ⟨.cons hst hrun, hall _ _ hrun hkept (by decide) _ _ _ _ _ rfl rfl rfl⟩

/-- An item whose kind was only white space has the kind of an empty string, and a write of the
empty kind, which is a note, is not taken for its duplicate. -/
theorem not_recent_duplicate_filtered :
    ¬ ∀ (s t : MemoryService Unit) (e : StoreEvent), (storeSystem .asciiOnly .inert).step s e t →
      e.accepted = true →
      ∃ x, t.items = s.items ++ [x] ∧
        ∀ es u, (storeSystem .asciiOnly VectorStore.inert).Run t es u →
          (∀ e' ∈ es, ¬ e'.call.Removes x) → es.countP StoreEvent.accepted < 200 →
          ∀ (env : Env) (kind key value : PyStr) (metadata : PyDict),
            CaseMap.asciiOnly.lower (PyStr.strip kind) = x.kind →
            normalized .asciiOnly key = normalized .asciiOnly x.key →
            normalized .asciiOnly value = normalized .asciiOnly x.value →
            ∃ i, write .asciiOnly .inert env kind key value metadata u = .ok i u := by
  intro hall
  have hst : (storeSystem .asciiOnly VectorStore.inert).step (synced []) (lisbonEvent (str "  "))
      (synced [lisbonOf []]) := ⟨rfl, rfl⟩
  obtain ⟨x, hx, hsame⟩ := hall _ _ _ hst rfl
  obtain rfl : lisbonOf [] = x := (List.cons.inj hx).1
  obtain ⟨i, hi⟩ := hsame [] _ (.nil _) (by simp) (by decide) (.fileOnly [] []) [] (str "city")
    (str "Lisbon") [] rfl rfl rfl
  have hlen : 2 = 1 := congrArg (fun r => (final r).items.length) hi
  omega

end VirtualPerson
