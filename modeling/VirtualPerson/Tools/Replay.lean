import VirtualPerson.Tools.Confirmation

/-!
# Replayed confirmations

A used confirmation works a second time exactly where its id was issued again in between, to a
request whose params object got the address of the one confirmed.
-/

namespace VirtualPerson

set_option autoImplicit false

open ToolRegistry ToolState

variable {W : Type} {excText : PyExc → PyStr} {s t : ToolState W} {e : ToolEvent W}
  {ls : List (ToolEvent W)}

/-- Once a `confirm` has found its request, every later `confirm` with the id is rejected. -/
def NoReplay (ls : List (ToolEvent W)) : Prop :=
  ∀ (c : PyStr) (before : List (ToolEvent W)) (used : ToolEvent W) (between : List (ToolEvent W))
    (again : ToolEvent W) (after : List (ToolEvent W)),
    ls = before ++ used :: (between ++ again :: after) → used.Accepts c → again.Tries c →
      ¬ again.Accepts c

/-- After a confirmation no request of its tool gets the address of its params object again, unless
no one tries the id any more. -/
def NeverReissued (ls : List (ToolEvent W)) : Prop :=
  ∀ (tool : PyStr) (a : Nat) (before : List (ToolEvent W)) (used : ToolEvent W)
    (between : List (ToolEvent W)) (request : ToolEvent W) (between' : List (ToolEvent W))
    (again : ToolEvent W) (after : List (ToolEvent W)),
    ls = before ++ used :: (between ++ request :: (between' ++ again :: after)) →
      used.Accepts (confirmId tool a) → request.Asks tool a → ¬ again.Tries (confirmId tool a)

theorem tries_of_accepts {c : PyStr} (h : e.Accepts c) : e.Tries c := by
  cases e with
  | confirm c' accepted answer invoked => exact h.1
  | _ => cases h

theorem not_asks_of_accepts {c tool : PyStr} {a : Nat} (h : e.Accepts c) : ¬ e.Asks tool a := by
  cases e with
  | confirm c' accepted answer invoked => exact fun hasks => hasks
  | _ => cases h

theorem accepts_of_pending (hst : ToolStep excText s e t) {c : PyStr} {p : PendingCall}
    (hp : s.pending c = some p) (htries : e.Tries c) : e.Accepts c := by
  cases hst with
  | confirm c' =>
    obtain rfl : c' = c := htries
    exact ⟨rfl, by rw [hp]; rfl⟩
  | _ => cases htries

theorem pending_stays (hst : ToolStep excText s e t) {c : PyStr} {p : PendingCall}
    (hp : s.pending c = some p) (htries : ¬ e.Tries c) : ∃ p', t.pending c = some p' := by
  cases hst with
  | alloc => exact ⟨p, hp⟩
  | free => exact ⟨p, hp⟩
  | register => exact ⟨p, hp⟩
  | execute name a params userConfirmed hobject =>
    rcases s.asks_or_runs name userConfirmed with ⟨hexternal, rfl⟩ | hruns
    · rw [pending_of_asks params hexternal]
      split
      · exact ⟨_, rfl⟩
      · exact ⟨p, hp⟩
    · rw [execute_eq_of_runs params hruns]
      exact ⟨p, hp⟩
  | confirm c' =>
    refine ⟨p, ?_⟩
    rw [pending_confirm, if_neg (fun heq => htries heq.symm)]
    exact hp

/-- In a run from a pending request to a `confirm` with its id, one `confirm` is accepted. -/
theorem exists_accepts {c : PyStr} {p : PendingCall} (hp : s.pending c = some p) (htries : e.Tries c)
    (hrun : (toolSystem W excText).Run s (ls ++ [e]) t) :
    ∃ before x after, ls ++ [e] = before ++ x :: after ∧ x.Accepts c := by
  induction ls generalizing s p with
  | nil =>
    cases hrun with
    | cons hst _ => exact ⟨[], e, [], rfl, accepts_of_pending hst hp htries⟩
  | cons l ls ih =>
    cases hrun with
    | cons hst hrest =>
      by_cases hl : l.Tries c
      · exact ⟨[], l, ls ++ [e], rfl, accepts_of_pending hst hp hl⟩
      · obtain ⟨p', hp'⟩ := pending_stays hst hp hl
        obtain ⟨before, x, after, heq, hx⟩ := ih hp' hrest
        exact ⟨l :: before, x, after, by rw [List.cons_append, heq]; rfl, hx⟩

theorem pending_of_asking (hst : ToolStep excText s e t) {tool : PyStr} {a : Nat}
    (hasks : e.Asks tool a) : ∃ p, t.pending (confirmId tool a) = some p := by
  cases hst with
  | execute name a' params userConfirmed hobject =>
    cases userConfirmed with
    | true => cases hasks
    | false =>
      cases hexternal : s.registry.external name with
      | false =>
        rw [hexternal] at hasks
        cases hasks
      | true =>
        rw [hexternal] at hasks
        obtain ⟨rfl, rfl⟩ := hasks
        rw [pending_of_asks params hexternal, if_pos rfl]
        exact ⟨_, rfl⟩
  | _ => cases hasks

/-- No confirmation is replayed exactly where no id is issued again and tried again. -/
theorem noReplay_iff {s₀ : ToolState W} (h₀ : (toolSystem W excText).init s₀)
    (hrun : (toolSystem W excText).Run s₀ ls t) : NoReplay ls ↔ NeverReissued ls := by
  constructor
  · intro h tool a before used between request between' again after hls hused hasks htries
    subst hls
    -- from the new request on the id is pending, so some later `confirm` finds it
    have hsplit : before ++ used :: (between ++ request :: (between' ++ again :: after)) =
        (before ++ used :: (between ++ [request])) ++ ((between' ++ [again]) ++ after) := by simp
    rw [hsplit] at hrun
    obtain ⟨s, hfirst, hrest⟩ := hrun.of_append
    obtain ⟨u, hlast, -⟩ := hrest.of_append
    have hsplit' : before ++ used :: (between ++ [request]) =
        (before ++ used :: between) ++ [request] := by simp
    rw [hsplit'] at hfirst
    obtain ⟨r, -, hrequest⟩ := hfirst.of_append
    cases hrequest with
    | cons hst hnil =>
      cases hnil with
      | nil =>
        obtain ⟨p, hp⟩ := pending_of_asking hst hasks
        obtain ⟨front, x, back, heq, hx⟩ := exists_accepts hp htries hlast
        have hx' := tries_of_accepts hx
        apply h (confirmId tool a) before used (between ++ request :: front) x (back ++ after) _ hused
          hx' hx
        have hparts : between' ++ again :: after = (between' ++ [again]) ++ after := by simp
        rw [hparts, heq]
        simp
  · intro h c before used between again after hls hused htries haccepts
    subst hls
    have hsplit : before ++ used :: (between ++ again :: after) =
        (before ++ used :: between) ++ (again :: after) := by simp
    rw [hsplit] at hrun
    obtain ⟨s, hfirst, hlast⟩ := hrun.of_append
    have hinv := Inv.of_run h₀ hfirst
    cases hlast with
    | cons hst _ =>
      obtain ⟨p, hp⟩ := pending_of_accepts hst haccepts
      -- the request behind the second `confirm` came after the first
      obtain ⟨front, request, back, rfl, ⟨-, a, rfl, hasks⟩, -⟩ :=
        (hinv.outstanding c p hp).of_reset hused
          (fun hmark => by
            obtain ⟨-, a, -, hasks⟩ := hmark
            exact not_asks_of_accepts hused hasks)
      exact h p.tool a before used front request back again after (by simp) hused hasks htries

/-- A message to Alice is confirmed, its params are freed, and a message to Bob gets their address:
the old confirmation sends it. -/
theorem exists_replay :
    ∃ ls t, (toolSystem Unit PyExc.name).Run ToolState.empty ls t ∧ ¬ NoReplay ls := by
  let c := confirmId (str "send_message") 1
  have hrun :=
    System.Run.cons (A := toolSystem Unit PyExc.name)
      (ToolStep.register ToolState.empty sendMessage) <|
    .cons (ToolStep.alloc (a := 1) (message "to Alice") rfl) <|
    .cons (ToolStep.execute (str "send_message") 1 (message "to Alice") false rfl) <|
    .cons (ToolStep.confirm _ c) <|
    .cons (ToolStep.free (a := 1) fun _ => rfl) <|
    .cons (ToolStep.alloc (a := 1) (message "to Bob") rfl) <|
    .cons (ToolStep.execute (str "send_message") 1 (message "to Bob") false rfl) <|
    .cons (ToolStep.confirm _ c) <| .nil _
  refine ⟨_, _, hrun, ?_⟩
  intro h
  exact h c [_, _, _] _ [_, _, _] _ [] rfl ⟨rfl, rfl⟩ rfl ⟨rfl, rfl⟩

theorem noReplay_iff_message :
    ∃ ls t, (toolSystem Unit PyExc.name).Run ToolState.empty ls t ∧ ¬ NoReplay ls ∧
      (NoReplay ls ↔ NeverReissued ls) := by
  obtain ⟨ls, t, hrun, hreplay⟩ := exists_replay
  exact ⟨ls, t, hrun, hreplay, noReplay_iff ⟨rfl, rfl, rfl, fun _ => rfl⟩ hrun⟩

theorem not_noReplay :
    ¬ ∀ ls t, (toolSystem Unit PyExc.name).Run ToolState.empty ls t → NoReplay ls := by
  intro h
  obtain ⟨ls, t, hrun, hreplay⟩ := exists_replay
  exact hreplay (h ls t hrun)

end VirtualPerson
