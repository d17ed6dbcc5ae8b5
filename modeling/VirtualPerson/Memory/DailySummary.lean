import VirtualPerson.Memory.Duplicates
import VirtualPerson.Memory.Processes

/-!
# The cached daily summary

`daily_summary_precompute` deletes the note of its day and writes a new one. How many such notes
there can be in any run of jobs and calls, redelivered jobs and failing backends included.
-/

namespace VirtualPerson

set_option autoImplicit false

open MemoryService Stateful

namespace Jobs

/-- `f"daily_summary:{day}"` -/
def summaryKey (day : PyStr) : PyStr := str "daily_summary:" ++ day

/-- The cached summaries of a day -/
def cachedFor (day : PyStr) (items : List MemoryItem) : List MemoryItem :=
  items.filter (named (str "note") (summaryKey day))

/-- At most one for each day -/
def OncePerDay {V : Type} (s : MemoryService V) : Prop := ∀ day, (cachedFor day s.items).length ≤ 1

theorem summaryKey_inj {day day' : PyStr} (h : summaryKey day = summaryKey day') : day = day' :=
  List.append_cancel_left h

section Kept

variable {V : Type} {cm : CaseMap} {vs : VectorStore V} {env : Env} {senv : SearchEnv} {s : MemoryService V}
variable {items items' : List MemoryItem} {day kind key value : PyStr} {metadata : PyDict}

theorem OncePerDay.of_sublist {t : MemoryService V} (h : OncePerDay s) (hsub : t.items.Sublist s.items) :
    OncePerDay t :=
  fun day => Nat.le_trans ((hsub.filter _).length_le) (h day)

/-- The program leaves no items but those there were. -/
def Shrinks {α : Type} (p : ServiceM V α) : Prop := ∀ s, (final (p s)).items.Sublist s.items

theorem shrinks_pure {α : Type} (a : α) : Shrinks (pure a : ServiceM V α) := fun _ => .refl _

theorem Shrinks.bind {α β : Type} {p : ServiceM V α} {f : α → ServiceM V β} (hp : Shrinks p)
    (hf : ∀ a, Shrinks (f a)) : Shrinks (p >>= f) := by
  intro s
  have hfirst := hp s
  rw [final_bind]
  cases hrun : p s with
  | ok a t =>
    rw [hrun] at hfirst
    exact (hf a t).trans hfirst
  | error e t =>
    rw [hrun] at hfirst
    exact hfirst

theorem shrinks_delete (vs : VectorStore V) (env : Env) (kind key : PyStr) :
    Shrinks (MemoryService.delete vs env kind key) := by
  intro s
  rw [items_delete]
  exact List.filter_sublist

theorem items_eraseAll (vs : VectorStore V) (env : Env) (s : MemoryService V) :
    (final (eraseAll vs env s)).items = [] := by
  unfold eraseAll flushPersisted
  cases env.postgres with
  | raises e => rfl
  | _ =>
    cases env.neo4j with
    | raises e => rfl
    | _ => cases env.flushError <;> rfl

/-- A search leaves the service as it was, whether it returns or raises. -/
theorem final_search (cm : CaseMap) (senv : SearchEnv) (query : PyStr) (s : MemoryService V) :
    final (search cm senv query s) = s := by
  unfold search
  simp only [final_bind, get_run]
  cases senv.postgres with
  | raises e => rfl
  | _ =>
    cases senv.neo4j with
    | raises e => rfl
    | _ =>
      simp only [call, pure_run]
      split
      · generalize semanticSearch senv s.items query _ = ranked
        cases ranked <;> rfl
      · rfl

theorem shrinks_search (cm : CaseMap) (senv : SearchEnv) (query : PyStr) :
    Shrinks (V := V) (search cm senv query) := by
  intro s
  rw [final_search]

theorem shrinks_prune (vs : VectorStore V) (stale : PyStr → PyStr → Bool) (env : Nat → Env) (n : Nat)
    (ms : List MemoryItem) : Shrinks (prune vs stale env n ms) := by
  induction ms generalizing n with
  | nil => exact shrinks_pure 0
  | cons m ms ih =>
    have hone : Shrinks (pruneOne vs stale (env n) m) := by
      unfold pruneOne
      split
      · exact shrinks_delete vs (env n) m.kind m.key
      · exact shrinks_pure false
    exact hone.bind fun removed => (ih (n + 1)).bind fun pruned => shrinks_pure _

theorem shrinks_curate {S : Type} [LinearOrder S] (cm : CaseMap) (vs : VectorStore V)
    (stale : PyStr → PyStr → Bool) (score : MemoryItem → S) (senv : SearchEnv) (env : Nat → Env) :
    Shrinks (curateMemories cm vs stale score senv env) :=
  (shrinks_search cm senv []).bind fun items => (shrinks_prune vs stale env 0 items).bind fun _ =>
    shrinks_pure _

/-- A write adds at most its own item. -/
theorem items_write (cm : CaseMap) (vs : VectorStore V) (env : Env) (kind key value : PyStr)
    (metadata : PyDict) (s : MemoryService V) :
    (final (write cm vs env kind key value metadata s)).items = s.items ∨
      ∃ i, i.kind = kindArg cm kind ∧ i.key = PyStr.strip key ∧
        (final (write cm vs env kind key value metadata s)).items = s.items ++ [i] := by
  rw [write_eq]
  split
  · exact .inl rfl
  · obtain ⟨createdAt, hitems⟩ := final_append vs env
      (.new env.now env.uid (kindArg cm kind) (PyStr.strip key) (PyStr.strip value) metadata) s
    exact .inr ⟨_, rfl, rfl, hitems⟩

theorem cachedFor_snoc_of_ne {i : MemoryItem} (h : named (str "note") (summaryKey day) i = false) :
    cachedFor day (items ++ [i]) = cachedFor day items := by
  rw [cachedFor, List.filter_append, List.filter_cons_of_neg (by rw [h]; exact Bool.false_ne_true)]
  exact List.append_nil _

/-- A write under no summary's key -/
theorem oncePerDay_write (h : OncePerDay s) (vs : VectorStore V) (env : Env)
    (hother : ∀ day, ¬ (kindArg cm kind = str "note" ∧ PyStr.strip key = summaryKey day)) :
    OncePerDay (final (write cm vs env kind key value metadata s)) := by
  intro day
  rcases items_write cm vs env kind key value metadata s with hsame | ⟨i, hkind, hkey, hadded⟩
  · rw [hsame]
    exact h day
  · have hne : named (str "note") (summaryKey day) i = false := by
      rw [Bool.eq_false_iff]
      intro hnamed
      rw [named, Bool.and_eq_true, decide_eq_true_iff, decide_eq_true_iff, hkind, hkey] at hnamed
      exact hother day hnamed
    rw [hadded, cachedFor_snoc_of_ne hne]
    exact h day

theorem kindArg_note (cm : CaseMap) : kindArg cm (str "note") = str "note" :=
  cm.ascii (str "note") (by decide)

/-- A key whose day has no white space is stored as it is. -/
theorem strip_summaryKey (hday : ∀ c ∈ day, isSpace c = false) :
    PyStr.strip (summaryKey day) = summaryKey day := by
  apply PyStr.strip_eq_self
  · intro c hc
    cases hc
    rfl
  · intro c hc
    have hmem : c ∈ summaryKey day := List.mem_of_getLast? hc
    rcases List.mem_append.mp hmem with hlabel | hlast
    · exact (by decide : ∀ c ∈ str "daily_summary:", isSpace c = false) c hlabel
    · exact hday c hlast

theorem cachedFor_deleted (vs : VectorStore V) (env : Env) (day : PyStr) (s : MemoryService V) :
    cachedFor day (final (MemoryService.delete vs env (str "note") (summaryKey day) s)).items = [] := by
  rw [items_delete, cachedFor, List.filter_filter, List.filter_eq_nil_iff]
  intro i _
  cases named (str "note") (summaryKey day) i <;> simp

/-- Where the day has no summary, a new one may be written. -/
theorem oncePerDay_written (h : OncePerDay s) (hnone : cachedFor day s.items = []) (cm : CaseMap)
    (vs : VectorStore V) (env : Env) (hday : ∀ c ∈ day, isSpace c = false) (value : PyStr)
    (metadata : PyDict) :
    OncePerDay (final (write cm vs env (str "note") (summaryKey day) value metadata s)) := by
  intro day'
  rcases items_write cm vs env (str "note")
    (summaryKey day) value metadata s with hsame | ⟨i, -, hkey, hadded⟩
  · rw [hsame]
    exact h day'
  · rw [hadded]
    by_cases hd : day' = day
    · rw [hd, cachedFor, List.filter_append]
      change (cachedFor day s.items ++ _).length ≤ 1
      rw [hnone, List.nil_append]
      exact List.length_filter_le _ [i]
    · have hne : named (str "note") (summaryKey day') i = false := by
        rw [Bool.eq_false_iff]
        intro hnamed
        rw [named, Bool.and_eq_true, decide_eq_true_iff, decide_eq_true_iff, hkey,
          strip_summaryKey hday] at hnamed
        exact hd (summaryKey_inj hnamed.2).symm
      rw [cachedFor_snoc_of_ne hne]
      exact h day'

/-- The handler leaves the state that the upsert has left. -/
theorem final_upsertSummary {S : Type} (k : MemoryKit V S) (deleteEnv writeEnv : Env) (day : PyStr)
    (summary : PyDict) (s : MemoryService V) :
    final (upsertSummary k deleteEnv writeEnv day summary s) =
      match MemoryService.delete k.vs deleteEnv (str "note") (summaryKey day) s with
      | .ok _ t => final (write k.cm k.vs writeEnv (str "note") (summaryKey day) (k.dumps summary)
          [(str "generated_by", .str (str "daily_summary_precompute"))] t)
      | .error _ t => t := by
  unfold upsertSummary
  rw [tryCatch_run]
  simp only [bind_run]
  unfold summaryKey
  cases MemoryService.delete k.vs deleteEnv (str "note") (str "daily_summary:" ++ day) s with
  | error e t =>
    dsimp only
    split <;> rfl
  | ok removed t =>
    dsimp only
    cases write k.cm k.vs writeEnv (str "note") (str "daily_summary:" ++ day) (k.dumps summary)
      [(str "generated_by", .str (str "daily_summary_precompute"))] t with
    | ok item u => rfl
    | error e u =>
      dsimp only
      split <;> rfl

/-- Deleting and writing, whatever raises in between, leaves one summary for each day. -/
theorem oncePerDay_upsert {S : Type} (k : MemoryKit V S) (h : OncePerDay s) (deleteEnv writeEnv : Env)
    (hday : ∀ c ∈ day, isSpace c = false) (summary : PyDict) :
    OncePerDay (final (upsertSummary k deleteEnv writeEnv day summary s)) := by
  have hdeleted : OncePerDay (final (MemoryService.delete k.vs deleteEnv (str "note") (summaryKey day) s)) :=
    h.of_sublist (shrinks_delete k.vs deleteEnv _ _ s)
  have hnone := cachedFor_deleted k.vs deleteEnv day s
  rw [final_upsertSummary]
  cases hdelete : MemoryService.delete k.vs deleteEnv (str "note") (summaryKey day) s with
  | error e t =>
    rw [hdelete] at hdeleted
    exact hdeleted
  | ok removed t =>
    rw [hdelete] at hdeleted hnone
    exact oncePerDay_written hdeleted hnone k.cm k.vs writeEnv hday _ _

end Kept

section Runs

variable {V S : Type} {k : MemoryKit V S} {s t : MemoryService V} {op : MemoryOp}
variable {ops : List MemoryOp} {senv : SearchEnv} {deleteEnv writeEnv : Env} {now : Int} {day : PyStr}
variable {reminders : List Reminder}

theorem final_unit {α : Type} (p : ServiceM V α) (s : MemoryService V) :
    final ((do let _ ← p) s) = final (p s) := by
  rw [final_bind]
  cases p s <;> rfl

theorem final_dailySummary (k : MemoryKit V S) (senv : SearchEnv) (deleteEnv writeEnv : Env) (now : Int)
    (day : PyStr) (reminders : List Reminder) (s : MemoryService V) :
    (∃ summary, final (dailySummaryPrecompute k senv deleteEnv writeEnv now day reminders s) =
        final (upsertSummary k deleteEnv writeEnv day summary s)) ∨
      final (dailySummaryPrecompute k senv deleteEnv writeEnv now day reminders s) = s := by
  unfold dailySummaryPrecompute
  have hsearch := final_search k.cm senv [] s
  rw [final_bind]
  cases hrun : search k.cm senv [] s with
  | error e t =>
    rw [hrun] at hsearch
    exact .inr hsearch
  | ok recent t =>
    rw [hrun] at hsearch
    obtain rfl : t = s := hsearch
    refine .inl ⟨ProactivityService.dailySummary k.isoformat now reminders (recent.take 20).length, ?_⟩
    dsimp only
    rw [final_bind]
    cases upsertSummary k deleteEnv writeEnv day
      (ProactivityService.dailySummary k.isoformat now reminders (recent.take 20).length) t <;> rfl

/-- A job that nothing disturbs takes out the summaries of its day and writes its own, unless a note of
the same text under the same key, but for case and white space, stands in its way. -/
theorem dailySummary_quiet (k : MemoryKit V S) (s : MemoryService V)
    (hquiet : (MemoryOp.dailySummary senv deleteEnv writeEnv now day reminders).Quiet)
    (hday : ∀ c ∈ day, isSpace c = false) :
    ∃ summary t, dailySummaryPrecompute k senv deleteEnv writeEnv now day reminders s = .ok summary t ∧
      let others := s.items.filter fun i => !named (str "note") (summaryKey day) i
      if filtered k.cm others (str "note") (summaryKey day) (PyStr.strip (k.dumps summary)) then
        t.items = others
      else
        ∃ i, named (str "note") (summaryKey day) i = true ∧ i.value = PyStr.strip (k.dumps summary) ∧
          t.items = others ++ [i] ∧ t.file = .ofItems t.items := by
  obtain ⟨hsenv, hdelete, hwrite⟩ := hquiet
  let others := s.items.filter fun i => !named (str "note") (summaryKey day) i
  let recent := merged senv.fresh s.items (senv.postgres.value [] ++ senv.neo4j.value [])
  let summary := ProactivityService.dailySummary k.isoformat now reminders (recent.take 20).length
  let metadata : PyDict := [(str "generated_by", .str (str "daily_summary_precompute"))]
  obtain ⟨u, hdeleted, hitems⟩ : ∃ u, MemoryService.delete k.vs deleteEnv (str "note") (summaryKey day) s =
      .ok (s.items.any (named (str "note") (summaryKey day))) u ∧ u.items = others :=
    ⟨_, delete_quiet hdelete, rfl⟩
  have hwritten : write k.cm k.vs writeEnv (str "note") (summaryKey day) (k.dumps summary) metadata u = _ :=
    write_eq
  rw [kindArg_note, strip_summaryKey hday, hitems] at hwritten
  have hjob (item : MemoryItem) (t : MemoryService V)
      (hrun : write k.cm k.vs writeEnv (str "note") (summaryKey day) (k.dumps summary) metadata u =
        .ok item t) :
      dailySummaryPrecompute k senv deleteEnv writeEnv now day reminders s = .ok summary t := by
    have hupsert : upsertSummary k deleteEnv writeEnv day summary s = .ok () t := by
      unfold upsertSummary
      unfold summaryKey at hdeleted hrun
      rw [tryCatch_run]
      simp only [bind_run, hdeleted]
      rw [hrun]
      rfl
    unfold dailySummaryPrecompute
    rw [bind_run, search_empty hsenv]
    dsimp only
    rw [bind_run, hupsert]
    rfl
  cases hfiltered : filtered k.cm others (str "note") (summaryKey day) (PyStr.strip (k.dumps summary)) with
  | true =>
    rw [hfiltered, if_pos rfl] at hwritten
    refine ⟨summary, u, hjob _ u hwritten, ?_⟩
    dsimp only
    rw [if_pos hfiltered]
    exact hitems
  | false =>
    rw [hfiltered, if_neg Bool.false_ne_true, append_quiet hwrite] at hwritten
    refine ⟨summary, _, hjob _ _ hwritten, ?_⟩
    dsimp only
    rw [if_neg (by rw [hfiltered]; exact Bool.false_ne_true)]
    refine ⟨_, ?_, rfl, congrArg (· ++ _) hitems, rfl⟩
    rw [named, Bool.and_eq_true]
    exact ⟨decide_eq_true rfl, decide_eq_true rfl⟩

variable [LinearOrder S]

/-- Jobs and calls on one service, one after the other; what raises leaves what it has done. -/
def jobSystem (k : MemoryKit V S) : System (MemoryService V) MemoryOp where
  init := OncePerDay
  step s op t := t = final (op.run k s)

/-- No write but the job's is under a summary's key, and a day has no white space. -/
def Spares (cm : CaseMap) : MemoryOp → Prop
  | .write _ kind key _ _ => ∀ day, ¬ (kindArg cm kind = str "note" ∧ PyStr.strip key = summaryKey day)
  | .dailySummary _ _ _ _ day _ => ∀ c ∈ day, isSpace c = false
  | _ => True

theorem oncePerDay_step (h : OncePerDay s) (hspares : Spares k.cm op) (hst : (jobSystem k).step s op t) :
    OncePerDay t := by
  obtain rfl : t = final (op.run k s) := hst
  cases op with
  | write env kind key value metadata =>
    rw [MemoryOp.run, final_unit]
    exact oncePerDay_write h k.vs env hspares
  | delete env kind key =>
    rw [MemoryOp.run, final_unit]
    exact h.of_sublist (shrinks_delete k.vs env kind key s)
  | eraseAll env =>
    rw [MemoryOp.run, final_unit]
    apply h.of_sublist
    rw [items_eraseAll]
    exact List.nil_sublist _
  | curateMemories now senv env =>
    rw [MemoryOp.run, final_unit]
    exact h.of_sublist (shrinks_curate k.cm k.vs _ k.score senv env s)
  | dailySummary senv deleteEnv writeEnv now day reminders =>
    rw [MemoryOp.run, final_unit]
    rcases final_dailySummary k senv deleteEnv writeEnv now day reminders s with ⟨summary, heq⟩ | heq
    · rw [heq]
      exact oncePerDay_upsert k h deleteEnv writeEnv hspares summary
    · rw [heq]
      exact h

theorem oncePerDay_run (hrun : (jobSystem k).Run s ops t) (hspares : ∀ op ∈ ops, Spares k.cm op)
    (h : OncePerDay s) : OncePerDay t := by
  induction hrun with
  | nil => exact h
  | cons hst _ ih =>
    apply ih (fun op hop => hspares op (List.mem_cons_of_mem _ hop))
    exact oncePerDay_step h (hspares _ List.mem_cons_self) hst

/-- However often jobs are redelivered and wherever they fail, there is at most one summary for each day;
and a job that nothing disturbs leaves exactly its own in place of those of its day. -/
theorem summary_cached_once (k : MemoryKit V S) (h₀ : (jobSystem k).init s)
    (hrun : (jobSystem k).Run s ops t) (hspares : ∀ op ∈ ops, Spares k.cm op) :
    OncePerDay t ∧
      ∀ senv deleteEnv writeEnv now day reminders,
        (MemoryOp.dailySummary senv deleteEnv writeEnv now day reminders).Quiet →
        (∀ c ∈ day, isSpace c = false) →
        ∃ summary u, dailySummaryPrecompute k senv deleteEnv writeEnv now day reminders t = .ok summary u ∧
          let others := t.items.filter fun i => !named (str "note") (summaryKey day) i
          if filtered k.cm others (str "note") (summaryKey day) (PyStr.strip (k.dumps summary)) then
            u.items = others
          else
            ∃ i, named (str "note") (summaryKey day) i = true ∧ i.value = PyStr.strip (k.dumps summary) ∧
              u.items = others ++ [i] ∧ u.file = .ofItems u.items := by
  constructor
  · exact oncePerDay_run hrun hspares h₀
  · intro senv deleteEnv writeEnv now day reminders hquiet hday
    exact dailySummary_quiet k t hquiet hday

end Runs

/-- A kit whose summary is always the same text. -/
def briefKit : MemoryKit Unit Nat := { twoDates with dumps := fun _ => str "{}" }

def october2 : PyStr := str "2026-10-02"

def summaryJob (deleteEnv : Env) : MemoryOp :=
  .dailySummary .fileOnly deleteEnv (.fileOnly [] []) 0 october2 []

theorem october2_solid : ∀ c ∈ october2, isSpace c = false := by decide

theorem quiet_summaryJob : (summaryJob (.fileOnly [] [])).Quiet :=
  ⟨SearchEnv.quiet_fileOnly, Env.quiet_fileOnly [] [], Env.quiet_fileOnly [] []⟩

/-- The first delivery stops at the store's deletion; the second goes through. -/
def redelivered : MemoryService Unit :=
  final ((summaryJob (.fileOnly [] [])).run briefKit
    (final ((summaryJob .postgresDown).run briefKit (synced []))))

theorem redelivered_others :
    redelivered.items.filter (fun i => !named (str "note") (summaryKey october2) i) = [] := by
  decide +kernel

/-- And so does a third, which finds one summary and leaves one. -/
theorem summary_cached_once_third :
    OncePerDay redelivered ∧ ∃ summary u,
      dailySummaryPrecompute briefKit .fileOnly (.fileOnly [] []) (.fileOnly [] []) 0 october2 []
        redelivered = .ok summary u ∧ u.items.map (·.value) = [str "{}"] := by
  have hspares : ∀ op ∈ [summaryJob .postgresDown, summaryJob (.fileOnly [] [])], Spares briefKit.cm op := by
    intro op hop
    rcases List.mem_pair.mp hop with rfl | rfl <;> exact october2_solid
  obtain ⟨honce, hjob⟩ := summary_cached_once briefKit (s := synced []) (t := redelivered)
    (fun day => Nat.zero_le 1) (.cons rfl (.cons rfl (.nil _))) hspares
  obtain ⟨summary, u, hrun, hleft⟩ := hjob _ _ _ 0 october2 [] quiet_summaryJob october2_solid
  have hkept : filtered briefKit.cm [] (str "note") (summaryKey october2) (str "{}") = false := by decide
  simp only [redelivered_others] at hleft
  obtain ⟨i, -, hvalue, hitems, -⟩ := (if_neg (Bool.eq_false_iff.mp hkept)).mp hleft
  refine ⟨honce, summary, u, hrun, ?_⟩
  rw [hitems, List.nil_append, List.map_singleton, hvalue]
  rfl

end Jobs

end VirtualPerson
