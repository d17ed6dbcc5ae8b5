import VirtualPerson.Memory.Curation
import VirtualPerson.Proactivity.Service
import VirtualPerson.Transition

/-!
# Two processes on one memory file

The app and the queue worker each hold a copy of the items and rewrite the whole
file from it. Their runs are compared with those of one service that performs the
same operations.
-/

namespace VirtualPerson

set_option autoImplicit false

open MemoryService Stateful

structure MemoryKit (V S : Type) where
  cm : CaseMap
  vs : VectorStore V
  fromisoformat : PyStr → Option DateTime
  isoformat : Int → PyStr
  /-- `json.dumps(summary, ensure_ascii=False)` -/
  dumps : PyDict → PyStr
  score : MemoryItem → S

namespace Jobs

variable {V S : Type}

/-- The `try` around the upsert swallows every `Exception`. -/
def upsertSummary (k : MemoryKit V S) (deleteEnv writeEnv : Env) (day : PyStr) (summary : PyDict) :
    ServiceM V Unit :=
  tryCatch
    (do
      let key := str "daily_summary:" ++ day
      let _ ← delete k.vs deleteEnv (str "note") key
      let _ ← write k.cm k.vs writeEnv (str "note") key (k.dumps summary)
        [(str "generated_by", .str (str "daily_summary_precompute"))]
      return ())
    fun e => if e.isException then return () else throw e

def dailySummaryPrecompute (k : MemoryKit V S) (senv : SearchEnv) (deleteEnv writeEnv : Env)
    (now : Int) (day : PyStr) (reminders : List Reminder) : ServiceM V PyDict := do
  let recent ← search k.cm senv []
  let summary := ProactivityService.dailySummary k.isoformat now reminders (recent.take 20).length
  upsertSummary k deleteEnv writeEnv day summary
  return summary

end Jobs

inductive MemoryOp where
  | write (env : Env) (kind key value : PyStr) (metadata : PyDict)
  | delete (env : Env) (kind key : PyStr)
  | eraseAll (env : Env)
  | curateMemories (now : Int) (senv : SearchEnv) (env : Nat → Env)
  | dailySummary (senv : SearchEnv) (deleteEnv writeEnv : Env) (now : Int) (day : PyStr)
    (reminders : List Reminder)

namespace MemoryOp

/-- The worker process runs the jobs, the app the other operations. -/
def byWorker : MemoryOp → Bool
  | .curateMemories .. => true
  | .dailySummary .. => true
  | _ => false

def Quiet : MemoryOp → Prop
  | .write env .. => env.Quiet
  | .delete env .. => env.Quiet
  | .eraseAll env => env.Quiet
  | .curateMemories _ senv env => senv.Quiet ∧ ∀ n, (env n).Quiet
  | .dailySummary senv deleteEnv writeEnv .. => senv.Quiet ∧ deleteEnv.Quiet ∧ writeEnv.Quiet

def run {V S : Type} [LinearOrder S] (k : MemoryKit V S) : MemoryOp → ServiceM V Unit
  | .write env kind key value metadata => do
    let _ ← MemoryService.write k.cm k.vs env kind key value metadata
  | .delete env kind key => do
    let _ ← MemoryService.delete k.vs env kind key
  | .eraseAll env => do
    let _ ← MemoryService.eraseAll k.vs env
  | .curateMemories now senv env => do
    let _ ← Jobs.curateMemories k.cm k.vs (Curation.isStale k.fromisoformat now) k.score senv env
  | .dailySummary senv deleteEnv writeEnv now day reminders => do
    let _ ← Jobs.dailySummaryPrecompute k senv deleteEnv writeEnv now day reminders

end MemoryOp

section Durable

variable {V S : Type} {α β : Type}

/-- The operation returns, the semantic layer has no part in what it does to the items
and the file, and the file it leaves is untouched or holds the items it leaves. -/
def Durable (m : ServiceM V α) : Prop :=
  ∀ s, ∃ a t, m s = .ok a t ∧ m s.unindexed = .ok a t.unindexed ∧
    (t.unindexed = s.unindexed ∨ t.file = .ofItems t.items)

theorem durable_pure (a : α) : Durable (pure a : ServiceM V α) :=
  fun s => ⟨a, s, rfl, rfl, .inl rfl⟩

theorem Durable.bind {m : ServiceM V α} {f : α → ServiceM V β} (hm : Durable m)
    (hf : ∀ a, Durable (f a)) : Durable (m >>= f) := by
  intro s
  obtain ⟨a, t, hrun, hrun', hfile⟩ := hm s
  obtain ⟨b, w, hrunf, hrunf', hfile'⟩ := hf a t
  refine ⟨b, w, ?_, ?_, ?_⟩
  · simp only [bind_run, hrun, hrunf]
  · simp only [bind_run, hrun', hrunf']
  rcases hfile' with hsame | hsynced
  · rcases hfile with hsame' | hsynced
    · exact .inl (hsame.trans hsame')
    · have hitems : w.unindexed.items = t.unindexed.items := congrArg _ hsame
      have hwfile : w.unindexed.file = t.unindexed.file := congrArg _ hsame
      right
      apply hwfile.trans
      apply hsynced.trans
      exact congrArg PersistFile.ofItems hitems.symm
  · exact .inr hsynced

theorem Durable.tryCatch {m : ServiceM V α} {h : PyExc → ServiceM V α} (hm : Durable m) :
    Durable (tryCatch m h) := by
  intro s
  obtain ⟨a, t, hrun, hrun', hfile⟩ := hm s
  refine ⟨a, t, ?_, ?_, hfile⟩
  · simp only [tryCatch_run, hrun]
  · simp only [tryCatch_run, hrun']

variable {cm : CaseMap} {vs : VectorStore V} {env : Env} {senv : SearchEnv}

theorem durable_delete (henv : env.Quiet) (kind key : PyStr) :
    Durable (MemoryService.delete vs env kind key) := by
  intro s
  refine ⟨_, _, delete_quiet henv, delete_quiet henv, ?_⟩
  cases h : s.items.any (named kind key) with
  | false =>
    left
    simp [MemoryService.unindexed, kept_eq_self h]
  | true => exact .inr (by simp)

theorem durable_eraseAll (henv : env.Quiet) : Durable (MemoryService.eraseAll vs env) :=
  fun _ => ⟨_, _, eraseAll_quiet henv, eraseAll_quiet henv, .inr rfl⟩

theorem durable_write (henv : env.Quiet) (kind key value : PyStr) (metadata : PyDict) :
    Durable (MemoryService.write cm vs env kind key value metadata) := by
  intro s
  have hitems : s.unindexed.items = s.items := rfl
  rw [write_eq, write_eq, hitems]
  split
  · exact ⟨_, s, rfl, rfl, .inl rfl⟩
  · exact ⟨_, _, append_quiet henv, append_quiet henv, .inr rfl⟩

theorem durable_search (hsenv : senv.Quiet) : Durable (V := V) (search cm senv []) :=
  fun s => ⟨_, s, search_empty hsenv, search_empty (s := s.unindexed) hsenv, .inl rfl⟩

theorem durable_prune {stale : PyStr → PyStr → Bool} {env : Nat → Env} (henv : ∀ n, (env n).Quiet)
    (n : Nat) (ms : List MemoryItem) : Durable (Jobs.prune vs stale env n ms) := by
  induction ms generalizing n with
  | nil => exact durable_pure 0
  | cons m ms ih =>
    have hone : Durable (Jobs.pruneOne vs stale (env n) m) := by
      unfold Jobs.pruneOne
      split
      · exact durable_delete (henv n) m.kind m.key
      · exact durable_pure false
    exact hone.bind fun removed => (ih (n + 1)).bind fun pruned => durable_pure _

variable [LinearOrder S] {k : MemoryKit V S} {op : MemoryOp}

theorem MemoryOp.durable (h : op.Quiet) : Durable (op.run k) := by
  cases op with
  | write env kind key value metadata =>
    exact (durable_write h kind key value metadata).bind fun _ => durable_pure ()
  | delete env kind key => exact (durable_delete h kind key).bind fun _ => durable_pure ()
  | eraseAll env => exact (durable_eraseAll h).bind fun _ => durable_pure ()
  | curateMemories now senv env =>
    have hjob : Durable (Jobs.curateMemories k.cm k.vs (Curation.isStale k.fromisoformat now)
        k.score senv env) :=
      (durable_search h.1).bind fun items => (durable_prune h.2 0 items).bind fun _ => durable_pure _
    exact hjob.bind fun _ => durable_pure ()
  | dailySummary senv deleteEnv writeEnv now day reminders =>
    obtain ⟨hsenv, hdelete, hwrite⟩ := h
    have hupsert (summary : PyDict) :
        Durable (Jobs.upsertSummary k deleteEnv writeEnv day summary) :=
      .tryCatch <| (durable_delete hdelete _ _).bind fun _ =>
        (durable_write hwrite _ _ _ _).bind fun _ => durable_pure ()
    have hjob : Durable (Jobs.dailySummaryPrecompute k senv deleteEnv writeEnv now day reminders) :=
      (durable_search hsenv).bind fun recent => (hupsert _).bind fun _ => durable_pure _
    exact hjob.bind fun _ => durable_pure ()

end Durable

structure MemoryProcess (V : Type) where
  items : List MemoryItem
  index : Option V

structure SharedMemory (V : Type) where
  app : MemoryProcess V
  /-- `none` until the worker's first job. -/
  worker : Option (MemoryProcess V)
  file : PersistFile

section Shared

variable {V S : Type} [LinearOrder S]

def MemoryProcess.attach (p : MemoryProcess V) (file : PersistFile) : MemoryService V :=
  { items := p.items, index := p.index, file }

def MemoryService.process (s : MemoryService V) : MemoryProcess V :=
  { items := s.items, index := s.index }

/-- One atomic operation of the app or of the worker; the worker loads the file when it
runs its first job. -/
inductive SharedStep (k : MemoryKit V S) :
    SharedMemory V → MemoryOp → SharedMemory V → Prop where
  | app {s : SharedMemory V} {op : MemoryOp} {t : MemoryService V} (hwho : op.byWorker = false)
      (hquiet : op.Quiet) (hrun : op.run k (s.app.attach s.file) = .ok () t) :
      SharedStep k s op { s with app := t.process, file := t.file }
  | worker {s : SharedMemory V} {op : MemoryOp} {p : MemoryProcess V} {t : MemoryService V}
      (hwho : op.byWorker = true) (hquiet : op.Quiet) (hcopy : s.worker = some p)
      (hrun : op.run k (p.attach s.file) = .ok () t) :
      SharedStep k s op { s with worker := some t.process, file := t.file }
  | workerStarts {s : SharedMemory V} {op : MemoryOp} {t : MemoryService V}
      (fresh : Nat → PyStr × PyStr) (index : Option V)
      (hwho : op.byWorker = true) (hquiet : op.Quiet) (hnone : s.worker = none)
      (hrun : op.run k { items := s.file.load fresh, index, file := s.file } = .ok () t) :
      SharedStep k s op { s with worker := some t.process, file := t.file }

/-- The app has loaded the file and the worker has not run yet. -/
def sharedSystem (k : MemoryKit V S) (fresh : Nat → PyStr × PyStr) :
    System (SharedMemory V) MemoryOp where
  init s := s.app.items = s.file.load fresh ∧ s.worker = none
  step := SharedStep k

def MemoryOp.after (k : MemoryKit V S) (s : MemoryService V) (op : MemoryOp) : MemoryService V :=
  match op.run k s with
  | .ok _ t => t
  | .error _ t => t

/-- One single service, started like the app, that performs all the operations. -/
def single (k : MemoryKit V S) (s : SharedMemory V) (ops : List MemoryOp) : MemoryService V :=
  ops.foldl (MemoryOp.after k) (s.app.attach s.file)

/-- The process that acts holds the items the file holds. -/
def UpToDate (fresh : Nat → PyStr × PyStr) (s : SharedMemory V) (op : MemoryOp) : Prop :=
  if op.byWorker then
    match s.worker with
    | some copy => copy.items = s.file.load fresh
    | none => s.file.Holds (s.file.load fresh)
  else s.app.items = s.file.load fresh

variable {k : MemoryKit V S} {fresh : Nat → PyStr × PyStr}

/-- An operation does the same to two services with the same items and file, and a
service that agrees with its file before agrees with it after. -/
theorem MemoryOp.run_agree {op : MemoryOp} (hquiet : op.Quiet) {a r t : MemoryService V}
    (heq : a.unindexed = r.unindexed) (hsync : r.items = r.file.load fresh)
    (hrun : op.run k a = .ok () t) :
    t.file = (op.after k r).file ∧ (op.after k r).items = t.file.load fresh := by
  obtain ⟨_, t₁, ha, ha', -⟩ := MemoryOp.durable (k := k) hquiet a
  obtain ⟨_, t₂, hr, hr', hfile⟩ := MemoryOp.durable (k := k) hquiet r
  rw [hrun] at ha
  cases ha
  rw [heq, hr'] at ha'
  have hsame : t₂.unindexed = t.unindexed := by
    injection ha'
  have hitems : t₂.unindexed.items = t.unindexed.items := congrArg _ hsame
  have hfiles : t₂.unindexed.file = t.unindexed.file := congrArg _ hsame
  have hafter : op.after k r = t₂ := by simp only [MemoryOp.after, hr]
  rw [hafter]
  refine ⟨hfiles.symm, ?_⟩
  rcases hfile with hkept | hsynced
  · have hitems' : t₂.unindexed.items = r.unindexed.items := congrArg _ hkept
    have hfile' : t₂.unindexed.file = r.unindexed.file := congrArg _ hkept
    have htfile : t.file = r.file := hfiles.symm.trans hfile'
    rw [htfile, ← hsync]
    exact hitems'
  · have htfile : t.file = .ofItems t₂.items := hfiles.symm.trans hsynced
    rw [htfile, PersistFile.load_ofItems]

/-- In every run whose steps are all taken by a process that holds the items the file
holds, the file is that of one single service performing the same operations. -/
theorem file_eq_single (k : MemoryKit V S) (fresh : Nat → PyStr × PyStr) {s₀ s : SharedMemory V}
    {ops : List MemoryOp}
    (h₀ : (sharedSystem k fresh).init s₀)
    (hrun : ((sharedSystem k fresh).restrict (UpToDate fresh)).Run s₀ ops s) :
    s.file = (single k s₀ ops).file := by
  let I : SharedMemory V → List MemoryOp → Prop := fun s ops =>
    s.file = (single k s₀ ops).file ∧ (single k s₀ ops).items = s.file.load fresh
  have hinit : I s₀ [] := ⟨rfl, h₀.1⟩
  have hstep : ∀ {s t op ops}, I s ops →
      ((sharedSystem k fresh).restrict (UpToDate fresh)).step s op t → I t (ops ++ [op]) := by
    intro s t op ops ⟨hfile, hitems⟩ ⟨hcond, hst⟩
    have hsingle : single k s₀ (ops ++ [op]) = op.after k (single k s₀ ops) := by
      simp [single]
    have hsync : (single k s₀ ops).items = (single k s₀ ops).file.load fresh := by
      rw [← hfile]
      exact hitems
    -- every step runs the operation on the items of the single service
    have hagree : ∀ {items index t}, items = s.file.load fresh →
        op.Quiet → op.run k { items, index, file := s.file } = .ok () t →
        t.file = (op.after k (single k s₀ ops)).file ∧
          (op.after k (single k s₀ ops)).items = t.file.load fresh := by
      intro items index t hcopy hquiet hrun
      apply MemoryOp.run_agree hquiet _ hsync hrun
      simp only [MemoryService.unindexed]
      rw [hcopy, ← hitems, hfile]
    simp only [I, hsingle]
    unfold UpToDate at hcond
    cases hst with
    | app hwho hquiet hrun =>
      rw [if_neg (by simp [hwho])] at hcond
      exact hagree hcond hquiet hrun
    | worker hwho hquiet hcopy hrun =>
      rw [if_pos hwho, hcopy] at hcond
      exact hagree hcond hquiet hrun
    | workerStarts fresh' index hwho hquiet hnone hrun =>
      rw [if_pos hwho, hnone] at hcond
      exact hagree (hcond fresh') hquiet hrun
  have h := System.Run.invariant_labels hstep hrun hinit
  exact h.1

end Shared

def twoDates : MemoryKit Unit Nat where
  cm := .asciiOnly
  vs := .inert
  fromisoformat := Jobs.parseTwo
  isoformat _ := []
  dumps _ := []
  score _ := 0

def dentist : MemoryItem := Jobs.todo "book" "2020-01-01T00:00:00+00:00"

def nickname : MemoryItem :=
  { kind := str "identity", key := str "nickname", value := str "Max"
    createdAt := str "2020-01-01T00:00:00+00:00", metadata := [], uid := str "Max"
    source := str "memory-file" }

/-- The app has loaded these items from the file; the worker has not started. -/
def sharedStart (items : List MemoryItem) : SharedMemory Unit :=
  { app := { items, index := none }, worker := none, file := .ofItems items }

/-- 2020-01-02, 00:00 UTC -/
def january2 : Int := 1577923200000000

def curateAt (now : Int) : MemoryOp := .curateMemories now .fileOnly fun _ => .fileOnly [] []

theorem quiet_curateAt (now : Int) : (curateAt now).Quiet :=
  ⟨SearchEnv.quiet_fileOnly, fun _ => Env.quiet_fileOnly [] []⟩

/-- The worker that starts after the app's deletion works on what the file holds. -/
theorem file_eq_single_started_late :
    PersistFile.ofItems [dentist] =
      (single twoDates (sharedStart [dentist, nickname])
        [.delete (.fileOnly [] []) (str "identity") (str "nickname"), curateAt january2]).file := by
  refine file_eq_single twoDates (fun _ => ([], []))
    (s := { app := { items := [dentist], index := none }
            worker := some { items := [dentist], index := none }
            file := .ofItems [dentist] }) ⟨rfl, rfl⟩ ?_
  refine .cons (t := { app := { items := [dentist], index := none }, worker := none
                       file := .ofItems [dentist] }) ⟨rfl, ?_⟩ (.cons ⟨?_, ?_⟩ (.nil _))
  · exact .app (t := synced [dentist]) rfl (Env.quiet_fileOnly [] []) rfl
  · exact fun fresh => PersistFile.load_ofItems fresh [dentist]
  · exact .workerStarts (t := synced [dentist]) (fun _ => ([], [])) none rfl (quiet_curateAt _) rfl rfl

/-- The worker's copy outlives an item that the app deleted, and its next prune writes the
item back to the file. -/
theorem not_file_eq_single :
    ¬ ∀ (s₀ s : SharedMemory Unit) (ops : List MemoryOp),
      (sharedSystem twoDates fun _ => ([], [])).init s₀ →
      (sharedSystem twoDates fun _ => ([], [])).Run s₀ ops s →
      s.file = (single twoDates s₀ ops).file := by
  intro hall
  have hrun : (sharedSystem twoDates fun _ => ([], [])).Run (sharedStart [dentist, nickname])
      [curateAt january2, .delete (.fileOnly [] []) (str "identity") (str "nickname"),
        curateAt Jobs.june2]
      { app := { items := [dentist], index := none }
        worker := some { items := [nickname], index := none }
        file := .ofItems [nickname] } := by
    refine .cons (.workerStarts (t := synced [dentist, nickname]) (fun _ => ([], [])) none rfl
      (quiet_curateAt _) rfl rfl) ?_
    refine .cons (.app (t := synced [dentist]) rfl (Env.quiet_fileOnly [] []) rfl) ?_
    exact .cons (.worker (p := { items := [dentist, nickname], index := none })
      (t := synced [nickname]) rfl (quiet_curateAt _) rfl rfl) (.nil _)
  have hfile := hall _ _ _ ⟨rfl, rfl⟩ hrun
  have hsingle : (single twoDates (sharedStart [dentist, nickname])
      [curateAt january2, .delete (.fileOnly [] []) (str "identity") (str "nickname"),
        curateAt Jobs.june2]).file = .ofItems [] := rfl
  rw [hsingle] at hfile
  simp [PersistFile.ofItems] at hfile

end VirtualPerson
