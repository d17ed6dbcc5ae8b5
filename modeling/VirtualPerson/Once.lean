import Mathlib.Logic.Function.Basic
import VirtualPerson.Transition

/-!
# Double-checked initialisation

A flag, a cell and a lock, and any number of calls that want the value of the cell built
once. A call that sees the flag reads the cell at once; the others take the lock and look
again. Two disciplines differ in when the flag is set. Nothing here mentions a program.
-/

namespace VirtualPerson

set_option autoImplicit false

universe u

/-- When the flag is set: once the value is in the cell, or before it is built. -/
inductive Publishing where
  | afterStore
  | beforeBuild
  deriving DecidableEq

/-- Whether the flag stands while the value is built -/
def Publishing.early : Publishing → Bool
  | .afterStore => false
  | .beforeBuild => true

namespace Once

/-- Where a call stands. `leaving (some v)` gives the lock back and returns `v`, and
`leaving none` gives it back and reads the cell then. -/
inductive Pc (β : Type u) where
  | idle
  | reading
  | waiting
  | locked
  | building
  | built (v : β)
  | stored (v : β)
  | leaving (v : Option β)
  | returned (v : β)

/-- `builds` are the values built so far. -/
structure State (β : Type u) where
  flag : Bool
  cell : β
  holder : Option Nat
  pc : Nat → Pc β
  builds : List β

inductive Label (β : Type u) where
  | check (i : Nat)
  | read (i : Nat)
  | acquire (i : Nat)
  | recheck (i : Nat)
  | build (i : Nat) (v : β)
  | store (i : Nat)
  | publish (i : Nat)
  | leave (i : Nat)

variable {β : Type u} {p : Publishing} {none₀ : β} {s t : State β} {l : Label β} {i j : Nat} {v w : β}

def Label.call : Label β → Nat
  | .check i => i
  | .read i => i
  | .acquire i => i
  | .recheck i => i
  | .build i _ => i
  | .store i => i
  | .publish i => i
  | .leave i => i

namespace State

def start (none₀ : β) : State β :=
  { flag := false, cell := none₀, holder := none, pc := fun _ => .idle, builds := [] }

def go (s : State β) (i : Nat) (c : Pc β) : State β := { s with pc := Function.update s.pc i c }

@[simp] theorem go_flag (s : State β) (i : Nat) (c : Pc β) : (s.go i c).flag = s.flag := rfl

@[simp] theorem go_cell (s : State β) (i : Nat) (c : Pc β) : (s.go i c).cell = s.cell := rfl

@[simp] theorem go_holder (s : State β) (i : Nat) (c : Pc β) : (s.go i c).holder = s.holder := rfl

@[simp] theorem go_builds (s : State β) (i : Nat) (c : Pc β) : (s.go i c).builds = s.builds := rfl

@[simp] theorem go_pc_self (s : State β) (i : Nat) (c : Pc β) : (s.go i c).pc i = c :=
  Function.update_self ..

theorem go_pc_ne (s : State β) (c : Pc β) (h : j ≠ i) : (s.go i c).pc j = s.pc j :=
  Function.update_of_ne h ..

end State

/-- One step of one call. The value built is the environment's. -/
inductive Step (p : Publishing) : State β → Label β → State β → Prop where
  | seen {s : State β} {i : Nat} (hpc : s.pc i = .idle) (hflag : s.flag = true) :
      Step p s (.check i) (s.go i .reading)
  | unseen {s : State β} {i : Nat} (hpc : s.pc i = .idle) (hflag : s.flag = false) :
      Step p s (.check i) (s.go i .waiting)
  | read {s : State β} {i : Nat} (hpc : s.pc i = .reading) :
      Step p s (.read i) (s.go i (.returned s.cell))
  | acquire {s : State β} {i : Nat} (hpc : s.pc i = .waiting) (hfree : s.holder = none) :
      Step p s (.acquire i) { s.go i .locked with holder := some i }
  | late {s : State β} {i : Nat} (hpc : s.pc i = .locked) (hflag : s.flag = true) :
      Step p s (.recheck i) (s.go i (.leaving (if p.early then none else some s.cell)))
  | first {s : State β} {i : Nat} (hpc : s.pc i = .locked) (hflag : s.flag = false) :
      Step p s (.recheck i) { s.go i .building with flag := p.early }
  | build {s : State β} {i : Nat} {v : β} (hpc : s.pc i = .building) :
      Step p s (.build i v) { s.go i (.built v) with builds := s.builds ++ [v] }
  | store {s : State β} {i : Nat} {v : β} (hpc : s.pc i = .built v) :
      Step p s (.store i) { s.go i (if p.early then .leaving none else .stored v) with cell := v }
  | publish {s : State β} {i : Nat} {v : β} (hpc : s.pc i = .stored v) :
      Step p s (.publish i) { s.go i (.leaving (some v)) with flag := true }
  | leave {s : State β} {i : Nat} {v : β} (hpc : s.pc i = .leaving (some v)) :
      Step p s (.leave i) { s.go i (.returned v) with holder := none }
  | leaveToRead {s : State β} {i : Nat} (hpc : s.pc i = .leaving none) :
      Step p s (.leave i) { s.go i .reading with holder := none }

def system (p : Publishing) (none₀ : β) : System (State β) (Label β) where
  init s := s = .start none₀
  step := Step p

/-- Between the taking and the giving back of the lock -/
def Pc.Inside : Pc β → Prop
  | .locked => True
  | .building => True
  | .built _ => True
  | .stored _ => True
  | .leaving _ => True
  | _ => False

/-- Who is inside holds the lock. -/
def State.Exclusive (s : State β) : Prop := ∀ i, (s.pc i).Inside ↔ s.holder = some i

theorem State.Exclusive.unique (h : s.Exclusive) (hi : (s.pc i).Inside) (hj : (s.pc j).Inside) :
    i = j := by
  rw [h i] at hi
  rw [h j, hi] at hj
  exact Option.some_inj.mp hj

theorem State.Exclusive.go {c : Pc β} (h : s.Exclusive) (hc : c.Inside ↔ (s.pc i).Inside) :
    (s.go i c).Exclusive := by
  intro j
  by_cases hj : j = i
  · subst hj
    rw [go_pc_self, hc, go_holder]
    exact h j
  · rw [go_pc_ne s c hj, go_holder]
    exact h j

theorem State.Exclusive.enter {c : Pc β} (h : s.Exclusive) (hfree : s.holder = none) (hc : c.Inside) :
    State.Exclusive { s.go i c with holder := some i } := by
  intro j
  change ((s.go i c).pc j).Inside ↔ some i = some j
  by_cases hj : j = i
  · subst hj
    rw [go_pc_self]
    exact iff_of_true hc rfl
  · rw [go_pc_ne s c hj, h j, hfree]
    exact iff_of_false nofun fun heq => hj (Option.some_inj.mp heq).symm

theorem State.Exclusive.exit {c : Pc β} (h : s.Exclusive) (hi : (s.pc i).Inside) (hc : ¬ c.Inside) :
    State.Exclusive { s.go i c with holder := none } := by
  intro j
  change ((s.go i c).pc j).Inside ↔ none = some j
  by_cases hj : j = i
  · subst hj
    rw [go_pc_self]
    exact iff_of_false hc nofun
  · rw [go_pc_ne s c hj]
    exact iff_of_false (fun hin => hj (h.unique hin hi)) nofun

theorem exclusive_start : (State.start none₀).Exclusive := fun _ => iff_of_false id nofun

theorem State.Exclusive.step (h : s.Exclusive) (hst : Step p s l t) : t.Exclusive := by
  cases hst with
  | seen hpc hflag => exact h.go (by rw [hpc]; rfl)
  | unseen hpc hflag => exact h.go (by rw [hpc]; rfl)
  | read hpc => exact h.go (by rw [hpc]; rfl)
  | acquire hpc hfree => exact h.enter hfree trivial
  | late hpc hflag => exact h.go (by rw [hpc]; rfl)
  | first hpc hflag => exact h.go (by rw [hpc]; rfl)
  | build hpc => exact h.go (by rw [hpc]; rfl)
  | store hpc => exact h.go (by rw [hpc]; split <;> rfl)
  | publish hpc => exact h.go (by rw [hpc]; rfl)
  | leave hpc => exact h.exit (by rw [hpc]; trivial) id
  | leaveToRead hpc => exact h.exit (by rw [hpc]; trivial) id

/-- Nothing is built yet, or what was built is in the cell and the flag says so. -/
def State.AtRest (none₀ : β) (s : State β) : Prop :=
  s.flag = false ∧ s.builds = [] ∧ s.cell = none₀ ∨ s.flag = true ∧ s.builds = [s.cell]

/-- How far the initialisation is, by where the holder of the lock stands -/
def State.Stage (p : Publishing) (none₀ : β) (s : State β) : Pc β → Prop
  | .building => s.flag = p.early ∧ s.builds = [] ∧ s.cell = none₀
  | .built v => s.flag = p.early ∧ s.builds = [v] ∧ s.cell = none₀
  | .stored v => s.flag = false ∧ s.builds = [v] ∧ s.cell = v
  | _ => s.AtRest none₀

/-- What a call that stands here has learnt -/
def State.Knows (p : Publishing) (none₀ : β) (s : State β) : Pc β → Prop
  | .reading => s.flag = true
  | .leaving (some v) => s.builds = [v]
  | .leaving none => p.early = true ∧ s.flag = true
  | .stored _ => p.early = false
  | .returned v => s.builds = [v] ∨ p.early = true ∧ v = none₀
  | _ => True

structure Sound (p : Publishing) (none₀ : β) (s : State β) : Prop where
  exclusive : s.Exclusive
  atRest : s.holder = none → s.AtRest none₀
  stage : ∀ i, s.holder = some i → s.Stage p none₀ (s.pc i)
  knows : ∀ i, s.Knows p none₀ (s.pc i)

/-- The flag is not taken back and nothing is built twice. -/
def State.Grows (s t : State β) : Prop :=
  (s.flag = true → t.flag = true) ∧ ∀ v, s.builds = [v] → t.builds = [v]

theorem State.Knows.mono {c : Pc β} (h : s.Knows p none₀ c) (hgrows : s.Grows t) : t.Knows p none₀ c := by
  cases c with
  | reading => exact hgrows.1 h
  | leaving v =>
    cases v with
    | none => exact ⟨h.1, hgrows.1 h.2⟩
    | some v => exact hgrows.2 v h
  | returned v => exact h.imp (hgrows.2 v) id
  | stored v => exact h
  | _ => trivial

theorem Sound.holds (h : Sound p none₀ s) (hi : (s.pc i).Inside) : s.holder = some i :=
  (h.exclusive i).mp hi

theorem Sound.stage_of (h : Sound p none₀ s) {c : Pc β} (hpc : s.pc i = c) (hc : c.Inside) :
    s.Stage p none₀ c := by
  rw [← hpc] at hc ⊢
  exact h.stage i (h.holds hc)

theorem Sound.knows_go {c : Pc β} (h : Sound p none₀ s) (hpc : t.pc = (s.go i c).pc)
    (hgrows : s.Grows t) (hc : t.Knows p none₀ c) (j : Nat) : t.Knows p none₀ (t.pc j) := by
  rw [hpc]
  by_cases hj : j = i
  · subst hj
    rw [State.go_pc_self]
    exact hc
  · rw [State.go_pc_ne s c hj]
    exact (h.knows j).mono hgrows

/-- A step of a call that is outside and stays there -/
theorem Sound.outside {c : Pc β} (h : Sound p none₀ s) (hout : ¬ (s.pc i).Inside) (hc : ¬ c.Inside)
    (hknows : s.Knows p none₀ c) : Sound p none₀ (s.go i c) where
  exclusive := h.exclusive.go (iff_of_false hc hout)
  atRest := h.atRest
  stage j hj := by
    have hne : j ≠ i := by
      rintro rfl
      exact hout ((h.exclusive j).mpr hj)
    rw [State.go_pc_ne s c hne]
    exact h.stage j hj
  knows j := h.knows_go rfl ⟨id, fun _ => id⟩ hknows j

/-- A step of the holder that stays inside -/
theorem Sound.inside {c : Pc β} (h : Sound p none₀ s) (hex : t.Exclusive) (hpc : t.pc = (s.go i c).pc)
    (hc : c.Inside) (hgrows : s.Grows t) (hstage : t.Stage p none₀ c) (hknows : t.Knows p none₀ c) :
    Sound p none₀ t where
  exclusive := hex
  atRest hfree := by
    have hin : (t.pc i).Inside := by
      rw [hpc, State.go_pc_self]
      exact hc
    rw [hex i, hfree] at hin
    cases hin
  stage j hj := by
    have hin : (t.pc i).Inside := by
      rw [hpc, State.go_pc_self]
      exact hc
    rw [hex i, hj] at hin
    cases hin
    rw [hpc, State.go_pc_self]
    exact hstage
  knows := h.knows_go hpc hgrows hknows

/-- The holder gives the lock back. -/
theorem Sound.exit {c : Pc β} (h : Sound p none₀ s) (hi : (s.pc i).Inside) (hc : ¬ c.Inside)
    (hrest : s.AtRest none₀) (hknows : s.Knows p none₀ c) :
    Sound p none₀ { s.go i c with holder := none } where
  exclusive := h.exclusive.exit hi hc
  atRest _ := hrest
  stage j hj := by cases hj
  knows := h.knows_go rfl ⟨id, fun _ => id⟩ hknows

theorem sound_start : Sound p none₀ (.start none₀) where
  exclusive := exclusive_start
  atRest _ := .inl ⟨rfl, rfl, rfl⟩
  stage i hi := by cases hi
  knows _ := trivial

theorem State.AtRest.built (h : s.AtRest none₀) (hflag : s.flag = true) : s.builds = [s.cell] := by
  rcases h with ⟨hoff, -⟩ | ⟨-, hbuilds⟩
  · rw [hflag] at hoff
    cases hoff
  · exact hbuilds

theorem State.AtRest.unbuilt (h : s.AtRest none₀) (hflag : s.flag = false) :
    s.builds = [] ∧ s.cell = none₀ := by
  rcases h with ⟨-, hnone⟩ | ⟨hon, -⟩
  · exact hnone
  · rw [hflag] at hon
    cases hon

theorem State.Stage.of_flag {c : Pc β} (h : s.Stage p none₀ c) (hflag : s.flag = true) :
    s.builds = [s.cell] ∨ p.early = true ∧ s.cell = none₀ := by
  cases c with
  | building => exact .inr ⟨h.1.symm.trans hflag, h.2.2⟩
  | built v => exact .inr ⟨h.1.symm.trans hflag, h.2.2⟩
  | stored v => exact .inl (h.2.1.trans (by rw [h.2.2]))
  | _ => exact .inl (State.AtRest.built h hflag)

/-- What a call reads that has seen the flag -/
theorem Sound.of_flag (h : Sound p none₀ s) (hflag : s.flag = true) :
    s.builds = [s.cell] ∨ p.early = true ∧ s.cell = none₀ := by
  cases hholder : s.holder with
  | none => exact .inl ((h.atRest hholder).built hflag)
  | some j => exact (h.stage j hholder).of_flag hflag

theorem Sound.step (h : Sound p none₀ s) (hst : Step p s l t) : Sound p none₀ t := by
  have hex := h.exclusive.step hst
  cases hst with
  | seen hpc hflag => exact h.outside (by rw [hpc]; exact id) id hflag
  | unseen hpc hflag => exact h.outside (by rw [hpc]; exact id) id trivial
  | @read i hpc =>
    have hflag := h.knows i
    rw [hpc] at hflag
    exact h.outside (by rw [hpc]; exact id) id (h.of_flag hflag)
  | acquire hpc hfree => exact h.inside hex rfl trivial ⟨id, fun _ => id⟩ (h.atRest hfree) trivial
  | late hpc hflag =>
    have hrest := h.stage_of hpc trivial
    refine h.inside hex rfl trivial ⟨id, fun _ => id⟩ hrest ?_
    cases hearly : p.early with
    | false => exact hrest.built hflag
    | true => exact ⟨hearly, hflag⟩
  | first hpc hflag =>
    obtain ⟨hbuilds, hcell⟩ := (h.stage_of hpc trivial).unbuilt hflag
    refine h.inside hex rfl trivial ⟨?_, fun _ => id⟩ ⟨rfl, hbuilds, hcell⟩ trivial
    intro hon
    rw [hflag] at hon
    cases hon
  | @build i v hpc =>
    obtain ⟨hflag, hbuilds, hcell⟩ := h.stage_of hpc trivial
    refine h.inside hex rfl trivial ⟨id, ?_⟩ ⟨hflag, ?_, hcell⟩ trivial
    · intro w hw
      rw [hbuilds] at hw
      cases hw
    · change s.builds ++ [v] = [v]
      rw [hbuilds, List.nil_append]
  | store hpc =>
    obtain ⟨hflag, hbuilds, hcell⟩ := h.stage_of hpc trivial
    cases hearly : p.early with
    | false =>
      rw [hearly] at hflag hex
      exact h.inside hex rfl trivial ⟨id, fun _ => id⟩ ⟨hflag, hbuilds, rfl⟩ hearly
    | true =>
      rw [hearly] at hflag hex
      exact h.inside hex rfl trivial ⟨id, fun _ => id⟩ (.inr ⟨hflag, hbuilds⟩) ⟨hearly, hflag⟩
  | publish hpc =>
    obtain ⟨hflag, hbuilds, hcell⟩ := h.stage_of hpc trivial
    refine h.inside hex rfl trivial ⟨fun _ => rfl, fun _ => id⟩ (.inr ⟨rfl, ?_⟩) hbuilds
    exact hbuilds.trans (by rw [← hcell]; rfl)
  | @leave i v hpc =>
    have hin : (s.pc i).Inside := by
      rw [hpc]
      trivial
    have hknows := h.knows i
    rw [hpc] at hknows
    exact h.exit hin id (h.stage_of hpc trivial) (.inl hknows)
  | @leaveToRead i hpc =>
    have hin : (s.pc i).Inside := by
      rw [hpc]
      trivial
    have hknows := h.knows i
    rw [hpc] at hknows
    exact h.exit hin id (h.stage_of hpc trivial) hknows.2

theorem Sound.of_run {ls : List (Label β)} (hrun : (system p none₀).Run (.start none₀) ls s) :
    Sound p none₀ s :=
  hrun.invariant (fun h hst => h.step hst) sound_start

theorem Sound.length_builds (h : Sound p none₀ s) : s.builds.length ≤ 1 := by
  have hrest : s.AtRest none₀ → s.builds.length ≤ 1 := by
    rintro (⟨-, hbuilds, -⟩ | ⟨-, hbuilds⟩)
    · rw [hbuilds]
      exact Nat.zero_le 1
    · exact Nat.le_of_eq (by rw [hbuilds]; rfl)
  cases hholder : s.holder with
  | none => exact hrest (h.atRest hholder)
  | some j =>
    have hstage := h.stage j hholder
    cases hpc : s.pc j with
    | building =>
      rw [hpc] at hstage
      rw [hstage.2.1]
      exact Nat.zero_le 1
    | built v =>
      rw [hpc] at hstage
      exact Nat.le_of_eq (by rw [hstage.2.1]; rfl)
    | stored v =>
      rw [hpc] at hstage
      exact Nat.le_of_eq (by rw [hstage.2.1]; rfl)
    | _ =>
      rw [hpc] at hstage
      exact hrest hstage

/-- Where the flag is set last, whoever returns has what was built. -/
theorem Sound.returned (h : Sound p none₀ s) (hp : p.early = false) (hi : s.pc i = .returned v) :
    s.builds = [v] := by
  have hknows := h.knows i
  rw [hi] at hknows
  rcases hknows with hbuilt | ⟨hearly, -⟩
  · exact hbuilt
  · rw [hp] at hearly
    cases hearly

theorem Sound.settled_step (h : Sound p none₀ s) (hst : Step p s l t) (hs : s.builds = [s.cell]) :
    t.builds = [t.cell] := by
  cases hst with
  | build hpc =>
    rw [(h.stage_of hpc trivial).2.1] at hs
    cases hs
  | store hpc => exact (h.stage_of hpc trivial).2.1
  | _ => exact hs

/-- What is known of a call that has held the lock. -/
def State.Held (s : State β) : Pc β → Prop
  | .idle => False
  | .waiting => False
  | .reading => s.builds = [s.cell]
  | .returned v => s.builds = [v]
  | _ => True

theorem Sound.held_other {c : Pc β} (h : Sound p none₀ s) (hst : Step p s l t) (hc : s.Held c) :
    t.Held c := by
  cases c with
  | reading => exact h.settled_step hst hc
  | returned v =>
    cases hst with
    | build hpc =>
      have hnil := (h.stage_of hpc trivial).2.1
      rw [show s.builds = [v] from hc] at hnil
      cases hnil
    | _ => exact hc
  | _ => exact hc

theorem Sound.held_step (h : Sound p none₀ s) (hst : Step p s l t)
    (hi : l = .acquire i ∨ s.Held (s.pc i)) : t.Held (t.pc i) := by
  by_cases hcall : i = l.call
  · subst hcall
    have hheld : ∀ c, s.pc l.call = c → l ≠ .acquire l.call → s.Held c := by
      rintro c rfl hne
      exact hi.resolve_left hne
    cases hst with
    | seen hpc hflag => exact (hheld _ hpc nofun).elim
    | unseen hpc hflag => exact (hheld _ hpc nofun).elim
    | @read i hpc =>
      change State.Held (s.go i _) ((s.go i _).pc i)
      rw [State.go_pc_self]
      exact hheld _ hpc nofun
    | @leave i v hpc =>
      change State.Held _ ((s.go i _).pc i)
      rw [State.go_pc_self]
      have hknows := h.knows i
      rw [hpc] at hknows
      exact hknows
    | @leaveToRead i hpc =>
      change State.Held _ ((s.go i _).pc i)
      rw [State.go_pc_self]
      have hknows := h.knows i
      rw [hpc] at hknows
      exact (h.stage_of hpc trivial).built hknows.2
    | @store i v hpc =>
      change State.Held _ ((s.go i _).pc i)
      rw [State.go_pc_self]
      split <;> trivial
    | _ =>
      dsimp only [Label.call]
      rw [State.go_pc_self]
      trivial
  · have hsame : t.pc i = s.pc i := by
      cases hst <;> exact State.go_pc_ne _ _ hcall
    rw [hsame]
    rcases hi with rfl | hheld
    · exact absurd rfl hcall
    · exact h.held_other hst hheld

/-- A call that has held the lock returns what was built, whenever the flag is set. -/
theorem returned_of_acquire {ls : List (Label β)} (hrun : (system p none₀).Run (.start none₀) ls s)
    (hi : .acquire i ∈ ls) (hret : s.pc i = .returned v) : s.builds = [v] := by
  have hinv : Sound p none₀ s ∧ ∀ i, .acquire i ∈ ls → s.Held (s.pc i) := by
    have hstart : Sound p none₀ (.start none₀) ∧
        ∀ i, .acquire i ∈ ([] : List (Label β)) → (State.start none₀).Held ((State.start none₀).pc i) :=
      ⟨sound_start, nofun⟩
    refine hrun.invariant_labels
      (I := fun s ls => Sound p none₀ s ∧ ∀ i, .acquire i ∈ ls → s.Held (s.pc i)) ?_ hstart
    intro s l t ls h hst
    refine ⟨h.1.step hst, fun i hi => h.1.held_step hst ?_⟩
    rcases List.mem_append.mp hi with hbefore | hlast
    · exact .inr (h.2 i hbefore)
    · exact .inl (List.mem_singleton.mp hlast).symm
  have hheld := hinv.2 i hi
  rw [hret] at hheld
  exact hheld

/-- The cell is empty up to the first store, and holds what was built from then on. -/
theorem cell_of_run {ls : List (Label β)} (hrun : (system p none₀).Run (.start none₀) ls s) :
    ((∀ j, .store j ∉ ls) → s.cell = none₀) ∧ ∀ j, .store j ∈ ls → s.builds = [s.cell] := by
  have hinv : Sound p none₀ s ∧ ((∀ j, .store j ∉ ls) → s.cell = none₀) ∧
      ∀ j, .store j ∈ ls → s.builds = [s.cell] := by
    have hstart : Sound p none₀ (.start none₀) ∧
        ((∀ j, .store j ∉ ([] : List (Label β))) → (State.start none₀).cell = none₀) ∧
          ∀ j, .store j ∈ ([] : List (Label β)) →
            (State.start none₀).builds = [(State.start none₀).cell] :=
      ⟨sound_start, fun _ => rfl, nofun⟩
    refine hrun.invariant_labels (I := fun s ls => Sound p none₀ s ∧
      ((∀ j, .store j ∉ ls) → s.cell = none₀) ∧ ∀ j, .store j ∈ ls → s.builds = [s.cell]) ?_ hstart
    intro s l t ls h hst
    refine ⟨h.1.step hst, ?_, ?_⟩
    · intro hnone
      have hbefore := h.2.1 fun j hj => hnone j (List.mem_append_left _ hj)
      cases hst with
      | store hpc => exact absurd (List.mem_append_right _ (List.mem_singleton_self _)) (hnone _)
      | _ => exact hbefore
    · intro j hj
      rcases List.mem_append.mp hj with hbefore | hlast
      · exact h.1.settled_step hst (h.2.2 j hbefore)
      · cases List.mem_singleton.mp hlast
        cases hst with
        | store hpc => exact (h.1.stage_of hpc trivial).2.1
  exact hinv.2

/-- The order in which a call passes through its stations -/
def Pc.rank : Pc β → Nat
  | .idle => 0
  | .waiting => 1
  | .locked => 2
  | .building => 3
  | .built _ => 4
  | .stored _ => 5
  | .leaving _ => 6
  | .reading => 7
  | .returned _ => 8

theorem Pc.rank_le (c : Pc β) : c.rank ≤ 8 := by
  cases c <;> simp [rank]

theorem Step.pc_other (hst : Step p s l t) (hi : i ≠ l.call) : t.pc i = s.pc i := by
  cases hst <;> exact State.go_pc_ne _ _ hi

theorem Step.rank_lt (hst : Step p s l t) : (s.pc l.call).rank < (t.pc l.call).rank := by
  cases hst with
  | store hpc =>
    dsimp only [Label.call]
    rw [hpc, State.go_pc_self]
    split <;> simp [Pc.rank]
  | _ =>
    dsimp only [Label.call]
    rw [State.go_pc_self]
    simp [Pc.rank, *]

theorem Step.returned (hst : Step p s l t) (hi : s.pc i = .returned v) : t.pc i = .returned v := by
  have hne : i ≠ l.call := by
    rintro rfl
    have hlt := hst.rank_lt
    rw [hi] at hlt
    exact absurd (Pc.rank_le _) (Nat.not_le.mpr hlt)
  rw [hst.pc_other hne, hi]

theorem Step.builds_eq (hst : Step p s l t) (hl : ∀ i v, l ≠ .build i v) : t.builds = s.builds := by
  cases hst with
  | build hpc => exact absurd rfl (hl _ _)
  | _ => rfl

/-- A call is over after eight steps at most. -/
theorem steps_le {ls : List (Label β)} (hrun : (system p none₀).Run s ls t) (i : Nat) :
    (ls.filter fun l => l.call = i).length + (s.pc i).rank ≤ (t.pc i).rank := by
  induction hrun with
  | nil => simp
  | @cons s u t l ls hst _ ih =>
    by_cases hcall : l.call = i
    · rw [List.filter_cons_of_pos (by simpa using hcall), List.length_cons]
      have hlt := Step.rank_lt hst
      rw [hcall] at hlt
      omega
    · rw [List.filter_cons_of_neg (by simpa using hcall), ← Step.pc_other hst fun h => hcall h.symm]
      exact ih

/-- While a call that has begun has not returned, one that has begun can take a step. -/
theorem Sound.progress (h : Sound p none₀ s) (hbegun : s.pc i ≠ .idle)
    (hlive : ∀ v, s.pc i ≠ .returned v) : ∃ l t, Step p s l t ∧ s.pc l.call ≠ .idle := by
  have hinside : ∀ j, (s.pc j).Inside → ∃ l t, Step p s l t ∧ s.pc l.call ≠ .idle := by
    intro j hj
    have hstep : ∃ l t, Step p s l t ∧ l.call = j := by
      cases hpc : s.pc j with
      | locked =>
        cases hflag : s.flag with
        | false => exact ⟨_, _, .first hpc hflag, rfl⟩
        | true => exact ⟨_, _, .late hpc hflag, rfl⟩
      | building => exact ⟨_, _, .build (v := none₀) hpc, rfl⟩
      | built v => exact ⟨_, _, .store hpc, rfl⟩
      | stored v => exact ⟨_, _, .publish hpc, rfl⟩
      | leaving v =>
        cases v with
        | none => exact ⟨_, _, .leaveToRead hpc, rfl⟩
        | some v => exact ⟨_, _, .leave hpc, rfl⟩
      | _ =>
        rw [hpc] at hj
        exact hj.elim
    obtain ⟨l, t, hst, rfl⟩ := hstep
    refine ⟨l, t, hst, fun hidle => ?_⟩
    rw [hidle] at hj
    exact hj
  cases hpc : s.pc i with
  | idle => exact absurd hpc hbegun
  | returned v => exact absurd hpc (hlive v)
  | reading => exact ⟨_, _, .read hpc, hbegun⟩
  | waiting =>
    cases hholder : s.holder with
    | none => exact ⟨_, _, .acquire hpc hholder, hbegun⟩
    | some j => exact hinside j ((h.exclusive j).mpr hholder)
  | _ =>
    apply hinside i
    rw [hpc]
    trivial

theorem Sound.builds_step (h : Sound p none₀ s) (hst : Step p s l t) (hs : s.builds = [v]) :
    t.builds = [v] := by
  cases hst with
  | build hpc =>
    rw [(h.stage_of hpc trivial).2.1] at hs
    cases hs
  | _ => exact hs

theorem Sound.keeps_run {ls : List (Label β)} (h : Sound p none₀ s)
    (hrun : (system p none₀).Run s ls t) :
    (s.pc i = .returned v → t.pc i = .returned v) ∧ (s.builds = [w] → t.builds = [w]) := by
  induction hrun with
  | nil => exact ⟨id, id⟩
  | cons hst _ ih =>
    obtain ⟨hret, hbuilds⟩ := ih (h.step hst)
    exact ⟨fun hi => hret (Step.returned hst hi), fun hs => hbuilds (h.builds_step hst hs)⟩

/-- What a call returns that reads the cell: the empty value up to the first store, and what was built
from then on. -/
theorem read_of_run {before after : List (Label β)}
    (hrun : (system p none₀).Run (.start none₀) (before ++ .read i :: after) t) :
    ∃ v, t.pc i = .returned v ∧ ((∀ j, .store j ∉ before) → v = none₀) ∧
      ∀ j, .store j ∈ before → t.builds = [v] := by
  obtain ⟨s, hbefore, hrest⟩ := hrun.of_append
  obtain ⟨hempty, hfull⟩ := cell_of_run hbefore
  cases hrest with
  | cons hst hafter =>
    have hsound := (Sound.of_run hbefore).step hst
    cases hst with
    | read hpc =>
      have hret := (hsound.keeps_run (w := s.cell) hafter).1 (State.go_pc_self s i (.returned s.cell))
      refine ⟨s.cell, hret, hempty, ?_⟩
      intro j hj
      exact (hsound.keeps_run (i := i) (v := s.cell) hafter).2 (hfull j hj)

end Once

end VirtualPerson
