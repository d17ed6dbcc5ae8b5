import Mathlib.Logic.Basic

/-!
# Effect programs

A program that performs operations on an environment and reads the answers it
gets back, and that may raise. The environment is not modelled: every answer is
possible. `Runs p tr r` says that `p` can end with `r` after the exchanges `tr`.
-/

namespace VirtualPerson

set_option autoImplicit false

universe u

structure Sig where
  Op : Type u
  Ans : Op → Type u

/-- One exchange with the environment: an operation and the answer to it. -/
structure Sig.Event (S : Sig.{u}) where
  op : S.Op
  ans : S.Ans op

/-- The operations of both signatures. -/
def Sig.sum (S T : Sig.{u}) : Sig.{u} := ⟨S.Op ⊕ T.Op, Sum.elim S.Ans T.Ans⟩

def Sig.Event.inl {S T : Sig.{u}} (ev : S.Event) : (S.sum T).Event := ⟨.inl ev.op, ev.ans⟩

inductive Prog (S : Sig.{u}) (ε α : Type u) : Type u where
  | ret (a : α) : Prog S ε α
  | raise (e : ε) : Prog S ε α
  | op (o : S.Op) (k : S.Ans o → Prog S ε α) : Prog S ε α

namespace Prog

variable {S : Sig.{u}} {ε α β : Type u}

def bind (p : Prog S ε α) (f : α → Prog S ε β) : Prog S ε β :=
  match p with
  | .ret a => f a
  | .raise e => .raise e
  | .op o k => .op o fun a => bind (k a) f

instance : Monad (Prog S ε) where
  pure := .ret
  bind := bind

/-- `try p except e: h e`, where `h` may re-raise what it does not handle. -/
def catching (p : Prog S ε α) (h : ε → Prog S ε α) : Prog S ε α :=
  match p with
  | .ret a => .ret a
  | .raise e => h e
  | .op o k => .op o fun a => catching (k a) h

def lift : Except ε α → Prog S ε α
  | .ok a => .ret a
  | .error e => .raise e

@[simp] theorem pure_def (a : α) : (pure a : Prog S ε α) = .ret a := rfl
@[simp] theorem ret_bind (a : α) (f : α → Prog S ε β) : (Prog.ret a >>= f) = f a := rfl
@[simp] theorem raise_bind (e : ε) (f : α → Prog S ε β) : (Prog.raise e >>= f) = .raise e := rfl
@[simp] theorem op_bind (o : S.Op) (k : S.Ans o → Prog S ε α) (f : α → Prog S ε β) :
    (Prog.op o k >>= f) = .op o fun a => k a >>= f := rfl
@[simp] theorem lift_ok (a : α) : (lift (.ok a) : Prog S ε α) = .ret a := rfl
@[simp] theorem lift_error (e : ε) : (lift (.error e) : Prog S ε α) = .raise e := rfl
@[simp] theorem catching_ret (a : α) (h : ε → Prog S ε α) : (Prog.ret a).catching h = .ret a := rfl
@[simp] theorem catching_raise (e : ε) (h : ε → Prog S ε α) : (Prog.raise e).catching h = h e := rfl
@[simp] theorem catching_op (o : S.Op) (k : S.Ans o → Prog S ε α) (h : ε → Prog S ε α) :
    (Prog.op o k).catching h = .op o fun a => (k a).catching h := rfl

/-- The complete runs of a program, with every answer of the environment. -/
inductive Runs : Prog S ε α → List S.Event → Except ε α → Prop where
  | ret (a : α) : Runs (.ret a) [] (.ok a)
  | raise (e : ε) : Runs (.raise e) [] (.error e)
  | op {o : S.Op} {k : S.Ans o → Prog S ε α} {tr : List S.Event} {r : Except ε α}
      (a : S.Ans o) : Runs (k a) tr r → Runs (.op o k) (⟨o, a⟩ :: tr) r

@[simp] theorem runs_ret_iff {a : α} {tr : List S.Event} {r : Except ε α} :
    Runs (.ret a) tr r ↔ tr = [] ∧ r = .ok a := by
  constructor
  · intro h
    cases h
    exact ⟨rfl, rfl⟩
  · intro h
    obtain ⟨rfl, rfl⟩ := h
    exact .ret a

@[simp] theorem runs_raise_iff {e : ε} {tr : List S.Event} {r : Except ε α} :
    Runs (.raise e : Prog S ε α) tr r ↔ tr = [] ∧ r = .error e := by
  constructor
  · intro h
    cases h
    exact ⟨rfl, rfl⟩
  · intro h
    obtain ⟨rfl, rfl⟩ := h
    exact .raise e

theorem runs_op_iff {o : S.Op} {k : S.Ans o → Prog S ε α} {tr : List S.Event}
    {r : Except ε α} :
    Runs (.op o k) tr r ↔ ∃ a rest, tr = ⟨o, a⟩ :: rest ∧ Runs (k a) rest r := by
  constructor
  · intro h
    cases h with
    | op a hr => exact ⟨a, _, rfl, hr⟩
  · intro h
    obtain ⟨a, rest, rfl, hr⟩ := h
    exact .op a hr

/-- The run of a program whose operations are answered alike each time. -/
def answered (answer : (o : S.Op) → S.Ans o) : Prog S ε α → List S.Event × Except ε α
  | .ret a => ([], .ok a)
  | .raise e => ([], .error e)
  | .op o k =>
    let rest := answered answer (k (answer o))
    (⟨o, answer o⟩ :: rest.1, rest.2)

theorem runs_answered (answer : (o : S.Op) → S.Ans o) (p : Prog S ε α) :
    Runs p (answered answer p).1 (answered answer p).2 := by
  induction p with
  | ret a => exact .ret a
  | raise e => exact .raise e
  | op o k ih => exact .op (answer o) (ih (answer o))

theorem forall_mem_answered {fair : S.Event → Prop} {answer : (o : S.Op) → S.Ans o}
    (h : ∀ o, fair ⟨o, answer o⟩) (p : Prog S ε α) : ∀ ev ∈ (answered answer p).1, fair ev := by
  induction p with
  | ret a => nofun
  | raise e => nofun
  | op o k ih => exact List.forall_mem_cons.mpr ⟨h o, ih (answer o)⟩

/-- What a program ends with, and what it leaves of a server that answers its operations. -/
def exec {σ : Type u} (serve : (o : S.Op) → σ → S.Ans o × σ) : Prog S ε α → σ → Except ε α × σ
  | .ret a, s => (.ok a, s)
  | .raise e, s => (.error e, s)
  | .op o k, s => exec serve (k (serve o s).1) (serve o s).2

/-- The exchanges of such a run -/
def calls {σ : Type u} (serve : (o : S.Op) → σ → S.Ans o × σ) : Prog S ε α → σ → List S.Event
  | .ret _, _ => []
  | .raise _, _ => []
  | .op o k, s => ⟨o, (serve o s).1⟩ :: calls serve (k (serve o s).1) (serve o s).2

section Exec

variable {σ : Type u} {serve : (o : S.Op) → σ → S.Ans o × σ} {s : σ}

@[simp] theorem exec_ret (a : α) : exec serve (.ret a : Prog S ε α) s = (.ok a, s) := rfl
@[simp] theorem exec_raise (e : ε) : exec serve (.raise e : Prog S ε α) s = (.error e, s) := rfl
@[simp] theorem exec_op (o : S.Op) (k : S.Ans o → Prog S ε α) :
    exec serve (.op o k) s = exec serve (k (serve o s).1) (serve o s).2 := rfl

theorem exec_bind (p : Prog S ε α) (f : α → Prog S ε β) :
    exec serve (p >>= f) s = match exec serve p s with
      | (.ok a, t) => exec serve (f a) t
      | (.error e, t) => (.error e, t) := by
  induction p generalizing s with
  | ret a => rfl
  | raise e => rfl
  | op o k ih => exact ih (serve o s).1

theorem exec_catching (p : Prog S ε α) (h : ε → Prog S ε α) :
    exec serve (p.catching h) s = match exec serve p s with
      | (.ok a, t) => (.ok a, t)
      | (.error e, t) => exec serve (h e) t := by
  induction p generalizing s with
  | ret a => rfl
  | raise e => rfl
  | op o k ih => exact ih (serve o s).1

theorem calls_bind {p : Prog S ε α} {f : α → Prog S ε β} {a : α} {t : σ}
    (h : exec serve p s = (.ok a, t)) :
    calls serve (p >>= f) s = calls serve p s ++ calls serve (f a) t := by
  induction p generalizing s with
  | ret b =>
    cases h
    rfl
  | raise e => cases h
  | op o k ih => exact congrArg (List.cons _) (ih (serve o s).1 h)

theorem calls_prefix_bind (p : Prog S ε α) (f : α → Prog S ε β) :
    calls serve p s <+: calls serve (p >>= f) s := by
  induction p generalizing s with
  | ret a => exact List.nil_prefix
  | raise e => exact List.nil_prefix
  | op o k ih => exact List.cons_prefix_cons.mpr ⟨rfl, ih (serve o s).1⟩

end Exec

/-- In every run a securing event comes before any forbidden event and before any
forbidden result. -/
def Guarded (secures forbidden : S.Event → Prop) (bad : α → Prop) : Prog S ε α → Prop
  | .ret a => ¬ bad a
  | .raise _ => True
  | .op o k => ∀ a, secures ⟨o, a⟩ ∨ (¬ forbidden ⟨o, a⟩ ∧ Guarded secures forbidden bad (k a))

section Guarded

variable {secures forbidden : S.Event → Prop} {bad : α → Prop}

/-- What one exchange leaves of a guarded program. -/
theorem Guarded.step {o : S.Op} {k : S.Ans o → Prog S ε α}
    (h : Guarded secures forbidden bad (.op o k)) (a : S.Ans o) :
    secures ⟨o, a⟩ ∨ (¬ forbidden ⟨o, a⟩ ∧ Guarded secures forbidden bad (k a)) := h a

end Guarded

section Only

/-- The program performs no other operations. -/
def Only (allowed : S.Op → Prop) : Prog S ε α → Prop
  | .ret _ => True
  | .raise _ => True
  | .op o k => allowed o ∧ ∀ a, Only allowed (k a)

variable {allowed : S.Op → Prop} {p : Prog S ε α}

theorem Only.mono {allowed' : S.Op → Prop} (h : p.Only allowed) (himp : ∀ o, allowed o → allowed' o) :
    p.Only allowed' := by
  induction p with
  | ret a => trivial
  | raise e => trivial
  | op o k ih => exact ⟨himp o h.1, fun a => ih a (h.2 a)⟩

theorem Only.bind {q : Prog S ε β} {f : β → Prog S ε α} (h : q.Only allowed)
    (hf : ∀ b, (f b).Only allowed) : (q >>= f).Only allowed := by
  induction q with
  | ret b => exact hf b
  | raise e => trivial
  | op o k ih => exact ⟨h.1, fun a => ih a (h.2 a)⟩

theorem Only.catching {g : ε → Prog S ε α} (h : p.Only allowed) (hg : ∀ e, (g e).Only allowed) :
    (p.catching g).Only allowed := by
  induction p with
  | ret a => trivial
  | raise e => exact hg e
  | op o k ih => exact ⟨h.1, fun a => ih a (h.2 a)⟩

theorem only_lift (r : Except ε α) : (lift r : Prog S ε α).Only allowed := by
  cases r <;> trivial

theorem Only.calls {σ : Type u} {serve : (o : S.Op) → σ → S.Ans o × σ} {s : σ} (h : p.Only allowed) :
    ∀ ev ∈ p.calls serve s, allowed ev.op := by
  induction p generalizing s with
  | ret a =>
    intro ev hev
    cases hev
  | raise e =>
    intro ev hev
    cases hev
  | op o k ih => exact List.forall_mem_cons.mpr ⟨h.1, ih _ (h.2 _)⟩

end Only

section Follows

universe v

variable {M : Type v} {next : M → S.Event → Option M} {ok : α → M → Prop} {exc : ε → M → Prop} {m : M}

/-- An automaton that is at `m` reads every exchange of the program. Where it stands then meets
`ok` if the program returns and `exc` if it raises. -/
def Follows (next : M → S.Event → Option M) (ok : α → M → Prop) (exc : ε → M → Prop) :
    Prog S ε α → M → Prop
  | .ret a, m => ok a m
  | .raise e, m => exc e m
  | .op o k, m => ∀ a, ∃ m', next m ⟨o, a⟩ = some m' ∧ Follows next ok exc (k a) m'

theorem Follows.step {o : S.Op} {k : S.Ans o → Prog S ε α} (h : Follows next ok exc (.op o k) m)
    (a : S.Ans o) : ∃ m', next m ⟨o, a⟩ = some m' ∧ Follows next ok exc (k a) m' := h a

theorem Follows.imp {p : Prog S ε α} {ok' : α → M → Prop} {exc' : ε → M → Prop}
    (h : Follows next ok exc p m) (hok : ∀ a m, ok a m → ok' a m) (hexc : ∀ e m, exc e m → exc' e m) :
    Follows next ok' exc' p m := by
  induction p generalizing m with
  | ret a => exact hok a m h
  | raise e => exact hexc e m h
  | op o k ih =>
    intro a
    obtain ⟨m', hm', hk⟩ := h a
    exact ⟨m', hm', ih a hk⟩

theorem Follows.bind {p : Prog S ε β} {f : β → Prog S ε α} {mid : β → M → Prop}
    (h : Follows next mid exc p m) (hf : ∀ b m, mid b m → Follows next ok exc (f b) m) :
    Follows next ok exc (p >>= f) m := by
  induction p generalizing m with
  | ret b => exact hf b m h
  | raise e => exact h
  | op o k ih =>
    intro a
    obtain ⟨m', hm', hk⟩ := h a
    exact ⟨m', hm', ih a hk⟩

theorem Follows.catching {p : Prog S ε α} {g : ε → Prog S ε α} {exc' : ε → M → Prop}
    (h : Follows next ok exc' p m) (hg : ∀ e m, exc' e m → Follows next ok exc (g e) m) :
    Follows next ok exc (p.catching g) m := by
  induction p generalizing m with
  | ret a => exact h
  | raise e => exact hg e m h
  | op o k ih =>
    intro a
    obtain ⟨m', hm', hk⟩ := h a
    exact ⟨m', hm', ih a hk⟩

theorem follows_lift {r : Except ε α} (hok : ∀ a, r = .ok a → ok a m) (hexc : ∀ e, r = .error e → exc e m) :
    Follows next ok exc (lift r) m := by
  cases r with
  | ok a => exact hok a rfl
  | error e => exact hexc e rfl

/-- An automaton that reads everything has read the whole run at its end. -/
theorem Follows.returned {read : M → S.Event → M} {p : Prog S ε α} {tr : List S.Event} {a : α}
    (h : p.Follows (fun m ev => some (read m ev)) ok exc m) (hrun : Runs p tr (.ok a)) :
    ok a (tr.foldl read m) := by
  induction p generalizing m tr with
  | ret b =>
    obtain ⟨rfl, hb⟩ := runs_ret_iff.mp hrun
    cases hb
    exact h
  | raise e =>
    obtain ⟨-, he⟩ := runs_raise_iff.mp hrun
    cases he
  | op o k ih =>
    obtain ⟨b, rest, rfl, hrest⟩ := runs_op_iff.mp hrun
    obtain ⟨m', hm', hk⟩ := h.step b
    cases hm'
    have hok := ih b hk hrest
    exact hok

end Follows

section Keeps

universe w

variable {M : Type w} {next : M → S.Event → Option M} {m : M} {p : Prog S ε α}

/-- Where the program ends, the automaton is back at `m`. -/
def Keeps (next : M → S.Event → Option M) (m : M) (p : Prog S ε α) : Prop :=
  p.Follows next (fun _ m' => m' = m) (fun _ m' => m' = m) m

theorem keeps_pure (a : α) : Keeps next m (pure a : Prog S ε α) := rfl

theorem keeps_raise (e : ε) : Keeps next m (.raise e : Prog S ε α) := rfl

theorem keeps_lift (r : Except ε α) : Keeps next m (lift r : Prog S ε α) :=
  follows_lift (fun _ _ => rfl) fun _ _ => rfl

theorem Keeps.bind {q : Prog S ε β} {f : β → Prog S ε α} (h : Keeps next m q)
    (hf : ∀ b, Keeps next m (f b)) : Keeps next m (q >>= f) := by
  apply Follows.bind h
  intro b m' hm'
  rw [hm']
  exact hf b

theorem Keeps.catching {g : ε → Prog S ε α} (h : Keeps next m p) (hg : ∀ e, Keeps next m (g e)) :
    Keeps next m (p.catching g) := by
  apply Follows.catching h
  intro e m' hm'
  rw [hm']
  exact hg e

/-- An automaton that ignores what the program performs stays where it is. -/
theorem Only.keeps {allowed : S.Op → Prop} (h : p.Only allowed)
    (hstay : ∀ o, allowed o → ∀ a, next m ⟨o, a⟩ = some m) : Keeps next m p := by
  induction p with
  | ret a => rfl
  | raise e => rfl
  | op o k ih => exact fun a => ⟨m, hstay o h.1 a, ih a (h.2 a)⟩

end Keeps

section Yields

variable {fair : S.Event → Prop} {Q : α → List S.Event → Prop}

/-- In an environment that answers fairly the program returns, and `Q` holds of the value and of
the exchanges. -/
def Yields (fair : S.Event → Prop) (Q : α → List S.Event → Prop) (p : Prog S ε α) : Prop :=
  ∀ tr r, Runs p tr r → (∀ ev ∈ tr, fair ev) → ∃ a, r = .ok a ∧ Q a tr

theorem yields_ret {a : α} (h : Q a []) : Yields fair Q (.ret a : Prog S ε α) := by
  intro tr r hrun _
  obtain ⟨rfl, rfl⟩ := runs_ret_iff.mp hrun
  exact ⟨a, rfl, h⟩

theorem yields_op {o : S.Op} {k : S.Ans o → Prog S ε α}
    (h : ∀ a, fair ⟨o, a⟩ → Yields fair (fun b tr => Q b (⟨o, a⟩ :: tr)) (k a)) :
    Yields fair Q (.op o k) := by
  intro tr r hrun hfair
  obtain ⟨a, rest, rfl, hrest⟩ := runs_op_iff.mp hrun
  exact h a (hfair _ List.mem_cons_self) rest r hrest fun ev hev => hfair ev (List.mem_cons_of_mem _ hev)

theorem Yields.imp {p : Prog S ε α} {R : α → List S.Event → Prop} (h : Yields fair R p)
    (himp : ∀ a tr, R a tr → Q a tr) : Yields fair Q p := by
  intro tr r hrun hfair
  obtain ⟨a, hr, hR⟩ := h tr r hrun hfair
  exact ⟨a, hr, himp a tr hR⟩

theorem Yields.bind {p : Prog S ε β} {f : β → Prog S ε α} {R : β → List S.Event → Prop}
    (h : Yields fair R p)
    (hf : ∀ b before, R b before → Yields fair (fun a after => Q a (before ++ after)) (f b)) :
    Yields fair Q (p >>= f) := by
  induction p generalizing R Q with
  | ret b =>
    obtain ⟨b', hb, hR⟩ := h [] _ (.ret b) nofun
    cases hb
    exact hf b [] hR
  | raise e =>
    obtain ⟨b, hb, -⟩ := h [] _ (.raise e) nofun
    cases hb
  | op o k ih =>
    apply yields_op
    intro a hfair
    apply ih a (R := fun b tr => R b (⟨o, a⟩ :: tr))
    · intro tr r hrun hrest
      exact h _ r (.op a hrun) (List.forall_mem_cons.mpr ⟨hfair, hrest⟩)
    · intro b before hR
      exact hf b _ hR

theorem Yields.catching {p : Prog S ε α} {g : ε → Prog S ε α} (h : Yields fair Q p) :
    Yields fair Q (p.catching g) := by
  induction p generalizing Q with
  | ret a => exact h
  | raise e =>
    obtain ⟨a, ha, -⟩ := h [] _ (.raise e) nofun
    cases ha
  | op o k ih =>
    apply yields_op
    intro a hfair
    apply ih a
    intro tr r hrun hrest
    exact h _ r (.op a hrun) (List.forall_mem_cons.mpr ⟨hfair, hrest⟩)

end Yields

section Meets

variable {fair : S.Event → Prop} {ok : α → List S.Event → Prop} {exc : ε → List S.Event → Prop}

/-- In an environment that answers fairly, `ok` holds where the program returns and `exc` where it
raises. -/
def Meets (fair : S.Event → Prop) (ok : α → List S.Event → Prop) (exc : ε → List S.Event → Prop)
    (p : Prog S ε α) : Prop :=
  ∀ tr r, Runs p tr r → (∀ ev ∈ tr, fair ev) →
    (∀ a, r = .ok a → ok a tr) ∧ ∀ e, r = .error e → exc e tr

theorem meets_ret {a : α} (h : ok a []) : Meets fair ok exc (.ret a) := by
  intro tr r hrun _
  obtain ⟨rfl, rfl⟩ := runs_ret_iff.mp hrun
  constructor
  · intro b hb
    cases hb
    exact h
  · intro e he
    cases he

theorem meets_raise {e : ε} (h : exc e []) : Meets fair ok exc (.raise e) := by
  intro tr r hrun _
  obtain ⟨rfl, rfl⟩ := runs_raise_iff.mp hrun
  constructor
  · intro a ha
    cases ha
  · intro e' he
    cases he
    exact h

theorem meets_op {o : S.Op} {k : S.Ans o → Prog S ε α}
    (h : ∀ a, fair ⟨o, a⟩ →
      Meets fair (fun b tr => ok b (⟨o, a⟩ :: tr)) (fun e tr => exc e (⟨o, a⟩ :: tr)) (k a)) :
    Meets fair ok exc (.op o k) := by
  intro tr r hrun hfair
  obtain ⟨a, rest, rfl, hrest⟩ := runs_op_iff.mp hrun
  obtain ⟨hev, hlater⟩ := List.forall_mem_cons.mp hfair
  exact h a hev rest r hrest hlater

theorem Meets.after {o : S.Op} {k : S.Ans o → Prog S ε α} (h : Meets fair ok exc (.op o k))
    (a : S.Ans o) (hfair : fair ⟨o, a⟩) :
    Meets fair (fun b tr => ok b (⟨o, a⟩ :: tr)) (fun e tr => exc e (⟨o, a⟩ :: tr)) (k a) := by
  intro tr r hrun hrest
  exact h _ r (.op a hrun) (List.forall_mem_cons.mpr ⟨hfair, hrest⟩)

theorem Meets.imp {p : Prog S ε α} {ok' : α → List S.Event → Prop} {exc' : ε → List S.Event → Prop}
    (h : Meets fair ok exc p) (hok : ∀ a tr, ok a tr → ok' a tr)
    (hexc : ∀ e tr, exc e tr → exc' e tr) : Meets fair ok' exc' p := by
  intro tr r hrun hfair
  obtain ⟨hret, hraise⟩ := h tr r hrun hfair
  exact ⟨fun a ha => hok a tr (hret a ha), fun e he => hexc e tr (hraise e he)⟩

theorem Meets.bind {p : Prog S ε β} {f : β → Prog S ε α} {mid : β → List S.Event → Prop}
    (h : Meets fair mid exc p)
    (hf : ∀ b before, mid b before → Meets fair (fun a after => ok a (before ++ after))
      (fun e after => exc e (before ++ after)) (f b)) :
    Meets fair ok exc (p >>= f) := by
  induction p generalizing mid ok exc with
  | ret b => exact hf b [] ((h [] _ (.ret b) nofun).1 b rfl)
  | raise e => exact meets_raise ((h [] _ (.raise e) nofun).2 e rfl)
  | op o k ih =>
    apply meets_op
    intro a hfair
    apply ih a (h.after a hfair)
    intro b before hmid
    exact hf b _ hmid

theorem Meets.catching {p : Prog S ε α} {g : ε → Prog S ε α} {R : ε → List S.Event → Prop}
    (h : Meets fair ok R p)
    (hg : ∀ e before, R e before → Meets fair (fun a after => ok a (before ++ after))
      (fun e after => exc e (before ++ after)) (g e)) :
    Meets fair ok exc (p.catching g) := by
  induction p generalizing R ok exc with
  | ret a => exact meets_ret ((h [] _ (.ret a) nofun).1 a rfl)
  | raise e => exact hg e [] ((h [] _ (.raise e) nofun).2 e rfl)
  | op o k ih =>
    apply meets_op
    intro a hfair
    apply ih a (h.after a hfair)
    intro e before hR
    exact hg e _ hR

/-- A handler that never returns adds no returning run. -/
theorem Runs.of_catching {p : Prog S ε α} {g : ε → Prog S ε α} {tr : List S.Event} {a : α}
    (h : Runs (p.catching g) tr (.ok a)) (hg : ∀ e tr a, ¬ Runs (g e) tr (.ok a)) :
    Runs p tr (.ok a) := by
  induction p generalizing tr with
  | ret b => exact h
  | raise e => exact absurd h (hg e tr a)
  | op o k ih =>
    obtain ⟨b, rest, rfl, hrest⟩ := runs_op_iff.mp h
    exact .op b (ih b hrest)

end Meets

section Splits

variable {live late : S.Event → Prop} {Q : α → List S.Event → S.Event → List S.Event → Prop}

/-- The environment changes from `live` to `late` while one exchange is under way. `Q` holds of the
value, of that exchange and of those before and after it. -/
def Splits (live late : S.Event → Prop) (Q : α → List S.Event → S.Event → List S.Event → Prop)
    (p : Prog S ε α) : Prop :=
  ∀ before ev after a, Runs p (before ++ ev :: after) (.ok a) → (∀ x ∈ before, live x) → live ev →
    (∀ x ∈ after, late x) → Q a before ev after

theorem splits_ret (a : α) : Splits live late Q (.ret a : Prog S ε α) := by
  intro before ev after b hrun
  obtain ⟨hnil, -⟩ := runs_ret_iff.mp hrun
  simp at hnil

theorem splits_raise (e : ε) : Splits live late Q (.raise e : Prog S ε α) := by
  intro before ev after b hrun
  obtain ⟨-, hr⟩ := runs_raise_iff.mp hrun
  cases hr

theorem splits_op {o : S.Op} {k : S.Ans o → Prog S ε α}
    (hnow : ∀ a, live ⟨o, a⟩ → Meets late (fun b after => Q b [] ⟨o, a⟩ after) (fun _ _ => True) (k a))
    (hlater : ∀ a, live ⟨o, a⟩ →
      Splits live late (fun b before ev after => Q b (⟨o, a⟩ :: before) ev after) (k a)) :
    Splits live late Q (.op o k) := by
  intro before ev after b hrun hbefore hev hafter
  cases before with
  | nil =>
    obtain ⟨a, rest, heq, hrest⟩ := runs_op_iff.mp hrun
    cases heq
    exact (hnow a hev after _ hrest hafter).1 b rfl
  | cons x before =>
    obtain ⟨a, rest, heq, hrest⟩ := runs_op_iff.mp hrun
    cases heq
    obtain ⟨hx, hbefore⟩ := List.forall_mem_cons.mp hbefore
    exact hlater a hx before ev after b hrest hbefore hev hafter

theorem Splits.imp {p : Prog S ε α} {R : α → List S.Event → S.Event → List S.Event → Prop}
    (h : Splits live late R p) (himp : ∀ a before ev after, R a before ev after → Q a before ev after) :
    Splits live late Q p := by
  intro before ev after a hrun hbefore hev hafter
  exact himp a before ev after (h before ev after a hrun hbefore hev hafter)

/-- The change comes while the first program runs, or while the second does. -/
theorem Splits.bind {p : Prog S ε β} {f : β → Prog S ε α} {mid : β → List S.Event → Prop}
    {R : β → List S.Event → S.Event → List S.Event → Prop}
    (hlive : Meets live mid (fun _ _ => True) p) (hsplit : Splits live late R p)
    (hlate : ∀ b before ev after, R b before ev after →
      Meets late (fun a rest => Q a before ev (after ++ rest)) (fun _ _ => True) (f b))
    (hf : ∀ b front, mid b front →
      Splits live late (fun a before ev after => Q a (front ++ before) ev after) (f b)) :
    Splits live late Q (p >>= f) := by
  induction p generalizing mid R Q with
  | ret b => exact hf b [] ((hlive [] _ (.ret b) nofun).1 b rfl)
  | raise e => exact splits_raise e
  | op o k ih =>
    apply splits_op
    · intro a hev
      have hfirst : Meets late (fun b after => R b [] ⟨o, a⟩ after) (fun _ _ => True) (k a) := by
        intro tr r hrun htr
        refine ⟨?_, fun _ _ => trivial⟩
        rintro b rfl
        exact hsplit [] _ tr b (.op a hrun) nofun hev htr
      exact hfirst.bind fun b after hR => hlate b [] _ after hR
    · intro a hx
      apply ih a (Q := fun c before ev after => Q c (⟨o, a⟩ :: before) ev after) (hlive.after a hx)
        (R := fun b before ev after => R b (⟨o, a⟩ :: before) ev after)
      · intro before ev after b hrun hbefore
        exact hsplit _ ev after b (.op a hrun) (List.forall_mem_cons.mpr ⟨hx, hbefore⟩)
      · intro b before ev after hR
        exact hlate b _ ev after hR
      · intro b front hmid
        exact hf b _ hmid

end Splits

section Erase

variable (hidden : (o : S.Op) → Option (S.Ans o))

/-- A program without its `hidden` operations, each of which takes the answer given for it. -/
def erase : Prog S ε α → Prog S ε α
  | .ret a => .ret a
  | .raise e => .raise e
  | .op o k =>
    match hidden o with
    | some a => erase (k a)
    | none => .op o fun a => erase (k a)

def kept (tr : List S.Event) : List S.Event := tr.filter fun ev => (hidden ev.op).isNone

variable {hidden}

@[simp] theorem erase_ret (a : α) : (Prog.ret a : Prog S ε α).erase hidden = .ret a := rfl
@[simp] theorem erase_raise (e : ε) : (Prog.raise e : Prog S ε α).erase hidden = .raise e := rfl

theorem erase_op_hidden {o : S.Op} {a : S.Ans o} (h : hidden o = some a)
    (k : S.Ans o → Prog S ε α) : (Prog.op o k).erase hidden = (k a).erase hidden := by
  rw [erase, h]

theorem erase_op_kept {o : S.Op} (h : hidden o = none) (k : S.Ans o → Prog S ε α) :
    (Prog.op o k).erase hidden = .op o fun a => (k a).erase hidden := by
  rw [erase, h]

theorem kept_cons_hidden {ev : S.Event} {a : S.Ans ev.op} (h : hidden ev.op = some a)
    (tr : List S.Event) : kept hidden (ev :: tr) = kept hidden tr := by
  simp [kept, h]

theorem kept_cons_kept {ev : S.Event} (h : hidden ev.op = none) (tr : List S.Event) :
    kept hidden (ev :: tr) = ev :: kept hidden tr := by
  simp [kept, h]

/-- The runs of the erased program are those of the program, less the hidden exchanges. -/
theorem runs_erase_iff (only : ∀ o a, hidden o = some a → ∀ b, b = a) {p : Prog S ε α}
    {tr : List S.Event} {r : Except ε α} :
    Runs (p.erase hidden) tr r ↔ ∃ whole, Runs p whole r ∧ tr = kept hidden whole := by
  induction p generalizing tr with
  | ret a =>
    simp only [erase_ret, runs_ret_iff]
    constructor
    · intro h
      obtain ⟨rfl, rfl⟩ := h
      exact ⟨[], ⟨rfl, rfl⟩, rfl⟩
    · intro h
      obtain ⟨whole, ⟨rfl, rfl⟩, rfl⟩ := h
      exact ⟨rfl, rfl⟩
  | raise e =>
    simp only [erase_raise, runs_raise_iff]
    constructor
    · intro h
      obtain ⟨rfl, rfl⟩ := h
      exact ⟨[], ⟨rfl, rfl⟩, rfl⟩
    · intro h
      obtain ⟨whole, ⟨rfl, rfl⟩, rfl⟩ := h
      exact ⟨rfl, rfl⟩
  | op o k ih =>
    cases h : hidden o with
    | some a =>
      rw [erase_op_hidden h, ih a]
      constructor
      · intro h
        obtain ⟨whole, hrun, rfl⟩ := h
        exact ⟨⟨o, a⟩ :: whole, .op a hrun, (kept_cons_hidden h whole).symm⟩
      · intro h
        obtain ⟨whole, hrun, rfl⟩ := h
        obtain ⟨b, rest, rfl, hrest⟩ := runs_op_iff.mp hrun
        obtain rfl := only o a h b
        exact ⟨rest, hrest, kept_cons_hidden h rest⟩
    | none =>
      rw [erase_op_kept h, runs_op_iff]
      constructor
      · intro h
        obtain ⟨a, rest, rfl, hrest⟩ := h
        obtain ⟨whole, hrun, rfl⟩ := (ih a).mp hrest
        exact ⟨⟨o, a⟩ :: whole, .op a hrun, (kept_cons_kept h whole).symm⟩
      · intro h
        obtain ⟨whole, hrun, rfl⟩ := h
        obtain ⟨a, rest, rfl, hrest⟩ := runs_op_iff.mp hrun
        exact ⟨a, _, kept_cons_kept h rest, (ih a).mpr ⟨rest, hrest, rfl⟩⟩

end Erase

section Inversion

variable {p : Prog S ε α} {tr : List S.Event}

/-- A sequence ends within its first part, by raising, or after it. -/
theorem Runs.of_bind {p : Prog S ε β} {f : β → Prog S ε α} {r : Except ε α} (h : Runs (p >>= f) tr r) :
    (∃ b before after, tr = before ++ after ∧ Runs p before (.ok b) ∧ Runs (f b) after r) ∨
      ∃ e, r = .error e ∧ Runs p tr (.error e) := by
  induction p generalizing tr with
  | ret b => exact .inl ⟨b, [], tr, rfl, .ret b, h⟩
  | raise e =>
    obtain ⟨rfl, rfl⟩ := runs_raise_iff.mp h
    exact .inr ⟨e, rfl, .raise e⟩
  | op o k ih =>
    obtain ⟨a, rest, rfl, hrest⟩ := runs_op_iff.mp h
    rcases ih a hrest with ⟨b, before, after, rfl, hp, hf⟩ | ⟨e, rfl, hp⟩
    · exact .inl ⟨b, ⟨o, a⟩ :: before, after, rfl, .op a hp, hf⟩
    · exact .inr ⟨e, rfl, .op a hp⟩

theorem Runs.of_catch {g : ε → Prog S ε α} {r : Except ε α} (h : Runs (p.catching g) tr r) :
    (∃ a, r = .ok a ∧ Runs p tr (.ok a)) ∨
      ∃ e before after, tr = before ++ after ∧ Runs p before (.error e) ∧ Runs (g e) after r := by
  induction p generalizing tr with
  | ret a =>
    obtain ⟨rfl, rfl⟩ := runs_ret_iff.mp h
    exact .inl ⟨a, rfl, .ret a⟩
  | raise e => exact .inr ⟨e, [], tr, rfl, .raise e, h⟩
  | op o k ih =>
    obtain ⟨a, rest, rfl, hrest⟩ := runs_op_iff.mp h
    rcases ih a hrest with ⟨b, rfl, hp⟩ | ⟨e, before, after, rfl, hp, hg⟩
    · exact .inl ⟨b, rfl, .op a hp⟩
    · exact .inr ⟨e, ⟨o, a⟩ :: before, after, rfl, .op a hp, hg⟩

/-- `try: p finally: f` -/
def lastly (f : Prog S ε PUnit) : Prog S ε α → Prog S ε α
  | .ret a => f >>= fun _ => .ret a
  | .raise e => f >>= fun _ => .raise e
  | .op o k => .op o fun a => lastly f (k a)

theorem Runs.of_lastly {f : Prog S ε PUnit} {r : Except ε α} (h : Runs (lastly f p) tr r) :
    ∃ before after r', tr = before ++ after ∧ Runs p before r' ∧ Runs (f >>= fun _ => lift r') after r := by
  induction p generalizing tr with
  | ret a => exact ⟨[], tr, .ok a, rfl, .ret a, h⟩
  | raise e => exact ⟨[], tr, .error e, rfl, .raise e, h⟩
  | op o k ih =>
    obtain ⟨a, rest, rfl, hrest⟩ := runs_op_iff.mp h
    obtain ⟨before, after, r', rfl, hp, hf⟩ := ih a hrest
    exact ⟨⟨o, a⟩ :: before, after, r', rfl, .op a hp, hf⟩

/-- What never raises and stands in a `finally` leaves the result as it is. -/
theorem Runs.of_lastly_quiet {f : Prog S ε PUnit} {r : Except ε α} {Q : List S.Event → Prop}
    (h : Runs (lastly f p) tr r) (hf : ∀ tr r', Runs f tr r' → Q tr ∧ r' = .ok ⟨⟩) :
    ∃ before after, tr = before ++ after ∧ Runs p before r ∧ Q after := by
  obtain ⟨before, after, r', rfl, hp, hafter⟩ := h.of_lastly
  rcases hafter.of_bind with ⟨_, quiet, rest, rfl, hquiet, hend⟩ | ⟨e, -, hquiet⟩
  · obtain ⟨rfl, rfl⟩ : rest = [] ∧ r = r' := by
      cases r' with
      | ok a => exact runs_ret_iff.mp hend
      | error e => exact runs_raise_iff.mp hend
    rw [List.append_nil]
    exact ⟨before, quiet, rfl, hp, (hf quiet _ hquiet).1⟩
  · cases (hf after _ hquiet).2

end Inversion

section Sum

variable {T : Sig.{u}}

/-- A program with the operations of both signatures at hand, of which it uses the first. -/
def inl : Prog S ε α → Prog (S.sum T) ε α
  | .ret a => .ret a
  | .raise e => .raise e
  | .op o k => .op (.inl o) fun a => inl (k a)

theorem Runs.of_inl {p : Prog S ε α} {tr : List (S.sum T).Event} {r : Except ε α} (h : Runs (inl p) tr r) :
    ∃ own, tr = own.map Sig.Event.inl ∧ Runs p own r := by
  induction p generalizing tr with
  | ret a =>
    obtain ⟨rfl, rfl⟩ := runs_ret_iff.mp h
    exact ⟨[], rfl, .ret a⟩
  | raise e =>
    obtain ⟨rfl, rfl⟩ := runs_raise_iff.mp h
    exact ⟨[], rfl, .raise e⟩
  | op o k ih =>
    obtain ⟨a, rest, rfl, hrest⟩ := runs_op_iff.mp h
    obtain ⟨own, rfl, hown⟩ := ih a hrest
    exact ⟨⟨o, a⟩ :: own, rfl, .op (S := S) a hown⟩

end Sum

end Prog

end VirtualPerson
