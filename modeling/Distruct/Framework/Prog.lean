import Mathlib.Logic.Relation

/-! # Interaction Programs

    A program that runs on one node is a tree of calls: it asks its
    surroundings for something (`call o k`), gets an answer, and goes on
    with `k` applied to it. Nothing is fixed about who answers.

    * `Prog`: the programs, a lawful monad.
    * `Prog.run`: execution against a stateful handler. A handler may refuse
      to answer a call; the run then has no result.
    * `Prog.Ensures`: the program comes to an end against a handler, with a
      postcondition.
    * `Prog.Returns`: the results possible under *some* answers, i.e. what
      can come back when only a condition on each answer is known.
    * `Prog.Uses`: every call the program can make, under answers that meet a
      condition, satisfies a predicate.
    * `Prog.AtMost`: how many calls of a kind the program makes.
    * `Prog.interp`: replaces every call by a program over other calls.

    A call whose answer type is empty never returns. That is how a panic and
    a loop that is cut off are written.
-/

universe u v w

/-- Programs over the calls `Op`, where the call `o` is answered in `Resp o`. -/
inductive Prog (Op : Type u) (Resp : Op → Type v) (α : Type w) where
  /-- Returns `a`. -/
  | pure (a : α)
  /-- Makes the call `o`, and goes on with `k` and the answer. -/
  | call (o : Op) (k : Resp o → Prog Op Resp α)

namespace Prog

variable {Op : Type u} {Resp : Op → Type v} {α β γ : Type w}

/-! ### The monad -/

/-- Sequencing. -/
def bind : Prog Op Resp α → (α → Prog Op Resp β) → Prog Op Resp β
  | .pure a, f => f a
  | .call o k, f => .call o (fun r => (k r).bind f)

instance : Monad (Prog Op Resp) where
  pure := .pure
  bind := .bind

/-- A single call. -/
def perform {Op : Type u} {Resp : Op → Type v} (o : Op) : Prog Op Resp (Resp o) :=
  .call o .pure

@[simp] theorem pure_def (a : α) : (Pure.pure a : Prog Op Resp α) = .pure a := rfl

@[simp] theorem pure_bind' (a : α) (f : α → Prog Op Resp β) :
    (Prog.pure a >>= f) = f a := rfl

@[simp] theorem call_bind (o : Op) (k : Resp o → Prog Op Resp α) (f : α → Prog Op Resp β) :
    (Prog.call o k >>= f) = .call o (fun r => k r >>= f) := rfl

/-- The monad laws, by induction on the first program: `bind` only changes where it
    returns. -/
theorem bind_pure' (p : Prog Op Resp α) : p.bind .pure = p := by
  induction p with
  | pure a => rfl
  | call o k ih =>
    simp only [bind]
    congr 1
    funext r
    exact ih r

theorem bind_assoc' (p : Prog Op Resp α) (f : α → Prog Op Resp β) (g : β → Prog Op Resp γ) :
    (p.bind f).bind g = p.bind (fun a => (f a).bind g) := by
  induction p with
  | pure a => rfl
  | call o k ih =>
    simp only [bind]
    congr 1
    funext r
    exact ih r

instance : LawfulMonad (Prog Op Resp) := LawfulMonad.mk' _
  (fun p => bind_pure' p)
  (fun _ _ => rfl)
  (fun p f g => bind_assoc' p f g)

@[simp] theorem perform_bind {Op : Type v} {Resp : Op → Type v} {β : Type v} (o : Op)
    (f : Resp o → Prog Op Resp β) : (perform o >>= f) = .call o f := rfl

@[simp] theorem map_call (o : Op) (k : Resp o → Prog Op Resp α) (f : α → β) :
    f <$> Prog.call o k = .call o (fun r => f <$> k r) := rfl

@[simp] theorem map_pure' (a : α) (f : α → β) :
    f <$> (Prog.pure a : Prog Op Resp α) = .pure (f a) := rfl

/-! ### Running against a handler -/

section run
variable {σ : Type*}

/-- Execution against the handler `h`. The result is `none` when the handler
    has no answer for a call the program makes. -/
def run (h : (o : Op) → σ → Option (Resp o × σ)) : Prog Op Resp α → σ → Option (α × σ)
  | .pure a, s => some (a, s)
  | .call o k, s => (h o s).bind fun x => (k x.1).run h x.2

variable (h : (o : Op) → σ → Option (Resp o × σ))

@[simp] theorem run_pure (a : α) (s : σ) : (Prog.pure a : Prog Op Resp α).run h s = some (a, s) :=
  rfl

@[simp] theorem run_call (o : Op) (k : Resp o → Prog Op Resp α) (s : σ) :
    (Prog.call o k).run h s = (h o s).bind fun x => (k x.1).run h x.2 := rfl

/-- A sequence is run one part after the other. -/
theorem run_bind (p : Prog Op Resp α) (f : α → Prog Op Resp β) (s : σ) :
    (p >>= f).run h s = (p.run h s).bind fun x => (f x.1).run h x.2 := by
  induction p generalizing s with
  | pure a => rfl
  | call o k ih =>
    simp only [call_bind, run_call]
    cases h o s with
    | none => rfl
    | some x => exact ih x.1 x.2

theorem run_map (p : Prog Op Resp α) (f : α → β) (s : σ) :
    (f <$> p).run h s = (p.run h s).map fun x => (f x.1, x.2) := by
  rw [← bind_pure_comp, run_bind]
  cases p.run h s <;> rfl

end run

/-! ### Total correctness

    `Ensures h Q p s`: against the handler `h`, the program comes to an end
    from the state `s`, with a result and in a state that satisfy `Q`. -/

section ensures
variable {σ : Type*} {h : (o : Op) → σ → Option (Resp o × σ)}

def Ensures (h : (o : Op) → σ → Option (Resp o × σ)) (Q : α → σ → Prop) (p : Prog Op Resp α)
    (s : σ) : Prop :=
  ∃ a s', p.run h s = some (a, s') ∧ Q a s'

theorem ensures_pure {Q : α → σ → Prop} {a : α} {s : σ} (hQ : Q a s) :
    Ensures h Q (.pure a) s :=
  ⟨a, s, rfl, hQ⟩

theorem ensures_call {Q : α → σ → Prop} {o : Op} {k : Resp o → Prog Op Resp α} {s s' : σ}
    {r : Resp o} (hr : h o s = some (r, s')) (hk : Ensures h Q (k r) s') :
    Ensures h Q (.call o k) s := by
  obtain ⟨a, s'', hrun, hQ⟩ := hk
  refine ⟨a, s'', ?_, hQ⟩
  rw [run_call, hr]
  exact hrun

theorem ensures_mono {Q Q' : α → σ → Prop} {p : Prog Op Resp α} {s : σ}
    (hQ : ∀ a s', Q a s' → Q' a s') (hp : Ensures h Q p s) : Ensures h Q' p s := by
  obtain ⟨a, s', hrun, ha⟩ := hp
  exact ⟨a, s', hrun, hQ a s' ha⟩

/-- The rule of sequencing: the second part ends as required from wherever the first
    one ends. -/
theorem ensures_bind {Q : β → σ → Prop} {p : Prog Op Resp α} {f : α → Prog Op Resp β} {s : σ}
    (hp : Ensures h (fun a s' => Ensures h Q (f a) s') p s) : Ensures h Q (p >>= f) s := by
  obtain ⟨a, s', hrun, b, s'', hrun', hb⟩ := hp
  refine ⟨b, s'', ?_, hb⟩
  rw [run_bind, hrun]
  exact hrun'

theorem ensures_map {Q : β → σ → Prop} {p : Prog Op Resp α} {f : α → β} {s : σ}
    (hp : Ensures h (fun a s' => Q (f a) s') p s) : Ensures h Q (f <$> p) s := by
  rw [← bind_pure_comp]
  exact ensures_bind (ensures_mono (fun _ _ => ensures_pure) hp)

end ensures

/-! ### Possible results -/

/-- `p.Returns A a`: under some answers to its calls, all satisfying `A`, the
    program `p` returns `a`. -/
inductive Returns (A : (o : Op) → Resp o → Prop) : Prog Op Resp α → α → Prop where
  | pure (a : α) : Returns A (.pure a) a
  | call {o : Op} {k : Resp o → Prog Op Resp α} {a : α} (r : Resp o) :
      A o r → Returns A (k r) a → Returns A (.call o k) a

section returns
variable {A : (o : Op) → Resp o → Prop}

@[simp] theorem returns_pure {a b : α} :
    (Prog.pure a : Prog Op Resp α).Returns A b ↔ b = a := by
  constructor
  · rintro ⟨⟩
    rfl
  · rintro rfl
    exact .pure _

@[simp] theorem returns_call {o : Op} {k : Resp o → Prog Op Resp α} {a : α} :
    (Prog.call o k).Returns A a ↔ ∃ r, A o r ∧ (k r).Returns A a := by
  constructor
  · intro h
    cases h with
    | call r hr h => exact ⟨r, hr, h⟩
  · rintro ⟨r, hr, h⟩
    exact .call r hr h

/-- What a sequence can return, the second part can return after some result of the
    first one. -/
theorem returns_bind {p : Prog Op Resp α} {f : α → Prog Op Resp β} {b : β} :
    (p >>= f).Returns A b ↔ ∃ a, p.Returns A a ∧ (f a).Returns A b := by
  induction p with
  | pure a => simp
  | call o k ih =>
    simp only [call_bind, returns_call, ih]
    constructor
    · rintro ⟨r, hr, a, h₁, h₂⟩
      exact ⟨a, ⟨r, hr, h₁⟩, h₂⟩
    · rintro ⟨a, ⟨r, hr, h₁⟩, h₂⟩
      exact ⟨r, hr, a, h₁, h₂⟩

theorem returns_perform {o : Op} {r : Resp o} : (perform o).Returns A r ↔ A o r := by
  simp [perform]

theorem returns_map {p : Prog Op Resp α} {f : α → β} {b : β} :
    (f <$> p).Returns A b ↔ ∃ a, p.Returns A a ∧ b = f a := by
  rw [← bind_pure_comp, returns_bind]
  simp

end returns

/-! ### The calls a program can make -/

/-- Answers of which nothing is known. -/
def AnyAnswer : (o : Op) → Resp o → Prop := fun _ _ => True

/-- Every call that `p` can make, as long as its calls are answered by answers
    that satisfy `A`, satisfies `P`. -/
def Uses (A : (o : Op) → Resp o → Prop) (P : Op → Prop) : Prog Op Resp α → Prop
  | .pure _ => True
  | .call o k => P o ∧ ∀ r, A o r → (k r).Uses A P

section uses
variable {A : (o : Op) → Resp o → Prop} {P : Op → Prop}

/-- The second part has to be looked at only for the results that the first one can
    return. -/
theorem uses_bind {p : Prog Op Resp α} {f : α → Prog Op Resp β} (hp : p.Uses A P)
    (hf : ∀ a, p.Returns A a → (f a).Uses A P) : (p >>= f).Uses A P := by
  induction p with
  | pure a => exact hf a (.pure a)
  | call o k ih =>
    refine ⟨hp.1, ?_⟩
    intro r hr
    exact ih r (hp.2 r hr) fun a ha => hf a (.call r hr ha)

theorem uses_map {p : Prog Op Resp α} {f : α → β} (hp : p.Uses A P) : (f <$> p).Uses A P :=
  uses_bind hp fun _ _ => trivial

/-- Fewer answers and a weaker predicate. -/
theorem uses_mono {A' : (o : Op) → Resp o → Prop} {P' : Op → Prop} {p : Prog Op Resp α}
    (hA : ∀ o r, A' o r → A o r) (hP : ∀ o, P o → P' o) (hp : p.Uses A P) : p.Uses A' P' := by
  induction p with
  | pure a => trivial
  | call o k ih => exact ⟨hP o hp.1, fun r hr => ih r (hp.2 r (hA o r hr))⟩

/-- A handler that answers all those calls brings the program to an end. -/
theorem run_of_uses {σ : Type*} {h : (o : Op) → σ → Option (Resp o × σ)} {p : Prog Op Resp α}
    (hh : ∀ o s, P o → ∃ x, h o s = some x) (hp : p.Uses AnyAnswer P) (s : σ) :
    ∃ x, p.run h s = some x := by
  induction p generalizing s with
  | pure a => exact ⟨(a, s), rfl⟩
  | call o k ih =>
    obtain ⟨x, hx⟩ := hh o s hp.1
    rw [run_call, hx, Option.bind_some]
    exact ih x.1 (hp.2 x.1 trivial) x.2

end uses

/-! ### Counting calls -/

/-- However its calls are answered, `p` makes at most `n` of those in `P`. -/
def AtMost (P : Op → Prop) : Prog Op Resp α → Nat → Prop
  | .pure _, _ => True
  | .call o k, n =>
      (P o ∧ ∃ m, n = m + 1 ∧ ∀ r, (k r).AtMost P m) ∨ (¬ P o ∧ ∀ r, (k r).AtMost P n)

section counting
variable {P : Op → Prop} {p : Prog Op Resp α} {n : Nat}

/-- A program without calls in `P` makes at most any number of them. -/
theorem atMost_of_uses (h : p.Uses AnyAnswer fun o => ¬ P o) : p.AtMost P n := by
  induction p with
  | pure a => trivial
  | call o k ih => exact .inr ⟨h.1, fun r => ih r (h.2 r trivial)⟩

end counting

/-! ### Replacing calls by programs -/

section interp
variable {Op' : Type u} {Resp' : Op' → Type v}

/-- Replaces every call of a program by a program over the calls `Op'`. -/
def interp (f : (o : Op) → Prog Op' Resp' (Resp o)) {α : Type v} :
    Prog Op Resp α → Prog Op' Resp' α
  | .pure a => .pure a
  | .call o k => f o >>= fun r => (k r).interp f

variable (f : (o : Op) → Prog Op' Resp' (Resp o)) {α β : Type v}

@[simp] theorem interp_pure (a : α) : (Prog.pure a : Prog Op Resp α).interp f = .pure a := rfl

@[simp] theorem interp_call (o : Op) (k : Resp o → Prog Op Resp α) :
    (Prog.call o k).interp f = f o >>= fun r => (k r).interp f := rfl

/-- Sequences are replaced part by part. -/
theorem interp_bind (p : Prog Op Resp α) (g : α → Prog Op Resp β) :
    (p >>= g).interp f = p.interp f >>= fun a => (g a).interp f := by
  induction p with
  | pure a => rfl
  | call o k ih =>
    simp only [call_bind, interp_call, bind_assoc]
    congr 1
    funext r
    exact ih r

theorem interp_perform (o : Op) : (perform o : Prog Op Resp _).interp f = f o :=
  bind_pure (f o)

/-- A program without the calls that are replaced stays as it is. -/
theorem interp_eq_self {f : (o : Op) → Prog Op Resp (Resp o)} {p : Prog Op Resp α}
    (h : p.Uses AnyAnswer fun o => f o = perform o) : p.interp f = p := by
  induction p with
  | pure a => rfl
  | call o k ih =>
    rw [interp_call, h.1]
    show Prog.call o (fun r => (k r).interp f) = Prog.call o k
    congr 1
    funext r
    exact ih r (h.2 r trivial)

/-- The calls of the replacing programs; an answer to a replaced call is what
    its program can return. -/
theorem uses_interp {A : (o : Op') → Resp' o → Prop} {P : Op' → Prop} {p : Prog Op Resp α}
    (h : p.Uses (fun o r => (f o).Returns A r) fun o => (f o).Uses A P) :
    (p.interp f).Uses A P := by
  induction p with
  | pure a => trivial
  | call o k ih => exact uses_bind h.1 fun r hr => ih r (h.2 r hr)

end interp

/-! ### Programs that can fail

    `ExceptT ε (Prog Op Resp)` is the monad of programs that return an error
    or a value, and stop at the first error. -/

section failing
variable {ε : Type w} {A : (o : Op) → Resp o → Prop}

/-- A sequence returns what its second part does, or the error of the first one. -/
theorem returns_run_bind {x : ExceptT ε (Prog Op Resp) α} {f : α → ExceptT ε (Prog Op Resp) β}
    {r : Except ε β} :
    (x >>= f).run.Returns A r ↔
      (∃ a, x.run.Returns A (.ok a) ∧ (f a).run.Returns A r) ∨
      (∃ e, x.run.Returns A (.error e) ∧ r = .error e) := by
  rw [ExceptT.run_bind, returns_bind]
  constructor
  · rintro ⟨b, hb, h⟩
    cases b with
    | ok a => exact .inl ⟨a, hb, h⟩
    | error e => exact .inr ⟨e, hb, returns_pure.mp h⟩
  · rintro (⟨a, ha, h⟩ | ⟨e, he, rfl⟩)
    · exact ⟨.ok a, ha, h⟩
    · exact ⟨.error e, he, returns_pure.mpr rfl⟩

theorem returns_run_lift {p : Prog Op Resp α} {r : Except ε α} :
    (liftM p : ExceptT ε (Prog Op Resp) α).run.Returns A r ↔ ∃ a, p.Returns A a ∧ r = .ok a :=
  returns_map

theorem uses_run_bind {P : Op → Prop} {x : ExceptT ε (Prog Op Resp) α}
    {f : α → ExceptT ε (Prog Op Resp) β} (hx : x.run.Uses A P)
    (hf : ∀ a, x.run.Returns A (.ok a) → (f a).run.Uses A P) : (x >>= f).run.Uses A P := by
  rw [ExceptT.run_bind]
  refine uses_bind hx ?_
  intro r hr
  -- nothing is called after an error
  cases r with
  | ok a => exact hf a hr
  | error e => trivial

theorem uses_run_lift_bind {P : Op → Prop} {p : Prog Op Resp α}
    {f : α → ExceptT ε (Prog Op Resp) β} (hp : p.Uses A P) (hf : ∀ a, (f a).run.Uses A P) :
    ((liftM p : ExceptT ε (Prog Op Resp) α) >>= f).run.Uses A P :=
  uses_run_bind (uses_map hp) fun a _ => hf a

/-- Running a sequence: an error of the first part ends the run. -/
theorem run_run_bind {σ : Type*} (h : (o : Op) → σ → Option (Resp o × σ))
    (x : ExceptT ε (Prog Op Resp) α) (f : α → ExceptT ε (Prog Op Resp) β) (s : σ) :
    (x >>= f).run.run h s = (x.run.run h s).bind fun y =>
      match y.1 with
      | .ok a => (f a).run.run h y.2
      | .error e => some (.error e, y.2) := by
  rw [ExceptT.run_bind, run_bind]
  congr 1
  funext y
  obtain ⟨r, s'⟩ := y
  cases r <;> rfl

theorem run_run_lift_bind {σ : Type*} (h : (o : Op) → σ → Option (Resp o × σ)) (p : Prog Op Resp α)
    (f : α → ExceptT ε (Prog Op Resp) β) (s : σ) :
    ((liftM p : ExceptT ε (Prog Op Resp) α) >>= f).run.run h s
      = (p.run h s).bind fun y => (f y.1).run.run h y.2 := by
  rw [run_run_bind]
  have hlift : (liftM p : ExceptT ε (Prog Op Resp) α).run.run h s
      = (p.run h s).map fun y => (Except.ok y.1, y.2) := run_map h p Except.ok s
  rw [hlift]
  cases p.run h s <;> rfl

end failing

end Prog
