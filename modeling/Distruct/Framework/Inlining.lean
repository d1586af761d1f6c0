import Distruct.Framework.Mailbox
import Mathlib.Data.Finset.Basic

/-! # Inlining the Nodes

    A caller that waits while a node carries out its request might as well carry
    it out itself. This is what `Prog.interp` makes of a program: a call that is
    sent away becomes the program of the node, with a step before it and one
    after it that stand for the two ways.

    Every run of `mail` is matched by a run of such callers. It is not a step by
    step translation of the past alone. A caller that gives up leaves its request
    behind, and the node may well carry it out later. In the matching run such a
    request was a job of a worker of its own from the beginning. So a run is
    matched for every set `A` of requests that will have been given up.

    * `Inlines`: what relates a call that is sent away to the program in its place.
    * `Bridge`: how the two runs may differ in what they share.
    * `Matches`: the two runs, side by side.
    * `mail_inlined`: the simulation.
-/

universe w

namespace LTS

variable {ι σ τ Env Env' Op Job Job' Node Packet Msg : Type*} {Resp : Op → Type w}
  {Reply Out : Type w}

/-! ### Inlined calls -/

/-- With `p` left, a worker can make one call that changes nothing, whoever it
    is, and have `q` left. -/
def Skips (site : Site ι σ Env Op Job Resp) {α : Type w} (p q : Prog Op Resp α) : Prop :=
  ∃ o k r, p = .call o k ∧ q = k r ∧ ∀ i s, site.call i s o r s

theorem Skips.bind {site : Site ι σ Env Op Job Resp} {α β : Type w} {p q : Prog Op Resp α}
    (h : Skips site p q) (f : α → Prog Op Resp β) : Skips site (p >>= f) (q >>= f) := by
  obtain ⟨o, k, r, rfl, rfl, hcall⟩ := h
  exact ⟨o, fun r => k r >>= f, r, rfl, rfl, hcall⟩

/-- `link o` is what stands for the call `o`. -/
structure Inlines (post : Post Op Resp Node Packet Msg Reply) (site : Site ι σ Env Op Job Resp)
    (link : (o : Op) → Prog Op Resp (Resp o)) where
  /-- What is left when the node is done. -/
  back : (o : Op) → Reply → Prog Op Resp (Resp o)
  here : ∀ {o}, post.sends o = none → link o = Prog.perform o
  /-- The way there. -/
  arrives : ∀ {o n packet msg}, post.sends o = some (n, packet) → post.sendable o →
    post.reads packet = some msg → Skips site (link o) (post.serve n msg >>= back o)
  /-- The way back. -/
  returns : ∀ {o x reply r}, post.sends o = some x → post.returnable reply →
    post.receives o (post.writes reply) r → Skips site (back o reply) (.pure r)
  /-- Nothing is carried out for this caller. -/
  refused : ∀ {o x r}, post.sends o = some x → post.receives o post.empty r →
    Skips site (link o) (.pure r)
  lost : ∀ {o x r}, post.sends o = some x → post.loses o r → Skips site (link o) (.pure r)

/-! ### What is shared -/

/-- In whose name a request is carried out in the matching run. -/
inductive Phase (ι : Type*) where
  | unused
  | active (w : ι ⊕ Ticket ι)
  | over

/-- How what is shared in a run of `mail` relates to what is shared in the
    matching run, given in whose names the requests are carried out there. Jobs
    are translated by `job`, and a request that was given up becomes the job
    `errand`. -/
structure Bridge [DecidableEq ι] (site : Site (ι ⊕ Ticket ι) σ Env Op Job Resp)
    (site' : Site (ι ⊕ Ticket ι) τ Env' Op Job' Resp) (job : Job → Job')
    (errand : Node → Msg → Job') (P : Op → Prop) where
  rel : (Ticket ι → Phase ι) → σ → τ → Prop
  init : ∀ {s}, site.init s → ∃ t, site'.init t ∧ rel (fun _ => .unused) s t
  env : ∀ {ρ s t e s'}, rel ρ s t → site.env s e s' → ∃ e' t', site'.env t e' t' ∧ rel ρ s' t'
  start : ∀ {ρ s t i j s'}, rel ρ s t → site.start (.inl i) s j s' →
    ∃ t', site'.start (.inl i) t (job j) t' ∧ rel ρ s' t'
  /-- A call that a caller makes itself, while nothing is carried out in its name. -/
  call : ∀ {ρ s t i o r s'}, rel ρ s t → (∀ x, ρ x ≠ .active (.inl i)) → P o →
    site.call (.inl i) s o r s' → ∃ t', site'.call (.inl i) t o r t' ∧ rel ρ s' t'
  /-- A call that is made for a request. -/
  work : ∀ {ρ s t x w o r s'}, rel ρ s t → ρ x = .active w → (∀ y, ρ y = .active w → y = x) →
    (∀ i, w = .inl i → i = x.1) → site.call (.inr x) s o r s' →
    ∃ t', site'.call w t o r t' ∧ rel ρ s' t'
  /-- A request is carried out in the name of its caller. -/
  attend : ∀ {ρ s t x}, rel ρ s t → ρ x = .unused → (∀ y, ρ y ≠ .active (.inl x.1)) →
    rel (Function.update ρ x (.active (.inl x.1))) s t
  /-- A request is carried out on its own. -/
  serve : ∀ {ρ s t x} (n msg), rel ρ s t → ρ x = .unused →
    ∃ t', site'.start (.inr x) t (errand n msg) t' ∧
      rel (Function.update ρ x (.active (.inr x))) s t'
  done : ∀ {ρ s t x}, rel ρ s t → rel (Function.update ρ x .over) s t

/-! ### Side by side -/

section matching
variable [DecidableEq ι] [DecidableEq Node] {post : Post Op Resp Node Packet Msg Reply}
  {site : Site (ι ⊕ Ticket ι) σ Env Op Job Resp} {site' : Site (ι ⊕ Ticket ι) τ Env' Op Job' Resp}
  {prog : Job → Prog Op Resp Out} {job : Job → Job'} {errand : Node → Msg → Job'} {P : Op → Prop}
  {link : (o : Op) → Prog Op Resp (Resp o)} {wrap : Reply → Out}
  {c c' : Office ι σ Op Resp Node Packet Msg Reply Out} {a a' : Crew (ι ⊕ Ticket ι) τ Op Resp Out}
  {A A' : Finset (Ticket ι)}

/-- In whose name a request is carried out: in that of its caller as long as that
    waits for it and will not have given up. -/
def Office.owner (c : Office ι σ Op Resp Node Packet Msg Reply Out) (A : Finset (Ticket ι))
    (x : Ticket ι) : ι ⊕ Ticket ι :=
  if x.2 = c.round x.1 ∧ x ∉ A then .inl x.1 else .inr x

def Stage.phase (w : ι ⊕ Ticket ι) : Option (Stage Op Resp Node Packet Msg Reply) → Phase ι
  | some (.taken ..) => .active w
  | some (.answered (some _)) => .over
  | _ => .unused

def Office.phase (c : Office ι σ Op Resp Node Packet Msg Reply Out) (A : Finset (Ticket ι))
    (x : Ticket ι) : Phase ι :=
  Stage.phase (c.owner A x) (c.stage x)

/-- What a caller that waits for the call `o` has left of it. -/
def Office.pending (c : Office ι σ Op Resp Node Packet Msg Reply Out) (h : Inlines post site' link)
    (A : Finset (Ticket ι)) (i : ι) (o : Op) : Prog Op Resp (Resp o) :=
  if (i, c.round i) ∈ A then link o
  else
    match c.stage (i, c.round i) with
    | some (.taken _ q) => q >>= h.back o
    | some (.answered (some reply)) => h.back o reply
    | _ => link o

/-- A run of `mail` and a run of the callers with the nodes inlined, where the
    requests in `A` were given up. -/
structure Matches (h : Inlines post site' link) (B : Bridge site site' job errand P)
    (wrap : Reply → Out) (A : Finset (Ticket ι)) (c : Office ι σ Op Resp Node Packet Msg Reply Out)
    (a : Crew (ι ⊕ Ticket ι) τ Op Resp Out) : Prop where
  rel : B.rel (c.phase A) c.shared a.shared
  idle : ∀ i, c.desk i = .idle → a.worker (.inl i) = none
  works : ∀ i p, c.desk i = .works p → a.worker (.inl i) = some (p.interp link)
  waits : ∀ i o k, c.desk i = .waits o k →
    a.worker (.inl i) = some (c.pending h A i o >>= fun r => (k r).interp link)
  unused : ∀ x, c.phase A x = .unused → a.worker (.inr x) = none
  serving : ∀ x n q, c.stage x = some (.taken n q) → c.owner A x = .inr x →
    a.worker (.inr x) = some (wrap <$> q)

/-! ### Where nothing is carried out -/

/-- No node has begun with the request. -/
def Stage.Rests : Option (Stage Op Resp Node Packet Msg Reply) → Prop
  | some (.taken ..) => False
  | some (.answered (some _)) => False
  | _ => True

omit [DecidableEq ι] [DecidableEq Node] in
theorem Stage.Rests.phase {x : Option (Stage Op Resp Node Packet Msg Reply)} (hx : Stage.Rests x)
    (w : ι ⊕ Ticket ι) : Stage.phase w x = .unused := by
  cases x with
  | none => rfl
  | some x =>
    cases x with
    | sent | queued => rfl
    | taken => exact hx.elim
    | answered reply =>
      cases reply with
      | none => rfl
      | some r => exact hx.elim

omit [DecidableEq Node] in
/-- A caller that waits for a request with which no node has begun still has the
    whole call before it. -/
theorem Office.pending_of_rests (h : Inlines post site' link) {i : ι} (o : Op)
    (hx : Stage.Rests (c.stage (i, c.round i))) : c.pending h A i o = link o := by
  unfold Office.pending
  split
  · rfl
  · cases hstage : c.stage (i, c.round i) with
    | none => rfl
    | some x =>
      rw [hstage] at hx
      cases x with
      | sent | queued => rfl
      | taken => exact hx.elim
      | answered reply =>
        cases reply with
        | none => rfl
        | some r => exact hx.elim

omit [DecidableEq Node] in
theorem Office.phase_active {x : Ticket ι} {w : ι ⊕ Ticket ι} (hx : c.phase A x = .active w) :
    (∃ n q, c.stage x = some (.taken n q)) ∧ w = c.owner A x := by
  unfold Office.phase at hx
  cases hstage : c.stage x with
  | none =>
    rw [hstage] at hx
    cases hx
  | some y =>
    rw [hstage] at hx
    cases y with
    | sent | queued => cases hx
    | taken n q =>
      cases hx
      exact ⟨⟨n, q, rfl⟩, rfl⟩
    | answered reply => cases reply <;> cases hx

omit [DecidableEq Node] in
/-- A request is carried out in the name of a caller only while that waits for it. -/
theorem Office.of_owner_inl {x : Ticket ι} {i : ι} (hx : c.owner A x = .inl i) :
    x = (i, c.round i) ∧ x ∉ A := by
  unfold Office.owner at hx
  split at hx
  · next h =>
    cases hx
    exact ⟨Prod.ext rfl h.1, h.2⟩
  · cases hx

omit [DecidableEq Node] in
/-- Different requests are carried out in different names. -/
theorem Office.owner_inj {x y : Ticket ι} (h : c.owner A x = c.owner A y) : x = y := by
  have hinr : ∀ {x z : Ticket ι}, c.owner A x = .inr z → x = z := by
    intro x z hx
    unfold Office.owner at hx
    split at hx
    · cases hx
    · cases hx
      rfl
  cases hx : c.owner A x with
  | inl i =>
    have hxi := (Office.of_owner_inl hx).1
    have hyi := (Office.of_owner_inl (h ▸ hx)).1
    exact hxi.trans hyi.symm
  | inr z => exact (hinr hx).trans (hinr (h ▸ hx)).symm

/-! ### Steps of the matching run -/

namespace Matches

variable {h : Inlines post site' link} {B : Bridge site site' job errand P}

omit [DecidableEq Node] in
/-- Requests move where no node begins or ends with one. -/
theorem rests (hM : Matches h B wrap A c a)
    {stage : Ticket ι → Option (Stage Op Resp Node Packet Msg Reply)}
    (hstage : ∀ x, stage x = c.stage x ∨ (Stage.Rests (c.stage x) ∧ Stage.Rests (stage x)))
    (queue : Node → List (Ticket ι)) (loop : Node → Loop ι) :
    Matches h B wrap A { c with stage := stage, queue := queue, loop := loop } a where
  rel := by
    have hphase : Office.phase { c with stage := stage, queue := queue, loop := loop } A
        = c.phase A := by
      funext x
      rcases hstage x with heq | ⟨hold, hnew⟩
      · simp only [Office.phase, heq]
        rfl
      · exact (hnew.phase _).trans (hold.phase _).symm
    rw [hphase]
    exact hM.rel
  idle := hM.idle
  works := hM.works
  waits := by
    intro i o k hi
    rw [hM.waits i o k hi]
    rcases hstage (i, c.round i) with heq | ⟨hold, hnew⟩
    · simp only [Office.pending, heq]
    · rw [Office.pending_of_rests h o hold]
      rw [Office.pending_of_rests (c := { c with stage := stage, queue := queue, loop := loop }) h o
        hnew]
  unused := by
    intro x hx
    refine hM.unused x ?_
    rcases hstage x with heq | ⟨hold, _⟩
    · simp only [Office.phase, heq] at hx
      exact hx
    · exact hold.phase _
  serving := by
    intro x n q hx hown
    refine hM.serving x n q ?_ hown
    rcases hstage x with heq | ⟨_, hnew⟩
    · exact heq ▸ hx
    · change stage x = _ at hx
      rw [hx] at hnew
      exact hnew.elim

omit [DecidableEq Node] in
/-- Caller `i` goes on with `p`, possibly after a request. -/
theorem turn (hM : Matches h B wrap A c a) (i : ι) (p : Prog Op Resp Out)
    (c' : Office ι σ Op Resp Node Packet Msg Reply Out)
    (hdesk : c'.desk = Function.update c.desk i (.works p)) (hstage : c'.stage = c.stage)
    (hround : ∀ j, j ≠ i → c'.round j = c.round j)
    (hA : ∀ x : Ticket ι, x.1 ≠ i → (x ∈ A' ↔ x ∈ A)) (hphase : c'.phase A' = c.phase A)
    (hown : ∀ x n q, c.stage x = some (.taken n q) → c'.owner A' x = .inr x → c.owner A x = .inr x)
    {t : τ} (hrel : B.rel (c.phase A) c'.shared t) :
    Matches h B wrap A' c'
      { shared := t, worker := Function.update a.worker (.inl i) (some (p.interp link)) } where
  rel := by
    rw [hphase]
    exact hrel
  idle := by
    intro j hj
    rw [hdesk] at hj
    by_cases hji : j = i
    · subst hji
      rw [Function.update_self] at hj
      cases hj
    · rw [Function.update_of_ne hji] at hj
      simp only [Function.update_of_ne (fun heq => hji (Sum.inl.inj heq) : Sum.inl j ≠ Sum.inl i)]
      exact hM.idle j hj
  works := by
    intro j p' hj
    rw [hdesk] at hj
    by_cases hji : j = i
    · subst hji
      rw [Function.update_self] at hj
      cases hj
      simp only [Function.update_self]
    · rw [Function.update_of_ne hji] at hj
      simp only [Function.update_of_ne (fun heq => hji (Sum.inl.inj heq) : Sum.inl j ≠ Sum.inl i)]
      exact hM.works j p' hj
  waits := by
    intro j o k hj
    rw [hdesk] at hj
    by_cases hji : j = i
    · subst hji
      rw [Function.update_self] at hj
      cases hj
    · rw [Function.update_of_ne hji] at hj
      simp only [Function.update_of_ne (fun heq => hji (Sum.inl.inj heq) : Sum.inl j ≠ Sum.inl i)]
      rw [hM.waits j o k hj]
      have hmem : (j, c.round j) ∈ A' ↔ (j, c.round j) ∈ A := hA (j, c.round j) hji
      simp only [Office.pending, hround j hji, hstage, hmem]
  unused := by
    intro x hx
    rw [hphase] at hx
    simp only [Function.update_of_ne (by nofun : (Sum.inr x : ι ⊕ Ticket ι) ≠ Sum.inl i)]
    exact hM.unused x hx
  serving := by
    intro x n q hx hox
    rw [hstage] at hx
    simp only [Function.update_of_ne (by nofun : (Sum.inr x : ι ⊕ Ticket ι) ≠ Sum.inl i)]
    exact hM.serving x n q hx (hown x n q hx hox)

omit [DecidableEq Node] in
/-- Caller `i` is between two requests. -/
theorem turn_here (hM : Matches h B wrap A c a) (i : ι) (p : Prog Op Resp Out) {s : σ} {t : τ}
    (hrel : B.rel (c.phase A) s t) :
    Matches h B wrap A { c with shared := s, desk := Function.update c.desk i (.works p) }
      { shared := t, worker := Function.update a.worker (.inl i) (some (p.interp link)) } :=
  hM.turn i p { c with shared := s, desk := Function.update c.desk i (.works p) } rfl rfl
    (fun _ _ => rfl) (fun _ _ => Iff.rfl) rfl (fun _ _ _ _ h => h) hrel

omit [DecidableEq Node] in
/-- Caller `i` goes on after a request. Afterwards nothing is carried out in its
    name, so it does not matter any more whether the request was given up. -/
theorem turn_after (hM : Matches h B wrap A c a) (hr : Rounds post c) (i : ι)
    (p : Prog Op Resp Out) (hA : ∀ x, x ≠ (i, c.round i) → (x ∈ A' ↔ x ∈ A))
    (hin : ∀ n q, c.stage (i, c.round i) = some (.taken n q) → (i, c.round i) ∈ A) :
    Matches h B wrap A'
      { c with
        desk := Function.update c.desk i (.works p)
        round := Function.update c.round i (c.round i + 1) }
      { shared := a.shared
        worker := Function.update a.worker (.inl i) (some (p.interp link)) } := by
  -- only a request that is being carried out has an owner, and it keeps that
  have howner : ∀ x n q, c.stage x = some (.taken n q) →
      Office.owner { c with
        desk := Function.update c.desk i (.works p)
        round := Function.update c.round i (c.round i + 1) } A' x = c.owner A x := by
    intro x n q hx
    by_cases hxi : x.1 = i
    · by_cases hcur : x = (i, c.round i)
      · subst hcur
        have hmem := hin n q hx
        simp [Office.owner, hmem]
      · -- there is none with the next number
        have hne : x.2 ≠ c.round i := fun h2 => hcur (Prod.ext hxi h2)
        have hnext : x.2 ≠ c.round i + 1 := by
          intro h2
          have hnone := hr.later i x.2 (by omega)
          have heq : x = (i, x.2) := Prod.ext hxi rfl
          rw [heq, hnone] at hx
          cases hx
        subst hxi
        simp [Office.owner, hne, hnext]
    · have hcur : x ≠ (i, c.round i) := fun h => hxi (congrArg Prod.fst h)
      simp only [Office.owner, Function.update_of_ne hxi, hA x hcur]
  refine hM.turn i p { c with
      desk := Function.update c.desk i (.works p)
      round := Function.update c.round i (c.round i + 1) } rfl rfl
    (fun j hj => Function.update_of_ne hj _ _) ?_ ?_ ?_ hM.rel
  · intro x hx
    exact hA x fun h => hx (congrArg Prod.fst h)
  · funext x
    unfold Office.phase
    cases hstage : c.stage x with
    | none => rfl
    | some y =>
      cases y with
      | sent | queued => rfl
      | taken n q => exact congrArg Phase.active (howner x n q hstage)
      | answered reply => cases reply <;> rfl
  · intro x n q hx hox
    rw [← howner x n q hx]
    exact hox

omit [DecidableEq Node] in
/-- A caller sends its request. -/
theorem send (hM : Matches h B wrap A c a) {i : ι} {o : Op} {k : Resp o → Prog Op Resp Out}
    (hi : c.desk i = .works (.call o k)) (hnone : c.stage (i, c.round i) = none) (n : Node)
    (packet : Packet) :
    Matches h B wrap A
      { c with
        desk := Function.update c.desk i (.waits o k)
        stage := Function.update c.stage (i, c.round i) (some (.sent n packet)) } a := by
  have hrests : ∀ x, Function.update c.stage (i, c.round i) (some (.sent n packet)) x = c.stage x ∨
      (Stage.Rests (c.stage x) ∧
        Stage.Rests (Function.update c.stage (i, c.round i) (some (.sent n packet)) x)) := by
    intro x
    by_cases hx : x = (i, c.round i)
    · subst hx
      rw [hnone, Function.update_self]
      exact .inr ⟨trivial, trivial⟩
    · exact .inl (Function.update_of_ne hx _ _)
  have hmoved := hM.rests hrests c.queue c.loop
  refine ⟨hmoved.rel, ?_, ?_, ?_, hmoved.unused, hmoved.serving⟩
  · intro j hj
    by_cases hji : j = i
    · subst hji
      simp only [Function.update_self] at hj
      cases hj
    · simp only [Function.update_of_ne hji] at hj
      exact hM.idle j hj
  · intro j p hj
    by_cases hji : j = i
    · subst hji
      simp only [Function.update_self] at hj
      cases hj
    · simp only [Function.update_of_ne hji] at hj
      exact hM.works j p hj
  · intro j o' k' hj
    by_cases hji : j = i
    · -- the call is gone from the desk, but nothing of it is done
      subst hji
      simp only [Function.update_self] at hj
      cases hj
      rw [hM.works j _ hi, Office.pending_of_rests]
      · rfl
      · simp only [Function.update_self]
        trivial
    · simp only [Function.update_of_ne hji] at hj
      exact hmoved.waits j o' k' hj

/-- What a stage leaves to do for the call `o`. -/
def left (h : Inlines post site' link) (o : Op) :
    Stage Op Resp Node Packet Msg Reply → Prog Op Resp (Resp o)
  | .taken _ q => q >>= h.back o
  | .answered (some reply) => h.back o reply
  | _ => link o

omit [DecidableEq ι] [DecidableEq Node] in
theorem phase_ne_unused {y : Stage Op Resp Node Packet Msg Reply} (hy : ¬ Stage.Rests (some y))
    (w : ι ⊕ Ticket ι) : Stage.phase w (some y) ≠ .unused := by
  cases y with
  | sent | queued => exact absurd trivial hy
  | taken => nofun
  | answered reply =>
    cases reply with
    | none => exact absurd trivial hy
    | some r => nofun

omit [DecidableEq Node] in
theorem phase_update (x : Ticket ι) (y : Option (Stage Op Resp Node Packet Msg Reply)) (s : σ)
    (queue : Node → List (Ticket ι)) (loop : Node → Loop ι) :
    Office.phase { c with
        shared := s, stage := Function.update c.stage x y, queue := queue, loop := loop } A
      = Function.update (c.phase A) x (Stage.phase (c.owner A x) y) := by
  funext x'
  by_cases hx : x' = x
  · subst hx
    simp only [Office.phase, Function.update_self]
    rfl
  · simp only [Office.phase, Function.update_of_ne hx]
    rfl

omit [DecidableEq Node] in
/-- A request moves on in the name of its caller. -/
theorem attended (hM : Matches h B wrap A c a) {i : ι} {o : Op} {k : Resp o → Prog Op Resp Out}
    (hi : c.desk i = .waits o k) (hA : (i, c.round i) ∉ A)
    {y : Stage Op Resp Node Packet Msg Reply} (hy : ¬ Stage.Rests (some y)) {s : σ} {t : τ}
    (hrel : B.rel (Function.update (c.phase A) (i, c.round i) (Stage.phase (.inl i) (some y))) s t)
    (queue : Node → List (Ticket ι)) (loop : Node → Loop ι) :
    Matches h B wrap A
      { c with
        shared := s
        stage := Function.update c.stage (i, c.round i) (some y)
        queue := queue
        loop := loop }
      { shared := t
        worker := Function.update a.worker (.inl i)
          (some (left h o y >>= fun r => (k r).interp link)) } := by
  have hown : c.owner A (i, c.round i) = .inl i := if_pos ⟨rfl, hA⟩
  have hinl : ∀ {j}, j ≠ i → (Sum.inl j : ι ⊕ Ticket ι) ≠ .inl i := fun hj h => hj (Sum.inl.inj h)
  have hphase := phase_update (c := c) (A := A) (i, c.round i) (some y) s queue loop
  rw [hown] at hphase
  constructor
  · rw [hphase]
    exact hrel
  · intro j hj
    have hji : j ≠ i := by
      rintro rfl
      rw [hi] at hj
      cases hj
    simp only [Function.update_of_ne (hinl hji)]
    exact hM.idle j hj
  · intro j p hj
    have hji : j ≠ i := by
      rintro rfl
      rw [hi] at hj
      cases hj
    simp only [Function.update_of_ne (hinl hji)]
    exact hM.works j p hj
  · intro j o' k' hj
    by_cases hji : j = i
    · subst hji
      rw [hi] at hj
      cases hj
      simp only [Function.update_self, Office.pending, if_neg hA]
      cases y with
      | sent | queued => exact absurd trivial hy
      | taken => rfl
      | answered reply =>
        cases reply with
        | none => exact absurd trivial hy
        | some r => rfl
    · have hne : (j, c.round j) ≠ (i, c.round i) := fun h => hji (congrArg Prod.fst h)
      simp only [Function.update_of_ne (hinl hji), Office.pending, Function.update_of_ne hne]
      exact hM.waits j o' k' hj
  · intro x hx
    rw [hphase] at hx
    simp only [Function.update_of_ne (by nofun : (Sum.inr x : ι ⊕ Ticket ι) ≠ Sum.inl i)]
    by_cases hxi : x = (i, c.round i)
    · subst hxi
      rw [Function.update_self] at hx
      exact absurd hx (phase_ne_unused hy _)
    · rw [Function.update_of_ne hxi] at hx
      exact hM.unused x hx
  · intro x n q hx hox
    simp only [Function.update_of_ne (by nofun : (Sum.inr x : ι ⊕ Ticket ι) ≠ Sum.inl i)]
    have hxi : x ≠ (i, c.round i) := by
      rintro rfl
      change c.owner A _ = _ at hox
      rw [hown] at hox
      cases hox
    simp only [Function.update_of_ne hxi] at hx
    exact hM.serving x n q hx hox

omit [DecidableEq Node] in
/-- A request that was given up is carried out further. -/
theorem alone (hM : Matches h B wrap A c a) {x : Ticket ι} (hown : c.owner A x = .inr x) (n : Node)
    (q : Prog Op Resp Reply) {s : σ} {t : τ}
    (hrel : B.rel (Function.update (c.phase A) x (.active (.inr x))) s t)
    (queue : Node → List (Ticket ι)) (loop : Node → Loop ι) :
    Matches h B wrap A
      { c with
        shared := s
        stage := Function.update c.stage x (some (.taken n q))
        queue := queue
        loop := loop }
      { shared := t
        worker := Function.update a.worker (.inr x) (some (wrap <$> q)) } := by
  have hinr : ∀ j, (Sum.inl j : ι ⊕ Ticket ι) ≠ .inr x := fun _ => nofun
  have hphase := phase_update (c := c) (A := A) x (some (.taken n q)) s queue loop
  rw [hown] at hphase
  constructor
  · rw [hphase]
    exact hrel
  · intro j hj
    simp only [Function.update_of_ne (hinr j)]
    exact hM.idle j hj
  · intro j p hj
    simp only [Function.update_of_ne (hinr j)]
    exact hM.works j p hj
  · intro j o k hj
    simp only [Function.update_of_ne (hinr j)]
    rw [hM.waits j o k hj]
    -- a request that is carried out on its own is no business of its caller
    by_cases hjx : (j, c.round j) = x
    · subst hjx
      have hmem : (j, c.round j) ∈ A := by
        by_contra hnot
        rw [Office.owner, if_pos ⟨rfl, hnot⟩] at hown
        cases hown
      simp only [Office.pending, if_pos hmem]
    · simp only [Office.pending, Function.update_of_ne hjx]
  · intro x' hx'
    rw [hphase] at hx'
    by_cases hxx : x' = x
    · subst hxx
      rw [Function.update_self] at hx'
      cases hx'
    · rw [Function.update_of_ne hxx] at hx'
      simp only [Function.update_of_ne (fun h => hxx (Sum.inr.inj h) : Sum.inr x' ≠ Sum.inr x)]
      exact hM.unused x' hx'
  · intro x' n' q' hx' hox
    by_cases hxx : x' = x
    · subst hxx
      simp only [Function.update_self] at hx' ⊢
      cases hx'
      rfl
    · simp only [Function.update_of_ne hxx] at hx'
      simp only [Function.update_of_ne (fun h => hxx (Sum.inr.inj h) : Sum.inr x' ≠ Sum.inr x)]
      exact hM.serving x' n' q' hx' hox

omit [DecidableEq Node] in
/-- A request is answered. -/
theorem finish (hM : Matches h B wrap A c a) {x : Ticket ι} {n : Node} {reply : Reply}
    (hx : c.stage x = some (.taken n (.pure reply))) (queue : Node → List (Ticket ι))
    (loop : Node → Loop ι) :
    Matches h B wrap A
      { c with
        stage := Function.update c.stage x (some (.answered (some reply)))
        queue := queue
        loop := loop } a := by
  have hphase := phase_update (c := c) (A := A) x (some (.answered (some reply))) c.shared queue loop
  constructor
  · rw [hphase]
    exact B.done hM.rel
  · exact hM.idle
  · exact hM.works
  · intro j o k hj
    rw [hM.waits j o k hj]
    by_cases hjx : (j, c.round j) = x
    · subst hjx
      simp only [Office.pending, Function.update_self, hx]
      rfl
    · simp only [Office.pending, Function.update_of_ne hjx]
  · intro x' hx'
    rw [hphase] at hx'
    by_cases hxx : x' = x
    · subst hxx
      rw [Function.update_self] at hx'
      cases hx'
    · rw [Function.update_of_ne hxx] at hx'
      exact hM.unused x' hx'
  · intro x' n' q' hx' hox
    by_cases hxx : x' = x
    · subst hxx
      simp only [Function.update_self] at hx'
      cases hx'
    · simp only [Function.update_of_ne hxx] at hx'
      exact hM.serving x' n' q' hx' hox

end Matches

/-! ### The simulation -/

section simulation
variable {prog' : ι ⊕ Ticket ι → Job' → Prog Op Resp Out} {w : ι ⊕ Ticket ι} {t : τ}

/-- A worker makes a call. -/
theorem Crew.steps_call {o : Op} {k : Resp o → Prog Op Resp Out} {r : Resp o}
    (hw : a.worker w = some (.call o k)) (hcall : site'.call w a.shared o r t) :
    (crew site' prog').Steps a
      { shared := t, worker := Function.update a.worker w (some (k r)) } :=
  .single ⟨.call w o, k, r, t, hw, hcall, rfl⟩

/-- A worker makes a call that changes nothing. -/
theorem Crew.steps_skip {α : Type w} {p q : Prog Op Resp α} {f : α → Prog Op Resp Out}
    (hw : a.worker w = some (p >>= f)) (hskip : Skips site' p q) :
    (crew site' prog').Steps a
      { shared := a.shared, worker := Function.update a.worker w (some (q >>= f)) } := by
  obtain ⟨o, k, r, rfl, rfl, hcall⟩ := hskip
  exact .single ⟨.call w o, fun r => k r >>= f, r, a.shared, hw, hcall w a.shared, rfl⟩

variable (h : Inlines post site' link) (B : Bridge site site' job errand P)
  (hprog : ∀ j, (prog j).Uses Prog.AnyAnswer P)
  (hjob : ∀ i j, prog' (.inl i) (job j) = (prog j).interp link)
  (herrand : ∀ x n msg, prog' (.inr x) (errand n msg) = wrap <$> post.serve n msg)
include hjob herrand

/-- One step. A request that is given up was left to a worker of its own, one
    that is answered was not. -/
theorem MailInv.matched (hinv : MailInv post P c) {m : MailMove ι Env Op Job Node}
    (hm : (mail post site prog).step c m c') (A' : Finset (Ticket ι)) :
    ∃ A, ∀ a, Matches h B wrap A c a →
      ∃ a', (crew site' prog').Steps a a' ∧ Matches h B wrap A' c' a' := by
  obtain ⟨hr, hb, he⟩ := hinv
  -- nothing is carried out in the name of a caller that does not wait
  have hnone : ∀ {A i}, (∀ o k, c.desk i ≠ .waits o k) → ∀ x, c.phase A x ≠ .active (.inl i) := by
    intro A i hi x hx
    obtain ⟨⟨n, q, hq⟩, hown⟩ := Office.phase_active hx
    rw [(Office.of_owner_inl hown.symm).1, hr.unsent hi] at hq
    cases hq
  cases m with
  | env e =>
    obtain ⟨s', hs, rfl⟩ := hm
    refine ⟨A', fun a hM => ?_⟩
    obtain ⟨e', t', hs', hrel⟩ := B.env hM.rel hs
    exact ⟨_, .single ⟨.env e', t', hs', rfl⟩,
      ⟨hrel, hM.idle, hM.works, hM.waits, hM.unused, hM.serving⟩⟩
  | start i j =>
    obtain ⟨s', hi, hs, rfl⟩ := hm
    refine ⟨A', fun a hM => ?_⟩
    obtain ⟨t', hs', hrel⟩ := B.start hM.rel hs
    have hfree : Free (a.worker (.inl i)) := by
      rcases hi with hi | ⟨out, hi⟩
      · exact .inl (hM.idle i hi)
      · exact .inr ⟨out, hM.works i _ hi⟩
    refine ⟨_, .single ⟨.start (.inl i) (job j), t', hfree, hs', rfl⟩, ?_⟩
    rw [hjob]
    exact hM.turn_here i (prog j) hrel
  | call i o =>
    obtain ⟨k, r, s', hi, hhere, hs, rfl⟩ := hm
    refine ⟨A', fun a hM => ?_⟩
    have hquiet := hnone (A := A') fun o k hw => by rw [hi] at hw; cases hw
    obtain ⟨t', hs', hrel⟩ := B.call hM.rel hquiet (he.works i _ hi).1 hs
    have hw := hM.works i _ hi
    rw [Prog.interp_call, h.here hhere] at hw
    exact ⟨_, Crew.steps_call hw hs', hM.turn_here i (k r) hrel⟩
  | send i =>
    obtain ⟨o, k, n, packet, hi, _, _, rfl⟩ := hm
    refine ⟨A', fun a hM => ⟨a, .refl, hM.send hi (hr.unsent ?_) n packet⟩⟩
    intro o k hw
    rw [hi] at hw
    cases hw
  | post x =>
    obtain ⟨n, packet, msg, hx, _, _, rfl⟩ := hm
    refine ⟨A', fun a hM => ⟨a, .refl, hM.rests ?_ _ _⟩⟩
    intro x'
    by_cases hxx : x' = x
    · subst hxx
      rw [hx, Function.update_self]
      exact .inr ⟨trivial, trivial⟩
    · exact .inl (Function.update_of_ne hxx _ _)
  | refuse x =>
    obtain ⟨n, packet, hx, _, rfl⟩ := hm
    refine ⟨A', fun a hM => ⟨a, .refl, hM.rests ?_ _ _⟩⟩
    intro x'
    by_cases hxx : x' = x
    · subst hxx
      rw [hx, Function.update_self]
      exact .inr ⟨trivial, trivial⟩
    · exact .inl (Function.update_of_ne hxx _ _)
  | take n =>
    obtain ⟨x, rest, msg, _, _, hx, rfl⟩ := hm
    refine ⟨A', fun a hM => ?_⟩
    have hrests : Stage.Rests (c.stage x) := by
      rw [hx]
      trivial
    have hunused : c.phase A' x = .unused := hrests.phase _
    by_cases hown : x.2 = c.round x.1 ∧ x ∉ A'
    · -- the caller still waits, so the request is carried out in its name
      obtain ⟨i, rfl⟩ : ∃ i, x = (i, c.round i) := ⟨x.1, Prod.ext rfl hown.1⟩
      have hA := hown.2
      obtain ⟨o, k, hi⟩ := hr.current i (by rw [hx]; nofun)
      obtain ⟨hsend, y, hy, habout⟩ := hr.waiting i o k hi
      rw [hx] at hy
      cases hy
      obtain ⟨packet, hsends, hread⟩ := habout
      have hw := hM.waits i o k hi
      rw [Office.pending_of_rests h o hrests] at hw
      have hquiet : ∀ y, c.phase A' y ≠ .active (.inl i) := by
        intro y hy
        obtain ⟨⟨n', q', hq'⟩, hown'⟩ := Office.phase_active hy
        rw [(Office.of_owner_inl hown'.symm).1, hx] at hq'
        cases hq'
      have hrel := B.attend hM.rel hunused hquiet
      exact ⟨_, Crew.steps_skip hw (h.arrives hsends hsend hread),
        hM.attended hi hA (y := .taken n (post.serve n msg)) (fun h => h) hrel _ _⟩
    · have hown' : c.owner A' x = .inr x := if_neg hown
      obtain ⟨t', hs', hrel⟩ := B.serve n msg hM.rel hunused
      have hfree : Free (a.worker (.inr x)) := .inl (hM.unused x hunused)
      refine ⟨_, .single ⟨.start (.inr x) (errand n msg), t', hfree, hs', rfl⟩, ?_⟩
      rw [herrand]
      exact hM.alone hown' n (post.serve n msg) hrel _ _
  | work n o =>
    obtain ⟨x, k, r, s', _, hx, hs, rfl⟩ := hm
    refine ⟨A', fun a hM => ?_⟩
    have hactive : c.phase A' x = .active (c.owner A' x) := by
      rw [Office.phase, hx]
      rfl
    have hinj : ∀ y, c.phase A' y = .active (c.owner A' x) → y = x := fun y hy =>
      (Office.owner_inj (Office.phase_active hy).2).symm
    have hname : ∀ i, c.owner A' x = .inl i → i = x.1 := fun i hi =>
      (congrArg Prod.fst (Office.of_owner_inl hi).1).symm
    obtain ⟨t', hs', hrel⟩ := B.work hM.rel hactive hinj hname hs
    have hsame : Function.update (c.phase A') x (.active (c.owner A' x)) = c.phase A' := by
      rw [← hactive, Function.update_eq_self]
    by_cases hown : x.2 = c.round x.1 ∧ x ∉ A'
    · obtain ⟨i, rfl⟩ : ∃ i, x = (i, c.round i) := ⟨x.1, Prod.ext rfl hown.1⟩
      have hA := hown.2
      have hown' : c.owner A' (i, c.round i) = .inl i := if_pos ⟨rfl, hA⟩
      obtain ⟨o', k', hi⟩ := hr.current i (by rw [hx]; nofun)
      have hw := hM.waits i o' k' hi
      simp only [Office.pending, if_neg hA, hx] at hw
      rw [hown'] at hs' hsame
      refine ⟨_, Crew.steps_call hw hs', ?_⟩
      exact hM.attended hi hA (y := .taken n (k r)) (fun h => h) (hsame.symm ▸ hrel) _ _
    · have hown' : c.owner A' x = .inr x := if_neg hown
      have hw := hM.serving x n _ hx hown'
      rw [hown'] at hs' hsame
      exact ⟨_, Crew.steps_call hw hs', hM.alone hown' n (k r) (hsame.symm ▸ hrel) _ _⟩
  | reply n =>
    obtain ⟨x, reply, _, hx, _, rfl⟩ := hm
    exact ⟨A', fun a hM => ⟨a, .refl, hM.finish hx _ _⟩⟩
  | stop n =>
    obtain ⟨_, rfl⟩ := hm
    refine ⟨A', fun a hM => ⟨a, .refl, hM.rests ?_ _ _⟩⟩
    intro x
    by_cases hmem : x ∈ c.queue n
    · refine .inr ⟨?_, by simp only [hmem, if_true]; trivial⟩
      have hbox := (hb.queued n x).mp hmem
      cases hx : c.stage x with
      | none => trivial
      | some y =>
        rw [hx] at hbox
        cases y with
        | queued => trivial
        | sent | taken | answered => cases hbox
    · exact .inl (if_neg hmem)
  | receive i =>
    obtain ⟨o, k, x, r, hi, hx, hrec, rfl⟩ := hm
    -- the request was not given up
    refine ⟨A'.erase (i, c.round i), fun a hM => ?_⟩
    have hA : (i, c.round i) ∉ A'.erase (i, c.round i) := Finset.notMem_erase _ _
    have hw := hM.waits i o k hi
    obtain ⟨_, y, hy, habout⟩ := hr.waiting i o k hi
    rw [hx] at hy
    cases hy
    have hskip : Skips site' (c.pending h (A'.erase (i, c.round i)) i o) (.pure r) := by
      simp only [Office.pending, if_neg hA, hx]
      cases x with
      | none =>
        obtain ⟨y, hsends⟩ := habout
        exact h.refused hsends hrec
      | some reply =>
        obtain ⟨⟨y, hsends⟩, hret⟩ := habout
        exact h.returns hsends hret hrec
    refine ⟨_, Crew.steps_skip hw hskip, hM.turn_after hr i (k r) ?_ ?_⟩
    · intro y hy
      simp [Finset.mem_erase, hy]
    · intro n q hq
      rw [hx] at hq
      cases hq
  | lose i =>
    obtain ⟨o, k, r, hi, hlose, rfl⟩ := hm
    refine ⟨insert (i, c.round i) A', fun a hM => ?_⟩
    have hA : (i, c.round i) ∈ insert (i, c.round i) A' := Finset.mem_insert_self _ _
    have hw := hM.waits i o k hi
    obtain ⟨n, packet, hsends, _⟩ := MailInv.located ⟨hr, hb, he⟩ hi
    have hskip : Skips site' (c.pending h (insert (i, c.round i) A') i o) (.pure r) := by
      simp only [Office.pending, if_pos hA]
      exact h.lost hsends hlose
    refine ⟨_, Crew.steps_skip hw hskip, hM.turn_after hr i (k r) ?_ fun _ _ _ => hA⟩
    intro y hy
    simp [Finset.mem_insert, hy]

include hprog

/-- **Simulation**: some steps of `mail` are matched by steps of the callers with
    the nodes inlined. -/
theorem mail_inlined (hc : (mail post site prog).Reachable c)
    (hsteps : (mail post site prog).Steps c c') (A' : Finset (Ticket ι)) :
    ∃ A, ∀ a, Matches h B wrap A c a →
      ∃ a', (crew site' prog').Steps a a' ∧ Matches h B wrap A' c' a' := by
  induction hsteps generalizing A' with
  | refl => exact ⟨A', fun a hM => ⟨a, .refl, hM⟩⟩
  | tail hbefore hstep ih =>
    obtain ⟨m, hm⟩ := hstep
    have hinv := mail_inv hprog (System.Steps.reachable hbefore hc)
    obtain ⟨A₁, h₁⟩ := hinv.matched h B hjob herrand hm A'
    obtain ⟨A, h₀⟩ := ih A₁
    refine ⟨A, fun a hM => ?_⟩
    obtain ⟨a₁, hsteps₁, hM₁⟩ := h₀ a hM
    obtain ⟨a', hsteps', hM'⟩ := h₁ a₁ hM₁
    exact ⟨a', hsteps₁.trans hsteps', hM'⟩

/-- Every state that is reached is matched, whatever will be given up. -/
theorem mail_matched (hc : (mail post site prog).Reachable c) (A : Finset (Ticket ι)) :
    ∃ a, (crew site' prog').Reachable a ∧ Matches h B wrap A c a := by
  induction hc generalizing A with
  | @init c hinit =>
    obtain ⟨hs, hdesk, hstage, _, _⟩ := hinit
    obtain ⟨t, ht, hrel⟩ := B.init hs
    have hphase : c.phase A = fun _ => .unused := by
      funext x
      rw [Office.phase, hstage]
      rfl
    refine ⟨⟨t, fun _ => none⟩, .init ⟨ht, fun _ => rfl⟩, ⟨?_, ?_, ?_, ?_, ?_, ?_⟩⟩
    · rw [hphase]
      exact hrel
    · exact fun _ _ => rfl
    · intro i p hp
      rw [hdesk] at hp
      cases hp
    · intro i o k hk
      rw [hdesk] at hk
      cases hk
    · exact fun _ _ => rfl
    · intro x n q hx
      rw [hstage] at hx
      cases hx
  | step m hc hm ih =>
    obtain ⟨A₀, h₀⟩ := (mail_inv hprog hc).matched h B hjob herrand hm A
    obtain ⟨a, ha, hM⟩ := ih A₀
    obtain ⟨a', hsteps, hM'⟩ := h₀ a hM
    exact ⟨a', System.Steps.reachable hsteps ha, hM'⟩

end simulation

end matching

end LTS
