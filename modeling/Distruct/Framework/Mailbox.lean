import Distruct.Framework.Workers

/-! # Callers and Mailboxes

    Callers that run programs of their own, and nodes that carry out some of
    their calls for them. A call that is sent away travels as a packet. The node
    reads it, puts the message into its mailbox, and a loop takes the messages
    out one after the other, runs what they ask for, and has the reply sent back.
    The loop can be stopped between two messages; what is in the mailbox then is
    not answered any more.

    The caller waits for what comes back, but it may also give up, at any time
    and whatever has become of its request.

    * `Post`: which calls are sent away, and what becomes of them.
    * `Office`: the callers, the requests on their way, the mailboxes, the loops.
    * `mail`: the transition system.
    * `Rounds`, `Boxes`: what a run keeps about the requests and the mailboxes.
    * `Boxes.in_order`: a mailbox is a queue.
-/

universe w

namespace LTS

/-- How calls are sent away. -/
structure Post (Op : Type*) (Resp : Op → Type w) (Node Packet Msg : Type*) (Reply : Type w) where
  /-- Where a call goes and what is sent, unless the caller makes it itself. -/
  sends : Op → Option (Node × Packet)
  /-- What a node reads from a packet. -/
  reads : Packet → Option Msg
  serve : Node → Msg → Prog Op Resp Reply
  writes : Reply → Packet
  /-- What comes back when there is no reply. -/
  empty : Packet
  /-- What the caller makes of what comes back. -/
  receives : (o : Op) → Packet → Resp o → Prop
  /-- What the caller is told when nothing comes back. -/
  loses : (o : Op) → Resp o → Prop
  /-- The calls and the replies that can be written. -/
  sendable : Op → Prop
  returnable : Reply → Prop

/-- The requests of a caller are numbered. -/
abbrev Ticket (ι : Type*) := ι × Nat

/-- How far a request has come. -/
inductive Stage (Op : Type*) (Resp : Op → Type w) (Node Packet Msg : Type*) (Reply : Type w) where
  | sent (n : Node) (packet : Packet)
  | queued (n : Node) (msg : Msg)
  | taken (n : Node) (left : Prog Op Resp Reply)
  | answered (reply : Option Reply)

inductive Desk (Op : Type*) (Resp : Op → Type w) (Out : Type w) where
  /-- Before the first job. -/
  | idle
  | works (left : Prog Op Resp Out)
  | waits (o : Op) (k : Resp o → Prog Op Resp Out)

/-- A caller without a job, or with one that has returned. -/
def Desk.Free {Op : Type*} {Resp : Op → Type w} {Out : Type w} (d : Desk Op Resp Out) : Prop :=
  d = .idle ∨ ∃ a, d = .works (.pure a)

inductive Loop (ι : Type*) where
  | ready
  | serving (t : Ticket ι)
  | stopped

structure Office (ι σ Op : Type*) (Resp : Op → Type w) (Node Packet Msg : Type*)
    (Reply Out : Type w) where
  shared : σ
  desk : ι → Desk Op Resp Out
  /-- The number of the request that a caller waits for, or sends next. -/
  round : ι → Nat
  stage : Ticket ι → Option (Stage Op Resp Node Packet Msg Reply)
  queue : Node → List (Ticket ι)
  loop : Node → Loop ι

inductive MailMove (ι Env Op Job Node : Type*) where
  | env (e : Env)
  | start (i : ι) (j : Job)
  /-- Caller `i` makes a call itself, or sends one away. -/
  | call (i : ι) (o : Op)
  | send (i : ι)
  /-- A request arrives: it is put into the mailbox, or turned away. -/
  | post (t : Ticket ι)
  | refuse (t : Ticket ι)
  /-- The loop of node `n`. -/
  | take (n : Node)
  | work (n : Node) (o : Op)
  | reply (n : Node)
  | stop (n : Node)
  /-- Caller `i` goes on, with what came back or without. -/
  | receive (i : ι)
  | lose (i : ι)

variable {ι σ Env Op Job Node Packet Msg : Type*} {Resp : Op → Type w} {Reply Out : Type w}
  [DecidableEq ι] [DecidableEq Node]

/-- The callers run `prog`. A call that is made for a request is made in the name
    of its ticket. -/
def mail (post : Post Op Resp Node Packet Msg Reply) (site : Site (ι ⊕ Ticket ι) σ Env Op Job Resp)
    (prog : Job → Prog Op Resp Out) :
    System (Office ι σ Op Resp Node Packet Msg Reply Out) (MailMove ι Env Op Job Node) where
  init := fun c => site.init c.shared ∧ (∀ i, c.desk i = .idle) ∧ (∀ t, c.stage t = none) ∧
    (∀ n, c.queue n = []) ∧ ∀ n, c.loop n = .ready
  step := fun c m c' =>
    match m with
    | .env e => ∃ s', site.env c.shared e s' ∧ c' = { c with shared := s' }
    | .start i j =>
        ∃ s', (c.desk i).Free ∧ site.start (.inl i) c.shared j s' ∧
          c' = { c with shared := s', desk := Function.update c.desk i (.works (prog j)) }
    | .call i o =>
        ∃ k r s', c.desk i = .works (.call o k) ∧ post.sends o = none ∧
          site.call (.inl i) c.shared o r s' ∧
          c' = { c with shared := s', desk := Function.update c.desk i (.works (k r)) }
    | .send i =>
        ∃ o k n packet, c.desk i = .works (.call o k) ∧ post.sends o = some (n, packet) ∧
          post.sendable o ∧
          c' = { c with
            desk := Function.update c.desk i (.waits o k)
            stage := Function.update c.stage (i, c.round i) (some (.sent n packet)) }
    | .post t =>
        ∃ n packet msg, c.stage t = some (.sent n packet) ∧ c.loop n ≠ .stopped ∧
          post.reads packet = some msg ∧
          c' = { c with
            stage := Function.update c.stage t (some (.queued n msg))
            queue := Function.update c.queue n (c.queue n ++ [t]) }
    | .refuse t =>
        ∃ n packet, c.stage t = some (.sent n packet) ∧
          (c.loop n = .stopped ∨ post.reads packet = none) ∧
          c' = { c with stage := Function.update c.stage t (some (.answered none)) }
    | .take n =>
        ∃ t rest msg, c.loop n = .ready ∧ c.queue n = t :: rest ∧
          c.stage t = some (.queued n msg) ∧
          c' = { c with
            loop := Function.update c.loop n (.serving t)
            queue := Function.update c.queue n rest
            stage := Function.update c.stage t (some (.taken n (post.serve n msg))) }
    | .work n o =>
        ∃ t k r s', c.loop n = .serving t ∧ c.stage t = some (.taken n (.call o k)) ∧
          site.call (.inr t) c.shared o r s' ∧
          c' = { c with
            shared := s'
            stage := Function.update c.stage t (some (.taken n (k r))) }
    | .reply n =>
        ∃ t reply, c.loop n = .serving t ∧ c.stage t = some (.taken n (.pure reply)) ∧
          post.returnable reply ∧
          c' = { c with
            loop := Function.update c.loop n .ready
            stage := Function.update c.stage t (some (.answered (some reply))) }
    | .stop n =>
        c.loop n = .ready ∧
          c' = { c with
            loop := Function.update c.loop n .stopped
            queue := Function.update c.queue n []
            stage := fun t => if t ∈ c.queue n then some (.answered none) else c.stage t }
    | .receive i =>
        ∃ o k x r, c.desk i = .waits o k ∧ c.stage (i, c.round i) = some (.answered x) ∧
          post.receives o ((x.map post.writes).getD post.empty) r ∧
          c' = { c with
            desk := Function.update c.desk i (.works (k r))
            round := Function.update c.round i (c.round i + 1) }
    | .lose i =>
        ∃ o k r, c.desk i = .waits o k ∧ post.loses o r ∧
          c' = { c with
            desk := Function.update c.desk i (.works (k r))
            round := Function.update c.round i (c.round i + 1) }

section runs
variable {post : Post Op Resp Node Packet Msg Reply} {site : Site (ι ⊕ Ticket ι) σ Env Op Job Resp}
  {prog : Job → Prog Op Resp Out} {c : Office ι σ Op Resp Node Packet Msg Reply Out} {s' : σ}
  (hc : (mail post site prog).Reachable c)
include hc

theorem Office.env (e : Env) (hs : site.env c.shared e s') :
    (mail post site prog).Reachable { c with shared := s' } :=
  .step (.env e) hc ⟨s', hs, rfl⟩

theorem Office.start (i : ι) (j : Job) (hi : (c.desk i).Free)
    (hs : site.start (.inl i) c.shared j s') :
    (mail post site prog).Reachable
      { c with shared := s', desk := Function.update c.desk i (.works (prog j)) } :=
  .step (.start i j) hc ⟨s', hi, hs, rfl⟩

theorem Office.call (i : ι) {o : Op} {k : Resp o → Prog Op Resp Out} (r : Resp o)
    (hi : c.desk i = .works (.call o k)) (ho : post.sends o = none)
    (hs : site.call (.inl i) c.shared o r s') :
    (mail post site prog).Reachable
      { c with shared := s', desk := Function.update c.desk i (.works (k r)) } :=
  .step (.call i o) hc ⟨k, r, s', hi, ho, hs, rfl⟩

theorem Office.send (i : ι) {o : Op} {k : Resp o → Prog Op Resp Out} {n : Node} {packet : Packet}
    (hi : c.desk i = .works (.call o k)) (ho : post.sends o = some (n, packet))
    (hsend : post.sendable o) :
    (mail post site prog).Reachable
      { c with
        desk := Function.update c.desk i (.waits o k)
        stage := Function.update c.stage (i, c.round i) (some (.sent n packet)) } :=
  .step (.send i) hc ⟨o, k, n, packet, hi, ho, hsend, rfl⟩

theorem Office.arrive (t : Ticket ι) {n : Node} {packet : Packet} {msg : Msg}
    (ht : c.stage t = some (.sent n packet)) (hn : c.loop n ≠ .stopped)
    (hread : post.reads packet = some msg) :
    (mail post site prog).Reachable
      { c with
        stage := Function.update c.stage t (some (.queued n msg))
        queue := Function.update c.queue n (c.queue n ++ [t]) } :=
  .step (.post t) hc ⟨n, packet, msg, ht, hn, hread, rfl⟩

theorem Office.take (n : Node) {t : Ticket ι} {rest : List (Ticket ι)} {msg : Msg}
    (hn : c.loop n = .ready) (hqueue : c.queue n = t :: rest)
    (ht : c.stage t = some (.queued n msg)) :
    (mail post site prog).Reachable
      { c with
        loop := Function.update c.loop n (.serving t)
        queue := Function.update c.queue n rest
        stage := Function.update c.stage t (some (.taken n (post.serve n msg))) } :=
  .step (.take n) hc ⟨t, rest, msg, hn, hqueue, ht, rfl⟩

theorem Office.work (n : Node) {t : Ticket ι} {o : Op} {k : Resp o → Prog Op Resp Reply}
    (r : Resp o) (hn : c.loop n = .serving t) (ht : c.stage t = some (.taken n (.call o k)))
    (hs : site.call (.inr t) c.shared o r s') :
    (mail post site prog).Reachable
      { c with shared := s', stage := Function.update c.stage t (some (.taken n (k r))) } :=
  .step (.work n o) hc ⟨t, k, r, s', hn, ht, hs, rfl⟩

theorem Office.reply (n : Node) {t : Ticket ι} {reply : Reply} (hn : c.loop n = .serving t)
    (ht : c.stage t = some (.taken n (.pure reply))) (hret : post.returnable reply) :
    (mail post site prog).Reachable
      { c with
        loop := Function.update c.loop n .ready
        stage := Function.update c.stage t (some (.answered (some reply))) } :=
  .step (.reply n) hc ⟨t, reply, hn, ht, hret, rfl⟩

theorem Office.receive (i : ι) {o : Op} {k : Resp o → Prog Op Resp Out} {x : Option Reply}
    (r : Resp o) (hi : c.desk i = .waits o k) (hx : c.stage (i, c.round i) = some (.answered x))
    (hr : post.receives o ((x.map post.writes).getD post.empty) r) :
    (mail post site prog).Reachable
      { c with
        desk := Function.update c.desk i (.works (k r))
        round := Function.update c.round i (c.round i + 1) } :=
  .step (.receive i) hc ⟨o, k, x, r, hi, hx, hr, rfl⟩

end runs

/-! ### Requests -/

/-- `post.About o x`: a request at stage `x` can be that for the call `o`. -/
def Post.About (post : Post Op Resp Node Packet Msg Reply) (o : Op) :
    Stage Op Resp Node Packet Msg Reply → Prop
  | .sent n packet => post.sends o = some (n, packet)
  | .queued n msg => ∃ packet, post.sends o = some (n, packet) ∧ post.reads packet = some msg
  | .taken n _ => ∃ packet, post.sends o = some (n, packet)
  | .answered (some reply) => (∃ x, post.sends o = some x) ∧ post.returnable reply
  | .answered none => ∃ x, post.sends o = some x

/-- A caller waits for its latest request, and for that one only; it has sent
    none with a higher number. -/
structure Rounds (post : Post Op Resp Node Packet Msg Reply)
    (c : Office ι σ Op Resp Node Packet Msg Reply Out) : Prop where
  later : ∀ i m, c.round i < m → c.stage (i, m) = none
  current : ∀ i, c.stage (i, c.round i) ≠ none → ∃ o k, c.desk i = .waits o k
  waiting : ∀ i o k, c.desk i = .waits o k →
    post.sendable o ∧ ∃ x, c.stage (i, c.round i) = some x ∧ post.About o x

variable {post : Post Op Resp Node Packet Msg Reply} {site : Site (ι ⊕ Ticket ι) σ Env Op Job Resp}
  {prog : Job → Prog Op Resp Out} {c c' : Office ι σ Op Resp Node Packet Msg Reply Out}

namespace Rounds

omit [DecidableEq ι] [DecidableEq Node] in
/-- A caller that is at work has nothing on its way. -/
theorem unsent (h : Rounds post c) {i : ι} (hi : ∀ o k, c.desk i ≠ .waits o k) :
    c.stage (i, c.round i) = none := by
  by_contra hne
  obtain ⟨o, k, hw⟩ := h.current i hne
  exact hi o k hw

omit [DecidableEq Node] in
/-- A caller goes from one piece of work to the next. -/
theorem works (h : Rounds post c) {i : ι} (hi : ∀ o k, c.desk i ≠ .waits o k)
    (p : Prog Op Resp Out) (s : σ) :
    Rounds post { c with shared := s, desk := Function.update c.desk i (.works p) } where
  later := h.later
  current := by
    intro j hj
    by_cases hji : j = i
    · subst hji
      exact absurd (h.unsent hi) hj
    · simp only [Function.update_of_ne hji]
      exact h.current j hj
  waiting := by
    intro j o k hj
    by_cases hji : j = i
    · subst hji
      simp only [Function.update_self] at hj
      cases hj
    · simp only [Function.update_of_ne hji] at hj
      exact h.waiting j o k hj

omit [DecidableEq ι] [DecidableEq Node] in
/-- Requests move on, while the callers do nothing. -/
theorem advance (h : Rounds post c) {s : σ} {queue : Node → List (Ticket ι)} {loop : Node → Loop ι}
    {stage : Ticket ι → Option (Stage Op Resp Node Packet Msg Reply)}
    (hnone : ∀ t, c.stage t = none → stage t = none)
    (hsome : ∀ t x, c.stage t = some x → ∃ y, stage t = some y ∧ ∀ o, post.About o x → post.About o y) :
    Rounds post { c with shared := s, stage := stage, queue := queue, loop := loop } where
  later := fun i m hm => hnone _ (h.later i m hm)
  current := by
    intro i hi
    refine h.current i ?_
    intro hstage
    exact hi (hnone _ hstage)
  waiting := by
    intro i o k hi
    obtain ⟨hsend, x, hx, habout⟩ := h.waiting i o k hi
    obtain ⟨y, hy, hxy⟩ := hsome _ x hx
    exact ⟨hsend, y, hy, hxy o habout⟩

omit [DecidableEq Node] in
/-- One request moves on. -/
theorem advance_one (h : Rounds post c) {s : σ} {queue : Node → List (Ticket ι)}
    {loop : Node → Loop ι} {t : Ticket ι} {x y : Stage Op Resp Node Packet Msg Reply}
    (ht : c.stage t = some x) (hxy : ∀ o, post.About o x → post.About o y) :
    Rounds post { c with
      shared := s, stage := Function.update c.stage t (some y), queue := queue, loop := loop } := by
  refine h.advance ?_ ?_
  · intro t' hnone
    have hne : t' ≠ t := by
      rintro rfl
      rw [ht] at hnone
      cases hnone
    rw [Function.update_of_ne hne]
    exact hnone
  · intro t' x' hx'
    by_cases heq : t' = t
    · subst heq
      rw [ht] at hx'
      cases hx'
      exact ⟨y, Function.update_self _ _ _, hxy⟩
    · exact ⟨x', by rw [Function.update_of_ne heq]; exact hx', fun _ ho => ho⟩

omit [DecidableEq Node] in
/-- A caller goes on after a request. -/
theorem next (h : Rounds post c) (i : ι) (p : Prog Op Resp Out) :
    Rounds post { c with
      desk := Function.update c.desk i (.works p)
      round := Function.update c.round i (c.round i + 1) } where
  later := by
    intro j m hm
    by_cases hji : j = i
    · subst hji
      simp only [Function.update_self] at hm
      exact h.later j m (by omega)
    · simp only [Function.update_of_ne hji] at hm
      exact h.later j m hm
  current := by
    intro j hj
    by_cases hji : j = i
    · subst hji
      simp only [Function.update_self] at hj
      exact absurd (h.later j _ (Nat.lt_succ_self _)) hj
    · simp only [Function.update_of_ne hji] at hj ⊢
      exact h.current j hj
  waiting := by
    intro j o k hj
    by_cases hji : j = i
    · subst hji
      simp only [Function.update_self] at hj
      cases hj
    · simp only [Function.update_of_ne hji] at hj ⊢
      exact h.waiting j o k hj

omit [DecidableEq Node] in
theorem send (h : Rounds post c) {i : ι} {o : Op} {k : Resp o → Prog Op Resp Out} {n : Node}
    {packet : Packet} (hsends : post.sends o = some (n, packet)) (hsend : post.sendable o) :
    Rounds post { c with
      desk := Function.update c.desk i (.waits o k)
      stage := Function.update c.stage (i, c.round i) (some (.sent n packet)) } where
  later := by
    intro j m hm
    have hne : (j, m) ≠ (i, c.round i) := by
      intro heq
      cases heq
      exact Nat.lt_irrefl _ hm
    simp only [Function.update_of_ne hne]
    exact h.later j m hm
  current := by
    intro j hj
    by_cases hji : j = i
    · subst hji
      exact ⟨o, k, Function.update_self _ _ _⟩
    · have hne : (j, c.round j) ≠ (i, c.round i) := fun heq => hji (congrArg Prod.fst heq)
      simp only [Function.update_of_ne hne] at hj
      simp only [Function.update_of_ne hji]
      exact h.current j hj
  waiting := by
    intro j o' k' hj
    by_cases hji : j = i
    · subst hji
      simp only [Function.update_self] at hj ⊢
      cases hj
      exact ⟨hsend, _, rfl, hsends⟩
    · have hne : (j, c.round j) ≠ (i, c.round i) := fun heq => hji (congrArg Prod.fst heq)
      simp only [Function.update_of_ne hji] at hj
      simp only [Function.update_of_ne hne]
      exact h.waiting j o' k' hj

end Rounds

/-! ### Mailboxes -/

/-- The node in whose mailbox a request is. -/
def Stage.box : Option (Stage Op Resp Node Packet Msg Reply) → Option Node
  | some (.queued n _) => some n
  | _ => none

/-- The node whose loop is busy with a request. -/
def Stage.served : Option (Stage Op Resp Node Packet Msg Reply) → Option Node
  | some (.taken n _) => some n
  | _ => none

/-- The mailboxes and the loops are where the requests say they are. -/
structure Boxes (c : Office ι σ Op Resp Node Packet Msg Reply Out) : Prop where
  queued : ∀ n t, t ∈ c.queue n ↔ Stage.box (c.stage t) = some n
  nodup : ∀ n, (c.queue n).Nodup
  serving : ∀ n t, c.loop n = .serving t ↔ Stage.served (c.stage t) = some n
  stopped : ∀ n, c.loop n = .stopped → c.queue n = []

namespace Boxes

omit [DecidableEq Node] in
/-- A request that is neither in a mailbox nor served, before or after. -/
theorem elsewhere (h : Boxes c) {t : Ticket ι} {y : Stage Op Resp Node Packet Msg Reply}
    (hbox : Stage.box (c.stage t) = Stage.box (some y))
    (hserved : Stage.served (c.stage t) = Stage.served (some y)) (s : σ)
    (desk : ι → Desk Op Resp Out) :
    Boxes { c with shared := s, desk := desk, stage := Function.update c.stage t (some y) } where
  queued := by
    intro n t'
    by_cases ht : t' = t
    · subst ht
      simp only [Function.update_self, ← hbox]
      exact h.queued n t'
    · simp only [Function.update_of_ne ht]
      exact h.queued n t'
  nodup := h.nodup
  serving := by
    intro n t'
    by_cases ht : t' = t
    · subst ht
      simp only [Function.update_self, ← hserved]
      exact h.serving n t'
    · simp only [Function.update_of_ne ht]
      exact h.serving n t'
  stopped := h.stopped

omit [DecidableEq ι] [DecidableEq Node] in
/-- A request in a mailbox is not served. -/
theorem unserved (h : Boxes c) {t : Ticket ι} {n : Node} (ht : t ∈ c.queue n) :
    Stage.served (c.stage t) = none := by
  have hbox := (h.queued n t).mp ht
  cases hx : c.stage t with
  | none => rfl
  | some x =>
    rw [hx] at hbox
    cases x with
    | queued => rfl
    | sent | taken | answered => cases hbox

theorem enqueue (h : Boxes c) {t : Ticket ι} {n : Node} {packet : Packet} {msg : Msg}
    (ht : c.stage t = some (.sent n packet)) (hn : c.loop n ≠ .stopped) :
    Boxes { c with
      stage := Function.update c.stage t (some (.queued n msg))
      queue := Function.update c.queue n (c.queue n ++ [t]) } where
  queued := by
    have hnot : ∀ n', t ∉ c.queue n' := by
      intro n' hmem
      rw [h.queued, ht] at hmem
      cases hmem
    intro n' t'
    by_cases hn' : n' = n
    · subst hn'
      simp only [Function.update_self, List.mem_append, List.mem_singleton]
      by_cases heq : t' = t
      · subst heq
        simp [Stage.box]
      · simp only [Function.update_of_ne heq, heq, or_false]
        exact h.queued n' t'
    · simp only [Function.update_of_ne hn']
      by_cases heq : t' = t
      · subst heq
        simp [Stage.box, hnot n', Ne.symm hn']
      · simp only [Function.update_of_ne heq]
        exact h.queued n' t'
  nodup := by
    intro n'
    by_cases hn' : n' = n
    · subst hn'
      simp only [Function.update_self]
      refine List.nodup_append.mpr ⟨h.nodup n', by simp, ?_⟩
      intro t' ht' t'' ht''
      rw [List.mem_singleton.mp ht'']
      rintro rfl
      rw [h.queued, ht] at ht'
      cases ht'
    · simp only [Function.update_of_ne hn']
      exact h.nodup n'
  serving := by
    intro n' t'
    by_cases heq : t' = t
    · subst heq
      rw [h.serving, ht]
      simp [Stage.served]
    · simp only [Function.update_of_ne heq]
      exact h.serving n' t'
  stopped := by
    intro n' hstop
    have hne : n' ≠ n := by
      rintro rfl
      exact hn hstop
    simp only [Function.update_of_ne hne]
    exact h.stopped n' hstop

theorem take (h : Boxes c) {t : Ticket ι} {n : Node} {rest : List (Ticket ι)}
    {q : Prog Op Resp Reply} (hn : c.loop n = .ready) (hqueue : c.queue n = t :: rest) :
    Boxes { c with
      loop := Function.update c.loop n (.serving t)
      queue := Function.update c.queue n rest
      stage := Function.update c.stage t (some (.taken n q)) } where
  queued := by
    have hnodup := h.nodup n
    rw [hqueue] at hnodup
    have hbox : Stage.box (c.stage t) = some n := by
      rw [← h.queued, hqueue]
      exact List.mem_cons_self
    intro n' t'
    by_cases heq : t' = t
    · -- the request has left its mailbox, and was in no other one
      subst heq
      simp only [Function.update_self, Stage.box, reduceCtorEq, iff_false]
      by_cases hn' : n' = n
      · subst hn'
        simp only [Function.update_self]
        exact (List.nodup_cons.mp hnodup).1
      · simp only [Function.update_of_ne hn']
        rw [h.queued, hbox]
        exact fun h => hn' (Option.some.inj h).symm
    · simp only [Function.update_of_ne heq]
      by_cases hn' : n' = n
      · subst hn'
        simp only [Function.update_self]
        rw [← h.queued, hqueue, List.mem_cons]
        simp [heq]
      · simp only [Function.update_of_ne hn']
        exact h.queued n' t'
  nodup := by
    intro n'
    by_cases hn' : n' = n
    · subst hn'
      simp only [Function.update_self]
      have hnodup := h.nodup n'
      rw [hqueue] at hnodup
      exact (List.nodup_cons.mp hnodup).2
    · simp only [Function.update_of_ne hn']
      exact h.nodup n'
  serving := by
    have hidle : ∀ t', Stage.served (c.stage t') ≠ some n := by
      intro t' ht'
      rw [← h.serving, hn] at ht'
      cases ht'
    intro n' t'
    by_cases heq : t' = t
    · subst heq
      have hmem : t' ∈ c.queue n := by
        rw [hqueue]
        exact List.mem_cons_self
      simp only [Function.update_self, Stage.served]
      by_cases hn' : n' = n
      · subst hn'
        simp
      · simp only [Function.update_of_ne hn', Option.some.injEq, Ne.symm hn', iff_false]
        rw [h.serving, h.unserved hmem]
        nofun
    · simp only [Function.update_of_ne heq]
      by_cases hn' : n' = n
      · subst hn'
        simp only [Function.update_self, hidle t', iff_false, Loop.serving.injEq]
        exact fun h => heq h.symm
      · simp only [Function.update_of_ne hn']
        exact h.serving n' t'
  stopped := by
    intro n' hstop
    by_cases hn' : n' = n
    · subst hn'
      simp only [Function.update_self] at hstop
      cases hstop
    · simp only [Function.update_of_ne hn'] at hstop ⊢
      exact h.stopped n' hstop

theorem reply (h : Boxes c) {t : Ticket ι} {n : Node} {q : Prog Op Resp Reply} {r : Option Reply}
    (hn : c.loop n = .serving t) (ht : c.stage t = some (.taken n q)) :
    Boxes { c with
      loop := Function.update c.loop n .ready
      stage := Function.update c.stage t (some (.answered r)) } where
  queued := by
    intro n' t'
    by_cases heq : t' = t
    · subst heq
      rw [h.queued, ht]
      simp [Stage.box]
    · simp only [Function.update_of_ne heq]
      exact h.queued n' t'
  nodup := h.nodup
  serving := by
    intro n' t'
    by_cases heq : t' = t
    · subst heq
      simp only [Function.update_self, Stage.served, reduceCtorEq, iff_false]
      by_cases hn' : n' = n
      · subst hn'
        simp
      · simp only [Function.update_of_ne hn']
        rw [h.serving, ht]
        exact fun h => hn' (Option.some.inj h).symm
    · simp only [Function.update_of_ne heq]
      by_cases hn' : n' = n
      · subst hn'
        simp only [Function.update_self, reduceCtorEq, false_iff]
        rw [← h.serving, hn]
        exact fun h => heq (Loop.serving.inj h).symm
      · simp only [Function.update_of_ne hn']
        exact h.serving n' t'
  stopped := by
    intro n' hstop
    by_cases hn' : n' = n
    · subst hn'
      simp only [Function.update_self] at hstop
      cases hstop
    · simp only [Function.update_of_ne hn'] at hstop
      exact h.stopped n' hstop

theorem stop (h : Boxes c) {n : Node} (hn : c.loop n = .ready) :
    Boxes { c with
      loop := Function.update c.loop n .stopped
      queue := Function.update c.queue n []
      stage := fun t => if t ∈ c.queue n then some (.answered none) else c.stage t } where
  queued := by
    intro n' t'
    by_cases hmem : t' ∈ c.queue n
    · simp only [hmem, if_true, Stage.box, reduceCtorEq, iff_false]
      by_cases hn' : n' = n
      · subst hn'
        simp
      · simp only [Function.update_of_ne hn']
        rw [h.queued, (h.queued n t').mp hmem]
        exact fun h => hn' (Option.some.inj h).symm
    · simp only [hmem, if_false]
      by_cases hn' : n' = n
      · subst hn'
        simp only [Function.update_self, List.not_mem_nil, false_iff]
        rw [← h.queued]
        exact hmem
      · simp only [Function.update_of_ne hn']
        exact h.queued n' t'
  nodup := by
    intro n'
    by_cases hn' : n' = n
    · subst hn'
      simp
    · simp only [Function.update_of_ne hn']
      exact h.nodup n'
  serving := by
    intro n' t'
    by_cases hmem : t' ∈ c.queue n
    · simp only [hmem, if_true, Stage.served, reduceCtorEq, iff_false]
      by_cases hn' : n' = n
      · subst hn'
        simp
      · simp only [Function.update_of_ne hn']
        rw [h.serving, h.unserved hmem]
        nofun
    · simp only [hmem, if_false]
      by_cases hn' : n' = n
      · subst hn'
        simp only [Function.update_self, reduceCtorEq, false_iff]
        rw [← h.serving, hn]
        nofun
      · simp only [Function.update_of_ne hn']
        exact h.serving n' t'
  stopped := by
    intro n' hstop
    by_cases hn' : n' = n
    · subst hn'
      simp
    · simp only [Function.update_of_ne hn'] at hstop ⊢
      exact h.stopped n' hstop

end Boxes

/-! ### Runs -/

/-- What a run keeps about the calls that the callers make themselves. -/
structure Errands (P : Op → Prop) (c : Office ι σ Op Resp Node Packet Msg Reply Out) : Prop where
  works : ∀ i p, c.desk i = .works p → p.Uses Prog.AnyAnswer P
  waits : ∀ i o k, c.desk i = .waits o k → ∀ r, (k r).Uses Prog.AnyAnswer P

section errands
variable {P : Op → Prop} {s : σ} {round : ι → Nat}
  {stage : Ticket ι → Option (Stage Op Resp Node Packet Msg Reply)}

omit [DecidableEq Node] in
theorem Errands.work (h : Errands P c) (i : ι) {p : Prog Op Resp Out}
    (hp : p.Uses Prog.AnyAnswer P) :
    Errands P { c with
      shared := s, desk := Function.update c.desk i (.works p), round := round, stage := stage } where
  works := by
    intro j p' hj
    by_cases hji : j = i
    · subst hji
      simp only [Function.update_self] at hj
      cases hj
      exact hp
    · simp only [Function.update_of_ne hji] at hj
      exact h.works j p' hj
  waits := by
    intro j o k hj
    by_cases hji : j = i
    · subst hji
      simp only [Function.update_self] at hj
      cases hj
    · simp only [Function.update_of_ne hji] at hj
      exact h.waits j o k hj

omit [DecidableEq Node] in
theorem Errands.wait (h : Errands P c) (i : ι) {o : Op} {k : Resp o → Prog Op Resp Out}
    (hk : ∀ r, (k r).Uses Prog.AnyAnswer P) :
    Errands P { c with
      shared := s, desk := Function.update c.desk i (.waits o k), round := round, stage := stage } where
  works := by
    intro j p hj
    by_cases hji : j = i
    · subst hji
      simp only [Function.update_self] at hj
      cases hj
    · simp only [Function.update_of_ne hji] at hj
      exact h.works j p hj
  waits := by
    intro j o' k' hj
    by_cases hji : j = i
    · subst hji
      simp only [Function.update_self] at hj
      cases hj
      exact hk
    · simp only [Function.update_of_ne hji] at hj
      exact h.waits j o' k' hj

end errands

/-- What a run keeps. -/
structure MailInv (post : Post Op Resp Node Packet Msg Reply) (P : Op → Prop)
    (c : Office ι σ Op Resp Node Packet Msg Reply Out) : Prop where
  rounds : Rounds post c
  boxes : Boxes c
  errands : Errands P c

theorem MailInv.step {P : Op → Prop} (hprog : ∀ j, (prog j).Uses Prog.AnyAnswer P)
    (h : MailInv post P c) {m : MailMove ι Env Op Job Node} (hm : (mail post site prog).step c m c') :
    MailInv post P c' := by
  obtain ⟨hr, hb, he⟩ := h
  -- a free caller waits for nothing
  have hfree : ∀ {i}, (c.desk i).Free → ∀ o k, c.desk i ≠ .waits o k := by
    rintro i (hi | ⟨a, hi⟩) o k hw <;> rw [hi] at hw <;> cases hw
  cases m with
  | env e =>
    obtain ⟨s', _, rfl⟩ := hm
    exact ⟨⟨hr.later, hr.current, hr.waiting⟩, ⟨hb.queued, hb.nodup, hb.serving, hb.stopped⟩,
      ⟨he.works, he.waits⟩⟩
  | start i j =>
    obtain ⟨s', hi, _, rfl⟩ := hm
    exact ⟨hr.works (hfree hi) _ s', ⟨hb.queued, hb.nodup, hb.serving, hb.stopped⟩,
      he.work i (hprog j)⟩
  | call i o =>
    obtain ⟨k, r, s', hi, _, _, rfl⟩ := hm
    exact ⟨hr.works (fun o k hw => by rw [hi] at hw; cases hw) _ s',
      ⟨hb.queued, hb.nodup, hb.serving, hb.stopped⟩, he.work i ((he.works i _ hi).2 r trivial)⟩
  | send i =>
    obtain ⟨o, k, n, packet, hi, hsends, hsend, rfl⟩ := hm
    have hnone : c.stage (i, c.round i) = none :=
      hr.unsent fun o k hw => by rw [hi] at hw; cases hw
    refine ⟨hr.send hsends hsend, hb.elsewhere ?_ ?_ _ _,
      he.wait i fun r => (he.works i _ hi).2 r trivial⟩
    · rw [hnone]
      rfl
    · rw [hnone]
      rfl
  | post t =>
    obtain ⟨n, packet, msg, ht, hn, hread, rfl⟩ := hm
    exact ⟨hr.advance_one ht fun o ho => ⟨packet, ho, hread⟩, hb.enqueue ht hn, ⟨he.works, he.waits⟩⟩
  | refuse t =>
    obtain ⟨n, packet, ht, _, rfl⟩ := hm
    refine ⟨hr.advance_one ht fun o ho => ⟨_, ho⟩, hb.elsewhere ?_ ?_ _ _, ⟨he.works, he.waits⟩⟩
    · rw [ht]
      rfl
    · rw [ht]
      rfl
  | take n =>
    obtain ⟨t, rest, msg, hn, hqueue, ht, rfl⟩ := hm
    refine ⟨hr.advance_one ht ?_, hb.take hn hqueue, ⟨he.works, he.waits⟩⟩
    intro o ho
    obtain ⟨packet, hsends, _⟩ := ho
    exact ⟨packet, hsends⟩
  | work n o =>
    obtain ⟨t, k, r, s', hn, ht, _, rfl⟩ := hm
    refine ⟨hr.advance_one ht fun _ ho => ho, hb.elsewhere ?_ ?_ _ _, ⟨he.works, he.waits⟩⟩
    · rw [ht]
      rfl
    · rw [ht]
      rfl
  | reply n =>
    obtain ⟨t, reply, hn, ht, hret, rfl⟩ := hm
    refine ⟨hr.advance_one ht ?_, hb.reply hn ht, ⟨he.works, he.waits⟩⟩
    intro o ho
    obtain ⟨packet, hsends⟩ := ho
    exact ⟨⟨_, hsends⟩, hret⟩
  | stop n =>
    obtain ⟨hn, rfl⟩ := hm
    refine ⟨hr.advance ?_ ?_, hb.stop hn, ⟨he.works, he.waits⟩⟩
    · intro t ht
      have hnot : t ∉ c.queue n := by
        rw [hb.queued, ht]
        nofun
      rw [if_neg hnot]
      exact ht
    · intro t x hx
      by_cases hmem : t ∈ c.queue n
      · refine ⟨_, if_pos hmem, ?_⟩
        -- it was in the mailbox
        have hbox := (hb.queued n t).mp hmem
        rw [hx] at hbox
        intro o ho
        cases x with
        | queued n' msg =>
          obtain ⟨packet, hsends, _⟩ := ho
          exact ⟨_, hsends⟩
        | sent | taken | answered => cases hbox
      · exact ⟨x, by rw [if_neg hmem]; exact hx, fun _ ho => ho⟩
  | receive i =>
    obtain ⟨o, k, x, r, hi, _, _, rfl⟩ := hm
    exact ⟨hr.next i _, ⟨hb.queued, hb.nodup, hb.serving, hb.stopped⟩,
      he.work i (he.waits i o k hi r)⟩
  | lose i =>
    obtain ⟨o, k, r, hi, _, rfl⟩ := hm
    exact ⟨hr.next i _, ⟨hb.queued, hb.nodup, hb.serving, hb.stopped⟩,
      he.work i (he.waits i o k hi r)⟩

theorem mail_inv {P : Op → Prop} (hprog : ∀ j, (prog j).Uses Prog.AnyAnswer P)
    (hc : (mail post site prog).Reachable c) : MailInv post P c := by
  refine System.invariant (MailInv post P) ?_ (fun _ _ _ h hm => h.step hprog hm) c hc
  intro c₀ hinit
  obtain ⟨_, hdesk, hstage, hqueue, hloop⟩ := hinit
  refine ⟨⟨?_, ?_, ?_⟩, ⟨?_, ?_, ?_, ?_⟩, ⟨?_, ?_⟩⟩ <;> simp [hdesk, hstage, hqueue, hloop, Stage.box,
    Stage.served]

/-! ### The way of a request -/

/-- What one step can do to a request. -/
inductive Stage.Next : Option (Stage Op Resp Node Packet Msg Reply) →
    Option (Stage Op Resp Node Packet Msg Reply) → Prop where
  | stay (x : Option (Stage Op Resp Node Packet Msg Reply)) : Next x x
  | send (n : Node) (packet : Packet) : Next none (some (.sent n packet))
  | post (n : Node) (packet : Packet) (msg : Msg) :
      Next (some (.sent n packet)) (some (.queued n msg))
  | refuse (n : Node) (packet : Packet) : Next (some (.sent n packet)) (some (.answered none))
  | take (n : Node) (msg : Msg) (q : Prog Op Resp Reply) :
      Next (some (.queued n msg)) (some (.taken n q))
  | drop (n : Node) (msg : Msg) : Next (some (.queued n msg)) (some (.answered none))
  | work (n : Node) (q q' : Prog Op Resp Reply) : Next (some (.taken n q)) (some (.taken n q'))
  | reply (n : Node) (q : Prog Op Resp Reply) (r : Reply) :
      Next (some (.taken n q)) (some (.answered (some r)))

/-- A node has begun to carry the request out. -/
def Stage.Begun : Option (Stage Op Resp Node Packet Msg Reply) → Prop
  | some (.taken ..) => True
  | some (.answered (some _)) => True
  | _ => False

theorem MailInv.next {P : Op → Prop} (h : MailInv post P c) {m : MailMove ι Env Op Job Node}
    (hm : (mail post site prog).step c m c') (t : Ticket ι) :
    Stage.Next (c.stage t) (c'.stage t) := by
  -- one ticket is updated, the others stay
  have hone : ∀ {t' x y}, c.stage t' = x → Stage.Next x y →
      Stage.Next (c.stage t) (Function.update c.stage t' y t) := by
    intro t' x y hx hxy
    by_cases ht : t = t'
    · subst ht
      rw [Function.update_self, hx]
      exact hxy
    · rw [Function.update_of_ne ht]
      exact .stay _
  cases m with
  | env e =>
    obtain ⟨s', _, rfl⟩ := hm
    exact .stay _
  | start i j =>
    obtain ⟨s', _, _, rfl⟩ := hm
    exact .stay _
  | call i o =>
    obtain ⟨k, r, s', _, _, _, rfl⟩ := hm
    exact .stay _
  | send i =>
    obtain ⟨o, k, n, packet, hi, _, _, rfl⟩ := hm
    exact hone (h.rounds.unsent fun o k hw => by rw [hi] at hw; cases hw) (.send n packet)
  | post t' =>
    obtain ⟨n, packet, msg, ht, _, _, rfl⟩ := hm
    exact hone ht (.post n packet msg)
  | refuse t' =>
    obtain ⟨n, packet, ht, _, rfl⟩ := hm
    exact hone ht (.refuse n packet)
  | take n =>
    obtain ⟨t', rest, msg, _, _, ht, rfl⟩ := hm
    exact hone ht (.take n msg _)
  | work n o =>
    obtain ⟨t', k, r, s', _, ht, _, rfl⟩ := hm
    exact hone ht (.work n _ _)
  | reply n =>
    obtain ⟨t', r, _, ht, _, rfl⟩ := hm
    exact hone ht (.reply n _ r)
  | stop n =>
    obtain ⟨_, rfl⟩ := hm
    by_cases hmem : t ∈ c.queue n
    · have hbox := (h.boxes.queued n t).mp hmem
      simp only [hmem, if_true]
      cases hx : c.stage t with
      | none =>
        rw [hx] at hbox
        cases hbox
      | some x =>
        rw [hx] at hbox
        cases x with
        | queued n' msg => exact .drop n' msg
        | sent | taken | answered => cases hbox
    · simp only [hmem, if_false]
      exact .stay _
  | receive i =>
    obtain ⟨o, k, x, r, _, _, _, rfl⟩ := hm
    exact .stay _
  | lose i =>
    obtain ⟨o, k, r, _, _, rfl⟩ := hm
    exact .stay _

omit [DecidableEq ι] [DecidableEq Node] in
/-- What a node has begun with, it does not put back. -/
theorem Stage.Next.begun {x y : Option (Stage Op Resp Node Packet Msg Reply)} (h : Stage.Next x y)
    (hx : Stage.Begun x) : Stage.Begun y := by
  cases h with
  | stay => exact hx
  | work | reply => trivial
  | send | post | refuse | take | drop => exact hx.elim

/-- What one step can do to a node. -/
theorem mail_node_cases {m : MailMove ι Env Op Job Node} (hm : (mail post site prog).step c m c')
    (n : Node) :
    (c'.queue n = c.queue n ∧ c'.loop n = c.loop n) ∨
    (∃ t, c'.queue n = c.queue n ++ [t] ∧ c'.loop n = c.loop n) ∨
    (∃ t, c.loop n = .ready ∧ c.queue n = t :: c'.queue n ∧ c'.loop n = .serving t) ∨
    (∃ t r, c.loop n = .serving t ∧ c'.queue n = c.queue n ∧ c'.loop n = .ready ∧
      c'.stage t = some (.answered (some r))) ∨
    (c.loop n = .ready ∧ c'.queue n = [] ∧ c'.loop n = .stopped ∧
      ∀ t ∈ c.queue n, c'.stage t = some (.answered none)) := by
  cases m with
  | env e =>
    obtain ⟨s', _, rfl⟩ := hm
    exact .inl ⟨rfl, rfl⟩
  | start i j =>
    obtain ⟨s', _, _, rfl⟩ := hm
    exact .inl ⟨rfl, rfl⟩
  | call i o =>
    obtain ⟨k, r, s', _, _, _, rfl⟩ := hm
    exact .inl ⟨rfl, rfl⟩
  | send i =>
    obtain ⟨o, k, n', packet, _, _, _, rfl⟩ := hm
    exact .inl ⟨rfl, rfl⟩
  | refuse t =>
    obtain ⟨n', packet, _, _, rfl⟩ := hm
    exact .inl ⟨rfl, rfl⟩
  | work n' o =>
    obtain ⟨t, k, r, s', _, _, _, rfl⟩ := hm
    exact .inl ⟨rfl, rfl⟩
  | receive i =>
    obtain ⟨o, k, x, r, _, _, _, rfl⟩ := hm
    exact .inl ⟨rfl, rfl⟩
  | lose i =>
    obtain ⟨o, k, r, _, _, rfl⟩ := hm
    exact .inl ⟨rfl, rfl⟩
  | post t =>
    obtain ⟨n', packet, msg, _, _, _, rfl⟩ := hm
    by_cases hn : n = n'
    · subst hn
      exact .inr (.inl ⟨t, Function.update_self _ _ _, rfl⟩)
    · exact .inl ⟨Function.update_of_ne hn _ _, rfl⟩
  | take n' =>
    obtain ⟨t, rest, msg, hready, hqueue, _, rfl⟩ := hm
    by_cases hn : n = n'
    · subst hn
      refine .inr (.inr (.inl ⟨t, hready, ?_, Function.update_self _ _ _⟩))
      simp only [Function.update_self]
      exact hqueue
    · exact .inl ⟨Function.update_of_ne hn _ _, Function.update_of_ne hn _ _⟩
  | reply n' =>
    obtain ⟨t, r, hserve, _, _, rfl⟩ := hm
    by_cases hn : n = n'
    · subst hn
      exact .inr (.inr (.inr (.inl ⟨t, r, hserve, rfl, Function.update_self _ _ _,
        Function.update_self _ _ _⟩)))
    · exact .inl ⟨rfl, Function.update_of_ne hn _ _⟩
  | stop n' =>
    obtain ⟨hready, rfl⟩ := hm
    by_cases hn : n = n'
    · subst hn
      exact .inr (.inr (.inr (.inr ⟨hready, Function.update_self _ _ _, Function.update_self _ _ _,
        fun t ht => if_pos ht⟩)))
    · exact .inl ⟨Function.update_of_ne hn _ _, Function.update_of_ne hn _ _⟩

/-- The request `t₁` is ahead of `t₂` at node `n`, or was until it was answered or
    the mailbox was given up. -/
def Ahead (t₁ t₂ : Ticket ι) (n : Node) (c : Office ι σ Op Resp Node Packet Msg Reply Out) : Prop :=
  [t₁, t₂].Sublist (c.queue n) ∨ (c.loop n = .serving t₁ ∧ t₂ ∈ c.queue n) ∨
    (∃ r, c.stage t₁ = some (.answered (some r))) ∨ c.stage t₂ = some (.answered none)

/-- A request that is answered stays so. -/
theorem MailInv.answered {P : Op → Prop} (h : MailInv post P c) {m : MailMove ι Env Op Job Node}
    (hm : (mail post site prog).step c m c') {t : Ticket ι} {x : Option Reply}
    (ht : c.stage t = some (.answered x)) : c'.stage t = some (.answered x) := by
  have hnext := h.next hm t
  rw [ht] at hnext
  generalize c'.stage t = y at hnext
  cases hnext
  rfl

theorem MailInv.ahead {P : Op → Prop} (h : MailInv post P c) {m : MailMove ι Env Op Job Node}
    (hm : (mail post site prog).step c m c') {t₁ t₂ : Ticket ι} {n : Node} (ha : Ahead t₁ t₂ n c) :
    Ahead t₁ t₂ n c' := by
  rcases ha with hsub | ⟨hserve, hmem⟩ | ⟨r, hr⟩ | hdrop
  · rcases mail_node_cases hm n with ⟨hq, _⟩ | ⟨t, hq, _⟩ | ⟨t, _, hq, hl⟩ | ⟨t, r, _, hq, _, _⟩ |
      ⟨_, _, _, hdrop⟩
    · exact .inl (hq ▸ hsub)
    · exact .inl (hq ▸ hsub.trans (List.sublist_append_left _ _))
    · -- the first one is taken, or both stay
      rw [hq] at hsub
      rcases List.sublist_cons_iff.mp hsub with hrest | ⟨l, hcons, hrest⟩
      · exact .inl hrest
      · cases hcons
        exact .inr (.inl ⟨hl, List.singleton_sublist.mp hrest⟩)
    · exact .inl (hq ▸ hsub)
    · exact .inr (.inr (.inr (hdrop t₂ (hsub.subset (by simp)))))
  · rcases mail_node_cases hm n with ⟨hq, hl⟩ | ⟨t, hq, hl⟩ | ⟨t, hready, _, _⟩ | ⟨t, r, ht, _, _, hr⟩ |
      ⟨hready, _, _, _⟩
    · exact .inr (.inl ⟨hl.trans hserve, hq ▸ hmem⟩)
    · exact .inr (.inl ⟨hl.trans hserve, hq ▸ List.mem_append_left _ hmem⟩)
    · rw [hserve] at hready
      cases hready
    · rw [hserve] at ht
      cases ht
      exact .inr (.inr (.inl ⟨r, hr⟩))
    · rw [hserve] at hready
      cases hready
  · exact .inr (.inr (.inl ⟨r, h.answered hm hr⟩))
  · exact .inr (.inr (.inr (h.answered hm hdrop)))

section along
variable {P : Op → Prop} (hprog : ∀ j, (prog j).Uses Prog.AnyAnswer P)
  (hc : (mail post site prog).Reachable c) (hsteps : (mail post site prog).Steps c c')
include hprog hc hsteps

theorem begun_along {t : Ticket ι} (ht : Stage.Begun (c.stage t)) : Stage.Begun (c'.stage t) := by
  induction hsteps with
  | refl => exact ht
  | tail hbefore hstep ih =>
    obtain ⟨m, hm⟩ := hstep
    exact ((mail_inv hprog (System.Steps.reachable hbefore hc)).next hm t).begun ih

theorem answered_along {t : Ticket ι} {x : Option Reply} (ht : c.stage t = some (.answered x)) :
    c'.stage t = some (.answered x) := by
  induction hsteps with
  | refl => exact ht
  | tail hbefore hstep ih =>
    obtain ⟨m, hm⟩ := hstep
    exact (mail_inv hprog (System.Steps.reachable hbefore hc)).answered hm ih

omit hprog hc in
/-- A loop that has ended is not started again. -/
theorem stopped_along {n : Node} (hn : c.loop n = .stopped) : c'.loop n = .stopped := by
  induction hsteps with
  | refl => exact hn
  | tail _ hstep ih =>
    obtain ⟨m, hm⟩ := hstep
    rcases mail_node_cases hm n with ⟨_, hl⟩ | ⟨_, _, hl⟩ | ⟨_, hready, _⟩ | ⟨_, _, hserve, _⟩ |
      ⟨hready, _⟩
    · exact hl.trans ih
    · exact hl.trans ih
    · rw [ih] at hready
      cases hready
    · rw [ih] at hserve
      cases hserve
    · rw [ih] at hready
      cases hready

/-- A node begins with a request only after it has answered those that were
    ahead of it. -/
theorem in_order {t₁ t₂ : Ticket ι} {n : Node} (hqueue : [t₁, t₂].Sublist (c.queue n))
    (hbegun : Stage.Begun (c'.stage t₂)) : ∃ r, c'.stage t₁ = some (.answered (some r)) := by
  have hahead : Ahead t₁ t₂ n c' := by
    clear hbegun
    induction hsteps with
    | refl => exact .inl hqueue
    | tail hbefore hstep ih =>
      obtain ⟨m, hm⟩ := hstep
      exact (mail_inv hprog (System.Steps.reachable hbefore hc)).ahead hm ih
  have hinv := mail_inv hprog (System.Steps.reachable hsteps hc)
  -- a request in a mailbox has not been begun
  have hnot : t₂ ∉ c'.queue n := by
    intro hmem
    have hbox := (hinv.boxes.queued n t₂).mp hmem
    cases hx : c'.stage t₂ with
    | none =>
      rw [hx] at hbegun
      exact hbegun
    | some x =>
      rw [hx] at hbox hbegun
      cases x with
      | queued => exact hbegun
      | sent | taken | answered => cases hbox
  rcases hahead with hsub | ⟨_, hmem⟩ | hr | hdrop
  · exact absurd (hsub.subset (by simp)) hnot
  · exact absurd hmem hnot
  · exact hr
  · rw [hdrop] at hbegun
    exact hbegun.elim

end along

omit [DecidableEq ι] [DecidableEq Node] in
/-- While a caller waits, its request is somewhere, and it is in a mailbox only as
    long as the loop of the node is not stopped. -/
theorem MailInv.located {P : Op → Prop} (h : MailInv post P c) {i : ι} {o : Op}
    {k : Resp o → Prog Op Resp Out} (hi : c.desk i = .waits o k) :
    ∃ n packet, post.sends o = some (n, packet) ∧
      (c.stage (i, c.round i) = some (.sent n packet) ∨
        ((i, c.round i) ∈ c.queue n ∧ c.loop n ≠ .stopped) ∨
        c.loop n = .serving (i, c.round i) ∨
        ∃ x, c.stage (i, c.round i) = some (.answered x)) := by
  obtain ⟨_, x, hx, habout⟩ := h.rounds.waiting i o k hi
  cases x with
  | sent n packet => exact ⟨n, packet, habout, .inl hx⟩
  | queued n msg =>
    obtain ⟨packet, hsends, _⟩ := habout
    have hmem : (i, c.round i) ∈ c.queue n := by
      rw [h.boxes.queued, hx]
      rfl
    refine ⟨n, packet, hsends, .inr (.inl ⟨hmem, ?_⟩)⟩
    intro hstop
    rw [h.boxes.stopped n hstop] at hmem
    cases hmem
  | taken n q =>
    obtain ⟨packet, hsends⟩ := habout
    refine ⟨n, packet, hsends, .inr (.inr (.inl ?_))⟩
    rw [h.boxes.serving, hx]
    rfl
  | answered x =>
    obtain ⟨⟨n, packet⟩, hsends⟩ : ∃ y, post.sends o = some y := by
      cases x with
      | none => exact habout
      | some reply => exact habout.1
    exact ⟨n, packet, hsends, .inr (.inr (.inr ⟨x, hx⟩))⟩

end LTS
