import Distruct.Raft.Locks

/-! # Stored Snapshots under Concurrency

    Whatever the tasks of a node do to the state machine at the same time, the
    stored snapshot is a state the machine really had, it is never replaced by
    an older one, and the two locks never block each other.

    The argument is in what a task may rely on while others run: where it stands
    with the locks is its own business, and what it holds a lock on stays as it
    is. A task that publishes a snapshot got the second lock while it still held
    the first one, so nothing newer can have been published in between.
-/

namespace Distruct

open LTS (Site Crew Discipline)
open LTS.Discipline

namespace LockedStateMachine

variable {ι : Type} {i j : ι} {s s' s'' : LockedStateMachine ι} {inner : StateMachineInner}
  {snap : StoredSnapshot}

/-! ### The discipline -/

structure Inv (s : LockedStateMachine ι) : Prop where
  locks : ∀ l, (s.lock l).Inv
  visited : s.sm.state_machine ∈ s.history
  captured : ∀ snap, s.sm.current_snapshot = some snap →
    ∃ inner ∈ s.history, StateMachine.Captures snap inner
  newest : ∀ snap, s.sm.current_snapshot = some snap →
    log_order snap.snapshot_meta.last_log_id ≤ s.applied

/-- What never goes back, and what a task that holds a lock finds unchanged. -/
structure Kept (i : ι) (s s' : LockedStateMachine ι) : Prop where
  history : ∀ inner ∈ s.history, inner ∈ s'.history
  applied : s.applied ≤ s'.applied
  state_machine : ∀ a, s.stance .state_machine i = .holding a →
    s'.sm.state_machine = s.sm.state_machine
  current_snapshot : ∀ a, s.stance .current_snapshot i = .holding a →
    s'.sm.current_snapshot = s.sm.current_snapshot

/-- What a task relies on while others run. -/
structure Rely (i : ι) (s s' : LockedStateMachine ι) : Prop extends Kept i s s' where
  stance : ∀ l, s'.stance l i = s.stance l i

theorem Kept.refl (i : ι) (s : LockedStateMachine ι) : Kept i s s :=
  ⟨fun _ h => h, le_refl _, fun _ _ => rfl, fun _ _ => rfl⟩

/-- What a task finds unchanged after a time is what it held a lock on throughout. -/
theorem Kept.trans (h : Kept i s s') (h' : Kept i s' s'')
    (hst : ∀ l a, s.stance l i = .holding a → s'.stance l i = .holding a) : Kept i s s'' where
  history := fun inner hi => h'.history inner (h.history inner hi)
  applied := h.applied.trans h'.applied
  state_machine := fun a ha => (h'.state_machine a (hst _ a ha)).trans (h.state_machine a ha)
  current_snapshot := fun a ha =>
    (h'.current_snapshot a (hst _ a ha)).trans (h.current_snapshot a ha)

theorem Rely.refl (i : ι) (s : LockedStateMachine ι) : Rely i s s :=
  ⟨Kept.refl i s, fun _ => rfl⟩

theorem Rely.trans (h : Rely i s s') (h' : Rely i s' s'') : Rely i s s'' where
  toKept := h.toKept.trans h'.toKept fun l _ ha => (h.stance l).trans ha
  stance := fun l => (h'.stance l).trans (h.stance l)

/-- The task has nothing to do with the locks. -/
def Away (i : ι) (s : LockedStateMachine ι) : Prop := ∀ l, s.stance l i = .away

def NotWaiting (i : ι) (s : LockedStateMachine ι) : Prop := ∀ l a, s.stance l i ≠ .waiting a

/-- The step a task may be about to make: it waits for a lock exactly when its
    next step is to acquire it, it never waits for the first lock with the second
    one in hand, and it never publishes an older snapshot. -/
def Can (i : ι) (s : LockedStateMachine ι) : LockOp → Prop
  | .acquire l a => s.stance l i = .waiting a ∧
      (l = .state_machine → s.stance .current_snapshot i = .away)
  | .write_current_snapshot snap => NotWaiting i s ∧
      ∀ old, s.sm.current_snapshot = some old →
        log_order old.snapshot_meta.last_log_id ≤ log_order snap.snapshot_meta.last_log_id
  | _ => NotWaiting i s

variable [DecidableEq ι]

def in_order : Site ι (LockedStateMachine ι) Empty LockOp StateMachineJob LockOp.Resp :=
  (locked_state_machine ι).restrict (fun _ _ => True) InOrder

def locking : Discipline (in_order (ι := ι)) where
  inv := Inv
  rel := Rely
  can := Can
  idle := Away
  refl := Rely.refl
  trans := Rely.trans
  idle_stable := fun hr hi l => (hr.stance l).trans (hi l)
  init_ok := by
    intro s hinit
    obtain ⟨hsm, hlock, hhist⟩ := hinit
    refine ⟨⟨?_, ?_, ?_, ?_⟩, ?_⟩
    · intro l
      rw [hlock l]
      exact RwLock.inv_unused
    · rw [hsm, hhist]
      exact List.mem_singleton.mpr rfl
    · intro snap hs
      rw [hsm] at hs
      cases hs
    · intro snap hs
      rw [hsm] at hs
      cases hs
    · intro i l
      rw [stance, hlock l]
      rfl
  env_ok := fun {_ e _} _ _ => e.elim

/-! ### What one step does -/

omit [DecidableEq ι] in
theorem on_stance_self {l : Guarded} {lk : RwLock ι} : (s.on l lk).stance l i = lk.stance i := by
  simp [on, stance]

omit [DecidableEq ι] in
theorem on_stance_of_ne {l l' : Guarded} {lk : RwLock ι} (h : l' ≠ l) :
    (s.on l lk).stance l' i = s.stance l' i := by
  simp [on, stance, Function.update_of_ne h]

omit [DecidableEq ι] in
/-- Using a lock keeps the invariant of the others. -/
theorem Inv.on (h : s.Inv) {l : Guarded} {lk : RwLock ι} (hlk : lk.Inv) : (s.on l lk).Inv where
  locks := by
    intro l'
    by_cases hl : l' = l
    · subst hl
      simpa [LockedStateMachine.on] using hlk
    · simpa [LockedStateMachine.on, Function.update_of_ne hl] using h.locks l'
  visited := h.visited
  captured := h.captured
  newest := h.newest

omit [DecidableEq ι] in
theorem Kept.on {l : Guarded} {lk : RwLock ι} (h : Kept i s s') : Kept i s (s'.on l lk) :=
  ⟨h.history, h.applied, h.state_machine, h.current_snapshot⟩

omit [DecidableEq ι] in
/-- Using a lock concerns nobody who stands the same with it. -/
theorem rely_on {l : Guarded} {lk : RwLock ι} (h : lk.stance j = (s.lock l).stance j) :
    Rely j s (s.on l lk) where
  stance := by
    intro l'
    by_cases hl : l' = l
    · subst hl
      rw [on_stance_self, h]
      rfl
    · exact on_stance_of_ne hl
  toKept := (Kept.refl j s).on

omit [DecidableEq ι] in
/-- Writing the state machine, under its lock and forward. -/
theorem Inv.put (h : s.Inv) (hle : s.applied ≤ log_order inner.last_applied_log) :
    (s.put inner).Inv where
  locks := h.locks
  visited := List.mem_cons_self
  captured := by
    intro snap hs
    obtain ⟨old, hold, hcap⟩ := h.captured snap hs
    exact ⟨old, List.mem_cons_of_mem _ hold, hcap⟩
  newest := fun snap hs => (h.newest snap hs).trans hle

omit [DecidableEq ι] in
theorem rely_put (h : s.Inv) (hi : s.stance .state_machine i = .holding .write) (hj : j ≠ i)
    (hle : s.applied ≤ log_order inner.last_applied_log) : Rely j s (s.put inner) where
  stance := fun _ => rfl
  history := fun _ h => List.mem_cons_of_mem _ h
  applied := hle
  state_machine := by
    intro a ha
    -- a writer is alone
    exact absurd ((h.locks .state_machine).exclusive i j a hi ha) hj
  current_snapshot := fun _ _ => rfl

/-! ### Rules for the steps -/

section rules
variable {α : Type} {Q : α → LockedStateMachine ι → Prop}

/-- Taking a lock: others may run before the request and until it is granted. -/
theorem wp_lock {l : Guarded} {a : Access} {k : Unit → LockProg α} (hnw : NotWaiting i s)
    (haway : s.stance l i = .away)
    (hord : l = .state_machine → s.stance .current_snapshot i = .away)
    (h : ∀ t, t.Inv → t.stance l i = .holding a → (∀ l', l' ≠ l → t.stance l' i = s.stance l' i) →
      Kept i s t → locking.wp i Q (k ()) t) :
    locking.wp i Q (LockProg.lock l a >>= k) s := by
  show locking.wp i Q (.call (.request l a) fun _ => .call (.acquire l a) k) s
  intro s₁ hinv₁ hr₁
  have haway₁ : (s₁.lock l).stance i = .away := (hr₁.stance l).trans haway
  refine ⟨fun l' a' hw => hnw l' a' ((hr₁.stance l').symm.trans hw), ?_⟩
  rintro - s₂ ⟨-, rfl⟩
  refine ⟨hinv₁.on ((hinv₁.locks l).request haway₁ a), fun j hj => rely_on (RwLock.request_others hj), ?_⟩
  intro s₃ hinv₃ hr₃
  have hwait₃ : s₃.stance l i = .waiting a := by
    rw [hr₃.stance l, on_stance_self, RwLock.request_stance]
  have hother₃ : ∀ l', l' ≠ l → s₃.stance l' i = s.stance l' i := by
    intro l' hl'
    rw [hr₃.stance l', on_stance_of_ne hl', hr₁.stance l']
  refine ⟨⟨hwait₃, ?_⟩, ?_⟩
  · intro hl
    rw [hother₃ .current_snapshot (by simp [hl])]
    exact hord hl
  · rintro - s₄ ⟨-, hg, rfl⟩
    refine ⟨hinv₃.on ((hinv₃.locks l).acquire hg), fun j hj => rely_on (RwLock.acquire_others hj), ?_⟩
    apply h
    · exact hinv₃.on ((hinv₃.locks l).acquire hg)
    · rw [on_stance_self, RwLock.acquire_stance]
    · intro l' hl'
      rw [on_stance_of_ne hl', hother₃ l' hl']
    · refine (hr₁.toKept.on.trans hr₃.toKept ?_).on
      -- the lock in question is none of those held before
      intro l' a' ha'
      have hl' : l' ≠ l := by
        rintro rfl
        rw [haway] at ha'
        cases ha'
      rw [on_stance_of_ne hl', hr₁.stance l', ha']

/-- Giving a lock back. -/
theorem wp_release {l : Guarded} {a : Access} {k : Unit → LockProg α} (hnw : NotWaiting i s)
    (hhold : s.stance l i = .holding a)
    (h : ∀ t, t.Inv → t.stance l i = .away → (∀ l', l' ≠ l → t.stance l' i = s.stance l' i) →
      Kept i s t → locking.wp i Q (k ()) t) :
    locking.wp i Q (LockProg.step (.release l) >>= k) s := by
  show locking.wp i Q (.call (.release l) k) s
  intro s₁ hinv₁ hr₁
  have hhold₁ : (s₁.lock l).stance i = .holding a := (hr₁.stance l).trans hhold
  refine ⟨fun l' a' hw => hnw l' a' ((hr₁.stance l').symm.trans hw), ?_⟩
  rintro - s₂ ⟨-, rfl⟩
  have hinv₂ := hinv₁.on ((hinv₁.locks l).release hhold₁) (l := l)
  refine ⟨hinv₂, fun j hj => rely_on (RwLock.release_others hj), ?_⟩
  apply h
  · exact hinv₂
  · rw [on_stance_self, RwLock.release_stance]
  · intro l' hl'
    rw [on_stance_of_ne hl', hr₁.stance l']
  · exact hr₁.toKept.on

/-- A step that writes the state machine forward. -/
theorem wp_write_state_machine {o : LockOp} {k : o.Resp → LockProg α} (hnw : NotWaiting i s)
    (hhold : s.stance .state_machine i = .holding .write)
    (hcan : ∀ t, NotWaiting i t → Can i t o)
    (hput : ∀ t r t', InOrder i t o → call i t o r t' →
      ∃ inner, t' = t.put inner ∧ t.applied ≤ log_order inner.last_applied_log)
    (h : ∀ t r t', call i t o r t' → t'.Inv → (∀ l, t'.stance l i = s.stance l i) →
      locking.wp i Q (k r) t') :
    locking.wp i Q (LockProg.step o >>= k) s := by
  show locking.wp i Q (.call o k) s
  intro s₁ hinv₁ hr₁
  refine ⟨hcan s₁ fun l' a' hw => hnw l' a' ((hr₁.stance l').symm.trans hw), ?_⟩
  rintro r s₂ ⟨hok, hc⟩
  obtain ⟨inner, rfl, hle⟩ := hput s₁ r s₂ hok hc
  have hhold₁ : s₁.stance .state_machine i = .holding .write := (hr₁.stance _).trans hhold
  exact ⟨hinv₁.put hle, fun j hj => rely_put hinv₁ hhold₁ hj hle,
    h s₁ r _ hc (hinv₁.put hle) hr₁.stance⟩

theorem wp_read_state_machine {a : Access} {k : StateMachineInner → LockProg α}
    (hnw : NotWaiting i s) (hhold : s.stance .state_machine i = .holding a)
    (h : locking.wp i Q (k s.sm.state_machine) s) :
    locking.wp i Q (LockProg.step .read_state_machine >>= k) s := by
  refine wp_silent (fun s₁ _ hr₁ l' a' hw => hnw l' a' ((hr₁.stance l').symm.trans hw))
    (fun _ _ _ hc => hc.2.2) ?_
  intro s₁ _ hr₁ r hc
  have hr : r = s₁.sm.state_machine := hc.2.1
  rw [hr, hr₁.state_machine a hhold]
  exact wp_stable hr₁ h

theorem wp_read_current_snapshot {k : Option StoredSnapshot → LockProg α} (hnw : NotWaiting i s)
    (h : ∀ r, locking.wp i Q (k r) s) :
    locking.wp i Q (LockProg.step .read_current_snapshot >>= k) s := by
  refine wp_silent (fun s₁ _ hr₁ l' a' hw => hnw l' a' ((hr₁.stance l').symm.trans hw))
    (fun _ _ _ hc => hc.2.2) ?_
  intro s₁ _ hr₁ r _
  exact wp_stable hr₁ (h r)

/-! ### Publishing a snapshot -/

/-- The task is about to publish a snapshot of `inner`: it holds the second lock
    only, and nothing newer than `inner` has been published. -/
structure Ready (i : ι) (inner : StateMachineInner) (s : LockedStateMachine ι) : Prop where
  state_machine : s.stance .state_machine i = .away
  current_snapshot : s.stance .current_snapshot i = .holding .write
  visited : inner ∈ s.history
  newer : ∀ old, s.sm.current_snapshot = some old →
    log_order old.snapshot_meta.last_log_id ≤ log_order inner.last_applied_log
  applied : log_order inner.last_applied_log ≤ s.applied

omit [DecidableEq ι] in
theorem notWaiting_of_stance (h₁ : ∀ a, s.stance .state_machine i ≠ .waiting a)
    (h₂ : ∀ a, s.stance .current_snapshot i ≠ .waiting a) : NotWaiting i s := by
  intro l a
  cases l with
  | state_machine => exact h₁ a
  | current_snapshot => exact h₂ a

omit [DecidableEq ι] in
theorem Ready.notWaiting (h : Ready i inner s) : NotWaiting i s :=
  notWaiting_of_stance (by simp [h.state_machine]) (by simp [h.current_snapshot])

omit [DecidableEq ι] in
theorem Ready.stable (h : Ready i inner s) (hr : Rely i s s') : Ready i inner s' where
  state_machine := (hr.stance _).trans h.state_machine
  current_snapshot := (hr.stance _).trans h.current_snapshot
  visited := hr.history inner h.visited
  newer := by
    intro old hold
    rw [hr.current_snapshot _ h.current_snapshot] at hold
    exact h.newer old hold
  applied := h.applied.trans hr.applied

/-- With both locks in hand, giving the first one back makes ready to publish what
    the state machine is now. -/
theorem wp_ready {a : Access} {k : Unit → LockProg α} (hinv : s.Inv)
    (hst : s.stance .state_machine i = .holding a)
    (hcs : s.stance .current_snapshot i = .holding .write)
    (h : ∀ t, Ready i s.sm.state_machine t → locking.wp i Q (k ()) t) :
    locking.wp i Q (LockProg.step (.release .state_machine) >>= k) s := by
  refine wp_release (notWaiting_of_stance (by simp [hst]) (by simp [hcs])) hst ?_
  intro t _ haway hother hkept
  apply h
  refine ⟨haway, ?_, hkept.history _ hinv.visited, ?_, hkept.applied⟩
  · rw [hother .current_snapshot (by simp), hcs]
  · intro old hold
    rw [hkept.current_snapshot _ hcs] at hold
    exact hinv.newest old hold

theorem wp_fetch_add_snapshot_idx {k : Nat → LockProg α} (hready : Ready i inner s)
    (h : ∀ t r, Ready i inner t → locking.wp i Q (k r) t) :
    locking.wp i Q (LockProg.step .fetch_add_snapshot_idx >>= k) s := by
  show locking.wp i Q (.call .fetch_add_snapshot_idx k) s
  intro s₁ hinv₁ hr₁
  have hready₁ := hready.stable hr₁
  refine ⟨hready₁.notWaiting, ?_⟩
  rintro r s₂ ⟨-, -, rfl⟩
  refine ⟨⟨hinv₁.locks, hinv₁.visited, hinv₁.captured, hinv₁.newest⟩, ?_, ?_⟩
  · intro j _
    exact ⟨⟨fun _ h => h, le_refl _, fun _ _ => rfl, fun _ _ => rfl⟩, fun _ => rfl⟩
  · apply h
    exact ⟨hready₁.state_machine, hready₁.current_snapshot, hready₁.visited, hready₁.newer,
      hready₁.applied⟩

/-- A returned result, with all locks given back. -/
theorem wp_return {r : α} (h : Away i s) :
    locking.wp i (fun _ t => Away i t) (.pure r : LockProg α) s :=
  fun _ _ hr l => (hr.stance l).trans (h l)

/-- Giving the only lock back and returning. -/
theorem wp_release_return {l : Guarded} {a : Access} {r : α} (hhold : s.stance l i = .holding a)
    (hother : ∀ l', l' ≠ l → s.stance l' i = .away) :
    locking.wp i (fun _ t => Away i t)
      (LockProg.step (.release l) >>= fun _ => (Pure.pure r : LockProg α)) s := by
  have hnw : NotWaiting i s := by
    intro l' a'
    by_cases hl : l' = l
    · rw [hl, hhold]
      simp
    · rw [hother l' hl]
      simp
  refine wp_release hnw hhold ?_
  intro t _ haway hsame _
  apply wp_return
  intro l'
  by_cases hl : l' = l
  · rw [hl, haway]
  · rw [hsame l' hl, hother l' hl]

/-- Publishing a snapshot that records `inner`. -/
theorem wp_publish {r : α} (hready : Ready i inner s) (hcap : StateMachine.Captures snap inner) :
    locking.wp i (fun _ t => Away i t)
      (LockProg.step (.write_current_snapshot snap) >>= fun _ =>
        LockProg.step (.release .current_snapshot) >>= fun _ => (Pure.pure r : LockProg α)) s := by
  show locking.wp i _ (.call (.write_current_snapshot snap) _) s
  intro s₁ hinv₁ hr₁
  have hready₁ := hready.stable hr₁
  refine ⟨⟨hready₁.notWaiting, ?_⟩, ?_⟩
  · rw [hcap.last_log_id]
    exact hready₁.newer
  · rintro - s₂ ⟨-, rfl⟩
    refine ⟨⟨hinv₁.locks, hinv₁.visited, ?_, ?_⟩, ?_, ?_⟩
    · intro snap' hs
      cases hs
      exact ⟨inner, hready₁.visited, hcap⟩
    · intro snap' hs
      cases hs
      rw [hcap.last_log_id]
      exact hready₁.applied
    · -- nobody else holds the lock
      intro j hj
      refine ⟨⟨fun _ h => h, le_refl _, fun _ _ => rfl, ?_⟩, fun _ => rfl⟩
      intro a ha
      exact absurd ((hinv₁.locks .current_snapshot).exclusive i j a hready₁.current_snapshot ha) hj
    · refine wp_release_return (a := .write) hready₁.current_snapshot ?_
      intro l' hl'
      cases l' with
      | state_machine => exact hready₁.state_machine
      | current_snapshot => exact absurd rfl hl'

end rules

/-! ### The operations -/

section operations

omit [DecidableEq ι] in
theorem Away.notWaiting (h : Away i s) : NotWaiting i s := by
  intro l a
  rw [h l]
  simp

/-- Taking the state machine's lock as the first one. -/
theorem wp_lock_state_machine {α : Type} {Q : α → LockedStateMachine ι → Prop} {a : Access}
    {k : Unit → LockProg α} (haway : Away i s)
    (h : ∀ t, t.Inv → t.stance .state_machine i = .holding a → t.stance .current_snapshot i = .away →
      locking.wp i Q (k ()) t) :
    locking.wp i Q (LockProg.lock .state_machine a >>= k) s := by
  refine wp_lock haway.notWaiting (haway _) (fun _ => haway _) ?_
  intro t hinv hhold hother _
  exact h t hinv hhold ((hother .current_snapshot (by simp)).trans (haway _))

theorem wp_apply_loop {α : Type} {Q : α → LockedStateMachine ι → Prop} {entries : List Entry}
    {k : List RaftResponse → LockProg α} (hst : s.stance .state_machine i = .holding .write)
    (hcs : s.stance .current_snapshot i = .away)
    (h : ∀ t res, t.stance .state_machine i = .holding .write → t.stance .current_snapshot i = .away →
      locking.wp i Q (k res) t) :
    locking.wp i Q (LockProg.apply_loop entries >>= k) s := by
  induction entries generalizing s k with
  | nil => exact h s [] hst hcs
  | cons entry entries ih =>
    simp only [LockProg.apply_loop, bind_assoc, pure_bind]
    refine wp_write_state_machine (notWaiting_of_stance (by simp [hst]) (by simp [hcs])) hst
      (fun _ hnw => hnw) ?_ ?_
    · rintro t r t' hok ⟨-, rfl⟩
      refine ⟨_, rfl, ?_⟩
      rw [last_applied_log_apply_entry]
      exact hok
    · intro t r t' _ _ hsame
      apply ih ((hsame _).trans hst) ((hsame _).trans hcs)
      intro t res hst' hcs'
      exact h t (r :: res) hst' hcs'

theorem wp_apply (entries : List Entry) (haway : Away i s) :
    locking.wp i (fun _ t => Away i t) (LockProg.apply entries) s := by
  apply wp_lock_state_machine haway
  intro t _ hst hcs
  apply wp_apply_loop hst hcs
  intro t res hst hcs
  exact wp_release_return hst (by rintro (_ | _) hl <;> simp_all)

/-- The two kinds of removal. -/
theorem wp_removal {o : LockOp} (haway : Away i s) (hcan : ∀ t, NotWaiting i t → Can i t o)
    (hput : ∀ t r t', call i t o r t' → ∃ data, t' = t.put_data data) :
    locking.wp i (fun _ t => Away i t)
      (LockProg.lock .state_machine .write >>= fun _ => LockProg.step o >>= fun r =>
        LockProg.step (.release .state_machine) >>= fun _ => (Pure.pure r : LockProg o.Resp)) s := by
  apply wp_lock_state_machine haway
  intro t _ hst hcs
  refine wp_write_state_machine (notWaiting_of_stance (by simp [hst]) (by simp [hcs])) hst hcan ?_ ?_
  · intro t r t' _ hc
    obtain ⟨data, rfl⟩ := hput t r t' hc
    exact ⟨_, rfl, le_refl _⟩
  · intro t r t' _ _ hsame
    refine wp_release_return ((hsame _).trans hst) ?_
    rintro (_ | _) hl
    · exact absurd rfl hl
    · exact (hsame _).trans hcs

theorem wp_install_snapshot (snapshot_meta : SnapshotMeta) (snapshot : Postcard.Bytes)
    (haway : Away i s) :
    locking.wp i (fun _ t => Away i t) (LockProg.install_snapshot snapshot_meta snapshot) s := by
  unfold LockProg.install_snapshot
  split
  · exact wp_return haway
  · next data hdata =>
    apply wp_lock_state_machine haway
    intro t _ hst hcs
    refine wp_write_state_machine (notWaiting_of_stance (by simp [hst]) (by simp [hcs])) hst
      (fun _ hnw => hnw) (fun t r t' hok hc => ⟨_, hc, hok⟩) ?_
    rintro t - t' rfl hinv hsame
    rw [← hsame] at hst hcs
    refine wp_lock (notWaiting_of_stance (by simp [hst]) (by simp [hcs])) hcs (by simp) ?_
    intro u hinv' hcs' hother hkept
    -- the state machine is still the one that was written
    have hsm := hkept.state_machine _ hst
    refine wp_ready hinv' ((hother _ (by simp)).trans hst) hcs' ?_
    intro v hready
    refine wp_publish hready ?_
    rw [hsm]
    exact ⟨rfl, rfl, hdata⟩

theorem wp_get_current_snapshot (haway : Away i s) :
    locking.wp i (fun _ t => Away i t) LockProg.get_current_snapshot s := by
  refine wp_lock haway.notWaiting (haway _) (by simp) ?_
  intro t _ hcs hother _
  have hst : t.stance .state_machine i = .away := (hother _ (by simp)).trans (haway _)
  refine wp_read_current_snapshot (notWaiting_of_stance (by simp [hst]) (by simp [hcs])) ?_
  intro r
  exact wp_release_return hcs (by rintro (_ | _) hl <;> simp_all)

theorem wp_build_snapshot (ord : HashOrder) (haway : Away i s) :
    locking.wp i (fun _ t => Away i t) (LockProg.build_snapshot ord) s := by
  apply wp_lock_state_machine haway
  intro t _ hst hcs
  refine wp_read_state_machine (notWaiting_of_stance (by simp [hst]) (by simp [hcs])) hst ?_
  show locking.wp i _ (LockProg.lock .current_snapshot .write >>= _) t
  refine wp_lock (notWaiting_of_stance (by simp [hst]) (by simp [hcs])) hcs (by simp) ?_
  intro u hinv hcs' hother hkept
  have hsm := hkept.state_machine _ hst
  refine wp_ready hinv ((hother _ (by simp)).trans hst) hcs' ?_
  intro v hready
  refine wp_fetch_add_snapshot_idx hready ?_
  intro w r hready
  refine wp_publish hready ?_
  rw [hsm]
  exact ⟨rfl, rfl, StateMachineData.from_bytes_encode ord _⟩

theorem wp_prog (job : StateMachineJob) (haway : Away i s) :
    locking.wp i (fun _ t => Away i t) job.prog s := by
  cases job with
  | apply entries => exact wp_map (wp_apply entries haway)
  | install_snapshot m snapshot => exact wp_map (wp_install_snapshot m snapshot haway)
  | build_snapshot ord => exact wp_map (wp_build_snapshot ord haway)
  | remove map key =>
    exact wp_map (wp_removal haway (fun _ h => h) fun t r t' hc => ⟨_, hc.2⟩)
  | remove_multi_value mm key value =>
    exact wp_map (wp_removal haway (fun _ h => h) fun t r t' hc => ⟨_, hc.2⟩)
  | get_current_snapshot => exact wp_map (wp_get_current_snapshot haway)

end operations

/-! ### No deadlock -/

/-- The tasks of a node. -/
abbrev Tasks (ι : Type) := Crew ι (LockedStateMachine ι) LockOp LockOp.Resp StateMachineReply

/-- Every step that does not wait for a lock can be made. -/
theorem call_enabled {o : LockOp} (h : ∀ l a, o ≠ .acquire l a) : ∃ r s', call i s o r s' := by
  cases o with
  | acquire l a => exact absurd rfl (h l a)
  | request l a => exact ⟨(), _, rfl⟩
  | release l => exact ⟨(), _, rfl⟩
  | read_state_machine => exact ⟨_, _, rfl, rfl⟩
  | apply_entry entry => exact ⟨_, _, rfl, rfl⟩
  | replace_state_machine inner => exact ⟨(), _, rfl⟩
  | remove map key => exact ⟨_, _, rfl, rfl⟩
  | remove_multi_value mm key value => exact ⟨_, _, rfl, rfl⟩
  | fetch_add_snapshot_idx => exact ⟨_, _, rfl, rfl⟩
  | read_current_snapshot => exact ⟨_, _, rfl, rfl⟩
  | write_current_snapshot snap => exact ⟨(), _, rfl⟩

/-- Some task can make its next step. -/
def Progress (c : Tasks ι) : Prop :=
  ∃ i o k r s', c.worker i = some (.call o k) ∧ call i c.shared o r s'

omit [DecidableEq ι] in
/-- A step acquires a lock that the task waits for, or the task waits for none. -/
theorem Can.cases {o : LockOp} (h : Can i s o) :
    (∃ l a, o = .acquire l a ∧ s.stance l i = .waiting a ∧
      (l = .state_machine → s.stance .current_snapshot i = .away)) ∨
    ((∀ l a, o ≠ .acquire l a) ∧ NotWaiting i s) := by
  cases o with
  | acquire l a => exact .inl ⟨l, a, rfl, h⟩
  | write_current_snapshot snap => exact .inr ⟨by simp, h.1⟩
  | _ => exact .inr ⟨by simp, h⟩

section progress
variable {c : Tasks ι}

/-- A task that waits for a lock or holds one is not done. -/
theorem exists_call (h : CrewInv locking (fun i _ => Away i) c) {l : Guarded}
    (hst : c.shared.stance l i ≠ .away) : ∃ o k, c.worker i = some (.call o k) := by
  cases hw : c.worker i with
  | none => exact absurd (h.idle i hw l) hst
  | some p =>
    cases p with
    | pure r => exact absurd (h.returned hw l) hst
    | call o k => exact ⟨o, k, rfl⟩

/-- A task that is not done can go on unless it waits for a lock. -/
theorem progress_or_waits (h : CrewInv locking (fun i _ => Away i) c) {o : LockOp}
    {k : o.Resp → LockProg StateMachineReply} (hw : c.worker i = some (.call o k)) :
    Progress c ∨ ∃ l a, c.shared.stance l i = .waiting a ∧
      (l = .state_machine → c.shared.stance .current_snapshot i = .away) := by
  have hcan : Can i c.shared o := h.can hw
  rcases hcan.cases with ⟨l, a, -, hwait, hord⟩ | ⟨hna, -⟩
  · exact .inr ⟨l, a, hwait, hord⟩
  · obtain ⟨r, s', hc⟩ := call_enabled (i := i) (s := c.shared) hna
    exact .inl ⟨i, o, k, r, s', hw, hc⟩

/-- A task to which the lock it waits for is granted can go on. -/
theorem progress_of_grants (h : CrewInv locking (fun i _ => Away i) c) {l : Guarded} {a : Access}
    (hst : c.shared.stance l i = .waiting a) (hg : (c.shared.lock l).Grants i a)
    (hone : l = .state_machine → ∀ b, c.shared.stance .current_snapshot i ≠ .waiting b) :
    Progress c := by
  have hbusy : c.shared.stance l i ≠ .away := by simp [hst]
  obtain ⟨o, k, hw⟩ := exists_call h hbusy
  have hcan : Can i c.shared o := h.can hw
  rcases hcan.cases with ⟨l', a', rfl, hwait, hord⟩ | ⟨-, hnw⟩
  · have hl : l' = l := by
      cases l <;> cases l' <;> simp_all
    subst hl
    rw [hst] at hwait
    cases hwait
    exact ⟨i, _, k, (), _, hw, hg, rfl⟩
  · exact absurd hst (hnw l a)

/-- **No deadlock**: as long as some operation is under way, some task can go on. -/
theorem progress (h : CrewInv locking (fun i _ => Away i) c)
    (hbusy : ∃ i o k, c.worker i = some (.call o k)) : Progress c := by
  have hlock := h.inv.locks
  by_cases hheld : ∃ i a, c.shared.stance .current_snapshot i = .holding a
  · -- whoever holds the second lock waits for nothing
    obtain ⟨i, a, hst⟩ := hheld
    obtain ⟨o, k, hw⟩ := exists_call h (show c.shared.stance _ i ≠ .away by rw [hst]; simp)
    rcases progress_or_waits h hw with hp | ⟨l, b, hwait, hord⟩
    · exact hp
    · cases l <;> simp_all
  have hheld' : ∀ j b, (c.shared.lock .current_snapshot).stance j ≠ .holding b :=
    fun j b hj => hheld ⟨j, b, hj⟩
  by_cases hq : (c.shared.lock .current_snapshot).queue = []
  swap
  · -- nobody holds it, so the first one who waits for it gets it
    obtain ⟨i, a, hst, hg⟩ := (hlock .current_snapshot).grants_first hheld' hq
    exact progress_of_grants h hst hg (by simp)
  have hnone : ∀ j b, c.shared.stance .current_snapshot j ≠ .waiting b := by
    intro j b hj
    have hmem := ((hlock .current_snapshot).queued j).mpr ⟨b, hj⟩
    rw [hq] at hmem
    cases hmem
  by_cases hheld₁ : ∃ i a, c.shared.stance .state_machine i = .holding a
  · -- nobody waits for the second lock, so whoever holds the first one can go on
    obtain ⟨i, a, hst⟩ := hheld₁
    obtain ⟨o, k, hw⟩ := exists_call h (show c.shared.stance _ i ≠ .away by rw [hst]; simp)
    rcases progress_or_waits h hw with hp | ⟨l, b, hwait, hord⟩
    · exact hp
    · cases l <;> simp_all
  have hheld₁' : ∀ j b, (c.shared.lock .state_machine).stance j ≠ .holding b :=
    fun j b hj => hheld₁ ⟨j, b, hj⟩
  by_cases hq₁ : (c.shared.lock .state_machine).queue = []
  swap
  · obtain ⟨i, a, hst, hg⟩ := (hlock .state_machine).grants_first hheld₁' hq₁
    exact progress_of_grants h hst hg (fun _ => hnone i)
  -- nobody waits at all
  obtain ⟨i, o, k, hw⟩ := hbusy
  rcases progress_or_waits h hw with hp | ⟨l, b, hwait, -⟩
  · exact hp
  · have hmem := ((hlock l).queued i).mpr ⟨b, hwait⟩
    cases l <;> simp_all

end progress

/-! ### All runs -/

/-- The tasks of a node under openraft's promises. -/
def tasks_in_order (ι : Type) [DecidableEq ι] : LTS.System (Tasks ι) (LTS.Move ι Empty LockOp StateMachineJob) :=
  LTS.crew in_order fun _ job => job.prog

theorem tasks_sound {c : Tasks ι} (hc : (tasks_in_order ι).Reachable c) :
    CrewInv locking (fun i _ => Away i) c := by
  refine crew_sound locking (fun i _ => Away i) (fun _ _ _ _ h => h) ?_ hc
  intro i job s s' hinv haway hs
  cases hs
  exact ⟨hinv, fun j _ => Rely.refl j s, wp_prog job haway⟩

/-- The only step that changes the stored snapshot. -/
theorem call_current_snapshot {o : LockOp} {r : o.Resp} (h : call i s o r s') :
    s'.sm.current_snapshot = s.sm.current_snapshot ∨
      ∃ snap, o = .write_current_snapshot snap ∧ s'.sm.current_snapshot = some snap := by
  cases o with
  | write_current_snapshot snap =>
    cases h
    exact .inr ⟨snap, rfl, rfl⟩
  | request l a => cases h; exact .inl rfl
  | release l => cases h; exact .inl rfl
  | replace_state_machine inner => cases h; exact .inl rfl
  | _ =>
    obtain ⟨-, rfl⟩ := h
    exact .inl rfl

/-- A state of the state machine is recorded when it is written. -/
theorem call_history {o : LockOp} {r : o.Resp} (h : call i s o r s') :
    s'.history = s.history ∨ s'.history = s'.sm.state_machine :: s.history := by
  cases o with
  | request l a => cases h; exact .inl rfl
  | release l => cases h; exact .inl rfl
  | write_current_snapshot snap => cases h; exact .inl rfl
  | replace_state_machine inner => cases h; exact .inr rfl
  | apply_entry entry =>
    obtain ⟨-, rfl⟩ := h
    exact .inr rfl
  | remove map key =>
    obtain ⟨-, rfl⟩ := h
    exact .inr rfl
  | remove_multi_value mm key value =>
    obtain ⟨-, rfl⟩ := h
    exact .inr rfl
  | _ =>
    obtain ⟨-, rfl⟩ := h
    exact .inl rfl

/-- A stored snapshot is only replaced by one that is not older. -/
theorem snapshot_forward {c c' : Tasks ι} {m : LTS.Move ι Empty LockOp StateMachineJob}
    (h : CrewInv locking (fun i _ => Away i) c) (hstep : (tasks_in_order ι).step c m c')
    {old : StoredSnapshot} (hold : c.shared.sm.current_snapshot = some old) :
    ∃ new, c'.shared.sm.current_snapshot = some new ∧
      log_order old.snapshot_meta.last_log_id ≤ log_order new.snapshot_meta.last_log_id := by
  match m with
  | .env e => exact e.elim
  | .start i job =>
    obtain ⟨s', -, hs, rfl⟩ := hstep
    cases hs
    exact ⟨old, hold, le_refl _⟩
  | .call i o =>
    obtain ⟨k, r, s', hw, ⟨-, hc⟩, rfl⟩ := hstep
    rcases call_current_snapshot hc with hsame | ⟨snap, rfl, hnew⟩
    · exact ⟨old, hsame.trans hold, le_refl _⟩
    · have hcan : Can i c.shared (.write_current_snapshot snap) := h.can hw
      exact ⟨snap, hnew, hcan.2 old hold⟩

/-- A step of some task. -/
def Next (c c' : Tasks ι) : Prop := ∃ m, (tasks_in_order ι).step c m c'

/-- Every recorded state is one in which the state machine was earlier in the run. -/
theorem visited_before {c : Tasks ι} (hc : (tasks_in_order ι).Reachable c) :
    ∀ inner ∈ c.shared.history, ∃ c₀, (tasks_in_order ι).Reachable c₀ ∧
      Relation.ReflTransGen Next c₀ c ∧ c₀.shared.sm.state_machine = inner := by
  induction hc with
  | init hinit =>
    intro inner hmem
    obtain ⟨hsm, hlock, hhist⟩ := hinit.1
    rw [hhist, List.mem_singleton] at hmem
    exact ⟨_, .init hinit, .refl, by rw [hsm, hmem]; rfl⟩
  | @step c c' m hc hstep ih =>
    -- a state that was recorded before, or the one the step has just written
    have hextend : ∀ inner ∈ c.shared.history, ∃ c₀, (tasks_in_order ι).Reachable c₀ ∧
        Relation.ReflTransGen Next c₀ c' ∧ c₀.shared.sm.state_machine = inner := by
      intro inner hmem
      obtain ⟨c₀, hc₀, hsteps, hst⟩ := ih inner hmem
      exact ⟨c₀, hc₀, hsteps.tail ⟨m, hstep⟩, hst⟩
    have hc' := hc.step m hstep
    match m with
    | .env e => exact e.elim
    | .start i job =>
      obtain ⟨s', -, hs, rfl⟩ := hstep
      cases hs
      exact hextend
    | .call i o =>
      obtain ⟨k, r, s', hw, ⟨-, hcall⟩, rfl⟩ := hstep
      intro inner hmem
      rcases call_history hcall with hsame | hnew
      · exact hextend inner (hsame ▸ hmem)
      · rw [hnew] at hmem
        rcases List.mem_cons.mp hmem with rfl | hmem
        · exact ⟨_, hc', .refl, rfl⟩
        · exact hextend inner hmem

/-- What concurrent operations keep about the stored snapshot. -/
structure Consistent (c : Tasks ι) : Prop where
  /-- It is a state that the state machine had earlier in the run. -/
  captured : ∀ snap, c.shared.sm.current_snapshot = some snap →
    ∃ c₀, (tasks_in_order ι).Reachable c₀ ∧ Relation.ReflTransGen Next c₀ c ∧
      StateMachine.Captures snap c₀.shared.sm.state_machine
  /-- It is never replaced by an older one. -/
  forward : ∀ m c' old, (tasks_in_order ι).step c m c' → c.shared.sm.current_snapshot = some old →
    ∃ new, c'.shared.sm.current_snapshot = some new ∧
      log_order old.snapshot_meta.last_log_id ≤ log_order new.snapshot_meta.last_log_id
  /-- It is not ahead of the state machine. -/
  newest : ∀ snap, c.shared.sm.current_snapshot = some snap →
    log_order snap.snapshot_meta.last_log_id ≤ log_order c.shared.sm.state_machine.last_applied_log
  /-- A snapshot that cannot be decoded changes nothing and is refused at once. -/
  undecodable : ∀ i snapshot_meta snapshot e c', StateMachineData.from_bytes snapshot = .error e →
    (tasks_in_order ι).step c (.start i (.install_snapshot snapshot_meta snapshot)) c' →
    c'.shared = c.shared ∧
      c'.worker i = some (.pure (.install_snapshot (.error ⟨"read_snapshot"⟩)))
  /-- While an operation is under way, some task can make its next step. -/
  progress : (∃ i o k, c.worker i = some (.call o k)) →
    ∃ i o k r s', c.worker i = some (.call o k) ∧ (locked_state_machine ι).call i c.shared o r s'

/-- **Stored snapshots are consistent** in every interleaving of the operations
    on the state machine. -/
theorem stored_snapshots_consistent {c : Tasks ι} (hc : (tasks_in_order ι).Reachable c) :
    Consistent c := by
  have h := tasks_sound hc
  refine ⟨?_, ?_, h.inv.newest, ?_, ?_⟩
  · intro snap hs
    obtain ⟨inner, hmem, hcap⟩ := h.inv.captured snap hs
    obtain ⟨c₀, hc₀, hsteps, rfl⟩ := visited_before hc inner hmem
    exact ⟨c₀, hc₀, hsteps, hcap⟩
  · intro m c' old hstep hold
    exact snapshot_forward h hstep hold
  · rintro i m snapshot e c' hbad ⟨s', -, hs, rfl⟩
    cases hs
    refine ⟨rfl, ?_⟩
    simp only [Function.update_self, StateMachineJob.prog, LockProg.install_snapshot, hbad]
    rfl
  · exact LockedStateMachine.progress h

/-- A fresh node. -/
def fresh : Tasks Bool where
  shared := ⟨default, fun _ => .unused, [default]⟩
  worker := fun _ => none

/-- A task builds a snapshot, and another one applies an entry while the snapshot
    is being built. -/
theorem stored_snapshots_consistent_built : ∃ c, (tasks_in_order Bool).Reachable c ∧
    (∃ snap, c.shared.sm.current_snapshot = some snap ∧ snap.snapshot_meta.last_log_id = none) ∧
    c.shared.sm.state_machine.last_applied_log = some ⟨⟨1, 0⟩, 1⟩ ∧ Consistent c := by
  have h₀ : (tasks_in_order Bool).Reachable fresh := .init ⟨⟨rfl, fun _ => rfl, rfl⟩, fun _ => rfl⟩
  have h₁ := Crew.start h₀ true (.build_snapshot .arbitrary) (.inl rfl) rfl
  have h₂ := Crew.start h₁ false (.apply [⟨⟨⟨1, 0⟩, 1⟩, .Blank⟩]) (.inl rfl) rfl
  have h₃ := Crew.call h₂ true (o := .request .state_machine .read) () rfl ⟨trivial, rfl⟩
  have h₄ := Crew.call h₃ true (o := .acquire .state_machine .read) () rfl
    ⟨trivial, ⟨rfl, by rintro (_ | _) b hb <;> cases hb⟩, rfl⟩
  -- the entry has to wait
  have h₅ := Crew.call h₄ false (o := .request .state_machine .write) () rfl ⟨trivial, rfl⟩
  have h₆ := Crew.call h₅ true (o := .read_state_machine) _ rfl ⟨trivial, rfl, rfl⟩
  have h₇ := Crew.call h₆ true (o := .request .current_snapshot .write) () rfl ⟨trivial, rfl⟩
  have h₈ := Crew.call h₇ true (o := .acquire .current_snapshot .write) () rfl
    ⟨trivial, ⟨rfl, by rintro (_ | _) b hb <;> cases hb⟩, rfl⟩
  have h₉ := Crew.call h₈ true (o := .release .state_machine) () rfl ⟨trivial, rfl⟩
  have h₁₀ := Crew.call h₉ false (o := .acquire .state_machine .write) () rfl
    ⟨trivial, ⟨rfl, by rintro (_ | _) b hb <;> cases hb⟩, rfl⟩
  have h₁₁ := Crew.call h₁₀ true (o := .fetch_add_snapshot_idx) _ rfl ⟨trivial, rfl, rfl⟩
  have h₁₂ := Crew.call h₁₁ false (o := .apply_entry _) _ rfl ⟨bot_le, rfl, rfl⟩
  have h₁₃ := Crew.call h₁₂ true (o := .write_current_snapshot _) () rfl ⟨trivial, rfl⟩
  exact ⟨_, h₁₃, ⟨_, rfl, rfl⟩, rfl, stored_snapshots_consistent h₁₃⟩

end LockedStateMachine

end Distruct
