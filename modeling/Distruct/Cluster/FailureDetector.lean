import Distruct.Cluster.DetectFailures
import Distruct.Framework.Workers

/-! # The Failure Detector over Time

    One node and its failure detector. Time passes, RPCs of the node succeed, the
    node gains and loses the leadership, the membership changes and the heartbeat
    monitor is cleaned up, all of it at any moment between two calls of the
    detector.

    The history keeps, newest first, the events that the two deadlines are about.
    It is what the detector's decisions are measured against. The invariant says
    what it tells about the entries of the heartbeat monitor: an entry is older
    than the leadership only if it was there when the leadership was gained and
    nothing has happened to it since.
-/

namespace Distruct

open LTS (Site Crew Discipline)

/-! ### Events -/

inductive Event where
  /-- The detector was started. -/
  | started (t : Instant)
  /-- An RPC to node `id` succeeded. -/
  | on_heartbeat (t : Instant) (id : NodeId)
  /-- The entries of all nodes but `ids` were dropped. -/
  | retained (t : Instant) (ids : Finset NodeId)
  /-- The node changed its state, while the monitor had the entries `held`. -/
  | became (t : Instant) (state : ServerState) (held : HeartbeatMonitor)
  /-- The detector went over the members, as the leader. -/
  | checked (t : Instant) (membership : Membership) (found : Detection)
  | force_shutdown (t : Instant)

namespace Event

def time : Event → Instant
  | .started t => t
  | .on_heartbeat t _ => t
  | .retained t _ => t
  | .became t _ _ => t
  | .checked t _ _ => t
  | .force_shutdown t => t

def steps_down : Event → Bool
  | .became _ state _ => state != .Leader
  | _ => false

def reaches (id : NodeId) : Event → Bool
  | .on_heartbeat _ id' => id' == id
  | _ => false

def finds_quorum : Event → Bool
  | .checked _ _ found => found.quorum_possible
  | _ => false

/-- The event is not one of the detector. -/
def outside : Event → Bool
  | .on_heartbeat .. | .retained .. | .became .. => true
  | .started .. | .checked .. | .force_shutdown .. => false

end Event

/-! ### What a history tells -/

/-- The state of a node after some events. -/
def state_after : List Event → ServerState
  | [] => .Learner
  | .became _ state _ :: _ => state
  | _ :: history => state_after history

/-- When the leadership was gained, for a node that is the leader. -/
def led_since : List Event → Instant
  | [] => 0
  | .became t _ _ :: before => if state_after before = .Leader then led_since before else t
  | _ :: before => led_since before

/-- The entry of node `id` when the leadership was gained, if the node has not been
    reached since and the entry was not dropped. -/
def inherited : List Event → NodeId → Option Instant
  | [], _ => none
  | .became _ _ held :: before, id =>
    if state_after before = .Leader then inherited before id else held.lookup id
  | .on_heartbeat _ id' :: before, id => if id' = id then none else inherited before id
  | .retained _ ids :: before, id => if id ∈ ids then inherited before id else none
  | _ :: before, id => inherited before id

/-- From some event at or before `b` on, the node has been the leader without
    interruption, and no later event is `bad`. -/
inductive LeaderFrom (b : Instant) (bad : Event → Bool) : List Event → Prop where
  | begin {e : Event} {earlier : List Event} :
      e.time ≤ b → state_after (e :: earlier) = .Leader → LeaderFrom b bad (e :: earlier)
  | later {e : Event} {earlier : List Event} :
      e.steps_down = false → bad e = false → LeaderFrom b bad earlier →
        LeaderFrom b bad (e :: earlier)

theorem state_after_cons {e : Event} {earlier : List Event} (he : e.steps_down = false)
    (h : state_after earlier = .Leader) : state_after (e :: earlier) = .Leader := by
  cases e with
  | became t state held => simpa [Event.steps_down, state_after] using he
  | _ => exact h

/-- A leadership goes on for as long as the node does not step down. -/
theorem led_since_cons {e : Event} {earlier : List Event} (h : state_after earlier = .Leader) :
    led_since (e :: earlier) = led_since earlier := by
  cases e with
  | became t state held => exact if_pos h
  | _ => rfl

/-- The events come one after the other. -/
def Ordered (history : List Event) : Prop := history.Pairwise fun e e' => e'.time ≤ e.time

section period
variable {b b' : Instant} {bad : Event → Bool} {history : List Event}

theorem LeaderFrom.state (h : LeaderFrom b bad history) : state_after history = .Leader := by
  induction h with
  | begin _ hstate => exact hstate
  | later he _ _ ih => exact state_after_cons he ih

theorem LeaderFrom.mono (hb : b ≤ b') (h : LeaderFrom b bad history) :
    LeaderFrom b' bad history := by
  induction h with
  | begin ht hstate => exact .begin (Nat.le_trans ht hb) hstate
  | later he hbad _ ih => exact .later he hbad ih

/-- If everything bad happened at or before `b`, the period begins with the last
    of it. -/
theorem LeaderFrom.avoid (h : LeaderFrom b (fun _ => false) history)
    (hbad : ∀ e ∈ history, bad e = true → e.time ≤ b) : LeaderFrom b bad history := by
  induction h with
  | begin ht hstate => exact .begin ht hstate
  | @later e earlier he _ h ih =>
    cases hb : bad e with
    | true => exact .begin (hbad e List.mem_cons_self hb) (state_after_cons he h.state)
    | false =>
      refine .later he hb (ih ?_)
      intro e' he' hb'
      exact hbad e' (List.mem_cons_of_mem _ he') hb'

/-- The leadership was gained no later than the last event. -/
theorem led_since_le {e : Event} (hordered : Ordered (e :: history)) :
    led_since (e :: history) ≤ e.time := by
  induction history generalizing e with
  | nil =>
    cases e with
    | became t state held =>
      unfold led_since
      split
      · exact Nat.zero_le t
      · exact Nat.le_refl t
    | _ => exact Nat.zero_le _
  | cons e' history ih =>
    obtain ⟨hlast, hordered⟩ := List.pairwise_cons.mp hordered
    have hle : led_since (e' :: history) ≤ e.time :=
      Nat.le_trans (ih hordered) (hlast e' List.mem_cons_self)
    cases e with
    | became t state held =>
      unfold led_since
      split
      · exact hle
      · exact Nat.le_refl t
    | _ => exact hle

/-- No period of leadership begins before the leadership was gained. -/
theorem LeaderFrom.led_since_le (h : LeaderFrom b bad history) (hordered : Ordered history) :
    led_since history ≤ b := by
  induction h with
  | begin ht _ => exact Nat.le_trans (Distruct.led_since_le hordered) ht
  | later _ _ h ih =>
    rw [led_since_cons h.state]
    exact ih (List.pairwise_cons.mp hordered).2

end period

/-- `P` holds of every event and the events before it. -/
def Throughout (P : Event → List Event → Prop) : List Event → Prop
  | [] => True
  | e :: before => P e before ∧ Throughout P before

/-! ### The node -/

structure Monitored where
  now : Instant
  state : ServerState
  membership : Membership
  heartbeat_monitor : HeartbeatMonitor
  /-- Whether the detector has been started. -/
  started : Bool
  history : List Event

inductive MonitorMove where
  | advance (t : Instant)
  /-- `perform_raft_action` had a response from node `id`. -/
  | on_heartbeat (id : NodeId)
  /-- `watch_membership_changes` keeps the entries of some nodes. -/
  | retain (ids : Finset NodeId)
  | become (state : ServerState)
  | observe (membership : Membership)

namespace Monitored

/-- Any state and any membership, and a monitor without entries. -/
def init (s : Monitored) : Prop :=
  s.heartbeat_monitor = ∅ ∧ s.started = false ∧ s.history = [.became s.now s.state ∅]

def move (s : Monitored) : MonitorMove → Monitored → Prop
  | .advance t, s' => s.now ≤ t ∧ s' = { s with now := t }
  | .on_heartbeat id, s' =>
      s' = { s with
        heartbeat_monitor := s.heartbeat_monitor.on_heartbeat s.now id
        history := .on_heartbeat s.now id :: s.history }
  | .retain ids, s' =>
      s' = { s with
        heartbeat_monitor := s.heartbeat_monitor.retain (decide <| · ∈ ids)
        history := .retained s.now ids :: s.history }
  | .become state, s' =>
      s' = { s with
        state := state
        history := .became s.now state s.heartbeat_monitor :: s.history }
  | .observe membership, s' => s' = { s with membership := membership }

/-- The detector is started once. -/
def start (s : Monitored) (s' : Monitored) : Prop :=
  s.started = false ∧ s' = { s with started := true, history := .started s.now :: s.history }

/-- The detector goes over the members, if the node is the leader. -/
def check (own_id : NodeId) (s : Monitored) (r : Option Detection) (s' : Monitored) : Prop :=
  let found := check_members s.now own_id s.membership s.heartbeat_monitor
  if s.state = .Leader then
    r = some found.1 ∧ s' = { s with
      heartbeat_monitor := found.2
      history := .checked s.now s.membership found.1 :: s.history }
  else r = none ∧ s' = s

/-- The calls of the detector. Raft may answer in any way. -/
def call (own_id : NodeId) (s : Monitored) : (o : DetectorOp) → o.Resp → Monitored → Prop
  | .changed _, _, s' => s' = s
  | .tick _, _, s' => s' = s
  | .now _, r, s' => r = s.now ∧ s' = s
  | .borrow_metrics _, r, s' => s.check own_id r s'
  | .node (.change_membership ..), _, s' => s' = s
  | .node (.shutdown _), _, s' => s' = { s with history := .force_shutdown s.now :: s.history }
  | .node (.broadcast_shutdown _), _, s' => s' = s
  | _, _, _ => False

end Monitored

/-- The node `own_id` as the site of its failure detector. -/
def monitored (own_id : NodeId) :
    Site Unit Monitored MonitorMove DetectorOp Unit DetectorOp.Resp where
  init := Monitored.init
  env := Monitored.move
  start := fun _ s _ s' => s.start s'
  call := fun _ s o r s' => s.call own_id o r s'

/-- What the detector of node `own_id` runs. -/
def detector (fuel : Nat) (own_id : NodeId) (_ : Unit) (_ : Unit) :
    DetectorProg (Except ProcessExit Unit) :=
  (detect_failures fuel own_id).run

/-! ### What the history says about the state -/

namespace Monitored

variable {own_id : NodeId} {s s' : Monitored}

/-- The history is in the past and accounts for the state of the node. Whoever has
    an entry in the monitor was not reached after it, and under a leader the entry
    was made under the leadership or was there already when it was gained. -/
structure Inv (s : Monitored) : Prop where
  past : ∀ e ∈ s.history, e.time ≤ s.now
  ordered : Ordered s.history
  state : state_after s.history = s.state
  leader : s.state = .Leader → LeaderFrom (led_since s.history) (fun _ => false) s.history
  seen : ∀ id u, s.heartbeat_monitor.lookup id = some u →
    ∀ e ∈ s.history, e.reaches id = true → e.time ≤ u
  entry : s.state = .Leader → ∀ id u, s.heartbeat_monitor.lookup id = some u →
    led_since s.history ≤ u ∨ inherited s.history id = some u
  inherited : s.state = .Leader → ∀ id u, inherited s.history id = some u →
    s.heartbeat_monitor.lookup id = some u

/-- The leadership was gained in the past. -/
theorem Inv.led_since_le_now (h : s.Inv) : led_since s.history ≤ s.now := by
  have hpast := h.past
  have hordered := h.ordered
  generalize s.history = history at hpast hordered
  cases history with
  | nil => exact Nat.zero_le _
  | cons e earlier => exact Nat.le_trans (led_since_le hordered) (hpast e List.mem_cons_self)

theorem Inv.init (h : s.init) : s.Inv := by
  obtain ⟨hmon, _, hhist⟩ := h
  have hled : led_since s.history = s.now := by
    rw [hhist]
    rfl
  refine ⟨?_, ?_, ?_, ?_, ?_, ?_, ?_⟩
  · intro e he
    rw [hhist, List.mem_singleton] at he
    rw [he]
    exact Nat.le_refl _
  · rw [hhist]
    exact List.pairwise_singleton _ _
  · rw [hhist]
    rfl
  · intro hl
    rw [hled, hhist]
    exact .begin (Nat.le_refl _) hl
  · intro id u hu
    rw [hmon] at hu
    cases hu
  · intro _ id u hu
    rw [hmon] at hu
    cases hu
  · intro _ id u hu
    rw [hhist] at hu
    exact hmon ▸ hu

/-- An event of this moment comes after those of the history. -/
theorem Inv.past_cons (h : s.Inv) {e : Event} (ht : e.time = s.now) :
    ∀ e' ∈ e :: s.history, e'.time ≤ s.now := by
  intro e' he'
  rcases List.mem_cons.mp he' with rfl | he'
  · exact Nat.le_of_eq ht
  · exact h.past e' he'

theorem Inv.ordered_cons (h : s.Inv) {e : Event} (ht : e.time = s.now) :
    Ordered (e :: s.history) := by
  refine List.pairwise_cons.mpr ⟨?_, h.ordered⟩
  intro e' he'
  rw [ht]
  exact h.past e' he'

/-- An event that does not change the node's state. An entry is kept or made now;
    what is still inherited is kept. -/
theorem Inv.note (h : s.Inv) (e : Event) (monitor : HeartbeatMonitor) (ht : e.time = s.now)
    (hstate : ∀ t st held, e ≠ .became t st held)
    (hentry : ∀ id u, monitor.lookup id = some u →
      (s.heartbeat_monitor.lookup id = some u ∧ e.reaches id = false ∧
        Distruct.inherited (e :: s.history) id = Distruct.inherited s.history id) ∨ u = s.now)
    (hinherited : ∀ id u, Distruct.inherited (e :: s.history) id = some u →
      Distruct.inherited s.history id = some u ∧
        (s.heartbeat_monitor.lookup id = some u → monitor.lookup id = some u)) :
    Inv { s with heartbeat_monitor := monitor, history := e :: s.history } := by
  have hstep : e.steps_down = false := by
    cases e with
    | became t st held => exact absurd rfl (hstate t st held)
    | _ => rfl
  have hled : led_since (e :: s.history) = led_since s.history := by
    cases e with
    | became t st held => exact absurd rfl (hstate t st held)
    | _ => rfl
  refine ⟨h.past_cons ht, h.ordered_cons ht, ?_, ?_, ?_, ?_, ?_⟩
  · rw [← h.state]
    cases e with
    | became t st held => exact absurd rfl (hstate t st held)
    | _ => rfl
  · intro hl
    rw [hled]
    exact .later hstep rfl (h.leader hl)
  · intro id u hu e' he' hr
    rcases hentry id u hu with ⟨hold, hnot, _⟩ | rfl
    · rcases List.mem_cons.mp he' with rfl | he'
      · rw [hnot] at hr
        cases hr
      · exact h.seen id u hold e' he' hr
    · exact h.past_cons ht e' he'
  · intro hl id u hu
    rw [hled]
    rcases hentry id u hu with ⟨hold, _, hsame⟩ | rfl
    · rw [hsame]
      exact h.entry hl id u hold
    · exact .inl h.led_since_le_now
  · intro hl id u hu
    obtain ⟨hold, hkept⟩ := hinherited id u hu
    exact hkept (h.inherited hl id u hold)

theorem Inv.start (h : s.Inv) (hs : s.start s') : s'.Inv := by
  obtain ⟨_, rfl⟩ := hs
  have hnote := h.note (.started s.now) s.heartbeat_monitor rfl (fun _ _ _ h => by cases h)
    (fun _ _ hu => .inl ⟨hu, rfl, rfl⟩) (fun _ _ hu => ⟨hu, id⟩)
  exact ⟨hnote.past, hnote.ordered, hnote.state, hnote.leader, hnote.seen, hnote.entry,
    hnote.inherited⟩

/-- What a move adds to the history: nothing, or an event that is not one of the
    detector. -/
theorem move_history {m : MonitorMove} (hm : s.move m s') :
    s.now ≤ s'.now ∧ (s'.history = s.history ∨
      ∃ e : Event, e.outside = true ∧ s'.history = e :: s.history) := by
  cases m with
  | advance t =>
    obtain ⟨hle, rfl⟩ := hm
    exact ⟨hle, .inl rfl⟩
  | on_heartbeat id =>
    cases hm
    exact ⟨Nat.le_refl _, .inr ⟨.on_heartbeat s.now id, rfl, rfl⟩⟩
  | retain ids =>
    cases hm
    exact ⟨Nat.le_refl _, .inr ⟨.retained s.now ids, rfl, rfl⟩⟩
  | become state =>
    cases hm
    exact ⟨Nat.le_refl _, .inr ⟨.became s.now state s.heartbeat_monitor, rfl, rfl⟩⟩
  | observe membership =>
    cases hm
    exact ⟨Nat.le_refl _, .inl rfl⟩

theorem Inv.on_heartbeat (h : s.Inv) (id : NodeId) :
    Inv { s with
      heartbeat_monitor := s.heartbeat_monitor.on_heartbeat s.now id
      history := .on_heartbeat s.now id :: s.history } := by
  refine h.note _ _ rfl (fun _ _ _ h => by cases h) ?_ ?_
  · intro id' u hu
    rw [HeartbeatMonitor.on_heartbeat, HashMap.lookup_insert_ite] at hu
    split at hu
    · cases hu
      exact .inr rfl
    · next hne =>
      refine .inl ⟨hu, ?_, if_neg (Ne.symm hne)⟩
      simp [Event.reaches, Ne.symm hne]
  · intro id' u hu
    unfold Distruct.inherited at hu
    split at hu
    · cases hu
    · next hne =>
      -- the entry of another node stays
      refine ⟨hu, fun hold => ?_⟩
      rw [HeartbeatMonitor.on_heartbeat, HashMap.lookup_insert_ite, if_neg (Ne.symm hne)]
      exact hold

theorem Inv.retain (h : s.Inv) (ids : Finset NodeId) :
    Inv { s with
      heartbeat_monitor := s.heartbeat_monitor.retain (decide <| · ∈ ids)
      history := .retained s.now ids :: s.history } := by
  refine h.note _ _ rfl (fun _ _ _ h => by cases h) ?_ ?_
  · intro id u hu
    rw [HeartbeatMonitor.lookup_retain] at hu
    split at hu
    · next hid => exact .inl ⟨hu, rfl, if_pos (of_decide_eq_true hid)⟩
    · cases hu
  · intro id u hu
    unfold Distruct.inherited at hu
    split at hu
    · next hid =>
      refine ⟨hu, fun hold => ?_⟩
      rw [HeartbeatMonitor.lookup_retain, if_pos (decide_eq_true hid)]
      exact hold
    · cases hu

theorem Inv.become (h : s.Inv) (state : ServerState) :
    Inv { s with
      state := state
      history := .became s.now state s.heartbeat_monitor :: s.history } := by
  refine ⟨h.past_cons rfl, h.ordered_cons rfl, rfl, ?_, ?_, ?_, ?_⟩
  · intro hl
    -- a leader that stays the leader has been one all the time
    by_cases hs : s.state = .Leader
    · rw [led_since_cons (h.state.trans hs)]
      refine .later ?_ rfl (h.leader hs)
      simp only [Event.steps_down]
      simpa using hl
    · refine .begin ?_ hl
      unfold led_since
      rw [if_neg (h.state ▸ hs)]
      exact Nat.le_refl _
  · intro id u hu e he hr
    rcases List.mem_cons.mp he with rfl | he
    · cases hr
    · exact h.seen id u hu e he hr
  · intro hl id u hu
    by_cases hs : s.state = .Leader
    · rw [led_since_cons (h.state.trans hs), Distruct.inherited, if_pos (h.state.trans hs)]
      exact h.entry hs id u hu
    · -- all entries are inherited by a new leader
      right
      rw [Distruct.inherited, if_neg (h.state ▸ hs)]
      exact hu
  · intro hl id u hu
    unfold Distruct.inherited at hu
    split at hu
    · next hs => exact h.inherited (h.state ▸ hs) id u hu
    · exact hu

theorem Inv.move (h : s.Inv) {m : MonitorMove} (hm : s.move m s') : s'.Inv := by
  cases m with
  | advance t =>
    obtain ⟨hle, rfl⟩ := hm
    exact ⟨fun e he => Nat.le_trans (h.past e he) hle, h.ordered, h.state, h.leader, h.seen, h.entry,
      h.inherited⟩
  | on_heartbeat id =>
    cases hm
    exact h.on_heartbeat id
  | retain ids =>
    cases hm
    exact h.retain ids
  | become state =>
    cases hm
    exact h.become state
  | observe membership =>
    cases hm
    exact ⟨h.past, h.ordered, h.state, h.leader, h.seen, h.entry, h.inherited⟩

/-- What a call can do: it changes nothing, or the detector goes over the
    members as the leader, or it stops Raft. -/
theorem call_cases {o : DetectorOp} {r : o.Resp} (h : s.call own_id o r s') :
    s' = s ∨
    (s.state = .Leader ∧ (∃ i, o = .borrow_metrics i) ∧
      s' = { s with
        heartbeat_monitor := (check_members s.now own_id s.membership s.heartbeat_monitor).2
        history := .checked s.now s.membership
          (check_members s.now own_id s.membership s.heartbeat_monitor).1 :: s.history }) ∨
    ((∃ i, o = .node (.shutdown i)) ∧
      s' = { s with history := .force_shutdown s.now :: s.history }) := by
  cases o with
  | changed i => exact .inl h
  | tick i => exact .inl h
  | now i => exact .inl h.2
  | borrow_metrics i =>
    have hcheck : s.check own_id r s' := h
    unfold check at hcheck
    split at hcheck
    · next hl => exact .inr (.inl ⟨hl, ⟨i, rfl⟩, hcheck.2⟩)
    · exact .inl hcheck.2
  | node o =>
    cases o with
    | change_membership i members retain => exact .inl h
    | broadcast_shutdown i => exact .inl h
    | shutdown i => exact .inr (.inr ⟨⟨i, rfl⟩, h⟩)
    | _ => exact absurd h id

theorem Inv.call (h : s.Inv) {o : DetectorOp} {r : o.Resp} (hc : s.call own_id o r s') : s'.Inv := by
  rcases call_cases hc with rfl | ⟨_, _, rfl⟩ | ⟨_, rfl⟩
  · exact h
  · refine h.note _ _ rfl (fun _ _ _ h => by cases h) ?_ ?_
    · intro id u hu
      rw [lookup_check_members] at hu
      -- a member that is new to the monitor counts as seen now
      cases hid : s.heartbeat_monitor.lookup id with
      | some v =>
        rw [hid, Option.getD_some, ite_self] at hu
        exact .inl ⟨hu, rfl, rfl⟩
      | none =>
        rw [hid, Option.getD_none] at hu
        split at hu
        · cases hu
          exact .inr rfl
        · cases hu
    · intro id u hu
      refine ⟨hu, fun hold => ?_⟩
      rw [lookup_check_members, hold, Option.getD_some, ite_self]
  · refine h.note _ _ rfl (fun _ _ _ h => by cases h) ?_ (fun _ _ hu => ⟨hu, id⟩)
    intro id u hu
    exact .inl ⟨hu, rfl, rfl⟩

end Monitored

end Distruct
