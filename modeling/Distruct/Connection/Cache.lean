import Distruct.Error
import Distruct.Framework.Workers

/-! # The Connection Cache

    `connection/cache.rs`. Any number of callers run `connect` and
    `force_remove` over one cache, and every connection that is put into it has
    a task of its own that waits until the connection is closed. Connections are
    closed by the peers, the network or their users, at any moment.

    The guard that `DashMap::get` returns is held while the connection is looked
    at, so finding an open connection is one step, and so is removing a closed
    one. What `Client` sees of all this is the call `Op.connect`.
-/

namespace Distruct

open LTS (Site Crew Discipline)

/-- A connection of QUIC: a number that tells it from every other one, and what
    `Endpoint::connect` was called with. The peer has proved that it may use
    this server name. -/
structure QuicConnection where
  id : Nat
  addr : SocketAddr
  server_name : String
  deriving DecidableEq

/-- A connection to the node at the local address. -/
def QuicConnection.to_localhost (id : Nat) : QuicConnection :=
  ⟨id, Node.localhost.addr, Node.localhost.server_name⟩

/-- The callers of the cache, and the task that waits for the end of a
    connection. -/
inductive CacheWorker (ι : Type) where
  | caller (i : ι)
  | cleanup (conn : QuicConnection)
  deriving DecidableEq

inductive CacheOp where
  /-- `connections.get(&host)`, if `close_reason().is_none()` -/
  | get_open (host : SocketAddr)
  /-- `endpoint.connect(addr, server_name)?.await` -/
  | endpoint_connect (addr : SocketAddr) (server_name : String)
  /-- `connections.insert(host, conn)` -/
  | insert (host : SocketAddr) (conn : QuicConnection)
  /-- `tokio::spawn` of the task below -/
  | spawn_cleanup (host : SocketAddr) (conn : QuicConnection)
  /-- `conn.closed().await` -/
  | closed (conn : QuicConnection)
  /-- `connections.remove_if(&host, |_, old| old.close_reason().is_some())` -/
  | remove_if_closed (host : SocketAddr)
  /-- `connections.remove(&host)` -/
  | remove (host : SocketAddr)

@[reducible] def CacheOp.Resp : CacheOp → Type
  | .get_open _ => Option QuicConnection
  | .endpoint_connect .. => Except TransportError QuicConnection
  | _ => Unit

abbrev CacheProg := Prog CacheOp CacheOp.Resp

/-! ### The functions -/

namespace ConnectionCache

def step (o : CacheOp) : CacheProg o.Resp := Prog.perform o

def connect (node : Node) : ExceptT Error CacheProg QuicConnection := do
  match ← step (.get_open node.addr) with
  -- return cached connection
  | some cached => return cached
  | none =>
    -- create new connection
    let host := node.addr
    let result ← ExceptT.mk
      (Except.mapError Error.Transport <$> step (.endpoint_connect node.addr node.server_name))
    step (.insert host result)
    step (.spawn_cleanup host result)
    return result

/-- The task that `connect` spawns. -/
def cleanup (host : SocketAddr) (result : QuicConnection) : CacheProg Unit := do
  -- wait for the connection to close
  step (.closed result)
  step (.remove_if_closed host)

def force_remove (host : SocketAddr) : CacheProg Unit :=
  step (.remove host)

end ConnectionCache

inductive CacheJob where
  | connect (node : Node)
  | force_remove (host : SocketAddr)
  | cleanup (host : SocketAddr) (conn : QuicConnection)

inductive CacheResult where
  | connected (r : Except Error QuicConnection)
  | removed
  | cleaned

/-- What a job runs. -/
def CacheJob.prog : CacheJob → CacheProg CacheResult
  | .connect node => CacheResult.connected <$> (ConnectionCache.connect node).run
  | .force_remove host => (fun _ => .removed) <$> ConnectionCache.force_remove host
  | .cleanup host conn => (fun _ => .cleaned) <$> ConnectionCache.cleanup host conn

/-! ### The shared state -/

/-- How far a connection is on its way to being cleaned up. -/
inductive CleanupPhase where
  /-- It has not been put into the cache. -/
  | none
  /-- It has been put into the cache, and its task is about to be spawned. -/
  | due
  | spawned (host : SocketAddr)
  | begun
  deriving DecidableEq

/-- Where a caller has its connection from. -/
inductive Obtained where
  /-- The cache held it for `host`, and it was open. -/
  | cached (host : SocketAddr) (conn : QuicConnection)
  | established (conn : QuicConnection)

/-- The cache, the connections there have been, and notes about them that no
    program looks at. -/
structure CacheState (ι : Type) where
  connections : HashMap SocketAddr QuicConnection
  /-- Who established a connection. -/
  established : QuicConnection → Option (CacheWorker ι)
  /-- The node that it was established for. -/
  requested : QuicConnection → Option Node
  closed : HashSet QuicConnection
  phase : QuicConnection → CleanupPhase
  /-- The node that a worker connects to. -/
  node : CacheWorker ι → Option Node
  obtained : CacheWorker ι → Option Obtained

namespace CacheState

variable {ι : Type} [DecidableEq ι]

/-- The connection that `connect` finds for `host`. -/
def open_at (s : CacheState ι) (host : SocketAddr) : Option QuicConnection :=
  (s.connections.lookup host).filter fun conn => conn ∉ s.closed

def init (s : CacheState ι) : Prop :=
  s.connections = ∅ ∧ s.closed = ∅ ∧ (∀ conn, s.established conn = none) ∧
    (∀ conn, s.phase conn = .none) ∧ ∀ w, s.obtained w = none

/-- A connection is closed. -/
def close (s : CacheState ι) (conn : QuicConnection) (s' : CacheState ι) : Prop :=
  s.established conn ≠ none ∧ s' = { s with closed := insert conn s.closed }

/-- A caller may do anything at any time; the task of a connection begins once,
    after it has been spawned. -/
def start (w : CacheWorker ι) (s : CacheState ι) (j : CacheJob) (s' : CacheState ι) : Prop :=
  match w, j with
  | .caller _, .connect node =>
      s' = { s with
        node := Function.update s.node w (some node)
        obtained := Function.update s.obtained w none }
  | .caller _, .force_remove _ =>
      s' = { s with
        node := Function.update s.node w none
        obtained := Function.update s.obtained w none }
  | .cleanup conn, .cleanup host conn' =>
      conn' = conn ∧ s.phase conn = .spawned host ∧
        s' = { s with phase := Function.update s.phase conn .begun }
  | _, _ => False

def call (w : CacheWorker ι) (s : CacheState ι) : (o : CacheOp) → o.Resp → CacheState ι → Prop
  | .get_open host, r, s' =>
      r = s.open_at host ∧
        s' = { s with
          obtained := Function.update s.obtained w ((s.open_at host).map (.cached host)) }
  | .endpoint_connect addr server_name, r, s' =>
      match r with
      | .error e => (∃ reason, e = .Connect reason ∨ e = .Connection reason) ∧ s' = s
      | .ok conn =>
          conn.addr = addr ∧ conn.server_name = server_name ∧ s.established conn = none ∧
            s' = { s with
              established := Function.update s.established conn (some w)
              requested := Function.update s.requested conn (s.node w)
              obtained := Function.update s.obtained w (some (.established conn)) }
  | .insert host conn, _, s' =>
      s' = { s with
        connections := s.connections.insert host conn
        phase := Function.update s.phase conn .due }
  | .spawn_cleanup host conn, _, s' =>
      s' = { s with phase := Function.update s.phase conn (.spawned host) }
  | .closed conn, _, s' => conn ∈ s.closed ∧ s' = s
  | .remove_if_closed host, _, s' =>
      s' = { s with
        connections :=
          if (s.connections.lookup host).any fun old => old ∈ s.closed then s.connections.erase host
          else s.connections }
  | .remove host, _, s' => s' = { s with connections := s.connections.erase host }

end CacheState

/-- A connection cache with the callers `ι`. -/
def connection_cache (ι : Type) [DecidableEq ι] :
    Site (CacheWorker ι) (CacheState ι) QuicConnection CacheOp CacheJob CacheOp.Resp where
  init := CacheState.init
  env := CacheState.close
  start := CacheState.start
  call := CacheState.call

/-- All interleavings of callers, of the tasks that clean up, and of closings. -/
def caching (ι : Type) [DecidableEq ι] :
    LTS.System (Crew (CacheWorker ι) (CacheState ι) CacheOp CacheOp.Resp CacheResult)
      (LTS.Move (CacheWorker ι) QuicConnection CacheOp CacheJob) :=
  LTS.crew (connection_cache ι) fun _ j => j.prog

/-! ### The invariant -/

namespace CacheState

variable {ι : Type} {s s' : CacheState ι} {w : CacheWorker ι}

/-- The cache holds the connection, under whatever address. -/
def Cached (s : CacheState ι) (conn : QuicConnection) : Prop :=
  ∃ host, s.connections.lookup host = some conn

/-- A cached connection is at its own address and has a task that is due,
    spawned or begun, and this task looks at the same address. -/
structure Inv (s : CacheState ι) : Prop where
  cached : ∀ host conn, s.connections.lookup host = some conn →
    host = conn.addr ∧ s.phase conn ≠ .none
  fresh : ∀ conn, s.established conn = none → s.phase conn = .none
  spawned : ∀ conn host, s.phase conn = .spawned host → host = conn.addr
  requested : ∀ conn, s.established conn ≠ none →
    s.requested conn = some ⟨conn.addr, conn.server_name⟩

/-- What worker `w` finds unchanged: its own notes, and the connections that it
    has established but not handed over yet. A connection whose task has begun
    is not put into the cache again. -/
structure Rely (w : CacheWorker ι) (s s' : CacheState ι) : Prop where
  node : s'.node w = s.node w
  obtained : s'.obtained w = s.obtained w
  owned : ∀ conn, s.established conn = some w → s'.established conn = some w ∧
    (s.phase conn = .none ∨ s.phase conn = .due → s'.phase conn = s.phase conn)
  begun : ∀ conn, s.phase conn = .begun → s'.phase conn = .begun ∧ (s'.Cached conn → s.Cached conn)
  closed : s.closed ⊆ s'.closed

theorem Rely.refl (w : CacheWorker ι) (s : CacheState ι) : Rely w s s where
  node := rfl
  obtained := rfl
  owned := fun _ h => ⟨h, fun _ => rfl⟩
  begun := fun _ h => ⟨h, id⟩
  closed := Finset.Subset.refl _

theorem Rely.trans {a b c : CacheState ι} (hab : Rely w a b) (hbc : Rely w b c) : Rely w a c where
  node := hbc.node.trans hab.node
  obtained := hbc.obtained.trans hab.obtained
  owned := by
    intro conn hconn
    obtain ⟨hb, hpb⟩ := hab.owned conn hconn
    obtain ⟨hc, hpc⟩ := hbc.owned conn hb
    refine ⟨hc, ?_⟩
    intro hp
    rw [hpc (by rw [hpb hp]; exact hp), hpb hp]
  begun := by
    intro conn hconn
    obtain ⟨hb, hcb⟩ := hab.begun conn hconn
    obtain ⟨hc, hcc⟩ := hbc.begun conn hb
    exact ⟨hc, fun h => hcb (hcc h)⟩
  closed := hab.closed.trans hbc.closed

/-- What worker `w` knows when it is about to make a call. The task of a
    connection only waits and removes. -/
def Can (w : CacheWorker ι) (s : CacheState ι) (o : CacheOp) : Prop :=
  match w, o with
  | _, .closed _ => True
  | _, .remove_if_closed _ => True
  | .cleanup _, _ => False
  | .caller _, .endpoint_connect addr server_name => s.node w = some ⟨addr, server_name⟩
  | .caller _, .insert host conn =>
      host = conn.addr ∧ s.established conn = some w ∧ s.phase conn = .none
  | .caller _, .spawn_cleanup host conn =>
      host = conn.addr ∧ s.established conn = some w ∧ s.phase conn = .due
  | .caller _, _ => True

/-! ### One lemma for each way in which the state changes -/

section changes
variable {j : CacheWorker ι} {host : SocketAddr} {conn : QuicConnection}

/-- Connections are taken out of the cache. -/
theorem Inv.shrink (h : s.Inv) {m : HashMap SocketAddr QuicConnection}
    (hm : ∀ host conn, m.lookup host = some conn → s.connections.lookup host = some conn) :
    Inv { s with connections := m } where
  cached := fun host conn hc => h.cached host conn (hm host conn hc)
  fresh := h.fresh
  spawned := h.spawned
  requested := h.requested

theorem Rely.shrink {m : HashMap SocketAddr QuicConnection}
    (hm : ∀ host conn, m.lookup host = some conn → s.connections.lookup host = some conn) :
    Rely j s { s with connections := m } where
  node := rfl
  obtained := rfl
  owned := fun _ h => ⟨h, fun _ => rfl⟩
  begun := by
    intro conn h
    refine ⟨h, ?_⟩
    intro hc
    obtain ⟨host, hhost⟩ := hc
    exact ⟨host, hm host conn hhost⟩
  closed := Finset.Subset.refl _

theorem lookup_of_erase {m : HashMap SocketAddr QuicConnection} {host' : SocketAddr}
    (h : (m.erase host).lookup host' = some conn) : m.lookup host' = some conn := by
  rw [HashMap.lookup_erase_ite] at h
  split at h
  · cases h
  · exact h

/-- A connection whose task is due is put into the cache. -/
theorem Inv.insert (h : s.Inv) (hconn : s.phase conn ≠ .none) :
    Inv { s with connections := s.connections.insert conn.addr conn } where
  cached := by
    intro host conn' hc
    rw [HashMap.lookup_insert_ite] at hc
    split at hc
    · next heq =>
      cases hc
      exact ⟨heq, hconn⟩
    · exact h.cached host conn' hc
  fresh := h.fresh
  spawned := h.spawned
  requested := h.requested

theorem Rely.insert (hconn : s.phase conn ≠ .begun) :
    Rely j s { s with connections := s.connections.insert host conn } where
  node := rfl
  obtained := rfl
  owned := fun _ h => ⟨h, fun _ => rfl⟩
  begun := by
    intro conn' hbegun
    refine ⟨hbegun, ?_⟩
    intro hc
    obtain ⟨host', hhost⟩ := hc
    rw [HashMap.lookup_insert_ite] at hhost
    split at hhost
    · cases hhost
      exact absurd hbegun hconn
    · exact ⟨host', hhost⟩
  closed := Finset.Subset.refl _

/-- The task of an established connection makes progress. -/
theorem Inv.advance (h : s.Inv) (hconn : s.established conn ≠ none) {p : CleanupPhase}
    (hp : p ≠ .none) (hhost : ∀ host, p = .spawned host → host = conn.addr) :
    Inv { s with phase := Function.update s.phase conn p } where
  cached := by
    intro host conn' hc
    refine ⟨(h.cached host conn' hc).1, ?_⟩
    by_cases heq : conn' = conn
    · rw [heq]
      simpa using hp
    · simpa [Function.update_of_ne heq] using (h.cached host conn' hc).2
  fresh := by
    intro conn' hnone
    have hne : conn' ≠ conn := by
      intro heq
      rw [heq] at hnone
      exact hconn hnone
    simpa [Function.update_of_ne hne] using h.fresh conn' hnone
  spawned := by
    intro conn' host hspawned
    by_cases heq : conn' = conn
    · rw [heq] at hspawned ⊢
      exact hhost host (by simpa using hspawned)
    · exact h.spawned conn' host (by simpa [Function.update_of_ne heq] using hspawned)
  requested := h.requested

/-- Whoever has handed the connection over, or never had it, does not mind. -/
theorem Rely.advance {p : CleanupPhase} (hbegun : s.phase conn ≠ .begun)
    (howned : s.established conn ≠ some j ∨ ∃ host, s.phase conn = .spawned host) :
    Rely j s { s with phase := Function.update s.phase conn p } where
  node := rfl
  obtained := rfl
  owned := by
    intro conn' hconn'
    refine ⟨hconn', ?_⟩
    intro hp
    have hne : conn' ≠ conn := by
      intro heq
      rw [heq] at hconn' hp
      rcases howned with hother | ⟨host, hspawned⟩
      · exact hother hconn'
      · rw [hspawned] at hp
        simp at hp
    simp [Function.update_of_ne hne]
  begun := by
    intro conn' hb
    have hne : conn' ≠ conn := by
      intro heq
      rw [heq] at hb
      exact hbegun hb
    exact ⟨by simpa [Function.update_of_ne hne] using hb, id⟩
  closed := Finset.Subset.refl _

/-- A new connection. -/
theorem Inv.establish [DecidableEq ι] (h : s.Inv) (hfresh : s.established conn = none)
    (hnode : s.node w = some ⟨conn.addr, conn.server_name⟩)
    (obtained : CacheWorker ι → Option Obtained) :
    Inv { s with
      established := Function.update s.established conn (some w)
      requested := Function.update s.requested conn (s.node w)
      obtained := obtained } where
  cached := h.cached
  fresh := by
    intro conn' hnone
    by_cases heq : conn' = conn
    · rw [heq]
      exact h.fresh conn hfresh
    · exact h.fresh conn' (by simpa [Function.update_of_ne heq] using hnone)
  spawned := h.spawned
  requested := by
    intro conn' hsome
    by_cases heq : conn' = conn
    · rw [heq]
      simpa using hnode
    · simpa [Function.update_of_ne heq] using
        h.requested conn' (by simpa [Function.update_of_ne heq] using hsome)

theorem Rely.establish [DecidableEq ι] (hj : j ≠ w) (hfresh : s.established conn = none)
    (source : Option Obtained) :
    Rely j s { s with
      established := Function.update s.established conn (some w)
      requested := Function.update s.requested conn (s.node w)
      obtained := Function.update s.obtained w source } where
  node := rfl
  obtained := by simp [Function.update_of_ne hj]
  owned := by
    intro conn' hconn'
    have hne : conn' ≠ conn := by
      intro heq
      rw [heq, hfresh] at hconn'
      cases hconn'
    exact ⟨by simpa [Function.update_of_ne hne] using hconn', fun _ => rfl⟩
  begun := fun _ hb => ⟨hb, id⟩
  closed := Finset.Subset.refl _

/-- Notes of one worker are no other worker's business. -/
theorem Rely.note [DecidableEq ι] (hj : j ≠ w) (node : Option Node) (source : Option Obtained) :
    Rely j s { s with
      node := Function.update s.node w node
      obtained := Function.update s.obtained w source } where
  node := by simp [Function.update_of_ne hj]
  obtained := by simp [Function.update_of_ne hj]
  owned := fun _ h => ⟨h, fun _ => rfl⟩
  begun := fun _ hb => ⟨hb, id⟩
  closed := Finset.Subset.refl _

end changes

/-! ### The moves keep the invariant -/

theorem Inv.init (h : s.init) : s.Inv := by
  obtain ⟨hempty, _, hfresh, hphase, _⟩ := h
  refine ⟨?_, fun conn _ => hphase conn, ?_, fun conn hconn => absurd (hfresh conn) hconn⟩
  · intro host conn hc
    rw [hempty] at hc
    simp at hc
  · intro conn host hspawned
    rw [hphase conn] at hspawned
    cases hspawned

theorem close_ok {conn : QuicConnection} (h : s.Inv) (hs : s.close conn s') :
    s'.Inv ∧ ∀ j, Rely j s s' := by
  obtain ⟨_, rfl⟩ := hs
  refine ⟨⟨h.cached, h.fresh, h.spawned, h.requested⟩, ?_⟩
  intro j
  exact ⟨rfl, rfl, fun _ h => ⟨h, fun _ => rfl⟩, fun _ hb => ⟨hb, id⟩, Finset.subset_insert conn _⟩

section moves
variable [DecidableEq ι]

theorem start_ok {j : CacheJob} (h : s.Inv) (hs : start w s j s') :
    s'.Inv ∧ ∀ k, k ≠ w → Rely k s s' := by
  unfold start at hs
  split at hs
  · subst hs
    exact ⟨⟨h.cached, h.fresh, h.spawned, h.requested⟩, fun k hk => .note hk _ _⟩
  · subst hs
    exact ⟨⟨h.cached, h.fresh, h.spawned, h.requested⟩, fun k hk => .note hk _ _⟩
  · next conn host conn' =>
    obtain ⟨_, hspawned, rfl⟩ := hs
    -- a connection whose task has been spawned has been established
    have hest : s.established conn ≠ none := by
      intro hnone
      rw [h.fresh conn hnone] at hspawned
      cases hspawned
    refine ⟨h.advance hest (by simp) (by simp), ?_⟩
    intro k _
    exact .advance (by rw [hspawned]; simp) (.inr ⟨host, hspawned⟩)
  · exact hs.elim

/-- What worker `w` may do keeps the invariant and what the others rely on. -/
theorem call_ok {o : CacheOp} {r : o.Resp} (h : s.Inv) (hcan : Can w s o) (hs : call w s o r s') :
    s'.Inv ∧ ∀ j, j ≠ w → Rely j s s' := by
  cases o with
  | get_open host =>
    obtain ⟨_, rfl⟩ := hs
    refine ⟨⟨h.cached, h.fresh, h.spawned, h.requested⟩, ?_⟩
    intro j hj
    simpa using Rely.note (s := s) hj (s.node w) ((s.open_at host).map (.cached host))
  | endpoint_connect addr server_name =>
    cases r with
    | error e =>
      obtain ⟨_, rfl⟩ := hs
      exact ⟨h, fun j _ => .refl j s'⟩
    | ok conn =>
      obtain ⟨rfl, rfl, hfresh, rfl⟩ := hs
      have hnode : s.node w = some ⟨conn.addr, conn.server_name⟩ := by
        cases w with
        | caller i => exact hcan
        | cleanup conn => exact hcan.elim
      exact ⟨h.establish hfresh hnode _, fun j hj => .establish hj hfresh _⟩
  | insert host conn =>
    cases hs
    obtain ⟨rfl, hest, hphase⟩ : host = conn.addr ∧ s.established conn = some w ∧
        s.phase conn = .none := by
      cases w with
      | caller i => exact hcan
      | cleanup conn => exact hcan.elim
    constructor
    · -- the task is due by the time the connection is found in the cache
      have hdue : Inv { s with phase := Function.update s.phase conn .due } :=
        h.advance (by simp [hest]) (by simp) (by simp)
      exact hdue.insert (by simp)
    · intro j hj
      have hins : Rely j s { s with connections := s.connections.insert conn.addr conn } :=
        .insert (by simp [hphase])
      exact hins.trans (.advance (by simp [hphase]) (.inl (by simpa [hest] using hj.symm)))
  | spawn_cleanup host conn =>
    cases hs
    obtain ⟨rfl, hest, hphase⟩ : host = conn.addr ∧ s.established conn = some w ∧
        s.phase conn = .due := by
      cases w with
      | caller i => exact hcan
      | cleanup conn => exact hcan.elim
    refine ⟨h.advance (by simp [hest]) (by simp) (by simp [eq_comm]), ?_⟩
    intro j hj
    exact .advance (by simp [hphase]) (.inl (by simpa [hest] using hj.symm))
  | closed conn =>
    obtain ⟨_, rfl⟩ := hs
    exact ⟨h, fun j _ => .refl j s'⟩
  | remove_if_closed host =>
    cases hs
    have hshrink : ∀ host' conn,
        Finmap.lookup host' (if (s.connections.lookup host).any fun old => old ∈ s.closed
          then s.connections.erase host else s.connections) = some conn →
        s.connections.lookup host' = some conn := by
      intro host' conn hc
      split at hc
      · exact lookup_of_erase hc
      · exact hc
    exact ⟨h.shrink hshrink, fun j _ => .shrink hshrink⟩
  | remove host =>
    cases hs
    exact ⟨h.shrink fun _ _ => lookup_of_erase, fun j _ => .shrink fun _ _ => lookup_of_erase⟩

end moves

end CacheState

open CacheState (Rely Can)

/-- How the workers of a cache get along. -/
def cache_discipline (ι : Type) [DecidableEq ι] : Discipline (connection_cache ι) where
  inv := CacheState.Inv
  rel := Rely
  can := Can
  idle := fun _ _ => True
  refl := .refl
  trans := .trans
  idle_stable := fun _ _ => trivial
  init_ok := fun h => ⟨.init h, fun _ => trivial⟩
  env_ok := CacheState.close_ok

namespace ConnectionCache

variable {ι : Type} [DecidableEq ι] {w : CacheWorker ι} {s : CacheState ι} {α : Type}

/-- The rule for a call: it is enough to say what comes after it. -/
theorem wp_call {Q : α → CacheState ι → Prop} {o : CacheOp} {k : o.Resp → CacheProg α}
    (hcan : ∀ s', s'.Inv → Rely w s s' → Can w s' o)
    (hnext : ∀ s', s'.Inv → Rely w s s' → ∀ r s'', CacheState.call w s' o r s'' → s''.Inv →
      (cache_discipline ι).wp w Q (k r) s'') :
    (cache_discipline ι).wp w Q (.call o k) s := by
  intro s' hi hr
  refine ⟨hcan s' hi hr, ?_⟩
  intro r s'' hs
  obtain ⟨hi', hr'⟩ := CacheState.call_ok hi (hcan s' hi hr) hs
  exact ⟨hi', hr', hnext s' hi hr r s'' hs hi'⟩

/-- The worker has the connection for the node it connects to: the cache held it
    for the node's address, or it is new and was established for the node. -/
def Provided (w : CacheWorker ι) (conn : QuicConnection) (s : CacheState ι) : Prop :=
  ∃ node, s.node w = some node ∧
    (s.obtained w = some (.cached node.addr conn) ∨
      s.obtained w = some (.established conn) ∧ conn.addr = node.addr ∧
        conn.server_name = node.server_name)

/-- What is known when a worker returns. -/
def Post : CacheWorker ι → CacheResult → CacheState ι → Prop
  | w, .connected (.ok conn), s => Provided w conn s
  | .cleanup conn, .cleaned, s => s.phase conn = .begun ∧ ¬ s.Cached conn
  | _, _, _ => True

omit [DecidableEq ι] in
theorem Provided.stable {conn : QuicConnection} {s' : CacheState ι} (hr : Rely w s s')
    (h : Provided w conn s) : Provided w conn s' := by
  unfold Provided at h ⊢
  rw [hr.node, hr.obtained]
  exact h

/-- A connection that its caller has not handed over yet. -/
structure Holds (w : CacheWorker ι) (conn : QuicConnection) (p : CleanupPhase) (s : CacheState ι) :
    Prop where
  established : s.established conn = some w
  phase : s.phase conn = p
  provided : Provided w conn s

omit [DecidableEq ι] in
theorem Holds.stable {conn : QuicConnection} {p : CleanupPhase} {s' : CacheState ι}
    (hp : p = .none ∨ p = .due) (hr : Rely w s s') (h : Holds w conn p s) : Holds w conn p s' := by
  obtain ⟨hest, hphase⟩ := hr.owned conn h.established
  refine ⟨hest, ?_, h.provided.stable hr⟩
  rw [hphase (by rw [h.phase]; exact hp), h.phase]

/-- The last steps of `connect`, for a connection that is new. -/
theorem wp_hand_over {i : ι} {conn : QuicConnection} (h : Holds (.caller i) conn .none s) :
    (cache_discipline ι).wp (.caller i) (Post (.caller i))
      (.call (.insert conn.addr conn) fun _ => .call (.spawn_cleanup conn.addr conn) fun _ =>
        .pure (.connected (.ok conn))) s := by
  refine wp_call ?_ ?_
  · intro s' _ hr
    have h' := h.stable (.inl rfl) hr
    exact ⟨rfl, h'.established, h'.phase⟩
  intro s₁ _ hr₁ _ s₂ hs₂ _
  cases hs₂
  have h₁ := h.stable (.inl rfl) hr₁
  have h₂ : Holds (.caller i) conn .due
      { s₁ with
        connections := s₁.connections.insert conn.addr conn
        phase := Function.update s₁.phase conn .due } :=
    ⟨h₁.established, by simp, h₁.provided⟩
  refine wp_call ?_ ?_
  · intro s' _ hr
    have h' := h₂.stable (.inr rfl) hr
    exact ⟨rfl, h'.established, h'.phase⟩
  intro s₃ _ hr₃ _ s₄ hs₄ _
  cases hs₄
  -- from here on the connection belongs to its task
  have h₃ := h₂.stable (.inr rfl) hr₃
  intro s' _ hr
  exact Provided.stable hr h₃.provided

theorem wp_connect {i : ι} {node : Node} (hnode : s.node (.caller i) = some node) :
    (cache_discipline ι).wp (.caller i) (Post (.caller i)) (CacheJob.connect node).prog s := by
  refine wp_call (fun _ _ _ => trivial) ?_
  intro s₁ _ hr₁ r s₂ hs₂ _
  obtain ⟨rfl, rfl⟩ := hs₂
  have hnode₁ : s₁.node (.caller i) = some node := hr₁.node.trans hnode
  cases hopen : s₁.open_at node.addr with
  | some cached =>
    intro s' _ hr
    exact Provided.stable hr ⟨node, hnode₁, .inl (by simp)⟩
  | none =>
    refine wp_call (fun s' _ hr => hr.node.trans hnode₁) ?_
    intro s₃ hi₃ hr₃ r s₄ hs₄ _
    have hnode₃ : s₃.node (.caller i) = some node := hr₃.node.trans hnode₁
    cases r with
    | error e =>
      intro s' _ _
      trivial
    | ok conn =>
      obtain ⟨haddr, hname, hfresh, rfl⟩ := hs₄
      have hholds : Holds (.caller i) conn .none
          { s₃ with
            established := Function.update s₃.established conn (some (.caller i))
            requested := Function.update s₃.requested conn (s₃.node (.caller i))
            obtained := Function.update s₃.obtained (.caller i) (some (.established conn)) } := by
        refine ⟨by simp, hi₃.fresh conn hfresh, node, hnode₃, .inr ?_⟩
        exact ⟨by simp, haddr, hname⟩
      have hwp := wp_hand_over hholds
      rw [haddr] at hwp
      exact hwp

/-- The task of a connection leaves no trace of it in the cache. -/
theorem wp_cleanup {conn : QuicConnection} (hbegun : s.phase conn = .begun) :
    (cache_discipline ι).wp (.cleanup conn) (Post (.cleanup conn))
      (CacheJob.cleanup conn.addr conn).prog s := by
  refine wp_call (fun _ _ _ => trivial) ?_
  intro s₁ _ hr₁ _ s₂ hs₂ _
  obtain ⟨hclosed, rfl⟩ := hs₂
  have hbegun₁ := (hr₁.begun conn hbegun).1
  refine wp_call (fun _ _ _ => trivial) ?_
  intro s₃ hi₃ hr₃ _ s₄ hs₄ _
  cases hs₄
  have hbegun₃ := (hr₃.begun conn hbegun₁).1
  have hclosed₃ : conn ∈ s₃.closed := hr₃.closed hclosed
  intro s' _ hr
  refine ⟨(hr.begun conn hbegun₃).1, ?_⟩
  intro hcached
  -- the task would have removed it
  obtain ⟨host, hhost⟩ := (hr.begun conn hbegun₃).2 hcached
  dsimp only at hhost
  split at hhost
  · have hbefore := CacheState.lookup_of_erase hhost
    rw [(hi₃.cached host conn hbefore).1, Finmap.lookup_erase] at hhost
    cases hhost
  · next hopen =>
    rw [(hi₃.cached host conn hhost).1] at hhost
    simp [hhost, hclosed₃] at hopen

/-- What holds in every run of a cache. -/
theorem caching_sound {c : Crew (CacheWorker ι) (CacheState ι) CacheOp CacheOp.Resp CacheResult}
    (hc : (caching ι).Reachable c) : Discipline.CrewInv (cache_discipline ι) Post c := by
  refine Discipline.crew_sound _ Post (fun _ _ _ _ _ => trivial) ?_ hc
  intro w j s s' hi _ hs
  obtain ⟨hi', hr'⟩ := CacheState.start_ok hi hs
  refine ⟨hi', hr', ?_⟩
  match w, j, hs with
  | .caller i, .connect node, hs =>
    cases hs
    exact wp_connect (by simp)
  | .caller i, .force_remove host, hs =>
    exact wp_call (fun _ _ _ => trivial) fun _ _ _ _ _ _ _ _ _ _ => trivial
  | .cleanup conn, .cleanup host _, ⟨rfl, hspawned, hs⟩ =>
    cases hs
    rw [hi.spawned _ host hspawned]
    exact wp_cleanup (by simp)

/-! ### Single calls of `connect` -/

section runs
variable {ok : CacheWorker ι → CacheState ι → CacheOp → Prop}
  {c : Crew (CacheWorker ι) (CacheState ι) CacheOp CacheOp.Resp CacheResult} {i : ι}
  {conn : QuicConnection}

/-- The runs whose calls all meet a condition on the state before them. -/
def caching_where (ok : CacheWorker ι → CacheState ι → CacheOp → Prop) :
    LTS.System (Crew (CacheWorker ι) (CacheState ι) CacheOp CacheOp.Resp CacheResult)
      (LTS.Move (CacheWorker ι) QuicConnection CacheOp CacheJob) :=
  LTS.crew ((connection_cache ι).restrict (fun _ _ => True) ok) fun _ j => j.prog

/-- The state after a caller has connected to a node for which the cache held no
    open connection. -/
structure NewlyConnected (i : ι) (conn : QuicConnection) (s s' : CacheState ι) : Prop where
  connections : s'.connections = s.connections.insert conn.addr conn
  closed : s'.closed = s.closed
  established : s'.established = Function.update s.established conn (some (.caller i))
  requested : s'.requested conn = some ⟨conn.addr, conn.server_name⟩
  phase : s'.phase = Function.update s.phase conn (.spawned conn.addr)

omit [DecidableEq ι] in
theorem NewlyConnected.open_at {s s' : CacheState ι} (h : NewlyConnected i conn s s')
    (hopen : conn ∉ s.closed) : s'.open_at conn.addr = some conn := by
  simp [CacheState.open_at, h.connections, h.closed, hopen]

/-- `connect` runs to its end without interference and establishes `conn`. -/
theorem connect_new (i : ι) (conn : QuicConnection)
    (hok : ∀ w s o, (∀ host, o = .get_open host → s.open_at host = none) → ok w s o)
    (hc : (caching_where ok).Reachable c) (hfree : LTS.Free (c.worker (.caller i)))
    (hopen : c.shared.open_at conn.addr = none) (hfresh : c.shared.established conn = none) :
    ∃ c', (caching_where ok).Reachable c' ∧
      c'.worker = Function.update c.worker (.caller i) (some (.pure (.connected (.ok conn)))) ∧
      NewlyConnected i conn c.shared c'.shared := by
  have h₁ := Crew.start hc (.caller i) (.connect ⟨conn.addr, conn.server_name⟩) hfree rfl
  have h₂ := Crew.call h₁ (.caller i) (o := .get_open conn.addr) none
    (Function.update_self _ _ _) ⟨hok _ _ _ (by rintro _ ⟨⟩; exact hopen), hopen.symm, rfl⟩
  have h₃ := Crew.call h₂ (.caller i) (o := .endpoint_connect conn.addr conn.server_name)
    (.ok conn) (Function.update_self _ _ _) ⟨hok _ _ _ (by simp), rfl, rfl, hfresh, rfl⟩
  have h₄ := Crew.call h₃ (.caller i) (o := .insert conn.addr conn) ()
    (Function.update_self _ _ _) ⟨hok _ _ _ (by simp), rfl⟩
  have h₅ := Crew.call h₄ (.caller i) (o := .spawn_cleanup conn.addr conn) ()
    (Function.update_self _ _ _) ⟨hok _ _ _ (by simp), rfl⟩
  refine ⟨_, h₅, ?_, ?_⟩
  · simp only [Function.update_idem]
    rfl
  · exact ⟨rfl, rfl, rfl, by simp, by simp only [Function.update_idem]⟩

/-- `connect` returns the open connection that it finds. -/
theorem connect_cached (node : Node) (hc : (caching_where ok).Reachable c)
    (hfree : LTS.Free (c.worker (.caller i)))
    (hget : ok (.caller i)
      { c.shared with
        node := Function.update c.shared.node (.caller i) (some node)
        obtained := Function.update c.shared.obtained (.caller i) none } (.get_open node.addr))
    (hopen : c.shared.open_at node.addr = some conn) :
    ∃ c', (caching_where ok).Reachable c' ∧
      c'.worker (.caller i) = some (.pure (.connected (.ok conn))) ∧
      c'.shared.node (.caller i) = some node ∧
      c'.shared.obtained (.caller i) = some (.cached node.addr conn) := by
  have h₁ := Crew.start hc (.caller i) (.connect node) hfree rfl
  have h₂ := Crew.call h₁ (.caller i) (o := .get_open node.addr) (some conn)
    (Function.update_self _ _ _) ⟨hget, hopen.symm, rfl⟩
  refine ⟨_, h₂, by simp; rfl, by simp, ?_⟩
  simp only [Function.update_self]
  show (c.shared.open_at node.addr).map (Obtained.cached node.addr) = _
  rw [hopen]
  rfl

/-- The task of a closed connection runs to its end without interference. -/
theorem cleanup_closed
    (hok : ∀ w s o, (∀ host, o = .get_open host → s.open_at host = none) → ok w s o)
    (hc : (caching_where ok).Reachable c) (hfree : LTS.Free (c.worker (.cleanup conn)))
    {host : SocketAddr} (hspawned : c.shared.phase conn = .spawned host)
    (hclosed : conn ∈ c.shared.closed) :
    ∃ c', (caching_where ok).Reachable c' ∧
      c'.worker = Function.update c.worker (.cleanup conn) (some (.pure .cleaned)) ∧
      c'.shared.closed = c.shared.closed := by
  have h₁ := Crew.start hc (.cleanup conn) (.cleanup host conn) hfree ⟨rfl, hspawned, rfl⟩
  have h₂ := Crew.call h₁ (.cleanup conn) (o := .closed conn) ()
    (Function.update_self _ _ _) ⟨hok _ _ _ (by simp), hclosed, rfl⟩
  have h₃ := Crew.call h₂ (.cleanup conn) (o := .remove_if_closed host) ()
    (Function.update_self _ _ _) ⟨hok _ _ _ (by simp), rfl⟩
  refine ⟨_, h₃, ?_, rfl⟩
  simp only [Function.update_idem]
  rfl

end runs

/-! ### Hygiene -/

/-- In a step, the note of a worker about its connection stays, or is made when
    it is true: the cache holds the connection, and it is open, or the worker
    establishes it. -/
structure NotesTruly (s s' : CacheState ι) : Prop where
  cached : ∀ w host conn, s'.obtained w = some (.cached host conn) →
    s.obtained w = some (.cached host conn) ∨
      s.connections.lookup host = some conn ∧ conn ∉ s.closed
  established : ∀ w conn, s'.obtained w = some (.established conn) →
    s.obtained w = some (.established conn) ∨
      s.established conn = none ∧ s'.established conn = some w

section notes
variable {s s' : CacheState ι} {w : CacheWorker ι}

omit [DecidableEq ι] in
theorem NotesTruly.of_same (h : s'.obtained = s.obtained) : NotesTruly s s' where
  cached := fun w host conn hw => .inl (by rw [← h]; exact hw)
  established := fun w conn hw => .inl (by rw [← h]; exact hw)

/-- One worker makes a note. -/
theorem NotesTruly.of_update {source : Option Obtained}
    (h : s'.obtained = Function.update s.obtained w source)
    (hcached : ∀ host conn, source = some (.cached host conn) →
      s.connections.lookup host = some conn ∧ conn ∉ s.closed)
    (hestablished : ∀ conn, source = some (.established conn) →
      s.established conn = none ∧ s'.established conn = some w) : NotesTruly s s' where
  cached := by
    intro w' host conn hw'
    rw [h] at hw'
    by_cases heq : w' = w
    · rw [heq, Function.update_self] at hw'
      exact .inr (hcached host conn hw')
    · rw [Function.update_of_ne heq] at hw'
      exact .inl hw'
  established := by
    intro w' conn hw'
    rw [h] at hw'
    by_cases heq : w' = w
    · rw [heq, Function.update_self] at hw'
      rw [heq]
      exact .inr (hestablished conn hw')
    · rw [Function.update_of_ne heq] at hw'
      exact .inl hw'

theorem NotesTruly.start {j : CacheJob} (hs : CacheState.start w s j s') : NotesTruly s s' := by
  unfold CacheState.start at hs
  split at hs
  · subst hs
    exact .of_update rfl (by simp) (by simp)
  · subst hs
    exact .of_update rfl (by simp) (by simp)
  · obtain ⟨_, _, rfl⟩ := hs
    exact .of_same rfl
  · exact hs.elim

theorem NotesTruly.call {o : CacheOp} {r : o.Resp} (hs : CacheState.call w s o r s') :
    NotesTruly s s' := by
  cases o with
  | get_open host =>
    obtain ⟨_, rfl⟩ := hs
    refine .of_update rfl ?_ (by simp)
    intro host' conn hsource
    obtain ⟨conn', hopen, heq⟩ := Option.map_eq_some_iff.mp hsource
    cases heq
    have hfound := Option.filter_eq_some_iff.mp hopen
    exact ⟨hfound.1, by simpa using hfound.2⟩
  | endpoint_connect addr server_name =>
    cases r with
    | error e =>
      obtain ⟨_, rfl⟩ := hs
      exact .of_same rfl
    | ok conn =>
      obtain ⟨_, _, hfresh, rfl⟩ := hs
      refine .of_update rfl (by simp) ?_
      intro conn' hsource
      cases hsource
      exact ⟨hfresh, by simp⟩
  | insert host conn =>
    cases hs
    exact .of_same rfl
  | spawn_cleanup host conn =>
    cases hs
    exact .of_same rfl
  | closed conn =>
    obtain ⟨_, rfl⟩ := hs
    exact .of_same rfl
  | remove_if_closed host =>
    cases hs
    exact .of_same rfl
  | remove host =>
    cases hs
    exact .of_same rfl

theorem NotesTruly.step {c c' : Crew (CacheWorker ι) (CacheState ι) CacheOp CacheOp.Resp CacheResult}
    {m : LTS.Move (CacheWorker ι) QuicConnection CacheOp CacheJob} (h : (caching ι).step c m c') :
    NotesTruly c.shared c'.shared := by
  cases m with
  | env conn =>
    obtain ⟨s', ⟨_, rfl⟩, rfl⟩ := h
    exact .of_same rfl
  | start w j =>
    obtain ⟨s', _, hs, rfl⟩ := h
    exact .start hs
  | call w o =>
    obtain ⟨k, r, s', _, hs, rfl⟩ := h
    exact .call hs

/-- A caller starts without a note. -/
theorem obtained_of_start {c c' : Crew (CacheWorker ι) (CacheState ι) CacheOp CacheOp.Resp CacheResult}
    {i : ι} {j : CacheJob} (h : (caching ι).step c (.start (.caller i) j) c') :
    c'.shared.obtained (.caller i) = none := by
  obtain ⟨s', _, hs, rfl⟩ := h
  cases j with
  | connect node =>
    cases hs
    exact Function.update_self _ _ _
  | force_remove host =>
    cases hs
    exact Function.update_self _ _ _
  | cleanup host conn => exact hs.elim

end notes

/-- **Connection cache hygiene.** In every run, a step of a connection's task
    keeps every open connection in the cache; when the task of every closed
    connection that was put into the cache has finished, the cache holds open
    connections only; and what `connect` returned was in the cache for the
    node's address and open when it was looked at, or has just been established
    to that address: the caller has noted so, its notes are true when they are
    made, and every call starts without one. -/
theorem connection_cache_hygiene
    {c : Crew (CacheWorker ι) (CacheState ι) CacheOp CacheOp.Resp CacheResult}
    (hc : (caching ι).Reachable c) :
    (∀ conn o c', (caching ι).step c (.call (.cleanup conn) o) c' →
      ∀ host cached, c.shared.connections.lookup host = some cached → cached ∉ c.shared.closed →
        c'.shared.connections.lookup host = some cached) ∧
    ((∀ conn ∈ c.shared.closed,
        c.shared.phase conn = .none ∨ c.worker (.cleanup conn) = some (.pure .cleaned)) →
      ∀ host cached, c.shared.connections.lookup host = some cached → cached ∉ c.shared.closed) ∧
    (∀ i conn, c.worker (.caller i) = some (.pure (.connected (.ok conn))) →
      ∃ node, c.shared.node (.caller i) = some node ∧
        (c.shared.obtained (.caller i) = some (.cached node.addr conn) ∨
          c.shared.obtained (.caller i) = some (.established conn) ∧ conn.addr = node.addr)) ∧
    (∀ m c', (caching ι).step c m c' → NotesTruly c.shared c'.shared) ∧
    ∀ i j c', (caching ι).step c (.start (.caller i) j) c' → c'.shared.obtained (.caller i) = none := by
  have hsound := caching_sound hc
  refine ⟨?_, ?_, ?_, fun _ _ => NotesTruly.step, fun _ _ _ => obtained_of_start⟩
  · intro conn o c' hstep host cached hcached hopen
    obtain ⟨k, r, s', hw, hs, rfl⟩ := hstep
    have hcan : Can (.cleanup conn) c.shared o := hsound.can hw
    cases o with
    | closed conn =>
      obtain ⟨_, rfl⟩ := hs
      exact hcached
    | remove_if_closed host' =>
      cases hs
      dsimp only
      split
      · next hclosed =>
        -- only the entry of a closed connection is removed
        have hne : host ≠ host' := by
          intro heq
          rw [← heq, hcached] at hclosed
          simp [hopen] at hclosed
        rw [Finmap.lookup_erase_ne hne, hcached]
      · exact hcached
    | _ => exact hcan.elim
  · intro hfinished host cached hcached hclosed
    rcases hfinished cached hclosed with hnone | hreturned
    · exact (hsound.inv.cached host cached hcached).2 hnone
    · exact (hsound.returned hreturned).2 ⟨host, hcached⟩
  · intro i conn hreturned
    obtain ⟨node, hnode, hprovided⟩ := hsound.returned hreturned
    refine ⟨node, hnode, hprovided.imp id ?_⟩
    intro hnew
    exact ⟨hnew.1, hnew.2.1⟩

/-- A cache before anybody has used it. -/
def unused (ι : Type) : Crew (CacheWorker ι) (CacheState ι) CacheOp CacheOp.Resp CacheResult where
  shared :=
    { connections := ∅
      established := fun _ => none
      requested := fun _ => none
      closed := ∅
      phase := fun _ => .none
      node := fun _ => none
      obtained := fun _ => none }
  worker := fun _ => none

theorem unused_reachable (ok : CacheWorker ι → CacheState ι → CacheOp → Prop) :
    (caching_where ok).Reachable (unused ι) :=
  .init ⟨⟨rfl, rfl, fun _ => rfl, fun _ => rfl, fun _ => rfl⟩, fun _ => rfl⟩

/-- A connection is established, closed and cleaned up; the cache holds no closed
    connection then. -/
theorem hygiene_after_cleanup :
    ∃ (c : Crew (CacheWorker Unit) (CacheState Unit) CacheOp CacheOp.Resp CacheResult)
      (conn : QuicConnection), (caching Unit).Reachable c ∧
      c.worker (.caller ()) = some (.pure (.connected (.ok conn))) ∧ conn ∈ c.shared.closed ∧
      ∀ host cached, c.shared.connections.lookup host = some cached → cached ∉ c.shared.closed := by
  obtain ⟨c₁, hc₁, hw₁, hnew⟩ := connect_new () (.to_localhost 0) (fun _ _ _ _ => trivial)
    (unused_reachable fun _ _ _ => True) (.inl rfl) rfl rfl
  have hc₂ := Crew.env hc₁ (.to_localhost 0) ⟨trivial, by simp [hnew.established], rfl⟩
  obtain ⟨c, hc, hw, hclosed⟩ := cleanup_closed (fun _ _ _ _ => trivial) hc₂
    (by rw [hw₁]; exact .inl rfl) (by simp [hnew.phase]; rfl) (Finset.mem_insert_self _ _)
  have hclosed' : c.shared.closed = {.to_localhost 0} := by
    rw [hclosed]
    simp [hnew.closed, unused]
  refine ⟨c, .to_localhost 0, LTS.crew_of_restrict hc, ?_, by simp [hclosed'], ?_⟩
  · rw [hw, hw₁]
    rfl
  · refine (connection_cache_hygiene (LTS.crew_of_restrict hc)).2.1 ?_
    intro conn' hconn'
    rw [hclosed', Finset.mem_singleton] at hconn'
    right
    rw [hconn', hw]
    simp

end ConnectionCache

end Distruct
