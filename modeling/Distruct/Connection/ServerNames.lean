import Distruct.Connection.Cache

/-! # Server Names of Cached Connections

    The cache of `connection/cache.rs` is keyed by address. A new connection is
    established with the server name of the node that is asked for, and its peer
    has to prove that name; an open connection in the cache is returned whatever
    name it was established with.
-/

namespace Distruct.ConnectionCache

open LTS (Crew)

variable {ι : Type} [DecidableEq ι]

/-- Whoever finds an open connection in the cache asks for the same server name
    as the call that established it. -/
def NamesAgree (w : CacheWorker ι) (s : CacheState ι) : CacheOp → Prop
  | .get_open host => ∀ conn, s.open_at host = some conn →
      (s.requested conn).map Node.server_name = (s.node w).map Node.server_name
  | _ => True

/-- A connection from the cache is at the address it was looked for and has the
    server name that its new user asks for. -/
def Verified (s : CacheState ι) : Prop :=
  ∀ w host conn, s.obtained w = some (.cached host conn) →
    host = conn.addr ∧ (s.node w).map Node.server_name = some conn.server_name

section verified
variable {s s' : CacheState ι} {w : CacheWorker ι}

omit [DecidableEq ι] in
theorem lookup_of_open_at {host : SocketAddr} {conn : QuicConnection}
    (h : s.open_at host = some conn) : s.connections.lookup host = some conn := by
  unfold CacheState.open_at at h
  exact (Option.filter_eq_some_iff.mp h).1

/-- The notes of one worker change, and it has no connection from the cache. -/
theorem Verified.note (h : Verified s) {node : Option Node} {source : Option Obtained}
    (hsource : ∀ host conn, source ≠ some (.cached host conn))
    (hs' : s'.node = Function.update s.node w node)
    (hobtained : s'.obtained = Function.update s.obtained w source) : Verified s' := by
  intro w' host conn hw'
  rw [hobtained] at hw'
  by_cases heq : w' = w
  · rw [heq, Function.update_self] at hw'
    exact absurd hw' (hsource host conn)
  · rw [Function.update_of_ne heq] at hw'
    rw [hs', Function.update_of_ne heq]
    exact h w' host conn hw'

theorem Verified.start {j : CacheJob} (h : Verified s) (hs : CacheState.start w s j s') :
    Verified s' := by
  unfold CacheState.start at hs
  split at hs
  · subst hs
    exact h.note (by simp) rfl rfl
  · subst hs
    exact h.note (by simp) rfl rfl
  · obtain ⟨_, _, rfl⟩ := hs
    exact h
  · exact hs.elim

theorem Verified.call {o : CacheOp} {r : o.Resp} (hi : s.Inv) (h : Verified s)
    (hagree : NamesAgree w s o) (hs : CacheState.call w s o r s') : Verified s' := by
  cases o with
  | get_open host =>
    obtain ⟨_, rfl⟩ := hs
    intro w' host' conn hw'
    by_cases heq : w' = w
    · subst heq
      simp only [Function.update_self, Option.map_eq_some_iff, Obtained.cached.injEq] at hw'
      obtain ⟨_, hopen, rfl, rfl⟩ := hw'
      obtain ⟨haddr, hphase⟩ := hi.cached _ _ (lookup_of_open_at hopen)
      refine ⟨haddr, ?_⟩
      -- the connection was established for a node with its own address and name
      have hrequested := hi.requested _ (fun hnone => hphase (hi.fresh _ hnone))
      have hnames := hagree _ hopen
      rw [hrequested] at hnames
      exact hnames.symm
    · simp only [Function.update_of_ne heq] at hw'
      exact h w' host' conn hw'
  | endpoint_connect addr server_name =>
    cases r with
    | error e =>
      obtain ⟨_, rfl⟩ := hs
      exact h
    | ok conn =>
      obtain ⟨_, _, _, rfl⟩ := hs
      exact h.note (by simp) (Function.update_eq_self w s.node).symm rfl
  | insert host conn =>
    cases hs
    exact h
  | spawn_cleanup host conn =>
    cases hs
    exact h
  | closed conn =>
    obtain ⟨_, rfl⟩ := hs
    exact h
  | remove_if_closed host =>
    cases hs
    exact h
  | remove host =>
    cases hs
    exact h

end verified

omit [DecidableEq ι] in
theorem Verified.init {s : CacheState ι} (h : s.init) : Verified s := by
  intro w host conn hw
  rw [h.2.2.2.2 w] at hw
  cases hw

/-- If nobody looks for a connection under another name than the one it was
    established with, whatever comes from the cache has the right name. -/
theorem caching_verified
    {c : Crew (CacheWorker ι) (CacheState ι) CacheOp CacheOp.Resp CacheResult}
    (hc : (caching_where NamesAgree).Reachable c) : Verified c.shared := by
  induction hc with
  | init h => exact Verified.init h.1
  | step m hc hstep ih =>
    match m with
    | .env conn =>
      obtain ⟨s', ⟨_, _, rfl⟩, rfl⟩ := hstep
      exact ih
    | .start w j =>
      obtain ⟨s', _, hs, rfl⟩ := hstep
      exact ih.start hs
    | .call w o =>
      obtain ⟨k, r, s', _, ⟨hagree, hs⟩, rfl⟩ := hstep
      have hsound := caching_sound (LTS.crew_of_restrict hc)
      exact ih.call hsound.inv hagree hs

/-- **Connections are used under the name they were verified for**, in every run
    in which whoever finds an open connection in the cache asks for the same
    server name as the call that established it. -/
theorem server_name_verified
    {c : Crew (CacheWorker ι) (CacheState ι) CacheOp CacheOp.Resp CacheResult}
    (hc : (caching_where NamesAgree).Reachable c) (i : ι) (conn : QuicConnection)
    (hreturned : c.worker (.caller i) = some (.pure (.connected (.ok conn)))) :
    ∃ node, c.shared.node (.caller i) = some node ∧ conn.addr = node.addr ∧
      conn.server_name = node.server_name := by
  have hsound := caching_sound (LTS.crew_of_restrict hc)
  obtain ⟨node, hnode, hcached | ⟨_, hnew⟩⟩ := hsound.returned hreturned
  · obtain ⟨haddr, hname⟩ := caching_verified hc _ _ _ hcached
    rw [hnode, Option.map_some, Option.some_inj] at hname
    exact ⟨node, hnode, haddr.symm, hname.symm⟩
  · exact ⟨node, hnode, hnew⟩

/-! ### Two calls, one after the other -/

/-- The first call of all establishes a connection, under whatever name. -/
theorem first_connect (ok : CacheWorker Unit → CacheState Unit → CacheOp → Prop)
    (hok : ∀ w s o, (∀ host, o = .get_open host → s.open_at host = none) → ok w s o)
    (conn : QuicConnection) :
    ∃ c, (caching_where ok).Reachable c ∧ LTS.Free (c.worker (.caller ())) ∧
      c.shared.open_at conn.addr = some conn ∧
      c.shared.requested conn = some ⟨conn.addr, conn.server_name⟩ := by
  obtain ⟨c, hc, hw, hnew⟩ := connect_new () conn hok (unused_reachable ok) (.inl rfl) rfl rfl
  refine ⟨c, hc, .inr ⟨_, by rw [hw, Function.update_self]⟩, ?_, hnew.requested⟩
  exact hnew.open_at (by simp [unused])

omit [DecidableEq ι] in
/-- Where no open connection is found, no names have to agree. -/
theorem namesAgree_of_not_open (w : CacheWorker ι) (s : CacheState ι) (o : CacheOp)
    (h : ∀ host, o = .get_open host → s.open_at host = none) : NamesAgree w s o := by
  cases o with
  | get_open host =>
    intro conn hfound
    rw [h host rfl] at hfound
    cases hfound
  | _ => trivial

/-- A second call for the same node is given the connection of the first one. -/
theorem server_name_of_same_node :
    ∃ c : Crew (CacheWorker Unit) (CacheState Unit) CacheOp CacheOp.Resp CacheResult,
      (caching_where NamesAgree).Reachable c ∧
      c.shared.obtained (.caller ()) = some (.cached Node.localhost.addr (.to_localhost 0)) ∧
      ∃ node, c.shared.node (.caller ()) = some node ∧
        (QuicConnection.to_localhost 0).addr = node.addr ∧
        (QuicConnection.to_localhost 0).server_name = node.server_name := by
  obtain ⟨c₁, hc₁, hfree, hopen, hrequested⟩ :=
    first_connect NamesAgree namesAgree_of_not_open (.to_localhost 0)
  have hagree : NamesAgree (.caller ())
      { c₁.shared with
        node := Function.update c₁.shared.node (.caller ()) (some Node.localhost)
        obtained := Function.update c₁.shared.obtained (.caller ()) none }
      (.get_open Node.localhost.addr) := by
    intro conn hfound
    have heq : conn = .to_localhost 0 := Option.some_inj.mp (hfound.symm.trans hopen)
    rw [heq, hrequested]
    simp [QuicConnection.to_localhost]
  obtain ⟨c, hc, hw, _, hobtained⟩ := connect_cached Node.localhost hc₁ hfree hagree hopen
  exact ⟨c, hc, hobtained, server_name_verified hc () _ hw⟩

/-- A seed is configured under one name and announces itself under another one.
    Whoever connects to the member gets the connection to the seed. -/
theorem seed_name_reused :
    ∃ (c : Crew (CacheWorker Unit) (CacheState Unit) CacheOp CacheOp.Resp CacheResult)
      (conn : QuicConnection), (caching Unit).Reachable c ∧
      c.worker (.caller ()) = some (.pure (.connected (.ok conn))) ∧
      c.shared.node (.caller ()) = some Node.localhost ∧
      conn.server_name ≠ Node.localhost.server_name := by
  obtain ⟨c₁, hc₁, hfree, hopen, _⟩ :=
    first_connect (fun _ _ _ => True) (fun _ _ _ _ => trivial) ⟨0, .localhost, "seed"⟩
  obtain ⟨c, hc, hw, hnode, _⟩ := connect_cached Node.localhost hc₁ hfree trivial hopen
  exact ⟨c, _, LTS.crew_of_restrict hc, hw, hnode, by decide⟩

end Distruct.ConnectionCache
