import Distruct.Connection.Redirect
import Distruct.Framework.Follow

/-! # Chains of Redirections

    A client that is redirected resends its request to the node that the reply
    names, which may redirect it once more. When every node keeps to one reply,
    the nodes form a graph in which each has at most one successor, and the loop
    of `Client::request` walks along it.

    * `Forwarding`: the nodes with their replies.
    * `request_follows_leaders`: what the loop does on them.
-/

namespace Distruct

/-- What a node answers to a write: a reply that ends the request, or the error
    that names another node as the leader. -/
inductive NodeReply where
  | final (reply : Except RemoteError Response)
      (ends : ∀ e, reply = .error e → Client.redirect e = none)
  | forward (leader : NodeId)

/-- Nodes that each keep to one reply. -/
structure Forwarding where
  nodes : Finset NodeId
  address : NodeId → Node
  /-- The node that accepts the connections to an address. -/
  host : Node → NodeId
  host_address : ∀ n ∈ nodes, host (address n) = n
  reply : NodeId → NodeReply
  names_other : ∀ n ∈ nodes, ∀ leader, reply n = .forward leader → leader ∈ nodes ∧ leader ≠ n
  /-- Whether the node executes the write before it replies. -/
  executes : NodeId → Bool
  forwards_only : ∀ n ∈ nodes, ∀ leader, reply n = .forward leader → executes n = false

/-- What has been sent to which node, and the nodes that have executed the write. -/
structure Contacts where
  sent : List (NodeId × Request)
  executed : List NodeId

namespace Forwarding

variable (net : Forwarding)

/-- The leader that a node names. -/
def next (n : NodeId) : Option NodeId :=
  match net.reply n with
  | .final .. => none
  | .forward leader => some leader

/-- The reply as it is sent; `handle_message` wraps the redirection of a write so. -/
def message (n : NodeId) : Except RemoteError Response :=
  match net.reply n with
  | .final reply _ => reply
  | .forward leader =>
      .error (.RaftWrite (.APIError (.ForwardToLeader ⟨some leader, some (net.address leader)⟩)))

/-- All connections succeed, and every node answers with its reply. -/
def handler : (o : Op) → Contacts → Option (o.Resp × Contacts)
  | .exchange _ conn msg, s =>
      some (.ok (net.message conn.peer),
        { sent := s.sent ++ [(conn.peer, msg)]
          executed := s.executed ++ [conn.peer].filter net.executes })
  | .connect _ node, s => some (.ok ⟨net.host node⟩, s)
  | _, _ => none

/-- The request as it goes along a path: first as it is, then addressed to each node. -/
def requests (msg : Request) : List NodeId → List (NodeId × Request)
  | [] => []
  | n :: l => (n, msg) :: l.map fun m => (m, { target_id := some m, body := msg.body })

variable {net}

theorem next_eq_some {n leader : NodeId} : net.next n = some leader ↔ net.reply n = .forward leader := by
  unfold next
  cases net.reply n <;> simp

theorem next_eq_none {n : NodeId} : net.next n = none ↔ ∃ reply h, net.reply n = .final reply h := by
  unfold next
  cases hr : net.reply n with
  | final reply ends => exact ⟨fun _ => ⟨reply, ends, rfl⟩, fun _ => rfl⟩
  | forward leader => simp

/-- Along a path that starts with the addressee, everybody is addressed. -/
theorem requests_addressed {n : NodeId} {body : RequestBody} {l : List NodeId}
    (h : Follow.Path net.next n l) :
    requests { target_id := some n, body := body } l
      = l.map fun m => (m, { target_id := some m, body := body }) := by
  obtain ⟨l', rfl⟩ := h.eq_cons
  rfl

theorem run_final (owner : NodeId) (fuel : Nat) {conn : Connection} (msg : Request) (s : Contacts)
    {reply : Except RemoteError Response} {ends : ∀ e, reply = .error e → Client.redirect e = none}
    (hr : net.reply conn.peer = .final reply ends) :
    (Client.request_loop owner (fuel + 1) conn msg).run.run net.handler s
      = some ((net.message conn.peer).mapError Error.Remote,
          ⟨s.sent ++ [(conn.peer, msg)], s.executed ++ [conn.peer].filter net.executes⟩) := by
  have hm : net.message conn.peer = reply := by simp [message, hr]
  have hx : net.handler (.exchange owner conn msg) s = some (.ok reply,
      ⟨s.sent ++ [(conn.peer, msg)], s.executed ++ [conn.peer].filter net.executes⟩) := by
    rw [← hm]
    rfl
  rw [Client.request_loop_reply owner fuel conn msg hx, hm]
  cases reply with
  | ok resp => rfl
  | error e =>
    simp only [ends e rfl]
    rfl

theorem run_forward (owner : NodeId) (fuel : Nat) {conn : Connection} (msg : Request) (s : Contacts)
    (hpeer : conn.peer ∈ net.nodes) {leader : NodeId} (hr : net.reply conn.peer = .forward leader) :
    (Client.request_loop owner (fuel + 1) conn msg).run.run net.handler s
      = (Client.request_loop owner fuel ⟨leader⟩ { target_id := some leader, body := msg.body }).run.run
          net.handler ⟨s.sent ++ [(conn.peer, msg)], s.executed⟩ := by
  have hm : net.message conn.peer = .error (.RaftWrite (.APIError
      (.ForwardToLeader ⟨some leader, some (net.address leader)⟩))) := by
    simp [message, hr]
  have hhost : net.host (net.address leader) = leader :=
    net.host_address leader (net.names_other _ hpeer leader hr).1
  have hexec : [conn.peer].filter net.executes = [] := by
    simp [net.forwards_only _ hpeer leader hr]
  have hx : net.handler (.exchange owner conn msg) s = some (.ok (.error (.RaftWrite (.APIError
      (.ForwardToLeader ⟨some leader, some (net.address leader)⟩)))),
      ⟨s.sent ++ [(conn.peer, msg)], s.executed⟩) := by
    rw [handler, hm, hexec, List.append_nil]
  rw [Client.request_loop_reply owner fuel conn msg hx]
  show (Client.resend owner fuel leader (net.address leader) msg.body).run.run net.handler _ = _
  rw [Client.resend, Prog.run_run_bind]
  show (Client.request_loop owner fuel ⟨net.host (net.address leader)⟩ _).run.run net.handler _ = _
  rw [hhost]

/-- The loop walks along the named leaders until one gives a final reply, and
    runs out of fuel exactly if the way is too long for it. -/
theorem run_request_loop (owner : NodeId) (fuel : Nat) {conn : Connection} (msg : Request)
    (hpeer : conn.peer ∈ net.nodes) (s : Contacts) (r : Except Error Response) (s' : Contacts) :
    (Client.request_loop owner fuel conn msg).run.run net.handler s = some (r, s') ↔
      ∃ l last, Follow.Path net.next conn.peer l ∧ l.length ≤ fuel ∧ l.getLast? = some last ∧
        r = (net.message last).mapError Error.Remote ∧
        s' = ⟨s.sent ++ requests msg l, s.executed ++ l.filter net.executes⟩ := by
  induction fuel generalizing conn msg s with
  | zero =>
    have hnone : (Client.request_loop owner 0 conn msg).run.run net.handler s = none := rfl
    rw [hnone]
    simp only [reduceCtorEq, false_iff]
    rintro ⟨l, last, hp, hlen, -⟩
    obtain ⟨l', rfl⟩ := hp.eq_cons
    simp at hlen
  | succ fuel ih =>
    cases hr : net.reply conn.peer with
    | final reply ends =>
      have hnext : net.next conn.peer = none := next_eq_none.mpr ⟨reply, ends, hr⟩
      rw [run_final owner fuel msg s hr]
      constructor
      · intro heq
        cases heq
        exact ⟨[conn.peer], conn.peer, .stop hnext, by simp, rfl, rfl, rfl⟩
      · rintro ⟨l, last, hp, -, hlast, rfl, rfl⟩
        -- the path ends where it starts
        have hl := hp.unique (.stop hnext)
        subst hl
        cases hlast
        rfl
    | forward leader =>
      have hnext : net.next conn.peer = some leader := next_eq_some.mpr hr
      have hleader := (net.names_other _ hpeer leader hr).1
      have hexec := net.forwards_only _ hpeer leader hr
      rw [run_forward owner fuel msg s hpeer hr, @ih ⟨leader⟩ _ hleader]
      constructor
      · rintro ⟨l, last, hp, hlen, hlast, rfl, rfl⟩
        refine ⟨conn.peer :: l, last, .step hnext hp, by simp [hlen], ?_, rfl, ?_⟩
        · rw [List.getLast?_cons, hlast]
          rfl
        · rw [requests_addressed hp]
          simp [requests, hexec]
      · rintro ⟨l, last, hp, hlen, hlast, rfl, rfl⟩
        cases hp with
        | stop hn => rw [hnext] at hn; cases hn
        | step hs hp =>
          rw [hnext] at hs
          cases hs
          refine ⟨_, last, hp, by simpa using hlen, ?_, rfl, ?_⟩
          · obtain ⟨l', rfl⟩ := hp.eq_cons
            rw [List.getLast?_cons_cons] at hlast
            exact hlast
          · rw [requests_addressed hp]
            simp [requests, hexec]

/-- What `Client::request` does with the request `body` on nodes that keep to
    their replies, when it comes back with `r`. -/
structure Followed (net : Forwarding) (c : Client) (body : RequestBody) (r : Except Error Response)
    (s : Contacts) : Prop where
  first : s.sent.head? = some (c.conn.peer, { target_id := c.target_id, body := body })
  distinct : (s.sent.map Prod.fst).Nodup
  unchanged : ∀ x ∈ s.sent, x.2.body = body
  addressed : ∀ x ∈ s.sent.tail, x.2.target_id = some x.1
  last : ∃ last reply ends, (s.sent.map Prod.fst).getLast? = some last ∧
    net.reply last = .final reply ends ∧ r = reply.mapError Error.Remote ∧
    (s.executed = [] ∨ s.executed = [last])

theorem map_fst_requests (msg : Request) (l : List NodeId) : (requests msg l).map Prod.fst = l := by
  cases l with
  | nil => rfl
  | cons n l => simp [requests, Function.comp_def]

/-- On the way nobody executes the write before the last one. -/
theorem executed_on_path {n : NodeId} (hn : n ∈ net.nodes) {l : List NodeId}
    (hp : Follow.Path net.next n l) {last : NodeId} (hlast : l.getLast? = some last) :
    l.filter net.executes = [] ∨ l.filter net.executes = [last] := by
  induction hp with
  | @stop a _ =>
    cases hlast
    by_cases he : net.executes a = true
    · exact .inr (by simp [he])
    · exact .inl (by simp [he])
  | @step a b l hs hp ih =>
    have hr := next_eq_some.mp hs
    rw [List.filter_cons_of_neg (by simp [net.forwards_only a hn b hr])]
    obtain ⟨l', rfl⟩ := hp.eq_cons
    rw [List.getLast?_cons_cons] at hlast
    exact ih (net.names_other a hn b hr).1 hlast

/-- **Redirect chains**: a request comes back exactly if the leaders named one
    after the other, from the first node on, lead to a node with a final reply.
    It is then sent to different nodes only, unchanged and addressed to each of
    them, returns the reply of the last one, and nobody else executes it. -/
theorem request_follows_leaders (net : Forwarding) (c : Client) (hc : c.conn.peer ∈ net.nodes)
    (body : RequestBody) :
    ((∃ fuel r s, (c.request fuel body).run.run net.handler ⟨[], []⟩ = some (r, s)) ↔
      ∃ last, Relation.ReflTransGen (fun n m => net.reply n = .forward m) c.conn.peer last ∧
        ∀ leader, net.reply last ≠ .forward leader) ∧
    ∀ fuel r s, (c.request fuel body).run.run net.handler ⟨[], []⟩ = some (r, s) →
      Followed net c body r s := by
  constructor
  · have hpath : (∃ l, Follow.Path net.next c.conn.peer l) ↔ _ := Follow.exists_path_iff
    simp only [next_eq_some] at hpath
    have hnone : ∀ n, net.next n = none ↔ ∀ leader, net.reply n ≠ .forward leader := by
      intro n
      rw [Option.eq_none_iff_forall_ne_some]
      simp only [ne_eq, next_eq_some]
    simp only [hnone] at hpath
    rw [← hpath]
    constructor
    · rintro ⟨fuel, r, s, hrun⟩
      obtain ⟨l, last, hp, -⟩ := (run_request_loop c.owner fuel _ hc _ r s).mp hrun
      exact ⟨l, hp⟩
    · rintro ⟨l, hp⟩
      obtain ⟨last, hlast, -⟩ := hp.exists_last
      -- as many rounds as there are nodes on the way
      exact ⟨l.length, _, _, (run_request_loop c.owner l.length _ hc _ _ _).mpr
        ⟨l, last, hp, Nat.le_refl _, hlast, rfl, rfl⟩⟩
  · intro fuel r s hrun
    obtain ⟨l, last, hp, -, hlast, rfl, rfl⟩ := (run_request_loop c.owner fuel _ hc _ r s).mp hrun
    obtain ⟨l', rfl⟩ := hp.eq_cons
    obtain ⟨last', hlast', hfinal, -⟩ := hp.exists_last
    rw [hlast] at hlast'
    cases hlast'
    obtain ⟨reply, ends, hr⟩ := next_eq_none.mp hfinal
    simp only [List.nil_append]
    refine ⟨rfl, ?_, ?_, ?_, last, reply, ends, ?_, hr, ?_, executed_on_path hc hp hlast⟩
    · rw [map_fst_requests]
      exact hp.nodup
    · intro x hx
      rcases List.mem_cons.mp hx with rfl | hx
      · rfl
      · obtain ⟨n, -, rfl⟩ := List.mem_map.mp hx
        rfl
    · intro x hx
      obtain ⟨n, -, rfl⟩ := List.mem_map.mp hx
      rfl
    · rw [map_fst_requests]
      exact hlast
    · simp [message, hr]

/-- Three nodes: the first two have missed that the third one leads. -/
def stale_views : Forwarding where
  nodes := {1, 2, 3}
  address := fun n => .on_port n.toUInt16
  host := fun node => if node = .on_port 3 then 3 else if node = .on_port 2 then 2 else 1
  host_address := by decide
  reply := fun n => if n = 1 then .forward 2 else if n = 2 then .forward 3 else
    .final (.ok (.ClientWrite ⟨⟨⟨2, 3⟩, 7⟩, .Insert none, none⟩)) (by simp)
  names_other := by
    intro n hn leader h
    simp only [Finset.mem_insert, Finset.mem_singleton] at hn
    rcases hn with rfl | rfl | rfl <;> cases h <;> decide
  executes := fun n => n == 3
  forwards_only := by
    intro n hn leader h
    simp only [Finset.mem_insert, Finset.mem_singleton] at hn
    rcases hn with rfl | rfl | rfl <;> cases h <;> decide

theorem request_follows_stale_views :
    1 ∈ stale_views.nodes ∧ ∃ fuel r s,
      (Client.request fuel ⟨5, ⟨1⟩, some 1⟩ (.Insert "m" [1] [2])).run.run stale_views.handler ⟨[], []⟩
        = some (r, s) ∧ Followed stale_views ⟨5, ⟨1⟩, some 1⟩ (.Insert "m" [1] [2]) r s := by
  have hfirst : 1 ∈ stale_views.nodes := by decide
  have h := request_follows_leaders stale_views ⟨5, ⟨1⟩, some 1⟩ hfirst (.Insert "m" [1] [2])
  -- 1 names 2, and 2 names 3, which replies
  have hchain : Relation.ReflTransGen (fun n m => stale_views.reply n = .forward m) 1 3 :=
    .head (show stale_views.reply 1 = .forward 2 from rfl)
      (.single (show stale_views.reply 2 = .forward 3 from rfl))
  obtain ⟨fuel, r, s, hrun⟩ := h.1.mpr ⟨3, hchain, by rintro leader ⟨⟩⟩
  exact ⟨hfirst, fuel, r, s, hrun, h.2 fuel r s hrun⟩

end Forwarding

end Distruct
