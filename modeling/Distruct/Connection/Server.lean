import Distruct.Connection.Client

/-! # The Server

    `connection/server.rs`. A request that is too long for the server is
    dropped together with its stream. Every other one is handed to the main
    loop and answered.

    A stream that the server drops is finished without a reply. A client that is
    still writing its request is told to stop, and its transmission fails. Any
    other client reads an empty reply, which it cannot decode (`no_reply`).

    `link` closes the gap between a client and the node it talks to: the
    exchange of a request and a response becomes the transmission of the
    request, the run of the peer's `handle_message`, and the transmission of
    the reply. Either transmission may fail.
-/

namespace Distruct

/-- The longest request, in bytes, that `handle_request` reads. -/
def max_message_size : Nat := 64 * 1024

/-- Whether `handle_request` accepts a request. -/
def accepts (message : Request) : Bool := (Encode.request message).length ≤ max_message_size

/-- `handle_request` on node `j`: the reply, or `none` when the stream is
    dropped. -/
def handle_request (j : NodeId) (message : Request) :
    NodeProg (Option (Except RemoteError Response)) :=
  if accepts message then
    some <$> handle_message j message
  else
    pure none

/-- The error of a client that finds its reply empty. -/
def no_reply : Error := .Protocol (.DeserializeResponse .DeserializeUnexpectedEnd)

/-- An exchange over a connection, seen from the client on node `i`. -/
def deliver (i : NodeId) (conn : Connection) (message : Request) :
    NodeProg (Except Error (Except RemoteError Response)) :=
  ExceptT.run do
    ExceptT.mk (ask (.transmit i conn))
    match ← handle_request conn.peer message with
    | none => throw no_reply
    | some reply =>
      ExceptT.mk (ask (.transmit i conn))
      return reply

/-- Replaces every exchange by what happens on the peer. -/
def link : (o : Op) → NodeProg o.Resp
  | .exchange i conn message => deliver i conn message
  | o => ask o

/-- A program of one node together with the peers it talks to. -/
def linked {ε α : Type} (p : NodeResult ε α) : NodeProg (Except ε α) := p.run.interp link

theorem linked_bind {ε α β : Type} (x : NodeResult ε α) (f : α → NodeResult ε β) :
    linked (x >>= f) = (ExceptT.mk (linked x) >>= fun a => ExceptT.mk (linked (f a))).run := by
  rw [linked, ExceptT.run_bind, Prog.interp_bind, ExceptT.run_bind]
  refine congrArg (linked x >>= ·) ?_
  funext r
  cases r <;> rfl

theorem linked_lift {ε α : Type} (p : NodeProg α) :
    linked (liftM p : NodeResult ε α) = Except.ok <$> p.interp link := by
  show (Except.ok <$> p).interp link = _
  rw [← bind_pure_comp, Prog.interp_bind]
  rfl

theorem run_linked_bind {ε α β σ : Type} (h : (o : Op) → σ → Option (o.Resp × σ))
    (x : NodeResult ε α) (f : α → NodeResult ε β) (s : σ) :
    (linked (x >>= f)).run h s = ((linked x).run h s).bind fun y =>
      match y.1 with
      | .ok a => (linked (f a)).run h y.2
      | .error e => some (.error e, y.2) := by
  rw [linked_bind, Prog.run_run_bind]
  show ((linked x).run h s).bind _ = _
  congr 1
  funext y
  obtain ⟨r, s'⟩ := y
  cases r <;> rfl

theorem run_linked_lift_bind {ε α β σ : Type} (h : (o : Op) → σ → Option (o.Resp × σ))
    (p : NodeProg α) (f : α → NodeResult ε β) (s : σ) :
    (linked ((liftM p : NodeResult ε α) >>= f)).run h s
      = ((p.interp link).run h s).bind fun y => (linked (f y.1)).run h y.2 := by
  rw [run_linked_bind, linked_lift, Prog.run_map]
  cases (p.interp link).run h s <;> rfl

/-- A program that exchanges nothing needs no peer. -/
theorem linked_lift_of_uses {ε α : Type} {p : NodeProg α}
    (h : p.Uses Prog.AnyAnswer fun o => link o = Prog.perform o) :
    linked (liftM p : NodeResult ε α) = Except.ok <$> p := by
  rw [linked_lift, Prog.interp_eq_self h]

end Distruct
