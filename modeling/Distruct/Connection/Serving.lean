import Distruct.Connection.WireFormat
import Distruct.Connection.Server
import Distruct.Framework.Inlining

/-! # Serving Requests

    The whole way of a request, in bytes and through the mailbox of a node:
    `connection/server.rs`, `main_loop` of `cluster.rs`, and one round of
    `Client::request` in `connection/client.rs`.

    - A client opens a stream, writes the request and finishes the stream. It
      then reads until the stream ends (`send`).
    - `handle_request` reads at most `max_message_size` bytes and decodes them.
      It hands the message to the main loop, together with a channel for the
      reply (`post`), or gives up: the request is too long, or no request, or the
      main loop is gone (`refuse`). What the client reads then is empty.
    - `main_loop` takes the messages in the order in which they came, one after
      the other (`take`), and runs `handle_message` to its end (`work`, `reply`).
      Between two messages it may find that the node shuts down (`stop`). The
      channels of the messages that wait are dropped with it, and what their
      clients read is empty.
    - The client decodes what it has read (`receive`). At any time it may be told
      that the connection is broken (`lose`).

    What is sent are values of the types of the program: their integers have a
    width and their texts fit into memory.
-/

namespace Distruct

open Postcard (Bytes Format)

section post
variable (U : UlidReader) (E : Format RemoteError)

/-- What a client makes of the bytes of a reply. -/
def read_reply (bytes : Bytes) : Except Error (Except RemoteError Response) :=
  ((Wire.reply U E).from_bytes bytes).mapError fun e => .Protocol (.DeserializeResponse e)

/-- What `handle_request` makes of the bytes of a request. -/
def read_request (bytes : Bytes) : Option Request :=
  if bytes.length ≤ max_message_size then ((Wire.request U).from_bytes bytes).toOption else none

/-- How requests travel. -/
def post : LTS.Post Op Op.Resp NodeId Bytes Request (Except RemoteError Response) where
  sends := fun
    | .exchange _ conn message => some (conn.peer, Encode.request message)
    | _ => none
  reads := read_request U
  serve := handle_message
  writes := (Wire.reply U E).encode
  empty := []
  receives := fun
    | .exchange .., bytes, r => r = read_reply U E bytes
    | _, _, _ => False
  loses := fun
    | .exchange .., r => ∃ e, r = .error (.Transport e)
    | _, _ => False
  sendable := fun
    | .exchange _ _ message => (Wire.request U).fits message
    | _ => True
  returnable := (Wire.reply U E).fits

end post

variable {U : UlidReader} {E : Format RemoteError}

/-- A request that the server reads is the one that was sent. -/
theorem read_request_encode {message msg : Request} (hfits : (Wire.request U).fits message)
    (h : read_request U (Encode.request message) = some msg) :
    msg = message ∧ accepts message = true := by
  unfold read_request at h
  split at h
  · next hlen =>
    have hback := Wire.request_from_bytes U hfits []
    rw [List.append_nil] at hback
    rw [hback] at h
    cases h
    exact ⟨rfl, decide_eq_true hlen⟩
  · cases h

/-- A reply that is read is the one that was written. -/
theorem read_reply_encode {reply : Except RemoteError Response}
    (hfits : (Wire.reply U E).fits reply) :
    read_reply U E ((Wire.reply U E).encode reply) = .ok reply := by
  have hback := (Wire.reply U E).from_bytes_encode hfits []
  rw [List.append_nil] at hback
  rw [read_reply, hback]
  rfl

/-- Nothing is no reply. -/
theorem read_reply_nil : read_reply U E [] = .error no_reply := rfl

section inlining
variable {ι σ Env Job : Type} {site : LTS.Site ι σ Env Op Job Op.Resp}

/-- What `deliver` has left when the message is handled. -/
def deliver_back : (o : Op) → Except RemoteError Response → NodeProg o.Resp
  | .exchange i conn _, reply => ExceptT.run do
    ExceptT.mk (ask (.transmit i conn))
    return reply
  | o, _ => ask o

theorem run_lift_some_bind {α β : Type} (p : NodeProg α) (f : Option α → NodeResult Error β) :
    ((liftM (some <$> p) : NodeResult Error (Option α)) >>= f).run
      = p >>= fun a => (f (some a)).run := by
  rw [ExceptT.run_bind]
  show ((Except.ok <$> some <$> p) >>= _) = _
  rw [bind_map_left, bind_map_left]

/-- `link` stands for the way there, the main loop of the peer, and the way
    back. -/
def link_inlines (htransmit : ∀ w s i conn r, site.call w s (.transmit i conn) r s) :
    LTS.Inlines (post U E) site link where
  back := deliver_back
  here := by
    intro o ho
    cases o with
    | exchange => cases ho
    | _ => rfl
  arrives := by
    intro o n packet msg hsends hsend hread
    cases o with
    | exchange i conn message =>
      cases hsends
      obtain ⟨rfl, hacc⟩ := read_request_encode hsend hread
      refine ⟨.transmit i conn, _, .ok (), rfl, ?_, fun w s => htransmit w s i conn _⟩
      -- what is left after the way there
      show _ = ((liftM (handle_request conn.peer msg) : NodeResult Error _) >>= _).run
      rw [handle_request, if_pos hacc, run_lift_some_bind]
      rfl
    | _ => cases hsends
  returns := by
    intro o x reply r hsends hret hrec
    cases o with
    | exchange i conn message =>
      cases hrec
      exact ⟨.transmit i conn, _, .ok (), rfl, (congrArg Prog.pure (read_reply_encode hret)),
        fun w s => htransmit w s i conn _⟩
    | _ => cases hsends
  refused := by
    intro o x r hsends hrec
    cases o with
    | exchange i conn message =>
      cases hrec
      exact ⟨.transmit i conn, _, .error no_reply, rfl, congrArg Prog.pure read_reply_nil,
        fun w s => htransmit w s i conn _⟩
    | _ => cases hsends
  lost := by
    intro o x r hsends hlose
    cases o with
    | exchange i conn message =>
      obtain ⟨e, rfl⟩ := hlose
      exact ⟨.transmit i conn, _, .error (.Transport e), rfl, rfl, fun w s => htransmit w s i conn _⟩
    | _ => cases hsends

end inlining

end Distruct
