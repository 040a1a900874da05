/-
# A connection of the server

`epoll-server/src/server.cpp` sets a data-ready callback on every connection it
accepts.  `_deliver` calls it in the middle of `on_segment`, and the callback,
`_try_dispatch`, reads from the connection at once: what is drained from the
reorder buffer afterwards finds the chunk in flight and stays unread, and the ack
at the end advertises the window after the read.

So the branches of `on_segment` that deliver are here a second time, on a
connection together with what the callback looks at.
-/

import TcpIpStack.Tcp.FailingSend

namespace TcpIpStack

/-- The default argument of `read`, `static_cast<size_t>(-1)`. -/
def readAll : ℕ := 2 ^ 64 - 1

/-- A connection, whether it has a data-ready callback, whether its id is in
`_in_flight`, and the chunks of it that were submitted to the thread pool since
the call into it began. -/
structure Served where
  session : Session
  dataReady : Bool
  inFlight : Bool
  submitted : List Bytes := []

namespace Served

open Session
open TcpConnection (takeFromQueue)

/-- What the connection does without calling back. -/
def run (f : Session → Session) (v : Served) : Served := { v with session := f v.session }

/-- The chunk that `_try_dispatch` reads. -/
def unread (v : Served) : Bytes := (takeFromQueue readAll v.session.conn.receiveQueue).1

/-- `_try_dispatch`. -/
def tryDispatch (v : Served) : Served :=
  if v.inFlight then v
  else if v.unread = [] then v.run (Session.read readAll)
  else
    { v with
      session := v.session.read readAll
      inFlight := true
      submitted := v.submitted ++ [v.unread] }

/-- `set_data_ready_callback`: data may be waiting already. -/
def setDataReadyCallback (v : Served) : Served :=
  let v := { v with dataReady := true }
  if 0 < v.session.conn.receiveQueuedBytes then v.tryDispatch else v

/-- `_apply_response`, once the connection is found: how much `send` accepted is
not looked at.  If call number `failing` of the callback throws, the rest of the
`try` block does not run.  The mark is cleared and the next chunk is read in any
case. -/
def applyResponse (failing : Option ℕ) (response : Bytes) (v : Served) : Option Served :=
  (v.session.send response).map fun (_, x) =>
    let x := if x.conn.state = .closeWait then x.close else x
    let x := match failingCall failing v.session x with
      | some call => thrown response failing v.session x call
      | none => x
    { v with session := x, inFlight := false }.tryDispatch

/-! ### `on_segment` -/

/-- The end of `_deliver`. -/
def notify (v : Served) : Served := if v.dataReady then v.tryDispatch else v

/-- `_deliver`. -/
def deliver (payload : Bytes) (v : Served) : Served :=
  (v.run (Session.modify (·.deliver payload))).notify

/-- The loop that delivers what is now contiguous. -/
def drainReorderBuffer : ℕ → Served → Served
  | 0, v => v
  | fuel + 1, v =>
    match v.session.conn.reorderBuffer.find? v.session.conn.recvNext with
    | none => v
    | some buffered =>
      drainReorderBuffer fuel
        ((v.run (Session.modify fun c =>
          { c with reorderBuffer := c.reorderBuffer.erase c.recvNext })).deliver buffered)

/-- A delivery, and whatever it unblocks. -/
def deliverAndDrain (payload : Bytes) (v : Served) : Served :=
  let v := v.deliver payload
  v.drainReorderBuffer v.session.conn.reorderBuffer.entries.length

/-- The payload of a segment. -/
def handlePayload (seq : UInt32) (payload : Bytes) (v : Served) : Served :=
  if seq = v.session.conn.recvNext then (v.deliverAndDrain payload).run Session.scheduleOrSendAck
  else if seq > v.session.conn.recvNext then
    v.run fun x => (x.modify (bufferOutOfOrder seq payload)).sendPureAck
  else
    let alreadySeen := (v.session.conn.recvNext - seq).toNat
    let v := if alreadySeen < payload.length then v.deliverAndDrain (payload.drop alreadySeen) else v
    v.run Session.sendPureAck

/-- The rest of `on_segment`, past the handshake. -/
def handleSynchronized (segment : Tcp) (v : Served) : Served :=
  if pawsRejects v.session.conn segment then v.run Session.sendPureAck
  else
    let v := v.run (Session.modify (recordTimestamp segment))
    let v := if segment.ack then v.run (Session.handleAck segment) else v
    let v := if receivesData v.session.conn.state ∧ segment.payload ≠ [] then
      v.handlePayload segment.sequenceNumber segment.payload else v
    if segment.fin then
      v.run (Session.handleFin (segment.sequenceNumber + UInt32.ofNat segment.payload.length))
    else v

/-- The branches of `on_segment`. -/
def dispatch (segment : Tcp) (v : Served) : Served :=
  if segment.rst then v.run (Session.handleRst segment)
  else match v.session.conn.state with
    | .synSent => v.run (Session.handleSynSent segment)
    | .synReceived => v.run (Session.handleSynReceived segment)
    | .closed => v
    | _ => v.handleSynchronized segment

/-- `on_segment`. -/
def onSegment (segment : Tcp) (v : Served) : Served :=
  (v.run (Session.noteArrival segment)).dispatch segment

section Run

variable (f : Session → Session) (v : Served)

@[simp] theorem run_session : (v.run f).session = f v.session := rfl
@[simp] theorem run_dataReady : (v.run f).dataReady = v.dataReady := rfl
@[simp] theorem run_inFlight : (v.run f).inFlight = v.inFlight := rfl
@[simp] theorem run_submitted : (v.run f).submitted = v.submitted := rfl

end Run

end Served
end TcpIpStack
