/-
# The server

`epoll-server/src`: the server, its thread pool and its completion queue.  One
thread, the reactor, runs the connections.  A chunk that it reads is submitted to
the pool, a worker takes it, and what the worker makes of it comes back through
the completion queue, for the reactor to send.  The work is an echo.

The stack is seen through its table of connections (`Stack/Connections`): a frame
is the segment that `_handle_tcp` finds in it.  The callback that a connection
sends by returns, except that any call of it that `_apply_response` makes in its
`try` block may throw.  `poll()` is a run of the steps `segment`, `unreachable` and
`fragmentationNeeded`, and then `reap`; `_handle_new_connections` is a run of the
steps `accept`.  Workers take and finish tasks at any time, in between the
completions of one `drain_and_run` too.
-/

import TcpIpStack.Lib.Runs
import TcpIpStack.Stack.Connections
import TcpIpStack.Server.Connection

namespace TcpIpStack

/-- `NetworkStack::DEFAULT_LISTEN_BACKLOG`. -/
def defaultListenBacklog : ℕ := 128

/-- What the lambdas of `_try_dispatch` capture: a connection's id, and its data
or the response to it. -/
structure Job where
  id : ℕ
  data : Bytes
deriving DecidableEq

/-- `Server`, with the members of its thread pool and its completion queue. -/
structure Server where
  port : UInt16
  /-- The MSS of the primary interface, and what the ISN generator gives the
  connection with an id. -/
  localMss : UInt16
  isn : ℕ → UInt32
  workerCount : ℕ
  table : ConnectionTable
  /-- The connections whose data-ready callback is set. -/
  dataReady : Finset ℕ := ∅
  /-- `_in_flight`. -/
  inFlight : Finset ℕ := ∅
  /-- `ThreadPool::_tasks`, and the tasks that workers have taken. -/
  tasks : List Job := []
  running : List Job := []
  /-- `CompletionQueue::_tasks`, and what `drain_and_run` has swapped out of it
  and not run yet. -/
  completions : List Job := []
  ready : List Job := []

namespace Server

/-- The constructor: the server listens on its port. -/
def new (port localMss : UInt16) (isn : ℕ → UInt32) (workerCount : ℕ) : Server :=
  { port := port, localMss := localMss, isn := isn, workerCount := workerCount
    table := ({} : ConnectionTable).listen port defaultListenBacklog }

/-- A connection of the table, as the server sees it. -/
def served (v : Server) (c : Connection) : Served :=
  ⟨c.session, c.id ∈ v.dataReady, c.id ∈ v.inFlight, []⟩

/-- A connection has run, and what it submitted is in the pool. -/
def put (v : Server) (key : ConnectionKey) (c : Connection) (served : Served) : Server :=
  { v with
    table := v.table.setSession key c served.session
    dataReady := if served.dataReady then insert c.id v.dataReady else v.dataReady.erase c.id
    inFlight := if served.inFlight then insert c.id v.inFlight else v.inFlight.erase c.id
    tasks := v.tasks ++ served.submitted.map (Job.mk c.id) }

/-- Run the connection under a key, if there is one. -/
def serve (key : ConnectionKey) (f : Served → Served) (v : Server) : Server :=
  match v.table.connections.lookup key with
  | none => v
  | some c => v.put key c (f (v.served c))

/-! ### The stack -/

/-- A segment for a connection.  One that completes a passive open queues it for
`accept`. -/
def deliverSegment (key : ConnectionKey) (c : Connection) (segment : Tcp) (v : Server) : Server :=
  let served := (v.served c).onSegment segment
  let v := v.put key c served
  if c.session.conn.state = .synReceived ∧ served.session.conn.state = .established then
    { v with table := v.table.pushAccept key }
  else v

/-- The session of a connection for a SYN. -/
def synSession (key : ConnectionKey) (segment : Tcp) (v : Server) : Session :=
  (Session.fresh key.localPort key.remotePort (v.isn v.table.nextConnectionId) v.localMss
    .cubic).acceptIncomingSyn (StackM.synOptions segment)

/-- `_handle_tcp`, on the table of connections. -/
def handleTcp (key : ConnectionKey) (segment : Tcp) (v : Server) : Server :=
  match v.table.connections.lookup key with
  | some c => v.deliverSegment key c segment
  | none =>
    match v.table.listeningPorts.lookup key.localPort with
    | none => v
    | some backlog =>
      if segment.syn ∧ (v.table.acceptQueue key.localPort).length < backlog then
        { v with table := v.table.openConnection key (v.synSession key segment) }
      else v

/-- `on_time_passed`, on the table of connections. -/
def onTimePassed (elapsedMs : UInt32) (v : Server) : Server :=
  let v := v.table.connections.keys.foldl
    (fun v key => v.serve key (Served.run (Session.onTimePassed elapsedMs))) v
  { v with table := v.table.reapClosedConnections }

/-- The connection that `accept` returns. -/
def nextAccepted (v : Server) : Option Connection :=
  ((v.table.accept v.port).acceptReturns.drop v.table.acceptReturns.length).head?.map Prod.snd

/-- One turn of `_handle_new_connections`. -/
def handleNewConnection (v : Server) : Server :=
  let accepted := { v with table := v.table.accept v.port }
  match v.nextAccepted with
  | none => accepted
  | some c => accepted.serve c.key Served.setDataReadyCallback

/-! ### The pool and the completion queue -/

/-- A worker that is free takes the first task. -/
def take (v : Server) : Option Server :=
  match v.tasks with
  | [] => none
  | job :: tasks =>
    if v.running.length < v.workerCount then
      some { v with tasks := tasks, running := v.running ++ [job] }
    else none

/-- A worker is done with its task: the completion is pushed. -/
def finish (i : ℕ) (v : Server) : Option Server :=
  match v.running[i]? with
  | none => none
  | some job => some { v with running := v.running.eraseIdx i, completions := v.completions ++ [job] }

/-- `drain_and_run` takes the whole queue. -/
def drain (v : Server) : Server := { v with ready := v.completions, completions := [] }

/-- `_apply_response`.  The mark is cleared whether `find_connection` finds the
connection or not. -/
def applyResponse (failing : Option ℕ) (job : Job) (v : Server) : Option Server :=
  match v.table.connectionsById.lookup job.id with
  | none => some { v with inFlight := v.inFlight.erase job.id }
  | some key =>
    match v.table.connections.lookup key with
    | none => some { v with inFlight := v.inFlight.erase job.id }
    | some c => ((v.served c).applyResponse failing job.data).map (v.put key c)

/-- `drain_and_run` runs one of the tasks it has taken. -/
def complete (failing : Option ℕ) (v : Server) : Option Server :=
  match v.ready with
  | [] => none
  | job :: ready => { v with ready := ready }.applyResponse failing job

end Server

/-! ### Steps -/

/-- What can happen.  `complete` says which call of the callback throws, if one
does. -/
inductive ServerStep
  | segment (key : ConnectionKey) (segment : Tcp)
  | unreachable (key : ConnectionKey)
  | fragmentationNeeded (key : ConnectionKey) (pathMss : UInt16)
  | reap
  | accept
  | timePassed (elapsedMs : UInt32)
  | take
  | finish (worker : ℕ)
  | drain
  | complete (failing : Option ℕ)
deriving DecidableEq

namespace ServerStep

/-- The steps of the reactor between two calls of `drain_and_run`. -/
def betweenDrains (v : Server) (f : Server → Server) : Option Server :=
  if v.ready = [] then some (f v) else none

/-- The server after a step, if the step is possible. -/
def run : ServerStep → Server → Option Server
  | segment key t, v => betweenDrains v (·.handleTcp key t)
  | unreachable key, v => betweenDrains v (·.serve key (Served.run (Session.transition .closed)))
  | fragmentationNeeded key pathMss, v =>
    betweenDrains v (·.serve key (Served.run (Session.modify (Session.reduceEffectiveMss pathMss))))
  | reap, v => betweenDrains v fun v => { v with table := v.table.reapClosedConnections }
  | accept, v => betweenDrains v Server.handleNewConnection
  | timePassed elapsedMs, v => betweenDrains v (·.onTimePassed elapsedMs)
  | take, v => v.take
  | finish worker, v => v.finish worker
  | drain, v => betweenDrains v Server.drain
  | complete failing, v => v.complete failing

end ServerStep

end TcpIpStack
