import AgencyProxy.Daemon

/-!
# Subscriptions of the WebSocket transport

`SubscribeRun` and `UnsubscribeRun` of `web.rs`, with the forwarders they start and abort. A
connection polls its handlers in place, one at a time, and puts a response on its queue when
`handle` returns; forwarders run on the registry's pool and put their notifications on the
same queue. A step is what a handler or a task does between two points at which another can
tell the difference.

`RunSubscriptions.active` is kept here by connection: the entries of one are its `active`. An
entry's `AbortHandle` is that of the task of the same generation, so that the generation stands
for both.
-/

namespace AgencyProxy.WebSocket

open AgencyProxy.Runtime Std Lts

/-! ## Requests and responses -/

structure SubscribeRunRequest where
  runId : RunId
  afterSequence : Nat

structure WebRunEvent where
  sequence : Nat
  event : RunEvent

structure SubscribeRunResponse where
  run : RunSnapshot
  events : List WebRunEvent

structure UnsubscribeRunRequest where
  runId : RunId

structure UnsubscribeRunResponse where
  removed : Bool

/-- The codes of `endpoint_libs` that a handler answers with. -/
inductive ErrorCode where
  | badRequest
  | notFound
  | conflict
  | internalError
  deriving DecidableEq, Repr

structure CustomError where
  code : ErrorCode
  message : String

def runtimeError (error : RuntimeError) : CustomError :=
  let code : ErrorCode := match error with
    | .conflict => .conflict
    | .notFound => .notFound
    | .replayExpired _ _ => .conflict
    | .provider _ | .permission _ => .badRequest
    | .start _ | .control _ => .internalError
  ⟨code, error.message⟩

def webRunEvent (event : SequencedEvent) : WebRunEvent := ⟨event.sequence, event.event⟩

/-- The last sequence replayed, or the one asked for when the replay is empty. -/
def SubscribeRunResponse.lastSequence (request : SubscribeRunRequest)
    (response : SubscribeRunResponse) : Nat :=
  (response.events.getLast?.map WebRunEvent.sequence).getD request.afterSequence

/-- What a handler answers. A subscription is known by its generation `n`. -/
inductive Response where
  | subscribed (n : Nat) (request : SubscribeRunRequest) (response : SubscribeRunResponse)
  | refused (request : SubscribeRunRequest) (error : CustomError)
  | unsubscribed (request : UnsubscribeRunRequest) (response : UnsubscribeRunResponse)

/-- What a connection's queue holds, in the order in which it was put there. -/
inductive Queued where
  | response (response : Response)
  /-- A `notifications/run_event` of the subscription `n`. -/
  | notified (n : Nat) (event : SequencedEvent)

inductive Request where
  | subscribeRun (request : SubscribeRunRequest)
  | unsubscribeRun (request : UnsubscribeRunRequest)

/-! ## A connection -/

/-- Where the handler stands that the connection polls. -/
inductive Handler where
  | idle
  /-- At `registry.attach`, the one await of `SubscribeRun`. -/
  | attaching (request : SubscribeRunRequest)
  /-- Before `next_generation`. -/
  | numbering (request : SubscribeRunRequest) (attachment : Attachment)
  /-- Before `subscriptions.insert`. -/
  | inserting (request : SubscribeRunRequest) (attachment : Attachment) (n : Nat)
  /-- Before `registry.spawn`. -/
  | spawning (request : SubscribeRunRequest) (attachment : Attachment) (n : Nat)
  | unsubscribing (request : UnsubscribeRunRequest)
  /-- Returns. -/
  | returning (response : Response)

structure Conn where
  connected : Bool
  handler : Handler
  /-- `RunSubscriptions.active`: the current subscription of each run. -/
  active : ExtTreeMap RunId Nat
  forwards : ExtTreeMap Nat Forward
  queue : List Queued

/-- The next step of the task hands an event to its sink. -/
def hands (store : Store) (task : Forward) : Bool :=
  (forwardRunEvents store task.id task.forwarder
    (AgencyProxy.Conn.forwardAct task.forwarder true)).any (·.handed.isSome)

/-- The task's loop has returned. -/
def ended (task : Forward) : Bool :=
  match task.forwarder.phase with
  | .ended => true
  | _ => false

namespace Conn

def init : Conn := ⟨true, .idle, ∅, ∅, []⟩

inductive Act where
  | call (request : Request)
  | attach
  | nextGeneration
  | insert
  | spawn
  | unsubscribe
  | respond
  | disconnect
  /-- A step of the task of generation `n`. -/
  | wake (n : Nat)
  | forward (n : Nat)
  | suspend (n : Nat)
  | reap (n : Nat)
  | removeIfCurrent (n : Nat)

/-- `abort()` of the task of a generation, if there was one. -/
def abort (conn : Conn) : Option Nat → Conn
  | some n =>
    { conn with forwards := conn.forwards.modify n fun task => { task with aborted := true } }
  | none => conn

def call (conn : Conn) (request : Request) : Option Conn :=
  match conn.connected, conn.handler, request with
  | true, .idle, .subscribeRun request => some { conn with handler := .attaching request }
  | true, .idle, .unsubscribeRun request => some { conn with handler := .unsubscribing request }
  | _, _, _ => none

def attach (registry : Registry) (conn : Conn) : Option (Registry × Conn) :=
  match conn.handler with
  | .attaching request =>
    if registry.lock = .free then
      match registry.store.attach request.runId request.afterSequence with
      | .ok (attachment, store) =>
        some ({ registry with store }, { conn with handler := .numbering request attachment })
      | .error e =>
        some (registry, { conn with handler := .returning (.refused request (runtimeError e)) })
    else none
  | _ => none

/-- `RunSubscriptions::insert`. -/
def insert (conn : Conn) : Option Conn :=
  match conn.handler with
  | .inserting request attachment n =>
    some
      { conn.abort conn.active[request.runId]? with
        active := conn.active.insert request.runId n
        handler := .spawning request attachment n }
  | _ => none

def spawn (conn : Conn) : Option Conn :=
  match conn.handler with
  | .spawning request attachment n =>
    some
      { conn with
        forwards := conn.forwards.insert n
          ⟨request.runId, Forwarder.start attachment request.afterSequence, false, false⟩
        handler := .returning
          (.subscribed n request ⟨attachment.snapshot, attachment.replay.map webRunEvent⟩) }
  | _ => none

/-- `RunSubscriptions::unsubscribe`. -/
def unsubscribe (conn : Conn) : Option Conn :=
  match conn.handler with
  | .unsubscribing request =>
    let removed := conn.active[request.runId]?
    some
      { conn.abort removed with
        active := conn.active.erase request.runId
        handler := .returning (.unsubscribed request ⟨removed.isSome⟩) }
  | _ => none

def respond (conn : Conn) : Option Conn :=
  match conn.handler with
  | .returning response =>
    some { conn with queue := conn.queue ++ [.response response], handler := .idle }
  | _ => none

/-- `RunSubscriptions::disconnect`. A handler can be dropped only at its await. -/
def disconnect (conn : Conn) : Option Conn :=
  match conn.connected, conn.handler with
  | true, .idle | true, .attaching _ =>
    some
      { conn with
        connected := false
        handler := .idle
        active := ∅
        forwards := conn.forwards.map fun n task =>
          if conn.active[task.id]? = some n then { task with aborted := true } else task }
  | _, _ => none

/-! ## Its forwarder tasks -/

def wake (conn : Conn) (n : Nat) : Option Conn :=
  match conn.forwards[n]? with
  | some task =>
    if task.aborted || task.polling || ended task then none
    else some { conn with forwards := conn.forwards.insert n { task with polling := true } }
  | none => none

/-- One step of a task that is being polled. `send_raw` queues while the connection lives. -/
def forward (registry : Registry) (conn : Conn) (n : Nat) : Option (Registry × Conn) :=
  match conn.forwards[n]? with
  | some task =>
    if task.polling && (registry.lock = .free || !task.reattaches) then
      match forwardRunEvents registry.store task.id task.forwarder
          (AgencyProxy.Conn.forwardAct task.forwarder conn.connected) with
      | some stepped =>
        some ({ registry with store := stepped.store },
          { conn with
            forwards := conn.forwards.insert n { task with forwarder := stepped.forwarder }
            queue :=
              if conn.connected then
                conn.queue ++ (stepped.handed.map (Queued.notified n)).toList
              else conn.queue })
      | none => none
    else none
  | none => none

def suspend (registry : Registry) (conn : Conn) (n : Nat) : Option Conn :=
  match conn.forwards[n]? with
  | some task =>
    if task.polling && task.parks registry.store then
      some { conn with forwards := conn.forwards.insert n { task with polling := false } }
    else none
  | none => none

/-- An aborted task is dropped where it is suspended, without its `remove_if_current`. -/
def reap (registry : Registry) (conn : Conn) (n : Nat) : Option (Registry × Conn) :=
  match conn.forwards[n]? with
  | some task =>
    if task.aborted && !task.polling then
      let stepped := Forwarder.close registry.store task.id task.forwarder
      some ({ registry with store := stepped.store },
        { conn with
          forwards := conn.forwards.insert n { task with forwarder := stepped.forwarder } })
    else none
  | none => none

/-- `RunSubscriptions::remove_if_current`, after the loop. -/
def removeIfCurrent (conn : Conn) (n : Nat) : Option Conn :=
  match conn.forwards[n]? with
  | some task =>
    if task.polling && ended task then
      some
        { conn with
          forwards := conn.forwards.insert n { task with polling := false }
          active :=
            if conn.active[task.id]? = some n then conn.active.erase task.id else conn.active }
    else none
  | none => none

end Conn

/-! ## The server -/

structure Server where
  registry : Registry
  /-- `RunSubscriptions.next_generation`. -/
  nextGeneration : Nat
  conns : ExtTreeMap Nat Conn

namespace Server

def init : Server := ⟨.init, 0, ∅⟩

inductive Act (P : Type) where
  | connect (c : Nat)
  | conn (c : Nat) (a : Conn.Act)
  /-- A step of a run task, or of any other user of the registry. -/
  | registry (a : Registry.Act P)

/-- A step of a connection: the registry, the generation counter and the connection after it. -/
def connStep (registry : Registry) (generation : Nat) (conn : Conn) :
    Conn.Act → Option (Registry × Nat × Conn)
  | .call request => (conn.call request).map (registry, generation, ·)
  | .attach => (conn.attach registry).map fun p => (p.1, generation, p.2)
  | .nextGeneration =>
    match conn.handler with
    | .numbering request attachment =>
      some (registry, generation + 1,
        { conn with handler := .inserting request attachment (generation + 1) })
    | _ => none
  | .insert => conn.insert.map (registry, generation, ·)
  | .spawn => conn.spawn.map (registry, generation, ·)
  | .unsubscribe => conn.unsubscribe.map (registry, generation, ·)
  | .respond => conn.respond.map (registry, generation, ·)
  | .disconnect => conn.disconnect.map (registry, generation, ·)
  | .wake n => (conn.wake n).map (registry, generation, ·)
  | .forward n => (conn.forward registry n).map fun p => (p.1, generation, p.2)
  | .suspend n => (conn.suspend registry n).map (registry, generation, ·)
  | .reap n => (conn.reap registry n).map fun p => (p.1, generation, p.2)
  | .removeIfCurrent n => (conn.removeIfCurrent n).map (registry, generation, ·)

def step {P : Type} (toValue : P → Except String Value) (s : Server) : Act P → Option Server
  | .connect c =>
    if s.conns.contains c then none else some { s with conns := s.conns.insert c .init }
  | .conn c a =>
    match s.conns[c]? with
    | some conn =>
      (connStep s.registry s.nextGeneration conn a).map fun (registry, nextGeneration, conn) =>
        { registry, nextGeneration, conns := s.conns.insert c conn }
    | none => none
  | .registry a => (s.registry.step toValue a).map fun registry => { s with registry }

end Server

end AgencyProxy.WebSocket
