import AgencyProxy.Forwarder
import AgencyProxy.Runtime.Registry

/-!
# A Unix connection

`handle_connection` as a state machine. `Shared` is what all connections of a daemon share:
the registry, the lifecycle behind its lock, the shutdown flag and the drain tasks. A step
ends where the connection awaits something: a frame, a lock, a call into the registry or a
write, which may fail. Its forwarder tasks run beside it, on other threads: a task that is
being polled goes on until it suspends, and `abort` only keeps it from being polled again.

`consumed`, `written` and `attached` are history: the frames read, the frames written with
where they came from, and what each accepted `AttachRun` was answered with.
-/

namespace AgencyProxy

open AgencyProxy.Runtime Std

/-! ## Shared state -/

/-- The task spawned by an accepted `Shutdown`. -/
inductive Drain where
  /-- At `cancel_all`, of a terminating shutdown. -/
  | cancelling
  /-- At `wait_until_idle`. -/
  | waiting
  /-- At `request_shutdown.set()`. -/
  | setting
  | done
  deriving DecidableEq, Repr

/-- A call made into `agent_abstraction` on behalf of a client. -/
inductive ProviderCall where
  | send (id : RunId) (body : String)
  | respond (id : RunId) (approvalId : String) (decision : Decision)
  | interrupt (request : Request)
  deriving DecidableEq, Repr

structure Shared where
  registry : Registry
  /-- `Lifecycle.stopping`. -/
  stopping : Bool
  /-- The connection that holds the lifecycle lock. -/
  holder : Option Nat
  /-- The shutdown flag. -/
  shutdown : Bool
  /-- Drain tasks, by the connection that spawned them. -/
  drains : ExtTreeMap Nat Drain
  /-- History: the calls made into `agent_abstraction`. -/
  called : List ProviderCall

def Shared.init : Shared where
  registry := .init
  stopping := false
  holder := none
  shutdown := false
  drains := ∅
  called := []

/-- The lifecycle guard is dropped, if there is one. -/
def Shared.release (s : Shared) (locked : Bool) : Shared :=
  if locked then { s with holder := none } else s

def Shared.withStore (s : Shared) (store : Store) : Shared :=
  { s with registry := { s.registry with store } }

/-! ## Responses -/

def eventFrame (event : SequencedEvent) : ServerFrame :=
  .event event.runId event.sequence event.event

/-- The response of `send_runtime_error`. -/
def runtimeError (error : RuntimeError) : ServerResponse :=
  let code : ErrorCode := match error with
    | .notFound => .notFound
    | .conflict => .conflict
    | .replayExpired _ _ => .conflict
    | .provider _ | .permission _ => .protocolViolation
    | .start _ | .control _ => .internal
  .error code error.message

/-- `Accepted`, or the error. -/
def accepted : Except RuntimeError Unit → ServerResponse
  | .ok () => .accepted
  | .error e => runtimeError e

def serverCapabilities : List Capability :=
  [.eventReplay, .liveInjection, .approvals, .cancellation, .sessionInterruption,
   .providerDetection, .lifecycleControl]

/-! ## The connection -/

/-- What `receive_client` returns; `undecodable` is also a frame that is not text. -/
inductive Incoming where
  | frame (frame : ClientFrame)
  | closed
  | undecodable
  | failed

/-- What follows a response once it is written. -/
inductive Next where
  | loop
  /-- `return Ok(())` after the error for a first frame. -/
  | exit
  /-- The replay of an accepted `AttachRun`. -/
  | replay (id : RunId) (after : Nat) (attachment : Attachment)
  /-- `request_shutdown.set()`, of `ShutdownIfIdle`. -/
  | setShutdown
  /-- The spawn of the drain task, of `Shutdown`. -/
  | drain (mode : ShutdownMode)

/-- How `handle_connection` returned. -/
inductive Exit where
  | ok
  | unreadable
  | undecodable
  /-- A write failed: of the response to a request, or of an event. -/
  | writeFailed (unanswered : Option ClientFrame)

inductive Pc where
  /-- At the first `receive_client`. -/
  | opening
  /-- At the `select` of the loop. -/
  | selecting
  /-- Writing a frame of the outbound queue. -/
  | relaying (n : Nat) (event : SequencedEvent)
  /-- At the first await of the request's arm. -/
  | handling (request : ClientFrame)
  /-- Has the lifecycle lock, before it looks at the lifecycle. -/
  | locked (request : ClientFrame)
  /-- Has the lifecycle lock, awaits `registry.start`. -/
  | starting (request : ClientFrame) (call : Nat)
  /-- Awaits `registry.cancel`. -/
  | cancelling (request : ClientFrame) (call : Nat)
  /-- Writing the response to a request. -/
  | answering (request : ClientFrame) (response : ServerResponse) (next : Next) (locked : Bool)
  /-- Writing the replay of attachment `n`. -/
  | replaying (n : Nat) (id : RunId) (rest : List SequencedEvent) (forwarder : Forwarder)
  /-- Has the lifecycle lock, at `request_shutdown.set()`. -/
  | stopping
  | returned (exit : Exit)

/-- A frame that was written, with its origin; `n` is the number of the attachment. -/
inductive Written where
  | response (request : ClientFrame) (response : ServerResponse)
  | replayed (n : Nat) (event : SequencedEvent)
  | live (n : Nat) (event : SequencedEvent)

/-- The frame as it is on the wire. -/
def Written.frame : Written → ServerFrame
  | .response request answer => .response request.requestId answer
  | .replayed _ event | .live _ event => eventFrame event

/-- A forwarder task. -/
structure Forward where
  id : RunId
  forwarder : Forwarder
  aborted : Bool
  /-- The task is being polled. -/
  polling : Bool

/-- The task is at the `runs` lock of a re-attach. -/
def Forward.reattaches (task : Forward) : Bool :=
  match task.forwarder.phase with
  | .lagged => true
  | _ => false

/-- The task may suspend: at `recv` with nothing to receive, or at the lock of a re-attach. -/
def Forward.parks (store : Store) (task : Forward) : Bool :=
  match task.forwarder.phase with
  | .receiving =>
    store.runs[task.id]?.any fun run =>
      (Broadcast.take run.events task.forwarder.events).1.isNone
  | .lagged => true
  | _ => false

/-- What an `AttachRun` that was answered with `Run` asked for and was given. -/
structure Attached where
  id : RunId
  after : Nat
  replay : List SequencedEvent

structure Conn where
  pc : Pc
  /-- The queue that forwarders push to, each frame with its attachment. -/
  outbound : List (Nat × SequencedEvent)
  /-- `attachments`: whose `AbortHandle` is kept for a run. -/
  attachments : ExtTreeMap RunId Nat
  forwards : ExtTreeMap Nat Forward
  /-- History: the client frames read, `none` for one that does not decode. -/
  consumed : List (Option ClientFrame)
  /-- History. -/
  written : List Written
  /-- History: attachments by number. -/
  attached : List Attached

/-- What the environment supplies to a request: the result of a call into `agent_abstraction`,
or the number of a call into the registry. -/
inductive Reply where
  | nothing
  | providers (providers : List ProviderStatus)
  | accountUsage (providers : List ProviderAccountUsage)
  | control (result : Except String Unit)
  | interrupted (result : Except String Bool)
  | call (k : Nat)

namespace Conn

def init : Conn where
  pc := .opening
  outbound := []
  attachments := ∅
  forwards := ∅
  consumed := []
  written := []
  attached := []

inductive Act where
  | receive (incoming : Incoming)
  /-- Take the next frame of the outbound queue. -/
  | relay
  | handle (reply : Reply)
  /-- Look at the lifecycle; `k` numbers the call that an admitted `StartRun` makes. -/
  | check (k : Nat)
  | started
  | canceled
  | write (succeeds : Bool)
  /-- Replace the run's forwarder once the replay is written. -/
  | spawn
  | setShutdown
  /-- A step of the task that forwards attachment `n`. -/
  | wake (n : Nat)
  | forward (n : Nat)
  | suspend (n : Nat)
  | reap (n : Nat)

/-- The outbound queue still has its reader. -/
def isOpen (conn : Conn) : Bool :=
  match conn.pc with
  | .returned _ => false
  | _ => true

/-- `handle.abort()` on the run's forwarder. -/
def abort (conn : Conn) (id : RunId) : Conn :=
  match conn.attachments[id]? with
  | some n =>
    { conn with
      attachments := conn.attachments.erase id
      forwards := conn.forwards.modify n fun task => { task with aborted := true } }
  | none => conn

/-- The loop at the end of `handle_connection`. -/
def abortAll (conn : Conn) : Conn :=
  { conn with
    attachments := ∅
    forwards := conn.forwards.map fun n task =>
      if conn.attachments[task.id]? = some n then { task with aborted := true } else task }

@[simp] theorem abort_pc (conn : Conn) (id : RunId) : (conn.abort id).pc = conn.pc := by
  unfold abort; split <;> rfl

@[simp] theorem abort_written (conn : Conn) (id : RunId) :
    (conn.abort id).written = conn.written := by
  unfold abort; split <;> rfl

theorem abort_consumed (conn : Conn) (id : RunId) : (conn.abort id).consumed = conn.consumed := by
  unfold abort; split <;> rfl

@[simp] theorem abort_attached (conn : Conn) (id : RunId) :
    (conn.abort id).attached = conn.attached := by
  unfold abort; split <;> rfl

@[simp] theorem abort_outbound (conn : Conn) (id : RunId) :
    (conn.abort id).outbound = conn.outbound := by
  unfold abort; split <;> rfl

/-- An abort leaves every task its run and its forwarder. -/
theorem abort_forwards {conn : Conn} {id : RunId} {n : Nat} {task : Forward}
    (h : (conn.abort id).forwards[n]? = some task) :
    ∃ task₀, conn.forwards[n]? = some task₀ ∧ task.id = task₀.id ∧
      task.forwarder = task₀.forwarder := by
  unfold abort at h
  split at h
  · dsimp only at h
    rw [ExtTreeMap.getElem?_modify] at h
    split at h
    · obtain ⟨task₀, h₀, rfl⟩ := Option.map_eq_some_iff.1 h
      rename_i he
      exact ⟨task₀, by rw [← h₀]; simp at he; rw [he], rfl, rfl⟩
    · exact ⟨task, h, rfl, rfl⟩
  · exact ⟨task, h, rfl, rfl⟩

theorem abortAll_forwards {conn : Conn} {n : Nat} {task : Forward}
    (h : conn.abortAll.forwards[n]? = some task) :
    ∃ task₀, conn.forwards[n]? = some task₀ ∧ task.id = task₀.id ∧
      task.forwarder = task₀.forwarder := by
  simp only [abortAll, ExtTreeMap.getElem?_map] at h
  obtain ⟨task₀, h₀, rfl⟩ := Option.map_eq_some_iff.1 h
  refine ⟨task₀, h₀, ?_⟩
  split <;> exact ⟨rfl, rfl⟩

def answer (conn : Conn) (request : ClientFrame) (response : ServerResponse) : Conn :=
  { conn with pc := .answering request response .loop false }

/-- The answer to the first frame: a hello of the same major version, or an error. -/
def greet (frame : ClientFrame) : Pc :=
  match frame.message with
  | .hello _ version =>
    match protocolVersion.negotiate version with
    | some version =>
      .answering frame (.hello "agency-proxy" version serverCapabilities) .loop false
    | none =>
      .answering frame
        (.error .incompatibleVersion "the protocol major version is incompatible") .exit false
  | _ => .answering frame (.error .protocolViolation "the first frame must be hello") .exit false

/-- `receive_client`, at the start or in the `select`, which polls the outbound queue first. -/
def receive (conn : Conn) (incoming : Incoming) : Option Conn :=
  match conn.pc with
  | .opening =>
    match incoming with
    | .frame frame =>
      some { conn with consumed := conn.consumed ++ [some frame], pc := greet frame }
    | .closed => some { conn with pc := .returned .ok }
    | .undecodable =>
      some { conn with consumed := conn.consumed ++ [none], pc := .returned .undecodable }
    | .failed => some { conn with pc := .returned .unreadable }
  | .selecting =>
    if conn.outbound.isEmpty then
      match incoming with
      | .frame frame =>
        some { conn with consumed := conn.consumed ++ [some frame], pc := .handling frame }
      | .closed => some { conn.abortAll with pc := .returned .ok }
      | .undecodable =>
        some { conn with consumed := conn.consumed ++ [none], pc := .returned .undecodable }
      | .failed => some { conn with pc := .returned .unreadable }
    else none
  | _ => none

def relay (conn : Conn) : Option Conn :=
  match conn.pc, conn.outbound with
  | .selecting, (n, event) :: rest => some { conn with outbound := rest, pc := .relaying n event }
  | _, _ => none

/-- `inject` and `decide`: look the run up, then hand the call to its control. -/
def control (s : Shared) (conn : Conn) (request : ClientFrame) (id : RunId) (call : ProviderCall) :
    Reply → Option (Shared × Conn)
  | .control result =>
    if s.registry.lock = .free then
      if id ∈ s.registry.store.runs then
        some ({ s with called := s.called ++ [call] },
          conn.answer request (accepted (result.mapError .control)))
      else some (s, conn.answer request (runtimeError .notFound))
    else none
  | _ => none

/-- A request's arm, up to its answer or to the lock or call that it awaits. -/
def handle (s : Shared) (c : Nat) (conn : Conn) (reply : Reply) : Option (Shared × Conn) :=
  match conn.pc with
  | .handling request =>
    match request.message, reply with
    | .listRuns, .nothing =>
      if s.registry.lock = .free then
        some (s, conn.answer request (.runs s.registry.store.list))
      else none
    | .probeProviders, .providers providers =>
      some (s, conn.answer request (.providers providers))
    | .readAccountUsage, .accountUsage providers =>
      some (s, conn.answer request (.accountUsage providers))
    | .shutdownIfIdle, .nothing | .shutdown _, .nothing | .startRun _ _ _, .nothing =>
      if s.holder = none then
        some ({ s with holder := some c }, { conn with pc := .locked request })
      else none
    | .attachRun id after, .nothing =>
      if s.registry.lock = .free then
        match s.registry.store.attach id after with
        | .ok (attachment, store) =>
          some (s.withStore store,
            { conn with
              pc := .answering request (.run attachment.snapshot) (.replay id after attachment)
                false })
        | .error e => some (s, conn.answer request (runtimeError e))
      else none
    | .detachRun id, .nothing => some (s, (conn.abort id).answer request .accepted)
    | .injectMessage id body _, reply => control s conn request id (.send id body) reply
    | .cancelRun id _, .call k =>
      (s.registry.cancelCall k id).map fun registry =>
        ({ s with registry }, { conn with pc := .cancelling request k })
    | .interruptSession provider sessionId binary _, .interrupted result =>
      match interruptRequest provider sessionId binary with
      | .error e => some (s, conn.answer request (runtimeError e))
      | .ok call =>
        some ({ s with called := s.called ++ [.interrupt call] },
          conn.answer request (match result with
            | .ok interrupted => .sessionInterrupted interrupted
            | .error e => runtimeError (.control e)))
    | .decideApproval id approvalId decision _, reply =>
      control s conn request id (.respond id approvalId (decisionFor decision)) reply
    | .ackEvents id through, .nothing =>
      if s.registry.lock = .free then
        match s.registry.store.acknowledge id through with
        | .ok store => some (s.withStore store, conn.answer request .accepted)
        | .error e => some (s, conn.answer request (runtimeError e))
      else none
    | .hello _ _, .nothing =>
      some (s, conn.answer request (.error .protocolViolation "hello may only be sent once"))
    | _, _ => none
  | _ => none

/-- Under the lifecycle lock. `active_count` reads the count without the `runs` lock. -/
def check (s : Shared) (conn : Conn) (k : Nat) : Option (Shared × Conn) :=
  match conn.pc with
  | .locked request =>
    let refuse (message : String) : Option (Shared × Conn) :=
      some (s, { conn with pc := .answering request (.error .conflict message) .loop true })
    match request.message with
    | .shutdownIfIdle =>
      if s.registry.active > 0 then refuse s!"AgencyProxy has {s.registry.active} active run(s)"
      else some ({ s with stopping := true },
        { conn with pc := .answering request .accepted .setShutdown true })
    | .shutdown mode =>
      if s.stopping then refuse "AgencyProxy is already stopping"
      else some ({ s with stopping := true },
        { conn with pc := .answering request .accepted (.drain mode) true })
    | .startRun id spec _ =>
      if s.stopping then refuse "AgencyProxy is stopping"
      else (s.registry.startCall k id spec).map fun registry =>
        ({ s with registry }, { conn with pc := .starting request k })
    | _ => none
  | _ => none

def started (s : Shared) (conn : Conn) : Option (Shared × Conn) :=
  match conn.pc with
  | .starting request k =>
    match s.registry.starts[k]? with
    | some (.returned _ result) =>
      some (s, { conn with pc := .answering request (accepted result) .loop true })
    | _ => none
  | _ => none

def canceled (s : Shared) (conn : Conn) : Option (Shared × Conn) :=
  match conn.pc with
  | .cancelling request k =>
    match s.registry.cancels[k]? with
    | some (.returned _ result) => some (s, conn.answer request (accepted result))
    | _ => none
  | _ => none

/-- What follows a response that was written. Dropping the lifecycle guard and spawning the
drain task are one step: nothing between them can fail, or tell that the task is not there. -/
def proceed (s : Shared) (c : Nat) (conn : Conn) (locked : Bool) : Next → Shared × Conn
  | .loop => (s.release locked, { conn with pc := .selecting })
  | .exit => (s.release locked, { conn with pc := .returned .ok })
  | .replay id after attachment =>
    (s.release locked,
      { conn with
        attached := conn.attached ++ [⟨id, after, attachment.replay⟩]
        pc := .replaying conn.attached.length id attachment.replay
          (Forwarder.start attachment after) })
  | .setShutdown => (s, { conn with pc := .stopping })
  | .drain mode =>
    ({ s.release locked with
        drains := s.drains.insert c (if mode = .terminate then .cancelling else .waiting) },
      { conn with pc := .returned .ok })

/-- A write that fails returns with every local dropped: the lifecycle guard, and the receiver
of an attachment that has no forwarder yet. Forwarders are not aborted. -/
def write (s : Shared) (c : Nat) (conn : Conn) (succeeds : Bool) : Option (Shared × Conn) :=
  match conn.pc with
  | .answering request response next locked =>
    if succeeds then
      some (proceed s c { conn with written := conn.written ++ [.response request response] } locked
        next)
    else
      let s := s.release locked
      let s := match next with
        | .replay id _ _ => s.withStore (s.registry.store.dropReceiver id)
        | _ => s
      some (s, { conn with pc := .returned (.writeFailed (some request)) })
  | .relaying n event =>
    if succeeds then
      some (s, { conn with written := conn.written ++ [.live n event], pc := .selecting })
    else some (s, { conn with pc := .returned (.writeFailed none) })
  | .replaying n id (event :: rest) forwarder =>
    if succeeds then
      some (s, { conn with
        written := conn.written ++ [.replayed n event], pc := .replaying n id rest forwarder })
    else
      some (s.withStore (s.registry.store.dropReceiver id),
        { conn with pc := .returned (.writeFailed none) })
  | _ => none

def spawn (conn : Conn) : Option Conn :=
  match conn.pc with
  | .replaying n id [] forwarder =>
    let conn := conn.abort id
    some { conn with
      attachments := conn.attachments.insert id n
      forwards := conn.forwards.insert n ⟨id, forwarder, false, false⟩
      pc := .selecting }
  | _ => none

def setShutdown (s : Shared) (conn : Conn) : Option (Shared × Conn) :=
  match conn.pc with
  | .stopping =>
    some ({ s with shutdown := true, holder := none }, { conn with pc := .returned .ok })
  | _ => none

/-! ## Its forwarder tasks -/

/-- The executor polls the task; one that was aborted is not polled again. -/
def wake (conn : Conn) (n : Nat) : Option Conn :=
  match conn.forwards[n]? with
  | some task =>
    if task.aborted || task.polling then none
    else some { conn with forwards := conn.forwards.insert n { task with polling := true } }
  | none => none

/-- The next action of a forwarder whose sink answers `accepts`. -/
def forwardAct (f : Forwarder) (accepts : Bool) : Forwarder.Act :=
  match f.phase with
  | .receiving => .recv accepts
  | .lagged => .reattach
  | _ => .replay accepts

/-- One step of a task that is being polled. Its sink takes frames while the connection lives. -/
def forward (s : Shared) (conn : Conn) (n : Nat) : Option (Shared × Conn) :=
  match conn.forwards[n]? with
  | some task =>
    if task.polling && (s.registry.lock = .free || !task.reattaches) then
      match unixForward s.registry.store task.id task.forwarder
          (forwardAct task.forwarder conn.isOpen) with
      | some stepped =>
        some (s.withStore stepped.store,
          { conn with
            forwards := conn.forwards.insert n { task with forwarder := stepped.forwarder }
            outbound :=
              if conn.isOpen then conn.outbound ++ (stepped.handed.map (n, ·)).toList
              else conn.outbound })
      | none => none
    else none
  | none => none

def suspend (s : Shared) (conn : Conn) (n : Nat) : Option Conn :=
  match conn.forwards[n]? with
  | some task =>
    if task.polling && task.parks s.registry.store then
      some { conn with forwards := conn.forwards.insert n { task with polling := false } }
    else none
  | none => none

/-- An aborted task is dropped where it is suspended. -/
def reap (s : Shared) (conn : Conn) (n : Nat) : Option (Shared × Conn) :=
  match conn.forwards[n]? with
  | some task =>
    if task.aborted && !task.polling then
      let stepped := Forwarder.close s.registry.store task.id task.forwarder
      some (s.withStore stepped.store,
        { conn with
          forwards := conn.forwards.insert n { task with forwarder := stepped.forwarder } })
    else none
  | none => none

def step (s : Shared) (c : Nat) (conn : Conn) : Act → Option (Shared × Conn)
  | .receive incoming => (conn.receive incoming).map (s, ·)
  | .relay => conn.relay.map (s, ·)
  | .handle reply => conn.handle s c reply
  | .check k => conn.check s k
  | .started => conn.started s
  | .canceled => conn.canceled s
  | .write succeeds => conn.write s c succeeds
  | .spawn => conn.spawn.map (s, ·)
  | .setShutdown => conn.setShutdown s
  | .wake n => (conn.wake n).map (s, ·)
  | .forward n => conn.forward s n
  | .suspend n => (conn.suspend s n).map (s, ·)
  | .reap n => conn.reap s n

end Conn

end AgencyProxy
