import AgencyProxy.Broadcast
import AgencyProxy.Protocol

/-!
# Live runs and the run store

The data of `runtime.rs`: a `LiveRun` with its snapshot, replay journal, broadcast
channel, cancellation sender and completion flag, and the map of them behind the `runs`
lock. Each operation here is what one critical section of `RuntimeRegistry` does to that
map; who may run it when is in `AgencyProxy.Runtime.Registry`.

`Store.published` is a history variable: every event ever published on a run.
-/

namespace AgencyProxy.Runtime

open Std

def maxReplayEvents : Nat := 2048

structure SequencedEvent where
  runId : RunId
  sequence : Nat
  event : RunEvent

structure LiveRun where
  snapshot : RunSnapshot
  journal : List SequencedEvent
  replayFloor : Nat
  events : Broadcast.Shared SequencedEvent
  /-- The cancellation sender, until a caller takes it. -/
  cancel : Option Unit
  completed : Bool

structure Attachment where
  snapshot : RunSnapshot
  replay : List SequencedEvent
  events : Broadcast.Receiver

inductive RuntimeError where
  | conflict
  | notFound
  | replayExpired (requested earliest : Nat)
  | provider (name : String)
  | permission (name : String)
  | start (error : String)
  | control (error : String)
  deriving DecidableEq, Repr

/-- The error's display text. -/
def RuntimeError.message : RuntimeError → String
  | .conflict => "run already exists"
  | .notFound => "run does not exist"
  | .replayExpired requested earliest =>
    s!"requested replay sequence {requested} is older than retained sequence {earliest}"
  | .provider name => s!"unsupported provider: {name}"
  | .permission name => s!"unsupported permission: {name}"
  | .start error => s!"agent run could not start: {error}"
  | .control error => s!"agent control failed: {error}"

def isActiveState : RunState → Bool
  | .starting | .running | .waitingApproval | .finishing => true
  | _ => false

/-- The loop of `push_journal`: pop the front while the journal is too long, raising the floor
to the last sequence it popped. -/
def evict : List SequencedEvent → Nat → List SequencedEvent × Nat
  | [], floor => ([], floor)
  | event :: rest, floor =>
    if (event :: rest).length > maxReplayEvents then evict rest (max floor event.sequence)
    else (event :: rest, floor)

def pushJournal (journal : List SequencedEvent) (floor : Nat) (event : SequencedEvent) :
    List SequencedEvent × Nat :=
  evict (journal ++ [event]) floor

/-- The run that `start_owned` inserts. Its channel starts with no receiver: the one `channel`
returns is dropped at once. -/
def LiveRun.fresh (runId : RunId) (spec : RunRequest) : LiveRun where
  snapshot :=
    { runId, state := .starting, provider := spec.provider, model := spec.model
      providerSessionId := spec.resumeSessionId, latestSequence := 0, acknowledgedSequence := 0
      workspaceRoots := spec.workspaceRoots, metadata := spec.metadata }
  journal := []
  replayFloor := 0
  events := (Broadcast.channel SequencedEvent 256).1.dropReceiver
  cancel := some ()
  completed := false

/-- The event that the next `publish` on the run journals and sends. -/
def LiveRun.sequenced (run : LiveRun) (runId : RunId) (event : RunEvent) : SequencedEvent :=
  ⟨runId, run.snapshot.latestSequence + 1, event⟩

/-- Whether setting `state` takes the run from an active to a terminal state. -/
def LiveRun.finishes (run : LiveRun) (state : Option RunState) : Bool :=
  isActiveState run.snapshot.state && !isActiveState (state.getD run.snapshot.state)

/-- `publish` up to the send. When the run `finishes`, the same critical section goes on to set
`completed` and to lower the activity count. -/
def LiveRun.publish (run : LiveRun) (runId : RunId) (event : RunEvent) (state : Option RunState)
    (session : Option String) : LiveRun :=
  let sequenced := run.sequenced runId event
  { run with
    snapshot :=
      { run.snapshot with
        latestSequence := run.snapshot.latestSequence + 1
        state := state.getD run.snapshot.state
        providerSessionId := session.or run.snapshot.providerSessionId }
    journal := (pushJournal run.journal run.replayFloor sequenced).1
    replayFloor := (pushJournal run.journal run.replayFloor sequenced).2
    events := (run.events.send sequenced).2 }

/-- `attach`: the replay and the subscription are one cut of the run. -/
def LiveRun.attach (run : LiveRun) (after : Nat) : Except RuntimeError (Attachment × LiveRun) :=
  if after < run.replayFloor then .error (.replayExpired after run.replayFloor)
  else .ok
    ({ snapshot := run.snapshot
       replay := run.journal.filter fun event => after < event.sequence
       events := run.events.subscribe.1 },
     { run with events := run.events.subscribe.2 })

def LiveRun.acknowledge (run : LiveRun) (through : Nat) : LiveRun :=
  let acknowledged :=
    max run.snapshot.acknowledgedSequence (min through run.snapshot.latestSequence)
  { run with
    snapshot := { run.snapshot with acknowledgedSequence := acknowledged }
    journal := run.journal.dropWhile fun event => event.sequence ≤ acknowledged }

@[simp] theorem LiveRun.sequenced_sequence (run : LiveRun) (id : RunId) (event : RunEvent) :
    (run.sequenced id event).sequence = run.snapshot.latestSequence + 1 := rfl

/-- What an accepted attach returns, and what it leaves. -/
theorem LiveRun.attach_ok {run run' : LiveRun} {after : Nat} {attachment : Attachment}
    (h : run.attach after = .ok (attachment, run')) :
    run.replayFloor ≤ after ∧
      attachment = ⟨run.snapshot, run.journal.filter fun event => after < event.sequence,
        run.events.subscribe.1⟩ ∧
      run' = { run with events := run.events.subscribe.2 } := by
  unfold LiveRun.attach at h
  split at h
  · cases h
  · cases h; exact ⟨by omega, rfl, rfl⟩

/-- The map behind the `runs` lock. -/
structure Store where
  runs : ExtTreeMap RunId LiveRun
  /-- History: every event published on each run. -/
  published : RunId → List SequencedEvent

namespace Store

def empty : Store := ⟨∅, fun _ => []⟩

/-- Replace a run the map holds (`get_mut`). -/
def modify (s : Store) (id : RunId) (f : LiveRun → LiveRun) : Store :=
  match s.runs[id]? with
  | some run => { s with runs := s.runs.insert id (f run) }
  | none => s

/-- The insert of `start_owned`, after its second check. -/
def insert (s : Store) (id : RunId) (spec : RunRequest) : Except RuntimeError Store :=
  if id ∈ s.runs then .error .conflict
  else .ok { s with runs := s.runs.insert id (.fresh id spec) }

/-- `RuntimeRegistry::publish`, up to the send. -/
def publish (s : Store) (id : RunId) (event : RunEvent) (state : Option RunState)
    (session : Option String) : Store :=
  match s.runs[id]? with
  | some run =>
    { runs := s.runs.insert id (run.publish id event state session)
      published :=
        Function.update s.published id (s.published id ++ [run.sequenced id event]) }
  | none => s

@[simp] theorem modify_published (s : Store) (id : RunId) (f : LiveRun → LiveRun) :
    (s.modify id f).published = s.published := by
  unfold modify
  split <;> rfl

theorem modify_runs {s : Store} {id : RunId} {run : LiveRun} (h : s.runs[id]? = some run)
    (f : LiveRun → LiveRun) : (s.modify id f).runs = s.runs.insert id (f run) := by
  simp only [modify, h]

theorem publish_runs {s : Store} {id : RunId} {run : LiveRun} {event : RunEvent}
    {state : Option RunState} {session : Option String} (h : s.runs[id]? = some run) :
    (s.publish id event state session).runs =
      s.runs.insert id (run.publish id event state session) := by
  simp only [publish, h]

theorem publish_published {s : Store} {id : RunId} {run : LiveRun} {event : RunEvent}
    {state : Option RunState} {session : Option String} (h : s.runs[id]? = some run) :
    (s.publish id event state session).published =
      Function.update s.published id (s.published id ++ [run.sequenced id event]) := by
  simp only [publish, h]

/-- `RuntimeRegistry::acknowledge`. -/
def acknowledge (s : Store) (id : RunId) (through : Nat) : Except RuntimeError Store :=
  match s.runs[id]? with
  | some run => .ok { s with runs := s.runs.insert id (run.acknowledge through) }
  | none => .error .notFound

/-- `RuntimeRegistry::attach`. -/
def attach (s : Store) (id : RunId) (after : Nat) : Except RuntimeError (Attachment × Store) :=
  match s.runs[id]? with
  | some run =>
    match run.attach after with
    | .ok (attachment, run') => .ok (attachment, { s with runs := s.runs.insert id run' })
    | .error e => .error e
  | none => .error .notFound

/-- An accepted attach found the run and attached to it. -/
theorem attach_ok {s s' : Store} {id : RunId} {after : Nat} {attachment : Attachment}
    (h : s.attach id after = .ok (attachment, s')) :
    ∃ run run', s.runs[id]? = some run ∧ run.attach after = .ok (attachment, run') ∧
      s' = { s with runs := s.runs.insert id run' } := by
  unfold attach at h
  split at h
  · rename_i run hrun
    split at h
    · rename_i att run' ha
      cases h
      exact ⟨run, run', hrun, ha, rfl⟩
    · cases h
  · cases h

/-- `Drop for Receiver` of a receiver of the run's channel. -/
def dropReceiver (s : Store) (id : RunId) : Store :=
  s.modify id fun run => { run with events := run.events.dropReceiver }

/-- `RuntimeRegistry::list`. -/
def list (s : Store) : List RunSnapshot := s.runs.toList.map fun p => p.2.snapshot

end Store

end AgencyProxy.Runtime
