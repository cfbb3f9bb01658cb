import AgencyProxy.Runtime.Store

/-!
# Event forwarders

The loop that carries a run's events from its channel to one client, in its two copies:
the one written inline in `handle_connection` (`unixForward`) and `forward_run_events` of
the WebSocket transport (`forwardRunEvents`). A step is what the task does between two
points where the run or its sink can change under it: one `recv`, one re-attach after a
lag, or one event of the replay that the re-attach returned.
-/

namespace AgencyProxy

open AgencyProxy.Runtime AgencyProxy.Broadcast

namespace Forwarder

/-- Where the loop stands. -/
inductive Phase where
  /-- At `events.recv()`. -/
  | receiving
  /-- Told of a lag, at `registry.attach(.., last_sequence)`. -/
  | lagged
  /-- In the `for` over the replay; `events` replaces the receiver when it is done. -/
  | replaying (rest : List SequencedEvent) (events : Receiver)
  | ended

/-- One step of the task; `accepts` is the sink's answer if the step hands it a frame. -/
inductive Act where
  | recv (accepts : Bool)
  | reattach
  | replay (accepts : Bool)

end Forwarder

structure Forwarder where
  events : Receiver
  lastSequence : Nat
  phase : Forwarder.Phase

namespace Forwarder

/-- What a step leaves: the runs, the task, and the event it handed to its sink, if any. -/
structure Stepped where
  store : Store
  forwarder : Forwarder
  handed : Option SequencedEvent := none

/-- The task returns, or is dropped at a suspension point, with every receiver it holds. -/
def close (store : Store) (id : RunId) (f : Forwarder) : Stepped :=
  match f.phase with
  | .receiving | .lagged =>
    { store := store.dropReceiver id, forwarder := { f with phase := .ended } }
  | .replaying _ _ =>
    { store := (store.dropReceiver id).dropReceiver id, forwarder := { f with phase := .ended } }
  | .ended => { store, forwarder := f }

/-- `last_sequence = event.sequence`, then the frame goes to the sink; a refusal ends the task. -/
def emit (store : Store) (id : RunId) (f : Forwarder) (event : SequencedEvent) (accepts : Bool) :
    Stepped :=
  let f := { f with lastSequence := event.sequence }
  if accepts then { store, forwarder := f, handed := some event }
  else { close store id f with handed := some event }

/-- The `match events.recv().await` of both copies. A receiver with nothing to receive parks. -/
def recv (store : Store) (id : RunId) (f : Forwarder) (accepts : Bool) : Option Stepped :=
  match store.runs[id]? with
  | none => none
  | some run =>
    match take run.events f.events with
    | (none, _) => some { store, forwarder := f }
    | (some (.ok event), events) =>
      if event.sequence ≤ f.lastSequence then some { store, forwarder := { f with events } }
      else some (emit store id { f with events } event accepts)
    | (some (.error (.lagged _)), events) =>
      some { store, forwarder := { f with events, phase := .lagged } }
    | (some (.error .closed), events) => some (close store id { f with events })

/-- The re-attach of both copies; a refused one ends the task. -/
def reattach (store : Store) (id : RunId) (f : Forwarder) : Stepped :=
  match store.attach id f.lastSequence with
  | .ok (attachment, store) =>
    { store, forwarder := { f with phase := .replaying attachment.replay attachment.events } }
  | .error _ => close store id f

/-- The end of the replay: `events = replay.events` drops the lagged receiver. -/
def resume (store : Store) (id : RunId) (f : Forwarder) (events : Receiver) : Stepped :=
  { store := store.dropReceiver id, forwarder := { f with events, phase := .receiving } }

end Forwarder

open Forwarder

/-- The forwarder of `handle_connection`'s `AttachRun` branch. -/
def unixForward (store : Store) (id : RunId) (f : Forwarder) : Forwarder.Act → Option Stepped
  | .recv accepts =>
    match f.phase with
    | .receiving => recv store id f accepts
    | _ => none
  | .reattach =>
    match f.phase with
    | .lagged => some (reattach store id f)
    | _ => none
  | .replay accepts =>
    match f.phase with
    | .replaying (event :: rest) events =>
      some (emit store id { f with phase := .replaying rest events } event accepts)
    | .replaying [] events => some (resume store id f events)
    | _ => none

/-- `forward_run_events`: its replay loop checks each event against `last_sequence` again. -/
def forwardRunEvents (store : Store) (id : RunId) (f : Forwarder) :
    Forwarder.Act → Option Stepped
  | .recv accepts =>
    match f.phase with
    | .receiving => recv store id f accepts
    | _ => none
  | .reattach =>
    match f.phase with
    | .lagged => some (reattach store id f)
    | _ => none
  | .replay accepts =>
    match f.phase with
    | .replaying (event :: rest) events =>
      let f := { f with phase := .replaying rest events }
      if event.sequence ≤ f.lastSequence then some { store, forwarder := f }
      else some (emit store id f event accepts)
    | .replaying [] events => some (resume store id f events)
    | _ => none

/-- The forwarder that an attachment starts: it resumes after the last event of the replay. -/
def Forwarder.start (attachment : Attachment) (after : Nat) : Forwarder where
  events := attachment.events
  lastSequence := (attachment.replay.getLast?.map SequencedEvent.sequence).getD after
  phase := .receiving

/-- How many receivers of the run's channel the task holds. -/
def Forwarder.held (f : Forwarder) : Nat :=
  match f.phase with
  | .receiving | .lagged => 1
  | .replaying _ _ => 2
  | .ended => 0

end AgencyProxy
