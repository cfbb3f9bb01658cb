import AgencyProxy.Broadcast
import AgencyProxy.Lts
import AgencyProxy.Maps
import AgencyProxy.Protocol

/-!
# The client

One connection of the client crate: the task `drive`, the `Client` handles that queue
requests for it, and the event channel. A step of the task ends where it awaits something:
the next request or frame, or the send of a frame. Any number of callers are inside
`Client::request`, each known by the number of its call; a call's oneshot is the list of
its completions.

`calls`, `numbered`, `completions` and `log` are history: how many calls were made, which
request ids `drive` gave out, how calls completed, and which frames were sent and received.
-/

namespace AgencyProxy.Client

open Std

/-- `ClientError`; the I/O error is only for `connect`. -/
inductive ClientError where
  | transport (detail : String)
  | protocol (detail : String)
  | closed
  deriving DecidableEq, Repr

structure PendingRequest where
  message : ClientMessage
  /-- The call that awaits the response. -/
  response : Nat

/-- What `transport.next()` yields. -/
inductive Received where
  | frame (frame : ServerFrame)
  | undecodable (error : String)
  /-- A message that is not text. -/
  | notText
  | close
  | failed (error : String)
  /-- The stream has ended. -/
  | finished

/-- Where `drive` stands. -/
inductive Phase where
  /-- At the `select`. -/
  | selecting
  /-- At the send of a request's frame. -/
  | sending (frame : ClientFrame) (call : Nat)
  /-- Out of the loop, telling the waiters. -/
  | stopped (detail : String)
  | returned

inductive Entry where
  | sent (call requestId : Nat)
  | response (requestId : Nat) (response : ServerResponse)

structure Drive where
  /-- Live `Client` handles. -/
  clients : Nat
  requests : List PendingRequest
  nextRequestId : Nat
  /-- Who waits for the response to a request id. -/
  pending : ExtTreeMap Nat Nat
  events : Broadcast.Shared ServerFrame
  phase : Phase
  calls : Nat
  /-- Each call taken from the queue, with its request id. -/
  numbered : List (Nat × Nat)
  completions : List (Nat × Except ClientError ServerResponse)
  log : List Entry

namespace Drive

/-- As `connect` sets it up; one event sender is the handle's, one is `drive`'s. -/
def init : Drive where
  clients := 1
  requests := []
  nextRequestId := 1
  pending := ∅
  events := (Broadcast.channel ServerFrame 512).1.dropReceiver.cloneSender
  phase := .selecting
  calls := 0
  numbered := []
  completions := []
  log := []

inductive Act where
  /-- A call of `Client::request`. -/
  | request (message : ClientMessage)
  | clone
  | drop
  | subscribe
  | unsubscribe
  /-- Take the next request; `encoded` is the result of its serialisation. -/
  | take (encoded : Except String Unit)
  | sent (result : Except String Unit)
  | receive (incoming : Received)
  /-- Tell one waiter that `drive` has stopped. -/
  | notify (requestId : Nat)
  /-- `drive` returns. -/
  | finish

/-- `next_request_id.wrapping_add(1).max(1)` on a `u64`. -/
def wrappingNext (id : Nat) : Nat := max ((id + 1) % 2 ^ 64) 1

/-- The call gets its result. -/
def complete (s : Drive) (call : Nat) (result : Except ClientError ServerResponse) : Drive :=
  { s with completions := s.completions ++ [(call, result)] }

/-- `Client::request`: once the receiver of the queue is gone the call fails at once. -/
def request (s : Drive) (message : ClientMessage) : Option Drive :=
  if s.clients = 0 then none
  else
    match s.phase with
    | .returned => some { s.complete s.calls (.error .closed) with calls := s.calls + 1 }
    | _ =>
      some { s with requests := s.requests ++ [⟨message, s.calls⟩], calls := s.calls + 1 }

/-- The left branch of the `select`. -/
def take (s : Drive) (encoded : Except String Unit) : Option Drive :=
  match s.phase, s.requests with
  | .selecting, request :: rest =>
    let taken :=
      { s with
        requests := rest
        nextRequestId := wrappingNext s.nextRequestId
        numbered := s.numbered ++ [(request.response, s.nextRequestId)] }
    match encoded with
    | .error error => some (taken.complete request.response (.error (.protocol error)))
    | .ok () =>
      some { taken with phase := .sending ⟨s.nextRequestId, request.message⟩ request.response }
  | .selecting, [] =>
    if s.clients = 0 then some { s with phase := .stopped "request channel closed" } else none
  | _, _ => none

/-- The send of a request is done; a waiter that the insert replaces is dropped. -/
def sent (s : Drive) (result : Except String Unit) : Option Drive :=
  match s.phase with
  | .sending frame call =>
    match result with
    | .error detail =>
      some { s.complete call (.error (.transport detail)) with phase := .stopped detail }
    | .ok () =>
      some { s with
        pending := s.pending.insert frame.requestId call
        completions :=
          s.completions ++ (s.pending[frame.requestId]?.map (·, .error .closed)).toList
        log := s.log ++ [.sent call frame.requestId]
        phase := .selecting }
  | _ => none

/-- The right branch of the `select`, which polls the queue first: a request queued between the
two polls counts as queued after this step. -/
def receive (s : Drive) (incoming : Received) : Option Drive :=
  match s.phase with
  | .selecting =>
    if s.requests.isEmpty && s.clients != 0 then
      match incoming with
      | .finished => some { s with phase := .stopped "proxy closed the connection" }
      | .failed error => some { s with phase := .stopped error }
      | .close => some { s with phase := .stopped "proxy closed the connection" }
      | .notText => some s
      | .undecodable error => some { s with phase := .stopped error }
      | .frame (.response requestId response) =>
        let s := { s with log := s.log ++ [.response requestId response] }
        match s.pending[requestId]? with
        | some call =>
          some { s.complete call (.ok response) with pending := s.pending.erase requestId }
        | none => some s
      | .frame (.event runId sequence event) =>
        some { s with events := (s.events.send (.event runId sequence event)).2 }
    else none
  | _ => none

/-- One round of the loop over `pending` at the end of `drive`, whichever waiter is next. -/
def notify (s : Drive) (requestId : Nat) : Option Drive :=
  match s.phase, s.pending[requestId]? with
  | .stopped detail, some call =>
    some { s.complete call (.error (.transport detail)) with
      pending := s.pending.erase requestId }
  | _, _ => none

/-- `drive` returns: the requests still queued are dropped with the receiver of the queue. -/
def finish (s : Drive) : Option Drive :=
  match s.phase with
  | .stopped _ =>
    if s.pending.isEmpty then
      some { s with
        requests := []
        completions := s.completions ++ s.requests.map fun r => (r.response, .error .closed)
        events := s.events.dropSender
        phase := .returned }
    else none
  | _ => none

def step (s : Drive) : Act → Option Drive
  | .request message => s.request message
  | .clone =>
    if s.clients = 0 then none
    else some { s with clients := s.clients + 1, events := s.events.cloneSender }
  | .drop =>
    if s.clients = 0 then none
    else some { s with clients := s.clients - 1, events := s.events.dropSender }
  | .subscribe =>
    if s.clients = 0 then none else some { s with events := s.events.subscribe.2 }
  | .unsubscribe =>
    if s.events.receivers = 0 then none else some { s with events := s.events.dropReceiver }
  | .take encoded => s.take encoded
  | .sent result => s.sent result
  | .receive incoming => s.receive incoming
  | .notify requestId => s.notify requestId
  | .finish => s.finish

/-! ## What each step does -/

inductive Moves (s : Drive) : Act → Drive → Prop
  /-- Handles and subscribers come and go; a frame is passed on to subscribers, or ignored. -/
  | quiet (a : Act) (clients : Nat) (events : Broadcast.Shared ServerFrame) :
      Moves s a { s with clients, events }
  | queued (message : ClientMessage) (running : s.phase ≠ .returned) :
      Moves s (.request message)
        { s with requests := s.requests ++ [⟨message, s.calls⟩], calls := s.calls + 1 }
  | refused (message : ClientMessage) (phase : s.phase = .returned) :
      Moves s (.request message)
        { s.complete s.calls (.error .closed) with calls := s.calls + 1 }
  | unencodable (request : PendingRequest) (rest : List PendingRequest) (error : String)
      (phase : s.phase = .selecting) (queue : s.requests = request :: rest) :
      Moves s (.take (.error error))
        (complete
          { s with
            requests := rest
            nextRequestId := wrappingNext s.nextRequestId
            numbered := s.numbered ++ [(request.response, s.nextRequestId)] }
          request.response (.error (.protocol error)))
  | taken (request : PendingRequest) (rest : List PendingRequest)
      (phase : s.phase = .selecting) (queue : s.requests = request :: rest) :
      Moves s (.take (.ok ()))
        { s with
          requests := rest
          nextRequestId := wrappingNext s.nextRequestId
          numbered := s.numbered ++ [(request.response, s.nextRequestId)]
          phase := .sending ⟨s.nextRequestId, request.message⟩ request.response }
  | stop (a : Act) (detail : String) (phase : s.phase = .selecting) :
      Moves s a { s with phase := .stopped detail }
  | sent (frame : ClientFrame) (call : Nat) (phase : s.phase = .sending frame call) :
      Moves s (.sent (.ok ()))
        { s with
          pending := s.pending.insert frame.requestId call
          completions :=
            s.completions ++ (s.pending[frame.requestId]?.map (·, .error .closed)).toList
          log := s.log ++ [.sent call frame.requestId]
          phase := .selecting }
  | unsent (frame : ClientFrame) (call : Nat) (detail : String)
      (phase : s.phase = .sending frame call) :
      Moves s (.sent (.error detail))
        { s.complete call (.error (.transport detail)) with phase := .stopped detail }
  | answered (requestId call : Nat) (response : ServerResponse) (phase : s.phase = .selecting)
      (waiter : s.pending[requestId]? = some call) :
      Moves s (.receive (.frame (.response requestId response)))
        { s with
          log := s.log ++ [.response requestId response]
          completions := s.completions ++ [(call, .ok response)]
          pending := s.pending.erase requestId }
  | unknown (requestId : Nat) (response : ServerResponse) (phase : s.phase = .selecting)
      (waiter : s.pending[requestId]? = none) :
      Moves s (.receive (.frame (.response requestId response)))
        { s with log := s.log ++ [.response requestId response] }
  | notify (requestId call : Nat) (detail : String) (phase : s.phase = .stopped detail)
      (waiter : s.pending[requestId]? = some call) :
      Moves s (.notify requestId)
        { s.complete call (.error (.transport detail)) with
          pending := s.pending.erase requestId }
  | finish (detail : String) (phase : s.phase = .stopped detail) (told : s.pending = ∅) :
      Moves s .finish
        { s with
          requests := []
          completions := s.completions ++ s.requests.map fun r => (r.response, .error .closed)
          events := s.events.dropSender
          phase := .returned }

variable {s s' : Drive}

theorem request_moves {message : ClientMessage} (h : s.request message = some s') :
    Moves s (.request message) s' := by
  unfold request at h
  split at h
  · cases h
  · split at h
    · rename_i hp; cases h; exact .refused message hp
    · rename_i hp; cases h; exact .queued message hp

theorem take_moves {encoded : Except String Unit} (h : s.take encoded = some s') :
    Moves s (.take encoded) s' := by
  unfold take at h
  split at h
  · rename_i request rest hp hq
    cases encoded with
    | error error => cases h; exact .unencodable request rest error hp hq
    | ok u => cases h; exact .taken request rest hp hq
  · rename_i hp hq
    split at h
    · cases h; exact .stop _ _ hp
    · cases h
  · cases h

theorem sent_moves {result : Except String Unit} (h : s.sent result = some s') :
    Moves s (.sent result) s' := by
  unfold sent at h
  split at h
  · rename_i frame call hp
    cases result with
    | error detail => cases h; exact .unsent frame call detail hp
    | ok u => cases h; exact .sent frame call hp
  · cases h

theorem receive_moves {incoming : Received} (h : s.receive incoming = some s') :
    Moves s (.receive incoming) s' := by
  unfold receive at h
  split at h
  · rename_i hp
    split at h
    · split at h
      · cases h; exact .stop _ _ hp
      · cases h; exact .stop _ _ hp
      · cases h; exact .stop _ _ hp
      · cases h; exact .quiet _ s.clients s.events
      · cases h; exact .stop _ _ hp
      · rename_i requestId response
        dsimp only at h
        split at h
        · rename_i call hw; cases h; exact .answered requestId call response hp hw
        · rename_i hw; cases h; exact .unknown requestId response hp hw
      · cases h; exact .quiet _ s.clients _
    · cases h
  · cases h

theorem notify_moves {requestId : Nat} (h : s.notify requestId = some s') :
    Moves s (.notify requestId) s' := by
  unfold notify at h
  split at h
  · rename_i detail call hp hw; cases h; exact .notify requestId call detail hp hw
  · cases h

theorem finish_moves (h : s.finish = some s') : Moves s .finish s' := by
  unfold finish at h
  split at h
  · rename_i detail hp
    split at h
    · rename_i he; cases h; exact .finish detail hp (ExtTreeMap.isEmpty_iff.1 he)
    · cases h
  · cases h

theorem finish_phase (h : s.finish = some s') : s'.phase = .returned := by
  unfold finish at h
  split at h
  · split at h
    · cases h; rfl
    · cases h
  · cases h

theorem step_moves {a : Act} (h : s.step a = some s') : Moves s a s' := by
  cases a with
  | request message => exact request_moves h
  | take encoded => exact take_moves h
  | sent result => exact sent_moves h
  | receive incoming => exact receive_moves h
  | notify requestId => exact notify_moves h
  | finish => exact finish_moves h
  | clone =>
    simp only [step] at h
    split at h
    · cases h
    · cases h; exact .quiet _ _ _
  | drop =>
    simp only [step] at h
    split at h
    · cases h
    · cases h; exact .quiet _ _ _
  | subscribe =>
    simp only [step] at h
    split at h
    · cases h
    · cases h; exact .quiet _ s.clients _
  | unsubscribe =>
    simp only [step] at h
    split at h
    · cases h
    · cases h; exact .quiet _ s.clients _

end Drive

end AgencyProxy.Client
