import AgencyProxy.Daemon.Answers
import AgencyProxy.WebSocket.Subscriptions

/-!
# The WebSocket service

`serve_websocket`: the server with its subscriptions (`WebSocket.Server`), and the other methods
of `web.rs`. Each call of a method is a handler of its own, and any number of them are under way; a
handler is dropped at an await when its connection goes. `stop` ends the server's thread, and with
it every handler; `serve_websocket` then waits for the registry to be idle.

`registry.start` runs on the registry's pool: dropping its handler leaves it running.
`registry.cancel` is polled by its handler, and stops with it.
-/

namespace AgencyProxy.WebSocket

open AgencyProxy.Runtime Std Lts

/-! ## Methods -/

/-- The request of each method but the two of subscriptions. -/
inductive Method where
  | listRuns
  | readRun (runId : RunId) (afterSequence : Nat)
  | startRun (runId : RunId) (request : RunRequest)
  | injectMessage (runId : RunId) (body : String)
  | decideApproval (runId : RunId) (approvalId : String) (decision : ApprovalDecision)
  | cancelRun (runId : RunId)
  | acknowledgeRun (runId : RunId) (throughSequence : Nat)
  | probeProviders
  | readAccountUsage

inductive MethodResponse where
  | listRuns (runs : List RunSnapshot)
  | readRun (run : RunSnapshot) (events : List WebRunEvent)
  /-- Of `StartRun`, `InjectMessage`, `DecideApproval`, `CancelRun` and `AcknowledgeRun`. -/
  | accepted (accepted : Bool)
  | probeProviders (providers : List ProviderStatus)
  | readAccountUsage (providers : List ProviderAccountUsage)

/-- What `handle` returns. -/
abbrev Result := Except CustomError MethodResponse

/-- `map_err(runtime_error)?`, then `accepted: true`. -/
def accepted : Except RuntimeError Unit → Result
  | .ok () => .ok (.accepted true)
  | .error e => .error (runtimeError e)

/-- The response of `ReadRun`. -/
def readRunResponse (attachment : Attachment) : MethodResponse :=
  .readRun attachment.snapshot (attachment.replay.map webRunEvent)

/-- Where a handler stands. -/
inductive Place where
  /-- At its first await. -/
  | handling
  /-- Awaits `registry.start`. -/
  | starting (k : Nat)
  /-- Awaits `registry.cancel`. -/
  | cancelling (k : Nat)
  /-- `ReadRun` holds the receiver of its attachment until it returns. -/
  | reading (attachment : Attachment)
  | answered (result : Result)
  | dropped

structure Call where
  method : Method
  place : Place

/-- Where `serve_websocket` stands. -/
inductive Phase where
  | listening
  /-- The server's thread has ended; at `wait_until_idle`. -/
  | draining
  | returned
  deriving DecidableEq

structure Service where
  server : Server
  /-- History: the calls into providers. -/
  called : List ProviderCall
  calls : ExtTreeMap Nat Call
  phase : Phase

namespace Service

def init : Service := ⟨.init, [], ∅, .listening⟩

inductive Act (P : Type) where
  /-- A step of the subscriptions, of a run task, or of a call into the registry. -/
  | server (a : Server.Act P)
  | call (n : Nat) (method : Method)
  | handle (n : Nat) (reply : Reply)
  /-- What the handler awaits is there. -/
  | resume (n : Nat)
  | drop (n : Nat)
  /-- `listen_until` returns. -/
  | stop
  /-- `wait_until_idle` returns. -/
  | idle

variable {P : Type}

/-- The steps of the registry that its pool takes by itself. -/
def pool : Registry.Act P → Bool
  | .startCall _ _ _ | .cancelCall _ _ | .cancelTake _ | .cancelSend _ | .cancelWait _ | .cancelAll
  | .acknowledge _ _ | .attach _ _ | .dropReceiver _ => false
  | _ => true

/-- The call of `cancel` is polled. -/
def polls (s : Service) (k : Nat) : Bool :=
  s.calls.toList.any fun p => match p.2.place with
    | .cancelling k' => k' = k
    | _ => false

/-- The steps of a connection that need no server: of its forwarders, and of its end. -/
def outlives : Conn.Act → Bool
  | .disconnect | .wake _ | .forward _ | .suspend _ | .reap _ | .removeIfCurrent _ => true
  | _ => false

def permits (s : Service) : Server.Act P → Bool
  | .connect _ => s.phase = .listening
  | .conn _ a => s.phase = .listening || outlives a
  | .registry (.cancelTake k) | .registry (.cancelSend k) | .registry (.cancelWait k) => s.polls k
  | .registry a => pool a

/-- `inject` and `decide`: look the run up, then hand the call to its control. -/
def control (registry : Registry) (called : List ProviderCall) (id : RunId) (call : ProviderCall) :
    Reply → Option (Registry × List ProviderCall × Place)
  | .control result =>
    if registry.lock = .free then
      if id ∈ registry.store.runs then
        some (registry, called ++ [call], .answered (accepted (result.mapError .control)))
      else some (registry, called, .answered (.error (runtimeError .notFound)))
    else none
  | _ => none

/-- A handler up to its result, or to what it awaits. -/
def handle (registry : Registry) (called : List ProviderCall) (method : Method) (reply : Reply) :
    Option (Registry × List ProviderCall × Place) :=
  match method, reply with
  | .listRuns, .nothing =>
    if registry.lock = .free then
      some (registry, called, .answered (.ok (.listRuns registry.store.list)))
    else none
  | .readRun id after, .nothing =>
    if registry.lock = .free then
      match registry.store.attach id after with
      | .ok (attachment, store) => some ({ registry with store }, called, .reading attachment)
      | .error e => some (registry, called, .answered (.error (runtimeError e)))
    else none
  | .startRun id request, .call k =>
    (registry.startCall k id request).map fun registry => (registry, called, .starting k)
  | .injectMessage id body, reply => control registry called id (.send id body) reply
  | .decideApproval id approvalId decision, reply =>
    control registry called id (.respond id approvalId (decisionFor decision)) reply
  | .cancelRun id, .call k =>
    (registry.cancelCall k id).map fun registry => (registry, called, .cancelling k)
  | .acknowledgeRun id through, .nothing =>
    if registry.lock = .free then
      match registry.store.acknowledge id through with
      | .ok store => some ({ registry with store }, called, .answered (accepted (.ok ())))
      | .error e => some (registry, called, .answered (.error (runtimeError e)))
    else none
  | .probeProviders, .providers providers =>
    some (registry, called, .answered (.ok (.probeProviders providers)))
  | .readAccountUsage, .accountUsage providers =>
    some (registry, called, .answered (.ok (.readAccountUsage providers)))
  | _, _ => none

/-- A handler with what it awaits. -/
def resume (registry : Registry) (call : Call) : Option (Registry × Place) :=
  match call.method, call.place with
  | _, .starting k =>
    match registry.starts[k]? with
    | some (.returned _ result) => some (registry, .answered (accepted result))
    | _ => none
  | _, .cancelling k =>
    match registry.cancels[k]? with
    | some (.returned _ result) => some (registry, .answered (accepted result))
    | _ => none
  | .readRun id _, .reading attachment =>
    some ({ registry with store := registry.store.dropReceiver id },
      .answered (.ok (readRunResponse attachment)))
  | _, _ => none

/-- The handler awaits something, so that it can be dropped. -/
def awaits (registry : Registry) : Place → Bool
  | .handling | .starting _ => true
  | .cancelling k =>
    match registry.cancels[k]? with
    | some (.sending _) => false
    | _ => true
  | _ => false

/-- The handler has returned, or is dropped. -/
def isOver : Place → Bool
  | .answered _ | .dropped => true
  | _ => false

def put (s : Service) (n : Nat) (call : Call) (place : Place) : Service :=
  { s with calls := s.calls.insert n { call with place } }

def withRegistry (s : Service) (registry : Registry) : Service :=
  { s with server := { s.server with registry } }

def step (toValue : P → Except String Value) (s : Service) : Act P → Option Service
  | .server a =>
    if s.permits a then (s.server.step toValue a).map fun server => { s with server } else none
  | .call n method =>
    if s.phase = .listening then
      if s.calls.contains n then none
      else some { s with calls := s.calls.insert n ⟨method, .handling⟩ }
    else none
  | .handle n reply =>
    match s.calls[n]? with
    | some ⟨method, .handling⟩ =>
      (handle s.server.registry s.called method reply).map fun (registry, called, place) =>
        ({ s with called }.withRegistry registry).put n ⟨method, .handling⟩ place
    | _ => none
  | .resume n =>
    match s.calls[n]? with
    | some call =>
      (resume s.server.registry call).map fun (registry, place) =>
        (s.withRegistry registry).put n call place
    | none => none
  | .drop n =>
    match s.calls[n]? with
    | some call =>
      if awaits s.server.registry call.place then some (s.put n call .dropped) else none
    | none => none
  | .stop =>
    if s.phase = .listening && s.calls.toList.all fun p =>
        isOver p.2.place || awaits s.server.registry p.2.place then
      some { s with
        phase := .draining
        calls := s.calls.map fun _ call =>
          if isOver call.place then call else { call with place := .dropped } }
    else none
  | .idle =>
    if s.phase = .draining && s.server.registry.active = 0 then some { s with phase := .returned }
    else none

/-! ## What a step can do -/

variable {toValue : P → Except String Value} {s s' : Service}

/-- What a handler does to the registry: a call of `start` that it begins is its own, and it awaits
that; it receives nothing from a provider. -/
def Asks (toValue : P → Except String Value) (method : Method) (place : Place) :
    Registry.Act P → Prop
  | .startCall k id spec => method = .startRun id spec ∧ place = .starting k
  | a => a.Serialises toValue

/-- The first step of a handler: on the registry it is one of its clients, and it makes at most one
call into a provider. -/
theorem handle_registry (toValue : P → Except String Value) {registry registry' : Registry}
    {called called' : List ProviderCall} {method : Method} {reply : Reply} {place : Place}
    (h : handle registry called method reply = some (registry', called', place)) :
    called <+: called' ∧ ∃ ks, exec (Registry.step toValue) registry ks = some registry' ∧
      ∀ a ∈ ks, Asks toValue method place a := by
  have hnone : called <+: called ∧ ∃ ks, exec (Registry.step toValue) registry ks = some registry ∧
      ∀ a ∈ ks, Asks toValue method place a := ⟨List.prefix_rfl, [], rfl, by simp⟩
  have hone : ∀ (a : Registry.Act P), registry.step toValue a = some registry' →
      Asks toValue method place a →
      called <+: called ∧ ∃ ks, exec (Registry.step toValue) registry ks = some registry' ∧
        ∀ a ∈ ks, Asks toValue method place a := fun a ha hasks =>
    ⟨List.prefix_rfl, [a], exec_single.2 ha, by simpa using hasks⟩
  have hcontrol : ∀ {id : RunId} {call : ProviderCall},
      control registry called id call reply = some (registry', called', place) →
      called <+: called' ∧ registry' = registry := fun h => by
    unfold control at h
    split at h
    · split at h
      · split at h
        · cases h; exact ⟨List.prefix_append _ _, rfl⟩
        · cases h; exact ⟨List.prefix_rfl, rfl⟩
      · cases h
    · cases h
  unfold handle at h
  split at h
  · split at h
    · cases h; exact hnone
    · cases h
  · rename_i id after
    split at h
    · rename_i hl
      split at h
      · rename_i attachment store ha
        cases h
        refine hone (.attach id after) ?_ trivial
        simp only [Registry.step, Registry.attach, hl, ha]
      · cases h; exact hnone
    · cases h
  · rename_i id request k
    obtain ⟨r', hc, he⟩ := Option.map_eq_some_iff.1 h
    cases he
    exact hone (.startCall k id request) hc ⟨rfl, rfl⟩
  · obtain ⟨hp, rfl⟩ := hcontrol h
    exact ⟨hp, [], rfl, by simp⟩
  · obtain ⟨hp, rfl⟩ := hcontrol h
    exact ⟨hp, [], rfl, by simp⟩
  · rename_i id k
    obtain ⟨r', hc, he⟩ := Option.map_eq_some_iff.1 h
    cases he
    exact hone (.cancelCall k id) hc trivial
  · rename_i id through
    split at h
    · rename_i hl
      split at h
      · rename_i store ha
        cases h
        refine hone (.acknowledge id through) ?_ trivial
        simp only [Registry.step, Registry.acknowledge, hl, ha]
      · cases h; exact hnone
    · cases h
  · cases h; exact hnone
  · cases h; exact hnone
  · cases h

/-- A `StartRun` awaits its call. -/
theorem handle_startRun {registry registry' : Registry} {called called' : List ProviderCall}
    {id : RunId} {request : RunRequest} {reply : Reply} {place : Place}
    (h : handle registry called (.startRun id request) reply =
      some (registry', called', place)) : ∃ k, place = .starting k := by
  cases reply with
  | call k =>
    obtain ⟨r', -, he⟩ := Option.map_eq_some_iff.1 h
    cases he
    exact ⟨k, rfl⟩
  | _ => cases h

theorem resume_cases {registry registry' : Registry} {call : Call} {place : Place}
    (h : resume registry call = some (registry', place)) :
    (∃ k id result, call.place = .starting k ∧ registry.starts[k]? = some (.returned id result) ∧
      registry' = registry ∧ place = .answered (accepted result)) ∨
    (∃ k id result, call.place = .cancelling k ∧
      registry.cancels[k]? = some (.returned id result) ∧
      registry' = registry ∧ place = .answered (accepted result)) ∨
    ∃ id after attachment, call.method = .readRun id after ∧ call.place = .reading attachment ∧
      registry' = { registry with store := registry.store.dropReceiver id } ∧
      place = .answered (.ok (readRunResponse attachment)) := by
  unfold resume at h
  split at h
  · rename_i k hp
    split at h
    · rename_i id result hk
      cases h
      exact .inl ⟨k, id, result, hp, hk, rfl, rfl⟩
    · cases h
  · rename_i k hp
    split at h
    · rename_i id result hk
      cases h
      exact .inr (.inl ⟨k, id, result, hp, hk, rfl, rfl⟩)
    · cases h
  · rename_i id after attachment hm hp
    cases h
    exact .inr (.inr ⟨id, after, attachment, hm, hp, rfl, rfl⟩)
  · cases h

/-- What a step can do. -/
inductive Moves (toValue : P → Except String Value) (s : Service) : Act P → Service → Prop
  | server (a : Server.Act P) (server : Server) (permitted : s.permits a = true)
      (stepped : s.server.step toValue a = some server) :
      Moves toValue s (.server a) { s with server }
  | call (n : Nat) (method : Method) (listening : s.phase = .listening)
      (fresh : s.calls[n]? = none) :
      Moves toValue s (.call n method)
        { s with calls := s.calls.insert n ⟨method, .handling⟩ }
  | handle (n : Nat) (reply : Reply) (method : Method) (registry : Registry)
      (called : List ProviderCall) (place : Place) (found : s.calls[n]? = some ⟨method, .handling⟩)
      (handled : Service.handle s.server.registry s.called method reply =
        some (registry, called, place)) :
      Moves toValue s (.handle n reply)
        (({ s with called }.withRegistry registry).put n ⟨method, .handling⟩ place)
  | resume (n : Nat) (call : Call) (registry : Registry) (place : Place)
      (found : s.calls[n]? = some call)
      (resumed : Service.resume s.server.registry call = some (registry, place)) :
      Moves toValue s (.resume n) ((s.withRegistry registry).put n call place)
  | drop (n : Nat) (call : Call) (found : s.calls[n]? = some call)
      (awaiting : awaits s.server.registry call.place = true) :
      Moves toValue s (.drop n) (s.put n call .dropped)
  | stop (listening : s.phase = .listening) :
      Moves toValue s .stop
        { s with
          phase := .draining
          calls := s.calls.map fun _ call =>
            if isOver call.place then call else { call with place := .dropped } }
  | idle (draining : s.phase = .draining) (idle : s.server.registry.active = 0) :
      Moves toValue s .idle { s with phase := .returned }

theorem step_moves {a : Act P} (h : s.step toValue a = some s') : Moves toValue s a s' := by
  cases a with
  | server a =>
    simp only [step] at h
    split at h
    · rename_i hp
      obtain ⟨server, hs, rfl⟩ := Option.map_eq_some_iff.1 h
      exact .server a server hp hs
    · cases h
  | call n method =>
    simp only [step] at h
    split at h
    · rename_i hl
      split at h
      · cases h
      · rename_i hn
        cases h
        exact .call n method hl (ExtTreeMap.getElem?_eq_none hn)
    · cases h
  | handle n reply =>
    simp only [step] at h
    split at h
    · rename_i method hn
      obtain ⟨⟨registry, called, place⟩, hh, rfl⟩ := Option.map_eq_some_iff.1 h
      exact .handle n reply method registry called place hn hh
    · cases h
  | resume n =>
    simp only [step] at h
    split at h
    · rename_i call hn
      obtain ⟨⟨registry, place⟩, hr, rfl⟩ := Option.map_eq_some_iff.1 h
      exact .resume n call registry place hn hr
    · cases h
  | drop n =>
    simp only [step] at h
    split at h
    · rename_i call hn
      split at h
      · rename_i ha
        cases h
        exact .drop n call hn ha
      · cases h
    · cases h
  | stop =>
    simp only [step] at h
    split at h
    · rename_i hs
      cases h
      simp only [Bool.and_eq_true, decide_eq_true_eq] at hs
      exact .stop hs.1
    · cases h
  | idle =>
    simp only [step] at h
    split at h
    · rename_i hs
      cases h
      simp only [Bool.and_eq_true, decide_eq_true_eq] at hs
      exact .idle hs.1 hs.2
    · cases h

/-! ## What becomes of a handler -/

/-- Where a step takes a handler. -/
inductive PlaceStep (s : Service) (method : Method) : Place → Place → Prop
  | kept (place : Place) : PlaceStep s method place place
  | handled (reply : Reply) (registry : Registry) (called : List ProviderCall) (place : Place)
      (handled : Service.handle s.server.registry s.called method reply =
        some (registry, called, place)) : PlaceStep s method .handling place
  | resumed (place place' : Place) (registry : Registry)
      (resumed : Service.resume s.server.registry ⟨method, place⟩ = some (registry, place')) :
      PlaceStep s method place place'
  | dropped (place : Place) (unfinished : isOver place = false) : PlaceStep s method place .dropped

theorem not_over_of_awaits {registry : Registry} {place : Place}
    (h : awaits registry place = true) : isOver place = false := by
  cases place with
  | reading _ | answered _ | dropped => cases h
  | _ => rfl

theorem calls_step {a : Act P} {n : Nat} {call : Call} (h : s.step toValue a = some s')
    (hn : s'.calls[n]? = some call) :
    (s.calls[n]? = none ∧ call.place = .handling ∧ s.phase = .listening) ∨
      ∃ place, s.calls[n]? = some ⟨call.method, place⟩ ∧
        PlaceStep s call.method place call.place := by
  have hput : ∀ (n₀ : Nat) (method : Method) (place place' : Place),
      s'.calls = s.calls.insert n₀ ⟨method, place'⟩ → s.calls[n₀]? = some ⟨method, place⟩ →
      PlaceStep s method place place' →
      ∃ place, s.calls[n]? = some ⟨call.method, place⟩ ∧
        PlaceStep s call.method place call.place := fun n₀ method place place' he h₀ hp => by
    rw [he] at hn
    rcases ExtTreeMap.getElem?_insert_some.1 hn with ⟨rfl, rfl⟩ | ⟨-, hn⟩
    · exact ⟨place, h₀, hp⟩
    · exact ⟨call.place, hn, .kept _⟩
  cases step_moves h with
  | server a server => exact .inr ⟨call.place, hn, .kept _⟩
  | call n₀ method listening fresh =>
    rcases ExtTreeMap.getElem?_insert_some.1 hn with ⟨rfl, rfl⟩ | ⟨-, hn⟩
    · exact .inl ⟨fresh, rfl, listening⟩
    · exact .inr ⟨call.place, hn, .kept _⟩
  | handle n₀ reply method registry called place h₀ hh =>
    exact .inr (hput n₀ method _ place rfl h₀ (.handled reply registry called place hh))
  | resume n₀ call₀ registry place h₀ hr =>
    exact .inr (hput n₀ call₀.method _ place rfl h₀ (.resumed _ _ registry hr))
  | drop n₀ call₀ h₀ ha =>
    exact .inr (hput n₀ call₀.method _ .dropped rfl h₀ (.dropped _ (not_over_of_awaits ha)))
  | stop =>
    dsimp only at hn
    rw [ExtTreeMap.getElem?_map, Option.map_eq_some_iff] at hn
    obtain ⟨call₀, h₀, rfl⟩ := hn
    split
    · exact .inr ⟨call₀.place, h₀, .kept _⟩
    · rename_i hover
      exact .inr ⟨call₀.place, h₀, .dropped _ (by simpa using hover)⟩
  | idle => exact .inr ⟨call.place, hn, .kept _⟩

/-- Handlers stay, as what their calls ask for. -/
theorem calls_keep {a : Act P} {n : Nat} {call : Call} (h : s.step toValue a = some s')
    (hn : s.calls[n]? = some call) :
    ∃ place, s'.calls[n]? = some ⟨call.method, place⟩ ∧
      PlaceStep s call.method call.place place := by
  have hsome : ∃ call', s'.calls[n]? = some call' := by
    have hput : ∀ (n₀ : Nat) (call₀ : Call), s'.calls = s.calls.insert n₀ call₀ →
        ∃ call', s'.calls[n]? = some call' := fun n₀ call₀ he => by
      rw [he, ExtTreeMap.getElem?_insert]
      split
      · exact ⟨_, rfl⟩
      · exact ⟨_, hn⟩
    cases step_moves h with
    | server | idle => exact ⟨_, hn⟩
    | call | handle | resume | drop => exact hput _ _ rfl
    | stop =>
      dsimp only
      rw [ExtTreeMap.getElem?_map, hn]
      exact ⟨_, rfl⟩
  obtain ⟨call', hn'⟩ := hsome
  obtain ⟨hnone, -⟩ | ⟨place, h₀, hp⟩ := calls_step h hn'
  · cases hn.symm.trans hnone
  · cases hn.symm.trans h₀
    exact ⟨call'.place, hn', hp⟩

/-- A handler that has returned, or was dropped, does nothing more. -/
theorem over_step {a : Act P} {n : Nat} {call : Call} (hn : s.calls[n]? = some call)
    (hover : isOver call.place = true) (h : s.step toValue a = some s') :
    s'.calls[n]? = some call := by
  obtain ⟨place, hn', hp⟩ := calls_keep h hn
  obtain ⟨method, place₀⟩ := call
  cases hp with
  | kept => exact hn'
  | handled => cases hover
  | resumed _ _ registry hr =>
    obtain ⟨_, _, _, rfl, -⟩ | ⟨_, _, _, rfl, -⟩ | ⟨_, _, _, -, rfl, -⟩ := resume_cases hr <;>
      cases hover
  | dropped _ hopen =>
    rw [hover] at hopen
    cases hopen

theorem over_exec {acts : List (Act P)} {n : Nat} {call : Call} (hn : s.calls[n]? = some call)
    (hover : isOver call.place = true) (h : exec (step toValue) s acts = some s') :
    s'.calls[n]? = some call :=
  exec_inv' (I := fun s : Service => s.calls[n]? = some call)
    (fun _ _ _ hi hs => over_step hi hover hs) hn h

/-! ## The server, and the registry -/

/-- The registry's own steps are steps of the server. -/
theorem server_registry {server : Server} {registry : Registry} {ks : List (Registry.Act P)}
    (h : exec (Registry.step toValue) server.registry ks = some registry) :
    exec (Server.step toValue) server (ks.map .registry) = some { server with registry } := by
  induction ks generalizing server with
  | nil => cases h; rfl
  | cons k ks ih =>
    obtain ⟨r, hk, h⟩ := exec_cons_some.1 h
    refine exec_cons_some.2 ⟨{ server with registry := r }, ?_, ih h⟩
    simp only [Server.step, hk, Option.map_some]

theorem step_server {a : Act P} (h : s.step toValue a = some s') :
    ∃ as, exec (Server.step toValue) s.server as = some s'.server := by
  cases step_moves h with
  | server a server hp hs => exact ⟨[a], exec_single.2 hs⟩
  | handle n reply method registry called place hn hh =>
    obtain ⟨-, ks, hk, -⟩ := handle_registry toValue hh
    exact ⟨_, server_registry hk⟩
  | resume n call registry place hn hr =>
    obtain ⟨_, _, _, -, -, rfl, -⟩ | ⟨_, _, _, -, -, rfl, -⟩ | ⟨id, _, _, -, -, rfl, -⟩ :=
      resume_cases hr
    · exact ⟨[], rfl⟩
    · exact ⟨[], rfl⟩
    · exact ⟨[.registry (.dropReceiver id)], rfl⟩
  | _ => exact ⟨[], rfl⟩

theorem step_registry {a : Act P} (h : s.step toValue a = some s') :
    ∃ ks, exec (Registry.step toValue) s.server.registry ks = some s'.server.registry := by
  obtain ⟨as, ha⟩ := step_server h
  exact exec_project (fun s : Server => s.registry) (fun _ _ _ hs => Server.step_registry hs) ha

theorem registry_exec {acts : List (Act P)} (h : exec (step toValue) init acts = some s) :
    ∃ ks, exec (Registry.step toValue) Registry.init ks = some s.server.registry :=
  exec_project (fun s : Service => s.server.registry) (fun _ _ _ hs => step_registry hs) h

end Service

end AgencyProxy.WebSocket
