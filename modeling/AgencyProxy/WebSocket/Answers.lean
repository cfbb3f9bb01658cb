import AgencyProxy.WebSocket.Service

/-!
# What the methods answer

The two transports are two fronts of one registry. A method asks for what a request of the Unix
socket asks for (`Method.message`), and its result says what that request's response says
(`respond`), so that `Shared.Answers` is the meaning of both. `ReadRun` says more: the events that
it returns are those published after its cursor that were not acknowledged.
-/

namespace AgencyProxy.WebSocket

open AgencyProxy.Runtime Std Lts

/-! ## One meaning for both transports -/

/-- The request of the Unix socket; a method has no idempotency key. -/
def Method.message : Method → ClientMessage
  | .listRuns => .listRuns
  | .readRun id after => .attachRun id after
  | .startRun id request => .startRun id request ""
  | .injectMessage id body => .injectMessage id body ""
  | .decideApproval id approvalId decision => .decideApproval id approvalId decision ""
  | .cancelRun id => .cancelRun id ""
  | .acknowledgeRun id through => .ackEvents id through
  | .probeProviders => .probeProviders
  | .readAccountUsage => .readAccountUsage

def ErrorCode.server : ErrorCode → AgencyProxy.ErrorCode
  | .badRequest => .protocolViolation
  | .notFound => .notFound
  | .conflict => .conflict
  | .internalError => .internal

def respond : Result → ServerResponse
  | .ok (.listRuns runs) => .runs runs
  | .ok (.readRun run _) => .run run
  | .ok (.accepted _) => .accepted
  | .ok (.probeProviders providers) => .providers providers
  | .ok (.readAccountUsage providers) => .accountUsage providers
  | .error e => .error e.code.server e.message

/-- The two `runtime_error` functions say the same. -/
theorem respond_runtimeError (e : RuntimeError) :
    respond (.error (runtimeError e)) = AgencyProxy.runtimeError e := by
  cases e <;> rfl

theorem respond_accepted (result : Except RuntimeError Unit) :
    respond (accepted result) = AgencyProxy.accepted result := by
  cases result with
  | ok u => rfl
  | error e => exact respond_runtimeError e

/-- The events of a `ReadRun`: what was published up to the snapshot's latest sequence, after the
cursor and after what the snapshot has as acknowledged. -/
def Replays (r : Registry) : Method → Result → Prop
  | .readRun id after, .ok (.readRun run events) =>
    run.latestSequence ≤ (r.store.published id).length ∧
      events = (((r.store.published id).take run.latestSequence).drop
        (max run.acknowledgedSequence after)).map webRunEvent
  | _, _ => True

/-- What a result vouches for. -/
structure Vouches (s : Shared) (method : Method) (result : Result) : Prop where
  answers : s.Answers method.message (respond result)
  replays : Replays s.registry method result

variable {s s' : Shared} {method : Method} {result : Result}

theorem Replays.grows {r r' : Registry} (h : Replays r method result)
    (hg : r.store.Grows r'.store) : Replays r' method result := by
  unfold Replays at h ⊢
  split
  · rename_i id after run events
    obtain ⟨more, hmore⟩ := hg.published id
    obtain ⟨hle, he⟩ := h
    rw [← hmore]
    refine ⟨hle.trans (by simp), ?_⟩
    rw [List.take_append_of_le_length hle]
    exact he
  · trivial

theorem Vouches.grows (h : Vouches s method result) (hg : s.Grows s') :
    Vouches s' method result :=
  ⟨h.answers.grows hg, h.replays.grows hg.store⟩

theorem vouches_accepted {result : Except RuntimeError Unit}
    (h : s.Answers method.message (AgencyProxy.accepted result)) :
    Vouches s method (accepted result) := by
  refine ⟨respond_accepted result ▸ h, ?_⟩
  cases result with
  | ok u => cases method <;> trivial
  | error e => cases method <;> trivial

theorem vouches_error {e : RuntimeError}
    (h : s.Answers method.message (AgencyProxy.runtimeError e)) :
    Vouches s method (.error (runtimeError e)) :=
  ⟨respond_runtimeError e ▸ h, by cases method <;> trivial⟩

namespace Service

/-- What the two fronts share, of the state of the service. -/
def sharing (registry : Registry) (called : List ProviderCall) : Shared :=
  { Shared.init with registry, called }

def shared (s : Service) : Shared := sharing s.server.registry s.called

/-- What a handler has, and what it awaits. -/
def PlaceOk (s : Shared) (method : Method) : Place → Prop
  | .answered result => Vouches s method result
  | .starting k => ∃ id request, method = .startRun id request ∧ s.registry.StartOf k id request
  | .cancelling k => ∃ id, method = .cancelRun id ∧ s.registry.CancelOf k id
  | .reading attachment => Vouches s method (.ok (readRunResponse attachment))
  | .handling | .dropped => True

def Truthful (s : Service) : Prop :=
  ∀ (n : Nat) (call : Call), s.calls[n]? = some call → PlaceOk s.shared call.method call.place

/-! ## The first step of a handler -/

variable {P : Type} {toValue : P → Except String Value} {registry registry' : Registry}
  {called called' : List ProviderCall} {place : Place}

theorem control_ok {id : RunId} {call : ProviderCall} {reply : Reply}
    (hnone : .notFound ∈ method.message.errors) (hctl : .internal ∈ method.message.errors)
    (hok : ∀ s : Shared, call ∈ s.called → s.Answers method.message .accepted)
    (h : control registry called id call reply = some (registry', called', place)) :
    PlaceOk (sharing registry' called') method place := by
  unfold control at h
  split at h
  · rename_i result
    split at h
    · split at h
      · cases h
        refine vouches_accepted ?_
        cases result with
        | ok u => exact hok _ (List.mem_append_right _ (List.mem_singleton_self _))
        | error e => exact Shared.answers_error hctl
      · cases h
        exact vouches_error (Shared.answers_error hnone)
    · cases h
  · cases h

theorem readRun_ok {id : RunId} {after : Nat} {attachment : Attachment} {store : Store}
    (hk : (sharing registry called).Keyed) (hj : registry.store.Journals)
    (hl : registry.lock = .free)
    (h : registry.store.attach id after = .ok (attachment, store)) :
    Vouches (sharing { registry with store } called) (.readRun id after)
      (.ok (readRunResponse attachment)) := by
  obtain ⟨run, run', hr, ha, rfl⟩ := Store.attach_ok h
  have hjournal := hj.runs id run hr
  have hreplay := hjournal.replay ha
  obtain ⟨-, rfl, rfl⟩ := LiveRun.attach_ok ha
  refine ⟨Conn.attach_answers (s := sharing registry called) hk h
    (Conn.grows_of_byClients (fun _ : Unit => .ok .null) (Daemon.byClients_attach hl h)), ?_⟩
  -- the replay ends where the log did, at the snapshot's latest sequence
  have hlatest : run.snapshot.latestSequence = (registry.store.published id).length :=
    hjournal.latest
  have htake : (registry.store.published id).take run.snapshot.latestSequence =
      registry.store.published id := by rw [hlatest, List.take_length]
  exact ⟨hlatest.le, congrArg (List.map webRunEvent) (hreplay.trans (congrArg _ htake.symm))⟩

theorem handle_ok {reply : Reply} (hk : (sharing registry called).Keyed)
    (hj : registry.store.Journals)
    (h : handle registry called method reply = some (registry', called', place)) :
    PlaceOk (sharing registry' called') method place := by
  unfold handle at h
  split at h
  · split at h
    · cases h
      exact ⟨hk.list, trivial⟩
    · cases h
  · rename_i id after
    split at h
    · rename_i hl
      split at h
      · rename_i attachment store ha
        cases h
        exact readRun_ok hk hj hl ha
      · rename_i e ha
        cases h
        exact vouches_error (Conn.attach_refused ha)
    · cases h
  · rename_i id request k
    obtain ⟨r', hc, he⟩ := Option.map_eq_some_iff.1 h
    cases he
    exact ⟨id, request, rfl, Registry.startOf_call hc⟩
  · exact control_ok (by simp [Method.message, ClientMessage.errors])
      (by simp [Method.message, ClientMessage.errors]) (fun s hc => hc) h
  · exact control_ok (by simp [Method.message, ClientMessage.errors])
      (by simp [Method.message, ClientMessage.errors]) (fun s hc => hc) h
  · rename_i id k
    obtain ⟨r', hc, he⟩ := Option.map_eq_some_iff.1 h
    cases he
    exact ⟨id, rfl, Registry.cancelOf_call hc⟩
  · rename_i id through
    split at h
    · split at h
      · rename_i store ha
        cases h
        exact vouches_accepted (Conn.acknowledge_answers (s := sharing registry called) ha)
      · rename_i e ha
        cases h
        exact vouches_error (Conn.acknowledge_refused ha)
    · cases h
  · cases h
    exact ⟨trivial, trivial⟩
  · cases h
    exact ⟨trivial, trivial⟩
  · cases h

/-! ## Whole runs -/

variable {s s' : Service}

theorem shared_exec {acts : List (Act P)} (h : exec (step toValue) init acts = some s) :
    s.shared.Keyed ∧ s.server.registry.store.Journals ∧ s.server.registry.Completes ∧
      s.server.registry.Sourced toValue := by
  obtain ⟨ks, hks⟩ := registry_exec h
  refine ⟨fun id run hr => ?_, Registry.journals_exec hks, Registry.completes_exec hks,
    Registry.sourced_exec hks⟩
  obtain ⟨k, spec, request, -, -, hf⟩ := Registry.follows_exec hks hr
  exact hf.runId

theorem step_called {a : Act P} (h : s.step toValue a = some s') : s.called <+: s'.called := by
  cases step_moves h with
  | handle n reply method registry called place hn hh => exact (handle_registry toValue hh).1
  | _ => exact List.prefix_rfl

theorem step_grows {a : Act P} (h : s.step toValue a = some s') : s.shared.Grows s'.shared := by
  obtain ⟨ks, hks⟩ := step_registry h
  exact ⟨Registry.exec_grows hks, fun h => h, step_called h⟩

/-- What a handler has stays true, and what it awaits stays its own call. -/
theorem PlaceOk.later {place : Place} (h : PlaceOk s.shared method place)
    (hg : s.shared.Grows s'.shared) (hi : s.server.registry.Completes)
    (hsrc : s.server.registry.Sourced toValue)
    (hr : ∃ ks, exec (Registry.step toValue) s.server.registry ks = some s'.server.registry) :
    PlaceOk s'.shared method place := by
  obtain ⟨ks, hks⟩ := hr
  obtain ⟨hstart, hcancel⟩ := Registry.calls_exec hi hsrc hks
  cases place with
  | answered result => exact Vouches.grows h hg
  | starting k =>
    obtain ⟨id, request, hm, hs⟩ := h
    exact ⟨id, request, hm, hstart k id request hs⟩
  | cancelling k =>
    obtain ⟨id, hm, hs⟩ := h
    exact ⟨id, hm, hcancel k id hs⟩
  | reading attachment => exact Vouches.grows h hg
  | handling | dropped => trivial

/-- What a handler returns with what it awaited. -/
theorem resume_ok {call : Call} {registry : Registry} {place : Place}
    (h : resume s.server.registry call = some (registry, place))
    (hp : PlaceOk s.shared call.method call.place)
    (hg : s.shared.Grows (s.withRegistry registry).shared) :
    PlaceOk (s.withRegistry registry).shared call.method place := by
  obtain ⟨k, id', result, hplace, hk, rfl, rfl⟩ | ⟨k, id', result, hplace, hk, rfl, rfl⟩ |
    ⟨id, after, attachment, hm, hplace, rfl, rfl⟩ := resume_cases h
  · rw [hplace] at hp
    obtain ⟨id, request, hm, hs⟩ := hp
    rw [hm]
    exact vouches_accepted (Conn.started_answers (s := s.shared) hs hk)
  · rw [hplace] at hp
    obtain ⟨id, hm, hs⟩ := hp
    rw [hm]
    exact vouches_accepted (Conn.canceled_answers (s := s.shared) hs hk)
  · rw [hplace] at hp
    exact Vouches.grows hp hg

/-- **Step lemma**: handlers that told the truth tell the truth. -/
theorem Truthful.step {acts : List (Act P)} {a : Act P}
    (hm : exec (Service.step toValue) init acts = some s) (h : s.Truthful)
    (hs : s.step toValue a = some s') : s'.Truthful := by
  obtain ⟨hk, hj, hi, hsrc⟩ := shared_exec hm
  have hg := step_grows hs
  have hlater : ∀ (n : Nat) (call : Call), s.calls[n]? = some call →
      PlaceOk s'.shared call.method call.place := fun n call hn =>
    (h n call hn).later hg hi hsrc (step_registry hs)
  have hput : ∀ (n₀ : Nat) (call₀ : Call), s'.calls = s.calls.insert n₀ call₀ →
      PlaceOk s'.shared call₀.method call₀.place → s'.Truthful := fun n₀ call₀ he h₀ n call hn => by
    rw [he] at hn
    rcases ExtTreeMap.getElem?_insert_some.1 hn with ⟨-, rfl⟩ | ⟨-, hn⟩
    · exact h₀
    · exact hlater n call hn
  cases step_moves hs with
  | server a server => exact hlater
  | call n method => exact hput n _ rfl trivial
  | handle n reply method registry called place hn hh =>
    exact hput n _ rfl (handle_ok hk hj hh)
  | resume n call registry place hn hr =>
    have hok := resume_ok hr (h n call hn) hg
    exact hput n { call with place } rfl hok
  | drop n call hn => exact hput n _ rfl trivial
  | stop =>
    intro n call hn
    dsimp only at hn
    rw [ExtTreeMap.getElem?_map, Option.map_eq_some_iff] at hn
    obtain ⟨call₀, h₀, rfl⟩ := hn
    split
    · exact hlater n call₀ h₀
    · trivial
  | idle => exact hlater

theorem truthful_exec {acts : List (Act P)} (h : exec (step toValue) init acts = some s) :
    s.Truthful :=
  exec_inv_reachable (C := fun _ _ => True) (I := Truthful)
    (fun _ _ _ _ hm hi _ hs => hi.step hm hs)
    (fun n call hn => by simp [init] at hn) (along_of_forall (fun _ _ => trivial) _ _) h

theorem grows_exec {acts : List (Act P)} (h : exec (step toValue) s acts = some s') :
    s.shared.Grows s'.shared :=
  exec_mono (I := fun _ => True) (C := fun _ _ => True) (R := fun s s' => s.shared.Grows s'.shared)
    (fun s => .refl s.shared) (fun _ _ _ h₁ h₂ => h₁.trans h₂) (fun _ _ _ _ _ _ => trivial)
    (fun _ _ _ _ _ hs => step_grows hs) trivial (along_of_forall (fun _ _ => trivial) _ _) h

/-- **Every method tells the truth.** Whatever other handlers, subscriptions and run tasks do, and
whichever handlers are dropped on the way, a method that has returned returned once; its result is
of a kind, or has an error code, that the request of the Unix socket for the same can get, and
vouches for the same; and the events of a `ReadRun` are those published up to its snapshot's latest
sequence, after the cursor and after what the snapshot has as acknowledged, in order and without
gaps. All of this holds in every later state. -/
theorem methods_answered (toValue : P → Except String Value) (acts later : List (Act P))
    (s s' : Service) (h : exec (step toValue) init acts = some s)
    (h' : exec (step toValue) s later = some s') (n : Nat) (method : Method) (result : Result)
    (hn : s.calls[n]? = some ⟨method, .answered result⟩) :
    s'.calls[n]? = some ⟨method, .answered result⟩ ∧ Vouches s.shared method result ∧
      Vouches s'.shared method result := by
  have hnow : Vouches s.shared method result := truthful_exec h n _ hn
  exact ⟨over_exec hn rfl h', hnow, hnow.grows (grows_exec h')⟩

/-- A run is started, and read while it publishes its second event. -/
def readRun : List (Act Unit) :=
  [.call 0 (.startRun ⟨"r"⟩ plainRequest), .handle 0 (.call 0), .server (.registry (.startCheck 0)),
   .server (.registry (.startLaunch 0 (.ok ()))), .server (.registry (.startInsert 0)),
   .server (.registry (.startCount 0)), .server (.registry (.startSpawn 0)), .resume 0] ++
  (Server.published "one").map .server ++ [.call 1 (.readRun ⟨"r"⟩ 0), .handle 1 .nothing] ++
  (Server.published "two").map .server ++ [.resume 1]

theorem methods_answered_readRun :
    ∃ (s : Service) (run : RunSnapshot) (events : List WebRunEvent),
      exec (step fun _ => .ok .null) init readRun = some s ∧
      s.calls[1]? = some ⟨.readRun ⟨"r"⟩ 0, .answered (.ok (.readRun run events))⟩ ∧
      events.map WebRunEvent.sequence = [1] ∧
      Vouches s.shared (.readRun ⟨"r"⟩ 0) (.ok (.readRun run events)) := by
  have h : ∃ (s : Service) (run : RunSnapshot) (events : List WebRunEvent),
      exec (step fun _ => .ok .null) init readRun = some s ∧
      s.calls[1]? = some ⟨.readRun ⟨"r"⟩ 0, .answered (.ok (.readRun run events))⟩ ∧
      events.map WebRunEvent.sequence = [1] := ⟨_, _, _, rfl, rfl, rfl⟩
  obtain ⟨s, run, events, hs, hn, he⟩ := h
  exact ⟨s, run, events, hs, hn, he, (methods_answered _ readRun [] s s hs rfl 1 _ _ hn).2.1⟩

end Service

end AgencyProxy.WebSocket
