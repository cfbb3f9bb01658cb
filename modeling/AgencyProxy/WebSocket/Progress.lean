import AgencyProxy.Runtime.Progress
import AgencyProxy.WebSocket.Drains

/-!
# What the service has begun comes to an end

The same for the WebSocket service: its handlers, the calls and run tasks of the registry, and
the wait of `serve_websocket`, while no method is called, no provider sends an event and nobody
hangs up. As there, calls into a provider are assumed to return. A call of `cancel` goes on only
while its handler polls it; one that was dropped with its handler is left where it is, and holds
nothing.
-/

namespace AgencyProxy.WebSocket

open AgencyProxy.Runtime Std Lts

/-! ## Work -/

/-- How many steps the handler of a subscription takes at most. -/
def Handler.work : Handler → Nat
  | .attaching _ => 5
  | .numbering _ _ => 4
  | .inserting _ _ _ => 3
  | .spawning _ _ _ | .unsubscribing _ => 2
  | .returning _ => 1
  | .idle => 0

/-- A handler is charged for the call that it is to make. -/
def Place.work : Place → Nat
  | .handling => 12
  | .starting _ | .cancelling _ | .reading _ => 1
  | .answered _ | .dropped => 0

def Phase.work : Phase → Nat
  | .draining => 1
  | .listening | .returned => 0

def Conn.work (conn : Conn) : Nat := conn.handler.work

def Call.work (call : Call) : Nat := call.place.work

/-- The handler that the connection polls goes on. -/
def Conn.Act.pursues : Conn.Act → Bool
  | .attach | .nextGeneration | .insert | .spawn | .unsubscribe | .respond => true
  | .call _ | .disconnect | .wake _ | .forward _ | .suspend _ | .reap _
  | .removeIfCurrent _ => false

theorem Conn.moves_work {r r' : Registry} {g g' : Nat} {conn conn' : Conn} {a : Conn.Act}
    (ha : a.pursues = true) (h : Moves r g conn a r' g' conn') :
    r'.work = r.work ∧ conn'.work < conn.work := by
  cases h with
  | attach _ _ _ hh | refuse _ _ hh | number _ _ hh | insert _ _ _ hh | spawn _ _ _ hh
  | remove _ _ hh | respond _ hh => exact ⟨rfl, by simp [work, hh, Handler.work]⟩
  | _ => cases ha

namespace Service

variable {P : Type} {toValue : P → Except String Value} {s s' : Service}

def work (s : Service) : Nat :=
  s.server.registry.work + s.server.conns.sum Conn.work + s.calls.sum Call.work + s.phase.work

/-- The step goes on with what has begun; a provider that a handler calls returns (`handle`). -/
def Act.pursues : Act P → Bool
  | .server (.registry a) => a.pursues
  | .server (.conn _ a) => a.pursues
  | .handle _ _ | .resume _ | .idle => true
  | .server (.connect _) | .call _ _ | .drop _ | .stop => false

theorem control_work {registry registry' : Registry} {called called' : List ProviderCall}
    {id : RunId} {call : ProviderCall} {reply : Reply} {place : Place}
    (h : control registry called id call reply = some (registry', called', place)) :
    registry'.work = registry.work ∧ place.work = 0 := by
  unfold control at h
  split at h
  · split at h
    · split at h <;> cases h <;> exact ⟨rfl, rfl⟩
    · cases h
  · cases h

/-- The first step of a handler pays for the call that it makes. -/
theorem handle_work {registry registry' : Registry} {called called' : List ProviderCall}
    {method : Method} {reply : Reply} {place : Place}
    (h : handle registry called method reply = some (registry', called', place)) :
    registry'.work + place.work < registry.work + Place.handling.work := by
  have hsame : ∀ {r : Registry} {p : Place}, r.work = registry.work → p.work ≤ 1 →
      r.work + p.work < registry.work + Place.handling.work := fun hr hp => by
    have hcharge : Place.handling.work = 12 := rfl
    omega
  unfold handle at h
  split at h
  · split at h
    · cases h; exact hsame rfl (by simp [Place.work])
    · cases h
  · split at h
    · split at h <;> cases h <;> exact hsame rfl (by simp [Place.work])
    · cases h
  · obtain ⟨r', hc, he⟩ := Option.map_eq_some_iff.1 h
    cases he
    have hadd := Registry.startCall_work hc
    simp only [Place.work]
    omega
  · obtain ⟨hr, hp⟩ := control_work h
    exact hsame hr (by omega)
  · obtain ⟨hr, hp⟩ := control_work h
    exact hsame hr (by omega)
  · obtain ⟨r', hc, he⟩ := Option.map_eq_some_iff.1 h
    cases he
    have hadd := Registry.cancelCall_work hc
    simp only [Place.work]
    omega
  · split at h
    · split at h <;> cases h <;> exact hsame rfl (by simp [Place.work])
    · cases h
  · cases h; exact hsame rfl (by simp [Place.work])
  · cases h; exact hsame rfl (by simp [Place.work])
  · cases h

/-- A handler returns. -/
theorem resume_work {registry registry' : Registry} {call : Call} {place : Place}
    (h : resume registry call = some (registry', place)) :
    registry'.work = registry.work ∧ place.work < call.place.work := by
  obtain ⟨k, id, result, hp, -, rfl, rfl⟩ | ⟨k, id, result, hp, -, rfl, rfl⟩ |
    ⟨id, after, attachment, -, hp, rfl, rfl⟩ := resume_cases h <;>
  exact ⟨rfl, by simp [hp, Place.work]⟩

/-- **Each of these steps lowers the work.** -/
theorem step_work {a : Act P} (ha : a.pursues = true) (h : s.step toValue a = some s') :
    s'.work < s.work := by
  cases step_moves h with
  | server a server hp hs =>
    cases a with
    | connect c => cases ha
    | conn c a =>
      obtain ⟨conn, r', g', conn', hc, hm, rfl⟩ := Server.conn_cases hs
      obtain ⟨hr, hlow⟩ := Conn.moves_work ha hm
      have hsum := ExtTreeMap.sum_insert_old (f := Conn.work) (v := conn') hc
      simp only [work]
      omega
    | registry a =>
      obtain ⟨registry, hr, rfl⟩ := Option.map_eq_some_iff.1 hs
      have hlow := Registry.step_work ha hr
      simp only [work]
      omega
  | handle n reply method registry called place hn hh =>
    have hlow := handle_work hh
    have hsum : (s.calls.insert n ⟨method, place⟩).sum Call.work + Place.handling.work =
        s.calls.sum Call.work + place.work := ExtTreeMap.sum_insert_old hn
    simp only [work, put, withRegistry]
    omega
  | resume n call registry place hn hr =>
    obtain ⟨hreg, hlow⟩ := resume_work hr
    have hsum : (s.calls.insert n { call with place }).sum Call.work + call.place.work =
        s.calls.sum Call.work + place.work := ExtTreeMap.sum_insert_old hn
    simp only [work, put, withRegistry]
    omega
  | idle hdraining _ => simp [work, hdraining, Phase.work]
  | _ => cases ha

/-! ## Nothing gets stuck -/

/-- None of the steps that `pursues` picks is enabled. -/
def Stuck (toValue : P → Except String Value) (s : Service) : Prop :=
  ∀ a : Act P, a.pursues = true → s.step toValue a = none

/-- Nothing is left to do but what clients and providers bring. -/
structure Settled (s : Service) : Prop where
  registry : s.server.registry.Settled fun k => s.polls k = true
  /-- Every method has returned, unless its handler was dropped. -/
  calls : ∀ (n : Nat) (call : Call), s.calls[n]? = some call → isOver call.place = true
  /-- So has every method of a subscription. -/
  handlers : s.phase = .listening → ∀ (c : Nat) (conn : Conn), s.server.conns[c]? = some conn →
    conn.handler = .idle
  /-- `serve_websocket` waits only for runs that are active. -/
  drained : s.phase = .draining → 0 < s.server.registry.active

theorem Stuck.registry (h : s.Stuck toValue) :
    s.server.registry.Stuck toValue fun k => s.polls k = true := by
  intro a ha hpolled
  have hnone := h (.server (.registry a)) ha
  have hpermits : s.permits (.registry a) = true := by
    cases a with
    | cancelTake k | cancelSend k | cancelWait k => exact hpolled k rfl
    | startCall | recv | cancelCall | cancelAll | acknowledge | attach | dropReceiver => cases ha
    | _ => rfl
  simpa [step, hpermits, Server.step] using hnone

/-- The handler that awaits a call of `cancel` polls it. -/
theorem polls_of_cancelling {n k : Nat} {call : Call} (hn : s.calls[n]? = some call)
    (hp : call.place = .cancelling k) : s.polls k = true := by
  refine List.any_eq_true.2 ⟨(n, call), ExtTreeMap.mem_toList_iff_getElem?_eq_some.2 hn, ?_⟩
  simp [hp]

/-- Only `ReadRun` holds a receiver. -/
def Reads (s : Service) : Prop :=
  ∀ (n : Nat) (call : Call) (attachment : Attachment), s.calls[n]? = some call →
    call.place = .reading attachment → ∃ id after, call.method = .readRun id after

theorem handle_reading {registry registry' : Registry} {called called' : List ProviderCall}
    {method : Method} {reply : Reply} {attachment : Attachment}
    (h : handle registry called method reply = some (registry', called', .reading attachment)) :
    ∃ id after, method = .readRun id after := by
  have hcontrol : ∀ {id : RunId} {call : ProviderCall},
      control registry called id call reply ≠ some (registry', called', .reading attachment) := by
    intro id call h
    have hwork := (control_work h).2
    cases hwork
  unfold handle at h
  split at h
  · split at h <;> cases h
  · exact ⟨_, _, rfl⟩
  · obtain ⟨_, -, he⟩ := Option.map_eq_some_iff.1 h
    cases he
  · exact absurd h hcontrol
  · exact absurd h hcontrol
  · obtain ⟨_, -, he⟩ := Option.map_eq_some_iff.1 h
    cases he
  · split at h
    · split at h <;> cases h
    · cases h
  · cases h
  · cases h
  · cases h

theorem reads_exec {acts : List (Act P)} (h : exec (step toValue) init acts = some s) :
    s.Reads := by
  refine exec_inv' (I := Reads) (fun s a s' hi hs n call attachment hn hp => ?_)
    (fun n call _ hn => by simp [init] at hn) h
  obtain ⟨-, hnew, -⟩ | ⟨place, h₀, hstep⟩ := calls_step hs hn
  · rw [hp] at hnew; cases hnew
  · rw [hp] at hstep
    cases hstep with
    | kept => exact hi n ⟨call.method, .reading attachment⟩ attachment h₀ rfl
    | handled reply registry called place hh => exact handle_reading hh
    | resumed place place' registry hr =>
      obtain ⟨_, _, _, -, -, -, he⟩ | ⟨_, _, _, -, -, -, he⟩ | ⟨_, _, _, -, -, -, he⟩ :=
        resume_cases hr <;> cases he

/-- A handler can begin once the lock is free. -/
theorem handle_enabled {n : Nat} {method : Method} (hn : s.calls[n]? = some ⟨method, .handling⟩)
    (hl : s.server.registry.lock = .free) : ∃ reply, s.step toValue (.handle n reply) ≠ none := by
  obtain ⟨k, hk⟩ := ExtTreeMap.exists_notMem s.server.registry.cancels
  obtain ⟨k', hk'⟩ := ExtTreeMap.exists_notMem s.server.registry.starts
  cases method with
  | listRuns => exact ⟨.nothing, by simp [step, hn, handle, hl]⟩
  | readRun id after =>
    refine ⟨.nothing, ?_⟩
    simp only [step, hn, handle, hl, if_true]
    split <;> simp
  | startRun id request =>
    exact ⟨.call k', by simp [step, hn, handle, Registry.startCall, hk']⟩
  | injectMessage id body =>
    refine ⟨.control (.ok ()), ?_⟩
    simp only [step, hn, handle, control, hl, if_true]
    split <;> simp
  | decideApproval id approvalId decision =>
    refine ⟨.control (.ok ()), ?_⟩
    simp only [step, hn, handle, control, hl, if_true]
    split <;> simp
  | cancelRun id => exact ⟨.call k, by simp [step, hn, handle, Registry.cancelCall, hk]⟩
  | acknowledgeRun id through =>
    refine ⟨.nothing, ?_⟩
    simp only [step, hn, handle, hl, if_true]
    split <;> simp
  | probeProviders => exact ⟨.providers [], by simp [step, hn, handle]⟩
  | readAccountUsage => exact ⟨.accountUsage [], by simp [step, hn, handle]⟩

theorem Stuck.calls (h : s.Stuck toValue) (hreads : s.Reads) (htrue : s.Truthful)
    (hset : s.server.registry.Settled fun k => s.polls k = true) {n : Nat} {call : Call}
    (hn : s.calls[n]? = some call) : isOver call.place = true := by
  have hresume := h (.resume n) rfl
  simp only [step, hn, Option.map_eq_none_iff] at hresume
  cases hp : call.place with
  | handling =>
    obtain ⟨method, place⟩ := call
    cases hp
    obtain ⟨reply, hne⟩ : ∃ reply, s.step toValue (.handle n reply) ≠ none :=
      handle_enabled hn hset.free
    exact absurd (h (.handle n reply) rfl) hne
  | starting k =>
    have hok := htrue n call hn
    rw [hp] at hok
    obtain ⟨id, request, -, hstart⟩ := hok
    cases hk : s.server.registry.starts[k]? with
    | none =>
      have hnone : s.shared.registry.starts[k]? = none := hk
      simp [Registry.StartOf, hnone] at hstart
    | some started =>
      cases started with
      | returned id' result => simp [resume, hp, hk] at hresume
      | _ => cases hset.starts k _ hk
  | cancelling k =>
    have hok := htrue n call hn
    rw [hp] at hok
    obtain ⟨id, -, hcancel⟩ := hok
    cases hk : s.server.registry.cancels[k]? with
    | none =>
      have hnone : s.shared.registry.cancels[k]? = none := hk
      simp [Registry.CancelOf, hnone] at hcancel
    | some canceled =>
      cases canceled with
      | returned id' result => simp [resume, hp, hk] at hresume
      | _ => cases hset.cancels k _ (polls_of_cancelling hn hp) hk
  | reading attachment =>
    obtain ⟨id, after, hm⟩ := hreads n call attachment hn hp
    simp [resume, hp, hm] at hresume
  | answered result => rfl
  | dropped => rfl

theorem Stuck.handlers (h : s.Stuck toValue) (hl : s.server.registry.lock = .free)
    (hp : s.phase = .listening) {c : Nat} {conn : Conn} (hc : s.server.conns[c]? = some conn) :
    conn.handler = .idle := by
  have hno : ∀ {a : Conn.Act}, a.pursues = true →
      Server.connStep s.server.registry s.server.nextGeneration conn a = none := fun {a} ha => by
    have hnone := h (.server (.conn c a)) ha
    simpa [step, permits, hp, Server.step, hc] using hnone
  cases hh : conn.handler with
  | idle => rfl
  | attaching request =>
    have hnone := hno (a := .attach) rfl
    simp only [Server.connStep, Conn.attach, hh, hl, if_true, Option.map_eq_none_iff] at hnone
    split at hnone <;> cases hnone
  | numbering request attachment =>
    have hnone := hno (a := .nextGeneration) rfl
    simp [Server.connStep, hh] at hnone
  | inserting request attachment n =>
    have hnone := hno (a := .insert) rfl
    simp [Server.connStep, Conn.insert, hh] at hnone
  | spawning request attachment n =>
    have hnone := hno (a := .spawn) rfl
    simp [Server.connStep, Conn.spawn, hh] at hnone
  | unsubscribing request =>
    have hnone := hno (a := .unsubscribe) rfl
    simp [Server.connStep, Conn.unsubscribe, hh] at hnone
  | returning response =>
    have hnone := hno (a := .respond) rfl
    simp [Server.connStep, Conn.respond, hh] at hnone

/-- **No deadlock.** -/
theorem Stuck.settled {acts : List (Act P)} (h : exec (step toValue) init acts = some s)
    (hstuck : s.Stuck toValue) : s.Settled := by
  obtain ⟨ks, hk⟩ := registry_exec h
  have hset := Registry.Stuck.settled hk hstuck.registry
  refine ⟨hset, fun n call hn => hstuck.calls (reads_exec h) (truthful_exec h) hset hn,
    fun hp c conn hc => hstuck.handlers hset.free hp hc, fun hp => ?_⟩
  have hnone := hstuck .idle rfl
  refine Nat.pos_of_ne_zero fun ha => ?_
  simp [step, hp, ha] at hnone

/-- **What is begun comes to an end**, where calls into a provider return. From any reachable state
on, let the service go on with what it has begun, in any order and whatever the calls return. It
takes no more than `work` steps; where it can take no further one, the registry's lock is free,
every method has returned, and what is left waits for a client, for an event of a provider or, in
`serve_websocket`, for a run that is active; and wherever it is, it can get there. -/
theorem methods_settle (toValue : P → Except String Value) (acts later : List (Act P))
    (s s' : Service) (h : exec (step toValue) init acts = some s)
    (h' : exec (step toValue) s later = some s') (hp : ∀ a ∈ later, a.pursues = true) :
    later.length + s'.work ≤ s.work ∧ (s'.Stuck toValue → s'.Settled) ∧
      ∃ (more : List (Act P)) (m : Service), exec (step toValue) s' more = some m ∧
        (∀ a ∈ more, a.pursues = true) ∧ m.Settled := by
  have hreach := exec_append_some.2 ⟨s, h, h'⟩
  have hbound : later.length + s'.work ≤ s.work :=
    exec_variant (I := fun _ => True) (C := fun _ a => a.pursues = true)
      (fun _ _ _ _ _ _ => trivial) (fun _ _ _ _ ha hs => step_work ha hs) trivial
      (along_of_mem hp s) h'
  obtain ⟨more, m, hm, hall, -, hend⟩ : ∃ (more : List (Act P)) (m : Service),
      exec (step toValue) s' more = some m ∧
        Along (step toValue) (fun _ a => a.pursues = true) s' more ∧ True ∧ m.Stuck toValue :=
    exists_exec_end (m := work) (I := fun _ => True) (C := fun _ (a : Act P) => a.pursues = true)
      (fun _ _ _ _ _ _ => trivial) (fun _ _ _ _ ha hs => step_work ha hs) trivial
  exact ⟨hbound, Stuck.settled hreach, more, m, hm, mem_of_along hall hm,
    Stuck.settled (exec_append_some.2 ⟨s', hreach, hm⟩) hend⟩

/-- A run is being canceled while other handlers begin. -/
def busy : List (Act Unit) :=
  [.call 0 (.startRun ⟨"r"⟩ plainRequest), .handle 0 (.call 0)] ++ startOn 0 ++
  [.resume 0, .call 1 (.cancelRun ⟨"r"⟩), .handle 1 (.call 0),
   .server (.registry (.cancelTake 0)), .call 2 .listRuns, .server (.connect 0),
   .server (.conn 0 (.call (.subscribeRun ⟨⟨"r"⟩, 0⟩)))]

theorem methods_settle_busy :
    ∃ s s' : Service, exec (step fun _ => .ok .null) init busy = some s ∧
      (s.calls[1]?.map Call.place).any (fun place => !isOver place) = true ∧
      exec (step fun _ => .ok .null) s [(.server (.registry (.cancelSend 0)) : Act Unit)] =
        some s' ∧
      ∃ (more : List (Act Unit)) (m : Service),
        exec (step fun _ => .ok .null) s' more = some m ∧ m.Settled := by
  have h : ∃ s s' : Service, exec (step fun _ => .ok .null) init busy = some s ∧
      (s.calls[1]?.map Call.place).any (fun place => !isOver place) = true ∧
      exec (step fun _ => .ok .null) s [(.server (.registry (.cancelSend 0)) : Act Unit)] =
        some s' := ⟨_, _, rfl, rfl, rfl⟩
  obtain ⟨s, s', hs, hplace, hs'⟩ := h
  obtain ⟨-, -, more, m, hm, -, hset⟩ :=
    methods_settle _ busy [.server (.registry (.cancelSend 0))] s s' hs hs' (by decide)
  exact ⟨s, s', hs, hplace, hs', more, m, hm, hset⟩

end Service

end AgencyProxy.WebSocket
