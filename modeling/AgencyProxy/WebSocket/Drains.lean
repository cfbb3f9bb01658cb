import AgencyProxy.Runtime.Owners
import AgencyProxy.WebSocket.Answers

/-!
# Draining

When `serve_websocket` returns, the runs that it accepted have ended. The count alone does not say
that: `start` goes on by itself once its handler is dropped, so that a run may be inserted, and
counted, after the registry was found idle. But such a `StartRun` was never answered. So a run
whose `StartRun` was answered has its task when the count is read, and a run that is still active
is one of a `StartRun` that the stop dropped.
-/

namespace AgencyProxy.WebSocket

open AgencyProxy.Runtime Std Lts

namespace Service

variable {P : Type} {toValue : P → Except String Value} {s s' : Service}

/-- The step receives no event whose payload does not serialise. -/
def Act.Serialises (toValue : P → Except String Value) : Act P → Prop
  | .server (.registry a) => a.Serialises toValue
  | _ => True

/-! ## What a step does to the registry -/

/-- The calls of `start` that begin are those that a handler now awaits. -/
def Begins (toValue : P → Except String Value) (s : Service) (a : Registry.Act P) : Prop :=
  a.Serialises toValue ∧ ∀ k id request, a = .startCall k id request →
    ∃ n : Nat, s.calls[n]? = some ⟨.startRun id request, .starting k⟩

theorem begins_of_isClient {a : Registry.Act P} (h : a.isClient = true) : Begins toValue s a := by
  cases a <;> try cases h
  case acknowledge | attach | dropReceiver => exact ⟨trivial, by simp⟩

theorem step_acts {a : Act P} (h : s.step toValue a = some s') (ha : a.Serialises toValue) :
    ∃ ks, exec (Registry.step toValue) s.server.registry ks = some s'.server.registry ∧
      ∀ b ∈ ks, Begins toValue s' b := by
  cases step_moves h with
  | server a server hp hs =>
    cases a with
    | connect c =>
      obtain ⟨-, rfl⟩ := Server.connect_cases hs
      exact ⟨[], rfl, by simp⟩
    | conn c a =>
      obtain ⟨conn, r', g', conn', -, hm, rfl⟩ := Server.conn_cases hs
      have hby : Daemon.ByClients toValue s.server.registry r' := Server.moves_byClients hm
      obtain ⟨ks, hclients, hks⟩ := hby
      exact ⟨ks, hks, fun b hb => begins_of_isClient (hclients b hb)⟩
    | registry a =>
      obtain ⟨registry, hr, rfl⟩ := Option.map_eq_some_iff.1 hs
      refine ⟨[a], exec_single.2 hr, fun b hb => ?_⟩
      rw [List.mem_singleton.1 hb]
      refine ⟨ha, fun k id request he => ?_⟩
      subst he
      cases hp
  | handle n reply method registry called place hn hh =>
    obtain ⟨-, ks, hks, hasks⟩ := handle_registry toValue hh
    refine ⟨ks, hks, fun b hb => ?_⟩
    have hb := hasks b hb
    cases b with
    | startCall k id request =>
      obtain ⟨rfl, rfl⟩ := hb
      refine ⟨trivial, fun k' id' request' he => ?_⟩
      cases he
      exact ⟨n, ExtTreeMap.getElem?_insert_self⟩
    | _ => exact ⟨hb, by simp⟩
  | resume n call registry place hn hr =>
    obtain ⟨_, _, _, -, -, rfl, -⟩ | ⟨_, _, _, -, -, rfl, -⟩ | ⟨id, _, _, -, -, rfl, -⟩ :=
      resume_cases hr
    · exact ⟨[], rfl, by simp⟩
    · exact ⟨[], rfl, by simp⟩
    · refine ⟨[.dropReceiver id], rfl, fun b hb => begins_of_isClient ?_⟩
      rw [List.mem_singleton.1 hb]
      rfl
  | _ => exact ⟨[], rfl, by simp⟩

/-! ## The handler of each call of `start` -/

/-- The handler that began the call: it awaits it, was dropped, or answered with its result. -/
def Began (s : Service) (k : Nat) : Prop :=
  ∃ (n : Nat) (id : RunId) (request : RunRequest) (place : Place),
    s.calls[n]? = some ⟨.startRun id request, place⟩ ∧
    s.server.registry.StartOf k id request ∧
    (place = .starting k ∨ place = .dropped ∨ ∃ (id' : RunId) (result : Except RuntimeError Unit),
      s.server.registry.starts[k]? = some (.returned id' result) ∧
        place = .answered (accepted result))

/-- Where a `StartRun` that awaits its call may go. -/
theorem starting_step {id : RunId} {request : RunRequest} {k : Nat} {place : Place}
    (h : PlaceStep s (.startRun id request) (.starting k) place) :
    place = .starting k ∨ place = .dropped ∨ ∃ (id' : RunId) (result : Except RuntimeError Unit),
      s.server.registry.starts[k]? = some (.returned id' result) ∧
        place = .answered (accepted result) := by
  cases h with
  | kept => exact .inl rfl
  | resumed _ _ registry hr =>
    obtain ⟨_, id', result, hp, hk, -, rfl⟩ | ⟨_, _, _, hp, -⟩ | ⟨_, _, _, hm, -⟩ :=
      resume_cases hr
    · cases hp
      exact .inr (.inr ⟨id', result, hk, rfl⟩)
    · cases hp
    · cases hm
  | dropped => exact .inr (.inl rfl)

theorem Began.step {acts : List (Act P)} {a : Act P} {k : Nat}
    (hm : exec (Service.step toValue) init acts = some s) (h : s.Began k)
    (hs : s.step toValue a = some s') : s'.Began k := by
  obtain ⟨-, -, hi, hsrc⟩ := shared_exec hm
  obtain ⟨ks, hks⟩ := step_registry hs
  obtain ⟨n, id, request, place, hn, hstart, hplace⟩ := h
  have hstart' := (Registry.calls_exec hi hsrc hks).1 k id request hstart
  have hreturned : ∀ (id' : RunId) (result : Except RuntimeError Unit),
      s.server.registry.starts[k]? = some (.returned id' result) →
      s'.server.registry.starts[k]? = some (.returned id' result) := fun _ _ hk =>
    Registry.returned_exec hk hks
  obtain rfl | rfl | ⟨id', result, hk, rfl⟩ := hplace
  · obtain ⟨place', hn', hp⟩ := calls_keep hs hn
    refine ⟨n, id, request, place', hn', hstart', ?_⟩
    obtain rfl | rfl | ⟨id', result, hk, rfl⟩ := starting_step hp
    · exact .inl rfl
    · exact .inr (.inl rfl)
    · exact .inr (.inr ⟨id', result, hreturned id' result hk, rfl⟩)
  · exact ⟨n, id, request, .dropped, over_step hn rfl hs, hstart', .inr (.inl rfl)⟩
  · exact ⟨n, id, request, _, over_step hn rfl hs, hstart',
      .inr (.inr ⟨id', result, hreturned id' result hk, rfl⟩)⟩

/-- Every call of `start` was begun by a handler. -/
theorem began_exec {acts : List (Act P)} {k : Nat} (h : exec (step toValue) init acts = some s)
    (ha : ∀ a ∈ acts, a.Serialises toValue) (hk : s.server.registry.starts[k]? ≠ none) :
    s.Began k := by
  induction acts using List.reverseRecOn generalizing s with
  | nil => cases h; simp [init, Server.init, Registry.init] at hk
  | append_singleton acts a ih =>
    obtain ⟨m, hm, h'⟩ := exec_append_some.1 h
    have hs := exec_single.1 h'
    obtain ⟨ks, hks, hb⟩ :=
      step_acts hs (ha a (List.mem_append_right _ (List.mem_singleton_self _)))
    obtain hk | ⟨id, request, hin⟩ := Registry.exec_calls hks hk
    · exact (ih hm (fun b hb => ha b (List.mem_append_left _ hb)) hk).step hm hs
    · obtain ⟨n, hn⟩ := (hb _ hin).2 k id request rfl
      obtain ⟨_, _, hmethod, hstart⟩ := truthful_exec h n _ hn
      cases hmethod
      exact ⟨n, id, request, _, hn, hstart, .inl rfl⟩

/-- A `StartRun` that was answered `accepted` has its call returned. -/
theorem answered_exec {acts : List (Act P)} (h : exec (step toValue) init acts = some s)
    (n : Nat) (id : RunId) (request : RunRequest)
    (hn : s.calls[n]? = some ⟨.startRun id request, .answered (.ok (.accepted true))⟩) :
    ∃ k : Nat, s.server.registry.starts[k]? = some (.returned id (.ok ())) := by
  induction acts using List.reverseRecOn generalizing s with
  | nil => cases h; simp [init] at hn
  | append_singleton acts a ih =>
    obtain ⟨m, hm, h'⟩ := exec_append_some.1 h
    have hs := exec_single.1 h'
    obtain ⟨ks, hks⟩ := step_registry hs
    obtain ⟨-, hplace, -⟩ | ⟨place, hn₀, hp⟩ := calls_step hs hn
    · cases hplace
    · dsimp only at hn₀ hp
      cases hp with
      | kept =>
        obtain ⟨k, hk⟩ := ih hm hn₀
        exact ⟨k, Registry.returned_exec hk hks⟩
      | handled reply registry called _ hh =>
        obtain ⟨k, hplace⟩ := handle_startRun hh
        cases hplace
      | resumed _ _ registry hr =>
        obtain ⟨k, id', result, rfl, hk, -, he⟩ | ⟨k, id', result, rfl, -⟩ |
          ⟨_, _, _, hmethod, -⟩ := resume_cases hr
        · obtain ⟨_, _, hmethod, hstart⟩ := truthful_exec hm n _ hn₀
          cases hmethod
          cases result with
          | error e => cases he
          | ok =>
            rw [← hstart.owns hk rfl]
            exact ⟨k, Registry.returned_exec hk hks⟩
        · obtain ⟨_, hmethod, -⟩ := truthful_exec hm n _ hn₀
          cases hmethod
        · cases hmethod

/-! ## After the stop -/

/-- No handler is under way. -/
def Stopped (s : Service) : Prop :=
  s.phase ≠ .listening ∧ ∀ (n : Nat) (call : Call), s.calls[n]? = some call →
    isOver call.place = true

theorem Stopped.step {a : Act P} (h : s.Stopped) (hs : s.step toValue a = some s') :
    s'.Stopped := by
  refine ⟨?_, fun n call hn => ?_⟩
  · cases step_moves hs with
    | idle => simp
    | stop => simp
    | _ => exact h.1
  · obtain ⟨-, -, hl⟩ | ⟨place, h₀, -⟩ := calls_step hs hn
    · exact absurd hl h.1
    · have hover := h.2 n _ h₀
      rw [over_step h₀ hover hs] at hn
      rwa [← Option.some.inj hn]

/-- The server's thread ends with its handlers. -/
theorem stopped_exec {acts : List (Act P)} (h : exec (step toValue) init acts = some s)
    (hp : s.phase ≠ .listening) : s.Stopped := by
  refine exec_inv' (I := fun s : Service => s.phase ≠ .listening → s.Stopped)
    (fun s a s' hi hs hp' => ?_) (fun hp => absurd rfl hp) h hp
  by_cases hl : s.phase = .listening
  · cases step_moves hs with
    | stop =>
      refine ⟨hp', fun n call hn => ?_⟩
      dsimp only at hn
      rw [ExtTreeMap.getElem?_map, Option.map_eq_some_iff] at hn
      obtain ⟨call₀, -, rfl⟩ := hn
      split
      · assumption
      · rfl
    | idle draining => rw [hl] at draining; cases draining
    | _ => exact absurd hl hp'
  · exact (hi hl).step hs

/-- What a handler has come to by then is all that it comes to. -/
theorem Stopped.calls {acts : List (Act P)} (h : s.Stopped)
    (he : exec (Service.step toValue) s acts = some s') (n : Nat) (call : Call)
    (hn : s'.calls[n]? = some call) : s.calls[n]? = some call := by
  have hkept : s'.Stopped ∧ ∀ (n : Nat) (call : Call), s'.calls[n]? = some call →
      s.calls[n]? = some call := by
    refine exec_inv' (I := fun s' : Service => s'.Stopped ∧ ∀ (n : Nat) (call : Call),
      s'.calls[n]? = some call → s.calls[n]? = some call) (fun m a m' hi hs => ?_)
      ⟨h, fun _ _ h => h⟩ he
    refine ⟨hi.1.step hs, fun n call hn => hi.2 n call ?_⟩
    obtain ⟨-, -, hl⟩ | ⟨place, h₀, -⟩ := calls_step hs hn
    · exact absurd hl hi.1.1
    · rw [over_step h₀ (hi.1.2 n _ h₀) hs] at hn
      rw [h₀, hn]
  exact hkept.2 n call hn

/-! ## The registry when `serve_websocket` returns -/

theorem inv_exec {acts : List (Act P)} (h : exec (step toValue) init acts = some s)
    (ha : ∀ a ∈ acts, a.Serialises toValue) : s.server.registry.Inv :=
  exec_inv (I := fun s : Service => s.server.registry.Inv) (C := fun _ a => a.Serialises toValue)
    (fun _ _ _ hi ha hs => by
      obtain ⟨ks, hks, hb⟩ := step_acts hs ha
      exact Registry.inv_exec hi (fun b hin => (hb b hin).1) hks)
    Registry.inv_init (along_of_mem ha init) h

theorem final_exec {acts : List (Act P)} (hi : s.server.registry.Inv)
    (ha : ∀ a ∈ acts, a.Serialises toValue) (h : exec (step toValue) s acts = some s') :
    s.server.registry.Final s'.server.registry := by
  refine exec_mono (I := fun s : Service => s.server.registry.Inv)
    (C := fun _ a => a.Serialises toValue)
    (R := fun s s' : Service => s.server.registry.Final s'.server.registry)
    (fun _ id run h₁ h₂ => ⟨run, h₁, h₂, rfl⟩) ?_ ?_ ?_ hi (along_of_mem ha s) h
  · intro a b c hab hbc id run h₁ h₂
    obtain ⟨run', h₁', h₂', hp⟩ := hab id run h₁ h₂
    obtain ⟨run'', h₁'', h₂'', hp'⟩ := hbc id run' h₁' h₂'
    exact ⟨run'', h₁'', h₂'', hp'.trans hp⟩
  · intro s a s' hi ha hs
    obtain ⟨ks, hks, hb⟩ := step_acts hs ha
    exact Registry.inv_exec hi (fun b hin => (hb b hin).1) hks
  · intro s a s' hi ha hs
    obtain ⟨ks, hks, hb⟩ := step_acts hs ha
    exact Registry.final_exec hi (fun b hin => (hb b hin).1) hks

/-- The run of a `StartRun` that was answered has ended when the registry is idle. -/
theorem ended_of_answered {acts : List (Act P)} (h : exec (step toValue) init acts = some s)
    (ha : ∀ a ∈ acts, a.Serialises toValue) (hidle : s.server.registry.active = 0) (n : Nat)
    (id : RunId) (request : RunRequest)
    (hn : s.calls[n]? = some ⟨.startRun id request, .answered (.ok (.accepted true))⟩) :
    ∃ run : LiveRun, s.server.registry.store.runs[id]? = some run ∧ run.isActive = false := by
  obtain ⟨k, hk⟩ := answered_exec h n id request hn
  obtain ⟨ks, hks⟩ := registry_exec h
  have hrun := (Registry.owners_exec hks).found k _ id hk rfl
  obtain ⟨run, hr⟩ := Option.ne_none_iff_exists'.1 hrun
  have htask := (Registry.owned_exec hks).spawned k id hk
  exact ⟨run, hr, (inv_exec h ha).ended_of_idle hidle hr htask⟩

/-- **`serve_websocket` returns when its runs have ended.** In every run of the service in which
every received payload serialises, once `wait_until_idle` has returned: each run whose `StartRun`
was answered `accepted` has ended, and stays so with nothing published on it; and a run that is
active, then or in any later state, is one of a `StartRun` whose handler was dropped before it
could answer. -/
theorem served_drained (toValue : P → Except String Value) (acts later : List (Act P))
    (s s₁ s' : Service) (h : exec (step toValue) init acts = some s)
    (hidle : s.step toValue .idle = some s₁) (h' : exec (step toValue) s₁ later = some s')
    (ha : ∀ a ∈ acts ++ later, a.Serialises toValue) :
    (∀ (n : Nat) (id : RunId) (request : RunRequest),
      s'.calls[n]? = some ⟨.startRun id request, .answered (.ok (.accepted true))⟩ →
      ∃ run : LiveRun, s'.server.registry.store.runs[id]? = some run ∧ run.isActive = false ∧
        s'.server.registry.store.published id = s.server.registry.store.published id) ∧
    ∀ (id : RunId) (run : LiveRun), s'.server.registry.store.runs[id]? = some run →
      run.isActive = true →
      ∃ (n : Nat) (request : RunRequest), s'.calls[n]? = some ⟨.startRun id request, .dropped⟩ := by
  have hacts : ∀ a ∈ acts, a.Serialises toValue := fun a hin => ha a (List.mem_append_left _ hin)
  have hlater : ∀ a ∈ later, a.Serialises toValue := fun a hin => ha a (List.mem_append_right _ hin)
  obtain ⟨draining, hactive, rfl⟩ : s.phase = .draining ∧ s.server.registry.active = 0 ∧
      s₁ = { s with phase := .returned } := by
    cases step_moves hidle with
    | idle draining idle => exact ⟨draining, idle, rfl⟩
  have hstopped := stopped_exec h (by simp [draining])
  have hwhole : exec (step toValue) init (acts ++ .idle :: later) = some s' :=
    exec_append_some.2 ⟨s, h, exec_cons_some.2 ⟨_, hidle, h'⟩⟩
  have hall : ∀ a ∈ acts ++ .idle :: later, a.Serialises toValue := fun a hin => by
    rcases List.mem_append.1 hin with hin | hin
    · exact hacts a hin
    · rcases List.mem_cons.1 hin with rfl | hin
      · trivial
      · exact hlater a hin
  have hended : ∀ (n : Nat) (id : RunId) (request : RunRequest),
      s'.calls[n]? = some ⟨.startRun id request, .answered (.ok (.accepted true))⟩ →
      ∃ run : LiveRun, s'.server.registry.store.runs[id]? = some run ∧ run.isActive = false ∧
        s'.server.registry.store.published id = s.server.registry.store.published id :=
    fun n id request hn => by
    have hn₀ : s.calls[n]? = some ⟨.startRun id request, .answered (.ok (.accepted true))⟩ :=
      hstopped.calls (exec_cons_some.2 ⟨_, hidle, h'⟩) n _ hn
    obtain ⟨run, hr, hend⟩ := ended_of_answered h hacts hactive n id request hn₀
    have hi : s.server.registry.Inv := inv_exec h hacts
    exact final_exec (s := { s with phase := .returned }) hi hlater h' id run hr hend
  refine ⟨hended, fun id run hr hact => ?_⟩
  -- the run has an owner, and the owner a handler; had that answered, the run would have ended
  obtain ⟨ks, hks⟩ := registry_exec hwhole
  obtain ⟨k, call, hk, howns⟩ := (Registry.owned_exec hks).runs id run hr
  have hne : s'.server.registry.starts[k]? ≠ none := by simp [hk]
  obtain ⟨n, id₀, request, place, hn, hstart, hplace⟩ := began_exec hwhole hall hne
  cases hstart.owns hk howns
  obtain rfl | rfl | ⟨id', result, hk', rfl⟩ := hplace
  · have hover := (hstopped.step hidle).2 n _
      ((hstopped.step hidle).calls h' n _ hn)
    cases hover
  · exact ⟨n, request, hn⟩
  · cases hk.symm.trans hk'
    cases result with
    | error e => cases howns
    | ok =>
      obtain ⟨run', hr', hend, -⟩ := hended n id request hn
      cases hr.symm.trans hr'
      rw [hact] at hend
      cases hend

/-- The steps of a call of `start` that succeeds, after its first. -/
def startOn (k : Nat) : List (Act Unit) :=
  [.server (.registry (.startCheck k)), .server (.registry (.startLaunch k (.ok ()))),
   .server (.registry (.startInsert k)), .server (.registry (.startCount k)),
   .server (.registry (.startSpawn k))]

/-- One run is started and ends. The server stops when another has been asked for. -/
def stopped : List (Act Unit) :=
  [.call 0 (.startRun ⟨"r"⟩ plainRequest), .handle 0 (.call 0)] ++ startOn 0 ++
  [.resume 0, .call 1 (.startRun ⟨"q"⟩ plainRequest), .handle 1 (.call 1),
   .server (.registry (.recv ⟨"r"⟩ none)),
   .server (.registry (.finish ⟨"r"⟩ (.ok ⟨true, ()⟩))), .server (.registry (.publish ⟨"r"⟩)),
   .stop, .server (.registry (.complete ⟨"r"⟩)), .server (.registry (.uncount ⟨"r"⟩))]

/-- The other run goes on once the service has returned, as one whose handler was dropped. -/
theorem served_drained_stopped :
    ∃ (s s₁ s' : Service) (run : LiveRun),
      exec (step fun _ => .ok .null) init stopped = some s ∧
      s.step (fun _ : Unit => .ok .null) .idle = some s₁ ∧
      exec (step fun _ => .ok .null) s₁ (startOn 1) = some s' ∧
      s'.server.registry.store.runs[(⟨"q"⟩ : RunId)]? = some run ∧ run.isActive = true ∧
      (∃ run : LiveRun, s'.server.registry.store.runs[(⟨"r"⟩ : RunId)]? = some run ∧
        run.isActive = false) ∧
      ∃ (n : Nat) (request : RunRequest),
        s'.calls[n]? = some ⟨.startRun ⟨"q"⟩ request, .dropped⟩ := by
  have h : ∃ (s s₁ s' : Service) (run : LiveRun),
      exec (step fun _ => .ok .null) init stopped = some s ∧
      s.step (fun _ : Unit => .ok .null) .idle = some s₁ ∧
      exec (step fun _ => .ok .null) s₁ (startOn 1) = some s' ∧
      s'.server.registry.store.runs[(⟨"q"⟩ : RunId)]? = some run ∧ run.isActive = true ∧
      s'.calls[0]? = some ⟨.startRun ⟨"r"⟩ plainRequest, .answered (.ok (.accepted true))⟩ :=
    ⟨_, _, _, _, rfl, rfl, rfl, rfl, rfl, rfl⟩
  obtain ⟨s, s₁, s', run, hs, hidle, hs', hr, hact, hn⟩ := h
  have hserialises : ∀ a ∈ stopped ++ startOn 1, a.Serialises fun _ => .ok .null := by
    simp [stopped, startOn, Act.Serialises, Registry.Act.Serialises]
  obtain ⟨hended, hactive⟩ := served_drained _ stopped (startOn 1) s s₁ s' hs hidle hs' hserialises
  obtain ⟨run₀, hr₀, hend, -⟩ := hended 0 ⟨"r"⟩ plainRequest hn
  exact ⟨s, s₁, s', run, hs, hidle, hs', hr, hact, ⟨run₀, hr₀, hend⟩, hactive ⟨"q"⟩ run hr hact⟩

end Service

end AgencyProxy.WebSocket
