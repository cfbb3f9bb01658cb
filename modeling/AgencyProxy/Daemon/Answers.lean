import AgencyProxy.Daemon.Discipline
import AgencyProxy.Runtime.Results

/-!
# What answers mean

`Answers` says what a response to a request vouches for, in terms of the shared state: that a run
which was started is there as asked for, that a canceled run was told of its end, that a control
call was handed to its provider. Runs only grow, so what was true when the response was made stays
true, whatever other connections and the run tasks do; and a response of any other kind, or with
an error code that the request cannot meet, is never made.
-/

namespace AgencyProxy

open AgencyProxy.Runtime Std Lts

/-! ## The meaning of a response -/

/-- What a request may be refused with once the hello was answered. -/
def ClientMessage.errors : ClientMessage → List ErrorCode
  | .hello _ _ => [.incompatibleVersion, .protocolViolation]
  | .shutdownIfIdle | .shutdown _ => [.conflict]
  | .startRun _ _ _ => [.conflict, .protocolViolation, .internal]
  | .attachRun _ _ | .cancelRun _ _ => [.notFound, .conflict]
  | .injectMessage _ _ _ | .decideApproval _ _ _ _ => [.notFound, .internal]
  | .interruptSession _ _ _ _ => [.protocolViolation, .internal]
  | .ackEvents _ _ => [.notFound]
  | .listRuns | .probeProviders | .readAccountUsage | .detachRun _ => []

namespace Shared

/-- The snapshot is one of a run that is there, as it is now or was before. -/
def Shows (s : Shared) (snapshot : RunSnapshot) : Prop :=
  ∃ run, s.registry.store.runs[snapshot.runId]? = some run ∧ Ages snapshot run.snapshot

/-- What the response to a message vouches for. -/
def Answers (s : Shared) (message : ClientMessage) (response : ServerResponse) : Prop :=
  match response, message with
  | .error code _, message => code ∈ message.errors
  | .hello name agreed capabilities, .hello _ version =>
    name = "agency-proxy" ∧ protocolVersion.negotiate version = some agreed ∧
      capabilities = serverCapabilities
  | .runs snapshots, .listRuns =>
    (∀ snapshot ∈ snapshots, s.Shows snapshot) ∧
      snapshots.Pairwise fun a b => compare a.runId b.runId = .lt
  | .providers _, .probeProviders | .accountUsage _, .readAccountUsage => True
  | .run snapshot, .attachRun id _ => snapshot.runId = id ∧ s.Shows snapshot
  | .accepted, .shutdownIfIdle | .accepted, .shutdown _ => s.stopping = true
  | .accepted, .startRun id spec _ => s.registry.Holds id spec
  | .accepted, .detachRun _ => True
  | .accepted, .injectMessage id body _ => .send id body ∈ s.called
  | .accepted, .cancelRun id _ => s.registry.Over id
  | .accepted, .decideApproval id approvalId decision _ =>
    .respond id approvalId (decisionFor decision) ∈ s.called
  | .accepted, .ackEvents id _ => ∃ run, s.registry.store.runs[id]? = some run
  | .sessionInterrupted _, .interruptSession provider sessionId binary _ =>
    ∃ request, interruptRequest provider sessionId binary = .ok request ∧
      .interrupt request ∈ s.called
  | _, _ => False

/-- Nothing that a response vouches for is taken back. -/
structure Grows (s s' : Shared) : Prop where
  store : s.registry.store.Grows s'.registry.store
  stopping : s.stopping = true → s'.stopping = true
  called : s.called <+: s'.called

theorem Grows.refl (s : Shared) : s.Grows s := ⟨.refl _, id, List.prefix_rfl⟩

theorem Grows.trans {a b c : Shared} (h₁ : a.Grows b) (h₂ : b.Grows c) : a.Grows c :=
  ⟨h₁.store.trans h₂.store, fun h => h₂.stopping (h₁.stopping h), h₁.called.trans h₂.called⟩

variable {s s' : Shared} {message : ClientMessage} {response : ServerResponse}

theorem Shows.grows {snapshot : RunSnapshot} (h : s.Shows snapshot) (hg : s.Grows s') :
    s'.Shows snapshot := by
  obtain ⟨run, hr, ha⟩ := h
  obtain ⟨run', hr', hab⟩ := hg.store.runs _ run hr
  exact ⟨run', hr', ha.trans hab⟩

theorem Answers.grows (h : s.Answers message response) (hg : s.Grows s') :
    s'.Answers message response := by
  unfold Answers at h
  split at h
  · exact h
  · exact h
  · exact ⟨fun snapshot hm => (h.1 snapshot hm).grows hg, h.2⟩
  · trivial
  · trivial
  · exact ⟨h.1, h.2.grows hg⟩
  · exact hg.stopping h
  · exact hg.stopping h
  · exact h.grows hg.store
  · trivial
  · exact hg.called.mem h
  · exact h.grows hg.store
  · exact hg.called.mem h
  · obtain ⟨run, hr⟩ := h
    obtain ⟨run', hr', -⟩ := hg.store.runs _ run hr
    exact ⟨run', hr'⟩
  · obtain ⟨request, hb, hm⟩ := h
    exact ⟨request, hb, hg.called.mem hm⟩
  · exact h.elim

/-- Each run in the map is under its own id. -/
def Keyed (s : Shared) : Prop :=
  ∀ (id : RunId) (run : LiveRun), s.registry.store.runs[id]? = some run → run.snapshot.runId = id

theorem Keyed.shows (h : s.Keyed) {id : RunId} {run : LiveRun}
    (hr : s.registry.store.runs[id]? = some run) : s.Shows run.snapshot :=
  ⟨run, by rw [h id run hr]; exact hr, .refl _⟩

/-- A list shows runs that are there, in the order of their ids. -/
theorem Keyed.list (h : s.Keyed) : s.Answers .listRuns (.runs s.registry.store.list) := by
  have hfound : ∀ p ∈ s.registry.store.runs.toList, s.registry.store.runs[p.1]? = some p.2 :=
    fun p hp => ExtTreeMap.mem_toList_iff_getElem?_eq_some.1 hp
  refine ⟨fun snapshot hm => ?_, ?_⟩
  · obtain ⟨p, hp, rfl⟩ := List.mem_map.1 hm
    exact h.shows (hfound p hp)
  · unfold Store.list
    rw [List.pairwise_map]
    refine (ExtTreeMap.ordered_keys_toList (t := s.registry.store.runs)).imp_of_mem ?_
    intro a b ha hb hlt
    rw [h a.1 a.2 (hfound a ha), h b.1 b.2 (hfound b hb)]
    exact hlt

theorem answers_error {code : ErrorCode} {text : String} (h : code ∈ message.errors) :
    s.Answers message (.error code text) :=
  h

end Shared

/-! ## What a connection is about to answer -/

/-- A response that is being written is true, and a call that is awaited is the request's. -/
def Pc.Answers (s : Shared) : Pc → Prop
  | .answering request response _ _ => s.Answers request.message response
  | .locked request => request.message.locks = true
  | .starting request k =>
    ∃ id spec key, request.message = .startRun id spec key ∧ s.registry.StartOf k id spec
  | .cancelling request k =>
    ∃ id key, request.message = .cancelRun id key ∧ s.registry.CancelOf k id
  | _ => True

namespace Conn

/-- The entry is what the first frame is answered with. -/
def FirstAnswer (request : ClientFrame) (response : ServerResponse) : Prop :=
  ∃ next, greet request = .answering request response next false

/-- Where an entry may stand that is a response: it is true, or answers the first frame. -/
def TrueAt (s : Shared) (log : List Written) (w : Written) : Prop :=
  ∀ request response, w = .response request response →
    s.Answers request.message response ∨ log = [] ∧ FirstAnswer request response

structure Truthful (s : Shared) (conn : Conn) : Prop where
  pc : conn.pc.Answers s ∨ conn.written = [] ∧ ∃ frame, conn.pc = greet frame
  written : Each (TrueAt s) conn.written
  opening : conn.pc = .opening → conn.written = []

variable {P : Type} {toValue : P → Except String Value} {s s' : Shared} {c : Nat}
  {conn conn' : Conn}

theorem truthful_init (s : Shared) : Truthful s init := ⟨.inl trivial, each_nil, fun _ => rfl⟩

/-! ### `handle` -/

theorem control_answers {request : ClientFrame} {id : RunId} {call : ProviderCall} {reply : Reply}
    (hnone : .notFound ∈ request.message.errors) (hctl : .internal ∈ request.message.errors)
    (hok : ∀ s : Shared, call ∈ s.called → s.Answers request.message .accepted)
    (h : control s conn request id call reply = some (s', conn')) :
    s.Grows s' ∧ conn'.written = conn.written ∧ conn'.pc.Answers s' := by
  unfold control at h
  split at h
  · rename_i result
    split at h
    · split at h
      · cases h
        refine ⟨⟨.refl _, fun h => h, List.prefix_append _ _⟩, rfl, ?_⟩
        cases result with
        | ok u => exact hok _ (List.mem_append_right _ (List.mem_singleton_self _))
        | error e => exact hctl
      · cases h
        exact ⟨.refl _, rfl, hnone⟩
    · cases h
  · cases h

theorem attach_answers {id : RunId} {after : Nat} {attachment : Attachment} {store : Store}
    (hk : s.Keyed) (h : s.registry.store.attach id after = .ok (attachment, store))
    (hg : s.Grows (s.withStore store)) :
    (s.withStore store).Answers (.attachRun id after) (.run attachment.snapshot) := by
  obtain ⟨run, run', hr, ha, rfl⟩ := Store.attach_ok h
  obtain ⟨-, rfl, -⟩ := LiveRun.attach_ok ha
  exact ⟨hk id run hr, (hk.shows hr).grows hg⟩

theorem attach_refused {id : RunId} {after : Nat} {e : RuntimeError}
    (h : s.registry.store.attach id after = .error e) :
    s.Answers (.attachRun id after) (runtimeError e) := by
  unfold Store.attach at h
  split at h
  · split at h
    · cases h
    · rename_i e' he
      cases h
      unfold LiveRun.attach at he
      split at he
      · cases he; exact Shared.answers_error (by simp [ClientMessage.errors])
      · cases he
  · cases h; exact Shared.answers_error (by simp [ClientMessage.errors])

theorem acknowledge_answers {id : RunId} {through : Nat} {store : Store}
    (h : s.registry.store.acknowledge id through = .ok store) :
    (s.withStore store).Answers (.ackEvents id through) .accepted := by
  unfold Store.acknowledge at h
  split at h
  · cases h
    exact ⟨_, ExtTreeMap.getElem?_insert_self⟩
  · cases h

theorem acknowledge_refused {id : RunId} {through : Nat} {e : RuntimeError}
    (h : s.registry.store.acknowledge id through = .error e) :
    s.Answers (.ackEvents id through) (runtimeError e) := by
  unfold Store.acknowledge at h
  split at h
  · cases h
  · cases h; exact Shared.answers_error (by simp [ClientMessage.errors])

theorem grows_of_byClients (toValue : P → Except String Value) {registry : Registry}
    (h : Daemon.ByClients toValue s.registry registry) : s.Grows { s with registry } := by
  obtain ⟨ks, -, hks⟩ := h
  exact ⟨Registry.exec_grows hks, id, List.prefix_rfl⟩

theorem handle_answers {reply : Reply} (hk : s.Keyed)
    (h : conn.handle s c reply = some (s', conn')) :
    s.Grows s' ∧ conn'.written = conn.written ∧ conn'.pc.Answers s' := by
  unfold handle at h
  split at h
  · rename_i request hpc
    have same : ∀ response, s.Answers request.message response →
        s.Grows s ∧ (conn.answer request response).written = conn.written ∧
          (conn.answer request response).pc.Answers s := fun response hr => ⟨.refl _, rfl, hr⟩
    split at h
    · rename_i hm
      split at h
      · cases h
        exact same _ (by rw [hm]; exact hk.list)
      · cases h
    · rename_i hm
      cases h
      exact same _ (by rw [hm]; trivial)
    · rename_i hm
      cases h
      exact same _ (by rw [hm]; trivial)
    · rename_i hm
      split at h
      · cases h; exact ⟨⟨.refl _, id, List.prefix_rfl⟩, rfl, by simp only [Pc.Answers, hm]; rfl⟩
      · cases h
    · rename_i hm
      split at h
      · cases h; exact ⟨⟨.refl _, id, List.prefix_rfl⟩, rfl, by simp only [Pc.Answers, hm]; rfl⟩
      · cases h
    · rename_i hm
      split at h
      · cases h; exact ⟨⟨.refl _, id, List.prefix_rfl⟩, rfl, by simp only [Pc.Answers, hm]; rfl⟩
      · cases h
    · rename_i id after hm
      split at h
      · rename_i hl
        split at h
        · rename_i attachment store ha
          cases h
          have hg : s.Grows (s.withStore store) :=
            grows_of_byClients (fun _ : Unit => .ok .null) (Daemon.byClients_attach hl ha)
          refine ⟨hg, rfl, ?_⟩
          simp only [Pc.Answers, hm]
          exact attach_answers hk ha hg
        · rename_i e ha
          cases h
          refine same _ ?_
          rw [hm]
          exact attach_refused ha
      · cases h
    · rename_i id hm
      cases h
      refine ⟨.refl _, by simp [answer], ?_⟩
      simp only [answer, Pc.Answers, hm]
      trivial
    · rename_i id body key reply hm
      refine control_answers (by simp [hm, ClientMessage.errors])
        (by simp [hm, ClientMessage.errors]) (fun s hc => ?_) h
      rw [hm]
      exact hc
    · rename_i id key k hm
      obtain ⟨registry, hc, he⟩ := Option.map_eq_some_iff.1 h
      cases he
      refine ⟨⟨?_, fun h => h, List.prefix_rfl⟩, rfl, id, key, hm, Registry.cancelOf_call hc⟩
      obtain ⟨-, he⟩ := Registry.cancelCall_cases hc
      rw [he]
      exact .refl _
    · rename_i provider sessionId binary key result hm
      split at h
      · rename_i e he
        cases h
        refine same _ ?_
        rw [hm]
        have hcode : ∃ name, e = .provider name := by
          unfold interruptRequest at he
          cases ha : agentForProvider provider with
          | error e' =>
            rw [ha] at he
            cases he
            unfold agentForProvider at ha
            split at ha <;> cases ha
            exact ⟨_, rfl⟩
          | ok agent =>
            rw [ha] at he
            by_cases hs : (trim sessionId).isEmpty = true
            · simp [hs] at he; cases he; exact ⟨_, rfl⟩
            · simp [hs] at he
        obtain ⟨name, rfl⟩ := hcode
        exact Shared.answers_error (by simp [ClientMessage.errors])
      · rename_i call hcall
        cases h
        refine ⟨⟨.refl _, fun h => h, List.prefix_append _ _⟩, rfl, ?_⟩
        simp only [answer, Pc.Answers, hm]
        cases result with
        | ok interrupted =>
          exact ⟨call, hcall, List.mem_append_right _ (List.mem_singleton_self _)⟩
        | error e => exact Shared.answers_error (by simp [ClientMessage.errors])
    · rename_i id approvalId decision key reply hm
      refine control_answers (by simp [hm, ClientMessage.errors])
        (by simp [hm, ClientMessage.errors]) (fun s hc => ?_) h
      rw [hm]
      exact hc
    · rename_i id through hm
      split at h
      · rename_i hl
        split at h
        · rename_i store ha
          cases h
          have hstep : Registry.step (fun _ : Unit => .ok .null) s.registry
              (.acknowledge id through) = some { s.registry with store } := by
            simp only [Registry.step, Registry.acknowledge, hl, ha]
          have hg : s.Grows (s.withStore store) :=
            ⟨Registry.step_grows hstep, fun h => h, List.prefix_rfl⟩
          refine ⟨hg, rfl, ?_⟩
          simp only [answer, Pc.Answers, hm]
          exact acknowledge_answers ha
        · rename_i e ha
          cases h
          refine same _ ?_
          rw [hm]
          exact acknowledge_refused ha
      · cases h
    · rename_i hm
      cases h
      exact same _ (Shared.answers_error (by simp [hm, ClientMessage.errors]))
    · cases h
  · cases h

theorem handle_not_opening {reply : Reply} (hm : Moves s c conn (.handle reply) s' conn') :
    conn'.pc ≠ .opening := by
  cases hm <;> simp [answer]

/-! ### The other steps -/

/-- The steps that are not of a request's arm leave the calls, and never open the daemon again. -/
theorem moves_grows {a : Act} (ha : ∀ reply, a ≠ .handle reply) (hm : Moves s c conn a s' conn') :
    s.Grows s' := by
  have hstore : s.registry.store.Grows s'.registry.store := by
    obtain ⟨k, id, hc⟩ | ⟨request, k, id, spec, -, -, hc⟩ | ⟨ks, -, hks⟩ :=
      Daemon.moves_registry (fun _ : Unit => .ok .null) hm
    · have hs : s.registry.step (fun _ : Unit => .ok .null) (.cancelCall k id) =
          some s'.registry := hc
      exact Registry.step_grows hs
    · have hs : s.registry.step (fun _ : Unit => .ok .null) (.startCall k id spec) =
          some s'.registry := hc
      exact Registry.step_grows hs
    · exact Registry.exec_grows hks
  have hrelease : ∀ (s : Shared) (locked : Bool),
      (s.release locked).stopping = s.stopping ∧ (s.release locked).called = s.called :=
    fun s locked => by unfold Shared.release; split <;> exact ⟨rfl, rfl⟩
  refine ⟨hstore, fun hs => ?_, ?_⟩
  · cases hm with
    | idle | stop => rfl
    | wrote request response next locked =>
      cases next <;> simp [proceed, (hrelease s locked).1, hs]
    | unanswered request response next locked => rw [← (hrelease s locked).1] at hs; exact hs
    | _ => exact hs
  · cases hm with
    | answer reply => exact absurd rfl (ha reply)
    | wrote request response next locked =>
      cases next <;> simp [proceed, (hrelease s locked).2]
    | unanswered request response next locked =>
      exact (hrelease s locked).2 ▸ List.prefix_rfl
    | _ => exact List.prefix_rfl

theorem greet_answering (frame : ClientFrame) :
    ∃ response next, greet frame = .answering frame response next false := by
  unfold greet
  split
  · split <;> exact ⟨_, _, rfl⟩
  · exact ⟨_, _, rfl⟩

/-- The result of a `start` is true, or an error that it can make. -/
theorem started_answers {id : RunId} {spec : RunRequest} {key : String} {k : Nat}
    {result : Except RuntimeError Unit} {id' : RunId} (h : s.registry.StartOf k id spec)
    (hk : s.registry.starts[k]? = some (.returned id' result)) :
    s.Answers (.startRun id spec key) (accepted result) := by
  unfold Registry.StartOf at h
  rw [hk] at h
  cases result with
  | ok u => exact h.2
  | error e =>
    cases e with
    | conflict | provider _ | permission _ | start _ =>
      exact Shared.answers_error (by simp [ClientMessage.errors])
    | notFound | replayExpired _ _ | control _ => cases h

theorem canceled_answers {id : RunId} {key : String} {k : Nat}
    {result : Except RuntimeError Unit} {id' : RunId} (h : s.registry.CancelOf k id)
    (hk : s.registry.cancels[k]? = some (.returned id' result)) :
    s.Answers (.cancelRun id key) (accepted result) := by
  unfold Registry.CancelOf at h
  rw [hk] at h
  cases result with
  | ok u => exact h.2
  | error e =>
    cases e with
    | conflict | notFound => exact Shared.answers_error (by simp [ClientMessage.errors])
    | provider _ | permission _ | start _ | replayExpired _ _ | control _ => cases h

/-- A refusal under the lifecycle lock. -/
theorem refused_answers {request : ClientFrame} (text : String)
    (h : request.message.locks = true) : s.Answers request.message (.error .conflict text) := by
  cases hm : request.message with
  | shutdownIfIdle | shutdown _ | startRun _ _ _ =>
    exact Shared.answers_error (by simp [ClientMessage.errors])
  | _ => rw [hm] at h; cases h

/-- Only the first frame's answer is not known to be true. -/
theorem Truthful.awaits {pc : Pc} (h : conn.Truthful s) (hpc : conn.pc = pc)
    (hne : ∀ frame, pc ≠ greet frame) : pc.Answers s := by
  obtain h | ⟨-, frame, h⟩ := h.pc
  · exact hpc ▸ h
  · exact absurd (hpc.symm.trans h) (hne frame)

/-- What a connection goes on to, by any step that is not a write or of a request's arm. -/
theorem moves_answers {a : Act} (hm : Moves s c conn a s' conn') (ha : ∀ reply, a ≠ .handle reply)
    (hw : a ≠ .write true) (h : conn.Truthful s) :
    conn'.written = conn.written ∧ (conn'.pc = conn.pc ∨ conn'.pc ≠ .opening ∧
      (conn'.pc.Answers s' ∨ conn.written = [] ∧ ∃ frame, conn'.pc = greet frame)) := by
  cases hm with
  | first frame hopen =>
    obtain ⟨response, next, he⟩ := greet_answering frame
    exact ⟨rfl, .inr ⟨by simp [he], .inr ⟨h.opening hopen, frame, rfl⟩⟩⟩
  | answer reply => exact absurd rfl (ha reply)
  | acknowledge | lock | attach | detach | cancel => exact absurd rfl (ha _)
  | wrote | relayed | replayed => exact absurd rfl hw
  | refuse k request message he =>
    have hlocks := h.awaits he fun frame => by obtain ⟨_, _, hg⟩ := greet_answering frame; simp [hg]
    exact ⟨rfl, .inr ⟨by simp, .inl (refused_answers (s := s) message hlocks)⟩⟩
  | idle k request he hmsg =>
    refine ⟨rfl, .inr ⟨by simp, .inl ?_⟩⟩
    simp only [Pc.Answers, hmsg]
    rfl
  | stop k request mode he hmsg =>
    refine ⟨rfl, .inr ⟨by simp, .inl ?_⟩⟩
    simp only [Pc.Answers, hmsg]
    rfl
  | launch k request id spec key registry he hmsg _ hc =>
    exact ⟨rfl, .inr ⟨by simp, .inl ⟨id, spec, key, hmsg, Registry.startOf_call hc⟩⟩⟩
  | started request k id result he hk =>
    obtain ⟨id', spec, key, hmsg, hs⟩ :=
      h.awaits he fun frame => by obtain ⟨_, _, hg⟩ := greet_answering frame; simp [hg]
    refine ⟨rfl, .inr ⟨by simp, .inl ?_⟩⟩
    simp only [Pc.Answers, hmsg]
    exact started_answers hs hk
  | canceled request k id result he hk =>
    obtain ⟨id', key, hmsg, hs⟩ :=
      h.awaits he fun frame => by obtain ⟨_, _, hg⟩ := greet_answering frame; simp [hg]
    refine ⟨rfl, .inr ⟨by simp [answer], .inl ?_⟩⟩
    simp only [answer, Pc.Answers, hmsg]
    exact canceled_answers hs hk
  | wake | forward | suspend | reap => exact ⟨rfl, .inl rfl⟩
  | spawn n id => exact ⟨abort_written conn id, .inr ⟨by simp, .inl trivial⟩⟩
  | _ => exact ⟨rfl, .inr ⟨by simp, .inl trivial⟩⟩

/-- Nothing that another party does makes the answer in hand false. -/
theorem answers_later {pc : Pc} (h : pc.Answers s) (hg : s.Grows s')
    (hi : s.registry.Completes) (hsrc : s.registry.Sourced toValue)
    (hr : ∃ ks, exec (Registry.step toValue) s.registry ks = some s'.registry) :
    pc.Answers s' := by
  obtain ⟨ks, hks⟩ := hr
  obtain ⟨hstart, hcancel⟩ := Registry.calls_exec hi hsrc hks
  unfold Pc.Answers at h ⊢
  split
  · exact h.grows hg
  · exact h
  · obtain ⟨id, spec, key, hm, hs⟩ := h
    exact ⟨id, spec, key, hm, hstart _ _ _ hs⟩
  · obtain ⟨id, key, hm, hs⟩ := h
    exact ⟨id, key, hm, hcancel _ _ hs⟩
  · trivial

theorem each_grows {log : List Written} (h : Each (TrueAt s) log) (hg : s.Grows s') :
    Each (TrueAt s') log :=
  h.imp fun _ _ ht request response hw => (ht request response hw).imp_left (·.grows hg)

theorem Truthful.later (h : conn.Truthful s) (hg : s.Grows s') (hi : s.registry.Completes)
    (hsrc : s.registry.Sourced toValue)
    (hr : ∃ ks, exec (Registry.step toValue) s.registry ks = some s'.registry) :
    conn.Truthful s' :=
  ⟨h.pc.imp_left fun h => answers_later h hg hi hsrc hr, each_grows h.written hg, h.opening⟩

/-- The response that was being written is written. -/
theorem Truthful.wrote {request : ClientFrame} {response : ServerResponse} {next : Next}
    {locked : Bool} (h : conn.Truthful s) (hpc : conn.pc = .answering request response next locked)
    (hg : s.Grows s') :
    (proceed s c { conn with written := conn.written ++ [.response request response] }
      locked next).2.Truthful s' := by
  have hnow : TrueAt s' conn.written (.response request response) := fun request' response' he => by
    cases he
    have hp := h.pc
    rw [hpc] at hp
    obtain hp | ⟨hw, frame, hp⟩ := hp
    · exact .inl (Shared.Answers.grows hp hg)
    · obtain ⟨response', next', hgreet⟩ := greet_answering frame
      rw [hgreet] at hp
      cases hp
      exact .inr ⟨hw, _, hgreet⟩
  have hwritten : Each (TrueAt s') (conn.written ++ [.response request response]) :=
    each_snoc.2 ⟨each_grows h.written hg, hnow⟩
  cases next <;> exact ⟨.inl trivial, hwritten, by simp [proceed]⟩

/-- **Step lemma**: a connection that told the truth tells the truth. -/
theorem Truthful.step {a : Act} (h : conn.Truthful s) (hk : s.Keyed)
    (hi : s.registry.Completes) (hsrc : s.registry.Sourced toValue)
    (hr : ∃ ks, exec (Registry.step toValue) s.registry ks = some s'.registry)
    (hs : conn.step s c a = some (s', conn')) : s.Grows s' ∧ conn'.Truthful s' := by
  by_cases ha : ∃ reply, a = .handle reply
  · obtain ⟨reply, rfl⟩ := ha
    obtain ⟨hg, hw, hp⟩ := handle_answers hk hs
    exact ⟨hg, .inl hp, hw ▸ each_grows h.written hg,
      fun he => absurd he (handle_not_opening (handle_moves hs))⟩
  · have hm := step_moves hs
    have ha : ∀ reply, a ≠ .handle reply := fun reply he => ha ⟨reply, he⟩
    have hg := moves_grows ha hm
    by_cases hw : a = .write true
    · subst hw
      have hevent : ∀ w : Written, (∀ request response, w ≠ .response request response) →
          Each (TrueAt s') (conn.written ++ [w]) := fun w hne =>
        each_snoc.2 ⟨each_grows h.written hg, fun request response he => absurd he (hne _ _)⟩
      cases hm with
      | wrote request response next locked hpc => exact ⟨hg, h.wrote hpc hg⟩
      | relayed n event =>
        exact ⟨hg, .inl trivial, hevent (.live n event) (by simp), by simp⟩
      | replayed n id event =>
        exact ⟨hg, .inl trivial, hevent (.replayed n event) (by simp), by simp⟩
    · obtain ⟨hwritten, hpc | ⟨hne, hpc⟩⟩ := moves_answers hm ha hw h
      · refine ⟨hg, ?_, hwritten ▸ each_grows h.written hg, fun he => ?_⟩
        · rw [hpc, hwritten]
          exact h.pc.imp_left fun h => answers_later h hg hi hsrc hr
        · rw [hwritten]
          exact h.opening (hpc ▸ he)
      · refine ⟨hg, ?_, hwritten ▸ each_grows h.written hg, fun he => absurd he hne⟩
        rw [hwritten]
        exact hpc

end Conn

/-! ## Whole runs -/

namespace Daemon

variable {P : Type} {toValue : P → Except String Value} {d d' : Daemon}

/-- What is known of the shared state of every daemon. -/
theorem shared_exec {acts : List (Act P)} (h : exec (step toValue) init acts = some d) :
    d.shared.Keyed ∧ d.shared.registry.Completes ∧ d.shared.registry.Sourced toValue := by
  obtain ⟨ks, hks⟩ := registry_exec h
  refine ⟨fun id run hr => ?_, Registry.completes_exec hks, Registry.sourced_exec hks⟩
  obtain ⟨k, spec, request, -, -, hf⟩ := Registry.follows_exec hks hr
  exact hf.runId

def Truthful (d : Daemon) : Prop :=
  ∀ (c : Nat) (conn : Conn), d.conns[c]? = some conn → conn.Truthful d.shared

theorem Truthful.step {acts : List (Act P)} {a : Act P}
    (hd : exec (Daemon.step toValue) init acts = some d) (h : d.Truthful)
    (hs : d.step toValue a = some d') : d.shared.Grows d'.shared ∧ d'.Truthful := by
  obtain ⟨hk, hi, hsrc⟩ := shared_exec hd
  have hr := step_registry hs
  have hlater : d.shared.Grows d'.shared → d'.conns = d.conns →
      d.shared.Grows d'.shared ∧ d'.Truthful := fun hg he =>
    ⟨hg, fun c conn hc => (h c conn (he ▸ hc)).later hg hi hsrc hr⟩
  cases a with
  | accept c =>
    obtain ⟨-, rfl⟩ := accept_cases hs
    refine ⟨.refl _, fun c' conn' hc' => ?_⟩
    rcases ExtTreeMap.getElem?_insert_some.1 hc' with ⟨-, rfl⟩ | ⟨-, hc'⟩
    · exact Conn.truthful_init _
    · exact h c' conn' hc'
  | conn c a =>
    obtain ⟨conn, shared, conn', hc, hstep, rfl⟩ := conn_cases hs
    obtain ⟨hg, htrue⟩ := (h c conn hc).step hk hi hsrc hr hstep
    refine ⟨hg, fun c' conn₁ hc' => ?_⟩
    rcases ExtTreeMap.getElem?_insert_some.1 hc' with ⟨-, rfl⟩ | ⟨-, hc'⟩
    · exact htrue
    · exact (h c' conn₁ hc').later hg hi hsrc hr
  | registry a =>
    obtain ⟨-, registry, hreg, rfl⟩ := registry_cases hs
    exact hlater ⟨Registry.step_grows hreg, fun h => h, List.prefix_rfl⟩ rfl
  | drain c =>
    obtain ⟨registry, -, hreg, rfl⟩ | ⟨-, -, rfl⟩ | ⟨-, rfl⟩ := drain_cases hs
    · have hs : d.shared.registry.step toValue .cancelAll = some registry := hreg
      exact hlater ⟨Registry.step_grows hs, fun h => h, List.prefix_rfl⟩ rfl
    · exact hlater ⟨.refl _, fun h => h, List.prefix_rfl⟩ rfl
    · exact hlater ⟨.refl _, fun h => h, List.prefix_rfl⟩ rfl
  | stop result =>
    obtain ⟨-, rfl⟩ := stop_cases hs
    exact hlater (.refl _) rfl

theorem truthful_exec {acts : List (Act P)} (h : exec (step toValue) init acts = some d) :
    d.Truthful :=
  exec_inv_reachable (C := fun _ _ => True) (I := Truthful)
    (fun _ _ _ _ hm hi _ hs => (Truthful.step hm hi hs).2)
    (fun c conn hc => by simp [init] at hc) (along_of_forall (fun _ _ => trivial) _ _) h

/-- From any reachable state on, the shared state only grows. -/
theorem grows_exec {acts later : List (Act P)} (h : exec (step toValue) init acts = some d)
    (h' : exec (step toValue) d later = some d') : d.shared.Grows d'.shared :=
  exec_mono (I := fun d => ∃ acts, exec (step toValue) init acts = some d) (C := fun _ _ => True)
    (R := fun d d' => d.shared.Grows d'.shared) (fun d => .refl d.shared)
    (fun _ _ _ h₁ h₂ => h₁.trans h₂)
    (fun _ a _ ⟨acts, hm⟩ _ hs => ⟨acts ++ [a], exec_append_some.2 ⟨_, hm, exec_single.2 hs⟩⟩)
    (fun _ _ _ ⟨_, hm⟩ _ hs => (Truthful.step hm (truthful_exec hm) hs).1) ⟨acts, h⟩
    (along_of_forall (fun _ _ => trivial) _ _) h'

/-- **Answers are true, and stay so.** Whatever other connections, run tasks and drain tasks do,
each response written on a connection after the answer to its first frame is of a kind that its
request can get, with an error code that the request can meet; and what it vouches for holds when
it is written and in every later state: the run that was started or attached to is there as the
same run, the canceled run was told of its end, the control call went to its provider, the daemon
is stopping. -/
theorem answers_hold (toValue : P → Except String Value) (acts later : List (Act P))
    (d d' : Daemon) (h : exec (step toValue) init acts = some d)
    (h' : exec (step toValue) d later = some d') (c : Nat) (conn : Conn)
    (hc : d.conns[c]? = some conn) (pre post : List Written) (request : ClientFrame)
    (response : ServerResponse) (hw : conn.written = pre ++ .response request response :: post) :
    (d.shared.Answers request.message response ∧ d'.shared.Answers request.message response) ∨
      pre = [] ∧ Conn.FirstAnswer request response := by
  refine ((truthful_exec h c conn hc).written pre _ post hw request response rfl).imp_left ?_
  exact fun hnow => ⟨hnow, hnow.grows (grows_exec h h')⟩

theorem answers_hold_watchedRun :
    ∃ (d : Daemon) (conn : Conn) (w : Written) (post : List Written),
      exec (step fun _ => .ok .null) init watchedRun = some d ∧ d.conns[0]? = some conn ∧
      conn.written = [w] ++ .response ⟨2, .startRun ⟨"r"⟩ plainRequest "key"⟩ .accepted :: post ∧
      d.shared.registry.Holds ⟨"r"⟩ plainRequest := by
  have h : ∃ (d : Daemon) (conn : Conn) (w : Written) (post : List Written),
      exec (step fun _ => .ok .null) init watchedRun = some d ∧ d.conns[0]? = some conn ∧
      conn.written =
        [w] ++ .response ⟨2, .startRun ⟨"r"⟩ plainRequest "key"⟩ .accepted :: post :=
    ⟨_, _, _, _, rfl, rfl, rfl⟩
  obtain ⟨d, conn, w, post, hd, hc, hw⟩ := h
  refine ⟨d, conn, w, post, hd, hc, hw, ?_⟩
  obtain hall | ⟨hfirst, -⟩ := answers_hold _ watchedRun [] d d hd rfl 0 conn hc [w] post _ _ hw
  · exact hall.1
  · cases hfirst

end Daemon

end AgencyProxy
