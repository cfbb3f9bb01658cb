import AgencyProxy.Runtime.Starts

/-!
# What a run's events tell

A client that follows a run never reads its snapshot again: it goes by the request that started
the run and by the events. `View` is what it knows then, as a fold over the events, and
`Follows` says that the snapshot kept by the registry is nothing else.
-/

namespace AgencyProxy

open Std Lts

/-- The states that a run may be in after the event. -/
def RunEvent.leaves : RunEvent → List RunState
  | .finished _ => [.completed, .failed]
  | .failed _ => [.failed, .canceled]
  | .approvalRequested _ _ _ => [.waitingApproval]
  | .stateChanged _ | .error _ => []
  | _ => [.running]

/-- The provider session that the event opens. -/
def RunEvent.opens : RunEvent → Option String
  | .sessionOpened session _ => some session
  | _ => none

namespace Runtime

/-- What is known of a run whose events have been followed. -/
structure View where
  sequence : Nat
  states : List RunState
  session : Option String

namespace View

def start (resumed : Option String) : View := ⟨0, [.starting], resumed⟩

def see (v : View) (e : SequencedEvent) : View :=
  ⟨e.sequence, e.event.leaves, e.event.opens.or v.session⟩

/-- The view after the events, of a run that resumes the session. -/
def after (resumed : Option String) (log : List SequencedEvent) : View :=
  log.foldl see (start resumed)

@[simp] theorem after_snoc (resumed : Option String) (log : List SequencedEvent)
    (e : SequencedEvent) : after resumed (log ++ [e]) = (after resumed log).see e := by
  simp [after]

end View

/-- The snapshot is what the request and the events say. -/
structure Follows (id : RunId) (spec : RunRequest) (log : List SequencedEvent)
    (snapshot : RunSnapshot) : Prop where
  runId : snapshot.runId = id
  provider : snapshot.provider = spec.provider
  model : snapshot.model = spec.model
  workspaceRoots : snapshot.workspaceRoots = spec.workspaceRoots
  metadata : snapshot.metadata = spec.metadata
  sequence : snapshot.latestSequence = (View.after spec.resumeSessionId log).sequence
  state : snapshot.state ∈ (View.after spec.resumeSessionId log).states
  session : snapshot.providerSessionId = (View.after spec.resumeSessionId log).session

/-! ## Publications -/

/-- The state and the session that are published with an event are those it tells of. -/
def Publication.Faithful (p : Publication) : Prop :=
  (∃ s, p.state = some s ∧ s ∈ p.event.leaves) ∧ p.session = p.event.opens

/-- Where the task of a run has what it publishes from. -/
inductive Publication.Source {P : Type} (toValue : P → Except String Value) :
    Publication → Prop
  | provider (event : Event P) (p : Publication) (h : publishProvider toValue event = some p) :
      Source toValue p
  | canceled : Source toValue (publishError "the run was canceled" .canceled)
  | finished (outcome : Outcome P) : Source toValue (publishFinished toValue outcome)
  | failed (error : String) : Source toValue (publishError error .failed)

namespace Publication

variable {P : Type} {toValue : P → Except String Value}

theorem faithful_failed (error : String) : (publishError error .failed).Faithful :=
  ⟨⟨_, rfl, by simp [publishError, RunEvent.leaves]⟩, rfl⟩

theorem faithful_payload {event : Value → RunEvent} (value : P)
    (hl : ∀ v, .running ∈ (event v).leaves) (ho : ∀ v, (event v).opens = none) :
    (publishPayload toValue event value).Faithful := by
  unfold publishPayload
  split
  · exact ⟨⟨_, rfl, hl _⟩, (ho _).symm⟩
  · exact faithful_failed _

theorem faithful_provider {event : Event P} {p : Publication}
    (h : publishProvider toValue event = some p) : p.Faithful := by
  have hpayload : ∀ {event : Value → RunEvent} (value : P),
      (∀ v, (event v).leaves = [.running]) → (∀ v, (event v).opens = none) →
      (publishPayload toValue event value).Faithful := fun value hl ho =>
    faithful_payload value (fun v => by simp [hl v]) ho
  cases event with
  | usage value | rateLimit value | compaction value | commands value =>
    cases h
    exact hpayload value (fun _ => rfl) fun _ => rfl
  | other => cases h
  | _ => cases h; exact ⟨⟨_, rfl, List.mem_singleton_self _⟩, rfl⟩

theorem Source.faithful {p : Publication} (h : Source toValue p) : p.Faithful := by
  cases h with
  | provider event _ h => exact faithful_provider h
  | canceled => exact ⟨⟨_, rfl, by simp [publishError, RunEvent.leaves]⟩, rfl⟩
  | failed error => exact faithful_failed error
  | finished outcome =>
    unfold publishFinished
    split
    · refine ⟨⟨_, rfl, ?_⟩, rfl⟩
      cases outcome.isOk <;> simp [RunEvent.leaves]
    · exact faithful_failed _

end Publication

namespace Follows

variable {id : RunId} {spec : RunRequest} {log : List SequencedEvent} {run : LiveRun}

theorem fresh (id : RunId) (spec : RunRequest) : Follows id spec [] (LiveRun.fresh id spec).snapshot
    where
  runId := rfl
  provider := rfl
  model := rfl
  workspaceRoots := rfl
  metadata := rfl
  sequence := rfl
  state := List.mem_singleton_self _
  session := rfl

theorem publish (h : Follows id spec log run.snapshot) {p : Publication} (hp : p.Faithful) :
    Follows id spec (log ++ [run.sequenced id p.event])
      (run.publish id p.event p.state p.session).snapshot := by
  obtain ⟨⟨s, hs, hmem⟩, hsession⟩ := hp
  refine ⟨h.runId, h.provider, h.model, h.workspaceRoots, h.metadata, ?_, ?_, ?_⟩
  · rw [View.after_snoc]; rfl
  · rw [View.after_snoc]
    simpa [LiveRun.publish, LiveRun.sequenced, View.see, hs] using hmem
  · rw [View.after_snoc]
    simp only [LiveRun.publish, LiveRun.sequenced, View.see, hsession, h.session]

end Follows

/-! ## Growth -/

/-- A later snapshot of the same run. -/
structure Ages (now later : RunSnapshot) : Prop where
  runId : later.runId = now.runId
  provider : later.provider = now.provider
  model : later.model = now.model
  workspaceRoots : later.workspaceRoots = now.workspaceRoots
  metadata : later.metadata = now.metadata
  latest : now.latestSequence ≤ later.latestSequence
  acknowledged : now.acknowledgedSequence ≤ later.acknowledgedSequence

theorem Ages.refl (snapshot : RunSnapshot) : Ages snapshot snapshot :=
  ⟨rfl, rfl, rfl, rfl, rfl, Nat.le_refl _, Nat.le_refl _⟩

theorem Ages.trans {a b c : RunSnapshot} (h₁ : Ages a b) (h₂ : Ages b c) : Ages a c :=
  ⟨h₂.runId.trans h₁.runId, h₂.provider.trans h₁.provider, h₂.model.trans h₁.model,
    h₂.workspaceRoots.trans h₁.workspaceRoots, h₂.metadata.trans h₁.metadata,
    Nat.le_trans h₁.latest h₂.latest, Nat.le_trans h₁.acknowledged h₂.acknowledged⟩

/-- Every run is there later, as the same run, and no event is taken back. -/
structure Store.Grows (s s' : Store) : Prop where
  runs : ∀ (id : RunId) (run : LiveRun), s.runs[id]? = some run →
    ∃ run', s'.runs[id]? = some run' ∧ Ages run.snapshot run'.snapshot
  published : ∀ id, s.published id <+: s'.published id

theorem Store.Grows.refl (s : Store) : s.Grows s :=
  ⟨fun _ run h => ⟨run, h, .refl _⟩, fun _ => List.prefix_rfl⟩

theorem Store.Grows.trans {a b c : Store} (h₁ : a.Grows b) (h₂ : b.Grows c) : a.Grows c := by
  refine ⟨fun id run h => ?_, fun id => (h₁.published id).trans (h₂.published id)⟩
  obtain ⟨run', h', e⟩ := h₁.runs id run h
  obtain ⟨run'', h'', e'⟩ := h₂.runs id run' h'
  exact ⟨run'', h'', e.trans e'⟩

namespace Registry

variable {P : Type} {toValue : P → Except String Value} {r r' : Registry} {id : RunId}

/-! ## What one step does to one run -/

/-- A publication that a task has in hand comes from somewhere. -/
def Sourced (toValue : P → Except String Value) (r : Registry) : Prop :=
  ∀ (id : RunId) (p : Publication) (last : Bool), r.tasks[id]? = some (.publishing p last) →
    Publication.Source toValue p

theorem Sourced.step {a : Act P} (hi : r.Sourced toValue) (h : r.step toValue a = some r') :
    r'.Sourced toValue := by
  have hset : ∀ (id : RunId) (t : RunTask),
      (∀ p last, t = .publishing p last → Publication.Source toValue p) →
      r'.tasks = r.tasks.insert id t → r'.Sourced toValue := fun id t ht he => by
    intro id' p last hp
    rw [he] at hp
    rcases ExtTreeMap.getElem?_insert_some.1 hp with ⟨-, rfl⟩ | ⟨-, hp⟩
    · exact ht p last rfl
    · exact hi id' p last hp
  cases a with
  | startSpawn k =>
    obtain ⟨id, -, rfl⟩ := startSpawn_cases h
    exact hset id _ (by simp) rfl
  | recv id event =>
    obtain ⟨-, -, ⟨-, rfl⟩ | ⟨e, p, -, hp, rfl⟩ | rfl⟩ := recv_cases h
    · exact hset id _ (by simp) rfl
    · refine hset id _ (fun p last he => ?_) rfl
      cases he
      exact .provider e p hp
    · exact hi
  | sawCancel id =>
    obtain ⟨-, -, rfl⟩ := sawCancel_cases h
    exact hset id _ (by simp) rfl
  | canceled id =>
    simp only [Registry.step, Registry.canceled] at h
    split at h
    · cases h
      refine hset id _ (fun p last he => ?_) rfl
      cases he
      exact .canceled
    · cases h
  | finish id outcome =>
    simp only [Registry.step, Registry.finish] at h
    split at h
    · cases h
      refine hset id _ (fun p last he => ?_) rfl
      cases he
      cases outcome with
      | ok outcome => exact .finished outcome
      | error e => exact .failed e
    · cases h
  | publish id =>
    have hnot : ∀ last p last', afterPublish last ≠ .publishing p last' := fun last p last' => by
      cases last <;> simp [afterPublish]
    obtain ⟨p, last, -, -, ⟨-, rfl⟩ | ⟨run, -, ⟨-, rfl⟩ | ⟨-, rfl⟩⟩⟩ := publish_cases h
    · exact hset id _ (fun p _ he => absurd he (hnot _ _ _)) rfl
    · exact hset id _ (by simp) rfl
    · exact hset id _ (fun p _ he => absurd he (hnot _ _ _)) rfl
  | complete id =>
    obtain ⟨last, -, rfl⟩ := complete_cases h
    exact hset id _ (by simp) rfl
  | uncount id =>
    have hnot : ∀ last p last', afterPublish last ≠ .publishing p last' := fun last p last' => by
      cases last <;> simp [afterPublish]
    obtain ⟨last, -, rfl⟩ := uncount_cases h
    exact hset id _ (fun p _ he => absurd he (hnot _ _ _)) rfl
  | _ => rw [Sourced, (step_frame h).tasks rfl]; exact hi

theorem sourced_exec {acts : List (Act P)} (h : exec (step toValue) init acts = some r) :
    r.Sourced toValue :=
  exec_inv' (I := Sourced toValue) (fun _ _ _ hi hs => hi.step hs)
    (fun id p last ht => by simp [init] at ht) h

/-- The snapshot but for how far it is acknowledged. -/
def Kept (run run' : LiveRun) : Prop :=
  run'.snapshot =
    { run.snapshot with acknowledgedSequence := run'.snapshot.acknowledgedSequence }

/-- What became of a run in a step, from what it was before. -/
inductive RunStep (r r' : Registry) (id : RunId) (run' : LiveRun) : Prop
  | kept (run : LiveRun) (found : r.store.runs[id]? = some run) (kept : Kept run run')
      (log : r'.store.published id = r.store.published id)
  | inserted (k : Nat) (spec : RunRequest) (call : r.starts[k]? = some (.inserting id spec))
      (absent : r.store.runs[id]? = none) (fresh : run' = .fresh id spec)
      (log : r'.store.published id = r.store.published id)
  | published (p : Publication) (last : Bool) (run : LiveRun)
      (task : r.tasks[id]? = some (.publishing p last)) (found : r.store.runs[id]? = some run)
      (now : run' = run.publish id p.event p.state p.session)
      (log : r'.store.published id = r.store.published id ++ [run.sequenced id p.event])

theorem client_run {a : Act P} {run' : LiveRun} (ha : a.isClient = true)
    (h : r.step toValue a = some r') (hr : r'.store.runs[id]? = some run') :
    ∃ run, r.store.runs[id]? = some run ∧ Kept run run' := by
  have hput : ∀ (id₀ : RunId) (run₀ run₁ : LiveRun), r.store.runs[id₀]? = some run₀ →
      Kept run₀ run₁ → r'.store.runs = r.store.runs.insert id₀ run₁ →
      ∃ run, r.store.runs[id]? = some run ∧ Kept run run' := fun id₀ run₀ run₁ h₀ hk he => by
    rw [he] at hr
    rcases ExtTreeMap.getElem?_insert_some.1 hr with ⟨rfl, rfl⟩ | ⟨-, hr⟩
    · exact ⟨run₀, h₀, hk⟩
    · exact ⟨run', hr, rfl⟩
  cases a <;> try cases ha
  case acknowledge id₀ through =>
    obtain rfl | ⟨run, h₀, rfl⟩ := acknowledge_cases h
    · exact ⟨run', hr, rfl⟩
    · exact hput id₀ run (run.acknowledge through) h₀ rfl rfl
  case attach id₀ after =>
    obtain rfl | ⟨run, h₀, rfl⟩ := attach_cases h
    · exact ⟨run', hr, rfl⟩
    · exact hput id₀ run { run with events := run.events.subscribe.2 } h₀ rfl rfl
  case dropReceiver id₀ =>
    obtain rfl | ⟨run, h₀, rfl⟩ := dropReceiver_cases h
    · exact ⟨run', hr, rfl⟩
    · exact hput id₀ run { run with events := run.events.dropReceiver } h₀ rfl rfl

theorem sweep_kept (run : LiveRun) : Kept run (sweep run) := by
  unfold sweep
  split <;> rfl

/-- **Step lemma** for a run. -/
theorem run_step {a : Act P} {run' : LiveRun} (h : r.step toValue a = some r')
    (hr : r'.store.runs[id]? = some run') : RunStep r r' id run' := by
  have hsame : r'.store = r.store → RunStep r r' id run' := fun he =>
    .kept run' (he ▸ hr) rfl (by rw [he])
  have hclient : a.isClient = true → RunStep r r' id run' := fun ha => by
    obtain ⟨run, h₀, hk⟩ := client_run ha h hr
    exact .kept run h₀ hk (by rw [client_published ha h])
  cases a with
  | startInsert k =>
    obtain ⟨id₀, spec, -, hk, ⟨-, rfl⟩ | ⟨hn, rfl⟩⟩ := startInsert_cases h
    · exact hsame rfl
    · rcases ExtTreeMap.getElem?_insert_some.1 hr with ⟨rfl, rfl⟩ | ⟨-, hr⟩
      · exact .inserted k spec hk hn rfl rfl
      · exact .kept run' hr rfl rfl
  | publish id₀ =>
    have hpub : ∀ (p : Publication) (last : Bool) (run : LiveRun),
        r.tasks[id₀]? = some (.publishing p last) → r.store.runs[id₀]? = some run →
        r'.store = r.store.publish id₀ p.event p.state p.session → RunStep r r' id run' :=
      fun p last run ht h₀ he => by
      rw [he, Store.publish_runs h₀] at hr
      rcases ExtTreeMap.getElem?_insert_some.1 hr with ⟨rfl, rfl⟩ | ⟨hne, hr⟩
      · refine .published p last run ht h₀ rfl ?_
        rw [he, Store.publish_published h₀, Function.update_self]
      · refine .kept run' hr rfl ?_
        rw [he, Store.publish_published h₀, Function.update_of_ne (Ne.symm hne)]
    obtain ⟨p, last, -, ht, ⟨-, rfl⟩ | ⟨run, h₀, ⟨-, rfl⟩ | ⟨-, rfl⟩⟩⟩ := publish_cases h
    · exact hsame rfl
    · exact hpub p last run ht h₀ rfl
    · exact hpub p last run ht h₀ rfl
  | complete id₀ =>
    obtain ⟨last, -, rfl⟩ := complete_cases h
    have hlog := Store.modify_published r.store id₀ fun run => { run with completed := true }
    cases h₀ : r.store.runs[id₀]? with
    | none => exact hsame (by simp only [Store.modify, h₀])
    | some run =>
      dsimp only at hr
      rw [Store.modify_runs h₀] at hr
      rcases ExtTreeMap.getElem?_insert_some.1 hr with ⟨rfl, rfl⟩ | ⟨-, hr⟩
      · exact .kept run h₀ rfl (by rw [hlog])
      · exact .kept run' hr rfl (by rw [hlog])
  | cancelTake k =>
    obtain ⟨id₀, -, -, ⟨e, -, rfl⟩ | ⟨run, h₀, -, rfl⟩⟩ := cancelTake_cases h
    · exact hsame rfl
    · rcases ExtTreeMap.getElem?_insert_some.1 hr with ⟨rfl, rfl⟩ | ⟨-, hr⟩
      · exact .kept run h₀ rfl rfl
      · exact .kept run' hr rfl rfl
  | cancelAll =>
    obtain ⟨-, rfl⟩ := cancelAll_cases h
    rw [ExtTreeMap.getElem?_map, Option.map_eq_some_iff] at hr
    obtain ⟨run, h₀, rfl⟩ := hr
    exact .kept run h₀ (sweep_kept run) rfl
  | acknowledge id₀ through => exact hclient rfl
  | attach id₀ after => exact hclient rfl
  | dropReceiver id₀ => exact hclient rfl
  | _ => exact hsame ((step_frame h).store rfl)

/-! ## Whole runs -/

/-- A call that comes to insert its run has built the provider's request. -/
theorem step_inserting {a : Act P} {k : Nat} {spec : RunRequest}
    (h : r.step toValue a = some r') (hk : r'.starts[k]? = some (.inserting id spec)) :
    r.starts[k]? = some (.inserting id spec) ∨ ∃ request, buildRequest spec = .ok request := by
  have hset : ∀ (k' : Nat) (call : StartCall), r'.starts = r.starts.insert k' call →
      (call = .inserting id spec → ∃ request, buildRequest spec = .ok request) →
      r.starts[k]? = some (.inserting id spec) ∨ ∃ request, buildRequest spec = .ok request :=
    fun k' call he hcall => by
    rw [he] at hk
    rcases ExtTreeMap.getElem?_insert_some.1 hk with ⟨-, hc⟩ | ⟨-, hk⟩
    · exact .inr (hcall hc)
    · exact .inl hk
  cases a with
  | startCall k' id' spec' =>
    obtain ⟨-, rfl⟩ := startCall_cases h
    exact hset k' _ rfl (by simp)
  | startCheck k' =>
    obtain ⟨id', spec', call, -, -, rfl | ⟨-, rfl⟩, rfl⟩ := startCheck_cases h <;>
      exact hset k' _ rfl (by simp)
  | startLaunch k' launched =>
    simp only [step, startLaunch] at h
    split at h
    · split at h
      · cases h; exact hset k' _ rfl (by simp)
      · cases h; exact hset k' _ rfl (by simp)
      · rename_i request hb
        cases h
        refine hset k' _ rfl fun he => ?_
        cases he
        exact ⟨_, hb⟩
    · cases h
  | startInsert k' =>
    obtain ⟨id', spec', -, -, ⟨-, rfl⟩ | ⟨-, rfl⟩⟩ := startInsert_cases h <;>
      exact hset k' _ rfl (by simp)
  | startCount k' =>
    obtain ⟨id', -, rfl⟩ := startCount_cases h
    exact hset k' _ rfl (by simp)
  | startSpawn k' =>
    obtain ⟨id', -, rfl⟩ := startSpawn_cases h
    exact hset k' _ rfl (by simp)
  | _ => rw [(step_frame h).starts rfl] at hk; exact .inl hk

theorem built_exec {acts : List (Act P)} (h : exec (step toValue) init acts = some r) :
    ∀ (k : Nat) (id : RunId) (spec : RunRequest), r.starts[k]? = some (.inserting id spec) →
      ∃ request, buildRequest spec = .ok request :=
  exec_inv' (I := fun r : Registry => ∀ (k : Nat) (id : RunId) (spec : RunRequest),
      r.starts[k]? = some (.inserting id spec) → ∃ request, buildRequest spec = .ok request)
    (fun _ _ _ hi hs k id spec hk => (step_inserting hs hk).elim (hi k id spec) (·))
    (fun k id spec hk => by simp [init] at hk) h

/-- Each run in the map was asked for in a call of `start`, and follows from its request. -/
theorem follows_exec {acts : List (Act P)} (h : exec (step toValue) init acts = some r)
    {run : LiveRun} (hr : r.store.runs[id]? = some run) :
    ∃ (k : Nat) (spec : RunRequest) (request : Request), .startCall k id spec ∈ acts ∧
      buildRequest spec = .ok request ∧ Follows id spec (r.store.published id) run.snapshot := by
  induction acts using List.reverseRecOn generalizing r run with
  | nil => cases h; simp [init, Store.empty] at hr
  | append_singleton acts a ih =>
    obtain ⟨m, hm, h⟩ := exec_append_some.1 h
    have hs := exec_single.1 h
    cases run_step hs hr with
    | kept run₀ found kept log =>
      obtain ⟨k, spec, request, hk, hb, hf⟩ := ih hm found
      refine ⟨k, spec, request, List.mem_append_left _ hk, hb, ?_⟩
      rw [log, kept]
      exact ⟨hf.runId, hf.provider, hf.model, hf.workspaceRoots, hf.metadata, hf.sequence,
        hf.state, hf.session⟩
    | inserted k spec call absent fresh log =>
      obtain ⟨request, hb⟩ := built_exec hm k id spec call
      have hp := progress_exec (k := k) hm
      rw [call] at hp
      refine ⟨k, spec, request, List.mem_append_left _ hp.1, hb, ?_⟩
      rw [log, fresh, (journals_exec hm).absent id absent]
      exact .fresh id spec
    | published p last run₀ task found now log =>
      obtain ⟨k, spec, request, hk, hb, hf⟩ := ih hm found
      refine ⟨k, spec, request, List.mem_append_left _ hk, hb, ?_⟩
      rw [log, now]
      exact hf.publish (sourced_exec hm id p last task).faithful

theorem step_grows {a : Act P} (h : r.step toValue a = some r') : r.store.Grows r'.store := by
  obtain ⟨hlater, hlog⟩ := (step_store h).later
  refine ⟨fun id run hr => ?_, hlog⟩
  obtain ⟨run', hr', he⟩ := hlater id run hr
  refine ⟨run', hr', ?_⟩
  cases run_step h hr' with
  | kept run₀ found kept log =>
    cases found.symm.trans hr
    have hlatest := he.latest
    have hacked := he.acked
    rw [kept] at hlatest ⊢
    exact ⟨rfl, rfl, rfl, rfl, rfl, hlatest, hacked⟩
  | inserted k spec call absent => cases absent.symm.trans hr
  | published p last run₀ task found now log =>
    cases found.symm.trans hr
    rw [now]
    exact ⟨rfl, rfl, rfl, rfl, rfl, Nat.le_succ _, Nat.le_refl _⟩

theorem exec_grows {acts : List (Act P)} (h : exec (step toValue) r acts = some r') :
    r.store.Grows r'.store :=
  exec_mono (I := fun _ => True) (C := fun _ _ => True) (R := fun r r' => r.store.Grows r'.store)
    (fun r => .refl r.store) (fun _ _ _ h₁ h₂ => h₁.trans h₂) (fun _ _ _ _ _ _ => trivial)
    (fun _ _ _ _ _ hs => step_grows hs) trivial (along_of_forall (fun _ _ => trivial) _ _) h

/-- **A snapshot is what its run's request and events say.** In every run of the registry, each
run in the map was asked for in a call of `start` whose request a provider could be launched
with; what it is and works on are as that call gave them; its sequence, state and provider session
are those that a client knows who has followed all of the run's events; and no more of them are
acknowledged than there are. From any state on, the run stays there as the same run, with its
counters only rising and its events only added to. -/
theorem snapshot_replays (toValue : P → Except String Value) (acts later : List (Act P))
    (r r' : Registry) (h : exec (step toValue) init acts = some r)
    (h' : exec (step toValue) r later = some r') (id : RunId) (run : LiveRun)
    (hr : r.store.runs[id]? = some run) :
    (∃ (k : Nat) (spec : RunRequest) (request : Request), .startCall k id spec ∈ acts ∧
      buildRequest spec = .ok request ∧ Follows id spec (r.store.published id) run.snapshot) ∧
    run.snapshot.acknowledgedSequence ≤ run.snapshot.latestSequence ∧
    (∃ run', r'.store.runs[id]? = some run' ∧ Ages run.snapshot run'.snapshot) ∧
    r.store.published id <+: r'.store.published id := by
  have hgrows := exec_grows h'
  exact ⟨follows_exec h hr, ((journals_exec h).runs id run hr).acked_le, hgrows.runs id run hr,
    hgrows.published id⟩

/-- A run that opens its session, then asks for an approval. -/
def asking : List (Act Unit) :=
  startSteps 0 ⟨"r"⟩ ++
  [.recv ⟨"r"⟩ (some (.started "session" none)), .publish ⟨"r"⟩,
   .recv ⟨"r"⟩ (some (.approvalRequest "a" "write" .null)), .publish ⟨"r"⟩]

theorem snapshot_replays_asking :
    ∃ (r : Registry) (run : LiveRun), exec (step fun _ => .ok .null) init asking = some r ∧
      r.store.runs[(⟨"r"⟩ : RunId)]? = some run ∧ run.snapshot.state = .waitingApproval ∧
      run.snapshot.providerSessionId = some "session" ∧
      ∃ (k : Nat) (spec : RunRequest) (request : Request),
        .startCall k ⟨"r"⟩ spec ∈ asking ∧ buildRequest spec = .ok request ∧
          Follows ⟨"r"⟩ spec (r.store.published ⟨"r"⟩) run.snapshot := by
  have h : ∃ (r : Registry) (run : LiveRun), exec (step fun _ => .ok .null) init asking = some r ∧
      r.store.runs[(⟨"r"⟩ : RunId)]? = some run ∧ run.snapshot.state = .waitingApproval ∧
      run.snapshot.providerSessionId = some "session" := ⟨_, _, rfl, rfl, rfl, rfl⟩
  obtain ⟨r, run, hr, hrun, hstate, hsession⟩ := h
  have hreplays := snapshot_replays _ asking [] r r hr rfl ⟨"r"⟩ run hrun
  exact ⟨r, run, hr, hrun, hstate, hsession, hreplays.1⟩

end Registry

end Runtime

end AgencyProxy
