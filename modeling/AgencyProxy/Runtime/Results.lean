import AgencyProxy.Runtime.Endings
import AgencyProxy.Runtime.Replay

/-!
# What calls return

Where a call of `start` or `cancel` stands, with what its result will mean: an `Ok` of `start` says
that the run is there and is the one asked for, an `Ok` of `cancel` that the run was told of its
end, and each error is one that the call can make. Both are kept by every step of the registry.
-/

namespace AgencyProxy.Runtime

open Std Lts

/-- The run that the request asked for. -/
structure Asked (spec : RunRequest) (snapshot : RunSnapshot) : Prop where
  provider : snapshot.provider = spec.provider
  model : snapshot.model = spec.model
  workspaceRoots : snapshot.workspaceRoots = spec.workspaceRoots
  metadata : snapshot.metadata = spec.metadata

theorem Asked.ages {spec : RunRequest} {a b : RunSnapshot} (h : Asked spec a) (hab : Ages a b) :
    Asked spec b :=
  ⟨hab.provider.trans h.provider, hab.model.trans h.model,
    hab.workspaceRoots.trans h.workspaceRoots, hab.metadata.trans h.metadata⟩

/-- The errors of `start`. -/
def RuntimeError.ofStart : RuntimeError → Bool
  | .conflict | .provider _ | .permission _ | .start _ => true
  | _ => false

/-- The errors of `cancel`. -/
def RuntimeError.ofCancel : RuntimeError → Bool
  | .notFound | .conflict => true
  | _ => false

theorem buildRequest_error {spec : RunRequest} {e : RuntimeError}
    (h : buildRequest spec = .error e) : e.ofStart = true := by
  have hagent : ∀ e, agentForProvider spec.provider = .error e → e.ofStart = true := fun e h => by
    unfold agentForProvider at h
    split at h <;> cases h
    rfl
  have hpermission : ∀ e, permissionFor spec.permission = .error e → e.ofStart = true :=
    fun e h => by
    unfold permissionFor at h
    split at h <;> cases h
    rfl
  unfold buildRequest at h
  cases ha : agentForProvider spec.provider with
  | error e' => rw [ha] at h; cases h; exact hagent _ ha
  | ok agent =>
    cases hp : permissionFor spec.permission with
    | error e' => rw [ha, hp] at h; cases h; exact hpermission _ hp
    | ok permission =>
      rw [ha, hp] at h
      by_cases hc : spec.isCommand = true
      · by_cases hprompt : spec.prompt = "/compact"
        · simp [hc, hprompt] at h; cases h
        · simp [hc, hprompt] at h; cases h; rfl
      · simp [hc] at h; cases h

theorem Publication.Source.tells {P : Type} {toValue : P → Except String Value} {p : Publication}
    (h : Publication.Source toValue p) : p.Tells := by
  cases h with
  | provider event _ h => exact Publication.tells_provider h
  | canceled => exact Publication.tells_error _ _
  | finished outcome => exact Publication.tells_finished outcome
  | failed error => exact Publication.tells_error _ _

namespace Registry

variable {P : Type} {toValue : P → Except String Value} {r r' : Registry} {id : RunId} {k : Nat}

/-! ## `start` -/

/-- The run is in the map and is the one that was asked for. -/
def Holds (r : Registry) (id : RunId) (spec : RunRequest) : Prop :=
  ∃ run, r.store.runs[id]? = some run ∧ Asked spec run.snapshot

/-- The call `k` is a `start` of the run. -/
def StartOf (r : Registry) (k : Nat) (id : RunId) (spec : RunRequest) : Prop :=
  match r.starts[k]? with
  | some (.checking id' spec') | some (.launching id' spec') | some (.inserting id' spec') =>
    id' = id ∧ spec' = spec
  | some (.counting id') | some (.spawning id') | some (.returned id' (.ok ())) =>
    id' = id ∧ r.Holds id spec
  | some (.returned _ (.error e)) => e.ofStart = true
  | none => False

theorem Holds.grows {spec : RunRequest} (h : r.Holds id spec) (hg : r.store.Grows r'.store) :
    r'.Holds id spec := by
  obtain ⟨run, hr, ha⟩ := h
  obtain ⟨run', hr', hab⟩ := hg.runs id run hr
  exact ⟨run', hr', ha.ages hab⟩

/-- A call that does not move stays what it is. -/
theorem StartOf.still {spec : RunRequest} (h : r.StartOf k id spec)
    (he : r'.starts[k]? = r.starts[k]?) (hg : r.store.Grows r'.store) : r'.StartOf k id spec := by
  unfold StartOf at h ⊢
  rw [he]
  split at h
  · exact h
  · exact h
  · exact h
  · exact ⟨h.1, h.2.grows hg⟩
  · exact ⟨h.1, h.2.grows hg⟩
  · exact ⟨h.1, h.2.grows hg⟩
  · exact h
  · exact h

theorem StartOf.step {spec : RunRequest} {a : Act P} (h : r.StartOf k id spec)
    (hs : r.step toValue a = some r') : r'.StartOf k id spec := by
  have hg := step_grows hs
  by_cases ha : a.startOf = some k
  · have hset : ∀ call : StartCall, r'.starts = r.starts.insert k call →
        r'.starts[k]? = some call := fun call he => by
      rw [he, ExtTreeMap.getElem?_insert_self]
    cases a with
    | startCall k' id' spec' =>
      cases ha
      obtain ⟨hk, -⟩ := startCall_cases hs
      unfold StartOf at h
      rw [hk] at h
      exact h.elim
    | startCheck k' =>
      cases ha
      obtain ⟨id', spec', call, -, hk, hc, he⟩ := startCheck_cases hs
      unfold StartOf at h ⊢
      rw [hk] at h
      rw [hset call (by rw [he])]
      rcases hc with rfl | ⟨-, rfl⟩
      · exact rfl
      · exact h
    | startLaunch k' launched =>
      cases ha
      simp only [Registry.step, startLaunch] at hs
      unfold StartOf at h ⊢
      split at hs
      · rename_i id' spec' hk
        rw [hk] at h
        obtain ⟨rfl, rfl⟩ := h
        split at hs
        · rename_i e hb
          cases hs
          rw [hset _ rfl]
          exact buildRequest_error hb
        · cases hs
          rw [hset _ rfl]
          exact rfl
        · cases hs
          rw [hset _ rfl]
          exact ⟨rfl, rfl⟩
      · cases hs
    | startInsert k' =>
      cases ha
      unfold StartOf at h ⊢
      obtain ⟨id', spec', -, hk, ⟨-, rfl⟩ | ⟨hn, rfl⟩⟩ := startInsert_cases hs
      · rw [hset _ rfl]
        exact rfl
      · rw [hk] at h
        obtain ⟨rfl, rfl⟩ := h
        rw [hset _ rfl]
        exact ⟨rfl, _, ExtTreeMap.getElem?_insert_self, ⟨rfl, rfl, rfl, rfl⟩⟩
    | startCount k' =>
      cases ha
      unfold StartOf at h ⊢
      obtain ⟨id', hk, rfl⟩ := startCount_cases hs
      rw [hk] at h
      rw [hset _ rfl]
      exact ⟨h.1, h.2.grows hg⟩
    | startSpawn k' =>
      cases ha
      unfold StartOf at h ⊢
      obtain ⟨id', hk, rfl⟩ := startSpawn_cases hs
      rw [hk] at h
      rw [hset _ rfl]
      exact ⟨h.1, h.2.grows hg⟩
    | _ => cases ha
  · exact h.still (start_other ha hs) hg

theorem startOf_call {spec : RunRequest} (h : r.startCall k id spec = some r') :
    r'.StartOf k id spec := by
  obtain ⟨-, rfl⟩ := startCall_cases h
  unfold StartOf
  rw [ExtTreeMap.getElem?_insert_self]
  exact ⟨rfl, rfl⟩

/-! ## `cancel` -/

/-- The run was told of its end. -/
def Over (r : Registry) (id : RunId) : Prop :=
  ∃ e ∈ r.store.published id, e.event.ends = true

/-- The call `k` is a `cancel` of the run. -/
def CancelOf (r : Registry) (k : Nat) (id : RunId) : Prop :=
  match r.cancels[k]? with
  | some (.taking id') | some (.sending id') | some (.waiting id') => id' = id
  | some (.returned id' (.ok ())) => id' = id ∧ r.Over id
  | some (.returned _ (.error e)) => e.ofCancel = true
  | none => False

theorem Over.grows (h : r.Over id) (hg : r.store.Grows r'.store) : r'.Over id := by
  obtain ⟨e, he, hend⟩ := h
  exact ⟨e, (hg.published id).mem he, hend⟩

/-- A completed run, and one whose task is about to complete it, was told of its end. -/
structure Completes (r : Registry) : Prop where
  completing : ∀ (id : RunId) (last : Bool), r.tasks[id]? = some (.completing last) → r.Over id
  completed : ∀ (id : RunId) (run : LiveRun), r.store.runs[id]? = some run →
    run.completed = true → r.Over id

theorem completes_init : init.Completes :=
  ⟨fun id last ht => by simp [init] at ht, fun id run hr => by simp [init, Store.empty] at hr⟩

/-- A task that comes to complete its run has just published the end. -/
theorem step_completing {a : Act P} {last : Bool} (h : r.step toValue a = some r')
    (hsrc : r.Sourced toValue) (ht : r'.tasks[id]? = some (.completing last)) :
    r.tasks[id]? = some (.completing last) ∨ r'.Over id := by
  have hset : ∀ (id' : RunId) (t : RunTask), r'.tasks = r.tasks.insert id' t →
      (∀ last, t ≠ .completing last) →
      r.tasks[id]? = some (.completing last) ∨ r'.Over id := fun id' t he hne => by
    rw [he] at ht
    rcases ExtTreeMap.getElem?_insert_some.1 ht with ⟨-, he⟩ | ⟨-, ht⟩
    · exact absurd he (hne last)
    · exact .inl ht
  have hafter : ∀ last last', afterPublish last ≠ .completing last' := fun last last' => by
    cases last <;> simp [afterPublish]
  cases a with
  | startSpawn k =>
    obtain ⟨id', -, rfl⟩ := startSpawn_cases h
    exact hset id' _ rfl (by simp)
  | recv id' event =>
    obtain ⟨-, -, ⟨-, rfl⟩ | ⟨e, p', -, hp, rfl⟩ | rfl⟩ := recv_cases h
    · exact hset id' _ rfl (by simp)
    · exact hset id' _ rfl (by simp)
    · exact .inl ht
  | sawCancel id' =>
    obtain ⟨-, -, rfl⟩ := sawCancel_cases h
    exact hset id' _ rfl (by simp)
  | canceled id' =>
    obtain ⟨-, p, -, rfl⟩ := canceled_cases h
    exact hset id' _ rfl (by simp)
  | finish id' outcome =>
    obtain ⟨-, p, -, rfl⟩ := finish_cases h
    exact hset id' _ rfl (by simp)
  | publish id' =>
    obtain ⟨p, last', -, hp, ⟨-, rfl⟩ | ⟨run, hr, ⟨hf, rfl⟩ | ⟨-, rfl⟩⟩⟩ := publish_cases h
    · exact hset id' _ rfl (hafter _)
    · dsimp only at ht
      rcases ExtTreeMap.getElem?_insert_some.1 ht with ⟨rfl, -⟩ | ⟨-, ht⟩
      · refine .inr ⟨run.sequenced id' p.event, ?_, ?_⟩
        · dsimp only
          rw [Store.publish_published hr, Function.update_self]
          exact List.mem_append_right _ (List.mem_singleton_self _)
        · simp only [LiveRun.finishes, Bool.and_eq_true, Bool.not_eq_true'] at hf
          obtain ⟨⟨s, hs, -⟩, -⟩ := (hsrc id' p last' hp).faithful
          rw [hs] at hf
          exact (hsrc id' p last' hp).tells s hs hf.2
      · exact .inl ht
    · exact hset id' _ rfl (hafter _)
  | complete id' =>
    obtain ⟨last', -, rfl⟩ := complete_cases h
    exact hset id' _ rfl (by simp)
  | uncount id' =>
    obtain ⟨last', -, rfl⟩ := uncount_cases h
    exact hset id' _ rfl (hafter _)
  | _ => rw [(step_frame h).tasks rfl] at ht; exact .inl ht

/-- A completed run was completed before, unless its task completes it now. -/
theorem step_completed {a : Act P} {run' : LiveRun} (h : r.step toValue a = some r')
    (hr : r'.store.runs[id]? = some run') (hd : run'.completed = true) :
    (∃ run, r.store.runs[id]? = some run ∧ run.completed = true) ∨
      ∃ last, r.tasks[id]? = some (.completing last) := by
  have hput : ∀ (id₀ : RunId) (run₀ run₁ : LiveRun), r.store.runs[id₀]? = some run₀ →
      run₁.completed = run₀.completed → r'.store.runs = r.store.runs.insert id₀ run₁ →
      ∃ run, r.store.runs[id]? = some run ∧ run.completed = true := fun id₀ run₀ run₁ h₀ hk he => by
    rw [he] at hr
    rcases ExtTreeMap.getElem?_insert_some.1 hr with ⟨rfl, rfl⟩ | ⟨-, hr⟩
    · exact ⟨run₀, h₀, hk ▸ hd⟩
    · exact ⟨run', hr, hd⟩
  have hclient : a.isClient = true →
      ∃ run, r.store.runs[id]? = some run ∧ run.completed = true := fun ha => by
    obtain he | ⟨id₀, run₀, run₁, h₀, -, -, hk, he⟩ := client_cases ha h
    · exact ⟨run', he ▸ hr, hd⟩
    · exact hput id₀ run₀ run₁ h₀ hk (by rw [he])
  cases a with
  | startInsert k =>
    obtain ⟨id₀, spec, -, -, ⟨-, rfl⟩ | ⟨hn, rfl⟩⟩ := startInsert_cases h
    · exact .inl ⟨run', hr, hd⟩
    · rcases ExtTreeMap.getElem?_insert_some.1 hr with ⟨-, rfl⟩ | ⟨-, hr⟩
      · cases hd
      · exact .inl ⟨run', hr, hd⟩
  | publish id₀ =>
    obtain ⟨p, last, -, ht, ⟨-, rfl⟩ | ⟨run, h₀, ⟨-, rfl⟩ | ⟨-, rfl⟩⟩⟩ := publish_cases h
    · exact .inl ⟨run', hr, hd⟩
    · exact .inl (hput id₀ run (run.publish id₀ p.event p.state p.session) h₀ rfl
      (Store.publish_runs h₀))
    · exact .inl (hput id₀ run (run.publish id₀ p.event p.state p.session) h₀ rfl
      (Store.publish_runs h₀))
  | complete id₀ =>
    obtain ⟨last, ht, rfl⟩ := complete_cases h
    by_cases hid : id₀ = id
    · subst hid; exact .inr ⟨last, ht⟩
    · cases h₀ : r.store.runs[id₀]? with
      | none =>
        simp only [Store.modify, h₀] at hr
        exact .inl ⟨run', hr, hd⟩
      | some run =>
        dsimp only at hr
        rw [Store.modify_runs h₀, ExtTreeMap.getElem?_insert_of_ne hid] at hr
        exact .inl ⟨run', hr, hd⟩
  | cancelTake k =>
    obtain ⟨id₀, -, -, ⟨e, -, rfl⟩ | ⟨run, h₀, -, rfl⟩⟩ := cancelTake_cases h
    · exact .inl ⟨run', hr, hd⟩
    · exact .inl (hput id₀ run { run with cancel := none } h₀ rfl rfl)
  | cancelAll =>
    obtain ⟨-, rfl⟩ := cancelAll_cases h
    rw [ExtTreeMap.getElem?_map, Option.map_eq_some_iff] at hr
    obtain ⟨run, h₀, rfl⟩ := hr
    refine .inl ⟨run, h₀, ?_⟩
    unfold sweep at hd
    split at hd
    · exact hd
    · exact hd
  | acknowledge id₀ through => exact .inl (hclient rfl)
  | attach id₀ after => exact .inl (hclient rfl)
  | dropReceiver id₀ => exact .inl (hclient rfl)
  | _ => rw [(step_frame h).store rfl] at hr; exact .inl ⟨run', hr, hd⟩

theorem Completes.step {a : Act P} (hi : r.Completes) (hsrc : r.Sourced toValue)
    (h : r.step toValue a = some r') : r'.Completes := by
  have hg := step_grows h
  refine ⟨fun id last ht => ?_, fun id run hr hd => ?_⟩
  · rcases step_completing h hsrc ht with ht | ho
    · exact (hi.completing id last ht).grows hg
    · exact ho
  · rcases step_completed h hr hd with ⟨run₀, h₀, hd₀⟩ | ⟨last, ht⟩
    · exact (hi.completed id run₀ h₀ hd₀).grows hg
    · exact (hi.completing id last ht).grows hg

theorem completes_exec {acts : List (Act P)} (h : exec (Registry.step toValue) init acts = some r) :
    r.Completes :=
  (exec_inv' (I := fun r : Registry => r.Completes ∧ r.Sourced toValue)
    (fun _ _ _ hi hs => ⟨hi.1.step hi.2 hs, hi.2.step hs⟩)
    ⟨completes_init, fun id p last ht => by simp [init] at ht⟩ h).1

/-- A call of `cancel` that does not move stays what it is. -/
theorem CancelOf.still (h : r.CancelOf k id) (he : r'.cancels[k]? = r.cancels[k]?)
    (hg : r.store.Grows r'.store) : r'.CancelOf k id := by
  unfold CancelOf at h ⊢
  rw [he]
  split at h
  · exact h
  · exact h
  · exact h
  · exact ⟨h.1, h.2.grows hg⟩
  · exact h
  · exact h

theorem CancelOf.step {a : Act P} (h : r.CancelOf k id) (hi : r.Completes)
    (hs : r.step toValue a = some r') : r'.CancelOf k id := by
  have hg := step_grows hs
  -- A call that moves: another one, or this one, from where it is to where `call` is.
  have hmove : ∀ (k' : Nat) (call : CancelCall), r'.cancels = r.cancels.insert k' call →
      (k' = k → r'.cancels[k]? = some call → r'.CancelOf k id) → r'.CancelOf k id :=
    fun k' call he hnew => by
    by_cases hk : k' = k
    · exact hnew hk (by rw [he, hk, ExtTreeMap.getElem?_insert_self])
    · exact h.still (by rw [he, ExtTreeMap.getElem?_insert_of_ne hk]) hg
  cases a with
  | cancelCall k' id' =>
    obtain ⟨hk', rfl⟩ := cancelCall_cases hs
    refine hmove k' _ rfl fun hk _ => ?_
    subst hk
    unfold CancelOf at h
    rw [hk'] at h
    exact h.elim
  | cancelTake k' =>
    obtain ⟨id', -, hk', ⟨e, he, rfl⟩ | ⟨run, -, -, rfl⟩⟩ := cancelTake_cases hs
    · refine hmove k' _ rfl fun _ hc => ?_
      unfold CancelOf
      rw [hc]
      rcases he with rfl | rfl <;> exact rfl
    · refine hmove k' _ rfl fun hk hc => ?_
      subst hk
      unfold CancelOf at h ⊢
      rw [hk'] at h
      rw [hc]
      exact h
  | cancelSend k' =>
    obtain ⟨id', hk', rfl⟩ := cancelSend_cases hs
    refine hmove k' _ rfl fun hk hc => ?_
    subst hk
    unfold CancelOf at h ⊢
    rw [hk'] at h
    rw [hc]
    exact h
  | cancelWait k' =>
    obtain ⟨id', run, hk', hr, hd, rfl⟩ := cancelWait_cases hs
    refine hmove k' _ rfl fun hk hc => ?_
    subst hk
    unfold CancelOf at h ⊢
    rw [hk'] at h
    rw [hc]
    obtain rfl := h
    exact ⟨rfl, hi.completed id' run hr hd⟩
  | _ => exact h.still (by rw [(step_frame hs).cancels rfl]) hg

theorem cancelOf_call (h : r.cancelCall k id = some r') : r'.CancelOf k id := by
  obtain ⟨-, rfl⟩ := cancelCall_cases h
  unfold CancelOf
  rw [ExtTreeMap.getElem?_insert_self]

/-- **Run lemma**: every call stays the call that it is. -/
theorem calls_exec {acts : List (Act P)} (hi : r.Completes) (hsrc : r.Sourced toValue)
    (h : exec (step toValue) r acts = some r') :
    (∀ k id spec, r.StartOf k id spec → r'.StartOf k id spec) ∧
      ∀ k id, r.CancelOf k id → r'.CancelOf k id :=
  exec_mono (I := fun r : Registry => r.Completes ∧ r.Sourced toValue) (C := fun _ _ => True)
    (R := fun r r' => (∀ k id spec, r.StartOf k id spec → r'.StartOf k id spec) ∧
      ∀ k id, r.CancelOf k id → r'.CancelOf k id)
    (fun _ => ⟨fun _ _ _ h => h, fun _ _ h => h⟩)
    (fun _ _ _ h₁ h₂ => ⟨fun k id spec h => h₂.1 k id spec (h₁.1 k id spec h),
      fun k id h => h₂.2 k id (h₁.2 k id h)⟩)
    (fun _ _ _ hi _ hs => ⟨hi.1.step hi.2 hs, hi.2.step hs⟩)
    (fun _ _ _ hi _ hs => ⟨fun _ _ _ hc => hc.step hs, fun _ _ hc => hc.step hi.1 hs⟩)
    ⟨hi, hsrc⟩ (along_of_forall (fun _ _ => trivial) _ _) h

end Registry

end AgencyProxy.Runtime
