import AgencyProxy.Runtime.Owners

/-!
# What the registry has begun comes to an end

`pursues` picks the steps by which calls in progress and run tasks go on with what they have
begun: no new call, no event of a provider. Among them are the returns of calls into a provider,
so what is shown here is shown of providers whose calls return. Each step lowers `work`, and where
none of them is enabled the registry is `Settled`: the lock is free, every call has returned, and
each task waits for an event of its provider or is done. In particular no call of `cancel` waits
for a run that will not complete, whatever its payloads.
-/

namespace AgencyProxy.Runtime

open Std Lts

/-! ## Work -/

/-- The call has returned. -/
def CancelCall.settled : CancelCall → Bool
  | .returned _ _ => true
  | _ => false

/-- How many steps the task takes at most, if its provider sends no event any more. -/
def RunTask.work : RunTask → Nat
  | .publishing _ false => 8
  | .completing false => 7
  | .uncounting false => 6
  | .selecting => 5
  | .cancelling | .finishing => 4
  | .publishing _ true => 3
  | .completing true => 2
  | .uncounting true => 1
  | .done => 0

/-- A call that is about to spawn a task is charged for it. -/
def StartCall.work : StartCall → Nat
  | .checking _ _ => 10
  | .launching _ _ => 9
  | .inserting _ _ => 8
  | .counting _ => 7
  | .spawning _ => 6
  | .returned _ _ => 0

def CancelCall.work : CancelCall → Nat
  | .taking _ => 3
  | .sending _ => 2
  | .waiting _ => 1
  | .returned _ _ => 0

namespace Registry

variable {P : Type} {toValue : P → Except String Value} {r r' : Registry} {k : Nat} {id : RunId}

def work (r : Registry) : Nat :=
  r.tasks.sum RunTask.work + r.starts.sum StartCall.work + r.cancels.sum CancelCall.work

/-- The step goes on with what has begun. The launch of a provider and its `cancel` and `finish` are
assumed to return: `startLaunch`, `canceled` and `finish` are their results. -/
def Act.pursues : Act P → Bool
  | .startCheck _ | .startLaunch _ _ | .startInsert _ | .startCount _ | .startSpawn _
  | .sawCancel _ | .canceled _ | .finish _ _ | .publish _ | .complete _ | .uncount _
  | .cancelTake _ | .cancelSend _ | .cancelWait _ => true
  | _ => false

/-- A task moves on. -/
theorem task_work {t t' : RunTask} (hs : r'.starts = r.starts) (hc : r'.cancels = r.cancels)
    (ht : r.tasks[id]? = some t) (he : r'.tasks = r.tasks.insert id t')
    (hw : t'.work < t.work) : r'.work < r.work := by
  have := ExtTreeMap.sum_insert_old (f := RunTask.work) (v := t') ht
  simp only [work, hs, hc, he]
  omega

/-- A call of `start_owned` moves on. -/
theorem start_work {call call' : StartCall} (ht : r'.tasks = r.tasks)
    (hc : r'.cancels = r.cancels) (hk : r.starts[k]? = some call)
    (he : r'.starts = r.starts.insert k call') (hw : call'.work < call.work) :
    r'.work < r.work := by
  have := ExtTreeMap.sum_insert_old (f := StartCall.work) (v := call') hk
  simp only [work, ht, hc, he]
  omega

/-- A call of `cancel` moves on. -/
theorem cancel_work {call call' : CancelCall} (ht : r'.tasks = r.tasks)
    (hs : r'.starts = r.starts) (hk : r.cancels[k]? = some call)
    (he : r'.cancels = r.cancels.insert k call') (hw : call'.work < call.work) :
    r'.work < r.work := by
  have := ExtTreeMap.sum_insert_old (f := CancelCall.work) (v := call') hk
  simp only [work, ht, hs, he]
  omega

theorem spawn_work (hk : r.starts[k]? = some (.spawning id)) :
    ({ r with
        tasks := r.tasks.insert id .selecting
        starts := r.starts.insert k (.returned id (.ok ())) } : Registry).work < r.work := by
  have htasks : (r.tasks.insert id .selecting).sum RunTask.work ≤ r.tasks.sum RunTask.work + 5 :=
    ExtTreeMap.sum_insert_le
  have hstarts : (r.starts.insert k (.returned id (.ok ()))).sum StartCall.work + 6 =
      r.starts.sum StartCall.work := ExtTreeMap.sum_insert_old hk
  simp only [work]
  omega

theorem publishing_work (p : Publication) (last : Bool) :
    (RunTask.completing last).work < (RunTask.publishing p last).work ∧
      (afterPublish last).work < (RunTask.publishing p last).work := by
  cases last <;> simp [RunTask.work, afterPublish]

/-- **Each of these steps lowers the work.** -/
theorem step_work {a : Act P} (ha : a.pursues = true) (h : r.step toValue a = some r') :
    r'.work < r.work := by
  cases a with
  | startCheck k =>
    obtain ⟨id, spec, call, -, hk, rfl | ⟨-, rfl⟩, rfl⟩ := startCheck_cases h
    · exact start_work rfl rfl hk rfl (by simp [StartCall.work])
    · exact start_work rfl rfl hk rfl (by simp [StartCall.work])
  | startLaunch k launched =>
    obtain ⟨id, spec, call, log, hk, ⟨e, rfl⟩ | rfl, rfl⟩ := startLaunch_cases h
    · exact start_work rfl rfl hk rfl (by simp [StartCall.work])
    · exact start_work rfl rfl hk rfl (by simp [StartCall.work])
  | startInsert k =>
    obtain ⟨id, spec, -, hk, ⟨-, rfl⟩ | ⟨-, rfl⟩⟩ := startInsert_cases h
    · exact start_work rfl rfl hk rfl (by simp [StartCall.work])
    · exact start_work rfl rfl hk rfl (by simp [StartCall.work])
  | startCount k =>
    obtain ⟨id, hk, rfl⟩ := startCount_cases h
    exact start_work rfl rfl hk rfl (by simp [StartCall.work])
  | startSpawn k =>
    obtain ⟨id, hk, rfl⟩ := startSpawn_cases h
    exact spawn_work hk
  | sawCancel id =>
    obtain ⟨ht, -, rfl⟩ := sawCancel_cases h
    exact task_work rfl rfl ht rfl (by simp [RunTask.work])
  | canceled id =>
    obtain ⟨ht, p, -, rfl⟩ := canceled_cases h
    exact task_work rfl rfl ht rfl (by simp [RunTask.work])
  | finish id outcome =>
    obtain ⟨ht, p, -, rfl⟩ := finish_cases h
    exact task_work rfl rfl ht rfl (by simp [RunTask.work])
  | publish id =>
    obtain ⟨p, last, -, ht, ⟨-, rfl⟩ | ⟨run, -, ⟨-, rfl⟩ | ⟨-, rfl⟩⟩⟩ := publish_cases h
    · exact task_work rfl rfl ht rfl (publishing_work p last).2
    · exact task_work rfl rfl ht rfl (publishing_work p last).1
    · exact task_work rfl rfl ht rfl (publishing_work p last).2
  | complete id =>
    obtain ⟨last, ht, rfl⟩ := complete_cases h
    exact task_work rfl rfl ht rfl (by cases last <;> simp [RunTask.work])
  | uncount id =>
    obtain ⟨last, ht, rfl⟩ := uncount_cases h
    exact task_work rfl rfl ht rfl (by cases last <;> simp [RunTask.work, afterPublish])
  | cancelTake k =>
    obtain ⟨id, -, hk, ⟨e, -, rfl⟩ | ⟨run, -, -, rfl⟩⟩ := cancelTake_cases h
    · exact cancel_work rfl rfl hk rfl (by simp [CancelCall.work])
    · exact cancel_work rfl rfl hk rfl (by simp [CancelCall.work])
  | cancelSend k =>
    obtain ⟨id, hk, rfl⟩ := cancelSend_cases h
    exact cancel_work rfl rfl hk rfl (by simp [CancelCall.work])
  | cancelWait k =>
    obtain ⟨id, run, hk, -, -, rfl⟩ := cancelWait_cases h
    exact cancel_work rfl rfl hk rfl (by simp [CancelCall.work])
  | _ => cases ha

/-- The sweep makes no work: the tasks it signals are charged for their end already. -/
theorem cancelAll_work (h : r.cancelAll = some r') : r'.work = r.work := by
  obtain ⟨-, rfl⟩ := cancelAll_cases h
  rfl

theorem cancelCall_work (h : r.cancelCall k id = some r') : r'.work = r.work + 3 := by
  obtain ⟨hk, rfl⟩ := cancelCall_cases h
  have hadd : (r.cancels.insert k (.taking id)).sum CancelCall.work =
      r.cancels.sum CancelCall.work + 3 := ExtTreeMap.sum_insert_new hk
  simp only [work, hadd]
  omega

theorem startCall_work {spec : RunRequest} (h : r.startCall k id spec = some r') :
    r'.work = r.work + 10 := by
  obtain ⟨hk, rfl⟩ := startCall_cases h
  have hadd : (r.starts.insert k (.checking id spec)).sum StartCall.work =
      r.starts.sum StartCall.work + 10 := ExtTreeMap.sum_insert_new hk
  simp only [work, hadd]
  omega

/-! ## Ends are told -/

/-- Whoever waits for a run can be told of its end. -/
structure Ends (r : Registry) : Prop where
  /-- A run that has ended has its flag set, or its task is about to set it. -/
  ended : ∀ (id : RunId) (run : LiveRun), r.store.runs[id]? = some run → run.isActive = false →
    run.completed = true ∨ ∃ last, r.tasks[id]? = some (.completing last)
  /-- A call that waits has sent its signal. -/
  sent : ∀ (k : Nat) (id : RunId), r.cancels[k]? = some (.waiting id) → r.signalled id = true

theorem ends_init : init.Ends :=
  ⟨fun id run h => by simp [init, Store.empty] at h, fun k id h => by simp [init] at h⟩

/-- A step that ends no run, takes back no signal and moves no task that is about to set a
flag. -/
theorem Ends.keep (h : r.Ends)
    (hruns : ∀ (id : RunId) (run' : LiveRun), r'.store.runs[id]? = some run' →
      run'.isActive = false → ∃ run, r.store.runs[id]? = some run ∧ run.isActive = false ∧
        (run.completed = true → run'.completed = true))
    (htasks : ∀ (id : RunId) (last : Bool), r.tasks[id]? = some (.completing last) →
      r'.tasks[id]? = some (.completing last))
    (hcancels : ∀ (k : Nat) (id : RunId), r'.cancels[k]? = some (.waiting id) →
      r'.signalled id = true ∨ r.cancels[k]? = some (.waiting id))
    (hsignals : ∀ id, r.signalled id = true → r'.signalled id = true) : r'.Ends := by
  refine ⟨fun id run' hr' hend => ?_, fun k id hk => ?_⟩
  · obtain ⟨run, hr, hact, hcomp⟩ := hruns id run' hr' hend
    obtain hdone | ⟨last, ht⟩ := h.ended id run hr hact
    · exact .inl (hcomp hdone)
    · exact .inr ⟨last, htasks id last ht⟩
  · obtain hs | hk := hcancels k id hk
    · exact hs
    · exact hsignals id (h.sent k id hk)

/-- A task that moves on without a publication. -/
theorem Ends.setTask {t t' : RunTask} (h : r.Ends) (ht : r.tasks[id]? = some t)
    (hne : ∀ last, t ≠ .completing last) (hst : r'.store = r.store)
    (htasks : r'.tasks = r.tasks.insert id t') (hc : r'.cancels = r.cancels)
    (hs : r'.signalled = r.signalled) : r'.Ends := by
  refine h.keep (fun id' run hr hend => ⟨run, hst ▸ hr, hend, fun hd => hd⟩)
    (fun id' last hl => ?_) (fun k id' hk => .inr (hc ▸ hk)) (fun id' hu => by rw [hs]; exact hu)
  rw [htasks, ExtTreeMap.getElem?_insert_of_ne]
  · exact hl
  · rintro rfl
    cases ht.symm.trans hl
    exact hne last rfl

/-- A step that leaves the tasks, the calls of `cancel` and every run's end. -/
theorem Ends.same (h : r.Ends)
    (hruns : ∀ (id : RunId) (run' : LiveRun), r'.store.runs[id]? = some run' →
      run'.isActive = false → ∃ run, r.store.runs[id]? = some run ∧ run.isActive = false ∧
        (run.completed = true → run'.completed = true))
    (ht : r'.tasks = r.tasks) (hc : r'.cancels = r.cancels)
    (hs : ∀ id, r.signalled id = true → r'.signalled id = true) : r'.Ends :=
  h.keep hruns (fun id last hl => by rw [ht]; exact hl) (fun k id hk => .inr (hc ▸ hk)) hs

/-- One run is replaced by another that has not ended since. -/
theorem replace_ended {run run' : LiveRun} (hr : r.store.runs[id]? = some run)
    (hact : run'.isActive = false → run.isActive = false)
    (hcomp : run.completed = true → run'.completed = true) :
    ∀ (id' : RunId) (run₁ : LiveRun), (r.store.runs.insert id run')[id']? = some run₁ →
      run₁.isActive = false → ∃ run₀, r.store.runs[id']? = some run₀ ∧
        run₀.isActive = false ∧ (run₀.completed = true → run₁.completed = true) := by
  intro id' run₁ hr₁ hend
  rcases ExtTreeMap.getElem?_insert_some.1 hr₁ with ⟨rfl, rfl⟩ | ⟨-, hr₁⟩
  · exact ⟨run, hr, hact hend, hcomp⟩
  · exact ⟨run₁, hr₁, hend, fun hd => hd⟩

theorem Ends.client {a : Act P} (h : r.Ends) (ha : a.isClient = true)
    (hs : r.step toValue a = some r') : r'.Ends := by
  obtain rfl | ⟨id, run, run', hr, ht, -, hcomp, rfl⟩ := client_cases ha hs
  · exact h
  · refine h.same (replace_ended hr (fun hend => ?_) fun hd => by rw [hcomp]; exact hd) rfl rfl
      fun _ hu => hu
    rw [LiveRun.isActive, ← ht.state]
    exact hend

theorem Ends.publish {p : Publication} {last : Bool} (h : r.Ends)
    (ht : r.tasks[id]? = some (.publishing p last)) (hs : r.publish id = some r') : r'.Ends := by
  obtain ⟨p', last', -, ht', ⟨-, rfl⟩ | ⟨run, hr, ⟨-, rfl⟩ | ⟨hf, rfl⟩⟩⟩ := publish_cases hs
  · exact h.setTask ht (by simp) rfl rfl rfl rfl
  · refine ⟨fun id' run' hr' hend => ?_, h.sent⟩
    simp only [Store.publish_runs hr] at hr'
    rcases ExtTreeMap.getElem?_insert_some.1 hr' with ⟨rfl, -⟩ | ⟨hne, hr'⟩
    · exact .inr ⟨last', ExtTreeMap.getElem?_insert_self⟩
    · simp only [ExtTreeMap.getElem?_insert_of_ne hne]
      exact h.ended id' run' hr' hend
  · -- The run was no longer active before, or it still is.
    refine h.keep (fun id' run' hr' hend => ?_) (fun id' last₁ hl => ?_) (fun _ _ hk => .inr hk)
      fun _ hu => hu
    · simp only [Store.publish_runs hr] at hr'
      have hact : (run.publish id p'.event p'.state p'.session).isActive = false →
          run.isActive = false := by
        intro hend
        have hstate : isActiveState (p'.state.getD run.snapshot.state) = false := hend
        have hbefore : isActiveState run.snapshot.state = false := by
          simpa [LiveRun.finishes, hstate] using hf
        exact hbefore
      exact replace_ended hr hact (fun hd => hd) id' run' hr' hend
    · rw [ExtTreeMap.getElem?_insert_of_ne]
      · exact hl
      · rintro rfl
        cases ht.symm.trans hl

theorem Ends.complete (h : r.Ends) (hs : r.complete id = some r') : r'.Ends := by
  obtain ⟨last, ht, rfl⟩ := complete_cases hs
  refine ⟨fun id' run' hr' hend => ?_, h.sent⟩
  cases hr : r.store.runs[id]? with
  | none =>
    simp only [Store.modify, hr] at hr'
    have hne : id ≠ id' := by rintro rfl; cases hr.symm.trans hr'
    simp only [ExtTreeMap.getElem?_insert_of_ne hne]
    exact h.ended id' run' hr' hend
  | some run =>
    simp only [Store.modify_runs hr] at hr'
    rcases ExtTreeMap.getElem?_insert_some.1 hr' with ⟨-, rfl⟩ | ⟨hne, hr'⟩
    · exact .inl rfl
    · simp only [ExtTreeMap.getElem?_insert_of_ne hne]
      exact h.ended id' run' hr' hend

theorem Ends.step {a : Act P} (h : r.Ends) (htasks : r.Tasks) (ho : r.Owners)
    (hs : r.step toValue a = some r') : r'.Ends := by
  have hself : ∀ (id : RunId) (run : LiveRun), r.store.runs[id]? = some run →
      run.isActive = false → ∃ run₀, r.store.runs[id]? = some run₀ ∧ run₀.isActive = false ∧
        (run₀.completed = true → run.completed = true) :=
    fun id run hr hend => ⟨run, hr, hend, fun hd => hd⟩
  cases a with
  | startCall k id spec =>
    obtain ⟨-, rfl⟩ := startCall_cases hs
    exact h.same hself rfl rfl fun _ hu => hu
  | startCheck k =>
    obtain ⟨_, _, _, -, -, -, rfl⟩ := startCheck_cases hs
    exact h.same hself rfl rfl fun _ hu => hu
  | startLaunch k launched =>
    obtain ⟨_, _, _, _, -, -, rfl⟩ := startLaunch_cases hs
    exact h.same hself rfl rfl fun _ hu => hu
  | startInsert k =>
    obtain ⟨id, spec, -, -, ⟨-, rfl⟩ | ⟨hn, rfl⟩⟩ := startInsert_cases hs
    · exact h.same hself rfl rfl fun _ hu => hu
    · refine h.same (fun id' run hr hend => ?_) rfl rfl fun _ hu => hu
      rcases ExtTreeMap.getElem?_insert_some.1 hr with ⟨-, rfl⟩ | ⟨-, hr⟩
      · cases hend
      · exact hself id' run hr hend
  | startCount k =>
    obtain ⟨_, -, rfl⟩ := startCount_cases hs
    exact h.same hself rfl rfl fun _ hu => hu
  | startSpawn k =>
    obtain ⟨id, hk, rfl⟩ := startSpawn_cases hs
    refine h.keep hself (fun id' last hl => ?_) (fun _ _ hk => .inr hk) fun _ hu => hu
    rw [ExtTreeMap.getElem?_insert_of_ne]
    · exact hl
    · rintro rfl
      -- The call that spawns the task has not returned.
      obtain ⟨k', hk'⟩ := htasks.owned id _ hl
      cases ho.unique k k' _ _ id hk hk' rfl rfl
      cases hk.symm.trans hk'
  | recv id event =>
    obtain ⟨ht, -, ⟨-, rfl⟩ | ⟨_, _, -, -, rfl⟩ | rfl⟩ := recv_cases hs
    · exact h.setTask ht (by simp) rfl rfl rfl rfl
    · exact h.setTask ht (by simp) rfl rfl rfl rfl
    · exact h
  | sawCancel id =>
    obtain ⟨ht, -, rfl⟩ := sawCancel_cases hs
    exact h.setTask ht (by simp) rfl rfl rfl rfl
  | canceled id =>
    obtain ⟨ht, _, -, rfl⟩ := canceled_cases hs
    exact h.setTask ht (by simp) rfl rfl rfl rfl
  | finish id outcome =>
    obtain ⟨ht, _, -, rfl⟩ := finish_cases hs
    exact h.setTask ht (by simp) rfl rfl rfl rfl
  | publish id =>
    obtain ⟨p, last, -, ht, -⟩ := publish_cases hs
    exact h.publish ht hs
  | complete id => exact h.complete hs
  | uncount id =>
    obtain ⟨last, ht, rfl⟩ := uncount_cases hs
    exact h.setTask ht (by simp) rfl rfl rfl rfl
  | cancelCall k id =>
    obtain ⟨-, rfl⟩ := cancelCall_cases hs
    refine h.keep hself (fun _ _ hl => hl) (fun k' id' hk => ?_) fun _ hu => hu
    rcases ExtTreeMap.getElem?_insert_some.1 hk with ⟨-, he⟩ | ⟨-, hk⟩
    · cases he
    · exact .inr hk
  | cancelTake k =>
    have hwait : ∀ (call : CancelCall), (∀ id, call ≠ .waiting id) → ∀ (k' : Nat) (id : RunId),
        (r.cancels.insert k call)[k']? = some (.waiting id) →
          r.cancels[k']? = some (.waiting id) := fun call hne k' id hk => by
      rcases ExtTreeMap.getElem?_insert_some.1 hk with ⟨-, he⟩ | ⟨-, hk⟩
      · exact absurd he (hne id)
      · exact hk
    obtain ⟨id, -, -, ⟨e, -, rfl⟩ | ⟨run, hr, -, rfl⟩⟩ := cancelTake_cases hs
    · exact h.keep hself (fun _ _ hl => hl) (fun k' id' hk => .inr (hwait _ (by simp) k' id' hk))
        fun _ hu => hu
    · exact h.keep (replace_ended hr (fun hend => hend) fun hd => hd) (fun _ _ hl => hl)
        (fun k' id' hk => .inr (hwait _ (by simp) k' id' hk)) fun _ hu => hu
  | cancelSend k =>
    obtain ⟨id, -, rfl⟩ := cancelSend_cases hs
    refine h.keep hself (fun _ _ hl => hl) (fun k' id' hk => ?_) fun id' hu => ?_
    · rcases ExtTreeMap.getElem?_insert_some.1 hk with ⟨-, he⟩ | ⟨-, hk⟩
      · cases he
        exact .inl (Function.update_self ..)
      · exact .inr hk
    · by_cases he : id' = id
      · subst he; exact Function.update_self ..
      · simpa only [Function.update_of_ne he] using hu
  | cancelWait k =>
    obtain ⟨id, _, -, -, -, rfl⟩ := cancelWait_cases hs
    refine h.keep hself (fun _ _ hl => hl) (fun k' id' hk => ?_) fun _ hu => hu
    rcases ExtTreeMap.getElem?_insert_some.1 hk with ⟨-, he⟩ | ⟨-, hk⟩
    · cases he
    · exact .inr hk
  | cancelAll =>
    obtain ⟨-, rfl⟩ := cancelAll_cases hs
    refine h.same (fun id run' hr hend => ?_) rfl rfl fun id hu => by simp [hu]
    rw [ExtTreeMap.getElem?_map, Option.map_eq_some_iff] at hr
    obtain ⟨run, hr, rfl⟩ := hr
    refine ⟨run, hr, ?_, fun hd => by rw [sweep_completed]; exact hd⟩
    rw [← hend, LiveRun.isActive, LiveRun.isActive, (sweep_touch run).state]
  | acknowledge id through => exact h.client rfl hs
  | attach id after => exact h.client rfl hs
  | dropReceiver id => exact h.client rfl hs

theorem ends_exec {acts : List (Act P)} (h : exec (Registry.step toValue) init acts = some r) :
    r.Ends :=
  exec_inv_reachable (C := fun _ _ => True) (I := Ends)
    (fun _ _ _ _ hm hi _ hs => hi.step (tasks_exec hm) (owners_exec hm) hs) ends_init
    (along_of_forall (fun _ _ => trivial) _ _) h

/-- No signal is taken back. -/
theorem signalled_step {a : Act P} (hs : r.step toValue a = some r')
    (hu : r.signalled id = true) : r'.signalled id = true := by
  cases ha : a.taskOf with
  | some id' => rw [(task_move ha hs).1.signalled]; exact hu
  | none => exact (step_untasked ha hs).signalled id hu

/-- A sender that was consumed was fired, or is about to be. -/
def Fires (r : Registry) : Prop :=
  ∀ id, r.consumed id ≠ [] → r.signalled id = true ∨ ∃ k : Nat, r.cancels[k]? = some (.sending id)

/-- A call that is not about to fire moves on. -/
theorem Fires.setCancel {call : CancelCall} (h : r.Fires)
    (hk : ∀ id, r.cancels[k]? ≠ some (.sending id)) (hc : r'.cancels = r.cancels.insert k call)
    (hcon : ∀ id, r'.consumed id ≠ [] → r.consumed id ≠ [] ∨ call = .sending id)
    (hs : r'.signalled = r.signalled) : r'.Fires := by
  intro id hne
  obtain hne | rfl := hcon id hne
  · refine (h id hne).imp (fun hu => by rw [hs]; exact hu) fun ⟨k', hk'⟩ => ⟨k', ?_⟩
    rw [hc, ExtTreeMap.getElem?_insert_of_ne]
    · exact hk'
    · rintro rfl
      exact hk id hk'
  · exact .inr ⟨k, by rw [hc, ExtTreeMap.getElem?_insert_self]⟩

theorem Fires.step {a : Act P} (h : r.Fires) (hs : r.step toValue a = some r') : r'.Fires := by
  have hf := step_frame hs
  cases a with
  | cancelCall k id =>
    obtain ⟨hk, rfl⟩ := cancelCall_cases hs
    exact h.setCancel (by simp [hk]) rfl (fun _ hne => .inl hne) rfl
  | cancelTake k =>
    obtain ⟨id, -, hk, ⟨e, -, rfl⟩ | ⟨run, -, -, rfl⟩⟩ := cancelTake_cases hs
    · exact h.setCancel (by simp [hk]) rfl (fun _ hne => .inl hne) rfl
    · refine h.setCancel (by simp [hk]) rfl (fun id' hne => ?_) rfl
      by_cases he : id' = id
      · exact .inr (by rw [he])
      · exact .inl (by simpa only [Function.update_of_ne he] using hne)
  | cancelSend k =>
    obtain ⟨id, hk, rfl⟩ := cancelSend_cases hs
    intro id' hne
    by_cases he : id' = id
    · exact .inl (by rw [he]; exact Function.update_self ..)
    · refine (h id' hne).imp (fun hu => by simpa only [Function.update_of_ne he] using hu)
        fun ⟨k', hk'⟩ => ⟨k', ?_⟩
      rw [ExtTreeMap.getElem?_insert_of_ne]
      · exact hk'
      · rintro rfl
        cases hk.symm.trans hk'
        exact he rfl
  | cancelWait k =>
    obtain ⟨id, run, hk, -, -, rfl⟩ := cancelWait_cases hs
    exact h.setCancel (by simp [hk]) rfl (fun _ hne => .inl hne) rfl
  | cancelAll =>
    obtain ⟨-, rfl⟩ := cancelAll_cases hs
    intro id hne
    dsimp only at hne ⊢
    split at hne
    · rename_i hsw
      exact .inl (by rw [hsw, Bool.or_true])
    · exact (h id hne).imp_left fun hu => by rw [hu, Bool.true_or]
  | _ =>
    intro id hne
    rw [hf.consumed rfl] at hne
    rw [hf.cancels rfl]
    exact (h id hne).imp_left (signalled_step hs)

theorem fires_exec {acts : List (Act P)} (h : exec (Registry.step toValue) init acts = some r) :
    r.Fires :=
  exec_inv' (I := Fires) (fun _ _ _ hi hs => hi.step hs) (fun _ hne => absurd rfl hne) h

/-! ## Nothing gets stuck -/

/-- Nothing is left to do but what the providers and new calls bring, where `polls` tells the
calls of `cancel` that their caller still polls. -/
structure Settled (polls : Nat → Prop) (r : Registry) : Prop where
  free : r.lock = .free
  starts : ∀ (k : Nat) (call : StartCall), r.starts[k]? = some call → call.settled = true
  cancels : ∀ (k : Nat) (call : CancelCall), polls k → r.cancels[k]? = some call →
    call.settled = true
  /-- A task waits for its provider, with no cancellation sent, or is done. -/
  tasks : ∀ (id : RunId) (t : RunTask), r.tasks[id]? = some t →
    (t = .selecting ∧ r.signalled id = false) ∨ t = .done

/-- The call of `cancel` that the step is one of. -/
def Act.polled : Act P → Option Nat
  | .cancelTake k | .cancelSend k | .cancelWait k => some k
  | _ => none

/-- None of the steps that `pursues` picks is enabled, of calls that are polled. -/
def Stuck (toValue : P → Except String Value) (polls : Nat → Prop) (r : Registry) : Prop :=
  ∀ a : Act P, a.pursues = true → (∀ k, a.polled = some k → polls k) → r.step toValue a = none

variable {polls : Nat → Prop}

theorem Stuck.own {a : Act P} (h : r.Stuck toValue polls) (ha : a.pursues = true)
    (hp : a.polled = none) : r.step toValue a = none :=
  h a ha fun k hk => by rw [hp] at hk; cases hk

theorem Stuck.poll {a : Act P} (h : r.Stuck toValue polls) (ha : a.pursues = true)
    (hp : a.polled = some k) (hk : polls k) : r.step toValue a = none :=
  h a ha fun k' he => by rw [hp] at he; cases he; exact hk

theorem Stuck.free (h : r.Stuck toValue polls) (ht : r.Tasks) : r.lock = .free := by
  cases hl : r.lock with
  | free => rfl
  | starting k =>
    obtain ⟨id, hk⟩ := ht.starting k hl
    have := h.own (a := .startCount k) rfl rfl
    simp [step, startCount, hk] at this
  | publishing id =>
    obtain ⟨t, htask, hh⟩ := (Option.any_eq_true _ _).1 (ht.publishing id hl)
    cases t with
    | completing last =>
      have := h.own (a := .complete id) rfl rfl
      simp [step, complete, htask] at this
    | uncounting last =>
      have := h.own (a := .uncount id) rfl rfl
      simp [step, uncount, htask] at this
    | _ => cases hh

theorem Stuck.starts (h : r.Stuck toValue polls) (hl : r.lock = .free) {call : StartCall}
    (hk : r.starts[k]? = some call) : call.settled = true := by
  cases call with
  | checking id spec =>
    have := h.own (a := .startCheck k) rfl rfl
    simp only [step, startCheck, hl, hk] at this
    split at this <;> cases this
  | launching id spec =>
    have := h.own (a := .startLaunch k (.ok ())) rfl rfl
    simp only [step, startLaunch, hk] at this
    split at this <;> cases this
  | inserting id spec =>
    have := h.own (a := .startInsert k) rfl rfl
    simp only [step, startInsert, hl, hk] at this
    split at this <;> cases this
  | counting id =>
    have := h.own (a := .startCount k) rfl rfl
    simp [step, startCount, hk] at this
  | spawning id =>
    have := h.own (a := .startSpawn k) rfl rfl
    simp [step, startSpawn, hk] at this
  | returned id result => rfl

theorem Stuck.tasks (h : r.Stuck toValue polls) (hl : r.lock = .free) {t : RunTask}
    (ht : r.tasks[id]? = some t) : (t = .selecting ∧ r.signalled id = false) ∨ t = .done := by
  cases t with
  | selecting =>
    have := h.own (a := .sawCancel id) rfl rfl
    simp only [step, sawCancel, ht] at this
    split at this
    · cases this
    · rename_i hs
      exact .inl ⟨rfl, by simpa using hs⟩
  | publishing p last =>
    have := h.own (a := .publish id) rfl rfl
    simp only [step, publish, hl, ht] at this
    split at this
    · cases this
    · split at this <;> cases this
  | completing last =>
    have := h.own (a := .complete id) rfl rfl
    simp [step, complete, ht] at this
  | uncounting last =>
    have := h.own (a := .uncount id) rfl rfl
    simp [step, uncount, ht] at this
  | cancelling =>
    have := h.own (a := .canceled id) rfl rfl
    simp [step, canceled, ht] at this
  | finishing =>
    have := h.own (a := .finish id (.error "")) rfl rfl
    simp [step, finish, ht] at this
  | done => exact .inr rfl

/-- Where everything else has settled, the task of a run whose cancellation was sent is done. -/
theorem Stuck.done (h : r.Stuck toValue polls) (hl : r.lock = .free) (ho : r.Owned) {run : LiveRun}
    (hr : r.store.runs[id]? = some run) (hs : r.signalled id = true) :
    r.tasks[id]? = some .done := by
  obtain ⟨k, call, hk, howns⟩ := ho.runs id run hr
  have hsettled := h.starts hl hk
  obtain ⟨t, ht⟩ : ∃ t, r.tasks[id]? = some t := by
    cases call with
    | returned id' result =>
      cases result with
      | ok =>
        cases howns
        exact Option.ne_none_iff_exists'.1 (ho.spawned k id hk)
      | error e => cases howns
    | _ => cases hsettled
  obtain ⟨-, hunsent⟩ | rfl := h.tasks hl ht
  · cases hs.symm.trans hunsent
  · exact ht

/-- And the run has ended, which was told. -/
theorem Stuck.ended (h : r.Stuck toValue polls) (hl : r.lock = .free) (htasks : r.Tasks)
    (ho : r.Owned) (he : r.Ends) {run : LiveRun} (hr : r.store.runs[id]? = some run)
    (hs : r.signalled id = true) : run.isActive = false ∧ run.completed = true := by
  have ht := h.done hl ho hr hs
  obtain ⟨run', hr', hend⟩ := htasks.places id _ ht
  cases hr.symm.trans hr'
  refine ⟨hend, ?_⟩
  obtain hdone | ⟨last, hlast⟩ := he.ended id run hr hend
  · exact hdone
  · cases ht.symm.trans hlast

theorem Stuck.cancels (h : r.Stuck toValue polls) (hl : r.lock = .free) (htasks : r.Tasks)
    (ho : r.Owned) (he : r.Ends) (hc : r.Cancels) {call : CancelCall}
    (hp : polls k) (hk : r.cancels[k]? = some call) : call.settled = true := by
  cases call with
  | taking id =>
    have := h.poll (a := .cancelTake k) rfl rfl hp
    simp only [step, cancelTake, hl, hk] at this
    split at this
    · cases this
    · split at this <;> cases this
  | sending id =>
    have := h.poll (a := .cancelSend k) rfl rfl hp
    simp [step, cancelSend, hk] at this
  | waiting id =>
    have howner := hc.owner k _ id hk rfl
    obtain ⟨run, hr⟩ : ∃ run, r.store.runs[id]? = some run := by
      refine Option.ne_none_iff_exists'.1 fun hn => ?_
      rw [hc.absent id hn] at howner
      cases howner
    obtain ⟨-, hdone⟩ := h.ended hl htasks ho he hr (he.sent k id hk)
    have := h.poll (a := .cancelWait k) rfl rfl hp
    simp [step, cancelWait, hk, hr, hdone] at this
  | returned id result => rfl

/-- **No deadlock in the registry.** -/
theorem Stuck.settled {acts : List (Act P)} (h : exec (Registry.step toValue) init acts = some r)
    (hstuck : r.Stuck toValue polls) : r.Settled polls := by
  have htasks := tasks_exec h
  have hl := hstuck.free htasks
  exact ⟨hl, fun k call hk => hstuck.starts hl hk,
    fun k call hp hk =>
      hstuck.cancels hl htasks (owned_exec h) (ends_exec h) (cancels_exec h) hp hk,
    fun id t ht => hstuck.tasks hl ht⟩

end Registry

end AgencyProxy.Runtime
