import AgencyProxy.Runtime.Cancel
import AgencyProxy.Runtime.Starts

/-!
# The cancellation signal

The task of a run looks at its cancellation receiver in one place, the `select` of its loop.
A signal that is sent while the task is still in the loop, with no failure in hand, is acted
on: the task calls `run.cancel()` and ends the run `Canceled`. One that is sent later goes
unread, and the task waits for `run.finish()` however long that takes.

`TaskMove` lists what a step of a task does; `Heeds` is the invariant from the signal on.
-/

namespace AgencyProxy.Runtime

open Std Lts

/-- What the task publishes for a run that it cancelled. -/
def canceledPublication : Publication := publishError "the run was canceled" .canceled

namespace Registry

variable {P : Type} {toValue : P → Except String Value} {r r' : Registry} {k : Nat} {id : RunId}

/-- The run whose task takes the step. -/
def Act.taskOf : Act P → Option RunId
  | .recv id _ | .sawCancel id | .canceled id | .finish id _ | .publish id | .complete id
  | .uncount id => some id
  | _ => none

/-- The step waits for the provider's next event or for its outcome. -/
def Act.awaits : Act P → Bool
  | .recv _ _ | .finish _ _ => true
  | _ => false

/-! ## One step of a task -/

/-- The state of every run stays. -/
def SameStates (r r' : Registry) : Prop :=
  ∀ (id : RunId) (run : LiveRun), r.store.runs[id]? = some run →
    ∃ run', r'.store.runs[id]? = some run' ∧ run'.snapshot.state = run.snapshot.state

theorem SameStates.of_store (h : r'.store = r.store) : SameStates r r' :=
  fun _ run hr => ⟨run, by rw [h]; exact hr, rfl⟩

/-- What the step of the task of `id` finds it at and leaves it at. -/
inductive TaskMove (r r' : Registry) (id : RunId) : RunTask → RunTask → Prop
  | receive (p : Publication) (unsent : r.signalled id = false) (kind : p.Live ∨ p.Fails)
      (states : SameStates r r') : TaskMove r r' id .selecting (.publishing p false)
  | ignore (unsent : r.signalled id = false) (states : SameStates r r') :
      TaskMove r r' id .selecting .selecting
  | ended (unsent : r.signalled id = false) (states : SameStates r r') :
      TaskMove r r' id .selecting .finishing
  | sawCancel (sent : r.signalled id = true) (states : SameStates r r') :
      TaskMove r r' id .selecting .cancelling
  | canceled (states : SameStates r r') :
      TaskMove r r' id .cancelling (.publishing canceledPublication true)
  | finished (p : Publication) (kind : p.state = some .completed ∨ p.Fails)
      (states : SameStates r r') : TaskMove r r' id .finishing (.publishing p true)
  | lost (p : Publication) (last : Bool) (absent : r.store.runs[id]? = none)
      (states : SameStates r r') : TaskMove r r' id (.publishing p last) (afterPublish last)
  | published (p : Publication) (last : Bool) (run : LiveRun) (free : r.lock = .free)
      (found : r.store.runs[id]? = some run) (t' : RunTask)
      (next : t' = if run.finishes p.state then .completing last else afterPublish last)
      (store : r'.store = r.store.publish id p.event p.state p.session) :
      TaskMove r r' id (.publishing p last) t'
  | complete (last : Bool) (states : SameStates r r') :
      TaskMove r r' id (.completing last) (.uncounting last)
  | uncount (last : Bool) (states : SameStates r r') :
      TaskMove r r' id (.uncounting last) (afterPublish last)

theorem complete_states (id : RunId) (tasks : ExtTreeMap RunId RunTask) :
    SameStates r { r with
      store := r.store.modify id fun run => { run with completed := true }, tasks } := by
  intro id' run hr
  cases hf : r.store.runs[id]? with
  | none => exact ⟨run, by simp only [Store.modify, hf]; exact hr, rfl⟩
  | some run₀ =>
    simp only [Store.modify, hf]
    by_cases he : id = id'
    · subst he
      cases hf.symm.trans hr
      exact ⟨_, ExtTreeMap.getElem?_insert_self, rfl⟩
    · exact ⟨run, by rw [ExtTreeMap.getElem?_insert_of_ne he]; exact hr, rfl⟩

/-- What a task step leaves alone: the starts, the signals and the other tasks. -/
structure OneTask (r r' : Registry) (id : RunId) : Prop where
  starts : r'.starts = r.starts
  signalled : r'.signalled = r.signalled
  others : ∀ id', id' ≠ id → r'.tasks[id']? = r.tasks[id']?
  lock : (r'.lock = r.lock ∧
      (r.tasks[id]?.any RunTask.holds = true → r'.tasks[id]?.any RunTask.holds = true)) ∨
    r'.lock = .free ∨ (r'.lock = .publishing id ∧ r'.tasks[id]?.any RunTask.holds = true)

theorem OneTask.of_insert {t t' : RunTask} {store : Store} {active : Nat}
    {uncounted : List (RunId × Nat)} {lock : Lock} (ht : r.tasks[id]? = some t)
    (hl : (lock = r.lock ∧ (t.holds = true → t'.holds = true)) ∨ lock = .free ∨
      (lock = .publishing id ∧ t'.holds = true)) :
    OneTask r { r with store, active, lock, uncounted, tasks := r.tasks.insert id t' } id := by
  refine ⟨rfl, rfl, fun id' hne => ExtTreeMap.getElem?_insert_of_ne (Ne.symm hne), ?_⟩
  rcases hl with ⟨hl, hh⟩ | hl | ⟨hl, hh⟩
  · exact .inl ⟨hl, by simpa [ht] using hh⟩
  · exact .inr (.inl hl)
  · exact .inr (.inr ⟨hl, by simpa using hh⟩)

/-- **One step of a task.** -/
theorem task_move {a : Act P} (ha : a.taskOf = some id) (h : r.step toValue a = some r') :
    OneTask r r' id ∧ ∃ t t', r.tasks[id]? = some t ∧ r'.tasks[id]? = some t' ∧
      TaskMove r r' id t t' := by
  cases a <;> cases ha
  case recv event =>
    obtain ⟨ht, hs, ⟨-, rfl⟩ | ⟨e, p, -, hp, rfl⟩ | rfl⟩ := recv_cases h
    · exact ⟨.of_insert ht (.inl ⟨rfl, fun hh => by cases hh⟩), _, _, ht, by simp,
        .ended hs (.of_store rfl)⟩
    · exact ⟨.of_insert ht (.inl ⟨rfl, fun hh => by cases hh⟩), _, _, ht, by simp,
        .receive p hs (publishProvider_kind hp) (.of_store rfl)⟩
    · exact ⟨⟨rfl, rfl, fun _ _ => rfl, .inl ⟨rfl, fun hh => hh⟩⟩, _, _, ht, ht,
        .ignore hs (.of_store rfl)⟩
  case sawCancel =>
    obtain ⟨ht, hs, rfl⟩ := sawCancel_cases h
    exact ⟨.of_insert ht (.inl ⟨rfl, fun hh => by cases hh⟩), _, _, ht, by simp,
      .sawCancel hs (.of_store rfl)⟩
  case canceled =>
    simp only [step, Registry.canceled] at h
    split at h
    · rename_i ht
      cases h
      exact ⟨.of_insert ht (.inl ⟨rfl, fun hh => by cases hh⟩), _, _, ht,
        ExtTreeMap.getElem?_insert_self, .canceled (.of_store rfl)⟩
    · cases h
  case finish outcome =>
    simp only [step, Registry.finish] at h
    split at h
    · rename_i ht
      cases h
      refine ⟨.of_insert ht (.inl ⟨rfl, fun hh => by cases hh⟩), _, _, ht,
        ExtTreeMap.getElem?_insert_self, .finished _ ?_ (.of_store rfl)⟩
      cases outcome with
      | ok outcome => exact publishFinished_kind outcome
      | error e => exact .inr rfl
    · cases h
  case publish =>
    obtain ⟨p, last, hl, ht, ⟨hn, rfl⟩ | ⟨run, hr, ⟨hf, rfl⟩ | ⟨hf, rfl⟩⟩⟩ := publish_cases h
    · exact ⟨.of_insert ht (.inl ⟨rfl, fun hh => by cases hh⟩), _, _, ht, by simp,
        .lost p last hn (.of_store rfl)⟩
    · exact ⟨.of_insert ht (.inr (.inr ⟨rfl, rfl⟩)), _, _, ht, ExtTreeMap.getElem?_insert_self,
        .published p last run hl hr _ (by simp [hf]) rfl⟩
    · exact ⟨.of_insert ht (.inl ⟨rfl, fun hh => by cases hh⟩), _, _, ht,
        ExtTreeMap.getElem?_insert_self, .published p last run hl hr _ (by simp [hf]) rfl⟩
  case complete =>
    obtain ⟨last, ht, rfl⟩ := complete_cases h
    exact ⟨.of_insert ht (.inl ⟨rfl, fun _ => rfl⟩), _, _, ht, by simp,
      .complete last (complete_states id _)⟩
  case uncount =>
    obtain ⟨last, ht, rfl⟩ := uncount_cases h
    exact ⟨.of_insert ht (.inr (.inl rfl)), _, _, ht, by simp, .uncount last (.of_store rfl)⟩

/-- A task step keeps the state of every other run. -/
theorem TaskMove.others {t t' : RunTask} {id' : RunId} {run : LiveRun}
    (h : TaskMove r r' id t t') (hne : id' ≠ id) (hr : r.store.runs[id']? = some run) :
    ∃ run', r'.store.runs[id']? = some run' ∧ run'.snapshot.state = run.snapshot.state := by
  cases h with
  | published p last run₀ _ hr₀ t' _ hstore =>
    refine ⟨run, ?_, rfl⟩
    rw [hstore, Store.publish_runs hr₀, ExtTreeMap.getElem?_insert_of_ne (Ne.symm hne)]
    exact hr
  | receive _ _ _ hst | ignore _ hst | ended _ hst | sawCancel _ hst | canceled hst
  | finished _ _ hst | lost _ _ _ hst | complete _ hst | uncount _ hst => exact hst id' run hr

/-! ## Every other step -/

/-- A step that no task takes keeps the state of every run and takes back no signal. -/
structure Untasked (r r' : Registry) : Prop where
  states : SameStates r r'
  signalled : ∀ id, r.signalled id = true → r'.signalled id = true
  tasks : r'.tasks = r.tasks ∨ ∃ (k : Nat) (id : RunId), r.starts[k]? = some (.spawning id) ∧
    r'.starts = r.starts.insert k (.returned id (.ok ())) ∧
    r'.tasks = r.tasks.insert id .selecting ∧ r'.signalled = r.signalled
  lock : (r'.lock = r.lock ∧ ∀ k : Nat, (∃ id, r.starts[k]? = some (.counting id)) →
      ∃ id, r'.starts[k]? = some (.counting id)) ∨
    r'.lock = .free ∨ ∃ (k : Nat) (id : RunId), r'.lock = .starting k ∧
      r'.starts[k]? = some (.counting id)

theorem Untasked.of_fields (hst : SameStates r r') (hs : r'.signalled = r.signalled)
    (ht : r'.tasks = r.tasks) (hl : r'.lock = r.lock) (hk : r'.starts = r.starts) :
    Untasked r r' :=
  ⟨hst, fun _ h => by rw [hs]; exact h, .inl ht, .inl ⟨hl, fun k hc => by rw [hk]; exact hc⟩⟩

/-- A call that is not inserting moves on. -/
theorem Untasked.setStart {call call' : StartCall} {launched : List (Nat × RunId)}
    (hk : r.starts[k]? = some call ∨ r.starts[k]? = none) (hc : ∀ id, call ≠ .counting id) :
    Untasked r { r with starts := r.starts.insert k call', launched } := by
  refine ⟨.of_store rfl, fun _ h => h, .inl rfl, .inl ⟨rfl, fun k' hcount => ?_⟩⟩
  obtain ⟨id, hcount⟩ := hcount
  refine ⟨id, ?_⟩
  rw [ExtTreeMap.getElem?_insert_of_ne]
  · exact hcount
  · rintro rfl
    rcases hk with hk | hk
    · cases hk.symm.trans hcount; exact hc id rfl
    · cases hk.symm.trans hcount

theorem insert_states {run run' : LiveRun} (hr : r.store.runs[id]? = some run)
    (hs : run'.snapshot.state = run.snapshot.state)
    (h : r'.store.runs = r.store.runs.insert id run') : SameStates r r' := by
  intro id' run₀ hr₀
  rw [h]
  by_cases he : id = id'
  · subst he
    cases hr.symm.trans hr₀
    exact ⟨run', ExtTreeMap.getElem?_insert_self, hs⟩
  · exact ⟨run₀, by rw [ExtTreeMap.getElem?_insert_of_ne he]; exact hr₀, rfl⟩

theorem client_untasked {a : Act P} (ha : a.isClient = true) (h : r.step toValue a = some r') :
    Untasked r r' := by
  obtain rfl | ⟨id, run, run', hr, ht, -, -, rfl⟩ := client_cases ha h
  · exact .of_fields (.of_store rfl) rfl rfl rfl rfl
  · exact .of_fields (insert_states hr ht.state rfl) rfl rfl rfl rfl

theorem step_untasked {a : Act P} (ha : a.taskOf = none) (h : r.step toValue a = some r') :
    Untasked r r' := by
  cases a <;> try cases ha
  case startCall k id spec =>
    obtain ⟨hk, rfl⟩ := startCall_cases h
    have hnew : ∀ id', StartCall.checking id spec ≠ .counting id' := fun _ he => by cases he
    exact .setStart (.inr hk) hnew
  case startCheck k =>
    obtain ⟨id, spec, call, -, hk, -, rfl⟩ := startCheck_cases h
    exact .setStart (.inl hk) (fun _ he => by cases he)
  case startLaunch k launched =>
    obtain ⟨id, spec, call, log, hk, -, rfl⟩ := startLaunch_cases h
    exact .setStart (.inl hk) (fun _ he => by cases he)
  case startInsert k =>
    obtain ⟨id, spec, -, hk, ⟨-, rfl⟩ | ⟨hn, rfl⟩⟩ := startInsert_cases h
    · exact .setStart (.inl hk) (fun _ he => by cases he)
    · refine ⟨fun id' run hr => ⟨run, ?_, rfl⟩, fun _ h => h, .inl rfl,
        .inr (.inr ⟨k, id, rfl, by simp⟩)⟩
      have hne : id ≠ id' := by rintro rfl; cases hn.symm.trans hr
      rw [ExtTreeMap.getElem?_insert_of_ne hne]
      exact hr
  case startCount k =>
    obtain ⟨id, -, rfl⟩ := startCount_cases h
    exact ⟨.of_store rfl, fun _ h => h, .inl rfl, .inr (.inl rfl)⟩
  case startSpawn k =>
    obtain ⟨id, hk, rfl⟩ := startSpawn_cases h
    refine ⟨.of_store rfl, fun _ h => h, .inr ⟨k, id, hk, rfl, rfl, rfl⟩,
      .inl ⟨rfl, fun k' hc => ?_⟩⟩
    obtain ⟨id', hc⟩ := hc
    refine ⟨id', ?_⟩
    rw [ExtTreeMap.getElem?_insert_of_ne]
    · exact hc
    · rintro rfl; cases hk.symm.trans hc
  case cancelCall k id =>
    obtain ⟨-, rfl⟩ := cancelCall_cases h
    exact .of_fields (.of_store rfl) rfl rfl rfl rfl
  case cancelTake k =>
    obtain ⟨id, -, -, ⟨e, -, rfl⟩ | ⟨run, hr, -, rfl⟩⟩ := cancelTake_cases h
    · exact .of_fields (.of_store rfl) rfl rfl rfl rfl
    · exact .of_fields (insert_states hr (by rfl) rfl) rfl rfl rfl rfl
  case cancelSend k =>
    obtain ⟨id, -, rfl⟩ := cancelSend_cases h
    refine ⟨.of_store rfl, fun id' hs => ?_, .inl rfl, .inl ⟨rfl, fun _ hc => hc⟩⟩
    by_cases he : id' = id
    · subst he; exact Function.update_self ..
    · dsimp only
      rw [Function.update_of_ne he]
      exact hs
  case cancelWait k =>
    obtain ⟨id, run, -, -, -, rfl⟩ := cancelWait_cases h
    exact .of_fields (.of_store rfl) rfl rfl rfl rfl
  case cancelAll =>
    obtain ⟨-, rfl⟩ := cancelAll_cases h
    refine ⟨fun id run hr => ⟨Registry.sweep run, ?_, (sweep_touch run).state⟩,
      fun id hs => by simp [hs], .inl rfl, .inl ⟨rfl, fun _ hc => hc⟩⟩
    rw [ExtTreeMap.getElem?_map, hr]
    rfl
  all_goals exact client_untasked rfl h

/-- A send leaves the tasks and the states. -/
theorem send_cases {a : Act P} (h : r.step toValue a = some r') (hu : r.signalled id = false)
    (hs : r'.signalled id = true) : r'.tasks = r.tasks ∧ SameStates r r' := by
  cases ht : a.taskOf with
  | some id' =>
    rw [(task_move ht h).1.signalled, hu] at hs
    cases hs
  | none =>
    have hm := step_untasked ht h
    rcases hm.tasks with he | ⟨k, id', -, -, -, he⟩
    · exact ⟨he, hm.states⟩
    · rw [he, hu] at hs
      cases hs

/-! ## Where a task can be -/

/-- What the place of a task says of its run; `sent` is whether its signal was sent. -/
def Place (sent active : Bool) : RunTask → Prop
  | .selecting | .finishing => True
  | .cancelling => sent = true
  | .publishing p last =>
    if last then p.state = some .completed ∨ p.Fails ∨ (p = canceledPublication ∧ sent = true)
    else p.Live ∨ p.Fails
  | .completing _ | .uncounting _ | .done => active = false

theorem Place.mono {sent sent' active : Bool} {t : RunTask} (h : Place sent active t)
    (hs : sent = true → sent' = true) : Place sent' active t := by
  cases t with
  | publishing p last =>
    cases last with
    | false => exact h
    | true =>
      obtain hc | hf | ⟨hp, hsent⟩ := h
      · exact .inl hc
      · exact .inr (.inl hf)
      · exact .inr (.inr ⟨hp, hs hsent⟩)
  | cancelling => exact hs h
  | _ => exact h

/-- The lock and the tasks, whatever does not serialise. -/
structure Tasks (r : Registry) : Prop where
  owned : ∀ (id : RunId) (t : RunTask), r.tasks[id]? = some t →
    ∃ k : Nat, r.starts[k]? = some (.returned id (.ok ()))
  places : ∀ (id : RunId) (t : RunTask), r.tasks[id]? = some t →
    ∃ run, r.store.runs[id]? = some run ∧ Place (r.signalled id) run.isActive t
  starting : ∀ k : Nat, r.lock = .starting k → ∃ id, r.starts[k]? = some (.counting id)
  publishing : ∀ id : RunId, r.lock = .publishing id → r.tasks[id]?.any RunTask.holds = true

theorem tasks_init : init.Tasks where
  owned id t h := by simp [init] at h
  places id t h := by simp [init] at h
  starting k h := by cases h
  publishing id h := by cases h

/-- A call that has returned stays. -/
theorem returned_step {a : Act P} {result : Except RuntimeError Unit}
    (h : r.step toValue a = some r') (hk : r.starts[k]? = some (.returned id result)) :
    r'.starts[k]? = some (.returned id result) := by
  by_cases ha : a.startOf = some k
  · obtain ⟨call', -, hm⟩ := start_move ha h
    rw [hk] at hm
    cases hm with
    | fail id spec call e place hu => simp at place
  · rw [start_other ha h, hk]

theorem SameStates.place {t : RunTask} {run : LiveRun} {sent : Bool} (h : SameStates r r')
    (hr : r.store.runs[id]? = some run) (hp : Place sent run.isActive t) :
    ∃ run', r'.store.runs[id]? = some run' ∧ Place sent run'.isActive t := by
  obtain ⟨run', hr', hs⟩ := h id run hr
  refine ⟨run', hr', ?_⟩
  rw [LiveRun.isActive, hs]
  exact hp

/-- A publication of a task leaves the run where the next place of the task has it. -/
theorem published_place {p : Publication} {last : Bool} {run : LiveRun} {sent : Bool}
    (hp : Place sent run.isActive (.publishing p last)) (id : RunId) :
    Place sent (run.publish id p.event p.state p.session).isActive
      (if run.finishes p.state then .completing last else afterPublish last) := by
  cases hf : run.finishes p.state with
  | true =>
    simp only [LiveRun.finishes, Bool.and_eq_true, Bool.not_eq_true'] at hf
    exact hf.2
  | false =>
    cases last with
    | false => trivial
    | true =>
      have hend : isActiveState (p.state.getD run.snapshot.state) = false := by
        obtain hc | hc | ⟨rfl, -⟩ := hp
        · rw [hc]; rfl
        · rw [show p.state = some .failed from hc]; rfl
        · rfl
      exact hend

theorem Tasks.task_step {a : Act P} (h : r.Tasks) (ha : a.taskOf = some id)
    (hs : r.step toValue a = some r') : r'.Tasks := by
  obtain ⟨hone, t, t', ht, ht', hm⟩ := task_move ha hs
  obtain ⟨run, hr, hp⟩ := h.places id t ht
  have hsame : SameStates r r' → Place (r.signalled id) run.isActive t' →
      ∃ run', r'.store.runs[id]? = some run' ∧ Place (r'.signalled id) run'.isActive t' :=
    fun hst hpl => by rw [hone.signalled]; exact hst.place hr hpl
  have hplace : ∃ run', r'.store.runs[id]? = some run' ∧
      Place (r'.signalled id) run'.isActive t' := by
    cases hm with
    | receive p _ hk hst => exact hsame hst hk
    | ignore _ hst => exact hsame hst trivial
    | ended _ hst => exact hsame hst trivial
    | sawCancel hsent hst => exact hsame hst hsent
    | canceled hst => exact hsame hst (.inr (.inr ⟨rfl, hp⟩))
    | finished p hk hst => exact hsame hst (hk.elim .inl fun hf => .inr (.inl hf))
    | lost p last hn _ => cases hn.symm.trans hr
    | published p last run₀ _ hr₀ t' hnext hstore =>
      cases hr₀.symm.trans hr
      refine ⟨_, by rw [hstore, Store.publish_runs hr]; exact ExtTreeMap.getElem?_insert_self, ?_⟩
      rw [hone.signalled, hnext]
      exact published_place hp id
    | complete last hst => exact hsame hst hp
    | uncount last hst =>
      refine hsame hst ?_
      cases last with
      | false => trivial
      | true => exact hp
  refine ⟨fun id' t₀ h₀ => ?_, fun id' t₀ h₀ => ?_, fun k hl => ?_, fun id' hl => ?_⟩
  · rw [hone.starts]
    by_cases he : id' = id
    · subst he; exact h.owned id' t ht
    · exact h.owned id' t₀ (by rw [← hone.others id' he]; exact h₀)
  · by_cases he : id' = id
    · subst he
      cases ht'.symm.trans h₀
      exact hplace
    · rw [hone.others id' he] at h₀
      obtain ⟨run₀, hr₀, hp₀⟩ := h.places id' t₀ h₀
      rw [hone.signalled]
      obtain ⟨run₁, hr₁, hst⟩ := hm.others he hr₀
      exact ⟨run₁, hr₁, by rw [LiveRun.isActive, hst]; exact hp₀⟩
  · rw [hone.starts]
    rcases hone.lock with ⟨he, -⟩ | he | ⟨he, -⟩
    · exact h.starting k (he.symm.trans hl)
    · rw [he] at hl; cases hl
    · rw [he] at hl; cases hl
  · rcases hone.lock with ⟨he, hh⟩ | he | ⟨he, hh⟩
    · have hold := h.publishing id' (he.symm.trans hl)
      by_cases hid : id' = id
      · subst hid; exact hh hold
      · rw [hone.others id' hid]; exact hold
    · rw [he] at hl; cases hl
    · rw [he] at hl; cases hl; exact hh

theorem Tasks.other_step {a : Act P} (h : r.Tasks) (ho : r.Owners) (ha : a.taskOf = none)
    (hs : r.step toValue a = some r') : r'.Tasks := by
  have hm := step_untasked ha hs
  have hplace : ∀ (id : RunId) (t : RunTask), r.tasks[id]? = some t →
      ∃ run, r'.store.runs[id]? = some run ∧ Place (r'.signalled id) run.isActive t := by
    intro id t ht
    obtain ⟨run, hr, hp⟩ := h.places id t ht
    exact hm.states.place hr (hp.mono (hm.signalled id))
  have howned : ∀ (id : RunId) (t : RunTask), r.tasks[id]? = some t →
      ∃ k : Nat, r'.starts[k]? = some (.returned id (.ok ())) := by
    intro id t ht
    obtain ⟨k, hk⟩ := h.owned id t ht
    exact ⟨k, returned_step hs hk⟩
  refine ⟨fun id t ht => ?_, fun id t ht => ?_, fun k hl => ?_, fun id hl => ?_⟩
  · rcases hm.tasks with he | ⟨k, id', hk, hstarts, he, -⟩
    · exact howned id t (he ▸ ht)
    · rw [he] at ht
      rcases ExtTreeMap.getElem?_insert_some.1 ht with ⟨rfl, -⟩ | ⟨-, ht⟩
      · exact ⟨k, by rw [hstarts]; simp⟩
      · exact howned id t ht
  · rcases hm.tasks with he | ⟨k, id', hk, -, he, -⟩
    · exact hplace id t (he ▸ ht)
    · rw [he] at ht
      rcases ExtTreeMap.getElem?_insert_some.1 ht with ⟨rfl, rfl⟩ | ⟨-, ht⟩
      · obtain ⟨run, hr⟩ := Option.ne_none_iff_exists'.1 (ho.found k _ id' hk rfl)
        obtain ⟨run', hr', -⟩ := hm.states id' run hr
        exact ⟨run', hr', trivial⟩
      · exact hplace id t ht
  · rcases hm.lock with ⟨he, hcount⟩ | he | ⟨k', id, he, hk'⟩
    · exact hcount k (h.starting k (he.symm.trans hl))
    · rw [he] at hl; cases hl
    · rw [he] at hl; cases hl; exact ⟨id, hk'⟩
  · have hold : r.lock = .publishing id := by
      rcases hm.lock with ⟨he, -⟩ | he | ⟨k', id', he, -⟩
      · exact he.symm.trans hl
      · rw [he] at hl; cases hl
      · rw [he] at hl; cases hl
    have hh := h.publishing id hold
    rcases hm.tasks with he | ⟨k, id', hk, -, he, -⟩
    · rw [he]; exact hh
    · have hne : id' ≠ id := by
        rintro rfl
        -- The call that spawns the task has not returned.
        obtain ⟨t, ht, -⟩ := (Option.any_eq_true _ _).1 hh
        obtain ⟨k', hk'⟩ := h.owned id' t ht
        cases ho.unique k k' _ _ id' hk hk' rfl rfl
        cases hk.symm.trans hk'
      rw [he, ExtTreeMap.getElem?_insert_of_ne hne]
      exact hh

theorem tasks_exec {acts : List (Act P)} (h : exec (step toValue) init acts = some r) :
    r.Tasks := by
  refine (exec_inv' (I := fun r => r.Owners ∧ r.Tasks) ?_ ⟨owners_init, tasks_init⟩ h).2
  rintro r a r' ⟨ho, ht⟩ hs
  refine ⟨ho.step hs, ?_⟩
  cases ha : a.taskOf with
  | some id => exact ht.task_step ha hs
  | none => exact ht.other_step ho ha hs

/-! ## A signal in time -/

/-- The task of the run, if it is there, is in its loop and has no failure in hand. -/
def Listens (r : Registry) (id : RunId) : Prop :=
  match r.tasks[id]? with
  | none | some .selecting => True
  | some (.publishing p false) => p.Live
  | _ => False

/-- How many steps the task takes to its end once its signal is sent. -/
def stepsLeft : Option RunTask → Nat
  | some (.publishing _ false) => 6
  | none | some .selecting => 5
  | some .cancelling => 4
  | some (.publishing _ true) => 3
  | some (.completing _) => 2
  | some (.uncounting _) => 1
  | _ => 0

/-- The task has called `run.cancel()`, and the call has returned. -/
def hasCancelled : Option RunTask → Bool
  | some (.publishing _ true) | some (.completing _) | some (.uncounting _) | some .done => true
  | _ => false

/-- The run of a task that heeds its signal. -/
def Heeding (state : RunState) : Option RunTask → Prop
  | none | some .selecting | some .cancelling => isActiveState state = true
  | some (.publishing p last) =>
    isActiveState state = true ∧ if last then p = canceledPublication else p.Live
  | some (.completing last) | some (.uncounting last) => last = true ∧ state = .canceled
  | some .done => state = .canceled
  | some .finishing => False

/-- The signal of the run was sent, and its task heeds it. -/
structure Heeds (r : Registry) (id : RunId) : Prop where
  sent : r.signalled id = true
  run : ∃ run : LiveRun, r.store.runs[id]? = some run ∧
    Heeding run.snapshot.state r.tasks[id]?

theorem SameStates.heeding {t : Option RunTask} {run : LiveRun} (h : SameStates r r')
    (hr : r.store.runs[id]? = some run) (hh : Heeding run.snapshot.state t) :
    ∃ run', r'.store.runs[id]? = some run' ∧ Heeding run'.snapshot.state t := by
  obtain ⟨run', hr', hs⟩ := h id run hr
  exact ⟨run', hr', by rw [hs]; exact hh⟩

/-- A task that heeds its signal ends its run with its last publication, and not before. -/
theorem finishes_of_heeding {p : Publication} {last : Bool} {run : LiveRun}
    (h : Heeding run.snapshot.state (some (.publishing p last))) :
    run.finishes p.state = last := by
  obtain ⟨hact, hp⟩ := h
  cases last with
  | false =>
    obtain ⟨state, hs, hlive⟩ := hp
    simp [LiveRun.finishes, hs, hlive]
  | true =>
    cases hp
    simp only [LiveRun.finishes, hact]
    rfl

theorem published_heeding {p : Publication} {last : Bool} {run : LiveRun}
    (h : Heeding run.snapshot.state (some (.publishing p last))) (id : RunId) :
    Heeding (run.publish id p.event p.state p.session).snapshot.state
      (some (if last then .completing last else afterPublish last)) := by
  obtain ⟨-, hp⟩ := h
  cases last with
  | false =>
    obtain ⟨state, hs, hlive⟩ := hp
    change isActiveState (p.state.getD run.snapshot.state) = true
    rw [hs]
    exact hlive
  | true => cases hp; exact ⟨rfl, rfl⟩

/-- A task leaves `run.cancel()` when it returns. -/
theorem canceled_of_cancelling {a : Act P} (ht : r.tasks[id]? = some .cancelling)
    (ha : a.taskOf = some id) (hs : r.step toValue a = some r') : a = .canceled id := by
  cases a <;> cases ha
  case recv event => cases (recv_cases hs).1.symm.trans ht
  case sawCancel => cases (sawCancel_cases hs).1.symm.trans ht
  case canceled => rfl
  case finish outcome => cases (finish_cases hs).1.symm.trans ht
  case publish => obtain ⟨p, last, -, hp, -⟩ := publish_cases hs; cases hp.symm.trans ht
  case complete => obtain ⟨last, hc, -⟩ := complete_cases hs; cases hc.symm.trans ht
  case uncount => obtain ⟨last, hc, -⟩ := uncount_cases hs; cases hc.symm.trans ht

/-- **One step of a task that heeds its signal** takes it one step nearer to its end. -/
theorem Heeds.own_step {a : Act P} (h : r.Heeds id) (ha : a.taskOf = some id)
    (hs : r.step toValue a = some r') :
    r'.Heeds id ∧ stepsLeft r'.tasks[id]? + 1 = stepsLeft r.tasks[id]? ∧
      (hasCancelled r'.tasks[id]? = true → hasCancelled r.tasks[id]? = false →
        a = .canceled id) := by
  obtain ⟨hone, t, t', ht, ht', hm⟩ := task_move ha hs
  obtain ⟨hsent, run, hr, hh⟩ := h
  rw [ht] at hh
  have hsent' : r'.signalled id = true := by rw [hone.signalled]; exact hsent
  rw [ht, ht']
  have hkeep (hst : SameStates r r') (hn : Heeding run.snapshot.state (some t')) :
      r'.Heeds id := ⟨hsent', by rw [ht']; exact hst.heeding hr hn⟩
  cases hm with
  | receive p hu | ignore hu | ended hu => rw [hsent] at hu; cases hu
  | sawCancel _ hst => exact ⟨hkeep hst hh, rfl, fun hc => by cases hc⟩
  | canceled hst =>
    exact ⟨hkeep hst ⟨hh, rfl⟩, rfl, fun _ _ => canceled_of_cancelling ht ha hs⟩
  | finished => exact hh.elim
  | lost p last hn => cases hn.symm.trans hr
  | published p last run₀ _ hr₀ t' hnext hstore =>
    cases hr₀.symm.trans hr
    have hh' := published_heeding hh id
    rw [finishes_of_heeding hh] at hnext
    rw [← hnext] at hh'
    refine ⟨⟨hsent', _, ?_, by rw [ht']; exact hh'⟩, ?_⟩
    · rw [hstore, Store.publish_runs hr]
      exact ExtTreeMap.getElem?_insert_self
    · rw [hnext]
      cases last with
      | false => exact ⟨rfl, fun hc => by cases hc⟩
      | true => exact ⟨rfl, fun _ hc => by cases hc⟩
  | complete last hst => exact ⟨hkeep hst hh, rfl, fun _ hc => by cases hc⟩
  | uncount last hst =>
    obtain ⟨rfl, hc⟩ := hh
    exact ⟨hkeep hst hc, rfl, fun _ hc => by cases hc⟩

/-- Any other step leaves the task where it is; a task that is spawned starts in its loop. -/
theorem Heeds.other_step {a : Act P} (h : r.Heeds id) (htasks : r.Tasks) (ho : r.Owners)
    (ha : a.taskOf ≠ some id) (hs : r.step toValue a = some r') :
    r'.Heeds id ∧ stepsLeft r'.tasks[id]? = stepsLeft r.tasks[id]? ∧
      hasCancelled r'.tasks[id]? = hasCancelled r.tasks[id]? := by
  obtain ⟨hsent, run, hr, hh⟩ := h
  cases hown : a.taskOf with
  | some id' =>
    obtain ⟨hone, t, t', -, -, hm⟩ := task_move hown hs
    have hne : id ≠ id' := by rintro rfl; exact ha hown
    obtain ⟨run', hr', hst⟩ := hm.others hne hr
    rw [hone.others id hne]
    refine ⟨⟨by rw [hone.signalled]; exact hsent, run', hr', ?_⟩, rfl, rfl⟩
    rw [hone.others id hne, hst]
    exact hh
  | none =>
    have hm := step_untasked hown hs
    obtain ⟨run', hr', hst⟩ := hm.states id run hr
    rcases hm.tasks with he | ⟨k, id', hk, -, he, -⟩
    · rw [he]
      refine ⟨⟨hm.signalled id hsent, run', hr', ?_⟩, rfl, rfl⟩
      rw [he, hst]
      exact hh
    · by_cases hid : id' = id
      · subst hid
        have hnone : r.tasks[id']? = none := by
          cases ht : r.tasks[id']? with
          | none => rfl
          | some t =>
            obtain ⟨k', hk'⟩ := htasks.owned id' t ht
            cases ho.unique k k' _ _ id' hk hk' rfl rfl
            cases hk.symm.trans hk'
        have hsome : r'.tasks[id']? = some .selecting := by rw [he]; simp
        rw [hnone] at hh ⊢
        rw [hsome]
        refine ⟨⟨hm.signalled id' hsent, run', hr', ?_⟩, rfl, rfl⟩
        rw [hsome, hst]
        exact hh
      · have hsame : r'.tasks[id]? = r.tasks[id]? := by
          rw [he, ExtTreeMap.getElem?_insert_of_ne hid]
        rw [hsame]
        refine ⟨⟨hm.signalled id hsent, run', hr', ?_⟩, rfl, rfl⟩
        rw [hsame, hst]
        exact hh

/-- **Run lemma**: from a state in which the task heeds its signal, every step of the task takes
it nearer to its end, and it gets past `run.cancel()` by that call only. -/
theorem heeds_exec {later : List (Act P)} (h : r.Heeds id) (htasks : r.Tasks) (ho : r.Owners)
    (hl : exec (step toValue) r later = some r') :
    r'.Heeds id ∧ r'.Tasks ∧
      (later.filter (·.taskOf = some id)).length + stepsLeft r'.tasks[id]? =
        stepsLeft r.tasks[id]? ∧
      (hasCancelled r'.tasks[id]? = true → hasCancelled r.tasks[id]? = false →
        .canceled id ∈ later) := by
  induction later generalizing r with
  | nil =>
    cases hl
    refine ⟨h, htasks, by simp, fun ht hf => ?_⟩
    rw [ht] at hf
    cases hf
  | cons a later ih =>
    obtain ⟨m, hm, hl⟩ := exec_cons_some.1 hl
    have htm : m.Tasks := by
      cases ha : a.taskOf with
      | some id => exact htasks.task_step ha hm
      | none => exact htasks.other_step ho ha hm
    by_cases ha : a.taskOf = some id
    · obtain ⟨hh, hleft, hcan⟩ := h.own_step ha hm
      obtain ⟨hh', ht', hleft', hcan'⟩ := ih hh htm (ho.step hm) hl
      refine ⟨hh', ht', ?_, fun hp hf => ?_⟩
      · simp only [ha, List.filter_cons, decide_true, if_true, List.length_cons]
        omega
      · cases hmid : hasCancelled m.tasks[id]? with
        | true => rw [hcan hmid hf]; exact List.mem_cons_self
        | false => exact List.mem_cons_of_mem _ (hcan' hp hmid)
    · obtain ⟨hh, hleft, hcan⟩ := h.other_step htasks ho ha hm
      obtain ⟨hh', ht', hleft', hcan'⟩ := ih hh htm (ho.step hm) hl
      refine ⟨hh', ht', ?_, fun hp hf => List.mem_cons_of_mem _ (hcan' hp (hcan ▸ hf))⟩
      simp only [ha, List.filter_cons, decide_false]
      rw [← hleft]
      exact hleft'

/-! ## Acting on a signal -/

/-- What a cancellation signal that was sent to an active run is to bring about, seen in the
state `r` that `later` leads to from there. -/
structure Obeyed (toValue : P → Except String Value) (id : RunId) (later : List (Act P))
    (r : Registry) : Prop where
  /-- The task does not wait for the outcome. -/
  waits : r.tasks[id]? ≠ some .finishing
  /-- Unless another task is in a critical section, the task is done or can go on, whatever the
  provider does. -/
  moves : r.lock = .free ∨ r.lock = .publishing id → ∀ t, r.tasks[id]? = some t →
    t = .done ∨ ∃ a : Act P, a.taskOf = some id ∧ a.awaits = false ∧ r.step toValue a ≠ none
  /-- It has at most six steps to go. -/
  steps : (later.filter (·.taskOf = some id)).length ≤ 6
  /-- A run that has ended was cancelled. -/
  canceled : ∀ run : LiveRun, r.store.runs[id]? = some run → run.isActive = false →
    run.snapshot.state = .canceled ∧ .canceled id ∈ later

theorem stepsLeft_le (t : Option RunTask) : stepsLeft t ≤ 6 := by
  unfold stepsLeft
  split <;> omega

/-- The next step of a task that heeds its signal. -/
theorem Heeds.moves (toValue : P → Except String Value) (h : r.Heeds id) (htasks : r.Tasks)
    (hl : r.lock = .free ∨ r.lock = .publishing id) {t : RunTask} (ht : r.tasks[id]? = some t) :
    t = .done ∨ ∃ a : Act P, a.taskOf = some id ∧ a.awaits = false ∧ r.step toValue a ≠ none := by
  obtain ⟨hsent, run, hr, hh⟩ := h
  rw [ht] at hh
  cases t with
  | selecting =>
    exact .inr ⟨.sawCancel id, rfl, rfl, by simp [step, Registry.sawCancel, ht, hsent]⟩
  | publishing p last =>
    have hfree : r.lock = .free := by
      rcases hl with hl | hl
      · exact hl
      · have hholds := htasks.publishing id hl
        rw [ht] at hholds
        cases hholds
    refine .inr ⟨.publish id, rfl, rfl, ?_⟩
    simp only [step, Registry.publish, hfree, ht, hr]
    split <;> simp
  | completing last => exact .inr ⟨.complete id, rfl, rfl, by simp [step, Registry.complete, ht]⟩
  | uncounting last => exact .inr ⟨.uncount id, rfl, rfl, by simp [step, Registry.uncount, ht]⟩
  | cancelling => exact .inr ⟨.canceled id, rfl, rfl, by simp [step, Registry.canceled, ht]⟩
  | finishing => exact hh.elim
  | done => exact .inl rfl

theorem Heeds.ended (h : r.Heeds id) {run : LiveRun} (hr : r.store.runs[id]? = some run)
    (hend : run.isActive = false) :
    run.snapshot.state = .canceled ∧ hasCancelled r.tasks[id]? = true := by
  obtain ⟨-, run', hr', hh⟩ := h
  cases hr'.symm.trans hr
  have hno : ¬ isActiveState run.snapshot.state = true := by
    rw [show isActiveState run.snapshot.state = false from hend]
    simp
  generalize r.tasks[id]? = task at hh
  cases task with
  | none => exact absurd hh hno
  | some t =>
    cases t with
    | selecting | cancelling => exact absurd hh hno
    | publishing p last => exact absurd hh.1 hno
    | completing last | uncounting last => exact ⟨hh.2, rfl⟩
    | done => exact ⟨hh, rfl⟩
    | finishing => exact hh.elim

/-- A signal in time is heeded. -/
theorem Listens.heeds {a : Act P} {run : LiveRun} (h : r.Listens id)
    (hs : r.step toValue a = some r') (hu : r.signalled id = false)
    (hs' : r'.signalled id = true) (hr : r.store.runs[id]? = some run)
    (hact : run.isActive = true) : r'.Heeds id ∧ hasCancelled r'.tasks[id]? = false := by
  obtain ⟨ht, hst⟩ := send_cases hs hu hs'
  obtain ⟨run', hr', he⟩ := hst id run hr
  rw [ht]
  have hact' : isActiveState run'.snapshot.state = true := by rw [he]; exact hact
  unfold Listens at h
  split at h
  · rename_i hn
    rw [hn]
    exact ⟨⟨hs', run', hr', by rw [ht, hn]; exact hact'⟩, rfl⟩
  · rename_i hn
    rw [hn]
    exact ⟨⟨hs', run', hr', by rw [ht, hn]; exact hact'⟩, rfl⟩
  · rename_i p hn
    rw [hn]
    exact ⟨⟨hs', run', hr', by rw [ht, hn]; exact ⟨hact', h⟩⟩, rfl⟩
  · exact h.elim

/-- Whoever is in a critical section can leave it, without touching a run whose task is not. -/
theorem Tasks.unlock (toValue : P → Except String Value) (h : r.Tasks) {t : RunTask}
    {run : LiveRun} (ht : r.tasks[id]? = some t) (hh : t.holds = false)
    (hr : r.store.runs[id]? = some run) :
    ∃ (ms : List (Act P)) (m : Registry) (run' : LiveRun),
      exec (step toValue) r ms = some m ∧ m.lock = .free ∧ m.tasks[id]? = some t ∧
        m.store.runs[id]? = some run' ∧ run'.snapshot.state = run.snapshot.state := by
  cases hl : r.lock with
  | free => exact ⟨[], r, run, rfl, hl, ht, hr, rfl⟩
  | starting k =>
    obtain ⟨id', hk⟩ := h.starting k hl
    have hc : r.step toValue (.startCount k) = some { r with
        active := r.active + 1, lock := .free, starts := r.starts.insert k (.spawning id') } := by
      simp only [step, Registry.startCount, hk]
    exact ⟨[.startCount k], _, run, exec_single.2 hc, rfl, ht, hr, rfl⟩
  | publishing id' =>
    obtain ⟨t', ht', hh'⟩ := (Option.any_eq_true _ _).1 (h.publishing id' hl)
    have hne : id' ≠ id := by
      rintro rfl
      cases ht.symm.trans ht'
      rw [hh] at hh'
      cases hh'
    have hleave : ∀ (m : Registry) (last : Bool), m.tasks[id']? = some (.uncounting last) →
        m.step toValue (.uncount id') = some { m with
          active := m.active - 1, lock := .free
          tasks := m.tasks.insert id' (afterPublish last)
          uncounted := m.uncounted ++ [(id', m.active)] } := fun m last hm => by
      simp only [step, Registry.uncount, hm]
    cases t' with
    | completing last =>
      have hc : r.step toValue (.complete id') = some { r with
          store := r.store.modify id' fun run => { run with completed := true }
          tasks := r.tasks.insert id' (.uncounting last) } := by
        simp only [step, Registry.complete, ht']
      obtain ⟨run', hr', hs⟩ := complete_states (r := r) id' (r.tasks.insert id' (.uncounting last))
        id run hr
      refine ⟨[.complete id', .uncount id'], _, run', exec_cons_some.2 ⟨_, hc,
        exec_single.2 (hleave _ last (by simp))⟩, rfl, ?_, hr', hs⟩
      simp only [ExtTreeMap.getElem?_insert_of_ne hne]
      exact ht
    | uncounting last =>
      refine ⟨[.uncount id'], _, run, exec_single.2 (hleave r last ht'), rfl, ?_, hr, rfl⟩
      simp only [ExtTreeMap.getElem?_insert_of_ne hne]
      exact ht
    | _ => cases hh'

/-- A run whose task has another end in hand can end otherwise than `Canceled`. -/
theorem Tasks.not_canceled (toValue : P → Except String Value) (h : r.Tasks) {p : Publication}
    {last : Bool} {run : LiveRun} (ht : r.tasks[id]? = some (.publishing p last))
    (hp : p.state = some .completed ∨ p.Fails) (hr : r.store.runs[id]? = some run) :
    ∃ (later : List (Act P)) (m : Registry) (run' : LiveRun),
      exec (step toValue) r later = some m ∧ m.store.runs[id]? = some run' ∧
        run'.isActive = false ∧ run'.snapshot.state ≠ .canceled := by
  obtain ⟨ms, m, run', hm, hfree, htm, hrm, -⟩ := h.unlock toValue ht rfl hr
  obtain ⟨m', hpub⟩ : ∃ m', m.step toValue (.publish id) = some m' := by
    simp only [step, Registry.publish, hfree, htm, hrm]
    split
    · exact ⟨_, rfl⟩
    · exact ⟨_, rfl⟩
  obtain ⟨-, t, t', ht', -, hmove⟩ := task_move (a := .publish id) rfl hpub
  cases htm.symm.trans ht'
  cases hmove with
  | lost _ _ hn => cases hn.symm.trans hrm
  | published _ _ run₀ _ hr₀ t' _ hstore =>
    cases hr₀.symm.trans hrm
    refine ⟨ms ++ [.publish id], m', _, exec_append_some.2 ⟨m, hm, exec_single.2 hpub⟩, by
      rw [hstore, Store.publish_runs hrm]; exact ExtTreeMap.getElem?_insert_self, ?_⟩
    rcases hp with hp | hp
    · exact ⟨by simp [LiveRun.isActive, LiveRun.publish, hp, isActiveState],
        by simp [LiveRun.publish, hp]⟩
    · rw [Publication.Fails] at hp
      exact ⟨by simp [LiveRun.isActive, LiveRun.publish, hp, isActiveState],
        by simp [LiveRun.publish, hp]⟩

/-- **When a cancellation is acted on.** In every run of the registry, when the cancellation
signal of an active run is sent, its task acts on it, however the run goes on, if and only if
the task is in its loop then and has no failure in hand. -/
theorem cancel_obeyed_iff (toValue : P → Except String Value) (acts : List (Act P)) (a : Act P)
    (r r' : Registry) (id : RunId) (run : LiveRun) (h : exec (step toValue) init acts = some r)
    (hs : r.step toValue a = some r') (hu : r.signalled id = false)
    (hs' : r'.signalled id = true) (hr : r.store.runs[id]? = some run)
    (hact : run.isActive = true) :
    (∀ (later : List (Act P)) (r'' : Registry), exec (step toValue) r' later = some r'' →
      Obeyed toValue id later r'') ↔ r.Listens id := by
  have h' : exec (step toValue) init (acts ++ [a]) = some r' :=
    exec_append_some.2 ⟨r, h, exec_single.2 hs⟩
  constructor
  · intro hall
    obtain ⟨ht, hst⟩ := send_cases hs hu hs'
    obtain ⟨run', hr', -⟩ := hst id run hr
    have hother : ∀ p last, r.tasks[id]? = some (.publishing p last) →
        ¬ (p.state = some .completed ∨ p.Fails) := fun p last hp hp' => by
      obtain ⟨later, m, run'', hm, hrm, hend, hnot⟩ :=
        (tasks_exec h').not_canceled toValue (by rw [ht]; exact hp) hp' hr'
      exact hnot ((hall later m hm).canceled run'' hrm hend).1
    unfold Listens
    split
    · trivial
    · trivial
    · rename_i p hp
      obtain ⟨-, -, hlive | hf⟩ := (tasks_exec h).places id _ hp
      · exact hlive
      · exact absurd (.inr hf) (hother p false hp)
    · rename_i hn₁ hn₂ hn₃
      cases htask : r.tasks[id]? with
      | none => exact hn₁ htask
      | some t =>
        obtain ⟨run₀, hr₀, hp⟩ := (tasks_exec h).places id t htask
        cases hr₀.symm.trans hr
        cases t with
        | selecting => exact hn₂ htask
        | finishing => exact (hall [] r' rfl).waits (by rw [ht]; exact htask)
        | cancelling => rw [hu] at hp; cases hp
        | completing last | uncounting last | done => rw [hact] at hp; cases hp
        | publishing p last =>
          cases last with
          | false => exact hn₃ p htask
          | true =>
            obtain hc | hf | ⟨-, hsent⟩ := hp
            · exact hother p true htask (.inl hc)
            · exact hother p true htask (.inr hf)
            · rw [hu] at hsent; cases hsent
  · intro hlisten later r'' hl
    obtain ⟨hheeds, hnot⟩ := hlisten.heeds hs hu hs' hr hact
    obtain ⟨hh, htasks, hleft, hcan⟩ :=
      heeds_exec hheeds (tasks_exec h') (owners_exec h') hl
    refine ⟨fun hf => ?_, fun hfree t ht => hh.moves toValue htasks hfree ht, ?_,
      fun run'' hr'' hend => ?_⟩
    · obtain ⟨-, run₀, -, hn⟩ := hh
      rw [hf] at hn
      exact hn
    · have := stepsLeft_le r'.tasks[id]?
      omega
    · obtain ⟨hstate, hpast⟩ := hh.ended hr'' hend
      exact ⟨hstate, hcan hpast hnot⟩

/-- A client cancels a run whose event stream has ended: the task waits for the outcome, and the
run ends `Completed`. -/
def canceledLate : List (Act Unit) :=
  startSteps 0 ⟨"r"⟩ ++
    [.recv ⟨"r"⟩ (some (.text "one")), .publish ⟨"r"⟩, .recv ⟨"r"⟩ none,
     .cancelCall 0 ⟨"r"⟩, .cancelTake 0]

/-- A client cancels a run whose task is publishing an event. -/
def canceledInTime : List (Act Unit) :=
  startSteps 0 ⟨"r"⟩ ++
    [.recv ⟨"r"⟩ (some (.text "one")), .cancelCall 0 ⟨"r"⟩, .cancelTake 0]

theorem cancel_obeyed_iff_canceledInTime :
    ∃ (r r' : Registry) (run : LiveRun),
      exec (step fun _ => .ok .null) init canceledInTime = some r ∧
      r.step (fun _ => .ok .null) (.cancelSend 0 : Act Unit) = some r' ∧
      r.store.runs[RunId.mk "r"]? = some run ∧ run.isActive = true ∧ r.Listens ⟨"r"⟩ ∧
      ∀ (later : List (Act Unit)) (r'' : Registry),
        exec (step fun _ => .ok .null) r' later = some r'' →
          Obeyed (fun _ => .ok .null) ⟨"r"⟩ later r'' := by
  have hl : ∀ r : Registry,
      r.tasks[RunId.mk "r"]? = some (.publishing ⟨.text "one", some .running, none⟩ false) →
        r.Listens ⟨"r"⟩ := fun r hr => by
    unfold Listens
    rw [hr]
    exact ⟨_, rfl, rfl⟩
  refine ⟨_, _, _, rfl, rfl, rfl, rfl, hl _ rfl, ?_⟩
  exact (cancel_obeyed_iff _ canceledInTime (.cancelSend 0) _ _ ⟨"r"⟩ _ rfl rfl rfl rfl rfl
    rfl).2 (hl _ rfl)

theorem cancel_disobeyed_canceledLate :
    ∃ (r r' r'' : Registry) (run : LiveRun),
      exec (step fun _ => .ok .null) init canceledLate = some r ∧
      r.step (fun _ => .ok .null) (.cancelSend 0 : Act Unit) = some r' ∧
      r.signalled ⟨"r"⟩ = false ∧ r'.signalled ⟨"r"⟩ = true ∧
      r'.store.runs[RunId.mk "r"]?.map LiveRun.isActive = some true ∧
      r'.tasks[RunId.mk "r"]? = some .finishing ∧
      exec (step fun _ => .ok .null) r' [.finish ⟨"r"⟩ (.ok ⟨true, ()⟩), .publish ⟨"r"⟩] =
        some r'' ∧
      r''.store.runs[RunId.mk "r"]? = some run ∧ run.snapshot.state = .completed ∧
      ¬ Obeyed (fun _ => .ok .null) ⟨"r"⟩ ([] : List (Act Unit)) r' := by
  refine ⟨_, _, _, _, rfl, rfl, rfl, rfl, rfl, rfl, rfl, rfl, rfl, fun ho => ?_⟩
  exact ho.waits rfl

end Registry

end AgencyProxy.Runtime
