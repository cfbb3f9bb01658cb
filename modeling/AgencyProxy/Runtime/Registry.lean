import AgencyProxy.Maps
import AgencyProxy.Runtime.Journal
import AgencyProxy.Runtime.Provider

/-!
# The run registry

`RuntimeRegistry` as a transition system: any number of `start` and `cancel` calls, one
task for each run, `cancel_all`, and clients that attach, acknowledge and drop receivers.
A step is what one party does between two points where another can interfere.

The `runs` lock is explicit because two things are read without it: the activity count and
the completion flag. A critical section that touches either is cut into the steps between
which those readers can look: `start_owned` inserts the run, then counts it; `publish` of a
terminal event sends it, then sets `completed`, then lowers the count. Every other critical
section is one step.
-/

namespace AgencyProxy.Runtime

open Std

/-- A call of `start_owned`. -/
inductive StartCall where
  /-- At the first `contains_key`, under the read lock. -/
  | checking (id : RunId) (spec : RunRequest)
  /-- At `build_request` and `agent_abstraction::stream`. -/
  | launching (id : RunId) (spec : RunRequest)
  /-- At the write lock of the insert. -/
  | inserting (id : RunId) (spec : RunRequest)
  /-- Holds the lock, at `activity.started()`. -/
  | counting (id : RunId)
  /-- At the spawn of the run task. -/
  | spawning (id : RunId)
  | returned (id : RunId) (result : Except RuntimeError Unit)

/-- The call has returned. -/
def StartCall.settled : StartCall → Bool
  | .returned _ _ => true
  | _ => false

/-- The task of a run. `last` tells the publication after which the task returns. -/
inductive RunTask where
  /-- At the `select` of the cancellation and `run.recv()`. -/
  | selecting
  /-- At the write lock of `publish`. -/
  | publishing (publication : Publication) (last : Bool)
  /-- Holds the lock, has sent a terminal event, at `completed.set()`. -/
  | completing (last : Bool)
  /-- Holds the lock, at `activity.finished()`. -/
  | uncounting (last : Bool)
  /-- At `run.cancel()`. -/
  | cancelling
  /-- At `run.finish()`. -/
  | finishing
  | done

/-- A call of `cancel`. -/
inductive CancelCall where
  /-- At the write lock. -/
  | taking (id : RunId)
  /-- Took the sender, at `cancel.send(())`. -/
  | sending (id : RunId)
  /-- At `wait_until_completed`. -/
  | waiting (id : RunId)
  | returned (id : RunId) (result : Except RuntimeError Unit)

/-- Who is inside the `runs` write lock between two steps. -/
inductive Lock where
  | free
  | starting (call : Nat)
  | publishing (id : RunId)
  deriving DecidableEq

/-- Who consumed a cancellation sender. -/
inductive Consumer where
  | cancel (call : Nat)
  | cancelAll
  deriving DecidableEq

structure Registry where
  store : Store
  /-- `RunActivity`. -/
  active : Nat
  lock : Lock
  tasks : ExtTreeMap RunId RunTask
  /-- The run's cancellation was sent. -/
  signalled : RunId → Bool
  starts : ExtTreeMap Nat StartCall
  cancels : ExtTreeMap Nat CancelCall
  /-- History: the calls for which `agent_abstraction::stream` launched a provider. -/
  launched : List (Nat × RunId)
  /-- History: each call of `activity.finished()`, with the count it found. -/
  uncounted : List (RunId × Nat)
  /-- History: who consumed the run's cancellation sender. -/
  consumed : RunId → List Consumer

namespace Registry

def init : Registry where
  store := .empty
  active := 0
  lock := .free
  tasks := ∅
  signalled _ := false
  starts := ∅
  cancels := ∅
  launched := []
  uncounted := []
  consumed _ := []

/-- One step; call numbers are chosen afresh by the scheduler, and the outcomes of the calls
into `agent_abstraction` by the environment. -/
inductive Act (P : Type) where
  | startCall (k : Nat) (id : RunId) (spec : RunRequest)
  | startCheck (k : Nat)
  | startLaunch (k : Nat) (launched : Except String Unit)
  | startInsert (k : Nat)
  | startCount (k : Nat)
  | startSpawn (k : Nat)
  | recv (id : RunId) (event : Option (Event P))
  | sawCancel (id : RunId)
  | canceled (id : RunId)
  | finish (id : RunId) (outcome : Except String (Outcome P))
  | publish (id : RunId)
  | complete (id : RunId)
  | uncount (id : RunId)
  | cancelCall (k : Nat) (id : RunId)
  | cancelTake (k : Nat)
  | cancelSend (k : Nat)
  | cancelWait (k : Nat)
  | cancelAll
  | acknowledge (id : RunId) (through : Nat)
  | attach (id : RunId) (after : Nat)
  /-- Drop of a receiver of the run's channel; it does not take the `runs` lock. -/
  | dropReceiver (id : RunId)

/-! ## `start_owned` -/

def startCall (r : Registry) (k : Nat) (id : RunId) (spec : RunRequest) : Option Registry :=
  if k ∈ r.starts then none else some { r with starts := r.starts.insert k (.checking id spec) }

def startCheck (r : Registry) (k : Nat) : Option Registry :=
  match r.lock, r.starts[k]? with
  | .free, some (.checking id spec) =>
    if id ∈ r.store.runs then
      some { r with starts := r.starts.insert k (.returned id (.error .conflict)) }
    else some { r with starts := r.starts.insert k (.launching id spec) }
  | _, _ => none

def startLaunch (r : Registry) (k : Nat) (launched : Except String Unit) : Option Registry :=
  match r.starts[k]? with
  | some (.launching id spec) =>
    match buildRequest spec, launched with
    | .error e, _ => some { r with starts := r.starts.insert k (.returned id (.error e)) }
    | .ok _, .error e =>
      some { r with starts := r.starts.insert k (.returned id (.error (.start e))) }
    | .ok _, .ok () =>
      some { r with
        starts := r.starts.insert k (.inserting id spec), launched := r.launched ++ [(k, id)] }
  | _ => none

def startInsert (r : Registry) (k : Nat) : Option Registry :=
  match r.lock, r.starts[k]? with
  | .free, some (.inserting id spec) =>
    match r.store.insert id spec with
    | .error e => some { r with starts := r.starts.insert k (.returned id (.error e)) }
    | .ok store =>
      some { r with store, lock := .starting k, starts := r.starts.insert k (.counting id) }
  | _, _ => none

def startCount (r : Registry) (k : Nat) : Option Registry :=
  match r.starts[k]? with
  | some (.counting id) =>
    some { r with
      active := r.active + 1, lock := .free, starts := r.starts.insert k (.spawning id) }
  | _ => none

def startSpawn (r : Registry) (k : Nat) : Option Registry :=
  match r.starts[k]? with
  | some (.spawning id) =>
    some { r with
      tasks := r.tasks.insert id .selecting
      starts := r.starts.insert k (.returned id (.ok ())) }
  | _ => none

/-! ## The run task -/

section Task

variable {P : Type} (toValue : P → Except String Value)

/-- Where the task goes once `publish` returns. -/
def afterPublish (last : Bool) : RunTask := if last then .done else .selecting

/-- `select` polls the cancellation first, so an event is taken only while none is pending. -/
def recv (r : Registry) (id : RunId) (event : Option (Event P)) : Option Registry :=
  match r.tasks[id]? with
  | some .selecting =>
    if r.signalled id then none
    else match event with
      | none => some { r with tasks := r.tasks.insert id .finishing }
      | some event =>
        match publishProvider toValue event with
        | some p => some { r with tasks := r.tasks.insert id (.publishing p false) }
        | none => some r
  | _ => none

def sawCancel (r : Registry) (id : RunId) : Option Registry :=
  match r.tasks[id]? with
  | some .selecting =>
    if r.signalled id then some { r with tasks := r.tasks.insert id .cancelling } else none
  | _ => none

def canceled (r : Registry) (id : RunId) : Option Registry :=
  match r.tasks[id]? with
  | some .cancelling =>
    some { r with
      tasks :=
        r.tasks.insert id (.publishing (publishError "the run was canceled" .canceled) true) }
  | _ => none

def finish (r : Registry) (id : RunId) (outcome : Except String (Outcome P)) : Option Registry :=
  match r.tasks[id]? with
  | some .finishing =>
    let p := match outcome with
      | .ok outcome => publishFinished toValue outcome
      | .error error => publishError error .failed
    some { r with tasks := r.tasks.insert id (.publishing p true) }
  | _ => none

def publish (r : Registry) (id : RunId) : Option Registry :=
  match r.lock, r.tasks[id]? with
  | .free, some (.publishing p last) =>
    match r.store.runs[id]? with
    | none => some { r with tasks := r.tasks.insert id (afterPublish last) }
    | some run =>
      let store := r.store.publish id p.event p.state p.session
      if run.finishes p.state then
        some { r with store, lock := .publishing id, tasks := r.tasks.insert id (.completing last) }
      else some { r with store, tasks := r.tasks.insert id (afterPublish last) }
  | _, _ => none

def complete (r : Registry) (id : RunId) : Option Registry :=
  match r.tasks[id]? with
  | some (.completing last) =>
    some { r with
      store := r.store.modify id fun run => { run with completed := true }
      tasks := r.tasks.insert id (.uncounting last) }
  | _ => none

def uncount (r : Registry) (id : RunId) : Option Registry :=
  match r.tasks[id]? with
  | some (.uncounting last) =>
    some { r with
      active := r.active - 1, lock := .free
      tasks := r.tasks.insert id (afterPublish last)
      uncounted := r.uncounted ++ [(id, r.active)] }
  | _ => none

end Task

/-! ## `cancel` and `cancel_all` -/

def cancelCall (r : Registry) (k : Nat) (id : RunId) : Option Registry :=
  if k ∈ r.cancels then none else some { r with cancels := r.cancels.insert k (.taking id) }

def cancelTake (r : Registry) (k : Nat) : Option Registry :=
  match r.lock, r.cancels[k]? with
  | .free, some (.taking id) =>
    match r.store.runs[id]? with
    | none => some { r with cancels := r.cancels.insert k (.returned id (.error .notFound)) }
    | some run =>
      match run.cancel with
      | none => some { r with cancels := r.cancels.insert k (.returned id (.error .conflict)) }
      | some () =>
        some { r with
          store := r.store.modify id fun run => { run with cancel := none }
          cancels := r.cancels.insert k (.sending id)
          consumed := Function.update r.consumed id (r.consumed id ++ [.cancel k]) }
  | _, _ => none

def cancelSend (r : Registry) (k : Nat) : Option Registry :=
  match r.cancels[k]? with
  | some (.sending id) =>
    some { r with
      signalled := Function.update r.signalled id true
      cancels := r.cancels.insert k (.waiting id) }
  | _ => none

/-- `completed.wait()` returns once the flag is set. -/
def cancelWait (r : Registry) (k : Nat) : Option Registry :=
  match r.cancels[k]? with
  | some (.waiting id) =>
    match r.store.runs[id]? with
    | some run =>
      if run.completed then
        some { r with cancels := r.cancels.insert k (.returned id (.ok ())) }
      else none
    | none => none
  | _ => none

/-- The two filters of `cancel_all`: an active run whose sender is still there. -/
def cancellable (run : LiveRun) : Bool := isActiveState run.snapshot.state && run.cancel.isSome

def sweep (run : LiveRun) : LiveRun :=
  if cancellable run then { run with cancel := none } else run

/-- `cancel_all`. Its sends are seen by other tasks at once, without the lock; a task that sees
one early can only go on to `publish`, which waits for the lock. -/
def cancelAll (r : Registry) : Option Registry :=
  match r.lock with
  | .free =>
    let swept (id : RunId) : Bool := r.store.runs[id]?.any cancellable
    some { r with
      store := { r.store with runs := r.store.runs.map fun _ run => sweep run }
      signalled := fun id => r.signalled id || swept id
      consumed := fun id => if swept id then r.consumed id ++ [.cancelAll] else r.consumed id }
  | _ => none

/-! ## Clients -/

def acknowledge (r : Registry) (id : RunId) (through : Nat) : Option Registry :=
  match r.lock with
  | .free =>
    match r.store.acknowledge id through with
    | .ok store => some { r with store }
    | .error _ => some r
  | _ => none

def attach (r : Registry) (id : RunId) (after : Nat) : Option Registry :=
  match r.lock with
  | .free =>
    match r.store.attach id after with
    | .ok (_, store) => some { r with store }
    | .error _ => some r
  | _ => none

def dropReceiver (r : Registry) (id : RunId) : Option Registry :=
  some { r with store := r.store.dropReceiver id }

def step {P : Type} (toValue : P → Except String Value) (r : Registry) :
    Act P → Option Registry
  | .startCall k id spec => r.startCall k id spec
  | .startCheck k => r.startCheck k
  | .startLaunch k launched => r.startLaunch k launched
  | .startInsert k => r.startInsert k
  | .startCount k => r.startCount k
  | .startSpawn k => r.startSpawn k
  | .recv id event => r.recv toValue id event
  | .sawCancel id => r.sawCancel id
  | .canceled id => r.canceled id
  | .finish id outcome => r.finish toValue id outcome
  | .publish id => r.publish id
  | .complete id => r.complete id
  | .uncount id => r.uncount id
  | .cancelCall k id => r.cancelCall k id
  | .cancelTake k => r.cancelTake k
  | .cancelSend k => r.cancelSend k
  | .cancelWait k => r.cancelWait k
  | .cancelAll => r.cancelAll
  | .acknowledge id through => r.acknowledge id through
  | .attach id after => r.attach id after
  | .dropReceiver id => r.dropReceiver id

/-! ## What each step does -/

section Cases

variable {P : Type} {toValue : P → Except String Value} {r r' : Registry} {k : Nat} {id : RunId}

theorem startCall_cases {spec : RunRequest} (h : r.startCall k id spec = some r') :
    r.starts[k]? = none ∧ r' = { r with starts := r.starts.insert k (.checking id spec) } := by
  unfold startCall at h
  split at h
  · cases h
  · rename_i hk
    cases h
    exact ⟨ExtTreeMap.getElem?_eq_none hk, rfl⟩

theorem startCheck_cases (h : r.startCheck k = some r') :
    ∃ id spec call, r.lock = .free ∧ r.starts[k]? = some (.checking id spec) ∧
      (call = .returned id (.error .conflict) ∨
        r.store.runs[id]? = none ∧ call = .launching id spec) ∧
      r' = { r with starts := r.starts.insert k call } := by
  unfold startCheck at h
  split at h
  · rename_i id spec hl hc
    split at h
    · cases h; exact ⟨id, spec, _, hl, hc, .inl rfl, rfl⟩
    · rename_i hn
      cases h
      exact ⟨id, spec, _, hl, hc, .inr ⟨ExtTreeMap.getElem?_eq_none hn, rfl⟩, rfl⟩
  · cases h

theorem startLaunch_cases {launched : Except String Unit}
    (h : r.startLaunch k launched = some r') :
    ∃ id spec call log, r.starts[k]? = some (.launching id spec) ∧
      ((∃ e, call = .returned id (.error e)) ∨ call = .inserting id spec) ∧
      r' = { r with starts := r.starts.insert k call, launched := log } := by
  unfold startLaunch at h
  split at h
  · rename_i id spec hc
    split at h
    · cases h; exact ⟨id, spec, _, _, hc, .inl ⟨_, rfl⟩, rfl⟩
    · cases h; exact ⟨id, spec, _, _, hc, .inl ⟨_, rfl⟩, rfl⟩
    · cases h; exact ⟨id, spec, _, _, hc, .inr rfl, rfl⟩
  · cases h

theorem startInsert_cases (h : r.startInsert k = some r') :
    ∃ id spec, r.lock = .free ∧ r.starts[k]? = some (.inserting id spec) ∧
      ((id ∈ r.store.runs ∧
          r' = { r with starts := r.starts.insert k (.returned id (.error .conflict)) }) ∨
        (r.store.runs[id]? = none ∧
          r' = { r with
            store := { r.store with runs := r.store.runs.insert id (.fresh id spec) }
            lock := .starting k, starts := r.starts.insert k (.counting id) })) := by
  unfold startInsert at h
  split at h
  · rename_i id spec hl hc
    refine ⟨id, spec, hl, hc, ?_⟩
    unfold Store.insert at h
    by_cases hid : id ∈ r.store.runs
    · rw [if_pos hid] at h
      cases h
      exact .inl ⟨hid, rfl⟩
    · rw [if_neg hid] at h
      cases h
      exact .inr ⟨ExtTreeMap.getElem?_eq_none hid, rfl⟩
  · cases h

theorem startCount_cases (h : r.startCount k = some r') :
    ∃ id, r.starts[k]? = some (.counting id) ∧
      r' = { r with
        active := r.active + 1, lock := .free
        starts := r.starts.insert k (.spawning id) } := by
  unfold startCount at h
  split at h
  · rename_i id hc; cases h; exact ⟨id, hc, rfl⟩
  · cases h

theorem startSpawn_cases (h : r.startSpawn k = some r') :
    ∃ id, r.starts[k]? = some (.spawning id) ∧
      r' = { r with
        tasks := r.tasks.insert id .selecting
        starts := r.starts.insert k (.returned id (.ok ())) } := by
  unfold startSpawn at h
  split at h
  · rename_i id hc; cases h; exact ⟨id, hc, rfl⟩
  · cases h

theorem recv_cases {event : Option (Event P)} (h : r.recv toValue id event = some r') :
    r.tasks[id]? = some .selecting ∧ r.signalled id = false ∧
      ((event = none ∧ r' = { r with tasks := r.tasks.insert id .finishing }) ∨
        (∃ e p, event = some e ∧ publishProvider toValue e = some p ∧
          r' = { r with tasks := r.tasks.insert id (.publishing p false) }) ∨
        r' = r) := by
  unfold recv at h
  split at h
  · rename_i ht
    split at h
    · cases h
    · rename_i hs
      refine ⟨ht, by simpa using hs, ?_⟩
      split at h
      · cases h; exact .inl ⟨rfl, rfl⟩
      · split at h
        · rename_i e _ p hp
          cases h; exact .inr (.inl ⟨e, p, rfl, hp, rfl⟩)
        · cases h; exact .inr (.inr rfl)
  · cases h

theorem sawCancel_cases (h : r.sawCancel id = some r') :
    r.tasks[id]? = some .selecting ∧ r.signalled id = true ∧
      r' = { r with tasks := r.tasks.insert id .cancelling } := by
  unfold sawCancel at h
  split at h
  · rename_i ht
    split at h
    · rename_i hs; cases h; exact ⟨ht, hs, rfl⟩
    · cases h
  · cases h

theorem canceled_cases (h : r.canceled id = some r') :
    r.tasks[id]? = some .cancelling ∧
      ∃ p : Publication, p.Terminal ∧
        r' = { r with tasks := r.tasks.insert id (.publishing p true) } := by
  unfold canceled at h
  split at h
  · rename_i ht; cases h; exact ⟨ht, _, ⟨_, rfl, rfl⟩, rfl⟩
  · cases h

theorem finish_cases {outcome : Except String (Outcome P)}
    (h : r.finish toValue id outcome = some r') :
    r.tasks[id]? = some .finishing ∧
      ∃ p : Publication, p.Terminal ∧
        r' = { r with tasks := r.tasks.insert id (.publishing p true) } := by
  unfold finish at h
  split at h
  · rename_i ht
    cases h
    refine ⟨ht, _, ?_, rfl⟩
    cases outcome with
    | ok outcome => exact publishFinished_terminal outcome
    | error e => exact ⟨_, rfl, rfl⟩
  · cases h

theorem publish_cases (h : r.publish id = some r') :
    ∃ p last, r.lock = .free ∧ r.tasks[id]? = some (.publishing p last) ∧
      ((r.store.runs[id]? = none ∧
          r' = { r with tasks := r.tasks.insert id (afterPublish last) }) ∨
        ∃ run, r.store.runs[id]? = some run ∧
          ((run.finishes p.state = true ∧
              r' = { r with
                store := r.store.publish id p.event p.state p.session
                lock := .publishing id, tasks := r.tasks.insert id (.completing last) }) ∨
            (run.finishes p.state = false ∧
              r' = { r with
                store := r.store.publish id p.event p.state p.session
                tasks := r.tasks.insert id (afterPublish last) }))) := by
  unfold publish at h
  split at h
  · rename_i p last hl ht
    refine ⟨p, last, hl, ht, ?_⟩
    split at h
    · rename_i hr; cases h; exact .inl ⟨hr, rfl⟩
    · rename_i run hr
      dsimp only at h
      split at h
      · rename_i hf; cases h; exact .inr ⟨run, hr, .inl ⟨hf, rfl⟩⟩
      · rename_i hf; cases h; exact .inr ⟨run, hr, .inr ⟨by simpa using hf, rfl⟩⟩
  · cases h

theorem complete_cases (h : r.complete id = some r') :
    ∃ last, r.tasks[id]? = some (.completing last) ∧
      r' = { r with
        store := r.store.modify id fun run => { run with completed := true }
        tasks := r.tasks.insert id (.uncounting last) } := by
  unfold complete at h
  split at h
  · rename_i last ht; cases h; exact ⟨last, ht, rfl⟩
  · cases h

theorem uncount_cases (h : r.uncount id = some r') :
    ∃ last, r.tasks[id]? = some (.uncounting last) ∧
      r' = { r with
        active := r.active - 1, lock := .free
        tasks := r.tasks.insert id (afterPublish last)
        uncounted := r.uncounted ++ [(id, r.active)] } := by
  unfold uncount at h
  split at h
  · rename_i last ht; cases h; exact ⟨last, ht, rfl⟩
  · cases h

theorem cancelCall_cases (h : r.cancelCall k id = some r') :
    r.cancels[k]? = none ∧ r' = { r with cancels := r.cancels.insert k (.taking id) } := by
  unfold cancelCall at h
  split at h
  · cases h
  · rename_i hk
    cases h
    exact ⟨ExtTreeMap.getElem?_eq_none hk, rfl⟩

theorem cancelTake_cases (h : r.cancelTake k = some r') :
    ∃ id, r.lock = .free ∧ r.cancels[k]? = some (.taking id) ∧
      ((∃ e, (e = .notFound ∨ e = .conflict) ∧
          r' = { r with cancels := r.cancels.insert k (.returned id (.error e)) }) ∨
        ∃ run, r.store.runs[id]? = some run ∧ run.cancel = some () ∧
          r' = { r with
            store := { r.store with runs := r.store.runs.insert id { run with cancel := none } }
            cancels := r.cancels.insert k (.sending id)
            consumed := Function.update r.consumed id (r.consumed id ++ [.cancel k]) }) := by
  unfold cancelTake at h
  split at h
  · rename_i id hl hc
    refine ⟨id, hl, hc, ?_⟩
    split at h
    · cases h; exact .inl ⟨_, .inl rfl, rfl⟩
    · rename_i run hr
      split at h
      · cases h; exact .inl ⟨_, .inr rfl, rfl⟩
      · rename_i hcan
        simp only [Store.modify, hr] at h
        cases h
        exact .inr ⟨run, hr, hcan, rfl⟩
  · cases h

theorem cancelSend_cases (h : r.cancelSend k = some r') :
    ∃ id, r.cancels[k]? = some (.sending id) ∧
      r' = { r with
        signalled := Function.update r.signalled id true
        cancels := r.cancels.insert k (.waiting id) } := by
  unfold cancelSend at h
  split at h
  · rename_i id hc; cases h; exact ⟨id, hc, rfl⟩
  · cases h

theorem cancelWait_cases (h : r.cancelWait k = some r') :
    ∃ id run, r.cancels[k]? = some (.waiting id) ∧ r.store.runs[id]? = some run ∧
      run.completed = true ∧
      r' = { r with cancels := r.cancels.insert k (.returned id (.ok ())) } := by
  unfold cancelWait at h
  split at h
  · rename_i id hc
    split at h
    · rename_i run hr
      split at h
      · rename_i hd; cases h; exact ⟨id, run, hc, hr, hd, rfl⟩
      · cases h
    · cases h
  · cases h

theorem cancelAll_cases (h : r.cancelAll = some r') :
    r.lock = .free ∧
      r' = { r with
        store := { r.store with runs := r.store.runs.map fun _ run => sweep run }
        signalled := fun id => r.signalled id || r.store.runs[id]?.any cancellable
        consumed := fun id =>
          if r.store.runs[id]?.any cancellable then r.consumed id ++ [.cancelAll]
          else r.consumed id } := by
  unfold cancelAll at h
  split at h
  · rename_i hl; cases h; exact ⟨hl, rfl⟩
  · cases h

theorem acknowledge_cases {through : Nat} (h : r.acknowledge id through = some r') :
    r' = r ∨ ∃ run, r.store.runs[id]? = some run ∧
      r' = { r with
        store := { r.store with runs := r.store.runs.insert id (run.acknowledge through) } } := by
  unfold acknowledge Store.acknowledge at h
  split at h
  · cases hr : r.store.runs[id]? with
    | none => simp only [hr] at h; cases h; exact .inl rfl
    | some run => simp only [hr] at h; cases h; exact .inr ⟨run, rfl, rfl⟩
  · cases h

theorem attach_cases {after : Nat} (h : r.attach id after = some r') :
    r' = r ∨ ∃ run, r.store.runs[id]? = some run ∧
      r' = { r with
        store := { r.store with
          runs := r.store.runs.insert id { run with events := run.events.subscribe.2 } } } := by
  unfold attach at h
  split at h
  · split at h
    · rename_i hatt
      obtain ⟨run, run', hr, hra, rfl⟩ := Store.attach_ok hatt
      obtain ⟨-, -, rfl⟩ := LiveRun.attach_ok hra
      cases h
      exact .inr ⟨run, hr, rfl⟩
    · cases h; exact .inl rfl
  · cases h

theorem dropReceiver_cases (h : r.dropReceiver id = some r') :
    r' = r ∨ ∃ run, r.store.runs[id]? = some run ∧
      r' = { r with
        store := { r.store with
          runs := r.store.runs.insert id { run with events := run.events.dropReceiver } } } := by
  unfold dropReceiver Store.dropReceiver Store.modify at h
  cases hr : r.store.runs[id]? with
  | none => simp only [hr] at h; cases h; exact .inl rfl
  | some run => simp only [hr] at h; cases h; exact .inr ⟨run, rfl, rfl⟩

/-- A change of a run that publishes nothing and keeps its state. -/
structure Touch (run run' : LiveRun) : Prop where
  state : run'.snapshot.state = run.snapshot.state
  journaled : ∀ log, Journaled run log → Journaled run' log
  earlier : run.Earlier run'
  buffer : run'.events.buffer = run.events.buffer

theorem Touch.of_control {run run' : LiveRun} (hs : run'.snapshot = run.snapshot)
    (hj : run'.journal = run.journal) (hf : run'.replayFloor = run.replayFloor)
    (hb : run'.events.buffer = run.events.buffer) : Touch run run' where
  state := by rw [hs]
  journaled log h := h.congr (by rw [hs]) (by rw [hs]) hj hf
  earlier := by
    refine ⟨?_, ?_, ?_⟩
    · rw [hs]
    · rw [hs]
    · rw [hf]
  buffer := hb

theorem sweep_touch (run : LiveRun) : Touch run (sweep run) := by
  unfold sweep
  split
  · exact .of_control rfl rfl rfl rfl
  · exact .of_control rfl rfl rfl rfl

/-- The operations of clients: attach, acknowledge and the drop of a receiver. -/
def Act.isClient : Act P → Bool
  | .acknowledge _ _ | .attach _ _ | .dropReceiver _ => true
  | _ => false

/-- A client's operation touches at most one run. -/
theorem client_cases {a : Act P} (ha : a.isClient = true) (h : r.step toValue a = some r') :
    r' = r ∨ ∃ id run run', r.store.runs[id]? = some run ∧ Touch run run' ∧
      run'.cancel = run.cancel ∧ run'.completed = run.completed ∧
      r' = { r with store := { r.store with runs := r.store.runs.insert id run' } } := by
  cases a <;> try cases ha
  case acknowledge id through =>
    obtain rfl | ⟨run, hr, rfl⟩ := acknowledge_cases h
    · exact .inl rfl
    · exact .inr ⟨id, run, run.acknowledge through, hr,
        ⟨rfl, fun _ hj => hj.acknowledge through, .acknowledge run through, rfl⟩, rfl, rfl, rfl⟩
  case attach id after =>
    obtain rfl | ⟨run, hr, rfl⟩ := attach_cases h
    · exact .inl rfl
    · exact .inr ⟨id, run, { run with events := run.events.subscribe.2 }, hr,
        .of_control rfl rfl rfl rfl, rfl, rfl, rfl⟩
  case dropReceiver id =>
    obtain rfl | ⟨run, hr, rfl⟩ := dropReceiver_cases h
    · exact .inl rfl
    · exact .inr ⟨id, run, { run with events := run.events.dropReceiver }, hr,
        .of_control rfl rfl rfl rfl, rfl, rfl, rfl⟩

/-- The steps that may change the runs. -/
def Act.onStore : Act P → Bool
  | .startInsert _ | .publish _ | .complete _ | .cancelTake _ | .cancelAll => true
  | .acknowledge _ _ | .attach _ _ | .dropReceiver _ => true
  | _ => false

/-- The steps of calls of `start`. -/
def Act.onStarts : Act P → Bool
  | .startCall _ _ _ | .startCheck _ | .startLaunch _ _ | .startInsert _ | .startCount _
  | .startSpawn _ => true
  | _ => false

/-- The steps of run tasks, and the spawn of one. -/
def Act.onTasks : Act P → Bool
  | .startSpawn _ | .recv _ _ | .sawCancel _ | .canceled _ | .finish _ _ | .publish _
  | .complete _ | .uncount _ => true
  | _ => false

/-- The steps of calls of `cancel`. -/
def Act.onCancels : Act P → Bool
  | .cancelCall _ _ | .cancelTake _ | .cancelSend _ | .cancelWait _ => true
  | _ => false

/-- The steps that may take a sender. -/
def Act.consumes : Act P → Bool
  | .cancelTake _ | .cancelAll => true
  | _ => false

/-- What a step leaves alone, by its kind. -/
structure Frame (a : Act P) (r r' : Registry) : Prop where
  store : a.onStore = false → r'.store = r.store
  starts : a.onStarts = false → r'.starts = r.starts
  tasks : a.onTasks = false → r'.tasks = r.tasks
  cancels : a.onCancels = false → r'.cancels = r.cancels
  consumed : a.consumes = false → r'.consumed = r.consumed

/-- **Frame rule** of the registry. -/
theorem step_frame {a : Act P} (h : r.step toValue a = some r') : Frame a r r' := by
  cases a with
  | startCall k id spec =>
    obtain ⟨-, rfl⟩ := startCall_cases h
    exact ⟨fun _ => rfl, nofun, fun _ => rfl, fun _ => rfl, fun _ => rfl⟩
  | startCheck k =>
    obtain ⟨id, spec, call, -, -, -, rfl⟩ := startCheck_cases h
    exact ⟨fun _ => rfl, nofun, fun _ => rfl, fun _ => rfl, fun _ => rfl⟩
  | startLaunch k launched =>
    obtain ⟨id, spec, call, log, -, -, rfl⟩ := startLaunch_cases h
    exact ⟨fun _ => rfl, nofun, fun _ => rfl, fun _ => rfl, fun _ => rfl⟩
  | startInsert k =>
    obtain ⟨id, spec, -, -, ⟨-, rfl⟩ | ⟨-, rfl⟩⟩ := startInsert_cases h <;>
      exact ⟨nofun, nofun, fun _ => rfl, fun _ => rfl, fun _ => rfl⟩
  | startCount k =>
    obtain ⟨id, -, rfl⟩ := startCount_cases h
    exact ⟨fun _ => rfl, nofun, fun _ => rfl, fun _ => rfl, fun _ => rfl⟩
  | startSpawn k =>
    obtain ⟨id, -, rfl⟩ := startSpawn_cases h
    exact ⟨fun _ => rfl, nofun, nofun, fun _ => rfl, fun _ => rfl⟩
  | recv id event =>
    obtain ⟨-, -, ⟨-, rfl⟩ | ⟨e, p, -, -, rfl⟩ | rfl⟩ := recv_cases h <;>
      exact ⟨fun _ => rfl, fun _ => rfl, nofun, fun _ => rfl, fun _ => rfl⟩
  | sawCancel id =>
    obtain ⟨-, -, rfl⟩ := sawCancel_cases h
    exact ⟨fun _ => rfl, fun _ => rfl, nofun, fun _ => rfl, fun _ => rfl⟩
  | canceled id =>
    obtain ⟨-, p, -, rfl⟩ := canceled_cases h
    exact ⟨fun _ => rfl, fun _ => rfl, nofun, fun _ => rfl, fun _ => rfl⟩
  | finish id outcome =>
    obtain ⟨-, p, -, rfl⟩ := finish_cases h
    exact ⟨fun _ => rfl, fun _ => rfl, nofun, fun _ => rfl, fun _ => rfl⟩
  | publish id =>
    obtain ⟨p, last, -, -, ⟨-, rfl⟩ | ⟨run, -, ⟨-, rfl⟩ | ⟨-, rfl⟩⟩⟩ := publish_cases h <;>
      exact ⟨nofun, fun _ => rfl, nofun, fun _ => rfl, fun _ => rfl⟩
  | complete id =>
    obtain ⟨last, -, rfl⟩ := complete_cases h
    exact ⟨nofun, fun _ => rfl, nofun, fun _ => rfl, fun _ => rfl⟩
  | uncount id =>
    obtain ⟨last, -, rfl⟩ := uncount_cases h
    exact ⟨fun _ => rfl, fun _ => rfl, nofun, fun _ => rfl, fun _ => rfl⟩
  | cancelCall k id =>
    obtain ⟨-, rfl⟩ := cancelCall_cases h
    exact ⟨fun _ => rfl, fun _ => rfl, fun _ => rfl, nofun, fun _ => rfl⟩
  | cancelTake k =>
    obtain ⟨id, -, -, ⟨e, -, rfl⟩ | ⟨run, -, -, rfl⟩⟩ := cancelTake_cases h <;>
      exact ⟨nofun, fun _ => rfl, fun _ => rfl, nofun, nofun⟩
  | cancelSend k =>
    obtain ⟨id, -, rfl⟩ := cancelSend_cases h
    exact ⟨fun _ => rfl, fun _ => rfl, fun _ => rfl, nofun, fun _ => rfl⟩
  | cancelWait k =>
    obtain ⟨id, run, -, -, -, rfl⟩ := cancelWait_cases h
    exact ⟨fun _ => rfl, fun _ => rfl, fun _ => rfl, nofun, fun _ => rfl⟩
  | cancelAll =>
    obtain ⟨-, rfl⟩ := cancelAll_cases h
    exact ⟨nofun, fun _ => rfl, fun _ => rfl, fun _ => rfl, nofun⟩
  | _ =>
    obtain rfl | ⟨id, run, run', -, -, -, -, rfl⟩ := client_cases rfl h <;>
      exact ⟨nofun, fun _ => rfl, fun _ => rfl, fun _ => rfl, fun _ => rfl⟩

/-- What a step does to the runs. -/
inductive StoreStep (r : Registry) (store : Store) : Prop
  | same (h : store = r.store)
  | insert (k : Nat) (id : RunId) (spec : RunRequest)
      (call : r.starts[k]? = some (.inserting id spec)) (absent : r.store.runs[id]? = none)
      (h : store = { r.store with runs := r.store.runs.insert id (.fresh id spec) })
  | publish (id : RunId) (p : Publication) (last : Bool) (run : LiveRun)
      (task : r.tasks[id]? = some (.publishing p last)) (found : r.store.runs[id]? = some run)
      (h : store = r.store.publish id p.event p.state p.session)
  | touch (id : RunId) (run run' : LiveRun) (found : r.store.runs[id]? = some run)
      (touched : Touch run run')
      (h : store = { r.store with runs := r.store.runs.insert id run' })
  | sweep (h : store = { r.store with runs := r.store.runs.map fun _ run => Registry.sweep run })

theorem client_store {a : Act P} (ha : a.isClient = true) (h : r.step toValue a = some r') :
    StoreStep r r'.store := by
  obtain rfl | ⟨id, run, run', hr, ht, -, -, rfl⟩ := client_cases ha h
  · exact .same rfl
  · exact .touch id run run' hr ht rfl

theorem step_store {a : Act P} (h : r.step toValue a = some r') : StoreStep r r'.store := by
  cases a with
  | startInsert k =>
    obtain ⟨id, spec, -, hk, ⟨-, rfl⟩ | ⟨hn, rfl⟩⟩ := startInsert_cases h
    · exact .same rfl
    · exact .insert k id spec hk hn rfl
  | publish id =>
    obtain ⟨p, last, -, ht, ⟨-, rfl⟩ | ⟨run, hr, ⟨-, rfl⟩ | ⟨-, rfl⟩⟩⟩ := publish_cases h
    · exact .same rfl
    · exact .publish id p last run ht hr rfl
    · exact .publish id p last run ht hr rfl
  | complete id =>
    obtain ⟨last, -, rfl⟩ := complete_cases h
    cases hr : r.store.runs[id]? with
    | none => exact .same (by simp only [Store.modify, hr])
    | some run =>
      exact .touch id run { run with completed := true } hr (.of_control rfl rfl rfl rfl)
        (by simp only [Store.modify, hr])
  | cancelTake k =>
    obtain ⟨id, -, -, ⟨e, -, rfl⟩ | ⟨run, hr, -, rfl⟩⟩ := cancelTake_cases h
    · exact .same rfl
    · exact .touch id run { run with cancel := none } hr (.of_control rfl rfl rfl rfl) rfl
  | cancelAll => obtain ⟨-, rfl⟩ := cancelAll_cases h; exact .sweep rfl
  | acknowledge id through => exact client_store rfl h
  | attach id after => exact client_store rfl h
  | dropReceiver id => exact client_store rfl h
  | _ => exact .same ((step_frame h).store rfl)

/-- A client publishes nothing. -/
theorem client_published {a : Act P} (ha : a.isClient = true) (h : r.step toValue a = some r') :
    r'.store.published = r.store.published := by
  obtain rfl | ⟨id, run, run', -, -, -, -, rfl⟩ := client_cases ha h <;> rfl

/-- Only the step of that name publishes. -/
theorem step_published {a : Act P} (h : r.step toValue a = some r')
    (ha : ∀ id, a ≠ .publish id) : r'.store.published = r.store.published := by
  cases a with
  | startInsert k =>
    obtain ⟨id, spec, -, -, ⟨-, rfl⟩ | ⟨-, rfl⟩⟩ := startInsert_cases h <;> rfl
  | publish id => exact absurd rfl (ha id)
  | complete id =>
    obtain ⟨last, -, rfl⟩ := complete_cases h
    exact Store.modify_published _ _ _
  | cancelTake k =>
    obtain ⟨id, -, -, ⟨e, -, rfl⟩ | ⟨run, -, -, rfl⟩⟩ := cancelTake_cases h <;> rfl
  | cancelAll => obtain ⟨-, rfl⟩ := cancelAll_cases h; rfl
  | acknowledge id through => exact client_published rfl h
  | attach id after => exact client_published rfl h
  | dropReceiver id => exact client_published rfl h
  | _ => rw [(step_frame h).store rfl]

/-- A step keeps every run, its state and its log, unless the run's task publishes. -/
theorem step_run {a : Act P} {run : LiveRun} (h : r.step toValue a = some r')
    (hr : r.store.runs[id]? = some run) :
    ∃ run', r'.store.runs[id]? = some run' ∧
      ((run'.snapshot.state = run.snapshot.state ∧
          r'.store.published id = r.store.published id) ∨
        ∃ p last, r.tasks[id]? = some (.publishing p last)) := by
  cases step_store h with
  | same he => exact ⟨run, by rw [he]; exact hr, .inl ⟨rfl, by rw [he]⟩⟩
  | insert k id' spec _ hn he =>
    have hne : id' ≠ id := by rintro rfl; cases hn.symm.trans hr
    rw [he]
    exact ⟨run, by rw [ExtTreeMap.getElem?_insert_of_ne hne]; exact hr, .inl ⟨rfl, rfl⟩⟩
  | publish id' p last run₀ ht hr₀ he =>
    simp only [Store.publish, hr₀] at he
    rw [he]
    by_cases hid : id' = id
    · subst hid
      exact ⟨_, ExtTreeMap.getElem?_insert_self, .inr ⟨p, last, ht⟩⟩
    · refine ⟨run, by rw [ExtTreeMap.getElem?_insert_of_ne hid]; exact hr, .inl ⟨rfl, ?_⟩⟩
      exact Function.update_of_ne (Ne.symm hid) _ _
  | touch id' run₀ run' hr₀ ht he =>
    rw [he]
    by_cases hid : id' = id
    · subst hid
      cases hr₀.symm.trans hr
      exact ⟨run', ExtTreeMap.getElem?_insert_self, .inl ⟨ht.state, rfl⟩⟩
    · exact ⟨run, by rw [ExtTreeMap.getElem?_insert_of_ne hid]; exact hr, .inl ⟨rfl, rfl⟩⟩
  | sweep he =>
    rw [he]
    exact ⟨Registry.sweep run, by rw [ExtTreeMap.getElem?_map, hr]; rfl,
      .inl ⟨(sweep_touch run).state, rfl⟩⟩

/-- A run after a step was there before it, with its state unless its task publishes, or a
`start` call that is in flight inserts it. -/
theorem step_run_back {a : Act P} {run' : LiveRun} (h : r.step toValue a = some r')
    (hset : ∀ (k : Nat) (call : StartCall), r.starts[k]? = some call → call.settled = true)
    (hr' : r'.store.runs[id]? = some run') :
    ∃ run, r.store.runs[id]? = some run ∧
      (run'.snapshot.state = run.snapshot.state ∨
        ∃ p last, r.tasks[id]? = some (.publishing p last)) := by
  cases step_store h with
  | same he => exact ⟨run', he ▸ hr', .inl rfl⟩
  | insert k id' spec hk _ _ => cases hset k _ hk
  | publish id' p last run ht hr he =>
    rw [he, Store.publish_runs hr] at hr'
    rcases ExtTreeMap.getElem?_insert_some.1 hr' with ⟨rfl, -⟩ | ⟨-, hr'⟩
    · exact ⟨run, hr, .inr ⟨p, last, ht⟩⟩
    · exact ⟨run', hr', .inl rfl⟩
  | touch id' run run₁ hr ht he =>
    rw [he] at hr'
    rcases ExtTreeMap.getElem?_insert_some.1 hr' with ⟨rfl, rfl⟩ | ⟨-, hr'⟩
    · exact ⟨run, hr, .inl ht.state⟩
    · exact ⟨run', hr', .inl rfl⟩
  | sweep he =>
    rw [he, ExtTreeMap.getElem?_map, Option.map_eq_some_iff] at hr'
    obtain ⟨run, hr, rfl⟩ := hr'
    exact ⟨run, hr, .inl (sweep_touch run).state⟩

/-- Replacing one run by one that was touched, or all runs by swept ones, keeps the journals. -/
theorem StoreStep.journals {store : Store} (h : StoreStep r store) (hj : r.store.Journals) :
    store.Journals := by
  cases h with
  | same he => rw [he]; exact hj
  | insert k id spec _ hn he =>
    have : store = r.store.apply (.insert id spec) := by
      rw [he, Store.apply, Store.insert, if_neg]
      rw [ExtTreeMap.mem_iff_isSome_getElem?, hn]
      simp
    rw [this]
    exact (hj.apply _).1
  | publish id p last run _ _ he =>
    rw [he]
    exact (hj.apply (.publish id p.event p.state p.session)).1
  | touch id run run' hr ht he =>
    rw [he]
    exact (hj.replace' hr (ht.journaled _ (hj.runs id run hr)) ht.earlier).1
  | sweep he =>
    rw [he]
    refine ⟨fun id run' hr => ?_, fun id hn => hj.absent id (by simpa using hn)⟩
    rw [ExtTreeMap.getElem?_map, Option.map_eq_some_iff] at hr
    obtain ⟨run, hr, rfl⟩ := hr
    exact (sweep_touch run).journaled _ (hj.runs id run hr)

theorem journals_exec {acts : List (Act P)} (h : Lts.exec (step toValue) init acts = some r) :
    r.store.Journals :=
  Lts.exec_inv' (I := fun r => r.store.Journals) (fun _ _ _ hi hs => (step_store hs).journals hi)
    Store.journals_empty h

/-- Every event of a run, in its log or on its channel, carries the run's id. -/
structure Named (store : Store) : Prop where
  published : ∀ (id : RunId) (e : SequencedEvent), e ∈ store.published id → e.runId = id
  buffer : ∀ (id : RunId) (run : LiveRun), store.runs[id]? = some run →
    ∀ e ∈ run.events.buffer, e ∈ store.published id

theorem send_buffer {run : LiveRun} {event e : SequencedEvent}
    (h : e ∈ (run.events.send event).2.buffer) : e ∈ run.events.buffer ++ [event] := by
  unfold Broadcast.Shared.send at h
  split at h
  · exact List.mem_append_left _ h
  · unfold Broadcast.Shared.push at h
    dsimp only at h
    split at h
    · exact List.mem_of_mem_tail h
    · exact h

theorem Named.publish {store : Store} {run : LiveRun} (h : Named store) (p : Publication)
    (hr : store.runs[id]? = some run) :
    Named (store.publish id p.event p.state p.session) := by
  refine ⟨fun id' e he => ?_, fun id' run' hr' e he => ?_⟩
  · rw [Store.publish_published hr] at he
    by_cases hid : id' = id
    · subst hid
      rw [Function.update_self] at he
      rcases List.mem_append.1 he with he | he
      · exact h.published id' e he
      · rw [List.mem_singleton] at he
        rw [he]
        rfl
    · rw [Function.update_of_ne hid] at he
      exact h.published id' e he
  · rw [Store.publish_published hr]
    rw [Store.publish_runs hr] at hr'
    rcases ExtTreeMap.getElem?_insert_some.1 hr' with ⟨rfl, rfl⟩ | ⟨hne, hr'⟩
    · rw [Function.update_self]
      rcases List.mem_append.1 (send_buffer he) with he | he
      · exact List.mem_append_left _ (h.buffer id run hr e he)
      · exact List.mem_append_right _ he
    · rw [Function.update_of_ne (Ne.symm hne)]
      exact h.buffer id' run' hr' e he

theorem StoreStep.named {store : Store} (h : StoreStep r store) (hn : Named r.store) :
    Named store := by
  cases h with
  | same he => rw [he]; exact hn
  | insert k id spec _ _ he =>
    rw [he]
    refine ⟨hn.published, fun id' run hr e hm => ?_⟩
    rcases ExtTreeMap.getElem?_insert_some.1 hr with ⟨rfl, rfl⟩ | ⟨-, hr⟩
    · simp [LiveRun.fresh, Broadcast.channel, Broadcast.Shared.dropReceiver] at hm
    · exact hn.buffer id' run hr e hm
  | publish id p last run _ hr he => rw [he]; exact hn.publish p hr
  | touch id run run' hr ht he =>
    rw [he]
    refine ⟨hn.published, fun id' run₀ hr₀ e hm => ?_⟩
    rcases ExtTreeMap.getElem?_insert_some.1 hr₀ with ⟨rfl, rfl⟩ | ⟨-, hr₀⟩
    · rw [ht.buffer] at hm
      exact hn.buffer id run hr e hm
    · exact hn.buffer id' run₀ hr₀ e hm
  | sweep he =>
    rw [he]
    refine ⟨hn.published, fun id run' hr e hm => ?_⟩
    rw [ExtTreeMap.getElem?_map, Option.map_eq_some_iff] at hr
    obtain ⟨run, hr, rfl⟩ := hr
    rw [(sweep_touch run).buffer] at hm
    exact hn.buffer id run hr e hm

theorem named_exec {acts : List (Act P)} (h : Lts.exec (step toValue) init acts = some r) :
    Named r.store :=
  Lts.exec_inv' (I := fun r => Named r.store) (fun _ _ _ hi hs => (step_store hs).named hi)
    ⟨fun _ _ he => by simp [init, Store.empty] at he,
      fun _ _ hr => by simp [init, Store.empty] at hr⟩ h

/-- A call of `start` that is in flight after a step was in flight before, unless it begins. -/
theorem step_starts {a : Act P} {call' : StartCall} (h : r.step toValue a = some r')
    (ha : ∀ k id spec, a ≠ .startCall k id spec) (hk : r'.starts[k]? = some call')
    (hu : call'.settled = false) :
    ∃ call, r.starts[k]? = some call ∧ call.settled = false := by
  have hsame : r'.starts = r.starts → ∃ call, r.starts[k]? = some call ∧ call.settled = false :=
    fun he => ⟨call', he ▸ hk, hu⟩
  have hmove : ∀ (k' : Nat) (c c' : StartCall), r.starts[k']? = some c → c.settled = false →
      r'.starts = r.starts.insert k' c' →
      ∃ call, r.starts[k]? = some call ∧ call.settled = false := fun k' c c' hc hcu he => by
    rw [he] at hk
    rcases ExtTreeMap.getElem?_insert_some.1 hk with ⟨rfl, -⟩ | ⟨-, hk⟩
    · exact ⟨c, hc, hcu⟩
    · exact ⟨call', hk, hu⟩
  cases a with
  | startCall k id spec => exact absurd rfl (ha k id spec)
  | startCheck k =>
    obtain ⟨id, spec, call, -, hc, -, rfl⟩ := startCheck_cases h
    exact hmove k _ _ hc rfl rfl
  | startLaunch k launched =>
    obtain ⟨id, spec, call, log, hc, -, rfl⟩ := startLaunch_cases h
    exact hmove k _ _ hc rfl rfl
  | startInsert k =>
    obtain ⟨id, spec, -, hc, ⟨-, rfl⟩ | ⟨-, rfl⟩⟩ := startInsert_cases h <;>
      exact hmove k _ _ hc rfl rfl
  | startCount k => obtain ⟨id, hc, rfl⟩ := startCount_cases h; exact hmove k _ _ hc rfl rfl
  | startSpawn k => obtain ⟨id, hc, rfl⟩ := startSpawn_cases h; exact hmove k _ _ hc rfl rfl
  | _ => exact hsame ((step_frame h).starts rfl)

/-! ## Steps that leave the runs' states and the calls alone -/

structure Calm (r r' : Registry) : Prop where
  starts : r'.starts = r.starts
  active : r'.active = r.active
  lock : r'.lock = r.lock
  runs : ∀ (id : RunId) (run' : LiveRun), r'.store.runs[id]? = some run' →
    ∃ run, r.store.runs[id]? = some run ∧ run'.snapshot.state = run.snapshot.state

theorem Calm.refl (r : Registry) : Calm r r := ⟨rfl, rfl, rfl, fun _ run h => ⟨run, h, rfl⟩⟩

theorem Calm.trans {a b c : Registry} (h₁ : Calm a b) (h₂ : Calm b c) : Calm a c := by
  refine ⟨h₂.starts.trans h₁.starts, h₂.active.trans h₁.active, h₂.lock.trans h₁.lock,
    fun id run h => ?_⟩
  obtain ⟨run', h', e'⟩ := h₂.runs id run h
  obtain ⟨run'', h'', e''⟩ := h₁.runs id run' h'
  exact ⟨run'', h'', e'.trans e''⟩

theorem client_calm {a : Act P} (ha : a.isClient = true) (h : r.step toValue a = some r') :
    Calm r r' := by
  obtain rfl | ⟨id, run, run', hr, ht, -, -, rfl⟩ := client_cases ha h
  · exact .refl _
  · refine ⟨rfl, rfl, rfl, fun id' run₀ hr₀ => ?_⟩
    rcases ExtTreeMap.getElem?_insert_some.1 hr₀ with ⟨rfl, rfl⟩ | ⟨-, hr₀⟩
    · exact ⟨run, hr, ht.state⟩
    · exact ⟨run₀, hr₀, rfl⟩

theorem client_exec {acts : List (Act P)} (ha : ∀ a ∈ acts, a.isClient = true)
    (h : Lts.exec (step toValue) r acts = some r') : Calm r r' := by
  induction acts generalizing r with
  | nil => cases h; exact .refl _
  | cons a acts ih =>
    obtain ⟨m, hm, h⟩ := Lts.exec_cons_some.1 h
    exact (client_calm (ha a List.mem_cons_self) hm).trans
      (ih (fun a' h' => ha a' (List.mem_cons_of_mem _ h')) h)

end Cases

end Registry

end AgencyProxy.Runtime
