import AgencyProxy.Runtime.Registry

/-!
# The activity count and terminal states

`RunActivity` counts the runs that have not ended. It is adjusted on the insert of a run
and on an active-to-terminal edge only, so it is exact as long as every run takes that edge
once. That rests on the run task: it publishes a terminal state last, and nothing after it.

One arm breaks this. When the payload of a `Usage`, `RateLimit`, `Compaction` or `Commands`
event does not serialise, `publish_provider` fails the run and returns, and the task goes
round its loop again: the next event makes the failed run active without counting it.
-/

namespace AgencyProxy.Runtime

open Std Lts

def LiveRun.isActive (run : LiveRun) : Bool := isActiveState run.snapshot.state

/-- The part of a run that the count depends on. -/
def LiveRun.vital (run : LiveRun) : Bool × Bool := (run.isActive, run.completed)

/-- The task is inside the critical section of `publish`. -/
def RunTask.holds : RunTask → Bool
  | .completing _ | .uncounting _ => true
  | _ => false

/-- The run that the call has inserted and not yet spawned. -/
def StartCall.inserted : StartCall → Option RunId
  | .counting id | .spawning id => some id
  | _ => none

namespace Registry

/-- How often `activity.finished()` was called for the run. -/
def uncountedOf (r : Registry) (id : RunId) : Nat := (r.uncounted.map Prod.fst).count id

/-- The state of a run by where its task stands; `calls` are its calls of `finished()`. -/
def TaskOk (task : Option RunTask) (run : LiveRun) (calls : Nat) : Prop :=
  match task with
  | none | some .selecting | some .cancelling | some .finishing =>
    run.isActive = true ∧ run.completed = false ∧ calls = 0
  | some (.publishing p last) =>
    run.isActive = true ∧ run.completed = false ∧ calls = 0 ∧
      if last then p.Terminal else p.Live
  | some (.completing last) =>
    last = true ∧ run.isActive = false ∧ run.completed = false ∧ calls = 0
  | some (.uncounting last) =>
    last = true ∧ run.isActive = false ∧ run.completed = true ∧ calls = 0
  | some .done => run.isActive = false ∧ run.completed = true ∧ calls = 1

/-- The count, off by what the holder of the lock still has to do. -/
def Balanced (r : Registry) : Prop :=
  match r.lock with
  | .free => r.active = r.store.runs.count LiveRun.isActive
  | .starting _ => r.active + 1 = r.store.runs.count LiveRun.isActive
  | .publishing _ => r.active = r.store.runs.count LiveRun.isActive + 1

structure Inv (r : Registry) : Prop where
  runs : ∀ (id : RunId) (run : LiveRun), r.store.runs[id]? = some run →
    TaskOk r.tasks[id]? run (r.uncountedOf id)
  absent : ∀ id : RunId, r.store.runs[id]? = none → r.tasks[id]? = none ∧ r.uncountedOf id = 0
  publishing : ∀ id : RunId, r.lock = .publishing id ↔ r.tasks[id]?.any RunTask.holds = true
  starting : ∀ k, r.lock = .starting k ↔ ∃ id, r.starts[k]? = some (.counting id)
  pending : ∀ (k : Nat) (c : StartCall) (id : RunId), r.starts[k]? = some c →
    c.inserted = some id → r.store.runs[id]? ≠ none ∧ r.tasks[id]? = none
  unique : ∀ (k k' : Nat) (c c' : StartCall) (id : RunId), r.starts[k]? = some c →
    r.starts[k']? = some c' → c.inserted = some id → c'.inserted = some id → k = k'
  balanced : r.Balanced
  positive : ∀ e ∈ r.uncounted, 0 < e.2

theorem TaskOk.congr {task : Option RunTask} {run run' : LiveRun} {calls : Nat}
    (hv : run'.vital = run.vital) (h : TaskOk task run calls) : TaskOk task run' calls := by
  obtain ⟨ha, hc⟩ := Prod.mk.inj hv
  unfold TaskOk at h ⊢
  rw [ha, hc]
  exact h

theorem inv_init : init.Inv where
  runs id run h := by simp [init, Store.empty] at h
  absent id _ := by simp [init, uncountedOf]
  publishing id := by simp [init]
  starting k := by simp [init]
  pending k c id h := by simp [init] at h
  unique k k' c c' id h := by simp [init] at h
  balanced := by simp [Balanced, init, Store.empty]
  positive e h := by simp [init] at h

variable {P : Type} {toValue : P → Except String Value} {r r' : Registry} {k : Nat} {id : RunId}

/-! ## Steps that leave the count alone -/

/-- A step that changes neither calls of `start` nor tasks, nor whether a run is active. -/
theorem Inv.congr (h : r.Inv)
    (hv : ∀ id : RunId, r'.store.runs[id]?.map LiveRun.vital =
      r.store.runs[id]?.map LiveRun.vital)
    (ha : r'.active = r.active) (hl : r'.lock = r.lock) (ht : r'.tasks = r.tasks)
    (hs : r'.starts = r.starts) (hu : r'.uncounted = r.uncounted) : r'.Inv := by
  have hnone : ∀ id : RunId, r'.store.runs[id]? = none ↔ r.store.runs[id]? = none := fun id => by
    rw [← Option.map_eq_none_iff (f := LiveRun.vital), hv, Option.map_eq_none_iff]
  have hcalls : ∀ id, r'.uncountedOf id = r.uncountedOf id := fun id => by
    rw [uncountedOf, uncountedOf, hu]
  have hcount : r'.store.runs.count LiveRun.isActive = r.store.runs.count LiveRun.isActive := by
    apply ExtTreeMap.count_congr
    intro id
    have := congrArg (Option.map Prod.fst) (hv id)
    rw [Option.map_map, Option.map_map] at this
    exact this
  refine ⟨fun id run' hr => ?_, fun id hn => ?_, fun id => ?_, fun k => ?_,
    fun k c id hc hi => ?_, fun k k' c c' id hc hc' => ?_, ?_, ?_⟩
  · have hm := hv id
    rw [hr, Option.map_some, eq_comm, Option.map_eq_some_iff] at hm
    obtain ⟨run, hrun, he⟩ := hm
    rw [ht, hcalls]
    exact (h.runs id run hrun).congr he.symm
  · rw [ht, hcalls]; exact h.absent id ((hnone id).1 hn)
  · rw [hl, ht]; exact h.publishing id
  · rw [hl, hs]; exact h.starting k
  · rw [hs] at hc
    obtain ⟨h1, h2⟩ := h.pending k c id hc hi
    exact ⟨fun hn => h1 ((hnone id).1 hn), by rw [ht]; exact h2⟩
  · rw [hs] at hc hc'; exact h.unique k k' c c' id hc hc'
  · unfold Balanced; rw [hl, ha, hcount]; exact h.balanced
  · rw [hu]; exact h.positive

theorem Inv.client {a : Act P} (h : r.Inv) (ha : a.isClient = true)
    (hs : r.step toValue a = some r') : r'.Inv := by
  obtain rfl | ⟨id, run, run', hr, ht, -, hcomp, rfl⟩ := client_cases ha hs
  · exact h
  · have hv : run'.vital = run.vital := by
      rw [LiveRun.vital, LiveRun.vital, LiveRun.isActive, LiveRun.isActive, ht.state, hcomp]
    exact h.congr (ExtTreeMap.map_getElem?_insert hr hv) rfl rfl rfl rfl rfl

/-- A call of `start` moves on with no run inserted, before or after. -/
theorem Inv.setStart {call : StartCall} {log : List (Nat × RunId)} (h : r.Inv)
    (hold : ∀ c, r.starts[k]? = some c → c.inserted = none) (hnew : call.inserted = none) :
    ({ r with starts := r.starts.insert k call, launched := log } : Registry).Inv := by
  have hc : ∀ (k' : Nat) (c : StartCall) (id : RunId), (r.starts.insert k call)[k']? = some c →
      c.inserted = some id → r.starts[k']? = some c := fun k' c id hg hi => by
    rcases ExtTreeMap.getElem?_insert_some.1 hg with ⟨rfl, rfl⟩ | ⟨-, hg⟩
    · rw [hnew] at hi; cases hi
    · exact hg
  refine ⟨h.runs, h.absent, h.publishing, fun k' => ?_,
    fun k' c id hg hi => h.pending k' c id (hc k' c id hg hi) hi,
    fun k₁ k₂ c₁ c₂ id h₁ h₂ i₁ i₂ =>
      h.unique k₁ k₂ c₁ c₂ id (hc k₁ c₁ id h₁ i₁) (hc k₂ c₂ id h₂ i₂) i₁ i₂,
    h.balanced, h.positive⟩
  rw [h.starting k']
  constructor
  · rintro ⟨id, hg⟩
    have hne : k ≠ k' := by rintro rfl; cases hold _ hg
    exact ⟨id, by rw [ExtTreeMap.getElem?_insert_of_ne hne, hg]⟩
  · rintro ⟨id, hg⟩
    exact ⟨id, hc k' _ id hg rfl⟩

/-- A task moves on, with what it does to its run, the lock and the count. -/
theorem Inv.move {store : Store} {active : Nat} {lock : Lock} {uncounted : List (RunId × Nat)}
    {t t' : RunTask} (h : r.Inv) (ht : r.tasks[id]? = some t)
    (hother : ∀ id' : RunId, id ≠ id' → store.runs[id']? = r.store.runs[id']? ∧
      (uncounted.map Prod.fst).count id' = r.uncountedOf id')
    (hok : ∃ run, store.runs[id]? = some run ∧
      TaskOk (some t') run ((uncounted.map Prod.fst).count id))
    (hpub : ∀ id', lock = .publishing id' ↔
      (id = id' ∧ t'.holds = true) ∨ (id ≠ id' ∧ r.lock = .publishing id'))
    (hstart : ∀ k, lock = .starting k ↔ r.lock = .starting k)
    (hbal : ({ r with store, active, lock } : Registry).Balanced)
    (hpos : ∀ e ∈ uncounted, 0 < e.2) :
    ({ r with
        store, active, lock, uncounted, tasks := r.tasks.insert id t' } : Registry).Inv := by
  obtain ⟨run, hrun, hok⟩ := hok
  refine ⟨fun id' run' hr => ?_, fun id' hn => ?_, fun id' => ?_, fun k => ?_,
    fun k c id' hc hi => ?_, h.unique, hbal, hpos⟩
  · by_cases he : id = id'
    · subst he
      rw [ExtTreeMap.getElem?_insert_self]
      cases hrun.symm.trans hr
      exact hok
    · obtain ⟨hs, hc⟩ := hother id' he
      rw [ExtTreeMap.getElem?_insert_of_ne he, uncountedOf, hc]
      exact h.runs id' run' (hs ▸ hr)
  · have he : id ≠ id' := by rintro rfl; cases hrun.symm.trans hn
    obtain ⟨hs, hc⟩ := hother id' he
    rw [ExtTreeMap.getElem?_insert_of_ne he, uncountedOf, hc]
    exact h.absent id' (hs ▸ hn)
  · rw [hpub id']
    by_cases he : id = id'
    · subst he; simp
    · rw [ExtTreeMap.getElem?_insert_of_ne he, ← h.publishing id']; simp [he]
  · rw [hstart k]; exact h.starting k
  · obtain ⟨h1, h2⟩ := h.pending k c id' hc hi
    have he : id ≠ id' := by rintro rfl; rw [h2] at ht; cases ht
    refine ⟨by rw [(hother id' he).1]; exact h1, ?_⟩
    rw [ExtTreeMap.getElem?_insert_of_ne he]; exact h2

/-- The run of a task is in the map. -/
theorem Inv.run_of_task {t : RunTask} (h : r.Inv) (ht : r.tasks[id]? = some t) :
    ∃ run, r.store.runs[id]? = some run ∧ TaskOk (some t) run (r.uncountedOf id) := by
  cases hr : r.store.runs[id]? with
  | none => rw [(h.absent id hr).1] at ht; cases ht
  | some run => exact ⟨run, rfl, ht ▸ h.runs id run hr⟩

/-- A task that does not hold the lock says that the lock is not held for its run. -/
theorem Inv.not_publishing {t : RunTask} (h : r.Inv) (ht : r.tasks[id]? = some t)
    (hold : t.holds = false) : r.lock ≠ .publishing id := by
  intro hl
  have := (h.publishing id).1 hl
  rw [ht] at this
  simp [hold] at this

/-- A task moves on outside the critical section of `publish`. -/
theorem Inv.setTask {t t' : RunTask} (h : r.Inv) (ht : r.tasks[id]? = some t)
    (hold : t.holds = false) (hnew : t'.holds = false)
    (hok : ∀ run, TaskOk (some t) run (r.uncountedOf id) →
      TaskOk (some t') run (r.uncountedOf id)) :
    ({ r with tasks := r.tasks.insert id t' } : Registry).Inv := by
  obtain ⟨run, hrun, hrok⟩ := h.run_of_task ht
  refine h.move ht (fun _ _ => ⟨rfl, rfl⟩) ⟨run, hrun, hok run hrok⟩ (fun id' => ?_)
    (fun _ => Iff.rfl) h.balanced h.positive
  have := h.not_publishing ht hold
  constructor
  · intro hl
    exact .inr ⟨by rintro rfl; exact this hl, hl⟩
  · rintro (⟨-, hl⟩ | ⟨-, hl⟩)
    · rw [hnew] at hl; cases hl
    · exact hl

/-! ## Steps that count -/

theorem Inv.startInsert {spec : RunRequest} (h : r.Inv) (hl : r.lock = .free)
    (hn : r.store.runs[id]? = none) :
    ({ r with
        store := { r.store with runs := r.store.runs.insert id (.fresh id spec) }
        lock := .starting k, starts := r.starts.insert k (.counting id) } : Registry).Inv := by
  have hold : ∀ id' : RunId, r.tasks[id']?.any RunTask.holds = false := fun id' => by
    have := (h.publishing id').not.1 (by simp [hl])
    simpa using this
  have hkeep : ∀ id' : RunId, r.store.runs[id']? ≠ none →
      (r.store.runs.insert id (.fresh id spec))[id']? ≠ none := fun id' hne => by
    by_cases he : id = id'
    · subst he; simp
    · rwa [ExtTreeMap.getElem?_insert_of_ne he]
  refine ⟨fun id' run hr => ?_, fun id' hr => ?_, fun id' => ?_, fun k' => ?_,
    fun k' c id' hc hi => ?_, fun k₁ k₂ c₁ c₂ id' h₁ h₂ i₁ i₂ => ?_, ?_, h.positive⟩
  · rcases ExtTreeMap.getElem?_insert_some.1 hr with ⟨rfl, rfl⟩ | ⟨-, hr⟩
    · obtain ⟨ht, hu⟩ := h.absent id hn
      rw [ht]
      exact ⟨rfl, rfl, hu⟩
    · exact h.runs id' run hr
  · have he : id ≠ id' := by rintro rfl; simp at hr
    rw [ExtTreeMap.getElem?_insert_of_ne he] at hr
    exact h.absent id' hr
  · simp [hold id']
  · have hnone : ∀ (k' : Nat) (id' : RunId), r.starts[k']? ≠ some (StartCall.counting id') :=
        fun k' id' hc => by
      have := (h.starting k').2 ⟨id', hc⟩
      rw [hl] at this; cases this
    by_cases he : k = k'
    · subst he; simp
    · simp [ExtTreeMap.getElem?_insert_of_ne he, he, hnone]
  · rcases ExtTreeMap.getElem?_insert_some.1 hc with ⟨rfl, rfl⟩ | ⟨-, hc⟩
    · cases hi
      exact ⟨by simp, (h.absent id hn).1⟩
    · obtain ⟨h1, h2⟩ := h.pending k' c id' hc hi
      exact ⟨hkeep id' h1, h2⟩
  · -- No other call can have inserted `id`: it was not in the map.
    have habs : ∀ (k' : Nat) (c : StartCall), r.starts[k']? = some c → c.inserted ≠ some id :=
      fun k' c hc hi => (h.pending k' c id hc hi).1 hn
    rcases ExtTreeMap.getElem?_insert_some.1 h₁ with ⟨rfl, rfl⟩ | ⟨-, h₁⟩ <;>
      rcases ExtTreeMap.getElem?_insert_some.1 h₂ with ⟨rfl, rfl⟩ | ⟨-, h₂⟩
    · rfl
    · cases i₁; exact absurd i₂ (habs k₂ c₂ h₂)
    · cases i₂; exact absurd i₁ (habs k₁ c₁ h₁)
    · exact h.unique k₁ k₂ c₁ c₂ id' h₁ h₂ i₁ i₂
  · have hb := h.balanced
    simp only [Balanced, hl] at hb ⊢
    rw [ExtTreeMap.count_insert_new hn, hb]
    rfl

theorem Inv.startCount (h : r.Inv) (hk : r.starts[k]? = some (.counting id)) :
    ({ r with
        active := r.active + 1, lock := .free
        starts := r.starts.insert k (.spawning id) } : Registry).Inv := by
  have hl : r.lock = .starting k := (h.starting k).2 ⟨id, hk⟩
  have hc : ∀ (k' : Nat) (c : StartCall) (id' : RunId),
      (r.starts.insert k (.spawning id))[k']? = some c → c.inserted = some id' →
      ∃ c', r.starts[k']? = some c' ∧ c'.inserted = some id' := fun k' c id' hg hi => by
    rcases ExtTreeMap.getElem?_insert_some.1 hg with ⟨rfl, rfl⟩ | ⟨-, hg⟩
    · exact ⟨_, hk, hi⟩
    · exact ⟨c, hg, hi⟩
  refine ⟨h.runs, h.absent, fun id' => ?_, fun k' => ?_, fun k' c id' hg hi => ?_,
    fun k₁ k₂ c₁ c₂ id' h₁ h₂ i₁ i₂ => ?_, ?_, h.positive⟩
  · rw [← h.publishing id', hl]; simp
  · by_cases he : k = k'
    · subst he; simp
    · have : ∀ id', r.starts[k']? ≠ some (.counting id') := fun id' hg => by
        have := (h.starting k').2 ⟨id', hg⟩
        rw [hl] at this
        cases this
        exact he rfl
      simp [ExtTreeMap.getElem?_insert_of_ne he, this]
  · obtain ⟨c', hg', hi'⟩ := hc k' c id' hg hi
    exact h.pending k' c' id' hg' hi'
  · obtain ⟨c₁', g₁, j₁⟩ := hc k₁ c₁ id' h₁ i₁
    obtain ⟨c₂', g₂, j₂⟩ := hc k₂ c₂ id' h₂ i₂
    exact h.unique k₁ k₂ c₁' c₂' id' g₁ g₂ j₁ j₂
  · have hb := h.balanced
    simp only [Balanced, hl] at hb ⊢
    exact hb

theorem Inv.startSpawn (h : r.Inv) (hk : r.starts[k]? = some (.spawning id)) :
    ({ r with
        tasks := r.tasks.insert id .selecting
        starts := r.starts.insert k (.returned id (.ok ())) } : Registry).Inv := by
  obtain ⟨hrun, htask⟩ := h.pending k _ id hk rfl
  have hc : ∀ (k' : Nat) (c : StartCall) (id' : RunId),
      (r.starts.insert k (.returned id (.ok ())))[k']? = some c → c.inserted = some id' →
      k ≠ k' ∧ r.starts[k']? = some c := fun k' c id' hg hi => by
    rcases ExtTreeMap.getElem?_insert_some.1 hg with ⟨rfl, rfl⟩ | hg
    · cases hi
    · exact hg
  refine ⟨fun id' run hr => ?_, fun id' hn => ?_, fun id' => ?_, fun k' => ?_,
    fun k' c id' hg hi => ?_, fun k₁ k₂ c₁ c₂ id' h₁ h₂ i₁ i₂ => ?_, h.balanced, h.positive⟩
  · have hok := h.runs id' run hr
    by_cases he : id = id'
    · subst he
      rw [htask] at hok
      rw [ExtTreeMap.getElem?_insert_self]
      exact hok
    · rw [ExtTreeMap.getElem?_insert_of_ne he]; exact hok
  · have he : id ≠ id' := by rintro rfl; exact hrun hn
    rw [ExtTreeMap.getElem?_insert_of_ne he]
    exact h.absent id' hn
  · rw [h.publishing id']
    by_cases he : id = id'
    · subst he; rw [ExtTreeMap.getElem?_insert_self, htask]; simp [RunTask.holds]
    · rw [ExtTreeMap.getElem?_insert_of_ne he]
  · rw [h.starting k']
    by_cases he : k = k'
    · subst he; simp [hk]
    · rw [ExtTreeMap.getElem?_insert_of_ne he]
  · obtain ⟨hne, hg⟩ := hc k' c id' hg hi
    obtain ⟨h1, h2⟩ := h.pending k' c id' hg hi
    have he : id ≠ id' := by
      rintro rfl
      exact hne (h.unique k k' _ c id hk hg rfl hi)
    exact ⟨h1, by rw [ExtTreeMap.getElem?_insert_of_ne he]; exact h2⟩
  · exact h.unique k₁ k₂ c₁ c₂ id' (hc k₁ c₁ id' h₁ i₁).2 (hc k₂ c₂ id' h₂ i₂).2 i₁ i₂

/-- A terminal publication: the run leaves the active ones, and the lock is kept. -/
theorem Inv.publishLast {p : Publication} {last : Bool} {run : LiveRun} (h : r.Inv)
    (hl : r.lock = .free) (ht : r.tasks[id]? = some (.publishing p last))
    (hr : r.store.runs[id]? = some run) (hf : run.finishes p.state = true) :
    ({ r with
        store := r.store.publish id p.event p.state p.session
        lock := .publishing id
        tasks := r.tasks.insert id (.completing last) } : Registry).Inv := by
  obtain ⟨hact, hcomp, hcalls, hp⟩ : TaskOk (some (.publishing p last)) run (r.uncountedOf id) :=
    ht ▸ h.runs id run hr
  have hend : isActiveState (p.state.getD run.snapshot.state) = false := by
    simp only [LiveRun.finishes, Bool.and_eq_true, Bool.not_eq_true'] at hf
    exact hf.2
  have hlast : last = true := by
    cases last with
    | true => rfl
    | false =>
      obtain ⟨s, hs, hlive⟩ := hp
      rw [hs, Option.getD_some, hlive] at hend
      cases hend
  have hrun' : (run.publish id p.event p.state p.session).isActive = false := hend
  refine h.move ht (fun id' he => ⟨?_, rfl⟩)
    ⟨run.publish id p.event p.state p.session, ?_, hlast, hrun', hcomp, hcalls⟩
    (fun id' => ?_) (fun k => ?_) ?_ h.positive
  · simp [Store.publish, hr, ExtTreeMap.getElem?_insert_of_ne he]
  · simp [Store.publish, hr]
  · simp [hl, RunTask.holds]
  · simp [hl]
  · have hb := h.balanced
    have hcount := ExtTreeMap.count_insert_old (p := LiveRun.isActive) hr
      (v := run.publish id p.event p.state p.session)
    rw [hrun', hact] at hcount
    simp only [Balanced, hl, Store.publish, hr] at hb ⊢
    simp only [Bool.toNat_true, Bool.toNat_false] at hcount
    omega

/-- Any other publication keeps its run active. -/
theorem Inv.publishNext {p : Publication} {last : Bool} {run : LiveRun} (h : r.Inv)
    (hl : r.lock = .free) (ht : r.tasks[id]? = some (.publishing p last))
    (hr : r.store.runs[id]? = some run) (hf : run.finishes p.state = false) :
    ({ r with
        store := r.store.publish id p.event p.state p.session
        tasks := r.tasks.insert id (afterPublish last) } : Registry).Inv := by
  obtain ⟨hact, hcomp, hcalls, hp⟩ : TaskOk (some (.publishing p last)) run (r.uncountedOf id) :=
    ht ▸ h.runs id run hr
  have hlive : isActiveState (p.state.getD run.snapshot.state) = true := by
    have : isActiveState run.snapshot.state = true := hact
    simpa [LiveRun.finishes, this] using hf
  have hlast : last = false := by
    cases last with
    | false => rfl
    | true =>
      obtain ⟨s, hs, hend⟩ := hp
      rw [hs, Option.getD_some, hend] at hlive
      cases hlive
  have hrun' : (run.publish id p.event p.state p.session).isActive = true := hlive
  subst hlast
  refine h.move ht (fun id' he => ⟨?_, rfl⟩)
    ⟨run.publish id p.event p.state p.session, ?_, hrun', hcomp, hcalls⟩
    (fun id' => ?_) (fun k => Iff.rfl) ?_ h.positive
  · simp [Store.publish, hr, ExtTreeMap.getElem?_insert_of_ne he]
  · simp [Store.publish, hr]
  · simp [hl, RunTask.holds, afterPublish]
  · have hb := h.balanced
    have hcount := ExtTreeMap.count_insert_old (p := LiveRun.isActive) hr
      (v := run.publish id p.event p.state p.session)
    rw [hrun', hact] at hcount
    simp only [Balanced, hl, Store.publish, hr] at hb ⊢
    omega

theorem Inv.complete {last : Bool} (h : r.Inv) (ht : r.tasks[id]? = some (.completing last)) :
    ({ r with
        store := r.store.modify id fun run => { run with completed := true }
        tasks := r.tasks.insert id (.uncounting last) } : Registry).Inv := by
  obtain ⟨run, hr, hlast, hact, -, hcalls⟩ := h.run_of_task ht
  have hl : r.lock = .publishing id := (h.publishing id).2 (by rw [ht]; rfl)
  refine h.move ht (fun id' he => ⟨?_, rfl⟩)
    ⟨{ run with completed := true }, ?_, hlast, hact, rfl, hcalls⟩
    (fun id' => ?_) (fun k => Iff.rfl) ?_ h.positive
  · simp [Store.modify, hr, ExtTreeMap.getElem?_insert_of_ne he]
  · simp [Store.modify, hr]
  · simp [hl, RunTask.holds]
  · have hb := h.balanced
    have hcount : (r.store.runs.insert id { run with completed := true }).count LiveRun.isActive =
        r.store.runs.count LiveRun.isActive :=
      ExtTreeMap.count_congr (ExtTreeMap.map_getElem?_insert hr rfl)
    simp only [Balanced, hl, Store.modify, hr] at hb ⊢
    rw [hcount, hb]

theorem Inv.uncount {last : Bool} (h : r.Inv) (ht : r.tasks[id]? = some (.uncounting last)) :
    ({ r with
        active := r.active - 1, lock := .free
        tasks := r.tasks.insert id (afterPublish last)
        uncounted := r.uncounted ++ [(id, r.active)] } : Registry).Inv := by
  obtain ⟨run, hr, rfl, hact, hcomp, hcalls⟩ := h.run_of_task ht
  have hl : r.lock = .publishing id := (h.publishing id).2 (by rw [ht]; rfl)
  have hb := h.balanced
  simp only [Balanced, hl] at hb
  refine h.move ht (fun id' he => ⟨rfl, ?_⟩) ⟨run, hr, hact, hcomp, ?_⟩ (fun id' => ?_)
    (fun k => by simp [hl]) ?_ (fun e he => ?_)
  · simp [uncountedOf, he]
  · rw [List.map_append, List.count_append,
      show (r.uncounted.map Prod.fst).count id = 0 from hcalls]
    simp
  · simp only [hl, Lock.publishing.injEq, reduceCtorEq, false_iff]
    rintro (⟨-, hh⟩ | ⟨hne, he⟩)
    · simp [afterPublish, RunTask.holds] at hh
    · exact hne he
  · simp only [Balanced]; omega
  · rcases List.mem_append.1 he with he | he
    · exact h.positive e he
    · rw [List.mem_singleton] at he
      rw [he]
      show 0 < r.active
      omega

/-! ## Whole runs -/

/-- The step receives no event whose payload does not serialise. -/
def Act.Serialises (toValue : P → Except String Value) : Act P → Prop
  | .recv _ (some event) => event.Serialises toValue
  | _ => True

theorem serialises_of_total (total : ∀ p, ∃ v, toValue p = .ok v) (a : Act P) :
    a.Serialises toValue := by
  cases a with
  | recv id event =>
    cases event with
    | none => trivial
    | some event => cases event <;> first | trivial | exact total _
  | _ => trivial

theorem sweep_vital (run : LiveRun) : (sweep run).vital = run.vital := by
  unfold sweep; split <;> rfl

theorem Inv.step {a : Act P} (h : r.Inv) (ha : a.Serialises toValue)
    (hs : r.step toValue a = some r') : r'.Inv := by
  cases a with
  | startCall k id spec =>
    obtain ⟨hk, rfl⟩ := startCall_cases hs
    exact h.setStart (by simp [hk]) rfl
  | startCheck k =>
    obtain ⟨id, spec, call, -, hk, hcall, rfl⟩ := startCheck_cases hs
    refine h.setStart (fun c hc => ?_) ?_
    · cases hk.symm.trans hc; rfl
    · rcases hcall with rfl | ⟨-, rfl⟩ <;> rfl
  | startLaunch k launched =>
    obtain ⟨id, spec, call, log, hk, hcall, rfl⟩ := startLaunch_cases hs
    refine h.setStart (fun c hc => ?_) ?_
    · cases hk.symm.trans hc; rfl
    · rcases hcall with ⟨e, rfl⟩ | rfl <;> rfl
  | startInsert k =>
    obtain ⟨id, spec, hl, hk, ⟨-, rfl⟩ | ⟨hn, rfl⟩⟩ := startInsert_cases hs
    · refine h.setStart (fun c hc => ?_) rfl
      cases hk.symm.trans hc; rfl
    · exact h.startInsert hl hn
  | startCount k =>
    obtain ⟨id, hk, rfl⟩ := startCount_cases hs
    exact h.startCount hk
  | startSpawn k =>
    obtain ⟨id, hk, rfl⟩ := startSpawn_cases hs
    exact h.startSpawn hk
  | recv id event =>
    obtain ⟨ht, -, ⟨-, rfl⟩ | ⟨e, p, rfl, hp, rfl⟩ | rfl⟩ := recv_cases hs
    · exact h.setTask ht rfl rfl fun run hok => hok
    · exact h.setTask ht rfl rfl fun run ⟨h1, h2, h3⟩ => ⟨h1, h2, h3, publishProvider_live ha hp⟩
    · exact h
  | sawCancel id =>
    obtain ⟨ht, -, rfl⟩ := sawCancel_cases hs
    exact h.setTask ht rfl rfl fun run hok => hok
  | canceled id =>
    obtain ⟨ht, p, hp, rfl⟩ := canceled_cases hs
    exact h.setTask ht rfl rfl fun run ⟨h1, h2, h3⟩ => ⟨h1, h2, h3, hp⟩
  | finish id outcome =>
    obtain ⟨ht, p, hp, rfl⟩ := finish_cases hs
    exact h.setTask ht rfl rfl fun run ⟨h1, h2, h3⟩ => ⟨h1, h2, h3, hp⟩
  | publish id =>
    obtain ⟨p, last, hl, ht, ⟨hn, -⟩ | ⟨run, hr, ⟨hf, rfl⟩ | ⟨hf, rfl⟩⟩⟩ := publish_cases hs
    · rw [(h.absent id hn).1] at ht; cases ht
    · exact h.publishLast hl ht hr hf
    · exact h.publishNext hl ht hr hf
  | complete id =>
    obtain ⟨last, ht, rfl⟩ := complete_cases hs
    exact h.complete ht
  | uncount id =>
    obtain ⟨last, ht, rfl⟩ := uncount_cases hs
    exact h.uncount ht
  | cancelCall k id =>
    obtain ⟨-, rfl⟩ := cancelCall_cases hs
    exact h.congr (fun _ => rfl) rfl rfl rfl rfl rfl
  | cancelTake k =>
    obtain ⟨id, -, -, ⟨e, -, rfl⟩ | ⟨run, hr, -, rfl⟩⟩ := cancelTake_cases hs
    · exact h.congr (fun _ => rfl) rfl rfl rfl rfl rfl
    · exact h.congr (ExtTreeMap.map_getElem?_insert hr rfl) rfl rfl rfl rfl rfl
  | cancelSend k =>
    obtain ⟨id, -, rfl⟩ := cancelSend_cases hs
    exact h.congr (fun _ => rfl) rfl rfl rfl rfl rfl
  | cancelWait k =>
    obtain ⟨id, run, -, -, -, rfl⟩ := cancelWait_cases hs
    exact h.congr (fun _ => rfl) rfl rfl rfl rfl rfl
  | cancelAll =>
    obtain ⟨-, rfl⟩ := cancelAll_cases hs
    refine h.congr (fun id => ?_) rfl rfl rfl rfl rfl
    rw [ExtTreeMap.getElem?_map, Option.map_map]
    exact congrArg (Option.map · _) (funext sweep_vital)
  | acknowledge id through => exact h.client rfl hs
  | attach id after => exact h.client rfl hs
  | dropReceiver id => exact h.client rfl hs

/-- **Terminal is final**, one step: nothing is published on a run that has ended. -/
theorem Inv.final_step {a : Act P} {run : LiveRun} (h : r.Inv)
    (hs : r.step toValue a = some r') (hr : r.store.runs[id]? = some run)
    (hend : run.isActive = false) :
    ∃ run', r'.store.runs[id]? = some run' ∧ run'.isActive = false ∧
      r'.store.published id = r.store.published id := by
  obtain ⟨run', hr', ⟨hstate, hlog⟩ | ⟨p, last, ht⟩⟩ := step_run hs hr
  · exact ⟨run', hr', by rw [LiveRun.isActive, hstate]; exact hend, hlog⟩
  · have hok : TaskOk (some (.publishing p last)) run _ := ht ▸ h.runs id run hr
    rw [hok.1] at hend
    cases hend

/-- The activity count is exact, and each run was uncounted once if it has ended, from a count
above zero. -/
def Exact (r : Registry) : Prop :=
  (r.lock = .free → r.active = r.store.runs.count LiveRun.isActive) ∧
  (∀ id, r.uncountedOf id ≤ 1) ∧
  (r.lock = .free → ∀ (id : RunId) (run : LiveRun), r.store.runs[id]? = some run →
    r.uncountedOf id = if run.isActive then 0 else 1) ∧
  ∀ e ∈ r.uncounted, 0 < e.2

/-- A run that has ended in `r` has ended in `r'`, and nothing was published on it since. -/
def Final (r r' : Registry) : Prop :=
  ∀ (id : RunId) (run : LiveRun), r.store.runs[id]? = some run → run.isActive = false →
    ∃ run', r'.store.runs[id]? = some run' ∧ run'.isActive = false ∧
      r'.store.published id = r.store.published id

theorem Inv.exact (h : r.Inv) : r.Exact := by
  refine ⟨fun hl => ?_, fun id => ?_, fun hl id run hr => ?_, h.positive⟩
  · have := h.balanced
    simpa only [Balanced, hl] using this
  · cases hr : r.store.runs[id]? with
    | none => rw [(h.absent id hr).2]; exact Nat.zero_le _
    | some run =>
      have hok := h.runs id run hr
      unfold TaskOk at hok
      split at hok <;> omega
  · have hok := h.runs id run hr
    have hpub := (h.publishing id).not.1 (by simp [hl])
    cases ht : r.tasks[id]? with
    | none => rw [ht] at hok; simp [hok.1, hok.2.2]
    | some t =>
      rw [ht] at hok hpub
      cases t with
      | completing last => simp [RunTask.holds] at hpub
      | uncounting last => simp [RunTask.holds] at hpub
      | publishing p last => simp [hok.1, hok.2.2.1]
      | _ => simp [hok.1, hok.2.2]

theorem inv_exec {acts : List (Act P)} (hr : r.Inv) (ha : ∀ a ∈ acts, a.Serialises toValue)
    (h : exec (step toValue) r acts = some r') : r'.Inv :=
  exec_inv (C := fun _ a => a.Serialises toValue) (fun _ _ _ hi ha hs => hi.step ha hs) hr
    (along_of_mem ha r) h

theorem final_exec {acts : List (Act P)} (hr : r.Inv) (ha : ∀ a ∈ acts, a.Serialises toValue)
    (h : exec (step toValue) r acts = some r') : r.Final r' := by
  refine exec_mono (I := Inv) (C := fun _ a => a.Serialises toValue) ?_ ?_
    (fun _ _ _ hi ha hs => hi.step ha hs) (fun _ _ _ hi _ hs _ _ h₁ h₂ => hi.final_step hs h₁ h₂)
    hr (along_of_mem ha r) h
  · exact fun s id run h₁ h₂ => ⟨run, h₁, h₂, rfl⟩
  · intro a b c hab hbc id run h₁ h₂
    obtain ⟨run', h₁', h₂', hl⟩ := hab id run h₁ h₂
    obtain ⟨run'', h₁'', h₂'', hl'⟩ := hbc id run' h₁' h₂'
    exact ⟨run'', h₁'', h₂'', hl'.trans hl⟩

/-- **Exact activity, final ends.** In every run of the registry in which every received
payload serialises: the count is the number of active runs whenever the lock is free, every
run that ends is uncounted exactly once and never from zero, and a run that has ended stays
ended with nothing published on it. -/
theorem activity_exact (toValue : P → Except String Value) (acts later : List (Act P))
    (r r' : Registry) (h : exec (step toValue) init acts = some r)
    (h' : exec (step toValue) r later = some r')
    (hs : ∀ a ∈ acts ++ later, a.Serialises toValue) :
    r.Exact ∧ r.Final r' := by
  have hinv : r.Inv := inv_exec inv_init (fun a ha => hs a (List.mem_append_left _ ha)) h
  exact ⟨hinv.exact, final_exec hinv (fun a ha => hs a (List.mem_append_right _ ha)) h'⟩

/-- The steps of a `start` call that succeeds. -/
def startSteps (k : Nat) (id : RunId) : List (Act P) :=
  [.startCall k id plainRequest, .startCheck k, .startLaunch k (.ok ()), .startInsert k,
   .startCount k, .startSpawn k]

/-- A run that reports its usage and completes. -/
def naturalEnd : List (Act Unit) :=
  startSteps 0 ⟨"r"⟩ ++
    [.recv ⟨"r"⟩ (some (.usage ())), .publish ⟨"r"⟩, .recv ⟨"r"⟩ none,
     .finish ⟨"r"⟩ (.ok ⟨true, ()⟩), .publish ⟨"r"⟩, .complete ⟨"r"⟩, .uncount ⟨"r"⟩]

theorem activity_exact_naturalEnd :
    ∃ r : Registry, exec (step fun _ => .ok .null) init naturalEnd = some r ∧
      r.uncounted = [(⟨"r"⟩, 1)] ∧ r.Exact := by
  have h : (exec (step fun _ => .ok .null) init naturalEnd).map Registry.uncounted =
      some [(⟨"r"⟩, 1)] := by decide
  obtain ⟨r, hr, hu⟩ := Option.map_eq_some_iff.1 h
  refine ⟨r, hr, hu, (activity_exact _ naturalEnd [] r r hr rfl fun a ha => ?_).1⟩
  simp only [naturalEnd, startSteps, List.append_nil, List.mem_append, List.mem_cons,
    List.not_mem_nil, or_false] at ha
  rcases ha with (rfl | rfl | rfl | rfl | rfl | rfl) | rfl | rfl | rfl | rfl | rfl | rfl | rfl <;>
    first | trivial | exact ⟨_, rfl⟩

/-- The run's first usage report does not serialise: it is failed, and uncounted. -/
def unserialised : List (Act Unit) :=
  startSteps 0 ⟨"r"⟩ ++
    [.recv ⟨"r"⟩ (some (.usage ())), .publish ⟨"r"⟩, .complete ⟨"r"⟩, .uncount ⟨"r"⟩]

/-- Its task then goes on with the next event. -/
def nextEvent : List (Act Unit) := [.recv ⟨"r"⟩ (some (.text "more")), .publish ⟨"r"⟩]

/-- The failed run is running again and not counted. -/
theorem activity_exact_unserialised :
    ∃ r r' : Registry,
      exec (step fun _ => .error "key must be a string") init unserialised = some r ∧
      exec (step fun _ => .error "key must be a string") r nextEvent = some r' ∧
      ¬ r'.Exact ∧ ¬ r.Final r' := by
  have h : (exec (step fun _ => .error "key must be a string") init unserialised).map
      (fun r => (r.store.runs[RunId.mk "r"]?.map LiveRun.isActive,
        (exec (step fun _ => .error "key must be a string") r nextEvent).map fun r' =>
          (r'.lock, r'.active, r'.store.runs.count LiveRun.isActive,
            r'.store.runs[RunId.mk "r"]?.map LiveRun.isActive))) =
      some (some false, some (.free, 0, 1, some true)) := by decide +kernel
  obtain ⟨r, hr, h⟩ := Option.map_eq_some_iff.1 h
  obtain ⟨hrun, h⟩ := Prod.mk.inj h
  obtain ⟨r', hr', h⟩ := Option.map_eq_some_iff.1 h
  simp only [Prod.mk.injEq] at h
  obtain ⟨hl, ha, hc, hrun'⟩ := h
  refine ⟨r, r', hr, hr', fun hex => ?_, fun hfin => ?_⟩
  · have := hex.1 hl
    omega
  · obtain ⟨run, hrun, hend⟩ := Option.map_eq_some_iff.1 hrun
    obtain ⟨run', hrun₁, hend', -⟩ := hfin _ run hrun hend
    rw [hrun₁] at hrun'
    simp [hend'] at hrun'

end Registry

end AgencyProxy.Runtime
