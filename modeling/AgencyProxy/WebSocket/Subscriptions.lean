import AgencyProxy.Daemon.Streams
import AgencyProxy.WebSocket

/-!
# Which subscription speaks

A `SubscribeRun` is answered when its handler returns, but its forwarder is spawned before
that, and the one that it replaces may be in the middle of a poll when it is aborted. So a
notification may come before the response of its subscription, or after that of the next one.
`undisturbed` is what has to hold of a step so that neither happens; in runs that keep to it
each notification is of the last subscription that was answered.
-/

namespace AgencyProxy.WebSocket

open AgencyProxy.Runtime Std Lts

/-! ## The steps of a connection -/

inductive Moves (r : Registry) (g : Nat) (conn : Conn) : Conn.Act → Registry → Nat → Conn → Prop
  | subscribe (request : SubscribeRunRequest) (handler : conn.handler = .idle) :
      Moves r g conn (.call (.subscribeRun request)) r g
        { conn with handler := .attaching request }
  | unsubscribe (request : UnsubscribeRunRequest) (handler : conn.handler = .idle) :
      Moves r g conn (.call (.unsubscribeRun request)) r g
        { conn with handler := .unsubscribing request }
  | attach (request : SubscribeRunRequest) (attachment : Attachment) (store : Store)
      (handler : conn.handler = .attaching request) (lock : r.lock = .free)
      (ok : r.store.attach request.runId request.afterSequence = .ok (attachment, store)) :
      Moves r g conn .attach { r with store } g
        { conn with handler := .numbering request attachment }
  | refuse (request : SubscribeRunRequest) (e : RuntimeError)
      (handler : conn.handler = .attaching request) :
      Moves r g conn .attach r g
        { conn with handler := .returning (.refused request (runtimeError e)) }
  | number (request : SubscribeRunRequest) (attachment : Attachment)
      (handler : conn.handler = .numbering request attachment) :
      Moves r g conn .nextGeneration r (g + 1)
        { conn with handler := .inserting request attachment (g + 1) }
  | insert (request : SubscribeRunRequest) (attachment : Attachment) (n : Nat)
      (handler : conn.handler = .inserting request attachment n) :
      Moves r g conn .insert r g
        { conn.abort conn.active[request.runId]? with
          active := conn.active.insert request.runId n
          handler := .spawning request attachment n }
  | spawn (request : SubscribeRunRequest) (attachment : Attachment) (n : Nat)
      (handler : conn.handler = .spawning request attachment n) :
      Moves r g conn .spawn r g
        { conn with
          forwards := conn.forwards.insert n
            ⟨request.runId, Forwarder.start attachment request.afterSequence, false, false⟩
          handler := .returning
            (.subscribed n request ⟨attachment.snapshot, attachment.replay.map webRunEvent⟩) }
  | remove (request : UnsubscribeRunRequest) (response : UnsubscribeRunResponse)
      (handler : conn.handler = .unsubscribing request) :
      Moves r g conn .unsubscribe r g
        { conn.abort conn.active[request.runId]? with
          active := conn.active.erase request.runId
          handler := .returning (.unsubscribed request response) }
  | respond (response : Response) (handler : conn.handler = .returning response) :
      Moves r g conn .respond r g
        { conn with queue := conn.queue ++ [.response response], handler := .idle }
  | disconnect (handler : conn.handler = .idle ∨ ∃ request, conn.handler = .attaching request) :
      Moves r g conn .disconnect r g
        { conn with
          connected := false
          handler := .idle
          active := ∅
          forwards := conn.forwards.map fun n task =>
            if conn.active[task.id]? = some n then { task with aborted := true } else task }
  | wake (n : Nat) (task : Forward) (found : conn.forwards[n]? = some task) :
      Moves r g conn (.wake n) r g
        { conn with forwards := conn.forwards.insert n { task with polling := true } }
  | forward (n : Nat) (task : Forward) (stepped : Forwarder.Stepped)
      (found : conn.forwards[n]? = some task)
      (lock : r.lock = .free ∨ task.forwarder.phase ≠ .lagged)
      (ok : forwardRunEvents r.store task.id task.forwarder
        (AgencyProxy.Conn.forwardAct task.forwarder conn.connected) = some stepped) :
      Moves r g conn (.forward n) { r with store := stepped.store } g
        { conn with
          forwards := conn.forwards.insert n { task with forwarder := stepped.forwarder }
          queue :=
            if conn.connected then conn.queue ++ (stepped.handed.map (Queued.notified n)).toList
            else conn.queue }
  | suspend (n : Nat) (task : Forward) (found : conn.forwards[n]? = some task) :
      Moves r g conn (.suspend n) r g
        { conn with forwards := conn.forwards.insert n { task with polling := false } }
  | reap (n : Nat) (task : Forward) (found : conn.forwards[n]? = some task)
      (aborted : task.aborted = true) :
      Moves r g conn (.reap n)
        { r with store := (Forwarder.close r.store task.id task.forwarder).store } g
        { conn with
          forwards := conn.forwards.insert n
            { task with
              forwarder := (Forwarder.close r.store task.id task.forwarder).forwarder } }
  | removeIfCurrent (n : Nat) (task : Forward) (found : conn.forwards[n]? = some task)
      (returned : ended task = true) :
      Moves r g conn (.removeIfCurrent n) r g
        { conn with
          forwards := conn.forwards.insert n { task with polling := false }
          active :=
            if conn.active[task.id]? = some n then conn.active.erase task.id else conn.active }

variable {r r' : Registry} {g g' n : Nat} {conn conn' : Conn}

theorem call_moves {request : Request} (h : conn.call request = some conn') :
    Moves r g conn (.call request) r g conn' := by
  unfold Conn.call at h
  split at h
  · rename_i hh; cases h; exact .subscribe _ hh
  · rename_i hh; cases h; exact .unsubscribe _ hh
  · cases h

theorem attach_moves (h : conn.attach r = some (r', conn')) :
    Moves r g conn .attach r' g conn' := by
  unfold Conn.attach at h
  split at h
  · rename_i request hh
    split at h
    · rename_i hl
      split at h
      · rename_i attachment store ha; cases h; exact .attach request attachment store hh hl ha
      · cases h; exact .refuse request _ hh
    · cases h
  · cases h

theorem insert_moves (h : conn.insert = some conn') : Moves r g conn .insert r g conn' := by
  unfold Conn.insert at h
  split at h
  · rename_i hh; cases h; exact .insert _ _ _ hh
  · cases h

theorem spawn_moves (h : conn.spawn = some conn') : Moves r g conn .spawn r g conn' := by
  unfold Conn.spawn at h
  split at h
  · rename_i hh; cases h; exact .spawn _ _ _ hh
  · cases h

theorem unsubscribe_moves (h : conn.unsubscribe = some conn') :
    Moves r g conn .unsubscribe r g conn' := by
  unfold Conn.unsubscribe at h
  split at h
  · rename_i hh; cases h; exact .remove _ _ hh
  · cases h

theorem respond_moves (h : conn.respond = some conn') : Moves r g conn .respond r g conn' := by
  unfold Conn.respond at h
  split at h
  · rename_i hh; cases h; exact .respond _ hh
  · cases h

theorem disconnect_moves (h : conn.disconnect = some conn') :
    Moves r g conn .disconnect r g conn' := by
  unfold Conn.disconnect at h
  split at h
  · rename_i hh; cases h; exact .disconnect (.inl hh)
  · rename_i request _ hh; cases h; exact .disconnect (.inr ⟨request, hh⟩)
  · cases h

theorem wake_moves (h : conn.wake n = some conn') : Moves r g conn (.wake n) r g conn' := by
  unfold Conn.wake at h
  split at h
  · rename_i task hf
    split at h
    · cases h
    · cases h; exact .wake n task hf
  · cases h

theorem forward_moves (h : conn.forward r n = some (r', conn')) :
    Moves r g conn (.forward n) r' g conn' := by
  unfold Conn.forward at h
  split at h
  · rename_i task hf
    split at h
    · rename_i hg
      split at h
      · rename_i stepped hs
        cases h
        refine .forward n task stepped hf ?_ hs
        simp only [Bool.and_eq_true, Bool.or_eq_true, decide_eq_true_eq, Bool.not_eq_true'] at hg
        refine hg.2.imp_right fun hr hp => ?_
        simp [Forward.reattaches, hp] at hr
      · cases h
    · cases h
  · cases h

theorem suspend_moves (h : conn.suspend r n = some conn') :
    Moves r g conn (.suspend n) r g conn' := by
  unfold Conn.suspend at h
  split at h
  · rename_i task hf
    split at h
    · cases h; exact .suspend n task hf
    · cases h
  · cases h

theorem reap_moves (h : conn.reap r n = some (r', conn')) :
    Moves r g conn (.reap n) r' g conn' := by
  unfold Conn.reap at h
  split at h
  · rename_i task hf
    split at h
    · rename_i hg
      simp only [Bool.and_eq_true] at hg
      cases h
      exact .reap n task hf hg.1
    · cases h
  · cases h

theorem removeIfCurrent_moves (h : conn.removeIfCurrent n = some conn') :
    Moves r g conn (.removeIfCurrent n) r g conn' := by
  unfold Conn.removeIfCurrent at h
  split at h
  · rename_i task hf
    split at h
    · rename_i hg
      simp only [Bool.and_eq_true] at hg
      cases h
      exact .removeIfCurrent n task hf hg.2
    · cases h
  · cases h

/-- **Inversion**: a step of a connection is one of these. -/
theorem connStep_moves {a : Conn.Act} (h : Server.connStep r g conn a = some (r', g', conn')) :
    Moves r g conn a r' g' conn' := by
  cases a with
  | call request => obtain ⟨_, hc, he⟩ := Option.map_eq_some_iff.1 h; cases he; exact call_moves hc
  | attach => obtain ⟨_, hc, he⟩ := Option.map_eq_some_iff.1 h; cases he; exact attach_moves hc
  | nextGeneration =>
    simp only [Server.connStep] at h
    split at h
    · rename_i hh; cases h; exact .number _ _ hh
    · cases h
  | insert => obtain ⟨_, hc, he⟩ := Option.map_eq_some_iff.1 h; cases he; exact insert_moves hc
  | spawn => obtain ⟨_, hc, he⟩ := Option.map_eq_some_iff.1 h; cases he; exact spawn_moves hc
  | unsubscribe =>
    obtain ⟨_, hc, he⟩ := Option.map_eq_some_iff.1 h
    cases he
    exact unsubscribe_moves hc
  | respond => obtain ⟨_, hc, he⟩ := Option.map_eq_some_iff.1 h; cases he; exact respond_moves hc
  | disconnect =>
    obtain ⟨_, hc, he⟩ := Option.map_eq_some_iff.1 h
    cases he
    exact disconnect_moves hc
  | wake n => obtain ⟨_, hc, he⟩ := Option.map_eq_some_iff.1 h; cases he; exact wake_moves hc
  | forward n =>
    obtain ⟨_, hc, he⟩ := Option.map_eq_some_iff.1 h
    cases he
    exact forward_moves hc
  | suspend n => obtain ⟨_, hc, he⟩ := Option.map_eq_some_iff.1 h; cases he; exact suspend_moves hc
  | reap n => obtain ⟨_, hc, he⟩ := Option.map_eq_some_iff.1 h; cases he; exact reap_moves hc
  | removeIfCurrent n =>
    obtain ⟨_, hc, he⟩ := Option.map_eq_some_iff.1 h
    cases he
    exact removeIfCurrent_moves hc

/-! ## Which subscription is current -/

/-- The subscription to the run that the entry answers. -/
def Queued.subscribes (id : RunId) : Queued → Option Nat
  | .response (.subscribed n request _) => if request.runId = id then some n else none
  | _ => none

/-- The last subscription to the run that was answered. -/
def lastSubscribed (id : RunId) (queue : List Queued) : Option Nat :=
  (queue.filterMap (Queued.subscribes id)).getLast?

def Queued.notifiedBy (n : Nat) : Queued → Option SequencedEvent
  | .notified m event => if m = n then some event else none
  | _ => none

/-- The events of which the subscription `n` has notified. -/
def notifiedBy (n : Nat) (queue : List Queued) : List SequencedEvent :=
  queue.filterMap (Queued.notifiedBy n)

def Queued.notifies (id : RunId) : Queued → Option SequencedEvent
  | .notified _ event => if event.runId = id then some event else none
  | _ => none

/-- The notifications of a run, in a part of the queue. -/
def notificationsFor (id : RunId) (queue : List Queued) : List SequencedEvent :=
  queue.filterMap (Queued.notifies id)

theorem lastSubscribed_snoc {id : RunId} {queue : List Queued} {q : Queued} :
    lastSubscribed id (queue ++ [q]) = (q.subscribes id).or (lastSubscribed id queue) := by
  cases h : q.subscribes id <;> simp [lastSubscribed, h]

theorem notifiedBy_snoc {queue : List Queued} {q : Queued} :
    notifiedBy n (queue ++ [q]) = notifiedBy n queue ++ (q.notifiedBy n).toList := by
  cases h : q.notifiedBy n <;> simp [notifiedBy, h]

theorem lastSubscribed_append {id : RunId} {queue mid : List Queued}
    (h : ∀ q ∈ mid, q.subscribes id = none) :
    lastSubscribed id (queue ++ mid) = lastSubscribed id queue := by
  rw [lastSubscribed, List.filterMap_append, List.filterMap_eq_nil_iff.2 h, List.append_nil]
  rfl

/-- A subscription that was answered has its response on the queue. -/
theorem mem_of_lastSubscribed {id : RunId} {queue : List Queued}
    (h : lastSubscribed id queue = some n) :
    ∃ request response, Queued.response (.subscribed n request response) ∈ queue ∧
      request.runId = id := by
  obtain ⟨q, hq, hs⟩ := List.mem_filterMap.1 (List.mem_of_getLast? h)
  unfold Queued.subscribes at hs
  split at hs
  · rename_i request response
    split at hs
    · rename_i hid; cases hs; exact ⟨request, response, hq, hid⟩
    · cases hs
  · cases hs

namespace Conn

/-- The `SubscribeRun` that has registered its forwarder and was not answered yet. -/
def pending (conn : Conn) : Option (RunId × Nat) :=
  match conn.handler with
  | .spawning request _ n | .returning (.subscribed n request _) => some (request.runId, n)
  | _ => none

/-- No task hands an event over once it is aborted, nor while a `SubscribeRun` for its run that
has registered a forwarder is not answered yet. -/
def undisturbed (store : Store) (conn : Conn) : Act → Bool
  | .forward n =>
    match conn.forwards[n]? with
    | some task =>
      !conn.connected || !hands store task ||
        (!task.aborted && !conn.pending.any (·.1 = task.id))
    | none => true
  | _ => true

/-- The numbers in use have been given out, and the one of a subscription without a task is
not that of another. -/
structure Numbered (g : Nat) (conn : Conn) : Prop where
  tasks : ∀ (n : Nat) (task : Forward), conn.forwards[n]? = some task → n ≤ g
  fresh : ∀ request attachment n, conn.handler = .inserting request attachment n ∨
    conn.handler = .spawning request attachment n → n ≤ g ∧ conn.forwards[n]? = none

/-- A task that is neither aborted nor over is its run's current one; it is of the subscription
that is pending, or else of the last one that was answered. -/
structure Tracked (conn : Conn) : Prop where
  held : ∀ (n : Nat) (task : Forward), conn.forwards[n]? = some task → task.aborted = false →
    ended task = false → conn.active[task.id]? = some n
  current : ∀ (n : Nat) (task : Forward), conn.forwards[n]? = some task →
    task.aborted = false → ended task = false → conn.pending = some (task.id, n) ∨
      (∀ k, conn.pending ≠ some (task.id, k)) ∧ lastSubscribed task.id conn.queue = some n
  spawning : ∀ request attachment n, conn.handler = .spawning request attachment n →
    conn.active[request.runId]? = some n

/-- What each subscription has notified of is in order and after its replay, and its task goes
on from there. -/
structure Streamed (conn : Conn) : Prop where
  ready : ∀ (n : Nat) (task : Forward), conn.forwards[n]? = some task →
    task.forwarder.Ready task.id
  streams : ∀ n request response,
    Queued.response (.subscribed n request response) ∈ conn.queue ∨
    conn.handler = .returning (.subscribed n request response) →
      ∃ task, conn.forwards[n]? = some task ∧ task.id = request.runId ∧
        Stream ⟨request.runId, response.lastSequence request, []⟩ (notifiedBy n conn.queue)
          task.forwarder.lastSequence
  unstarted : ∀ n, conn.forwards[n]? = none → notifiedBy n conn.queue = []

/-- Each notification is of the last subscription to its run that was answered. -/
def Forced (conn : Conn) : Prop :=
  Each (fun pre q => ∀ n event, q = .notified n event → lastSubscribed event.runId pre = some n)
    conn.queue

theorem numbered_init (g : Nat) : Numbered g .init := ⟨by simp [init], by simp [init]⟩

theorem tracked_init : Tracked .init := ⟨by simp [init], by simp [init], by simp [init]⟩

theorem streamed_init : Streamed .init :=
  ⟨by simp [init], by simp [init], by simp [init, notifiedBy]⟩

theorem Numbered.mono (h : conn.Numbered g) (hg : g ≤ g') : conn.Numbered g' :=
  ⟨fun n task hn => (h.tasks n task hn).trans hg,
    fun request attachment n hn => (h.fresh request attachment n hn).imp_left (·.trans hg)⟩

/-! ## Aborts -/

theorem abort_getElem? (k : Option Nat) : (conn.abort k).forwards[n]? =
    conn.forwards[n]?.map fun task =>
      if k = some n then { task with aborted := true } else task := by
  cases k with
  | none => simp [abort]
  | some k =>
    simp only [abort, ExtTreeMap.getElem?_modify]
    by_cases hk : k = n
    · subst hk; simp
    · simp [hk]

/-- A task after an abort was there before it, with its run and its forwarder. -/
theorem abort_forwards {k : Option Nat} {task : Forward}
    (h : (conn.abort k).forwards[n]? = some task) :
    ∃ task₀, conn.forwards[n]? = some task₀ ∧ task.id = task₀.id ∧
      task.forwarder = task₀.forwarder ∧
      (task.aborted = false → task₀.aborted = false ∧ k ≠ some n) := by
  rw [abort_getElem?] at h
  obtain ⟨task₀, h₀, rfl⟩ := Option.map_eq_some_iff.1 h
  by_cases hk : k = some n
  · rw [if_pos hk]
    exact ⟨task₀, h₀, rfl, rfl, fun ha => by cases ha⟩
  · rw [if_neg hk]
    exact ⟨task₀, h₀, rfl, rfl, fun ha => ⟨ha, hk⟩⟩

theorem abort_none {k : Option Nat} (h : conn.forwards[n]? = none) :
    (conn.abort k).forwards[n]? = none := by
  rw [abort_getElem?, h]
  rfl

@[simp] theorem abort_queue (k : Option Nat) : (conn.abort k).queue = conn.queue := by
  cases k <;> rfl

/-! ## Numbers -/

theorem Numbered.task (h : conn.Numbered g) {task task' : Forward} {active : ExtTreeMap RunId Nat}
    {queue : List Queued} (hf : conn.forwards[n]? = some task) :
    ({ conn with forwards := conn.forwards.insert n task', active, queue } : Conn).Numbered g := by
  refine ⟨ExtTreeMap.forall_insert h.tasks (h.tasks n task hf), fun request attachment m hh => ?_⟩
  obtain ⟨hle, hnone⟩ := h.fresh request attachment m hh
  have hne : n ≠ m := by rintro rfl; cases hnone.symm.trans hf
  exact ⟨hle, (ExtTreeMap.getElem?_insert_of_ne hne).trans hnone⟩

theorem Numbered.moves {a : Act} (h : conn.Numbered g) (hm : Moves r g conn a r' g' conn') :
    g ≤ g' ∧ conn'.Numbered g' := by
  cases hm with
  | number request attachment hpc =>
    refine ⟨Nat.le_succ g, (h.mono (Nat.le_succ g)).tasks, fun request attachment n hh => ?_⟩
    simp only [Handler.inserting.injEq, reduceCtorEq, or_false] at hh
    obtain ⟨-, -, rfl⟩ := hh
    refine ⟨Nat.le_refl _, ?_⟩
    by_contra hne
    obtain ⟨task, ht⟩ := Option.ne_none_iff_exists'.1 hne
    have := h.tasks _ task ht
    omega
  | insert request attachment n hpc =>
    obtain ⟨hle, hnone⟩ := h.fresh request attachment n (.inl hpc)
    refine ⟨Nat.le_refl g, fun m task hm => ?_, fun request' attachment' m hh => ?_⟩
    · obtain ⟨task₀, h₀, -⟩ := abort_forwards hm
      exact h.tasks m task₀ h₀
    · simp only [reduceCtorEq, Handler.spawning.injEq, false_or] at hh
      obtain ⟨-, -, rfl⟩ := hh
      exact ⟨hle, abort_none hnone⟩
  | spawn request attachment n hpc =>
    obtain ⟨hle, -⟩ := h.fresh request attachment n (.inr hpc)
    refine ⟨Nat.le_refl g, fun m task hm => ?_, by simp⟩
    rcases ExtTreeMap.getElem?_insert_some.1 hm with ⟨rfl, -⟩ | ⟨-, hm⟩
    · exact hle
    · exact h.tasks m task hm
  | remove request response hpc =>
    refine ⟨Nat.le_refl g, fun m task hm => ?_, by simp⟩
    obtain ⟨task₀, h₀, -⟩ := abort_forwards hm
    exact h.tasks m task₀ h₀
  | disconnect hpc =>
    refine ⟨Nat.le_refl g, fun m task hm => ?_, by simp⟩
    rw [ExtTreeMap.getElem?_map, Option.map_eq_some_iff] at hm
    obtain ⟨task₀, h₀, -⟩ := hm
    exact h.tasks m task₀ h₀
  | wake n task hf => exact ⟨Nat.le_refl g, h.task hf⟩
  | forward n task stepped hf => exact ⟨Nat.le_refl g, h.task hf⟩
  | suspend n task hf => exact ⟨Nat.le_refl g, h.task hf⟩
  | reap n task hf => exact ⟨Nat.le_refl g, h.task hf⟩
  | removeIfCurrent n task hf => exact ⟨Nat.le_refl g, h.task hf⟩
  | _ => exact ⟨Nat.le_refl g, h.tasks, by simp⟩

/-! ## The current subscription -/

/-- The handler goes on, with no subscription pending before or after. -/
theorem Tracked.goto (h : conn.Tracked) {handler : Handler} (hp : conn.pending = none)
    (hp' : ({ conn with handler } : Conn).pending = none) :
    ({ conn with handler } : Conn).Tracked := by
  refine ⟨h.held, fun n task hn ha he => .inr ⟨by simp [hp'], ?_⟩, fun request att n hh => ?_⟩
  · rcases h.current n task hn ha he with hc | ⟨-, hc⟩
    · rw [hp] at hc; cases hc
    · exact hc
  · simp only at hh
    subst hh
    simp [pending] at hp'

/-- A task moves, and stays the current one if it was. -/
theorem Tracked.task (h : conn.Tracked) {task task' : Forward} {queue : List Queued}
    (hf : conn.forwards[n]? = some task) (hid : task'.id = task.id)
    (hl : task'.aborted = false → ended task' = false →
      task.aborted = false ∧ ended task = false)
    (hq : ∀ id, lastSubscribed id queue = lastSubscribed id conn.queue) :
    ({ conn with forwards := conn.forwards.insert n task', queue } : Conn).Tracked := by
  refine ⟨fun m task₁ hm ha he => ?_, fun m task₁ hm ha he => ?_, h.spawning⟩
  · rcases ExtTreeMap.getElem?_insert_some.1 hm with ⟨rfl, rfl⟩ | ⟨-, hm⟩
    · obtain ⟨ha, he⟩ := hl ha he
      rw [hid]
      exact h.held n task hf ha he
    · exact h.held m task₁ hm ha he
  · rw [hq]
    rcases ExtTreeMap.getElem?_insert_some.1 hm with ⟨rfl, rfl⟩ | ⟨-, hm⟩
    · obtain ⟨ha, he⟩ := hl ha he
      rw [hid]
      exact h.current n task hf ha he
    · exact h.current m task₁ hm ha he

/-- A task that the abort for a run leaves running is another run's. -/
theorem Tracked.abort_other (h : conn.Tracked) {id : RunId} {task : Forward}
    (hf : (conn.abort conn.active[id]?).forwards[n]? = some task) (ha : task.aborted = false)
    (he : ended task = false) :
    ∃ task₀, conn.forwards[n]? = some task₀ ∧ task₀.aborted = false ∧ ended task₀ = false ∧
      task.id = task₀.id ∧ id ≠ task₀.id := by
  obtain ⟨task₀, h₀, hid, hfw, hab⟩ := abort_forwards hf
  obtain ⟨ha₀, hk⟩ := hab ha
  have he₀ : ended task₀ = false := by rw [← he]; simp only [ended, hfw]
  refine ⟨task₀, h₀, ha₀, he₀, hid, ?_⟩
  rintro rfl
  exact hk (h.held n task₀ h₀ ha₀ he₀)

theorem pending_returning {response : Response} (hpc : conn.handler = .returning response)
    (id : RunId) :
    (∀ k, conn.pending ≠ some (id, k)) ∧ (Queued.response response).subscribes id = none ∨
      ∃ k, conn.pending = some (id, k) ∧ (Queued.response response).subscribes id = some k := by
  cases response with
  | subscribed n request response =>
    by_cases hid : request.runId = id
    · exact .inr ⟨n, by simp [pending, hpc, hid], by simp [Queued.subscribes, hid]⟩
    · exact .inl ⟨by simp [pending, hpc, hid], by simp [Queued.subscribes, hid]⟩
  | _ => exact .inl ⟨by simp [pending, hpc], rfl⟩

/-- The response is put on the queue: what was pending is the last that was answered. -/
theorem Tracked.respond (h : conn.Tracked) {response : Response}
    (hpc : conn.handler = .returning response) :
    ({ conn with queue := conn.queue ++ [.response response], handler := .idle } :
      Conn).Tracked := by
  refine ⟨h.held, fun n task hn ha he => .inr ⟨by simp [pending], ?_⟩, by simp⟩
  simp only [lastSubscribed_snoc]
  rcases pending_returning hpc task.id with ⟨hp, hs⟩ | ⟨k, hp, hs⟩
  · rw [hs, Option.none_or]
    rcases h.current n task hn ha he with hc | ⟨-, hc⟩
    · exact absurd hc (hp n)
    · exact hc
  · rw [hs, Option.some_or]
    rcases h.current n task hn ha he with hc | ⟨hno, -⟩
    · rw [hp] at hc; cases hc; rfl
    · exact absurd hp (hno k)

theorem Tracked.insert (h : conn.Tracked) {request : SubscribeRunRequest}
    {attachment : Attachment} (hpc : conn.handler = .inserting request attachment n) :
    ({ conn.abort conn.active[request.runId]? with
        active := conn.active.insert request.runId n
        handler := .spawning request attachment n } : Conn).Tracked := by
  have hnone : conn.pending = none := by simp [pending, hpc]
  refine ⟨fun m task hm ha he => ?_, fun m task hm ha he => .inr ?_, fun req att k hh => ?_⟩
  · obtain ⟨task₀, h₀, ha₀, he₀, hid, hne⟩ := h.abort_other hm ha he
    rw [hid]
    exact (ExtTreeMap.getElem?_insert_of_ne hne).trans (h.held m task₀ h₀ ha₀ he₀)
  · obtain ⟨task₀, h₀, ha₀, he₀, hid, hne⟩ := h.abort_other hm ha he
    rw [hid]
    refine ⟨by simp [pending, hne], ?_⟩
    rcases h.current m task₀ h₀ ha₀ he₀ with hc | ⟨-, hc⟩
    · rw [hnone] at hc; cases hc
    · simpa using hc
  · cases hh
    exact ExtTreeMap.getElem?_insert_self

theorem Tracked.spawn (h : conn.Tracked) {request : SubscribeRunRequest}
    {attachment : Attachment} {response : SubscribeRunResponse}
    (hpc : conn.handler = .spawning request attachment n) :
    ({ conn with
        forwards := conn.forwards.insert n
          ⟨request.runId, Forwarder.start attachment request.afterSequence, false, false⟩
        handler := .returning (.subscribed n request response) } : Conn).Tracked := by
  have hpending : conn.pending = some (request.runId, n) := by simp [pending, hpc]
  have hpending' : ({ conn with
      forwards := conn.forwards.insert n
        ⟨request.runId, Forwarder.start attachment request.afterSequence, false, false⟩
      handler := .returning (.subscribed n request response) } : Conn).pending = conn.pending := by
    simp [pending, hpc]
  refine ⟨fun m task hm ha he => ?_, fun m task hm ha he => ?_, by simp⟩
  · rcases ExtTreeMap.getElem?_insert_some.1 hm with ⟨rfl, rfl⟩ | ⟨-, hm⟩
    · exact h.spawning request attachment n hpc
    · exact h.held m task hm ha he
  · rw [hpending']
    rcases ExtTreeMap.getElem?_insert_some.1 hm with ⟨rfl, rfl⟩ | ⟨-, hm⟩
    · exact .inl hpending
    · exact h.current m task hm ha he

theorem Tracked.remove (h : conn.Tracked) {request : UnsubscribeRunRequest}
    {response : UnsubscribeRunResponse} (hpc : conn.handler = .unsubscribing request) :
    ({ conn.abort conn.active[request.runId]? with
        active := conn.active.erase request.runId
        handler := .returning (.unsubscribed request response) } : Conn).Tracked := by
  have hnone : conn.pending = none := by simp [pending, hpc]
  refine ⟨fun m task hm ha he => ?_, fun m task hm ha he => .inr ?_, by simp⟩
  · obtain ⟨task₀, h₀, ha₀, he₀, hid, hne⟩ := h.abort_other hm ha he
    rw [hid]
    exact (ExtTreeMap.getElem?_erase_of_ne hne).trans (h.held m task₀ h₀ ha₀ he₀)
  · obtain ⟨task₀, h₀, ha₀, he₀, hid, -⟩ := h.abort_other hm ha he
    rw [hid]
    refine ⟨by simp [pending], ?_⟩
    rcases h.current m task₀ h₀ ha₀ he₀ with hc | ⟨-, hc⟩
    · rw [hnone] at hc; cases hc
    · simpa using hc

/-- A connection that is gone has aborted every task that was not over. -/
theorem Tracked.disconnect (h : conn.Tracked) :
    ({ conn with
        connected := false
        handler := .idle
        active := ∅
        forwards := conn.forwards.map fun n task =>
          if conn.active[task.id]? = some n then { task with aborted := true } else task } :
      Conn).Tracked := by
  have hover : ∀ (m : Nat) (task : Forward),
      (conn.forwards.map fun n task =>
        if conn.active[task.id]? = some n then { task with aborted := true } else task)[m]? =
          some task → task.aborted = false → ended task = false → False := fun m task hm ha he => by
    rw [ExtTreeMap.getElem?_map, Option.map_eq_some_iff] at hm
    obtain ⟨task₀, h₀, rfl⟩ := hm
    split at ha
    · cases ha
    · rename_i hne
      rw [if_neg hne] at he
      exact hne (h.held m task₀ h₀ ha he)
  exact ⟨fun m task hm ha he => (hover m task hm ha he).elim,
    fun m task hm ha he => (hover m task hm ha he).elim, by simp⟩

/-- The cleanup of a task that is over takes no other task's entry. -/
theorem Tracked.removeIfCurrent (h : conn.Tracked) (hn : conn.Numbered g) {task : Forward}
    (hf : conn.forwards[n]? = some task) (hr : ended task = true) :
    ({ conn with
        forwards := conn.forwards.insert n { task with polling := false }
        active :=
          if conn.active[task.id]? = some n then conn.active.erase task.id else conn.active } :
      Conn).Tracked := by
  have hmove : ({ conn with
      forwards := conn.forwards.insert n { task with polling := false } } : Conn).Tracked :=
    h.task hf rfl (fun ha he => ⟨ha, he⟩) (fun _ => rfl)
  -- An entry of another number stays.
  have hkeep : ∀ (id : RunId) (m : Nat), m ≠ n → conn.active[id]? = some m →
      (if conn.active[task.id]? = some n then conn.active.erase task.id else conn.active)[id]? =
        some m := fun id m hne hm => by
    split
    · rename_i hcur
      refine (ExtTreeMap.getElem?_erase_of_ne ?_).trans hm
      rintro rfl
      cases hcur.symm.trans hm
      exact hne rfl
    · exact hm
  refine ⟨fun m task₁ hm ha he => ?_, hmove.current, fun request attachment m hh => ?_⟩
  · refine hkeep _ m ?_ (hmove.held m task₁ hm ha he)
    rintro rfl
    rcases ExtTreeMap.getElem?_insert_some.1 hm with ⟨-, rfl⟩ | ⟨hne, -⟩
    · cases hr.symm.trans he
    · exact hne rfl
  · refine hkeep _ m ?_ (h.spawning request attachment m hh)
    rintro rfl
    cases (hn.fresh request attachment m (.inr hh)).2.symm.trans hf

/-- A task that can step is not over. -/
theorem forward_not_ended {store : Store} {task : Forward} {accepts : Bool}
    {stepped : Forwarder.Stepped}
    (h : forwardRunEvents store task.id task.forwarder
      (AgencyProxy.Conn.forwardAct task.forwarder accepts) = some stepped) :
    ended task = false := by
  unfold ended
  split
  · rename_i hp
    simp [AgencyProxy.Conn.forwardAct, forwardRunEvents, hp] at h
  · rfl

theorem lastSubscribed_notified {id : RunId} {queue : List Queued} {connected : Bool}
    {handed : Option SequencedEvent} :
    lastSubscribed id
      (if connected then queue ++ (handed.map (Queued.notified n)).toList else queue) =
      lastSubscribed id queue := by
  split
  · refine lastSubscribed_append fun q hq => ?_
    cases handed with
    | none => simp at hq
    | some event =>
      obtain rfl : q = .notified n event := by simpa using hq
      rfl
  · rfl

/-- **Step lemma**: the tasks that go on are the current ones. -/
theorem Tracked.moves {a : Act} (h : conn.Tracked) (hn : conn.Numbered g)
    (hm : Moves r g conn a r' g' conn') : conn'.Tracked := by
  cases hm with
  | subscribe request hpc => exact h.goto (by simp [pending, hpc]) rfl
  | unsubscribe request hpc => exact h.goto (by simp [pending, hpc]) rfl
  | attach request attachment store hpc => exact h.goto (by simp [pending, hpc]) rfl
  | refuse request e hpc => exact h.goto (by simp [pending, hpc]) rfl
  | number request attachment hpc => exact h.goto (by simp [pending, hpc]) rfl
  | insert request attachment n hpc => exact h.insert hpc
  | spawn request attachment n hpc => exact h.spawn hpc
  | remove request response hpc => exact h.remove hpc
  | respond response hpc => exact h.respond hpc
  | disconnect => exact h.disconnect
  | wake n task hf => exact h.task hf rfl (fun ha he => ⟨ha, he⟩) fun _ => rfl
  | forward n task stepped hf hl hok =>
    exact h.task hf rfl (fun ha _ => ⟨ha, forward_not_ended hok⟩) fun _ => lastSubscribed_notified
  | suspend n task hf => exact h.task hf rfl (fun ha he => ⟨ha, he⟩) fun _ => rfl
  | reap n task hf hab =>
    refine h.task hf rfl (fun ha _ => ?_) fun _ => rfl
    cases hab.symm.trans ha
  | removeIfCurrent n task hf hr => exact h.removeIfCurrent hn hf hr

/-! ## The notifications of a subscription -/

/-- Nothing is notified of, no task starts, and none moves. -/
theorem Streamed.keep (h : conn.Streamed)
    (hf : ∀ n : Nat, (conn'.forwards[n]?).map (fun task => (task.id, task.forwarder)) =
      (conn.forwards[n]?).map fun task => (task.id, task.forwarder))
    (hq : ∀ n, notifiedBy n conn'.queue = notifiedBy n conn.queue)
    (hr : ∀ n request response, Queued.response (.subscribed n request response) ∈ conn'.queue ∨
      conn'.handler = .returning (.subscribed n request response) →
      Queued.response (.subscribed n request response) ∈ conn.queue ∨
        conn.handler = .returning (.subscribed n request response)) : conn'.Streamed := by
  refine ⟨fun n task hn => ?_, fun n request response hin => ?_, fun n hn => ?_⟩
  · have he := hf n
    rw [hn] at he
    obtain ⟨task₀, h₀, he⟩ := Option.map_eq_some_iff.1 he.symm
    obtain ⟨hid, hfw⟩ := Prod.mk.inj he
    rw [← hid, ← hfw]
    exact h.ready n task₀ h₀
  · obtain ⟨task₀, h₀, hid₀, hst⟩ := h.streams n request response (hr n request response hin)
    have he := hf n
    rw [h₀] at he
    obtain ⟨task, ht, he⟩ := Option.map_eq_some_iff.1 he
    obtain ⟨hid, hfw⟩ := Prod.mk.inj he
    exact ⟨task, ht, hid.trans hid₀, by rw [hq, hfw]; exact hst⟩
  · have he := hf n
    rw [hn, Option.map_none] at he
    rw [hq]
    exact h.unstarted n (Option.map_eq_none_iff.1 he.symm)

/-- The handler goes on. -/
theorem Streamed.goto (h : conn.Streamed) {handler : Handler}
    (hr : ∀ n request response, handler ≠ .returning (.subscribed n request response)) :
    ({ conn with handler } : Conn).Streamed :=
  h.keep (fun _ => rfl) (fun _ => rfl) fun n request response hin =>
    hin.imp_right fun he => absurd he (hr n request response)

theorem abort_same (k : Option Nat) (n : Nat) :
    ((conn.abort k).forwards[n]?).map (fun task => (task.id, task.forwarder)) =
      (conn.forwards[n]?).map fun task => (task.id, task.forwarder) := by
  rw [abort_getElem?, Option.map_map]
  congr 1
  funext task
  by_cases hk : k = some n <;> simp [hk]

/-- A task is polled, or suspends, or is done. -/
theorem Streamed.poll (h : conn.Streamed) {task : Forward} {polling : Bool}
    {active : ExtTreeMap RunId Nat} (hf : conn.forwards[n]? = some task) :
    ({ conn with forwards := conn.forwards.insert n { task with polling }, active } :
      Conn).Streamed :=
  h.keep (fun m => by
    rw [ExtTreeMap.getElem?_insert]
    split
    · rename_i he
      rw [← LawfulEqOrd.eq_of_compare he, hf]
      rfl
    · rfl) (fun _ => rfl) fun _ _ _ hin => hin

/-- A task advances, and its sink takes what it hands over, or there is no sink. -/
theorem Streamed.task (h : conn.Streamed) {task : Forward} {st : Forwarder.Stepped}
    {queue : List Queued} (hf : conn.forwards[n]? = some task)
    (hadv : Forwarder.Advances task.id task.forwarder st)
    (hq : queue = conn.queue ∨
      queue = conn.queue ++ (st.handed.map (Queued.notified n)).toList) :
    ({ conn with
        forwards := conn.forwards.insert n { task with forwarder := st.forwarder }, queue } :
      Conn).Streamed := by
  have hother : ∀ m, m ≠ n → notifiedBy m queue = notifiedBy m conn.queue := fun m hne => by
    rcases hq with rfl | rfl
    · rfl
    · cases st.handed with
      | none => simp
      | some event => simp [notifiedBy, Queued.notifiedBy, hne.symm]
  have hmem : ∀ response, Queued.response response ∈ queue →
      Queued.response response ∈ conn.queue := fun response hin => by
    rcases hq with rfl | rfl
    · exact hin
    · rcases List.mem_append.1 hin with hin | hin
      · exact hin
      · cases hh : st.handed <;> simp [hh] at hin
  refine ⟨ExtTreeMap.forall_insert h.ready hadv.ready, fun m request response hin => ?_,
    fun m hm => ?_⟩
  · obtain ⟨task₀, h₀, hid, hst⟩ := h.streams m request response (hin.imp_left (hmem _))
    by_cases hne : m = n
    · subst hne
      cases hf.symm.trans h₀
      refine ⟨_, ExtTreeMap.getElem?_insert_self, hid, ?_⟩
      cases hh : st.handed with
      | none =>
        rw [hadv.kept hh]
        rcases hq with rfl | rfl
        · exact hst
        · simpa [hh] using hst
      | some event =>
        obtain ⟨hlt, hev, hlast⟩ := hadv.next event hh
        rw [hlast]
        rcases hq with rfl | rfl
        · exact hst.mono hlt.le
        · have := hst.snoc hlt (hev.trans hid)
          simpa [hh, notifiedBy_snoc, Queued.notifiedBy] using this
    · refine ⟨task₀, (ExtTreeMap.getElem?_insert_of_ne (Ne.symm hne)).trans h₀, hid, ?_⟩
      rw [hother m hne]
      exact hst
  · have hne : m ≠ n := by
      rintro rfl
      rw [ExtTreeMap.getElem?_insert_self] at hm
      cases hm
    rw [hother m hne]
    exact h.unstarted m ((ExtTreeMap.getElem?_insert_of_ne (Ne.symm hne)).symm.trans hm)

/-- The forwarder of a subscription starts after the last event of its response. -/
theorem start_lastSequence (request : SubscribeRunRequest) (attachment : Attachment) :
    (Forwarder.start attachment request.afterSequence).lastSequence =
      SubscribeRunResponse.lastSequence request
        ⟨attachment.snapshot, attachment.replay.map webRunEvent⟩ := by
  simp only [Forwarder.start, SubscribeRunResponse.lastSequence, List.getLast?_map,
    Option.map_map]
  rfl

theorem Streamed.spawn (h : conn.Streamed) {request : SubscribeRunRequest}
    {attachment : Attachment} (hpc : conn.handler = .spawning request attachment n)
    (hnone : conn.forwards[n]? = none) :
    ({ conn with
        forwards := conn.forwards.insert n
          ⟨request.runId, Forwarder.start attachment request.afterSequence, false, false⟩
        handler := .returning
          (.subscribed n request ⟨attachment.snapshot, attachment.replay.map webRunEvent⟩) } :
      Conn).Streamed := by
  have hold : ∀ m request response,
      Queued.response (.subscribed m request response) ∈ conn.queue → m ≠ n := by
    rintro m request response hin rfl
    obtain ⟨task, ht, -⟩ := h.streams m request response (.inl hin)
    cases hnone.symm.trans ht
  refine ⟨ExtTreeMap.forall_insert h.ready trivial, fun m req resp hin => ?_, fun m hm => ?_⟩
  · rcases hin with hin | hin
    · have hne := hold m req resp hin
      obtain ⟨task, ht, hrest⟩ := h.streams m req resp (.inl hin)
      exact ⟨task, (ExtTreeMap.getElem?_insert_of_ne (Ne.symm hne)).trans ht, hrest⟩
    · simp only [Handler.returning.injEq, Response.subscribed.injEq] at hin
      obtain ⟨rfl, rfl, rfl⟩ := hin
      refine ⟨_, ExtTreeMap.getElem?_insert_self, rfl, ?_⟩
      rw [h.unstarted n hnone, start_lastSequence]
      exact Stream.nil
  · refine h.unstarted m ?_
    rw [ExtTreeMap.getElem?_insert] at hm
    split at hm
    · cases hm
    · exact hm

/-- **Step lemma**: each subscription's notifications stay in order. -/
theorem Streamed.moves {a : Act} (h : conn.Streamed) (hn : conn.Numbered g)
    (hj : r.store.Journals) (hnamed : Registry.Named r.store)
    (hm : Moves r g conn a r' g' conn') : conn'.Streamed := by
  cases hm with
  | subscribe request hpc => exact h.goto (by simp)
  | unsubscribe request hpc => exact h.goto (by simp)
  | attach request attachment store hpc => exact h.goto (by simp)
  | refuse request e hpc => exact h.goto (by simp)
  | number request attachment hpc => exact h.goto (by simp)
  | insert request attachment n hpc =>
    refine h.keep (abort_same _) (fun _ => by simp) fun n request response hin => .inl ?_
    simpa using hin
  | spawn request attachment n hpc =>
    exact h.spawn hpc (hn.fresh request attachment n (.inr hpc)).2
  | remove request response hpc =>
    refine h.keep (abort_same _) (fun _ => by simp) fun n request response hin => .inl ?_
    simpa using hin
  | respond response hpc =>
    refine h.keep (fun _ => rfl) (fun n => ?_) fun n request response' hin => ?_
    · simp [notifiedBy_snoc, Queued.notifiedBy]
    · simp only [List.mem_append, List.mem_singleton, Queued.response.injEq, reduceCtorEq,
        or_false] at hin
      exact hin.imp_right fun he => by rw [hpc, ← he]
  | disconnect =>
    refine h.keep (fun n => ?_) (fun _ => rfl) fun n request response hin => .inl ?_
    · rw [ExtTreeMap.getElem?_map, Option.map_map]
      refine Option.map_congr fun task _ => ?_
      simp only [Function.comp]
      split <;> rfl
    · simpa using hin
  | wake n task hf => exact h.poll hf
  | forward n task stepped hf hl hok =>
    refine h.task hf (Forwarder.forwardRunEvents_advances hj hnamed (h.ready n task hf) hok) ?_
    split
    · exact .inr rfl
    · exact .inl rfl
  | suspend n task hf => exact h.poll hf
  | reap n task hf => exact h.task hf Forwarder.close_advances (.inl rfl)
  | removeIfCurrent n task hf => exact h.poll hf

/-- **Step lemma**: an undisturbed step lets only the last subscription speak. -/
theorem Forced.moves {a : Act} (h : conn.Forced) (ht : conn.Tracked) (hst : conn.Streamed)
    (hj : r.store.Journals) (hnamed : Registry.Named r.store)
    (hu : conn.undisturbed r.store a = true) (hm : Moves r g conn a r' g' conn') :
    conn'.Forced := by
  cases hm with
  | insert request attachment n => simpa only [Forced, abort_queue] using h
  | remove request response => simpa only [Forced, abort_queue] using h
  | respond response hpc =>
    refine each_snoc.2 ⟨h, fun n event he => by cases he⟩
  | forward n task stepped hf hl hok =>
    simp only [Forced]
    split
    · rename_i hc
      cases hh : stepped.handed with
      | none =>
        simp only [Option.map_none, Option.toList_none, List.append_nil]
        exact h
      | some event =>
        simp only [Option.map_some, Option.toList_some]
        refine each_snoc.2 ⟨h, fun m event' he => ?_⟩
        cases he
        have hadv := Forwarder.forwardRunEvents_advances hj hnamed (hst.ready n task hf) hok
        obtain ⟨-, hid, -⟩ := hadv.next event hh
        have hhands : hands r.store task = true := by
          rw [hc] at hok
          simp [hands, hok, hh]
        simp only [undisturbed, hf, hc, hhands, Bool.not_true, Bool.false_or, Bool.and_eq_true,
          Bool.not_eq_true', Option.any_eq_false] at hu
        rw [hid]
        rcases ht.current n task hf hu.1 (forward_not_ended hok) with hp | ⟨-, hlast⟩
        · simpa using hu.2 _ hp
        · exact hlast
    · exact h
  | _ => exact h

/-! ## What the client sees -/

/-- No notification comes before the response of its subscription; and after the response to a
`SubscribeRun` the run's notifications come in order, all after the last sequence replayed in it,
until the next one is answered. -/
structure Ordered (conn : Conn) : Prop where
  answered : ∀ (pre : List Queued) (n : Nat) (event : SequencedEvent) (post : List Queued),
    conn.queue = pre ++ .notified n event :: post →
      ∃ request response, Queued.response (.subscribed n request response) ∈ pre
  ahead : ∀ (pre : List Queued) (n : Nat) (request : SubscribeRunRequest)
    (response : SubscribeRunResponse) (mid post : List Queued),
    conn.queue = pre ++ .response (.subscribed n request response) :: (mid ++ post) →
      (∀ q ∈ mid, q.subscribes request.runId = none) →
      Ahead request.runId (response.lastSequence request) (notificationsFor request.runId mid)

theorem notificationsFor_sublist {id : RunId} {queue : List Queued}
    (h : ∀ q ∈ queue, ∀ m event, q = .notified m event → event.runId = id → m = n) :
    (notificationsFor id queue).Sublist (notifiedBy n queue) := by
  induction queue with
  | nil => exact .slnil
  | cons q queue ih =>
    have ih := ih fun q hq => h q (List.mem_cons_of_mem _ hq)
    simp only [notificationsFor, notifiedBy, List.filterMap_cons] at ih ⊢
    cases q with
    | response response => exact ih
    | notified m event =>
      simp only [Queued.notifies, Queued.notifiedBy]
      by_cases hid : event.runId = id
      · rw [if_pos hid, if_pos (h _ List.mem_cons_self m event rfl hid)]
        exact ih.cons_cons _
      · rw [if_neg hid]
        by_cases hm : m = n
        · rw [if_pos hm]
          exact ih.cons _
        · rw [if_neg hm]
          exact ih

theorem Forced.ordered (h : conn.Forced) (hst : conn.Streamed) : conn.Ordered where
  answered pre n event post he := by
    obtain ⟨request, response, hin, -⟩ := mem_of_lastSubscribed (h pre _ post he n event rfl)
    exact ⟨request, response, hin⟩
  ahead pre n request response mid post he hm := by
    have hspeaks : ∀ q ∈ mid, ∀ m event, q = .notified m event → event.runId = request.runId →
        m = n := by
      rintro q hq m event rfl hid
      obtain ⟨mid₁, mid₂, rfl⟩ := List.append_of_mem hq
      have hf := h (pre ++ [.response (.subscribed n request response)] ++ mid₁) _ (mid₂ ++ post)
        (by simp [he]) m event rfl
      rw [hid, lastSubscribed_append fun q hq => hm q (List.mem_append_left _ hq),
        lastSubscribed_snoc] at hf
      simpa [Queued.subscribes] using hf.symm
    obtain ⟨task, -, -, hs⟩ := hst.streams n request response (.inl (by simp [he]))
    refine hs.ahead.sublist ((notificationsFor_sublist hspeaks).trans (List.Sublist.filterMap _ ?_))
    rw [he]
    exact ((List.sublist_append_left mid post).cons _).trans (List.sublist_append_right pre _)

end Conn

/-! ## Runs of the server -/

namespace Server

variable {P : Type} {toValue : P → Except String Value} {s s' : Server}

theorem connect_cases {c : Nat} (h : s.step toValue (.connect c) = some s') :
    s.conns[c]? = none ∧ s' = { s with conns := s.conns.insert c .init } := by
  simp only [step] at h
  split at h
  · cases h
  · rename_i hc
    cases h
    exact ⟨by simpa using hc, rfl⟩

theorem conn_cases {c : Nat} {a : Conn.Act} (h : s.step toValue (.conn c a) = some s') :
    ∃ conn r' g' conn', s.conns[c]? = some conn ∧
      Moves s.registry s.nextGeneration conn a r' g' conn' ∧
      s' = ⟨r', g', s.conns.insert c conn'⟩ := by
  simp only [step] at h
  split at h
  · rename_i conn hc
    obtain ⟨⟨r', g', conn'⟩, hs, he⟩ := Option.map_eq_some_iff.1 h
    exact ⟨conn, r', g', conn', hc, connStep_moves hs, he.symm⟩
  · cases h

/-- What a connection does to the registry, it does as one of its clients. -/
theorem moves_byClients {a : Conn.Act} {r r' : Registry} {g g' : Nat} {conn conn' : Conn}
    (h : Moves r g conn a r' g' conn') : Daemon.ByClients toValue r r' := by
  cases h with
  | attach request attachment store _ hl ha => exact Daemon.byClients_attach hl ha
  | forward n task stepped _ hl ho => exact Daemon.byClients_forwardRunEvents hl ho
  | reap n task => exact Daemon.byClients_close _
  | _ => exact .refl

/-- The registry takes a run of its own. -/
theorem step_registry {a : Act P} (h : s.step toValue a = some s') :
    ∃ ks : List (Registry.Act P), exec (Registry.step toValue) s.registry ks =
      some s'.registry := by
  cases a with
  | connect c => obtain ⟨-, rfl⟩ := connect_cases h; exact ⟨[], rfl⟩
  | conn c a =>
    obtain ⟨conn, r', g', conn', -, hm, rfl⟩ := conn_cases h
    have hby : Daemon.ByClients toValue s.registry r' := moves_byClients hm
    obtain ⟨ks, -, hk⟩ := hby
    exact ⟨ks, hk⟩
  | registry a =>
    obtain ⟨registry, hs, rfl⟩ := Option.map_eq_some_iff.1 h
    exact ⟨[a], exec_single.2 hs⟩

theorem store_exec {acts : List (Act P)} (h : exec (step toValue) init acts = some s) :
    s.registry.store.Journals ∧ Registry.Named s.registry.store := by
  obtain ⟨ks, hk⟩ := exec_project (fun s : Server => s.registry)
    (fun _ _ _ hs => step_registry hs) h
  exact ⟨Registry.journals_exec hk, Registry.named_exec hk⟩

/-- **Invariant rule** for connections; the counter only grows. -/
theorem conns_exec {I : Nat → Conn → Prop} {C : Server → Act P → Prop}
    (fresh : ∀ g, I g .init) (mono : ∀ g g' conn, g ≤ g' → I g conn → I g' conn)
    (keep : ∀ (ls : List (Act P)) (s : Server) (c : Nat) (a : Conn.Act) (conn conn' : Conn)
      (r' : Registry) (g' : Nat), exec (step toValue) init ls = some s → C s (.conn c a) →
      s.conns[c]? = some conn → I s.nextGeneration conn →
      Moves s.registry s.nextGeneration conn a r' g' conn' →
      s.nextGeneration ≤ g' ∧ I g' conn')
    {acts : List (Act P)} (hc : Along (step toValue) C init acts)
    (h : exec (step toValue) init acts = some s) :
    ∀ (c : Nat) (conn : Conn), s.conns[c]? = some conn → I s.nextGeneration conn := by
  refine exec_inv_reachable
    (I := fun s => ∀ (c : Nat) (conn : Conn), s.conns[c]? = some conn → I s.nextGeneration conn)
    (fun ls s a s' hls hi ha hs => ?_) (fun c conn hc => by simp [init] at hc) hc h
  intro c' conn' hc'
  cases a with
  | connect c =>
    obtain ⟨-, rfl⟩ := connect_cases hs
    rcases ExtTreeMap.getElem?_insert_some.1 hc' with ⟨-, rfl⟩ | ⟨-, hc'⟩
    · exact fresh _
    · exact hi c' conn' hc'
  | conn c a =>
    obtain ⟨conn, r', g', conn₁, hconn, hm, rfl⟩ := conn_cases hs
    obtain ⟨hle, hk⟩ := keep ls s c a conn conn₁ r' g' hls ha hconn (hi c conn hconn) hm
    rcases ExtTreeMap.getElem?_insert_some.1 hc' with ⟨rfl, rfl⟩ | ⟨-, hc'⟩
    · exact hk
    · exact mono _ _ _ hle (hi c' conn' hc')
  | registry a =>
    obtain ⟨registry, -, rfl⟩ := Option.map_eq_some_iff.1 hs
    exact hi c' conn' hc'

theorem streamed_exec {acts : List (Act P)} (h : exec (step toValue) init acts = some s)
    {c : Nat} {conn : Conn} (hc : s.conns[c]? = some conn) :
    conn.Tracked ∧ conn.Streamed :=
  (conns_exec (C := fun _ _ => True)
    (I := fun g conn => conn.Numbered g ∧ conn.Tracked ∧ conn.Streamed)
    (fun g => ⟨Conn.numbered_init g, Conn.tracked_init, Conn.streamed_init⟩)
    (fun _ _ _ hle hi => ⟨hi.1.mono hle, hi.2⟩)
    (fun ls s c a conn conn' r' g' hls _ _ hi hm => by
      obtain ⟨hj, hn⟩ := store_exec hls
      obtain ⟨hle, hnum⟩ := hi.1.moves hm
      exact ⟨hle, hnum, hi.2.1.moves hi.1 hm, hi.2.2.moves hi.1 hj hn hm⟩)
    (along_of_forall (fun _ _ => trivial) _ _) h c conn hc).2

/-- The condition on a step of the server: it is one on the connection that takes it. -/
def undisturbed (s : Server) : Act P → Bool
  | .conn c a =>
    match s.conns[c]? with
    | some conn => conn.undisturbed s.registry.store a
    | none => true
  | _ => true

theorem forced_exec {acts : List (Act P)}
    (hu : Along (step toValue) (fun s a => s.undisturbed a = true) init acts)
    (h : exec (step toValue) init acts = some s) {c : Nat} {conn : Conn}
    (hc : s.conns[c]? = some conn) : conn.Forced :=
  conns_exec (C := fun s a => s.undisturbed a = true) (I := fun _ conn => conn.Forced)
    (fun _ => each_nil) (fun _ _ _ _ hi => hi)
    (fun ls s c a conn conn' r' g' hls hq hconn hi hm => by
      obtain ⟨hj, hn⟩ := store_exec hls
      obtain ⟨ht, hst⟩ := streamed_exec hls hconn
      simp only [undisturbed, hconn] at hq
      refine ⟨?_, hi.moves ht hst hj hn hq hm⟩
      cases hm <;> first | exact Nat.le_refl _ | exact Nat.le_succ _)
    hu h c conn hc

/-- **Replay, then pushes**, on every connection and in every run of the server whose steps are
all undisturbed. -/
theorem subscriptions_ordered (toValue : P → Except String Value) (acts : List (Act P))
    (s : Server) (h : exec (step toValue) init acts = some s)
    (hu : Along (step toValue) (fun s a => s.undisturbed a = true) init acts)
    (c : Nat) (conn : Conn) (hc : s.conns[c]? = some conn) : conn.Ordered :=
  (forced_exec hu h hc).ordered (streamed_exec h hc).2

/-- A run is started and publishes one event. -/
def startedRun : List (Act Unit) :=
  [.registry (.startCall 0 ⟨"r"⟩ plainRequest), .registry (.startCheck 0),
   .registry (.startLaunch 0 (.ok ())), .registry (.startInsert 0), .registry (.startCount 0),
   .registry (.startSpawn 0), .registry (.recv ⟨"r"⟩ (some (.text "one"))),
   .registry (.publish ⟨"r"⟩)]

def published (text : String) : List (Act Unit) :=
  [.registry (.recv ⟨"r"⟩ (some (.text text))), .registry (.publish ⟨"r"⟩)]

/-- The client subscribes, up to the spawn of the forwarder. -/
def subscribing (after : Nat) : List (Act Unit) :=
  [.conn 0 (.call (.subscribeRun ⟨⟨"r"⟩, after⟩)), .conn 0 .attach, .conn 0 .nextGeneration,
   .conn 0 .insert, .conn 0 .spawn]

def pushed (n : Nat) : List (Act Unit) :=
  [.conn 0 (.wake n), .conn 0 (.forward n), .conn 0 (.suspend n)]

/-- It subscribes twice, and is pushed an event after each response. -/
def subscribedTwice : List (Act Unit) :=
  startedRun ++ [.connect 0] ++ subscribing 0 ++ [.conn 0 .respond] ++ published "two" ++
    pushed 1 ++ subscribing 1 ++ [.conn 0 .respond, .conn 0 (.reap 1)] ++ published "three" ++
    pushed 2

theorem subscriptions_ordered_subscribedTwice :
    ∃ (s : Server) (conn : Conn),
      exec (step fun _ => .ok .null) init subscribedTwice = some s ∧ s.conns[0]? = some conn ∧
      (notificationsFor ⟨"r"⟩ conn.queue).map SequencedEvent.sequence = [2, 3] ∧
      conn.Ordered := by
  have h : ((exec (step fun _ => .ok .null) init subscribedTwice).bind fun s =>
      s.conns[0]?.map fun conn =>
        (notificationsFor ⟨"r"⟩ conn.queue).map SequencedEvent.sequence) =
      some [2, 3] := by decide +kernel
  obtain ⟨s, hs, h⟩ := Option.bind_eq_some_iff.1 h
  obtain ⟨conn, hc, h⟩ := Option.map_eq_some_iff.1 h
  exact ⟨s, conn, hs, hc, h, subscriptions_ordered _ _ s hs (by decide +kernel) 0 conn hc⟩

/-- An event is pushed between the spawn of the forwarder and the response. -/
def pushedEarly : List (Act Unit) :=
  startedRun ++ [.connect 0] ++ subscribing 0 ++ published "two" ++ pushed 1 ++ [.conn 0 .respond]

/-- The notification is then on the queue before the response. -/
theorem subscriptions_disordered_pushedEarly :
    ∃ (s : Server) (conn : Conn),
      exec (step fun _ => .ok .null) init pushedEarly = some s ∧ s.conns[0]? = some conn ∧
      ¬ conn.Ordered := by
  have h : ((exec (step fun _ => .ok .null) init pushedEarly).bind fun s =>
      s.conns[0]?.map fun conn =>
        (conn.queue.head?.bind (Queued.notifiedBy 1)).isSome) = some true := by decide +kernel
  obtain ⟨s, hs, h⟩ := Option.bind_eq_some_iff.1 h
  obtain ⟨conn, hc, h⟩ := Option.map_eq_some_iff.1 h
  refine ⟨s, conn, hs, hc, fun ho => ?_⟩
  obtain ⟨event, h⟩ := Option.isSome_iff_exists.1 h
  obtain ⟨q, hq, hn⟩ := Option.bind_eq_some_iff.1 h
  cases q with
  | response response => cases hn
  | notified n event' =>
    obtain ⟨queue, hqueue⟩ := List.head?_eq_some_iff.1 hq
    obtain ⟨request, response, hin⟩ := ho.answered [] n event' queue hqueue
    cases hin

end Server

end AgencyProxy.WebSocket
