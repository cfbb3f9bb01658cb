import AgencyProxy.Delivery
import AgencyProxy.Runtime.Starts

/-!
# What ends a forwarder

The registry keeps every run it has, and a sender on the run's channel, so `recv` never tells a
forwarder that the channel is closed. If the sink takes its frames, one end is left: the re-attach
after a lag is refused, because the journal no longer reaches back to the last event that was
handed on. Both copies of the loop return there, and nobody is told.
-/

namespace AgencyProxy

open AgencyProxy.Runtime Std Lts

namespace Runtime

variable {s s' : Store} {id : RunId}

/-! ## Senders -/

/-- Every run's channel has a sender. -/
def Store.Open (s : Store) : Prop :=
  ∀ (id : RunId) (run : LiveRun), s.runs[id]? = some run → run.events.senders ≠ 0

/-- A run's channel is replaced by one with as many senders. -/
theorem Store.Open.replace (h : s.Open) {run run' : LiveRun} (hr : s.runs[id]? = some run)
    (hs : s'.runs = s.runs.insert id run') (he : run'.events.senders = run.events.senders) :
    s'.Open := by
  intro id' run₀ hr₀
  rw [hs] at hr₀
  rcases ExtTreeMap.getElem?_insert_some.1 hr₀ with ⟨-, rfl⟩ | ⟨-, hr₀⟩
  · rw [he]
    exact h id run hr
  · exact h id' run₀ hr₀

namespace Registry

variable {P : Type} {toValue : P → Except String Value} {r r' : Registry}

theorem open_step {a : Act P} (h : r.store.Open) (hs : r.step toValue a = some r') :
    r'.store.Open := by
  cases a with
  | startInsert k =>
    obtain ⟨id, spec, -, -, ⟨-, rfl⟩ | ⟨-, rfl⟩⟩ := startInsert_cases hs
    · exact h
    · intro id' run hr
      rcases ExtTreeMap.getElem?_insert_some.1 hr with ⟨-, rfl⟩ | ⟨-, hr⟩
      · exact Nat.one_ne_zero
      · exact h id' run hr
  | publish id =>
    obtain ⟨p, last, -, -, ⟨-, rfl⟩ | ⟨run, hr, ⟨-, rfl⟩ | ⟨-, rfl⟩⟩⟩ := publish_cases hs
    · exact h
    all_goals exact h.replace hr (Store.publish_runs hr) (Broadcast.Shared.send_senders _ _)
  | complete id =>
    obtain ⟨last, -, rfl⟩ := complete_cases hs
    cases hr : r.store.runs[id]? with
    | none => simpa only [Store.modify, hr] using h
    | some run => exact h.replace hr (Store.modify_runs hr _) rfl
  | cancelTake k =>
    obtain ⟨id, -, -, ⟨e, -, rfl⟩ | ⟨run, hr, -, rfl⟩⟩ := cancelTake_cases hs
    · exact h
    · exact h.replace hr rfl rfl
  | cancelAll =>
    obtain ⟨-, rfl⟩ := cancelAll_cases hs
    intro id run hr
    rw [ExtTreeMap.getElem?_map, Option.map_eq_some_iff] at hr
    obtain ⟨run₀, hr₀, rfl⟩ := hr
    have hsweep : (sweep run₀).events = run₀.events := by unfold sweep; split <;> rfl
    rw [hsweep]
    exact h id run₀ hr₀
  | acknowledge id through =>
    obtain rfl | ⟨run, hr, rfl⟩ := acknowledge_cases hs
    · exact h
    · exact h.replace hr rfl rfl
  | attach id after =>
    obtain rfl | ⟨run, hr, rfl⟩ := attach_cases hs
    · exact h
    · exact h.replace hr rfl rfl
  | dropReceiver id =>
    obtain rfl | ⟨run, hr, rfl⟩ := dropReceiver_cases hs
    · exact h
    · exact h.replace hr rfl rfl
  | _ =>
    rw [(step_frame hs).store rfl]
    exact h

theorem open_exec {acts : List (Act P)} (h : exec (step toValue) init acts = some r) :
    r.store.Open :=
  exec_inv' (I := fun r => r.store.Open) (fun _ _ _ hi hs => open_step hi hs)
    (fun _ _ hr => by simp [init, Store.empty] at hr) h

theorem found_exec {acts : List (Act P)} (h : exec (step toValue) r acts = some r')
    (hr : r.store.runs[id]? ≠ none) : r'.store.runs[id]? ≠ none :=
  exec_inv' (I := fun r => r.store.runs[id]? ≠ none) (fun _ _ _ hi hs => step_found hs hi) hr h

end Registry

end Runtime

/-! ## One step of a loop -/

namespace Forwarder

variable {store : Store} {id : RunId} {f : Forwarder} {run : LiveRun}

/-- The forwarder is to attach again, and the journal no longer reaches back to its last event. -/
def lapses (store : Store) (id : RunId) (f : Forwarder) : Bool :=
  match f.phase with
  | .lagged => store.runs[id]?.any fun run => f.lastSequence < run.replayFloor
  | _ => false

theorem take_closed {α : Type*} {sh : Broadcast.Shared α} {rx : Broadcast.Receiver}
    (h : (Broadcast.take sh rx).1 = some (.error .closed)) : sh.senders = 0 := by
  unfold Broadcast.take at h
  split at h
  · cases h
  · split at h
    · cases h
    · split at h
      · assumption
      · cases h

/-- Receiving does not end a forwarder. -/
theorem recv_goes_on {st : Stepped} (hopen : store.Open) (hp : f.phase = .receiving)
    (h : recv store id f true = some st) : st.forwarder.phase ≠ .ended := by
  unfold recv at h
  split at h
  · cases h
  · rename_i run hr
    split at h
    · cases h; simp [hp]
    · split at h
      · cases h; simp [hp]
      · cases h; simp [emit, hp]
    · cases h; simp
    · rename_i hclosed
      exact absurd (take_closed (congrArg Prod.fst hclosed)) (hopen id run hr)

/-- The re-attach ends it if it is refused. -/
theorem reattach_ended (hp : f.phase = .lagged) (hr : store.runs[id]? = some run) :
    (reattach store id f).forwarder.phase = .ended ↔ f.lapses store id = true := by
  have hlapses : f.lapses store id = decide (f.lastSequence < run.replayFloor) := by
    simp only [lapses, hp, hr, Option.any_some]
  rw [hlapses, decide_eq_true_eq]
  by_cases hlt : f.lastSequence < run.replayFloor
  · simp only [reattach, Store.attach_refused hr hlt, close_ended, hlt]
  · simp [reattach, Store.attach, hr, LiveRun.attach, hlt]

end Forwarder

/-- **What ends a forwarder** whose sink takes frames, in either copy: a lag too far behind. -/
theorem Transport.forward_ended {t : Transport} {store : Store} {id : RunId} {f : Forwarder}
    {act : Forwarder.Act} {st : Forwarder.Stepped} (h : t.forward store id f act = some st)
    (hopen : store.Open) (hr : store.runs[id]? ≠ none) (hacc : act.accepts = true) :
    st.forwarder.phase = .ended ↔ f.lapses store id = true := by
  cases act with
  | recv accepts =>
    cases hacc
    have hrecv : f.phase = .receiving ∧ Forwarder.recv store id f true = some st := by
      cases t <;> simp only [Transport.forward, unixForward, forwardRunEvents] at h <;>
        (split at h <;> first | (rename_i hp; exact ⟨hp, h⟩) | cases h)
    have hgo := Forwarder.recv_goes_on hopen hrecv.1 hrecv.2
    simp [hgo, Forwarder.lapses, hrecv.1]
  | reattach =>
    obtain ⟨run, hrun⟩ := Option.ne_none_iff_exists'.1 hr
    have hre : f.phase = .lagged ∧ Forwarder.reattach store id f = st := by
      cases t <;> simp only [Transport.forward, unixForward, forwardRunEvents] at h <;>
        (split at h <;> first | (rename_i hp; exact ⟨hp, Option.some.inj h⟩) | cases h)
    rw [← hre.2]
    exact Forwarder.reattach_ended hre.1 hrun
  | replay accepts =>
    cases hacc
    cases t with
    | unix =>
      simp only [Transport.forward, unixForward] at h
      split at h
      · rename_i hp; cases h; simp [Forwarder.emit, Forwarder.lapses, hp]
      · rename_i hp; cases h; simp [Forwarder.resume, Forwarder.lapses, hp]
      · cases h
    | webSocket =>
      simp only [Transport.forward, forwardRunEvents] at h
      split at h
      · rename_i hp
        split at h
        · cases h; simp [Forwarder.lapses, hp]
        · cases h; simp [Forwarder.emit, Forwarder.lapses, hp]
      · rename_i hp; cases h; simp [Forwarder.resume, Forwarder.lapses, hp]
      · cases h

/-! ## How far a forwarder can fall behind -/

namespace Runtime

theorem Journaled.floor_near {run : LiveRun} {published : List SequencedEvent}
    (h : Journaled run published)
    (hfar : run.snapshot.acknowledgedSequence + maxReplayEvents < run.snapshot.latestSequence) :
    run.snapshot.latestSequence ≤ run.replayFloor + maxReplayEvents := by
  have hb := h.bounded
  have hl := h.latest
  rw [h.journal, List.length_drop] at hb
  omega

namespace Registry

variable {P : Type} {toValue : P → Except String Value} {r r' : Registry} {id : RunId}
  {run : LiveRun}

/-- The run's task is at its `select`, and what it receives is published next. -/
structure Publishes (r : Registry) (id : RunId) (run : LiveRun) : Prop where
  lock : r.lock = .free
  task : r.tasks[id]? = some .selecting
  quiet : r.signalled id = false
  found : r.store.runs[id]? = some run

/-- The provider sends one more text, `k` times. -/
def texts (id : RunId) : Nat → List (Act P)
  | 0 => []
  | k + 1 => .recv id (some (.text "more")) :: .publish id :: texts id k

theorem Publishes.text (toValue : P → Except String Value) (h : r.Publishes id run) :
    ∃ r', exec (step toValue) r [.recv id (some (.text "more")), .publish id] = some r' ∧
      r'.Publishes id (run.publish id (.text "more") (some .running) none) := by
  have hfinishes : run.finishes (some .running) = false := by
    simp [LiveRun.finishes, isActiveState]
  let m : Registry := { r with
    tasks := r.tasks.insert id (.publishing ⟨.text "more", some .running, none⟩ false) }
  have hrecv : r.recv toValue id (some (.text "more")) = some m := by
    simp [recv, h.task, h.quiet, publishProvider, m]
  have hpublish : m.publish id = some { m with
      store := m.store.publish id (.text "more") (some .running) none
      tasks := m.tasks.insert id .selecting } := by
    simp [publish, m, h.lock, h.found, hfinishes, afterPublish]
  refine ⟨_, exec_cons_some.2 ⟨m, hrecv, exec_single.2 hpublish⟩, ?_⟩
  refine ⟨h.lock, ExtTreeMap.getElem?_insert_self, h.quiet, ?_⟩
  rw [Store.publish_runs (s := m.store) h.found, ExtTreeMap.getElem?_insert_self]

/-- **A forwarder can be left behind** by any number of events while it is not scheduled. -/
theorem Publishes.texts (toValue : P → Except String Value) (h : r.Publishes id run)
    (hrecv : 0 < run.events.receivers) (k : Nat) :
    ∃ r' run', exec (step toValue) r (Registry.texts id k) = some r' ∧ r'.Publishes id run' ∧
      run'.snapshot.latestSequence = run.snapshot.latestSequence + k ∧
      run'.snapshot.acknowledgedSequence = run.snapshot.acknowledgedSequence ∧
      run'.events.tail = run.events.tail + k ∧ run'.events.capacity = run.events.capacity := by
  induction k generalizing r run with
  | zero => exact ⟨r, run, rfl, h, rfl, rfl, rfl, rfl⟩
  | succ k ih =>
    obtain ⟨m, hm, hpub⟩ := h.text toValue
    have hevents : (run.publish id (.text "more") (some .running) none).events =
        run.events.push (run.sequenced id (.text "more")) :=
      congrArg Prod.snd (run.events.send_of_receivers _ hrecv)
    obtain ⟨r', run', hr', hpub', hlatest, hacked, htail, hcap⟩ :=
      ih hpub (by rw [hevents]; simpa using hrecv)
    refine ⟨r', run', ?_, hpub', ?_, hacked, ?_, ?_⟩
    · have htexts : Registry.texts id (k + 1) =
          [.recv id (some (.text "more")), .publish id] ++ (Registry.texts id k : List (Act P)) :=
        rfl
      rw [htexts, exec_append_some]
      exact ⟨m, hm, hr'⟩
    · rw [hlatest]
      simp only [LiveRun.publish]
      omega
    · rw [htail, hevents, Broadcast.Shared.push_tail]
      omega
    · rw [hcap, hevents, Broadcast.Shared.push_capacity]

end Registry

end Runtime

/-- A forwarder that was left so far behind that neither the ring nor the journal reaches back to
it is told of a lag by its next step, and ends by the one after. -/
theorem Transport.forward_behind (t : Transport) {store : Store} {id : RunId} {f : Forwarder}
    {run : LiveRun} (hr : store.runs[id]? = some run) (hp : f.phase = .receiving)
    (hhead : f.events.next < run.events.head) (hfloor : f.lastSequence < run.replayFloor) :
    ∃ st, t.forward store id f (.recv true) = some st ∧ st.store = store ∧
      st.forwarder.phase = .lagged ∧ st.forwarder.lapses store id = true := by
  refine ⟨⟨store, { f with events := ⟨run.events.head⟩, phase := .lagged }, none⟩, ?_, rfl, rfl, ?_⟩
  · have hrecv : Forwarder.recv store id f true =
        some ⟨store, { f with events := ⟨run.events.head⟩, phase := .lagged }, none⟩ := by
      simp only [Forwarder.recv, hr, Broadcast.take, if_pos hhead]
    cases t <;> simp only [Transport.forward, unixForward, forwardRunEvents, hp, hrecv]
  · simp [Forwarder.lapses, hr, hfloor]

end AgencyProxy
