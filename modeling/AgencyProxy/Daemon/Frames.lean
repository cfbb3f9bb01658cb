import AgencyProxy.Daemon.Streams
import AgencyProxy.Wire

/-!
# The size of frames

Both ends of a Unix connection refuse a frame of more than `MAX_FRAME_BYTES`, and nothing that
the server sends is measured first. What decides is how much a provider event says, and how
much the requests of accepted runs said: `roomy` is the bound on a publication, and on the
snapshots that a `ListRuns` or an `AttachRun` finds, under which every frame fits.
-/

namespace AgencyProxy

open AgencyProxy.Runtime Serde Std Lts

/-! ## Bytes -/

/-- The bytes that `send_server` hands to the codec. -/
def ServerFrame.bytes (frame : ServerFrame) : Nat := frame.serialize.size

def ServerFrame.Fits (frame : ServerFrame) : Prop := frame.bytes ≤ maxFrameBytes

/-- The bytes of an event's frame: its run's id, its number and the event, and what is between. -/
def eventBytes (id : RunId) (sequence : Nat) (event : RunEvent) : Nat :=
  47 + stringSize id.id + uintSize sequence + event.serialize.size

def runBytes (requestId : Nat) (run : RunSnapshot) : Nat :=
  53 + uintSize requestId + run.serialize.size

def runsBytes (requestId : Nat) (runs : List RunSnapshot) : Nat :=
  57 + uintSize requestId + (runs.length - 1) + (runs.map fun run => run.serialize.size).sum

theorem event_bytes (id : RunId) (sequence : Nat) (event : RunEvent) :
    (ServerFrame.event id sequence event).bytes = eventBytes id sequence event := by
  have hk : stringSize "kind" = 6 := rfl
  have hv : stringSize "event" = 7 := rfl
  have hi : stringSize "run_id" = 8 := rfl
  have hs : stringSize "sequence" = 10 := rfl
  simp only [ServerFrame.bytes, ServerFrame.serialize, ServerFrame.fields, ServerFrame.variant,
    Value.size, membersSize, writeUInt, intSize, RunId.serialize, eventBytes, List.length, hk, hv,
    hi, hs]
  omega

theorem run_bytes (requestId : Nat) (run : RunSnapshot) :
    (ServerFrame.response requestId (.run run)).bytes = runBytes requestId run := by
  have hk : stringSize "kind" = 6 := rfl
  have hv : stringSize "response" = 10 := rfl
  have hi : stringSize "request_id" = 12 := rfl
  have ht : stringSize "type" = 6 := rfl
  have hr : stringSize "run" = 5 := rfl
  simp only [ServerFrame.bytes, ServerFrame.serialize, ServerFrame.fields, ServerFrame.variant,
    ServerResponse.fields, ServerResponse.variant, Value.size, membersSize, writeUInt, intSize,
    runBytes, List.length, hk, hv, hi, ht, hr]
  omega

theorem runs_bytes (requestId : Nat) (runs : List RunSnapshot) :
    (ServerFrame.response requestId (.runs runs)).bytes = runsBytes requestId runs := by
  have hk : stringSize "kind" = 6 := rfl
  have hv : stringSize "response" = 10 := rfl
  have hi : stringSize "request_id" = 12 := rfl
  have ht : stringSize "type" = 6 := rfl
  have hr : stringSize "runs" = 6 := rfl
  have hsum : itemsSize (runs.map RunSnapshot.serialize) =
      (runs.map fun run => run.serialize.size).sum := by
    rw [itemsSize_eq_sum, List.map_map]
    rfl
  simp only [ServerFrame.bytes, ServerFrame.serialize, ServerFrame.fields, ServerFrame.variant,
    ServerResponse.fields, ServerResponse.variant, Value.size, membersSize, writeUInt, writeList,
    intSize, runsBytes, List.length, List.length_map, hk, hv, hi, ht, hr, hsum]
  omega

/-- The frames about runs: `Run` and `Runs` responses, and events. -/
def ServerFrame.ofRuns : ServerFrame → Bool
  | .response _ (.run _) | .response _ (.runs _) | .event _ _ _ => true
  | .response _ _ => false

/-! ## What a forwarder holds -/

namespace Forwarder

variable {store : Store} {id : RunId} {f : Forwarder} {st : Stepped}

/-- What is left of a replay in progress. -/
def rest (f : Forwarder) : List SequencedEvent :=
  match f.phase with
  | .replaying rest _ => rest
  | _ => []

/-- The step hands over, and keeps, only what the task held or what was published on its run. -/
def Draws (store : Store) (id : RunId) (f : Forwarder) (st : Stepped) : Prop :=
  ∀ e, st.handed = some e ∨ e ∈ st.forwarder.rest → e ∈ f.rest ∨ e ∈ store.published id

theorem close_rest (store : Store) (id : RunId) (f : Forwarder) :
    (close store id f).forwarder.rest = [] := by
  unfold close
  split
  · rfl
  · rfl
  · rfl
  · rename_i hp
    simp [rest, hp]

/-- A step that hands over nothing, and keeps only what the task held. -/
theorem draws_of_kept (hh : st.handed = none) (hr : ∀ e ∈ st.forwarder.rest, e ∈ f.rest) :
    Draws store id f st := by
  intro e he
  rw [hh] at he
  exact .inl (hr e (he.resolve_left (by simp)))

theorem close_draws (f' : Forwarder) : Draws store id f (close store id f') :=
  draws_of_kept (close_fields store id f').2.2 (by rw [close_rest]; simp)

/-- A task that hands over an event that it may, and keeps what it may. -/
theorem emit_draws {f' : Forwarder} {event : SequencedEvent} {accepts : Bool}
    (he : event ∈ f.rest ∨ event ∈ store.published id)
    (hr : ∀ e ∈ f'.rest, e ∈ f.rest ∨ e ∈ store.published id) :
    Draws store id f (emit store id f' event accepts) := by
  intro e hmem
  unfold emit at hmem
  dsimp only at hmem
  split at hmem
  · rcases hmem with hmem | hmem
    · cases hmem; exact he
    · exact hr e hmem
  · rcases hmem with hmem | hmem
    · cases hmem; exact he
    · rw [close_rest] at hmem; cases hmem

theorem recv_draws {accepts : Bool} (hn : Registry.Named store)
    (h : recv store id f accepts = some st) : Draws store id f st := by
  unfold recv at h
  split at h
  · cases h
  · rename_i run hrun
    split at h
    · cases h; exact draws_of_kept rfl fun e he => he
    · rename_i event events ht
      split at h
      · cases h; exact draws_of_kept rfl fun e he => he
      · cases h
        exact emit_draws (.inr (hn.buffer id run hrun event (take_mem ht))) fun e he => .inl he
    · cases h; exact draws_of_kept rfl fun e he => by cases he
    · cases h; exact close_draws _

theorem reattach_draws (hj : store.Journals) : Draws store id f (reattach store id f) := by
  unfold reattach
  split
  · rename_i attachment store' ha
    rintro e (he | he)
    · cases he
    · exact .inr (attach_published hj ha e he)
  · exact close_draws _

theorem unixForward_draws {act : Act} (hj : store.Journals) (hn : Registry.Named store)
    (h : unixForward store id f act = some st) : Draws store id f st := by
  cases act with
  | recv accepts =>
    simp only [unixForward] at h
    split at h
    · exact recv_draws hn h
    · cases h
  | reattach =>
    simp only [unixForward] at h
    split at h
    · cases h; exact reattach_draws hj
    · cases h
  | replay accepts =>
    simp only [unixForward] at h
    split at h
    · rename_i event later events hp
      have hrest : f.rest = event :: later := by simp only [rest, hp]
      cases h
      refine emit_draws (.inl ?_) fun e he => .inl ?_
      · rw [hrest]; exact List.mem_cons_self
      · rw [hrest]; exact List.mem_cons_of_mem _ he
    · cases h; exact draws_of_kept rfl fun e he => by cases he
    · cases h

end Forwarder

/-! ## What a connection holds -/

/-- The frames that the connection's own code is writing, or writes next. -/
def Pc.frames : Pc → List ServerFrame
  | .relaying _ event => [eventFrame event]
  | .answering request response (.replay _ _ attachment) _ =>
    .response request.requestId response :: attachment.replay.map eventFrame
  | .answering request response _ _ => [.response request.requestId response]
  | .replaying _ _ rest _ => rest.map eventFrame
  | _ => []

/-- Every event published so far makes a frame that fits. -/
def Runtime.Store.Small (store : Store) : Prop :=
  ∀ (id : RunId), ∀ e ∈ store.published id, (eventFrame e).Fits

namespace Conn

/-- All frames that the connection wrote, is writing or has in its queue. -/
def frames (conn : Conn) : List ServerFrame :=
  conn.wire ++ conn.pc.frames ++ conn.outbound.map fun p => eventFrame p.2

structure Small (conn : Conn) : Prop where
  frames : ∀ frame ∈ conn.frames, frame.ofRuns = true → frame.Fits
  tasks : ∀ (n : Nat) (task : Forward), conn.forwards[n]? = some task →
    ∀ e ∈ task.forwarder.rest, (eventFrame e).Fits
  fresh : ∀ n id rest forwarder, conn.pc = .replaying n id rest forwarder → forwarder.rest = []

/-- The snapshots that a request is about to be answered with are small enough. -/
def roomy (store : Store) (conn : Conn) : Bool :=
  match conn.pc with
  | .handling request =>
    match request.message with
    | .listRuns => runsBytes request.requestId store.list ≤ maxFrameBytes
    | .attachRun id _ =>
      store.runs[id]?.all fun run => runBytes request.requestId run.snapshot ≤ maxFrameBytes
    | _ => true
  | _ => true

variable {s s' : Shared} {c : Nat} {conn conn' : Conn}

theorem small_init : Small .init :=
  ⟨by simp [frames, wire, init, Pc.frames], by simp [init], by simp [init]⟩

theorem mem_frames {frame : ServerFrame} :
    frame ∈ conn.frames ↔ (∃ w ∈ conn.written, w.frame = frame) ∨ frame ∈ conn.pc.frames ∨
      ∃ p ∈ conn.outbound, eventFrame p.2 = frame := by
  simp [frames, wire]

/-- The connection's own code goes on: what it has written it had in hand, and the tasks are
those that were there. -/
theorem Small.goto (h : conn.Small)
    (hw : ∀ w ∈ conn'.written, w ∈ conn.written ∨ w.frame ∈ conn.pc.frames)
    (hpc : ∀ frame ∈ conn'.pc.frames, frame ∈ conn.frames ∨
      (frame.ofRuns = true → frame.Fits))
    (ho : ∀ p ∈ conn'.outbound, p ∈ conn.outbound)
    (ht : ∀ (n : Nat) (task' : Forward), conn'.forwards[n]? = some task' →
      ∃ task, conn.forwards[n]? = some task ∧ task'.id = task.id ∧
        task'.forwarder = task.forwarder)
    (hf : ∀ n id rest forwarder, conn'.pc = .replaying n id rest forwarder →
      forwarder.rest = []) : conn'.Small where
  frames frame hm hr := by
    rcases mem_frames.1 hm with ⟨w, hwm, rfl⟩ | hm | ⟨p, hp, rfl⟩
    · refine h.frames _ (mem_frames.2 ?_) hr
      exact (hw w hwm).imp (fun hw => ⟨w, hw, rfl⟩) .inl
    · exact (hpc frame hm).elim (fun hm => h.frames frame hm hr) fun hfit => hfit hr
    · exact h.frames _ (mem_frames.2 (.inr (.inr ⟨p, ho p hp, rfl⟩))) hr
  tasks n task' hn := by
    obtain ⟨task, htask, -, he⟩ := ht n task' hn
    rw [he]
    exact h.tasks n task htask
  fresh := hf

/-- It goes on to a place where it writes nothing, or no frame of runs. -/
theorem Small.pause (h : conn.Small) {pc : Pc} (hpc : ∀ frame ∈ pc.frames, frame.ofRuns = false)
    (hf : ∀ n id rest forwarder, pc ≠ .replaying n id rest forwarder)
    {consumed : List (Option ClientFrame)} : ({ conn with pc, consumed } : Conn).Small :=
  h.goto (fun w hw => .inl hw) (fun frame hm => .inr fun hr => by rw [hpc frame hm] at hr; cases hr)
    (fun p hp => hp) (fun n task hn => ⟨task, hn, rfl, rfl⟩)
    fun n id rest forwarder he => absurd he (hf n id rest forwarder)

/-- A frame that it has in hand is written; what is left in hand was there before. -/
theorem Small.wrote (h : conn.Small) {w : Written} {pc : Pc} (hw : w.frame ∈ conn.pc.frames)
    (hpc : ∀ frame ∈ pc.frames, frame ∈ conn.pc.frames)
    (hf : ∀ n id rest forwarder, pc = .replaying n id rest forwarder → forwarder.rest = [])
    {attached : List Attached} :
    ({ conn with pc, attached, written := conn.written ++ [w] } : Conn).Small := by
  refine h.goto (fun v hv => ?_) (fun frame hm => .inl (mem_frames.2 (.inr (.inl (hpc frame hm)))))
    (fun p hp => hp) (fun n task hn => ⟨task, hn, rfl, rfl⟩) hf
  refine (List.mem_append.1 hv).imp_right fun hv => ?_
  rw [List.mem_singleton.1 hv]
  exact hw

/-- A task is polled, or suspends. -/
theorem Small.poll (h : conn.Small) {n : Nat} {task : Forward} (polling : Bool)
    (hf : conn.forwards[n]? = some task) :
    ({ conn with forwards := conn.forwards.insert n { task with polling } } : Conn).Small := by
  refine h.goto (fun w hw => .inl hw) (fun frame hm => .inl (mem_frames.2 (.inr (.inl hm))))
    (fun p hp => hp) ?_ h.fresh
  exact ExtTreeMap.forall_insert (fun m task' hm => ⟨task', hm, rfl, rfl⟩) ⟨task, hf, rfl, rfl⟩

/-- A task advances, and what it hands over goes to the end of the queue, if there is one. -/
theorem Small.task (h : conn.Small) {store : Store} (hsmall : store.Small) {n : Nat}
    {task : Forward} {st : Forwarder.Stepped} {outbound : List (Nat × SequencedEvent)}
    (hf : conn.forwards[n]? = some task)
    (hd : Forwarder.Draws store task.id task.forwarder st)
    (ho : outbound = conn.outbound ∨
      outbound = conn.outbound ++ (st.handed.map (n, ·)).toList) :
    ({ conn with
      forwards := conn.forwards.insert n { task with forwarder := st.forwarder }, outbound } :
      Conn).Small := by
  have hdrawn : ∀ e, st.handed = some e ∨ e ∈ st.forwarder.rest → (eventFrame e).Fits :=
    fun e he => (hd e he).elim (h.tasks n task hf e) (hsmall task.id e)
  refine ⟨fun frame hm hr => ?_,
    ExtTreeMap.forall_insert h.tasks fun e he => hdrawn e (.inr he), h.fresh⟩
  · rcases mem_frames.1 hm with hw | hm | ⟨p, hp, rfl⟩
    · exact h.frames frame (mem_frames.2 (.inl hw)) hr
    · exact h.frames frame (mem_frames.2 (.inr (.inl hm))) hr
    · have hp' : p ∈ conn.outbound ∨ st.handed = some p.2 := by
        rcases ho with rfl | rfl
        · exact .inl hp
        · refine (List.mem_append.1 hp).imp_right fun hp => ?_
          obtain ⟨e, he, rfl⟩ := Option.map_eq_some_iff.1 (Option.mem_toList.1 hp)
          exact he
      rcases hp' with hp | he
      · exact h.frames _ (mem_frames.2 (.inr (.inr ⟨p, hp, rfl⟩))) hr
      · exact hdrawn p.2 (.inl he)

/-- The answer to an accepted or refused request is no frame of runs. -/
theorem accepted_frames (request : ClientFrame) (result : Except RuntimeError Unit)
    (locked : Bool) : ∀ frame ∈ (Pc.answering request (accepted result) .loop locked).frames,
      frame.ofRuns = false := by
  intro frame hm
  obtain rfl := List.mem_singleton.1 hm
  cases result <;> rfl

theorem accepted_ne_runs (result : Except RuntimeError Unit) (runs : List RunSnapshot) :
    accepted result ≠ .runs runs := by
  cases result <;> simp [accepted, runtimeError]

/-- Only `ListRuns` is answered with `Runs`, which are the runs that it finds. -/
theorem handle_runs {reply : Reply} {request : ClientFrame} {runs : List RunSnapshot}
    (h : conn.handle s c reply = some (s', conn.answer request (.runs runs)))
    (hpc : conn.pc = .handling request) :
    request.message = .listRuns ∧ runs = s.registry.store.list := by
  simp only [handle, hpc] at h
  split at h
  · rename_i hm
    split at h
    · simp only [answer, Option.some.injEq, Prod.mk.injEq, Conn.mk.injEq, Pc.answering.injEq,
        ServerResponse.runs.injEq] at h
      exact ⟨hm, h.2.1.2.1.symm⟩
    · cases h
  all_goals
    try unfold control at h
    repeat' split at h
  all_goals simp [answer, runtimeError, accepted_ne_runs] at h

theorem greet_ofRuns (frame : ClientFrame) :
    ∀ f ∈ (greet frame).frames, f.ofRuns = false := by
  unfold greet
  split
  · split <;> simp [Pc.frames, ServerFrame.ofRuns]
  · simp [Pc.frames, ServerFrame.ofRuns]

/-- **Step lemma**: a connection that starts from small runs sends only frames that fit. -/
theorem Small.step {a : Act} (h : conn.Small) (hsmall : s.registry.store.Small)
    (hj : s.registry.store.Journals) (hn : Registry.Named s.registry.store)
    (hroom : ∀ reply, a = .handle reply → conn.roomy s.registry.store = true)
    (hs : conn.step s c a = some (s', conn')) : conn'.Small := by
  cases step_moves hs with
  | first frame hpc =>
    refine h.pause (greet_ofRuns frame) fun n id rest forwarder => ?_
    unfold greet
    split
    · split <;> simp
    · simp
  | close hpc =>
    exact h.goto (fun w hw => .inl hw) (fun frame hm => by simp [Pc.frames] at hm)
      (fun p hp => hp) (fun n task hf => abortAll_forwards hf) (by simp)
  | relay n event rest hpc hq =>
    refine h.goto (fun w hw => .inl hw) (fun frame hm => .inl ?_) (fun p hp => ?_)
      (fun n task hn => ⟨task, hn, rfl, rfl⟩) (by simp)
    · simp only [Pc.frames, List.mem_singleton] at hm
      exact mem_frames.2 (.inr (.inr ⟨(n, event), by simp [hq], hm.symm⟩))
    · rw [hq]; exact List.mem_cons_of_mem _ hp
  | answer reply request response called hpc hl hp hd =>
    refine h.goto (fun w hw => .inl hw) (fun frame hm => .inr fun hr => ?_) (fun p hp => hp)
      (fun n task hn => ⟨task, hn, rfl, rfl⟩) (by simp [answer])
    simp only [answer, Pc.frames, List.mem_singleton] at hm
    subst hm
    cases response with
    | run run => cases hp
    | runs runs =>
      obtain ⟨hm, rfl⟩ := handle_runs hs hpc
      have hr := hroom _ rfl
      simp only [roomy, hpc, hm, decide_eq_true_eq] at hr
      rw [ServerFrame.Fits, runs_bytes]
      exact hr
    | _ => cases hr
  | attach request id after attachment store hpc hm hl hok =>
    refine h.goto (fun w hw => .inl hw) (fun frame hf => .inr fun hr => ?_) (fun p hp => hp)
      (fun n task hn => ⟨task, hn, rfl, rfl⟩) (by simp)
    rcases List.mem_cons.1 hf with rfl | hf
    · obtain ⟨run, run', hrun, ha, -⟩ := Store.attach_ok hok
      obtain ⟨-, rfl, -⟩ := LiveRun.attach_ok ha
      have hr := hroom _ rfl
      simp only [roomy, hpc, hm, hrun, Option.all_some, decide_eq_true_eq] at hr
      rw [ServerFrame.Fits, run_bytes]
      exact hr
    · obtain ⟨e, he, rfl⟩ := List.mem_map.1 hf
      exact hsmall id e (attach_published hj hok e he)
  | detach request id hpc =>
    exact h.goto (fun w hw => .inl (by simpa [answer] using hw))
      (fun frame hm => .inr fun hr => by
        simp only [answer, Pc.frames, List.mem_singleton] at hm
        subst hm
        cases hr)
      (fun p hp => by simpa [answer] using hp) (fun n task hf => abort_forwards hf)
      (by simp [answer])
  | started request k id result => exact h.pause (accepted_frames request result true) (by simp)
  | canceled request k id result => exact h.pause (accepted_frames request result false) (by simp)
  | wrote request response next locked hpc =>
    have hfirst : (Written.response request response).frame ∈ conn.pc.frames := by
      rw [hpc]; cases next <;> exact List.mem_cons_self
    cases next with
    | replay id after attachment =>
      refine h.wrote hfirst (fun frame hm => ?_) fun n id rest forwarder he => ?_
      · rw [hpc]; exact List.mem_cons_of_mem _ hm
      · cases he; rfl
    | _ => exact h.wrote hfirst (fun frame hm => by cases hm) (by simp)
  | relayed n event hpc =>
    exact h.wrote (by rw [hpc]; exact List.mem_cons_self) (fun frame hm => by cases hm) (by simp)
  | replayed n id event rest forwarder hpc =>
    refine h.wrote (by rw [hpc]; exact List.mem_cons_self) (fun frame hm => ?_)
      fun n' id' rest' f he => ?_
    · rw [hpc]; exact List.mem_cons_of_mem _ hm
    · cases he; exact h.fresh n id _ _ hpc
  | spawn n id forwarder hpc =>
    have hf := h.fresh n id [] forwarder hpc
    refine ⟨fun frame hm hr => h.frames frame ?_ hr, fun m task hm e he => ?_, by simp⟩
    · simpa [mem_frames, Pc.frames, hpc] using hm
    · rcases ExtTreeMap.getElem?_insert_some.1 hm with ⟨rfl, rfl⟩ | ⟨-, hm⟩
      · rw [hf] at he; cases he
      · obtain ⟨task₀, h₀, -, hfw⟩ := abort_forwards hm
        exact h.tasks m task₀ h₀ e (hfw ▸ he)
  | wake n task hf => exact h.poll true hf
  | suspend n task hf => exact h.poll false hf
  | forward n task stepped hf hpoll hlock hok =>
    exact h.task hsmall hf (Forwarder.unixForward_draws hj hn hok) (by split <;> simp)
  | reap n task hf => exact h.task hsmall hf (Forwarder.close_draws _) (.inl rfl)
  | _ => exact h.pause (by simp [Pc.frames, ServerFrame.ofRuns]) (by simp)

end Conn

namespace Daemon

variable {P : Type} {toValue : P → Except String Value} {d d' : Daemon}

/-- A publication is small enough for a frame, and so are the snapshots that a `ListRuns` or an
`AttachRun` finds. -/
def roomy (d : Daemon) : Act P → Bool
  | .registry (.publish id) =>
    match d.shared.registry.tasks[id]?, d.shared.registry.store.runs[id]? with
    | some (.publishing p _), some run =>
      eventBytes id (run.snapshot.latestSequence + 1) p.event ≤ maxFrameBytes
    | _, _ => true
  | .conn c (.handle _) => d.conns[c]?.all fun conn => conn.roomy d.shared.registry.store
  | _ => true

structure Small (d : Daemon) : Prop where
  store : d.shared.registry.store.Small
  conns : ∀ (c : Nat) (conn : Conn), d.conns[c]? = some conn → conn.Small

theorem byClients_published {r r' : Registry} (h : ByClients toValue r r') :
    r'.store.published = r.store.published := by
  obtain ⟨ks, hk, h⟩ := h
  induction ks generalizing r with
  | nil => cases h; rfl
  | cons a ks ih =>
    obtain ⟨m, hm, h⟩ := exec_cons_some.1 h
    have ha := hk a List.mem_cons_self
    have hpub := Registry.step_published hm fun id he => by rw [he] at ha; cases ha
    exact (ih (fun a' h' => hk a' (List.mem_cons_of_mem _ h')) h).trans hpub

theorem moves_published {s s' : Shared} {c : Nat} {conn conn' : Conn} {a : Conn.Act}
    (h : Conn.Moves s c conn a s' conn') :
    s'.registry.store.published = s.registry.store.published := by
  obtain ⟨k, id, hc⟩ | ⟨request, k, id, spec, -, -, hc⟩ | hc :=
    moves_registry (fun _ : Unit => .ok .null) h
  · obtain ⟨-, he⟩ := Registry.cancelCall_cases hc
    rw [he]
  · obtain ⟨-, he⟩ := Registry.startCall_cases hc
    rw [he]
  · exact byClients_published hc

theorem small_of_published {store store' : Store} (h : store.Small)
    (he : store'.published = store.published) : store'.Small := by
  intro id e hm
  rw [he] at hm
  exact h id e hm

/-- **Step lemma**: a publication that is small enough adds an event whose frame fits. -/
theorem small_publish {r r' : Registry} {id : RunId} (h : r.store.Small)
    (hs : r.publish id = some r')
    (hroom : ∀ p last run, r.tasks[id]? = some (.publishing p last) →
      r.store.runs[id]? = some run →
      eventBytes id (run.snapshot.latestSequence + 1) p.event ≤ maxFrameBytes) :
    r'.store.Small := by
  obtain ⟨p, last, -, ht, ⟨-, rfl⟩ | ⟨run, hr, hcase⟩⟩ := Registry.publish_cases hs
  · exact h
  · have hstore : r'.store = r.store.publish id p.event p.state p.session := by
      obtain ⟨-, rfl⟩ | ⟨-, rfl⟩ := hcase <;> rfl
    rw [hstore]
    intro id' e he
    rw [Store.publish_published hr] at he
    by_cases hid : id' = id
    · subst hid
      rw [Function.update_self] at he
      rcases List.mem_append.1 he with he | he
      · exact h id' e he
      · rw [List.mem_singleton.1 he, ServerFrame.Fits]
        exact (event_bytes _ _ _).trans_le (hroom p last run ht hr)
    · rw [Function.update_of_ne hid] at he
      exact h id' e he

theorem Small.step {a : Act P} (h : d.Small) (hj : d.shared.registry.store.Journals)
    (hn : Registry.Named d.shared.registry.store) (hroom : d.roomy a = true)
    (hs : d.step toValue a = some d') : d'.Small := by
  cases a with
  | accept c =>
    obtain ⟨-, rfl⟩ := accept_cases hs
    refine ⟨h.store, fun c' conn hc => ?_⟩
    rcases ExtTreeMap.getElem?_insert_some.1 hc with ⟨-, rfl⟩ | ⟨-, hc⟩
    · exact Conn.small_init
    · exact h.conns c' conn hc
  | conn c a =>
    obtain ⟨conn, shared, conn', hc, hstep, rfl⟩ := conn_cases hs
    have hroom' : ∀ reply, a = .handle reply → conn.roomy d.shared.registry.store = true := by
      rintro reply rfl
      simpa only [roomy, hc, Option.all_some] using hroom
    refine ⟨small_of_published h.store (moves_published (Conn.step_moves hstep)),
      fun c' conn'' hc' => ?_⟩
    rcases ExtTreeMap.getElem?_insert_some.1 hc' with ⟨-, rfl⟩ | ⟨-, hc'⟩
    · exact (h.conns c conn hc).step h.store hj hn hroom' hstep
    · exact h.conns c' conn'' hc'
  | registry a =>
    obtain ⟨-, registry, hr, rfl⟩ := registry_cases hs
    refine ⟨?_, h.conns⟩
    by_cases ha : ∃ id, a = .publish id
    · obtain ⟨id, rfl⟩ := ha
      refine small_publish h.store hr fun p last run ht hrun => ?_
      simpa only [roomy, ht, hrun, decide_eq_true_eq] using hroom
    · exact small_of_published h.store
        (Registry.step_published hr fun id he => ha ⟨id, he⟩)
  | drain c =>
    obtain ⟨registry, -, hr, rfl⟩ | ⟨-, -, rfl⟩ | ⟨-, rfl⟩ := drain_cases hs
    · obtain ⟨-, he⟩ := Registry.cancelAll_cases hr
      exact ⟨small_of_published h.store (by rw [he]), h.conns⟩
    · exact ⟨h.store, h.conns⟩
    · exact ⟨h.store, h.conns⟩
  | stop result => obtain ⟨-, rfl⟩ := stop_cases hs; exact ⟨h.store, h.conns⟩

theorem small_init : init.Small :=
  ⟨fun _ e he => (by cases he), fun c conn hc => by simp [init] at hc⟩

/-- **Frames fit**, in every run in which every publication and every snapshot that is asked for
is small enough: each `Run` or `Runs` response and each event that a connection wrote, is writing
or has in its queue. Other responses are not among them; an error may repeat what a client said. -/
theorem frames_fit (toValue : P → Except String Value) (acts : List (Act P)) (d : Daemon)
    (h : exec (step toValue) init acts = some d)
    (hroom : Along (step toValue) (fun d a => d.roomy a = true) init acts) :
    ∀ (c : Nat) (conn : Conn), d.conns[c]? = some conn →
      ∀ frame ∈ conn.frames, frame.ofRuns = true → frame.bytes ≤ maxFrameBytes := by
  have hsmall : d.Small := exec_inv_reachable (I := Small)
    (fun ls d a d' hls hi hroom hs =>
      hi.step (store_exec hls).1 (store_exec hls).2 hroom hs)
    small_init hroom h
  exact fun c conn hc => (hsmall.conns c conn hc).frames

/-- A client says hello and starts a run, whose provider sends one event. -/
def oneEvent (event : Event Unit) : List (Act Unit) :=
  [.accept 0, .conn 0 (.receive (.frame ⟨1, .hello "client" ⟨0, 4⟩⟩)), .conn 0 (.write true),
   .conn 0 (.receive (.frame ⟨2, .startRun ⟨"r"⟩ plainRequest "key"⟩)), .conn 0 (.handle .nothing),
   .conn 0 (.check 0), .registry (.startCheck 0), .registry (.startLaunch 0 (.ok ())),
   .registry (.startInsert 0), .registry (.startCount 0), .registry (.startSpawn 0),
   .conn 0 .started, .conn 0 (.write true),
   .registry (.recv ⟨"r"⟩ (some event)), .registry (.publish ⟨"r"⟩)]

/-- It lists the runs, and attaches to its own from the beginning. -/
def listAndAttach : List (Act Unit) :=
  [.conn 0 (.receive (.frame ⟨3, .listRuns⟩)), .conn 0 (.handle .nothing), .conn 0 (.write true),
   .conn 0 (.receive (.frame ⟨4, .attachRun ⟨"r"⟩ 0⟩)), .conn 0 (.handle .nothing),
   .conn 0 (.write true)]

theorem frames_fit_smallEvent :
    ∃ (d : Daemon) (conn : Conn),
      exec (step fun _ => .ok .null) init (oneEvent (.text "hello") ++ listAndAttach) = some d ∧
      d.conns[0]? = some conn ∧ (conn.frames.filter ServerFrame.ofRuns).length = 3 ∧
      ∀ frame ∈ conn.frames, frame.ofRuns = true → frame.bytes ≤ maxFrameBytes := by
  have h : ((exec (step fun _ => .ok .null) init
      (oneEvent (.text "hello") ++ listAndAttach)).bind fun d => d.conns[0]?.map fun conn =>
        (conn.frames.filter ServerFrame.ofRuns).length) = some 3 := by decide +kernel
  obtain ⟨d, hd, h⟩ := Option.bind_eq_some_iff.1 h
  obtain ⟨conn, hc, hlen⟩ := Option.map_eq_some_iff.1 h
  exact ⟨d, conn, hd, hc, hlen, frames_fit _ _ d hd (by decide +kernel) 0 conn hc⟩

/-- A tool's input of 65536 numbers. -/
def bulkyInput : Value :=
  .array (.replicate 16 (.array (.replicate 64 (.array (.replicate 64 (.number (10 ^ 18)))))))

/-- The event is in the journal, and the replay of the attachment does not fit, though all that
the client sent does. -/
theorem frames_overflow_bulkyInput :
    ∃ (d : Daemon) (conn : Conn) (frame : ServerFrame),
      exec (step fun _ => .ok .null) init
        (oneEvent (.toolCall none "read" bulkyInput) ++ listAndAttach) = some d ∧
      d.conns[0]? = some conn ∧
      (∀ sent ∈ conn.consumed, ∃ f, sent = some f ∧ f.serialize.size ≤ maxFrameBytes) ∧
      frame ∈ conn.frames ∧ frame.ofRuns = true ∧ maxFrameBytes < frame.bytes := by
  have h : ((exec (step fun _ => .ok .null) init
      (oneEvent (.toolCall none "read" bulkyInput) ++ listAndAttach)).bind
      fun d => d.conns[0]?.map fun conn =>
        (conn.consumed.all fun sent => sent.any fun f => f.serialize.size ≤ maxFrameBytes,
          conn.frames.any fun frame => frame.ofRuns && (maxFrameBytes < frame.bytes : Bool))) =
      some (true, true) := by decide +kernel
  obtain ⟨d, hd, h⟩ := Option.bind_eq_some_iff.1 h
  obtain ⟨conn, hc, h⟩ := Option.map_eq_some_iff.1 h
  simp only [Prod.mk.injEq, List.all_eq_true, Option.any_eq_true, List.any_eq_true,
    Bool.and_eq_true, decide_eq_true_eq] at h
  obtain ⟨hsent, frame, hm, hr, hlong⟩ := h
  exact ⟨d, conn, frame, hd, hc, hsent, hm, hr, hlong⟩

end Daemon

end AgencyProxy
