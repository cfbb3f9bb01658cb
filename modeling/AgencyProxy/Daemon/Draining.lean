import AgencyProxy.Daemon.Receivers
import AgencyProxy.Daemon.Shutdown
import AgencyProxy.Runtime.Endings

/-!
# What a shutdown leaves on its way

`serve` returns when the shutdown flag is set, which is once every run has ended, and waits
for no connection. What is promised to a client that is attached then is that nothing is
lost on the way: of each event after its cursor, unless acknowledged, it has been sent the
frame, or the frame is in the connection's hand or queue, or the event is still ahead of the
forwarder. Each attachment of an open connection is an attachment as `AgencyProxy.Delivery`
has it, whatever the rest of the daemon does.
-/

namespace AgencyProxy

open AgencyProxy.Runtime AgencyProxy.Broadcast Std Lts

namespace Runtime.Store

/-- Each run stays, with what its channel holds and what was published on it. -/
def Quieter (s s' : Store) : Prop :=
  ∀ (id : RunId) (run : LiveRun), s.runs[id]? = some run →
    ∃ run', s'.runs[id]? = some run' ∧ run'.events.buffer = run.events.buffer ∧
      run'.events.head = run.events.head ∧
      run.snapshot.acknowledgedSequence ≤ run'.snapshot.acknowledgedSequence ∧
      s'.published id = s.published id

/-- Each run moves by at most one event. -/
def Moved (s s' : Store) : Prop :=
  ∀ (id : RunId) (run : LiveRun), s.runs[id]? = some run →
    ∃ run', s'.runs[id]? = some run' ∧ RunStep run (s.published id) run' (s'.published id)

variable {s s' s'' : Store}

theorem Quieter.refl (s : Store) : Quieter s s :=
  fun _ run hr => ⟨run, hr, rfl, rfl, Nat.le_refl _, rfl⟩

theorem Quieter.trans (h : Quieter s s') (h' : Quieter s' s'') : Quieter s s'' := by
  intro id run hr
  obtain ⟨run', hr', hb, hh, ha, hp⟩ := h id run hr
  obtain ⟨run'', hr'', hb', hh', ha', hp'⟩ := h' id run' hr'
  exact ⟨run'', hr'', hb'.trans hb, hh'.trans hh, ha.trans ha', hp'.trans hp⟩

theorem Quieter.moved (h : Quieter s s') : Moved s s' := by
  intro id run hr
  obtain ⟨run', hr', hb, hh, ha, hp⟩ := h id run hr
  exact ⟨run', hr', hp ▸ .quiet hb hh ha⟩

/-- One run was replaced by one with the same events on its channel. -/
theorem Quieter.replace {id : RunId} {run₀ run₁ : LiveRun} (hr₀ : s.runs[id]? = some run₀)
    (hb : run₁.events.buffer = run₀.events.buffer) (hh : run₁.events.head = run₀.events.head)
    (ha : run₀.snapshot.acknowledgedSequence ≤ run₁.snapshot.acknowledgedSequence) :
    Quieter s { s with runs := s.runs.insert id run₁ } := by
  intro id' run hr
  by_cases hid : id = id'
  · subst hid
    cases hr₀.symm.trans hr
    exact ⟨run₁, ExtTreeMap.getElem?_insert_self, hb, hh, ha, rfl⟩
  · exact ⟨run, (ExtTreeMap.getElem?_insert_of_ne hid).trans hr, rfl, rfl, Nat.le_refl _, rfl⟩

end Runtime.Store

namespace Daemon

variable {P : Type} {toValue : P → Except String Value} {r r' : Registry}

theorem client_quieter {a : Registry.Act P} (ha : a.isClient = true)
    (h : r.step toValue a = some r') : Store.Quieter r.store r'.store := by
  cases a <;> try cases ha
  case acknowledge id through =>
    obtain rfl | ⟨run, hr, rfl⟩ := Registry.acknowledge_cases h
    · exact .refl _
    · exact .replace hr rfl rfl (Nat.le_max_left _ _)
  case attach id after =>
    obtain rfl | ⟨run, hr, rfl⟩ := Registry.attach_cases h
    · exact .refl _
    · exact .replace hr rfl rfl (Nat.le_refl _)
  case dropReceiver id =>
    obtain rfl | ⟨run, hr, rfl⟩ := Registry.dropReceiver_cases h
    · exact .refl _
    · exact .replace hr rfl rfl (Nat.le_refl _)

theorem ByClients.quieter (h : ByClients toValue r r') : Store.Quieter r.store r'.store := by
  obtain ⟨ks, hk, h⟩ := h
  induction ks generalizing r with
  | nil => cases h; exact .refl _
  | cons a ks ih =>
    obtain ⟨m, hm, h⟩ := exec_cons_some.1 h
    exact (client_quieter (hk a List.mem_cons_self) hm).trans
      (ih (fun a' h' => hk a' (List.mem_cons_of_mem _ h')) h)

/-- A connection publishes nothing. -/
theorem moves_quieter {s s' : Shared} {c : Nat} {conn conn' : Conn} {a : Conn.Act}
    (h : Conn.Moves s c conn a s' conn') :
    Store.Quieter s.registry.store s'.registry.store := by
  obtain ⟨k, id, hc⟩ | ⟨request, k, id, spec, -, -, hc⟩ | hc :=
    moves_registry (fun _ : Unit => .ok .null) h
  · obtain ⟨-, he⟩ := Registry.cancelCall_cases hc
    rw [he]
    exact .refl _
  · obtain ⟨-, he⟩ := Registry.startCall_cases hc
    rw [he]
    exact .refl _
  · exact hc.quieter

theorem registry_moved {a : Registry.Act P} (h : r.step toValue a = some r') :
    Store.Moved r.store r'.store := by
  intro id run hr
  obtain ⟨run', hf⟩ := Registry.step_fed h hr
  exact ⟨run', hf.found, hf.moved⟩

end Daemon

/-! ## The attachments of a connection -/

/-- What others do keeps an attachment whose receivers are counted. -/
theorem View.Ok.moved {store store' : Store} {run : LiveRun} {v : View} (h : v.Ok store run)
    (hj : store.Journals) (hj' : store'.Journals) (hm : store.Moved store')
    (hheld : v.held ≤ store'.receivers v.id) : ∃ run', v.Ok store' run' := by
  obtain ⟨run', hr', hstep⟩ := hm v.id run h.found
  rw [Store.receivers_of_run hr'] at hheld
  exact ⟨run', h.other hj hj' hr' hstep hheld⟩

/-- The connection answers an attach, or writes its replay. -/
def Pc.attaches : Pc → Bool
  | .answering _ _ (.replay _ _ _) _ | .replaying _ _ _ _ => true
  | _ => false

namespace Conn

/-- The attachments that a connection has made, each with what it was sent. -/
inductive Shows (conn : Conn) : View → Prop
  | answering {request : ClientFrame} {response : ServerResponse} {id : RunId} {after : Nat}
      {attachment : Attachment} {locked : Bool}
      (pc : conn.pc = .answering request response (.replay id after attachment) locked) :
      Shows conn
        ⟨id, after, .writing attachment.replay (Forwarder.start attachment after), [], none⟩
  | replaying {n : Nat} {id : RunId} {rest : List SequencedEvent} {forwarder : Forwarder}
      {att : Attached} (pc : conn.pc = .replaying n id rest forwarder)
      (attached : conn.attached[n]? = some att) :
      Shows conn ⟨id, att.after, .writing rest forwarder, spokenBy n conn.written, none⟩
  | task {n : Nat} {task : Forward} {att : Attached} (found : conn.forwards[n]? = some task)
      (attached : conn.attached[n]? = some att) :
      Shows conn ⟨task.id, att.after, .forwarding task.forwarder, conn.sent n, none⟩

/-- Each of them can go on without a gap. -/
def Fed (store : Store) (conn : Conn) : Prop :=
  ∀ v, conn.Shows v → ∃ run, v.Ok store run

variable {s s' : Shared} {c : Nat} {conn conn' : Conn}

/-- What an attachment holds, its connection holds. -/
theorem Shows.held {v : View} (h : conn.Shows v) : v.held ≤ conn.held v.id := by
  cases h with
  | answering hpc => simp [View.held, Conn.held, hpc, Pc.held]
  | replaying hpc => simp [View.held, Conn.held, hpc, Pc.held]
  | task hf => exact held_le hf

/-- No attachment is answered or replayed; the tasks and what they were sent are as before. -/
theorem Shows.back (conn : Conn) {v : View} (h : conn'.Shows v) (hpc : conn'.pc.attaches = false)
    (ha : conn'.attached = conn.attached) (hs : ∀ n, conn'.sent n = conn.sent n)
    (hf : ∀ (n : Nat) (task' : Forward), conn'.forwards[n]? = some task' →
      ∃ task, conn.forwards[n]? = some task ∧ task'.id = task.id ∧
        task'.forwarder = task.forwarder) : conn.Shows v := by
  cases h with
  | answering hp => simp [hp, Pc.attaches] at hpc
  | replaying hp => simp [hp, Pc.attaches] at hpc
  | task hfound hatt =>
    obtain ⟨task, ht, hid, hfw⟩ := hf _ _ hfound
    rw [hid, hfw, hs]
    exact .task ht (ha ▸ hatt)

/-- The connection's own code goes on. -/
theorem Shows.goto {pc : Pc} {consumed : List (Option ClientFrame)} {v : View}
    (h : ({ conn with pc, consumed } : Conn).Shows v) (hpc : pc.attaches = false)
    (hh : ∀ n, pc.inHand n = conn.pc.inHand n) : conn.Shows v :=
  Shows.back conn h hpc rfl (fun n => by simp only [sent, hh])
    fun n task hf => ⟨task, hf, rfl, rfl⟩

/-- A response that starts no attachment is written. -/
theorem Shows.respond {request : ClientFrame} {response : ServerResponse} {pc : Pc} {v : View}
    (h : ({ conn with pc, written := conn.written ++ [.response request response] } :
      Conn).Shows v) (hpc : pc.attaches = false) (hh : ∀ n, pc.inHand n = conn.pc.inHand n) :
    conn.Shows v :=
  Shows.back conn h hpc rfl (fun n => by simp [sent, hh, Written.spokenBy, Written.spoken])
    fun n task hf => ⟨task, hf, rfl, rfl⟩

/-- A task is polled, or suspends. -/
theorem Shows.poll {n : Nat} {task : Forward} {polling : Bool}
    (hf : conn.forwards[n]? = some task) {v : View}
    (h : ({ conn with forwards := conn.forwards.insert n { task with polling } } : Conn).Shows v) :
    conn.Shows v := by
  cases h with
  | answering hp => exact .answering hp
  | replaying hp hatt => exact .replaying hp hatt
  | @task m task' att hfound hatt =>
    rcases ExtTreeMap.getElem?_insert_some.1 hfound with ⟨rfl, rfl⟩ | ⟨-, hfound⟩
    · have hshown := Shows.task hf hatt
      exact hshown
    · exact .task hfound hatt

/-- The replay of an attachment that was answered begins. -/
theorem Fed.wrote {store : Store} (h : conn.Fed store) (hst : conn.Streams)
    {request : ClientFrame} {response : ServerResponse} {id : RunId} {after : Nat}
    {attachment : Attachment} {locked : Bool}
    (hpc : conn.pc = .answering request response (.replay id after attachment) locked) :
    ({ conn with
      written := conn.written ++ [.response request response]
      attached := conn.attached ++ [⟨id, after, attachment.replay⟩]
      pc := .replaying conn.attached.length id attachment.replay
        (Forwarder.start attachment after) } : Conn).Fed store := by
  intro v hv
  cases hv with
  | answering hp => cases hp
  | replaying hp hatt =>
    cases hp
    simp only [List.getElem?_append_right (Nat.le_refl _), Nat.sub_self, List.getElem?_cons_zero,
      Option.some.injEq] at hatt
    subst hatt
    have hempty := hst.unstarted conn.attached.length (by simp)
    simp only [sent, hpc, Pc.inHand, List.append_nil, List.append_eq_nil_iff] at hempty
    rw [show spokenBy conn.attached.length
      (conn.written ++ [.response request response]) = [] by
        simp [Written.spokenBy, Written.spoken, hempty.1]]
    exact h _ (.answering hpc)
  | @task n task att hf hatt =>
    obtain ⟨att₀, hatt₀, -⟩ := hst.tasks n task hf
    have hlt := (List.getElem?_eq_some_iff.1 hatt₀).1
    rw [List.getElem?_append_left hlt] at hatt
    have hsent : ({ conn with
        written := conn.written ++ [.response request response]
        attached := conn.attached ++ [⟨id, after, attachment.replay⟩]
        pc := .replaying conn.attached.length id attachment.replay
          (Forwarder.start attachment after) } : Conn).sent n = conn.sent n := by
      simp [sent, hpc, Pc.inHand, Written.spokenBy, Written.spoken]
    rw [hsent]
    exact h _ (.task hf hatt)

/-- The next event of the replay is written. -/
theorem Fed.replay {store : Store} (h : conn.Fed store) (hst : conn.Streams) {n : Nat}
    {id : RunId} {event : SequencedEvent} {rest : List SequencedEvent} {forwarder : Forwarder}
    (hpc : conn.pc = .replaying n id (event :: rest) forwarder) :
    ({ conn with
      written := conn.written ++ [.replayed n event], pc := .replaying n id rest forwarder } :
      Conn).Fed store := by
  intro v hv
  cases hv with
  | answering hp => cases hp
  | replaying hp hatt =>
    cases hp
    obtain ⟨run, hok⟩ := h _ (.replaying hpc hatt)
    refine ⟨run, ?_⟩
    cases hok with
    | writing found held start last feed =>
      have hnext : spokenBy n (conn.written ++ [.replayed n event]) =
          spokenBy n conn.written ++ [event] := by simp [Written.spokenBy, Written.spoken]
      rw [hnext]
      exact .writing found held start (by simpa using last) feed.advance
  | @task m task att hf hatt =>
    have hne : n ≠ m := by
      rintro rfl
      have := hst.pc
      simp only [StreamPc, hpc] at this
      cases this.1.symm.trans hf
    have hsent : ({ conn with
        written := conn.written ++ [.replayed n event], pc := .replaying n id rest forwarder } :
        Conn).sent m = conn.sent m := by
      simp [sent, hpc, Pc.inHand, Written.spokenBy, Written.spoken, hne]
    rw [hsent]
    exact h _ (.task hf hatt)

/-- The forwarder is spawned. -/
theorem Fed.spawn {store : Store} (h : conn.Fed store) (hj : store.Journals)
    (hst : conn.Streams) {n : Nat} {id : RunId} {forwarder : Forwarder}
    {attachments : ExtTreeMap RunId Nat} (hpc : conn.pc = .replaying n id [] forwarder) :
    ({ conn.abort id with
      attachments
      forwards := (conn.abort id).forwards.insert n ⟨id, forwarder, false, false⟩
      pc := .selecting } : Conn).Fed store := by
  have hown := hst.pc
  simp only [StreamPc, hpc] at hown
  obtain ⟨-, hq, -⟩ := hown
  intro v hv
  cases hv with
  | answering hp => cases hp
  | replaying hp => cases hp
  | @task m task att hf hatt =>
    have hsent : ({ conn.abort id with
        attachments
        forwards := (conn.abort id).forwards.insert n ⟨id, forwarder, false, false⟩
        pc := .selecting } : Conn).sent m = conn.sent m := by
      simp [sent, hpc, Pc.inHand]
    rw [hsent]
    simp only [abort_attached] at hatt
    rcases ExtTreeMap.getElem?_insert_some.1 hf with ⟨rfl, rfl⟩ | ⟨-, hf⟩
    · obtain ⟨run, hok⟩ := h _ (.replaying hpc hatt)
      refine ⟨run, ?_⟩
      have hown : conn.sent n = spokenBy n conn.written := by simp [sent, hpc, Pc.inHand, hq]
      rw [hown]
      cases hok with
      | writing found held start last feed =>
        refine .forwarding ⟨hj, found, by simpa [Forwarder.held, start] using held, ?_, ?_, ?_⟩
          (fun hn => absurd rfl hn)
        · simpa using feed.sound
        · simpa using last
        · simp only [Forwarder.Ok, start]
          exact ⟨_, by simpa using feed⟩
    · obtain ⟨task₀, hf₀, hid, hfw⟩ := abort_forwards hf
      rw [hid, hfw]
      exact h _ (.task hf₀ hatt)

/-- What others do keeps the attachments. -/
theorem Fed.moved {store store' : Store} (h : conn.Fed store) (hj : store.Journals)
    (hj' : store'.Journals) (hm : store.Moved store')
    (hheld : ∀ id, conn.held id ≤ store'.receivers id) : conn.Fed store' := by
  intro v hv
  obtain ⟨run, hok⟩ := h v hv
  exact hok.moved hj hj' hm (hv.held.trans (hheld v.id))

/-- A task moves: the attachments but its own are as before. -/
theorem Shows.moved {n : Nat} {task : Forward} {f : Forwarder} {handed : List SequencedEvent}
    {v : View}
    (h : ({ conn with
      forwards := conn.forwards.insert n { task with forwarder := f }
      outbound := conn.outbound ++ handed.map (n, ·) } : Conn).Shows v) :
    conn.Shows v ∨ ∃ att, conn.attached[n]? = some att ∧
      v = ⟨task.id, att.after, .forwarding f, conn.sent n ++ handed, none⟩ := by
  have hqueued : ∀ m, queuedBy m (conn.outbound ++ handed.map (n, ·)) =
      queuedBy m conn.outbound ++ if n = m then handed else [] := fun m => by
    rw [queuedBy, List.filterMap_append, List.filterMap_map, queuedBy]
    congr 1
    by_cases hne : n = m <;> simp [hne]
  cases h with
  | answering hp => exact .inl (.answering hp)
  | replaying hp hatt => exact .inl (.replaying hp hatt)
  | @task m task' att hfound hatt =>
    rcases ExtTreeMap.getElem?_insert_some.1 hfound with ⟨rfl, rfl⟩ | ⟨hne, hfound⟩
    · refine .inr ⟨att, hatt, ?_⟩
      simp only [sent, hqueued, if_true, List.append_assoc]
    · refine .inl ?_
      have hsent : ({ conn with
          forwards := conn.forwards.insert n { task with forwarder := f }
          outbound := conn.outbound ++ handed.map (n, ·) } : Conn).sent m = conn.sent m := by
        simp only [sent, hqueued, if_neg hne, List.append_nil]
      rw [hsent]
      exact .task hfound hatt

/-- A connection that goes on was going on. -/
theorem isOpen_of_moves {a : Act} (h : conn'.isOpen = true) (hm : Moves s c conn a s' conn') :
    conn.isOpen = true := by
  cases hm with
  | undecodable hpc => rcases hpc with hpc | hpc <;> simp [isOpen, hpc]
  | unreadable hpc => rcases hpc with hpc | hpc <;> simp [isOpen, hpc]
  | wake => exact h
  | forward => exact h
  | suspend => exact h
  | reap => exact h
  | _ => simp [isOpen, *]

/-- **Step lemma**: the attachments of a connection that goes on. -/
theorem Fed.moves {a : Act} (h : conn.Fed s.registry.store) (hst : conn.Streams)
    (hj : s.registry.store.Journals) (hj' : s'.registry.store.Journals)
    (hheld : ∀ id, conn'.held id ≤ s'.registry.store.receivers id)
    (hopen : conn'.isOpen = true) (hm : Moves s c conn a s' conn') :
    conn'.Fed s'.registry.store := by
  have hmoved := (Daemon.moves_quieter hm).moved
  -- An attachment that the step leaves alone.
  have hkeep : ∀ v, conn'.Shows v → conn.Shows v → ∃ run, v.Ok s'.registry.store run :=
    fun v hv' hv => by
      obtain ⟨run, hok⟩ := h v hv
      exact hok.moved hj hj' hmoved (hv'.held.trans (hheld v.id))
  cases hm with
  | first frame hpc =>
    obtain ⟨response, next, hg, -, hnext⟩ := greet_cases frame
    have hgreet : (greet frame).attaches = false ∧ ∀ n, (greet frame).inHand n = [] := by
      rw [hg]
      rcases hnext with ⟨rfl, -⟩ | ⟨rfl, -⟩ <;> exact ⟨rfl, fun _ => rfl⟩
    exact fun v hv => hkeep v hv (hv.goto hgreet.1 fun n => by rw [hgreet.2, hpc]; rfl)
  | request frame hpc => exact fun v hv => hkeep v hv (hv.goto rfl fun n => by rw [hpc]; rfl)
  | hangUp hpc => cases hopen
  | close hpc => cases hopen
  | undecodable hpc => cases hopen
  | unreadable hpc => cases hopen
  | relay n event rest hpc hq =>
    refine fun v hv => hkeep v hv (hv.back conn rfl rfl (fun m => ?_)
      fun m task hf => ⟨task, hf, rfl, rfl⟩)
    by_cases hne : n = m <;> simp [sent, hpc, Pc.inHand, hq, queuedBy, hne]
  | attach request id after attachment store hpc hmsg hlock hok =>
    intro v hv
    cases hv with
    | answering hp => cases hp; exact View.Ok.attach hj hok
    | replaying hp => cases hp
    | @task n task att hf hatt =>
      refine hkeep _ (.task hf hatt) ?_
      have hsent : ({ conn with
          pc := .answering request (.run attachment.snapshot) (.replay id after attachment)
            false } : Conn).sent n = conn.sent n := by simp [sent, hpc, Pc.inHand]
      rw [hsent]
      exact .task hf hatt
  | detach request id hpc =>
    refine fun v hv => hkeep v hv (hv.back conn rfl (by simp [Conn.answer]) (fun n => ?_)
      fun n task hf => ?_)
    · simp [sent, Conn.answer, hpc, Pc.inHand]
    · exact abort_forwards hf
  | wrote request response next locked hpc =>
    rw [Daemon.proceed_registry] at hkeep ⊢
    cases next with
    | replay id after attachment => exact h.wrote hst hpc
    | loop => exact fun v hv => hkeep v hv (hv.respond rfl fun n => by rw [hpc]; rfl)
    | setShutdown => exact fun v hv => hkeep v hv (hv.respond rfl fun n => by rw [hpc]; rfl)
    | exit => cases hopen
    | drain mode => cases hopen
  | unanswered request response next locked store hpc => cases hopen
  | relayed n event hpc =>
    refine fun v hv => hkeep v hv (hv.back conn rfl rfl (fun m => ?_)
      fun m task hf => ⟨task, hf, rfl, rfl⟩)
    by_cases hne : n = m <;>
      simp [sent, hpc, Pc.inHand, Written.spokenBy, Written.spoken, hne]
  | unrelayed n event hpc => cases hopen
  | replayed n id event rest forwarder hpc => exact h.replay hst hpc
  | unreplayed n id event rest forwarder hpc => cases hopen
  | spawn n id forwarder hpc => exact h.spawn hj hst hpc
  | setShutdown hpc => cases hopen
  | wake n task hf => exact fun v hv => hkeep v hv (hv.poll hf)
  | suspend n task hf => exact fun v hv => hkeep v hv (hv.poll hf)
  | forward n task stepped hf hpoll hlock hok =>
    have ho : conn.isOpen = true := hopen
    simp only [ho, if_true] at hkeep hok ⊢
    rw [show (stepped.handed.map (n, ·)).toList = stepped.handed.toList.map (n, ·) by
      cases stepped.handed <;> rfl] at hkeep ⊢
    intro v hv
    rcases hv.moved with hv' | ⟨att, hatt, rfl⟩
    · exact hkeep v hv hv'
    · obtain ⟨run, hview⟩ := h _ (.task hf hatt)
      obtain ⟨-, run', hview'⟩ := hview.forward (t := .unix) rfl hok
      refine ⟨run', ?_⟩
      have hacc : (forwardAct task.forwarder true).accepts = true := by
        unfold forwardAct
        split <;> rfl
      simpa [View.record, hacc, Shared.withStore] using hview'
  | reap n task hf =>
    intro v hv
    have hv₁ : ({ conn with
        forwards := conn.forwards.insert n { task with
          forwarder := (Forwarder.close s.registry.store task.id task.forwarder).forwarder }
        outbound := conn.outbound ++ List.map (n, ·) [] } : Conn).Shows v := by simpa using hv
    rcases hv₁.moved with hv' | ⟨att, hatt, rfl⟩
    · exact hkeep v hv hv'
    · obtain ⟨run, hview⟩ := h _ (.task hf hatt)
      cases hview with
      | forwarding attached ended =>
        obtain ⟨run', hclosed⟩ := attached.close
        refine ⟨run', .forwarding ?_ (fun hn => absurd rfl hn)⟩
        simpa [Shared.withStore] using hclosed
  | _ => exact fun v hv => hkeep v hv (hv.goto rfl fun n => by simp [*, Pc.inHand])

end Conn

namespace Daemon

variable {P : Type} {toValue : P → Except String Value} {d d' : Daemon}

/-- Every attachment of every connection that goes on. -/
def Fed (d : Daemon) : Prop :=
  ∀ (c : Nat) (conn : Conn), d.conns[c]? = some conn → conn.isOpen = true →
    conn.Fed d.shared.registry.store

/-- What goes on beside the connections. -/
theorem Fed.beside (h : d.Fed) {shared : Shared} (hj : d.shared.registry.store.Journals)
    (hj' : shared.registry.store.Journals)
    (hm : d.shared.registry.store.Moved shared.registry.store)
    (ha : ({ d with shared } : Daemon).Accounted) : ({ d with shared } : Daemon).Fed :=
  fun c conn hc hopen => (h c conn hc hopen).moved hj hj' hm (ha.conn_le hc)

theorem Fed.step {a : Act P} (h : d.Fed) (hs : d.step toValue a = some d')
    (hst : ∀ (c : Nat) (conn : Conn), d.conns[c]? = some conn → conn.Streams)
    (hj : d.shared.registry.store.Journals) (hj' : d'.shared.registry.store.Journals)
    (ha : d'.Accounted) : d'.Fed := by
  cases a with
  | accept c =>
    obtain ⟨-, rfl⟩ := accept_cases hs
    intro c' conn hc' hopen
    rcases ExtTreeMap.getElem?_insert_some.1 hc' with ⟨-, rfl⟩ | ⟨-, hc'⟩
    · intro v hv
      cases hv with
      | answering hp => cases hp
      | replaying hp => cases hp
      | task hf => simp [Conn.init] at hf
    · exact h c' conn hc' hopen
  | conn c a =>
    obtain ⟨conn, shared, conn', hc, hstep, rfl⟩ := conn_cases hs
    have hm := Conn.step_moves hstep
    intro c' conn₁ hc' hopen
    have hle := ha.conn_le hc'
    rcases ExtTreeMap.getElem?_insert_some.1 hc' with ⟨-, rfl⟩ | ⟨-, hc'⟩
    · exact (h c conn hc (Conn.isOpen_of_moves hopen hm)).moves (hst c conn hc) hj hj' hle hopen hm
    · exact (h c' conn₁ hc' hopen).moved hj hj' (moves_quieter hm).moved hle
  | registry a =>
    obtain ⟨-, registry, hstep, rfl⟩ := registry_cases hs
    exact h.beside hj hj' (registry_moved hstep) ha
  | drain c =>
    obtain ⟨registry, -, hr, rfl⟩ | ⟨-, -, rfl⟩ | ⟨-, rfl⟩ := drain_cases hs
    · have hstep : d.shared.registry.step toValue .cancelAll = some registry := hr
      exact h.beside hj hj' (registry_moved hstep) ha
    · exact h
    · exact h
  | stop result => obtain ⟨-, rfl⟩ := stop_cases hs; exact h

theorem fed_exec {acts : List (Act P)}
    (ho : Along (step toValue) (fun d a => d.owned a = true) init acts)
    (h : exec (step toValue) init acts = some d) : d.Fed := by
  refine (exec_inv_reachable (I := fun d => d.Accounted ∧ d.Fed)
    (fun ls d a d' hls hi ho hs => ?_)
    ⟨accounted_init, fun c conn hc => by simp [init] at hc⟩ ho h).2
  have hls' : exec (step toValue) init (ls ++ [a]) = some d' :=
    exec_append_some.2 ⟨d, hls, exec_single.2 hs⟩
  have ha := hi.1.step ho hs
  exact ⟨ha, hi.2.step hs (fun c conn hc => streams_exec hls hc) (store_exec hls).1
    (store_exec hls').1 ha⟩

end Daemon

/-- What has become of the events that attachment `n` of the run is to be sent, when `serve` has
returned: each was written, is in the connection's hand or in its queue, or is ahead of the
forwarder, in order and unless it was acknowledged; and if the forwarder has nothing left to
receive, none is ahead of it. -/
structure Conn.OnItsWay (store : Store) (conn : Conn) (n : Nat) (task : Forward) : Prop where
  ordered : ∀ att, conn.attached[n]? = some att →
    att.id = task.id ∧ Ahead att.id att.after (conn.sent n)
  sent : ∀ att run, conn.attached[n]? = some att → store.runs[task.id]? = some run →
    ∀ e ∈ store.published task.id, att.after < e.sequence →
      run.snapshot.acknowledgedSequence < e.sequence →
      e ∈ spokenBy n conn.written ∨ e ∈ conn.pc.inHand n ∨ e ∈ queuedBy n conn.outbound ∨
        task.forwarder.lastSequence < e.sequence
  drained : ∀ att run, conn.attached[n]? = some att → store.runs[task.id]? = some run →
    task.forwarder.phase = .receiving → (take run.events task.forwarder.events).1 = none →
    ∀ e ∈ store.published task.id, att.after < e.sequence →
      run.snapshot.acknowledgedSequence < e.sequence →
      e ∈ spokenBy n conn.written ∨ e ∈ conn.pc.inHand n ∨ e ∈ queuedBy n conn.outbound

namespace Conn

variable {conn : Conn} {store : Store} {n : Nat} {task : Forward}

theorem mem_sent {e : SequencedEvent} (h : e ∈ conn.sent n) :
    e ∈ spokenBy n conn.written ∨ e ∈ conn.pc.inHand n ∨ e ∈ queuedBy n conn.outbound := by
  simpa only [Conn.sent, List.mem_append, or_assoc] using h

theorem Fed.onItsWay (h : conn.Fed store) (hst : conn.Streams) (hj : store.Journals)
    (hf : conn.forwards[n]? = some task) : conn.OnItsWay store n task := by
  have hview : ∀ att run, conn.attached[n]? = some att → store.runs[task.id]? = some run →
      View.Ok store run ⟨task.id, att.after, .forwarding task.forwarder, conn.sent n, none⟩ :=
    fun att run hatt hr => by
      obtain ⟨run', hok⟩ := h _ (.task hf hatt)
      cases hr.symm.trans hok.found
      exact hok
  refine ⟨fun att hatt => ?_, fun att run hatt hr e he hlt hacked => ?_,
    fun att run hatt hr hp htake e he hlt hacked => ?_⟩
  · obtain ⟨att', hatt', hid, -, hs⟩ := hst.tasks n task hf
    cases hatt.symm.trans hatt'
    exact ⟨hid.symm, hs.ahead⟩
  · by_cases hle : e.sequence ≤ task.forwarder.lastSequence
    · rcases (hview att run hatt hr).covered_last rfl he hlt hle with hm | hk | hk
      · exact (mem_sent hm).imp_right (Or.imp_right .inl)
      · omega
      · cases hk
    · exact .inr (.inr (.inr (by omega)))
  · have hd : View.Drained run
        ⟨task.id, att.after, .forwarding task.forwarder, conn.sent n, none⟩ :=
      ⟨task.forwarder, rfl, hp, htake⟩
    rcases (hview att run hatt hr).covered_drained hj hd he hlt with hm | hk
    · exact mem_sent hm
    · omega

end Conn

namespace Daemon

variable {P : Type} {toValue : P → Except String Value}

end Daemon

end AgencyProxy
