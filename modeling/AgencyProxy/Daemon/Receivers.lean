import AgencyProxy.Daemon.Streams

/-!
# Whose receivers

A channel counts its receivers and nothing else, and a send that finds none is lost. So that
an attachment is sent everything, the count has to cover the receivers that attachments
hold: `Accounted`. Connections keep to it, and `owned` says that the other callers do, which
can drop only receivers of their own.
-/

namespace AgencyProxy

open AgencyProxy.Runtime AgencyProxy.Broadcast Std Lts

namespace Runtime

namespace Store

/-- The number of receivers of the run's channel. -/
def receivers (s : Store) (id : RunId) : Nat :=
  (s.runs[id]?.map fun run => run.events.receivers).getD 0

variable {s s' : Store} {id id' : RunId} {run run' : LiveRun}

theorem receivers_of_run (h : s.runs[id]? = some run) : s.receivers id = run.events.receivers := by
  simp [receivers, h]

theorem receivers_insert :
    ({ s with runs := s.runs.insert id run } : Store).receivers id' =
      if id = id' then run.events.receivers else s.receivers id' := by
  by_cases hid : id = id'
  · subst hid
    simp [receivers]
  · simp [receivers, ExtTreeMap.getElem?_insert_of_ne hid, hid]

theorem receivers_dropReceiver :
    (s.dropReceiver id).receivers id' =
      if id = id' then s.receivers id' - 1 else s.receivers id' := by
  cases hr : s.runs[id]? with
  | none =>
    simp only [dropReceiver, modify, hr]
    split
    · rename_i hid
      subst hid
      simp [receivers, hr]
    · rfl
  | some run =>
    simp only [dropReceiver, modify, hr]
    rw [receivers_insert]
    split
    · rename_i hid
      subst hid
      rw [receivers_of_run hr]
      rfl
    · rfl

theorem receivers_attach {after : Nat} {attachment : Attachment}
    (h : s.attach id after = .ok (attachment, s')) :
    s'.receivers id' = if id = id' then s.receivers id' + 1 else s.receivers id' := by
  obtain ⟨run, run', hr, ha, rfl⟩ := attach_ok h
  obtain ⟨-, -, rfl⟩ := LiveRun.attach_ok ha
  rw [receivers_insert]
  split
  · rename_i hid
    subst hid
    rw [receivers_of_run hr]
    rfl
  · rfl

theorem receivers_acknowledge {through : Nat} (h : s.acknowledge id through = .ok s') :
    s'.receivers id' = s.receivers id' := by
  unfold acknowledge at h
  split at h
  · rename_i run hr
    cases h
    rw [receivers_insert]
    split
    · rename_i hid
      subst hid
      rw [receivers_of_run hr]
      rfl
    · rfl
  · cases h

/-- A run's channel and log move at most by one event, and lose a receiver only by a drop. -/
structure Fed (s s' : Store) (id : RunId) (run run' : LiveRun) (drops : Bool) : Prop where
  found : s'.runs[id]? = some run'
  moved : RunStep run (s.published id) run' (s'.published id)
  receivers : drops = false → run.events.receivers ≤ run'.events.receivers

theorem Fed.same (he : s' = s) (hr : s.runs[id]? = some run) (drops : Bool) :
    Fed s s' id run run drops :=
  ⟨he ▸ hr, by rw [he]; exact .rfl', fun _ => Nat.le_refl _⟩

/-- One run was replaced, with its channel and its acknowledgements as they were. -/
theorem Fed.replace (run₁ : LiveRun) {run₀ : LiveRun} (hr₀ : s.runs[id']? = some run₀)
    (hev : run₁.events = run₀.events) (hs : run₁.snapshot = run₀.snapshot)
    (he : s' = { s with runs := s.runs.insert id' run₁ })
    (hr : s.runs[id]? = some run) (drops : Bool) : ∃ run', Fed s s' id run run' drops := by
  by_cases hid : id' = id
  · subst hid
    cases hr₀.symm.trans hr
    refine ⟨run₁, by rw [he]; exact ExtTreeMap.getElem?_insert_self, ?_, fun _ => by rw [hev]⟩
    rw [he]
    exact .quiet (by rw [hev]) (by rw [hev]) (by rw [hs])
  · refine ⟨run, ?_, by rw [he]; exact .rfl', fun _ => Nat.le_refl _⟩
    rw [he]
    exact (ExtTreeMap.getElem?_insert_of_ne hid).trans hr

theorem Fed.apply (op : Op) (he : s' = s.apply op) (hr : s.runs[id]? = some run) {drops : Bool}
    (hd : op = .dropReceiver id → drops = true) : ∃ run', Fed s s' id run run' drops := by
  obtain ⟨run', hr', hstep, hrec⟩ := AgencyProxy.Store.apply_run hr op
  refine ⟨run', he ▸ hr', he ▸ hstep, fun hf => ?_⟩
  rcases hrec with hle | ⟨ho, -⟩
  · exact hle
  · cases (hd ho).symm.trans hf

end Store

namespace Registry

variable {P : Type} {toValue : P → Except String Value} {r r' : Registry} {id : RunId}
  {run : LiveRun}

/-- The act drops a receiver of the run's channel. -/
def Act.drops (id : RunId) : Act P → Bool
  | .dropReceiver id' => id' = id
  | _ => false

theorem step_fed {a : Act P} (h : r.step toValue a = some r')
    (hr : r.store.runs[id]? = some run) :
    ∃ run', Store.Fed r.store r'.store id run run' (a.drops id) := by
  cases a with
  | startInsert k =>
    obtain ⟨id', spec, -, -, ⟨-, rfl⟩ | ⟨hn, rfl⟩⟩ := startInsert_cases h
    · exact ⟨run, .same rfl hr _⟩
    · have hne : id' ≠ id := by rintro rfl; cases hn.symm.trans hr
      exact ⟨run, (ExtTreeMap.getElem?_insert_of_ne hne).trans hr, .rfl', fun _ => Nat.le_refl _⟩
  | publish id =>
    obtain ⟨p, last, -, -, ⟨-, rfl⟩ | ⟨run₀, -, ⟨-, rfl⟩ | ⟨-, rfl⟩⟩⟩ := publish_cases h
    · exact ⟨run, .same rfl hr _⟩
    all_goals exact Store.Fed.apply (.publish id p.event p.state p.session) rfl hr (by simp)
  | complete id =>
    obtain ⟨last, -, rfl⟩ := complete_cases h
    cases hr₀ : r.store.runs[id]? with
    | none => exact ⟨run, .same (by simp only [Store.modify, hr₀]) hr _⟩
    | some run₀ =>
      exact Store.Fed.replace { run₀ with completed := true } hr₀ rfl rfl
        (by simp only [Store.modify, hr₀]) hr _
  | cancelTake k =>
    obtain ⟨id, -, -, ⟨e, -, rfl⟩ | ⟨run₀, hr₀, -, rfl⟩⟩ := cancelTake_cases h
    · exact ⟨run, .same rfl hr _⟩
    · exact Store.Fed.replace { run₀ with cancel := none } hr₀ rfl rfl rfl hr _
  | cancelAll =>
    obtain ⟨-, rfl⟩ := cancelAll_cases h
    have hsweep : (sweep run).events = run.events ∧ (sweep run).snapshot = run.snapshot := by
      unfold sweep
      split <;> exact ⟨rfl, rfl⟩
    refine ⟨sweep run, by rw [ExtTreeMap.getElem?_map, hr]; rfl, .quiet ?_ ?_ ?_, fun _ => ?_⟩
    · rw [hsweep.1]
    · rw [hsweep.1]
    · rw [hsweep.2]
    · rw [hsweep.1]
  | acknowledge id through =>
    simp only [step, acknowledge] at h
    split at h
    · split at h
      · rename_i store ha
        cases h
        exact Store.Fed.apply (.acknowledge id through) (by simp only [Store.apply, ha]) hr
          (by simp)
      · cases h; exact ⟨run, .same rfl hr _⟩
    · cases h
  | attach id after =>
    simp only [step, attach] at h
    split at h
    · split at h
      · rename_i attachment store ha
        cases h
        exact Store.Fed.apply (.attach id after) (by simp only [Store.apply, ha]) hr (by simp)
      · cases h; exact ⟨run, .same rfl hr _⟩
    · cases h
  | dropReceiver id' =>
    cases h
    exact Store.Fed.apply (.dropReceiver id') rfl hr (by simp [Act.drops])
  | _ => exact ⟨run, .same ((step_frame h).store rfl) hr _⟩

/-- A new run's channel has no receiver, and no step takes one away but a drop. -/
theorem step_receivers {a : Act P} (h : r.step toValue a = some r') (hd : a.drops id = false) :
    r.store.receivers id ≤ r'.store.receivers id := by
  cases hr : r.store.runs[id]? with
  | none => simp [Store.receivers, hr]
  | some run =>
    obtain ⟨run', hf⟩ := step_fed h hr
    rw [Store.receivers_of_run hr, Store.receivers_of_run hf.found]
    exact hf.receivers hd

end Registry

end Runtime

/-! ## What a forwarder holds -/

namespace Forwarder

variable {store : Store} {id : RunId} {f : Forwarder} {st : Stepped}

/-- The step changes the count of a channel by as much as what the task holds of it, or leaves
more. -/
def Balanced (store : Store) (id : RunId) (f : Forwarder) (st : Stepped) : Prop :=
  ∀ id', store.receivers id' + (if id = id' then st.forwarder.held else 0) ≤
    st.store.receivers id' + if id = id' then f.held else 0

theorem Balanced.same {handed : Option SequencedEvent} {f' : Forwarder}
    (h : f'.held = f.held) : Balanced store id f ⟨store, f', handed⟩ := fun id' => by
  simp only [h]
  exact Nat.le_refl _

theorem close_balanced (hf : f.held ≤ store.receivers id) :
    Balanced store id f (close store id f) := by
  intro id'
  cases hp : f.phase with
  | replaying rest events =>
    simp only [held, hp] at hf
    simp only [close, held, hp, Store.receivers_dropReceiver]
    split
    · rename_i hid; subst hid; omega
    · omega
  | ended =>
    simp only [close, hp]
    exact Nat.le_refl _
  | _ =>
    simp only [held, hp] at hf
    simp only [close, held, hp, Store.receivers_dropReceiver]
    split
    · rename_i hid; subst hid; omega
    · omega

/-- A task that has taken an event may close after it. -/
theorem emit_balanced {f' : Forwarder} {event : SequencedEvent} {accepts : Bool}
    (hf : f.held ≤ store.receivers id) (hp : f'.held = f.held) :
    Balanced store id f (emit store id f' event accepts) := by
  have hheld : ({ f' with lastSequence := event.sequence } : Forwarder).held = f.held := hp
  cases accepts with
  | true => exact .same hheld
  | false =>
    intro id'
    have hc : Balanced store id { f' with lastSequence := event.sequence }
        (close store id { f' with lastSequence := event.sequence }) :=
      close_balanced (by rw [hheld]; exact hf)
    have hc := hc id'
    rw [hheld] at hc
    exact hc

theorem recv_balanced {accepts : Bool} (hf : f.held ≤ store.receivers id)
    (hp : f.phase = .receiving) (h : recv store id f accepts = some st) :
    Balanced store id f st := by
  have hheld : f.held = 1 := by simp only [held, hp]
  unfold recv at h
  split at h
  · cases h
  · split at h
    · cases h; exact .same rfl
    · split at h
      · cases h; exact .same rfl
      · cases h; exact emit_balanced hf rfl
    · cases h; exact .same hheld.symm
    · rename_i events _
      cases h
      intro id'
      exact close_balanced (f := { f with events }) hf id'

theorem reattach_balanced (hf : f.held ≤ store.receivers id) (hp : f.phase = .lagged) :
    Balanced store id f (reattach store id f) := by
  unfold reattach
  split
  · rename_i attachment store' ha
    intro id'
    rw [Store.receivers_attach ha]
    simp only [held, hp]
    split <;> omega
  · exact close_balanced hf

theorem unixForward_balanced {act : Act} (hf : f.held ≤ store.receivers id)
    (h : unixForward store id f act = some st) : Balanced store id f st := by
  cases act with
  | recv accepts =>
    simp only [unixForward] at h
    split at h
    · rename_i hp; exact recv_balanced hf hp h
    · cases h
  | reattach =>
    simp only [unixForward] at h
    split at h
    · rename_i hp; cases h; exact reattach_balanced hf hp
    · cases h
  | replay accepts =>
    simp only [unixForward] at h
    split at h
    · rename_i event rest events hp
      cases h
      exact emit_balanced hf (by simp only [held, hp])
    · rename_i events hp
      cases h
      intro id'
      simp only [held, hp] at hf
      simp only [resume, held, hp, Store.receivers_dropReceiver]
      split
      · rename_i hid; subst hid; omega
      · omega
    · cases h

end Forwarder

/-! ## What a connection holds -/

/-- The receivers of the run's channel that belong to an attachment without a forwarder yet. -/
def Pc.held (id : RunId) : Pc → Nat
  | .answering _ _ (.replay r _ _) _ => if r = id then 1 else 0
  | .replaying _ r _ _ => if r = id then 1 else 0
  | _ => 0

def Forward.held (id : RunId) (task : Forward) : Nat :=
  if task.id = id then task.forwarder.held else 0

namespace Conn

/-- The receivers of the run's channel that the connection and its tasks hold. -/
def held (conn : Conn) (id : RunId) : Nat := conn.pc.held id + conn.forwards.sum (Forward.held id)

/-- A forwarder that is to be spawned is at its first `recv`. -/
def Primed (conn : Conn) : Prop :=
  ∀ n id rest forwarder, conn.pc = .replaying n id rest forwarder → forwarder.phase = .receiving

variable {s s' : Shared} {c : Nat} {conn conn' : Conn}

theorem primed_init : Primed .init := by simp [Primed, init]

theorem Primed.moves {a : Act} (h : conn.Primed) (hm : Moves s c conn a s' conn') :
    conn'.Primed := by
  cases hm with
  | first frame hpc =>
    obtain ⟨response, next, hg, -, -⟩ := greet_cases frame
    simp [Primed, hg]
  | wrote request response next locked hpc =>
    cases next with
    | replay id after attachment =>
      intro n r rest forwarder hp
      cases hp
      rfl
    | _ => simp [Primed, proceed]
  | replayed n id event rest forwarder hpc =>
    intro m r rest' forwarder' hp
    cases hp
    exact h n id _ forwarder hpc
  | wake n task => exact h
  | forward n task stepped => exact h
  | suspend n task => exact h
  | reap n task => exact h
  | _ => simp [Primed, answer]

/-- An abort drops no receiver. -/
theorem abort_sum (conn : Conn) (id r : RunId) :
    (conn.abort r).forwards.sum (Forward.held id) = conn.forwards.sum (Forward.held id) := by
  unfold abort
  split
  · refine ExtTreeMap.sum_congr fun k => ?_
    rw [ExtTreeMap.getElem?_modify]
    split
    · rename_i he
      rw [LawfulEqOrd.eq_of_compare he, Option.map_map]
      rfl
    · rfl
  · rfl

theorem abortAll_sum (conn : Conn) (id : RunId) :
    conn.abortAll.forwards.sum (Forward.held id) = conn.forwards.sum (Forward.held id) := by
  refine ExtTreeMap.sum_congr fun k => ?_
  simp only [abortAll, ExtTreeMap.getElem?_map, Option.map_map]
  refine Option.map_congr fun task _ => ?_
  simp only [Function.comp]
  split <;> rfl

/-- The connection's own code goes on, with what it held. -/
theorem held_goto {pc : Pc} {consumed : List (Option ClientFrame)} {written : List Written}
    {attached : List Attached} {outbound : List (Nat × SequencedEvent)} {id : RunId}
    (h : pc.held id = conn.pc.held id) :
    ({ conn with pc, consumed, written, attached, outbound } : Conn).held id = conn.held id := by
  simp only [held, h]

/-- A task moves. -/
theorem held_task {n : Nat} {task : Forward} (task' : Forward)
    (outbound : List (Nat × SequencedEvent)) (id : RunId)
    (hf : conn.forwards[n]? = some task) :
    ({ conn with forwards := conn.forwards.insert n task', outbound } : Conn).held id +
      task.held id = conn.held id + task'.held id := by
  have := ExtTreeMap.sum_insert_old (f := Forward.held id) (v := task') hf
  simp only [held]
  omega

theorem held_le {n : Nat} {task : Forward} (hf : conn.forwards[n]? = some task) :
    task.forwarder.held ≤ conn.held task.id := by
  have := ExtTreeMap.le_sum (f := Forward.held task.id) hf
  simp only [Forward.held, if_true] at this
  exact this.trans (Nat.le_add_left _ _)

/-- **What a connection lets go of, the channels lose, and no more.** -/
theorem moves_held {a : Act} (hp : conn.Primed)
    (hle : ∀ id, conn.held id ≤ s.registry.store.receivers id)
    (hm : Moves s c conn a s' conn') (id : RunId) :
    s.registry.store.receivers id + conn'.held id ≤
      s'.registry.store.receivers id + conn.held id := by
  cases hm with
  | first frame hpc =>
    obtain ⟨response, next, hg, -, hnext⟩ := greet_cases frame
    rw [held_goto (by rcases hnext with ⟨rfl, -⟩ | ⟨rfl, -⟩ <;> simp [hg, hpc, Pc.held])]
  | close hpc =>
    have : conn.abortAll.forwards.sum (Forward.held id) = conn.forwards.sum (Forward.held id) :=
      abortAll_sum conn id
    simp only [held, hpc, Pc.held, this]
    exact Nat.le_refl _
  | undecodable hpc =>
    rw [held_goto (by rcases hpc with hpc | hpc <;> simp [hpc, Pc.held])]
  | unreadable hpc =>
    have hheld : ({ conn with pc := .returned .unreadable } : Conn).held id = conn.held id :=
      held_goto (by rcases hpc with hpc | hpc <;> simp [hpc, Pc.held])
    exact Nat.add_le_add_left hheld.le _
  | acknowledge request r through store hpc hmsg hlock hok =>
    rw [show (s.withStore store).registry.store = store from rfl, Store.receivers_acknowledge hok]
    exact Nat.add_le_add_left (held_goto (by simp [hpc, Pc.held])).le _
  | attach request r after attachment store hpc hmsg hlock hok =>
    rw [show (s.withStore store).registry.store = store from rfl, Store.receivers_attach hok]
    simp only [held, hpc, Pc.held]
    split <;> omega
  | detach request r hpc =>
    simp only [held, answer, hpc, Pc.held, abort_sum]
    exact Nat.le_refl _
  | cancel request r key k registry hpc hmsg hcall =>
    obtain ⟨-, rfl⟩ := Registry.cancelCall_cases hcall
    exact Nat.add_le_add_left (held_goto (by simp [hpc, Pc.held])).le _
  | launch k request r spec key registry hpc hmsg hstop hcall =>
    obtain ⟨-, rfl⟩ := Registry.startCall_cases hcall
    exact Nat.add_le_add_left (held_goto (by simp [hpc, Pc.held])).le _
  | wrote request response next locked hpc =>
    rw [Daemon.proceed_registry]
    cases next with
    | replay r after attachment =>
      exact Nat.add_le_add_left (held_goto (by simp [hpc, Pc.held])).le _
    | _ => exact Nat.add_le_add_left (held_goto (by simp [hpc, Pc.held])).le _
  | unanswered request response next locked store hpc hd =>
    have hheld := hle id
    simp only [Shared.withStore, Daemon.release_registry, held, hpc, Pc.held] at hheld ⊢
    rcases hd with rfl | ⟨r, after, attachment, rfl, rfl⟩
    · omega
    · rw [Store.receivers_dropReceiver]
      dsimp only at hheld ⊢
      split
      · rename_i hid
        rw [if_pos hid] at hheld
        omega
      · omega
  | unreplayed n r event rest forwarder hpc =>
    have hheld := hle id
    simp only [Shared.withStore, held, hpc, Pc.held, Store.receivers_dropReceiver] at hheld ⊢
    split
    · rename_i hid
      rw [if_pos hid] at hheld
      omega
    · omega
  | spawn n r forwarder hpc =>
    have hsum := ExtTreeMap.sum_insert_le (m := (conn.abort r).forwards) (k := n)
      (v := ⟨r, forwarder, false, false⟩) (f := Forward.held id)
    rw [abort_sum] at hsum
    have hone : forwarder.held = 1 := by simp only [Forwarder.held, hp n r [] forwarder hpc]
    simp only [Forward.held, hone] at hsum
    simp only [held, hpc, Pc.held]
    omega
  | wake n task hf =>
    have := held_task { task with polling := true } conn.outbound id hf
    simp only [Forward.held] at this
    omega
  | suspend n task hf =>
    have := held_task { task with polling := false } conn.outbound id hf
    simp only [Forward.held] at this
    omega
  | forward n task stepped hf hpoll hlock hok =>
    have hb := Forwarder.unixForward_balanced ((held_le hf).trans (hle task.id)) hok id
    have := held_task { task with forwarder := stepped.forwarder }
      (if conn.isOpen then conn.outbound ++ (stepped.handed.map (n, ·)).toList
        else conn.outbound) id hf
    simp only [Forward.held] at this
    simp only [Shared.withStore]
    omega
  | reap n task hf =>
    have hb := Forwarder.close_balanced ((held_le hf).trans (hle task.id)) id
    have := held_task { task with
      forwarder := (Forwarder.close s.registry.store task.id task.forwarder).forwarder }
      conn.outbound id hf
    simp only [Forward.held] at this
    simp only [Shared.withStore]
    omega
  | _ => exact Nat.add_le_add_left (held_goto (by simp [*, Pc.held])).le _

end Conn

/-! ## What all of them hold -/

namespace Daemon

variable {P : Type} {toValue : P → Except String Value} {d d' : Daemon}

/-- The receivers of the run's channel that the connections and their tasks hold. -/
def held (d : Daemon) (id : RunId) : Nat := d.conns.sum fun conn => conn.held id

/-- Other callers drop only receivers of their own. -/
def owned (d : Daemon) : Act P → Bool
  | .registry (.dropReceiver id) => d.held id < d.shared.registry.store.receivers id
  | _ => true

/-- Every channel counts at least the receivers that connections hold. -/
structure Accounted (d : Daemon) : Prop where
  primed : ∀ (c : Nat) (conn : Conn), d.conns[c]? = some conn → conn.Primed
  covered : ∀ id, d.held id ≤ d.shared.registry.store.receivers id

theorem Accounted.conn_le (h : d.Accounted) {c : Nat} {conn : Conn} (hc : d.conns[c]? = some conn)
    (id : RunId) : conn.held id ≤ d.shared.registry.store.receivers id :=
  (ExtTreeMap.le_sum (f := fun conn => conn.held id) hc).trans (h.covered id)

theorem accounted_init : init.Accounted :=
  ⟨by simp [init], fun id => by simp [held, init, ExtTreeMap.sum_empty]⟩

/-- A step of the registry drops no receiver that a connection holds. -/
theorem Accounted.registry (h : d.Accounted) {a : Registry.Act P} {registry : Registry}
    (ho : ∀ id, a = .dropReceiver id → d.held id < d.shared.registry.store.receivers id)
    (hs : d.shared.registry.step toValue a = some registry) :
    ({ d with shared := { d.shared with registry } } : Daemon).Accounted := by
  refine ⟨h.primed, fun id => ?_⟩
  have hle := h.covered id
  cases hd : a.drops id with
  | false => exact hle.trans (Registry.step_receivers hs hd)
  | true =>
    cases a with
    | dropReceiver r =>
      obtain rfl : r = id := by simpa [Registry.Act.drops] using hd
      cases hs
      have := ho r rfl
      change d.held r ≤ (d.shared.registry.store.dropReceiver r).receivers r
      rw [Store.receivers_dropReceiver, if_pos rfl]
      omega
    | _ => cases hd

theorem Accounted.step {a : Act P} (h : d.Accounted) (ho : d.owned a = true)
    (hs : d.step toValue a = some d') : d'.Accounted := by
  cases a with
  | accept c =>
    obtain ⟨hnone, rfl⟩ := accept_cases hs
    refine ⟨fun c' conn hc' => ?_, fun id => ?_⟩
    · rcases ExtTreeMap.getElem?_insert_some.1 hc' with ⟨-, rfl⟩ | ⟨-, hc'⟩
      · exact Conn.primed_init
      · exact h.primed c' conn hc'
    · have hsum := ExtTreeMap.sum_insert_new (f := fun conn => Conn.held conn id) (v := .init) hnone
      have hinit : Conn.init.held id = 0 := by
        simp [Conn.held, Conn.init, Pc.held, ExtTreeMap.sum_empty]
      have := h.covered id
      simp only [held] at this ⊢
      omega
  | conn c a =>
    obtain ⟨conn, shared, conn', hc, hstep, rfl⟩ := conn_cases hs
    have hm := Conn.step_moves hstep
    have hp := h.primed c conn hc
    refine ⟨fun c' conn₁ hc' => ?_, fun id => ?_⟩
    · rcases ExtTreeMap.getElem?_insert_some.1 hc' with ⟨-, rfl⟩ | ⟨-, hc'⟩
      · exact hp.moves hm
      · exact h.primed c' conn₁ hc'
    · have hsum := ExtTreeMap.sum_insert_old (f := fun conn => Conn.held conn id) (v := conn') hc
      have hmoves := Conn.moves_held hp (h.conn_le hc) hm id
      have := h.covered id
      simp only [held] at this ⊢
      omega
  | registry a =>
    obtain ⟨-, registry, hstep, rfl⟩ := registry_cases hs
    refine h.registry (fun id ha => ?_) hstep
    subst ha
    simpa [owned] using ho
  | drain c =>
    obtain ⟨registry, -, hr, rfl⟩ | ⟨-, -, rfl⟩ | ⟨-, rfl⟩ := drain_cases hs
    · have hstep : d.shared.registry.step toValue .cancelAll = some registry := hr
      have := h.registry (by simp) hstep
      exact ⟨this.primed, this.covered⟩
    · exact ⟨h.primed, h.covered⟩
    · exact ⟨h.primed, h.covered⟩
  | stop result => obtain ⟨-, rfl⟩ := stop_cases hs; exact ⟨h.primed, h.covered⟩

end Daemon

end AgencyProxy
