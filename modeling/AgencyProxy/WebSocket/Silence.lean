import AgencyProxy.Daemon.Silence
import AgencyProxy.WebSocket.Subscriptions

/-!
# Subscriptions that fall silent

`forward_run_events` ends where the forwarder of a Unix connection does, and with as little
notice, so the condition under which the forwarders of open connections last is the same on both
transports.
-/

namespace AgencyProxy.WebSocket

open AgencyProxy.Runtime Std Lts

/-- The run that the handler has attached to, until its forwarder is spawned. -/
def Handler.attachedTo : Handler → Option RunId
  | .numbering request _ | .inserting request _ _ | .spawning request _ _ => some request.runId
  | _ => none

theorem moves_keeps {r r' : Registry} {g g' : Nat} {conn conn' : Conn} {a : Conn.Act}
    (h : Moves r g conn a r' g' conn') : r.store.Keeps r'.store := by
  have hby : Daemon.ByClients (fun _ : Unit => .ok .null) r r' := Server.moves_byClients h
  exact hby.quieter.keeps

namespace Conn

/-- The runs that the connection is attached to are in the registry. -/
structure Registered (store : Store) (conn : Conn) : Prop where
  tasks : ∀ (n : Nat) (task : Forward), conn.forwards[n]? = some task →
    store.runs[task.id]? ≠ none
  handler : ∀ id, conn.handler.attachedTo = some id → store.runs[id]? ≠ none

/-- The step is one of a forwarder that is not aborted, whose re-attach the journal refuses. -/
def lapses (store : Store) (conn : Conn) : Act → Bool
  | .forward n =>
    conn.connected && (conn.forwards[n]?).any fun task =>
      !task.aborted && task.forwarder.lapses store task.id
  | _ => false

/-- No forwarder has ended but by an abort. -/
def Lasting (conn : Conn) : Prop :=
  ∀ (n : Nat) (task : Forward), conn.forwards[n]? = some task → task.aborted = false →
    task.forwarder.phase ≠ .ended

variable {r r' : Registry} {g g' : Nat} {conn conn' : Conn} {store store' : Store}

theorem registered_init (store : Store) : Registered store .init :=
  ⟨by simp [init], fun id h => by cases h⟩

theorem Registered.keeps (h : conn.Registered store) (hk : store.Keeps store') :
    conn.Registered store' :=
  ⟨fun n task hf => hk _ (h.tasks n task hf), fun id hp => hk id (h.handler id hp)⟩

/-- The handler goes on, with the run it is attached to. -/
theorem Registered.goto (h : conn.Registered store) (hk : store.Keeps store')
    (hf : ∀ (n : Nat) (task' : Forward), conn'.forwards[n]? = some task' →
      ∃ task, conn.forwards[n]? = some task ∧ task'.id = task.id)
    (hh : ∀ id, conn'.handler.attachedTo = some id → store.runs[id]? ≠ none) :
    conn'.Registered store' := by
  refine ⟨fun n task' hn => ?_, fun id hid => hk id (hh id hid)⟩
  obtain ⟨task, ht, he⟩ := hf n task' hn
  rw [he]
  exact hk _ (h.tasks n task ht)

/-- A task moves. -/
theorem Registered.task (h : conn.Registered store) (hk : store.Keeps store') {n : Nat}
    {task task' : Forward} {queue : List Queued} {active : ExtTreeMap RunId Nat}
    (hf : conn.forwards[n]? = some task) (hid : task'.id = task.id) :
    ({ conn with forwards := conn.forwards.insert n task', queue, active } :
      Conn).Registered store' := by
  refine ⟨ExtTreeMap.forall_insert (fun m task₁ hm => hk _ (h.tasks m task₁ hm)) ?_,
    fun id hp => hk id (h.handler id hp)⟩
  rw [hid]
  exact hk _ (h.tasks n task hf)

theorem Registered.moves {a : Act} (h : conn.Registered r.store)
    (hm : Moves r g conn a r' g' conn') : conn'.Registered r'.store := by
  have hk := moves_keeps hm
  have hsame : ∀ (n : Nat) (task : Forward), conn.forwards[n]? = some task →
      ∃ task₀, conn.forwards[n]? = some task₀ ∧ task.id = task₀.id :=
    fun n task hf => ⟨task, hf, rfl⟩
  cases hm with
  | attach request attachment store hh hl ok =>
    refine h.goto hk hsame fun id hid => ?_
    cases hid
    obtain ⟨run, run', hr, -⟩ := Store.attach_ok ok
    simp [hr]
  | number request attachment hh =>
    refine h.goto hk hsame fun id hid => ?_
    cases hid
    exact h.handler _ (by rw [hh]; rfl)
  | insert request attachment n hh =>
    refine h.goto hk (fun m task hf => ?_) fun id hid => ?_
    · obtain ⟨task₀, hf₀, hid, -⟩ := abort_forwards hf
      exact ⟨task₀, hf₀, hid⟩
    · cases hid
      exact h.handler _ (by rw [hh]; rfl)
  | spawn request attachment n hh =>
    refine ⟨fun m task hf => ?_, fun id hid => by cases hid⟩
    rcases ExtTreeMap.getElem?_insert_some.1 hf with ⟨-, rfl⟩ | ⟨-, hf⟩
    · exact h.handler _ (by rw [hh]; rfl)
    · exact h.tasks m task hf
  | remove request response hh =>
    refine h.goto hk (fun m task hf => ?_) fun id hid => by cases hid
    obtain ⟨task₀, hf₀, hid, -⟩ := abort_forwards hf
    exact ⟨task₀, hf₀, hid⟩
  | disconnect hh =>
    refine h.goto hk (fun m task hf => ?_) fun id hid => by cases hid
    rw [ExtTreeMap.getElem?_map, Option.map_eq_some_iff] at hf
    obtain ⟨task₀, hf₀, rfl⟩ := hf
    refine ⟨task₀, hf₀, ?_⟩
    split <;> rfl
  | wake n task found => exact h.task hk found rfl
  | suspend n task found => exact h.task hk found rfl
  | forward n task stepped found => exact h.task hk found rfl
  | reap n task found => exact h.task hk found rfl
  | removeIfCurrent n task found => exact h.task hk found rfl
  | _ => exact h.goto hk hsame fun id hid => by cases hid

/-! ## Endings -/

theorem abort_connected (k : Option Nat) : (conn.abort k).connected = conn.connected := by
  cases k <;> rfl

/-- An abort ends no other forwarder. -/
theorem Lasting.abort (h : conn.Lasting) (k : Option Nat) : (conn.abort k).Lasting := by
  intro m task hf hab
  obtain ⟨task₀, hf₀, -, hfw, hab₀⟩ := abort_forwards hf
  rw [hfw]
  exact h m task₀ hf₀ (hab₀ hab).1

/-- A task moves to where it has not ended, unless it was aborted. -/
theorem Lasting.task (h : conn.Lasting) {n : Nat} {task' : Forward} {queue : List Queued}
    {active : ExtTreeMap RunId Nat}
    (ht : task'.aborted = false → task'.forwarder.phase ≠ .ended) :
    ({ conn with forwards := conn.forwards.insert n task', queue, active } : Conn).Lasting :=
  ExtTreeMap.forall_insert h ht

/-- A step of a forwarder ends it if its re-attach is refused. -/
theorem forward_ended {n : Nat} {task : Forward} {stepped : Forwarder.Stepped}
    (hreg : conn.Registered r.store) (hopen : r.store.Open)
    (hf : conn.forwards[n]? = some task) (ho : conn.connected = true)
    (ok : forwardRunEvents r.store task.id task.forwarder
      (AgencyProxy.Conn.forwardAct task.forwarder conn.connected) = some stepped) :
    stepped.forwarder.phase = .ended ↔ task.forwarder.lapses r.store task.id = true := by
  rw [ho] at ok
  exact Transport.forward_ended (t := .webSocket) ok hopen (hreg.tasks n task hf)
    (AgencyProxy.Conn.forwardAct_accepts task.forwarder)

/-- **Step lemma**: while the connection is open, its forwarders last unless one lapses. -/
theorem Lasting.moves {a : Act} (h : conn.connected = true → conn.Lasting)
    (hm : Moves r g conn a r' g' conn') (hreg : conn.Registered r.store)
    (hopen : r.store.Open) (hl : conn.lapses r.store a = false)
    (ho : conn'.connected = true) : conn'.Lasting := by
  cases hm with
  | disconnect hh => cases ho
  | insert request attachment n hh =>
    exact (h (by simpa [abort_connected] using ho)).abort conn.active[request.runId]?
  | remove request response hh =>
    exact (h (by simpa [abort_connected] using ho)).abort conn.active[request.runId]?
  | spawn request attachment n hh =>
    intro m task hf hab
    rcases ExtTreeMap.getElem?_insert_some.1 hf with ⟨-, rfl⟩ | ⟨-, hf⟩
    · exact nofun
    · exact h ho m task hf hab
  | wake n task found => exact (h ho).task (h ho n task found)
  | suspend n task found => exact (h ho).task (h ho n task found)
  | forward n task stepped found lock ok =>
    refine (h ho).task fun hab hend => ?_
    have hlapses := (forward_ended hreg hopen found ho ok).1 hend
    have hab : task.aborted = false := hab
    have ho : conn.connected = true := ho
    simp [lapses, ho, found, hab, hlapses] at hl
  | reap n task found aborted => exact (h ho).task fun hab => by cases hab.symm.trans aborted
  | removeIfCurrent n task found => exact (h ho).task (h ho n task found)
  | _ => exact h ho

/-- A forwarder that lapses ends, and was not aborted. -/
theorem not_lasting {a : Act} (hm : Moves r g conn a r' g' conn') (hreg : conn.Registered r.store)
    (hopen : r.store.Open) (hl : conn.lapses r.store a = true) :
    conn'.connected = true ∧ ¬ conn'.Lasting := by
  cases hm with
  | forward n task stepped found lock ok =>
    simp only [lapses, found, Option.any_some, Bool.and_eq_true, Bool.not_eq_true'] at hl
    obtain ⟨ho, hab, hlapses⟩ := hl
    refine ⟨ho, fun hlast => ?_⟩
    exact hlast n _ ExtTreeMap.getElem?_insert_self hab
      ((forward_ended hreg hopen found ho ok).2 hlapses)
  | _ => cases hl

end Conn

namespace Server

variable {P : Type} {toValue : P → Except String Value} {s s' : Server}

/-- The forwarders of each open connection last. -/
def Lasting (s : Server) : Prop :=
  ∀ (c : Nat) (conn : Conn), s.conns[c]? = some conn → conn.connected = true → conn.Lasting

/-- No forwarder that is not aborted attaches again where the journal has moved past it. -/
def retained (s : Server) : Act P → Bool
  | .conn c a => (s.conns[c]?).all fun conn => !conn.lapses s.registry.store a
  | _ => true

theorem registered_exec {acts : List (Act P)} (h : exec (step toValue) init acts = some s) :
    ∀ (c : Nat) (conn : Conn), s.conns[c]? = some conn → conn.Registered s.registry.store := by
  refine exec_inv' (I := fun s => ∀ (c : Nat) (conn : Conn), s.conns[c]? = some conn →
    conn.Registered s.registry.store)
    (fun s a s' hi hs => ?_) (fun c conn hc => by simp [init] at hc) h
  have hk : s.registry.store.Keeps s'.registry.store := by
    obtain ⟨ks, hk⟩ := step_registry hs
    exact fun id hr => Registry.found_exec hk hr
  intro c' conn' hc'
  cases a with
  | connect c =>
    obtain ⟨-, rfl⟩ := connect_cases hs
    rcases ExtTreeMap.getElem?_insert_some.1 hc' with ⟨-, rfl⟩ | ⟨-, hc'⟩
    · exact Conn.registered_init _
    · exact (hi c' conn' hc').keeps hk
  | conn c a =>
    obtain ⟨conn, r', g', conn₁, hc, hm, rfl⟩ := conn_cases hs
    rcases ExtTreeMap.getElem?_insert_some.1 hc' with ⟨-, rfl⟩ | ⟨-, hc'⟩
    · exact (hi c conn hc).moves hm
    · exact (hi c' conn' hc').keeps hk
  | registry a =>
    obtain ⟨registry, -, rfl⟩ := Option.map_eq_some_iff.1 hs
    exact (hi c' conn' hc').keeps hk

theorem open_exec {acts : List (Act P)} (h : exec (step toValue) init acts = some s) :
    s.registry.store.Open := by
  obtain ⟨ks, hk⟩ := exec_project (fun s : Server => s.registry)
    (fun _ _ _ hs => step_registry hs) h
  exact Registry.open_exec hk

theorem Lasting.step {acts : List (Act P)} {a : Act P}
    (hs₀ : exec (Server.step toValue) init acts = some s) (h : s.Lasting)
    (hr : s.retained a = true) (hs : s.step toValue a = some s') : s'.Lasting := by
  intro c' conn' hc' ho
  cases a with
  | connect c =>
    obtain ⟨-, rfl⟩ := connect_cases hs
    rcases ExtTreeMap.getElem?_insert_some.1 hc' with ⟨-, rfl⟩ | ⟨-, hc'⟩
    · intro n task hf
      simp [Conn.init] at hf
    · exact h c' conn' hc' ho
  | conn c a =>
    obtain ⟨conn, r', g', conn₁, hc, hm, rfl⟩ := conn_cases hs
    rcases ExtTreeMap.getElem?_insert_some.1 hc' with ⟨-, rfl⟩ | ⟨-, hc'⟩
    · exact Conn.Lasting.moves (h c conn hc) hm (registered_exec hs₀ c conn hc) (open_exec hs₀)
        (by simpa [retained, hc] using hr) ho
    · exact h c' conn' hc' ho
  | registry a =>
    obtain ⟨registry, -, rfl⟩ := Option.map_eq_some_iff.1 hs
    exact h c' conn' hc' ho

theorem not_lasting {acts : List (Act P)} {a : Act P}
    (hs₀ : exec (Server.step toValue) init acts = some s) (hr : ¬ s.retained a = true)
    (hs : s.step toValue a = some s') : ¬ s'.Lasting := by
  cases a with
  | conn c a =>
    obtain ⟨conn, r', g', conn', hc, hm, rfl⟩ := conn_cases hs
    simp only [retained, hc, Option.all_some, Bool.not_eq_true', Bool.not_eq_false] at hr
    obtain ⟨ho, hn⟩ := Conn.not_lasting hm (registered_exec hs₀ c conn hc) (open_exec hs₀) hr
    exact fun hlast => hn (hlast c conn' ExtTreeMap.getElem?_insert_self ho)
  | _ => exact absurd rfl hr

/-- Over the WebSocket transport. -/
theorem lasting_iff {acts : List (Act P)} (h : exec (step toValue) init acts = some s) :
    Along (step toValue) (fun s a => s.retained a = true) init acts ↔
      Always (step toValue) Lasting init acts := by
  refine along_iff_always (fun c conn hc => by simp [init] at hc) ?_ ?_ h
  · intro pre s a s' hpre hlast hr hs
    exact hlast.step hpre hr hs
  · intro pre s a s' hpre hr hs
    exact not_lasting hpre hr hs

end Server

/-! ## Both transports -/

/-- **When an attachment goes silent.** In a run of either transport, the forwarders of open
connections end by an abort only, exactly if none of them, left behind by the ring, attaches
again where the journal has moved past its last event. -/
theorem silent_iff {P : Type} (toValue : P → Except String Value) :
    (∀ (acts : List (Daemon.Act P)) (d : Daemon),
      exec (Daemon.step toValue) Daemon.init acts = some d →
      (Along (Daemon.step toValue) (fun d a => d.retained a = true) Daemon.init acts ↔
        Always (Daemon.step toValue) Daemon.Lasting Daemon.init acts)) ∧
    (∀ (acts : List (Server.Act P)) (s : Server),
      exec (Server.step toValue) Server.init acts = some s →
      (Along (Server.step toValue) (fun s a => s.retained a = true) Server.init acts ↔
        Always (Server.step toValue) Server.Lasting Server.init acts)) :=
  ⟨fun _ _ h => Daemon.lasting_iff h, fun _ _ h => Server.lasting_iff h⟩

theorem silent_iff_subscribedTwice :
    (∃ d : Daemon, exec (Daemon.step fun _ : Unit => .ok .null) Daemon.init Daemon.watching =
      some d ∧ d.Lasting) ∧
    (∃ s : Server, exec (Server.step fun _ => .ok .null) Server.init Server.subscribedTwice =
      some s ∧ s.Lasting) := by
  have hd : (exec (Daemon.step fun _ => .ok .null) Daemon.init Daemon.watching).isSome := by
    decide +kernel
  have hs : (exec (Server.step fun _ => .ok .null) Server.init Server.subscribedTwice).isSome := by
    decide +kernel
  obtain ⟨d, hd⟩ := Option.isSome_iff_exists.1 hd
  obtain ⟨s, hs⟩ := Option.isSome_iff_exists.1 hs
  have hunix := ((silent_iff _).1 _ d hd).1 (by decide +kernel)
  have hweb := ((silent_iff _).2 _ s hs).1 (by decide +kernel)
  exact ⟨⟨d, hd, hunix _ [] d (by simp) hd⟩, s, hs, hweb _ [] s (by simp) hs⟩

/-- The client of `watching` hears no more of its run, after 2049 events that its forwarder did
not see one by one. -/
theorem silent_watching :
    ∃ d : Daemon, exec (Daemon.step fun _ : Unit => .ok .null) Daemon.init
        (Daemon.watching ++ Daemon.leftBehind 0 0 ⟨"r"⟩ 2049) = some d ∧ ¬ d.Lasting := by
  have h : ((exec (Daemon.step fun _ => .ok .null) Daemon.init Daemon.watching).bind fun d =>
      d.conns[0]?.bind fun conn => conn.forwards[0]?.bind fun task =>
        d.shared.registry.store.runs[task.id]?.bind fun run =>
          (d.shared.registry.recv (fun _ : Unit => .ok .null) task.id none).map fun _ =>
            (task.id, conn.isOpen && !task.aborted && task.polling && !task.reattaches,
              decide (d.shared.registry.lock = .free ∧ task.forwarder.held = 1 ∧
                0 < run.events.receivers ∧
                task.forwarder.events.next + run.events.capacity < run.events.tail + 2049 ∧
                max run.snapshot.acknowledgedSequence task.forwarder.lastSequence +
                  maxReplayEvents < run.snapshot.latestSequence + 2049))) =
      some (⟨"r"⟩, true, true) := by decide +kernel
  obtain ⟨d, hd, h⟩ := Option.bind_eq_some_iff.1 h
  obtain ⟨conn, hc, h⟩ := Option.bind_eq_some_iff.1 h
  obtain ⟨task, hf, h⟩ := Option.bind_eq_some_iff.1 h
  obtain ⟨run, hr, h⟩ := Option.bind_eq_some_iff.1 h
  obtain ⟨r', hrecv, h⟩ := Option.map_eq_some_iff.1 h
  simp only [Prod.mk.injEq, Bool.and_eq_true, Bool.not_eq_true', decide_eq_true_eq] at h
  obtain ⟨hid, ⟨⟨⟨ho, hab⟩, hpoll⟩, hre⟩, hlock, hheld, hreceivers, hring, hjournal⟩ := h
  obtain ⟨htask, hquiet, -⟩ := Registry.recv_cases hrecv
  have hp : task.forwarder.phase = .receiving := by
    unfold Forwarder.held at hheld
    unfold Forward.reattaches at hre
    cases hp : task.forwarder.phase with
    | receiving => rfl
    | lagged => simp [hp] at hre
    | replaying rest events => simp [hp] at hheld
    | ended => simp [hp] at hheld
  rw [← hid]
  exact Daemon.silenced hd hc ho hf hab hpoll hp ⟨hlock, htask, hquiet, hr⟩ hreceivers hring
    hjournal

end AgencyProxy.WebSocket
