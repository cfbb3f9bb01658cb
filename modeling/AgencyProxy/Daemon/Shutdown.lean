import AgencyProxy.Daemon.Lifecycle

/-!
# Shutdown

Two properties of a stopping daemon. The flag is set only when every run has ended, because
the count is read where no `start` call can be between its insert and its count. And an
announced shutdown is carried out, unless the response that announces it cannot be written:
then `stopping` stays set with nobody left to set the flag.
-/

namespace AgencyProxy

open AgencyProxy.Runtime Std Lts

/-- The connection has found the daemon idle and is to set the flag. -/
def Pc.announces : Pc → Bool
  | .answering _ _ .setShutdown _ | .stopping => true
  | _ => false

/-- The connection is to carry out the shutdown it announces. -/
def Pc.completes : Pc → Bool
  | .answering _ _ next _ => next.shuts
  | .stopping => true
  | _ => false

/-- The drain task has found the daemon idle. -/
def Drain.announces : Drain → Bool
  | .setting | .done => true
  | _ => false

namespace Daemon

variable {P : Type} {toValue : P → Except String Value} {d d' : Daemon} {r r' : Registry}

/-! ## No run is abandoned -/

/-- Every run has ended. -/
def Quiet (r : Registry) : Prop :=
  ∀ (id : RunId) (run : LiveRun), r.store.runs[id]? = some run → run.isActive = false

/-- A count of zero is the truth, unless a run is inserted and not counted yet. -/
theorem quiet_of_idle (h : r.Inv) (ha : r.active = 0) (hl : ∀ k, r.lock ≠ .starting k) :
    Quiet r := by
  intro id run hr
  have hb := h.balanced
  unfold Registry.Balanced at hb
  cases hlock : r.lock with
  | free =>
    rw [hlock] at hb
    exact ExtTreeMap.count_eq_zero (hb.symm.trans ha) hr
  | starting k => exact absurd hlock (hl k)
  | publishing id' =>
    rw [hlock] at hb
    dsimp only at hb
    omega

theorem Quiet.calm (h : Quiet r) (hc : r.Calm r') : Quiet r' := by
  intro id run' hr'
  obtain ⟨run, hr, hs⟩ := hc.runs id run' hr'
  rw [LiveRun.isActive, hs]
  exact h id run hr

theorem Quiet.step {a : Registry.Act P} (h : Quiet r) (hi : r.Inv)
    (hset : ∀ (k : Nat) (call : StartCall), r.starts[k]? = some call → call.settled = true)
    (hs : r.step toValue a = some r') : Quiet r' := by
  intro id run' hr'
  obtain ⟨run, hr, hst | ⟨p, last, ht⟩⟩ := Registry.step_run_back hs hset hr'
  · rw [LiveRun.isActive, hst]
    exact h id run hr
  · -- The task of a run that has ended has nothing to publish.
    have hok : Registry.TaskOk (some (.publishing p last)) run _ := ht ▸ hi.runs id run hr
    cases (h id run hr).symm.trans hok.1

/-- Somebody has found the daemon idle for good. -/
def Announced (d : Daemon) : Prop :=
  d.shared.shutdown = true ∨
    (∃ (c : Nat) (conn : Conn), d.conns[c]? = some conn ∧ conn.pc.announces = true) ∨
    ∃ (c : Nat) (drain : Drain), d.shared.drains[c]? = some drain ∧ drain.announces = true

theorem Announced.stopping (h : d.Announced) (hl : d.Lifecycle) : d.shared.stopping = true := by
  rcases h with hf | ⟨c, conn, hc, hp⟩ | ⟨c, drain, hd, -⟩
  · exact hl.flag hf
  · have hok := hl.pcs c conn hc
    unfold Pc.announces at hp
    split at hp
    · rename_i hpc; rw [hpc] at hok; exact hok.2
    · rename_i hpc; rw [hpc] at hok; exact hok
    · cases hp
  · exact hl.drains c drain hd

/-- A connection at the lifecycle has the lock, so no `start` call is in flight. -/
theorem Lifecycle.settled_of_locked (h : d.Lifecycle) {c : Nat} {conn : Conn}
    {request : ClientFrame} (hc : d.conns[c]? = some conn) (hpc : conn.pc = .locked request)
    {k : Nat} {call : StartCall} (hk : d.shared.registry.starts[k]? = some call) :
    call.settled = true := by
  cases hu : call.settled with
  | true => rfl
  | false =>
    obtain ⟨c', conn', request', hc', hpc'⟩ := h.flights k call hk hu
    have hh : d.shared.holder = some c := (h.holder c conn hc).1 (by rw [hpc]; rfl)
    have hh' : d.shared.holder = some c' := (h.holder c' conn' hc').1 (by rw [hpc']; rfl)
    cases hh.symm.trans hh'
    cases hc.symm.trans hc'
    cases hpc.symm.trans hpc'

/-- With no `start` call in flight, no run is waiting to be counted. -/
theorem not_starting (h : r.Inv)
    (hset : ∀ (k : Nat) (call : StartCall), r.starts[k]? = some call → call.settled = true)
    (k : Nat) : r.lock ≠ .starting k := by
  intro hl
  obtain ⟨id, hk⟩ := (h.starting k).1 hl
  cases hset k _ hk

theorem greet_announces (frame : ClientFrame) : (Conn.greet frame).announces = false := by
  unfold Conn.greet
  split
  · split <;> rfl
  · rfl

/-- Who announces after a connection's step announced before it, or has just read the count. -/
theorem moves_announces {s s' : Shared} {c : Nat} {conn conn' : Conn} {a : Conn.Act}
    (h : Conn.Moves s c conn a s' conn') :
    (s'.shutdown = true → s.shutdown = true ∨ conn.pc.announces = true) ∧
    (conn'.pc.announces = true → conn.pc.announces = true ∨
      ∃ request, conn.pc = .locked request ∧ s.registry.active = 0) ∧
    (∀ (c' : Nat) (drain : Drain), s'.drains[c']? = some drain → drain.announces = true →
      s.drains[c']? = some drain) := by
  cases h with
  | first frame =>
    refine ⟨.inl, fun hp => ?_, fun _ _ hd _ => hd⟩
    rw [greet_announces] at hp
    cases hp
  | idle k request hpc hm hn =>
    exact ⟨.inl, fun _ => .inr ⟨request, hpc, hn⟩, fun _ _ hd _ => hd⟩
  | wrote request response next locked hpc =>
    obtain ⟨-, hr2, hr3⟩ := release_fields s locked
    cases next with
    | setShutdown => exact ⟨.inl, fun _ => .inl (by rw [hpc]; rfl), fun _ _ hd _ => hd⟩
    | drain mode =>
      refine ⟨fun hf => .inl (hr2 ▸ hf), (fun hp => by cases hp), fun c' drain hd ha => ?_⟩
      rcases ExtTreeMap.getElem?_insert_some.1 hd with ⟨-, rfl⟩ | ⟨-, hd⟩
      · split at ha <;> cases ha
      · exact hd
    | _ =>
      exact ⟨fun hf => .inl (hr2 ▸ hf), (fun hp => by cases hp), fun _ _ hd _ => hr3 ▸ hd⟩
  | unanswered request response next locked =>
    obtain ⟨-, hr2, hr3⟩ := release_fields s locked
    exact ⟨fun hf => .inl (hr2 ▸ hf), (fun hp => by cases hp), fun _ _ hd _ => hr3 ▸ hd⟩
  | setShutdown hpc =>
    exact ⟨fun _ => .inr (by rw [hpc]; rfl), (fun hp => by cases hp), fun _ _ hd _ => hd⟩
  | wake => exact ⟨.inl, .inl, fun _ _ hd _ => hd⟩
  | forward => exact ⟨.inl, .inl, fun _ _ hd _ => hd⟩
  | suspend => exact ⟨.inl, .inl, fun _ _ hd _ => hd⟩
  | reap => exact ⟨.inl, .inl, fun _ _ hd _ => hd⟩
  | _ => exact ⟨.inl, (fun hp => by cases hp), fun _ _ hd _ => hd⟩

/-- The registry is quiet from the moment somebody announces it. -/
def Sound (d : Daemon) : Prop := d.Announced → Quiet d.shared.registry

theorem Quiet.moves {s s' : Shared} {c : Nat} {conn conn' : Conn} {a : Conn.Act}
    (h : Quiet s.registry) (hm : Conn.Moves s c conn a s' conn') : Quiet s'.registry := by
  obtain ⟨k, id, hc⟩ | ⟨request, k, id, spec, -, -, hc⟩ | hc :=
    moves_registry (fun _ : Unit => .ok .null) hm
  · obtain ⟨-, he⟩ := Registry.cancelCall_cases hc
    rw [he]
    exact h
  · obtain ⟨-, he⟩ := Registry.startCall_cases hc
    rw [he]
    exact h
  · exact h.calm hc.calm

theorem Sound.step {a : Act P} (h : d.Sound) (hl : d.Lifecycle) (hi : d.shared.registry.Inv)
    (hs : d.step toValue a = some d') : d'.Sound := by
  intro ha
  cases a with
  | accept c =>
    obtain ⟨-, rfl⟩ := accept_cases hs
    rcases ha with hf | ⟨c', conn, hc, hp⟩ | hd
    · exact h (.inl hf)
    · rcases ExtTreeMap.getElem?_insert_some.1 hc with ⟨-, rfl⟩ | ⟨-, hc⟩
      · cases hp
      · exact h (.inr (.inl ⟨c', conn, hc, hp⟩))
    · exact h (.inr (.inr hd))
  | conn c a =>
    obtain ⟨conn, shared, conn', hc, hstep, rfl⟩ := conn_cases hs
    have hm := Conn.step_moves hstep
    obtain ⟨h1, h2, h3⟩ := moves_announces hm
    refine Quiet.moves ?_ hm
    rcases ha with hf | ⟨c', conn₀, hc₀, hp⟩ | ⟨c', drain, hd, hp⟩
    · rcases h1 hf with hf | hp
      · exact h (.inl hf)
      · exact h (.inr (.inl ⟨c, conn, hc, hp⟩))
    · rcases ExtTreeMap.getElem?_insert_some.1 hc₀ with ⟨rfl, rfl⟩ | ⟨-, hc₀⟩
      · rcases h2 hp with hp | ⟨request, hpc, hn⟩
        · exact h (.inr (.inl ⟨c, conn, hc, hp⟩))
        · exact quiet_of_idle hi hn (not_starting hi fun k call => hl.settled_of_locked hc hpc)
      · exact h (.inr (.inl ⟨c', conn₀, hc₀, hp⟩))
    · exact h (.inr (.inr ⟨c', drain, h3 c' drain hd hp, hp⟩))
  | registry a =>
    obtain ⟨-, registry, hstep, rfl⟩ := registry_cases hs
    have ha : d.Announced := ha
    exact (h ha).step hi (fun k call => hl.settled (ha.stopping hl)) hstep
  | drain c =>
    obtain ⟨registry, hd, hr, rfl⟩ | ⟨hd, hn, rfl⟩ | ⟨hd, rfl⟩ := drain_cases hs
    · have hset : ∀ (k : Nat) (call : StartCall), d.shared.registry.starts[k]? = some call →
          call.settled = true := fun k call => hl.settled (hl.drains c _ hd)
      have hr : d.shared.registry.step (fun _ : Unit => .ok .null) .cancelAll = some registry := hr
      refine Quiet.step ?_ hi hset hr
      rcases ha with hf | hc | ⟨c', drain, hd', hp⟩
      · exact h (.inl hf)
      · exact h (.inr (.inl hc))
      · rcases ExtTreeMap.getElem?_insert_some.1 hd' with ⟨-, rfl⟩ | ⟨-, hd'⟩
        · cases hp
        · exact h (.inr (.inr ⟨c', drain, hd', hp⟩))
    · exact quiet_of_idle hi hn
        (not_starting hi fun k call => hl.settled (hl.drains c _ hd))
    · exact h (.inr (.inr ⟨c, _, hd, rfl⟩))
  | stop result => obtain ⟨-, rfl⟩ := stop_cases hs; exact h ha

theorem moves_stopping {s s' : Shared} {c : Nat} {conn conn' : Conn} {a : Conn.Act}
    (h : Conn.Moves s c conn a s' conn') (hs : s.stopping = true) : s'.stopping = true := by
  cases h with
  | wrote request response next locked =>
    have hr := (release_fields s locked).1
    cases next with
    | setShutdown => exact hs
    | _ => exact hr.trans hs
  | unanswered request response next locked => exact (release_fields s locked).1.trans hs
  | idle => rfl
  | stop => rfl
  | _ => exact hs

/-- **Admission closed**, one step: a stopping daemon keeps stopping and inserts no run. -/
theorem Lifecycle.closed_step {a : Act P} (h : d.Lifecycle) (hst : d.shared.stopping = true)
    (hs : d.step toValue a = some d') :
    d'.shared.stopping = true ∧ ∀ id : RunId, d'.shared.registry.store.runs[id]? ≠ none →
      d.shared.registry.store.runs[id]? ≠ none := by
  have hback : ∀ (a : Registry.Act P) (registry : Registry),
      d.shared.registry.step toValue a = some registry → ∀ id : RunId,
        registry.store.runs[id]? ≠ none → d.shared.registry.store.runs[id]? ≠ none := by
    intro a registry hstep id hne
    obtain ⟨run', hr'⟩ := Option.ne_none_iff_exists'.1 hne
    obtain ⟨run, hr, -⟩ := Registry.step_run_back hstep (fun k call => h.settled hst) hr'
    rw [hr]
    exact Option.some_ne_none run
  cases a with
  | accept c => obtain ⟨-, rfl⟩ := accept_cases hs; exact ⟨hst, fun _ hne => hne⟩
  | conn c a =>
    obtain ⟨conn, shared, conn', hc, hstep, rfl⟩ := conn_cases hs
    have hm := Conn.step_moves hstep
    refine ⟨moves_stopping hm hst, fun id hne => ?_⟩
    obtain ⟨k, id', hcall⟩ | ⟨request, k, id', spec, -, hopen, -⟩ | ⟨ks, hk, hex⟩ :=
      moves_registry toValue hm
    · exact hback (.cancelCall k id') _ hcall id hne
    · rw [hst] at hopen; cases hopen
    · obtain ⟨run', hr'⟩ := Option.ne_none_iff_exists'.1 hne
      obtain ⟨run, hr, -⟩ := (Registry.client_exec hk hex).runs id run' hr'
      rw [hr]
      exact Option.some_ne_none run
  | registry a =>
    obtain ⟨-, registry, hstep, rfl⟩ := registry_cases hs
    exact ⟨hst, hback a registry hstep⟩
  | drain c =>
    obtain ⟨registry, -, hr, rfl⟩ | ⟨-, -, rfl⟩ | ⟨-, rfl⟩ := drain_cases hs
    · exact ⟨hst, hback .cancelAll registry hr⟩
    · exact ⟨hst, fun _ hne => hne⟩
    · exact ⟨hst, fun _ hne => hne⟩
  | stop result => obtain ⟨-, rfl⟩ := stop_cases hs; exact ⟨hst, fun _ hne => hne⟩

theorem closed_exec {acts : List (Act P)} (hl : d.Lifecycle) (hst : d.shared.stopping = true)
    (h : exec (step toValue) d acts = some d') (id : RunId)
    (hne : d'.shared.registry.store.runs[id]? ≠ none) :
    d.shared.registry.store.runs[id]? ≠ none := by
  induction acts generalizing d with
  | nil => cases h; exact hne
  | cons a acts ih =>
    obtain ⟨m, hm, h⟩ := exec_cons_some.1 h
    obtain ⟨hst', hback⟩ := hl.closed_step hst hm
    exact hback id (ih (hl.step hm) hst' h)

theorem sound_exec {acts : List (Act P)} (total : ∀ p, ∃ v, toValue p = .ok v)
    (h : exec (step toValue) init acts = some d) : d.Sound := by
  have hinit : init.Sound := fun _ id run hr => by
    simp [init, Shared.init, Registry.init, Store.empty] at hr
  refine (exec_inv' (I := fun d => d.Lifecycle ∧ d.shared.registry.Inv ∧ d.Sound) ?_
    ⟨lifecycle_init, Registry.inv_init, hinit⟩ h).2.2
  rintro d a d' ⟨hl, hi, hq⟩ hs
  obtain ⟨ks, hk⟩ := step_registry hs
  exact ⟨hl.step hs, Registry.inv_exec hi (fun a _ => Registry.serialises_of_total total a) hk,
    hq.step hl hi hs⟩

/-- **Shutdown never abandons a run.** In every state of the daemon in which the shutdown flag
is set, every run has ended; and once a `ShutdownIfIdle` or `Shutdown` was answered with
`Accepted`, no run is inserted any more. -/
theorem shutdown_quiet (toValue : P → Except String Value)
    (total : ∀ p, ∃ v, toValue p = .ok v) (acts later : List (Act P)) (d d' : Daemon)
    (h : exec (step toValue) init acts = some d) (h' : exec (step toValue) d later = some d') :
    (d.shared.shutdown = true → ∀ (id : RunId) (run : LiveRun),
      d.shared.registry.store.runs[id]? = some run → run.isActive = false) ∧
    (∀ (c : Nat) (conn : Conn) (request : ClientFrame), d.conns[c]? = some conn →
      .response request .accepted ∈ conn.written → request.shutsDown = true →
        ∀ id : RunId, d'.shared.registry.store.runs[id]? ≠ none →
          d.shared.registry.store.runs[id]? ≠ none) := by
  have hl := lifecycle_exec h
  exact ⟨fun hf => sound_exec total h (.inl hf), fun c conn request hc hw hr =>
    closed_exec hl (hl.answered c conn request hc hw hr) h'⟩

/-- One client starts a run; another asks for a draining shutdown, which waits for it. -/
def drainedRun : List (Act Unit) :=
  [.accept 0, .conn 0 (.receive (.frame ⟨1, .hello "first" ⟨0, 4⟩⟩)), .conn 0 (.write true),
   .conn 0 (.receive (.frame ⟨2, .startRun ⟨"r"⟩ plainRequest "key"⟩)), .conn 0 (.handle .nothing),
   .conn 0 (.check 0), .registry (.startCheck 0), .registry (.startLaunch 0 (.ok ())),
   .registry (.startInsert 0), .registry (.startCount 0), .registry (.startSpawn 0),
   .conn 0 .started, .conn 0 (.write true),
   .accept 1, .conn 1 (.receive (.frame ⟨1, .hello "second" ⟨0, 3⟩⟩)), .conn 1 (.write true),
   .conn 1 (.receive (.frame ⟨2, .shutdown .drain⟩)), .conn 1 (.handle .nothing),
   .conn 1 (.check 1), .conn 1 (.write true),
   .registry (.recv ⟨"r"⟩ none), .registry (.finish ⟨"r"⟩ (.ok ⟨true, ()⟩)),
   .registry (.publish ⟨"r"⟩), .registry (.complete ⟨"r"⟩), .registry (.uncount ⟨"r"⟩),
   .drain 1, .drain 1]

theorem shutdown_quiet_drainedRun :
    ∃ (d : Daemon) (run : LiveRun),
      exec (step fun _ => .ok .null) init drainedRun = some d ∧ d.shared.shutdown = true ∧
      d.shared.registry.store.runs[RunId.mk "r"]? = some run ∧ run.isActive = false := by
  have h : (exec (step fun _ => .ok .null) init drainedRun).map (fun d =>
      (d.shared.shutdown, d.shared.registry.store.runs[RunId.mk "r"]?.isSome)) =
      some (true, true) := by decide +kernel
  obtain ⟨d, hd, h⟩ := Option.map_eq_some_iff.1 h
  obtain ⟨hf, hr⟩ := Prod.mk.inj h
  obtain ⟨run, hr⟩ := Option.isSome_iff_exists.1 hr
  exact ⟨d, run, hd, hf, hr,
    (shutdown_quiet _ (fun _ => ⟨_, rfl⟩) drainedRun [] d d hd rfl).1 hf _ run hr⟩

/-! ## A stopping daemon stops -/

/-- The flag is set, or a drain task that sets it was spawned. -/
def UnderWay (d : Daemon) : Prop :=
  d.shared.shutdown = true ∨ ∃ (c : Nat) (drain : Drain), d.shared.drains[c]? = some drain

/-- Admission is closed, with the lock free, only when the shutdown is under way. -/
def Stops (d : Daemon) : Prop :=
  d.shared.stopping = true → d.shared.holder = none → d.UnderWay

/-- A write that fails is not that of the `Accepted` which announces a shutdown, unless one is
under way already. -/
def Announceable (d : Daemon) : Act P → Prop
  | .conn c (.write false) =>
    ∀ (conn : Conn) (request : ClientFrame) (response : ServerResponse) (next : Next)
      (locked : Bool), d.conns[c]? = some conn →
      conn.pc = .answering request response next locked → next.shuts = true → d.UnderWay
  | _ => True

/-- A shutdown under way stays so: the flag is never cleared, and no drain task forgotten. -/
theorem moves_underWay {s s' : Shared} {c : Nat} {conn conn' : Conn} {a : Conn.Act}
    (h : Conn.Moves s c conn a s' conn') :
    (s.shutdown = true → s'.shutdown = true) ∧
    (∀ (c' : Nat) (drain : Drain), s.drains[c']? = some drain →
      ∃ drain', s'.drains[c']? = some drain') := by
  cases h with
  | wrote request response next locked =>
    obtain ⟨-, hr2, hr3⟩ := release_fields s locked
    cases next with
    | setShutdown => exact ⟨fun hf => hf, fun _ drain hd => ⟨drain, hd⟩⟩
    | drain mode =>
      refine ⟨fun hf => hr2.trans hf, fun c' drain hd => ?_⟩
      by_cases he : c = c'
      · subst he; exact ⟨_, ExtTreeMap.getElem?_insert_self⟩
      · exact ⟨drain, (ExtTreeMap.getElem?_insert_of_ne he).trans hd⟩
    | _ =>
      exact ⟨fun hf => hr2.trans hf, fun _ drain hd => ⟨drain, hr3.symm ▸ hd⟩⟩
  | unanswered request response next locked =>
    obtain ⟨-, hr2, hr3⟩ := release_fields s locked
    exact ⟨fun hf => hr2.trans hf, fun _ drain hd => ⟨drain, hr3.symm ▸ hd⟩⟩
  | setShutdown => exact ⟨fun _ => rfl, fun _ drain hd => ⟨drain, hd⟩⟩
  | _ => exact ⟨fun hf => hf, fun _ drain hd => ⟨drain, hd⟩⟩

/-- A connection that is to carry out a shutdown goes on to do so, or fails to announce it. -/
theorem moves_completes {s s' : Shared} {c : Nat} {conn conn' : Conn} {a : Conn.Act}
    (h : Conn.Moves s c conn a s' conn') (hp : conn.pc.completes = true) :
    conn'.pc.completes = true ∨ s'.shutdown = true ∨ (∃ drain, s'.drains[c]? = some drain) ∨
      (a = .write false ∧ ∃ request response next locked,
        conn.pc = .answering request response next locked ∧ next.shuts = true) := by
  cases h with
  | wrote request response next locked hpc =>
    rw [hpc] at hp
    cases next with
    | setShutdown => exact .inl rfl
    | drain mode => exact .inr (.inr (.inl ⟨_, ExtTreeMap.getElem?_insert_self⟩))
    | _ => cases hp
  | unanswered request response next locked store hpc =>
    rw [hpc] at hp
    exact .inr (.inr (.inr ⟨rfl, request, response, next, locked, hpc, hp⟩))
  | setShutdown => exact .inr (.inl rfl)
  | wake => exact .inl hp
  | forward => exact .inl hp
  | suspend => exact .inl hp
  | reap => exact .inl hp
  | undecodable hpc => rcases hpc with hpc | hpc <;> rw [hpc] at hp <;> cases hp
  | unreadable hpc => rcases hpc with hpc | hpc <;> rw [hpc] at hp <;> cases hp
  | _ =>
    rename conn.pc = _ => hpc
    rw [hpc] at hp
    cases hp

/-- `stopping` is set by the connection that announces the shutdown. -/
theorem moves_stops {s s' : Shared} {c : Nat} {conn conn' : Conn} {a : Conn.Act}
    (h : Conn.Moves s c conn a s' conn') (hs : s.stopping = false) (hs' : s'.stopping = true) :
    conn'.pc.completes = true := by
  cases h with
  | idle => rfl
  | stop => rfl
  | wrote request response next locked =>
    have hr := (release_fields s locked).1
    cases next with
    | setShutdown => exact absurd (hs.symm.trans hs') (by decide)
    | _ => exact absurd (hs.symm.trans (hr.symm.trans hs')) (by decide)
  | unanswered request response next locked =>
    have hr := (release_fields s locked).1
    exact absurd (hs.symm.trans (hr.symm.trans hs')) (by decide)
  | _ => exact absurd (hs.symm.trans hs') (by decide)

/-- Whoever set `stopping` has the shutdown under way, or is about to. -/
def Followed (d : Daemon) : Prop :=
  d.shared.stopping = true → d.UnderWay ∨
    ∃ (c : Nat) (conn : Conn), d.conns[c]? = some conn ∧ conn.pc.completes = true

theorem Followed.moves {c : Nat} {conn conn' : Conn} {a : Conn.Act} {shared : Shared}
    (h : d.Followed) (hc : d.conns[c]? = some conn)
    (ha : d.Announceable (P := P) (.conn c a))
    (hm : Conn.Moves d.shared c conn a shared conn') :
    ({ d with shared, conns := d.conns.insert c conn' } : Daemon).Followed := by
  intro hs
  obtain ⟨h1, h2⟩ := moves_underWay hm
  have hkeep : d.UnderWay →
      ({ d with shared, conns := d.conns.insert c conn' } : Daemon).UnderWay := by
    rintro (hf | ⟨c', drain, hd⟩)
    · exact .inl (h1 hf)
    · exact .inr ⟨c', h2 c' drain hd⟩
  cases hst : d.shared.stopping with
  | false => exact .inr ⟨c, conn', ExtTreeMap.getElem?_insert_self, moves_stops hm hst hs⟩
  | true =>
    rcases h hst with hu | ⟨c', conn₀, hc₀, hp⟩
    · exact .inl (hkeep hu)
    · by_cases he : c = c'
      · subst he
        cases hc.symm.trans hc₀
        rcases moves_completes hm hp with hp | hf | ⟨drain, hd⟩ | ⟨rfl, q, r, n, l, hpc, hn⟩
        · exact .inr ⟨c, conn', ExtTreeMap.getElem?_insert_self, hp⟩
        · exact .inl (.inl hf)
        · exact .inl (.inr ⟨c, drain, hd⟩)
        · exact .inl (hkeep (ha conn q r n l hc hpc hn))
      · exact .inr ⟨c', conn₀, (ExtTreeMap.getElem?_insert_of_ne he).trans hc₀, hp⟩

theorem Followed.step {a : Act P} (h : d.Followed) (ha : d.Announceable a)
    (hs : d.step toValue a = some d') : d'.Followed := by
  cases a with
  | accept c =>
    obtain ⟨hn, rfl⟩ := accept_cases hs
    intro hst
    rcases h hst with hu | ⟨c', conn, hc, hp⟩
    · exact .inl hu
    · have he : c ≠ c' := by rintro rfl; cases hn.symm.trans hc
      exact .inr ⟨c', conn, (ExtTreeMap.getElem?_insert_of_ne he).trans hc, hp⟩
  | conn c a =>
    obtain ⟨conn, shared, conn', hc, hstep, rfl⟩ := conn_cases hs
    exact h.moves hc ha (Conn.step_moves hstep)
  | registry a => obtain ⟨-, registry, -, rfl⟩ := registry_cases hs; exact h
  | drain c =>
    intro _
    obtain ⟨registry, -, -, rfl⟩ | ⟨-, -, rfl⟩ | ⟨-, rfl⟩ := drain_cases hs
    · exact .inl (.inr ⟨c, _, ExtTreeMap.getElem?_insert_self⟩)
    · exact .inl (.inr ⟨c, _, ExtTreeMap.getElem?_insert_self⟩)
    · exact .inl (.inl rfl)
  | stop result => obtain ⟨-, rfl⟩ := stop_cases hs; exact h

/-- A connection that is to carry out a shutdown holds the lock. -/
theorem Followed.stops (h : d.Followed) (hl : d.Lifecycle) : d.Stops := by
  intro hs hfree
  rcases h hs with hu | ⟨c, conn, hc, hp⟩
  · exact hu
  · have hh : conn.pc.holdsLock = true := by
      have hok := hl.pcs c conn hc
      cases hpc : conn.pc with
      | answering request response next locked =>
        rw [hpc] at hok hp
        simp only [PcOk, show next.shuts = true from hp, if_true] at hok
        exact hok.1
      | stopping => rfl
      | _ => rw [hpc] at hp; cases hp
    cases ((hl.holder c conn hc).1 hh).symm.trans hfree

/-- The announcement that cannot be written leaves the daemon closed and not stopping. -/
theorem not_stops_of_unannounced {a : Act P} (hl : d.Lifecycle) (ha : ¬ d.Announceable a)
    (hs : d.step toValue a = some d') : ¬ d'.Stops := by
  cases a with
  | conn c a =>
    cases a with
    | write succeeds =>
      cases succeeds with
      | true => exact absurd trivial ha
      | false =>
        simp only [Announceable, not_forall] at ha
        obtain ⟨conn, request, response, next, locked, hc, hpc, hn, hu⟩ := ha
        obtain ⟨conn₀, shared, conn', hc₀, hstep, rfl⟩ := conn_cases hs
        cases hc.symm.trans hc₀
        have hok := hl.pcs c conn hc
        rw [hpc] at hok
        simp only [PcOk, hn, if_true] at hok
        obtain ⟨rfl, hst⟩ := hok
        cases Conn.step_moves hstep with
        | unanswered q r n l store hpc' =>
          cases hpc.symm.trans hpc'
          exact fun hstops => hu (hstops hst rfl)
        | unrelayed n e hpc' => cases hpc.symm.trans hpc'
        | unreplayed n id e rest f hpc' => cases hpc.symm.trans hpc'
    | _ => exact absurd trivial ha
  | _ => exact absurd trivial ha

/-- **A stopping daemon is really stopping**, exactly when no announcement is lost. In a run of
the daemon, every state reached with `stopping` set and the lifecycle lock free has the
shutdown under way, if and only if no write fails that announces a shutdown while none is
under way. -/
theorem stops_iff (toValue : P → Except String Value) (acts : List (Act P)) (d : Daemon)
    (h : exec (step toValue) init acts = some d) :
    (∀ ms ls m, acts = ms ++ ls → exec (step toValue) init ms = some m → m.Stops) ↔
      Along (step toValue) Announceable init acts := by
  constructor
  · intro hall
    rw [along_iff]
    intro ms a rest m he hm
    by_contra ha
    obtain ⟨n, hn, hrest⟩ := exec_append_some.1 (he ▸ h)
    cases hm.symm.trans hn
    obtain ⟨m', hm', -⟩ := exec_cons_some.1 hrest
    refine not_stops_of_unannounced (lifecycle_exec hm) ha hm' ?_
    exact hall (ms ++ [a]) rest m' (by simp [he])
      (exec_append_some.2 ⟨m, hm, exec_single.2 hm'⟩)
  · intro hal ms ls m he hm
    rw [he, along_append hm] at hal
    have hf : m.Followed := exec_inv (I := Followed) (fun _ _ _ hi ha hs => hi.step ha hs)
      (fun hs => by simp [init, Shared.init] at hs) hal.1 hm
    exact hf.stops (lifecycle_exec hm)

/-- With a drain task at work, a second shutdown's answer cannot be written. -/
def announcedThenLost : List (Act Unit) :=
  [.accept 0, .conn 0 (.receive (.frame ⟨1, .hello "first" ⟨0, 4⟩⟩)), .conn 0 (.write true),
   .conn 0 (.receive (.frame ⟨2, .shutdown .terminate⟩)), .conn 0 (.handle .nothing),
   .conn 0 (.check 0), .conn 0 (.write true),
   .accept 1, .conn 1 (.receive (.frame ⟨1, .hello "second" ⟨0, 3⟩⟩)), .conn 1 (.write true),
   .conn 1 (.receive (.frame ⟨2, .shutdownIfIdle⟩)), .conn 1 (.handle .nothing),
   .conn 1 (.check 1), .conn 1 (.write false)]

theorem stops_iff_announcedThenLost :
    ∃ d : Daemon, exec (step fun _ => .ok .null) init announcedThenLost = some d ∧
      d.shared.stopping = true ∧ d.shared.holder = none ∧ d.Stops := by
  have h : (exec (step fun _ => .ok .null) init announcedThenLost).map (fun d =>
      (d.shared.stopping, d.shared.holder)) = some (true, none) := by decide +kernel
  have h₀ : (exec (step fun _ => .ok .null) init (announcedThenLost.take 13)).map (fun d =>
      d.shared.drains[0]?) = some (some .cancelling) := by decide +kernel
  obtain ⟨d, hd, h⟩ := Option.map_eq_some_iff.1 h
  obtain ⟨d₀, hd₀, h₀⟩ := Option.map_eq_some_iff.1 h₀
  obtain ⟨hs, hf⟩ := Prod.mk.inj h
  refine ⟨d, hd, hs, hf, (stops_iff _ announcedThenLost d hd).2 ?_ _ [] d
    (List.append_nil _).symm hd⟩
  -- The one write that fails does so while the first shutdown is under way.
  rw [show announcedThenLost = announcedThenLost.take 13 ++ [.conn 1 (.write false)] from rfl,
    along_append hd₀]
  refine ⟨?_, fun _ _ _ _ _ _ _ _ => .inr ⟨0, _, h₀⟩, fun _ _ => trivial⟩
  rw [along_iff]
  intro ms a rest m he _
  have hw : ∀ b ∈ announcedThenLost.take 13, ∀ c, b ≠ .conn c (.write false) := by
    intro b hb c hc
    subst hc
    simp [announcedThenLost] at hb
  have ha := hw a (he ▸ by simp)
  unfold Announceable
  split
  · rename_i c; exact absurd rfl (ha c)
  · trivial

/-- The answer to a shutdown of an idle daemon cannot be written. -/
def lostAnnouncement : List (Act Unit) :=
  [.accept 0, .conn 0 (.receive (.frame ⟨1, .hello "first" ⟨0, 4⟩⟩)), .conn 0 (.write true),
   .conn 0 (.receive (.frame ⟨2, .shutdownIfIdle⟩)), .conn 0 (.handle .nothing),
   .conn 0 (.check 0), .conn 0 (.write false)]

theorem stops_lostAnnouncement :
    ∃ d : Daemon, exec (step fun _ => .ok .null) init lostAnnouncement = some d ∧ ¬ d.Stops := by
  have h : (exec (step fun _ => .ok .null) init lostAnnouncement).map (fun d =>
      (d.shared.stopping, d.shared.holder, d.shared.shutdown, d.shared.drains.isEmpty)) =
      some (true, none, false, true) := by decide +kernel
  obtain ⟨d, hd, h⟩ := Option.map_eq_some_iff.1 h
  simp only [Prod.mk.injEq] at h
  obtain ⟨hs, hf, hd', he⟩ := h
  refine ⟨d, hd, fun hstops => ?_⟩
  rcases hstops hs hf with hu | ⟨c, drain, hc⟩
  · cases hu.symm.trans hd'
  · simp [ExtTreeMap.isEmpty_iff.1 he] at hc

end Daemon

end AgencyProxy
