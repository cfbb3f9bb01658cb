import AgencyProxy.Daemon.Lifecycle
import AgencyProxy.Runtime.Launches

/-!
# Launches under the lifecycle lock

`StartRun` of the socket holds the lifecycle lock across `registry.start`, so that no two calls of
`start` are in flight at once. Every launch of the daemon is then clear, and no run id is launched
twice, whatever its clients send and in whatever order.
-/

namespace AgencyProxy

open AgencyProxy.Runtime Std Lts

/-! ## Starts that come one after another -/

namespace Runtime.Registry

variable {P : Type} {toValue : P → Except String Value} {r r' : Registry}

/-- No two calls of `start` are in flight at once. -/
def Alone (r : Registry) : Prop :=
  ∀ (k k' : Nat) (call call' : StartCall), r.starts[k]? = some call →
    r.starts[k']? = some call' → call.settled = false → call'.settled = false → k = k'

/-- What a call is about to launch is not there. -/
def Unlaunched (r : Registry) : Prop :=
  ∀ (k : Nat) (id : RunId) (spec : RunRequest), r.starts[k]? = some (.launching id spec) →
    r.store.runs[id]? = none

theorem Alone.clear (h : r.Alone) (hu : r.Unlaunched) (a : Act P) : r.Clear a := by
  intro id hid
  obtain ⟨k, launched, spec, rfl, hk⟩ := launches_eq_some hid
  refine isFree_iff.mpr ⟨hu k id spec hk, fun k' spec' hk' => ?_⟩
  obtain rfl := h k k' _ _ hk hk' rfl rfl
  cases hk.symm.trans hk'

/-- A call goes to a place that is not its launch, or to the launch of a run that is not there. -/
theorem Unlaunched.goto (h : r.Unlaunched) {k : Nat} {call' : StartCall}
    (hto : ∀ id spec, call' = .launching id spec → r.store.runs[id]? = none)
    (hstarts : r'.starts = r.starts.insert k call') (hfound : r'.store.runs = r.store.runs) :
    r'.Unlaunched := by
  intro k' id spec hk'
  rw [hstarts] at hk'
  rw [hfound]
  rcases ExtTreeMap.getElem?_insert_some.mp hk' with ⟨-, hcall⟩ | ⟨-, hk'⟩
  · exact hto id spec hcall
  · exact h k' id spec hk'

theorem Unlaunched.other {a : Act P} (h : r.Unlaunched) (ha : a.startOf = none)
    (hs : r.step toValue a = some r') : r'.Unlaunched := by
  intro k id spec hk
  rw [starts_other ha hs] at hk
  by_contra hne
  exact found_back (fun k he => by rw [he] at ha; cases ha) hs hne (h k id spec hk)

/-- A call that inserts a run is alone, so that no other is about to launch that run. -/
theorem Unlaunched.step {a : Act P} (h : r.Unlaunched) (hone : r.Alone)
    (hs : r.step toValue a = some r') : r'.Unlaunched := by
  cases a with
  | startCall k id spec =>
    obtain ⟨-, rfl⟩ := startCall_cases hs
    exact h.goto (fun _ _ hc => by cases hc) rfl rfl
  | startCheck k =>
    obtain ⟨id, spec, call, -, -, rfl | ⟨hn, rfl⟩, rfl⟩ := startCheck_cases hs
    · exact h.goto (fun _ _ hc => by cases hc) rfl rfl
    · exact h.goto (fun _ _ hc => by cases hc; exact hn) rfl rfl
  | startLaunch k launched =>
    obtain ⟨id, spec, call, log, -, ⟨e, rfl⟩ | rfl, rfl⟩ := startLaunch_cases hs
    · exact h.goto (fun _ _ hc => by cases hc) rfl rfl
    · exact h.goto (fun _ _ hc => by cases hc) rfl rfl
  | startInsert k =>
    obtain ⟨id, spec, -, hk, ⟨-, rfl⟩ | ⟨-, rfl⟩⟩ := startInsert_cases hs
    · exact h.goto (fun _ _ hc => by cases hc) rfl rfl
    · intro k' id' spec' hk'
      rcases ExtTreeMap.getElem?_insert_some.mp hk' with ⟨-, hcall⟩ | ⟨hne, hk'⟩
      · cases hcall
      · exact absurd (hone k k' _ _ hk hk' rfl rfl) hne
  | startCount k =>
    obtain ⟨id, -, rfl⟩ := startCount_cases hs
    exact h.goto (fun _ _ hc => by cases hc) rfl rfl
  | startSpawn k =>
    obtain ⟨id, -, rfl⟩ := startSpawn_cases hs
    exact h.goto (fun _ _ hc => by cases hc) rfl rfl
  | _ => exact h.other rfl hs

/-- What a registry has whose starts come one after another. -/
structure InTurn (r : Registry) : Prop where
  launches : r.Launches
  unlaunched : r.Unlaunched
  once : r.LaunchesOnce

theorem inTurn_init : init.InTurn :=
  ⟨launches_init, fun k id spec hk => by simp [init] at hk, launchesOnce_init⟩

theorem InTurn.step {a : Act P} (h : r.InTurn) (hone : r.Alone)
    (hs : r.step toValue a = some r') : r'.InTurn where
  launches := h.launches.step hs
  unlaunched := h.unlaunched.step hone hs
  once := h.once.step h.launches (hone.clear h.unlaunched a) hs

theorem Alone.other {a : Act P} (h : r.Alone) (ha : a.startOf = none)
    (hs : r.step toValue a = some r') : r'.Alone := by
  unfold Alone
  rw [starts_other ha hs]
  exact h

end Runtime.Registry

namespace Daemon

variable {P : Type} {toValue : P → Except String Value} {d d' : Daemon}

/-- Each call in flight is of a connection that holds the lock. -/
theorem Lifecycle.alone (h : d.Lifecycle) : d.shared.registry.Alone := by
  intro k k' call call' hk hk' hu hu'
  obtain ⟨c, conn, request, hc, hpc⟩ := h.flights k call hk hu
  obtain ⟨c', conn', request', hc', hpc'⟩ := h.flights k' call' hk' hu'
  have hh : d.shared.holder = some c := (h.holder c conn hc).1 (by rw [hpc]; rfl)
  have hh' : d.shared.holder = some c' := (h.holder c' conn' hc').1 (by rw [hpc']; rfl)
  cases hh.symm.trans hh'
  cases hc.symm.trans hc'
  cases hpc.symm.trans hpc'
  rfl

/-- Steps of clients, one after another. -/
theorem ByClients.inTurn {r r' : Registry} (h : ByClients toValue r r') (hi : r.InTurn)
    (hone : r.Alone) : r'.InTurn := by
  obtain ⟨ks, hclient, hk⟩ := h
  have hboth : r'.InTurn ∧ r'.Alone :=
    exec_inv (I := fun r => r.InTurn ∧ r.Alone) (C := fun _ a => a.isClient = true)
      (fun r a r' hi ha hs => by
        have hstart : a.startOf = none := by cases a <;> first | rfl | cases ha
        exact ⟨hi.1.step hi.2 hs, hi.2.other hstart hs⟩)
      ⟨hi, hone⟩ (along_of_mem hclient r) hk
  exact hboth.1

theorem inTurn_step {a : Act P} (hl : d.Lifecycle) (h : d.shared.registry.InTurn)
    (hs : d.step toValue a = some d') : d'.shared.registry.InTurn := by
  cases a with
  | accept c => obtain ⟨-, rfl⟩ := accept_cases hs; exact h
  | conn c a =>
    obtain ⟨conn, shared, conn', -, hstep, rfl⟩ := conn_cases hs
    obtain ⟨k, id, hc⟩ | ⟨request, k, id, spec, -, -, hc⟩ | hby :=
      moves_registry toValue (Conn.step_moves hstep)
    · have hs : d.shared.registry.step toValue (.cancelCall k id) = some shared.registry := hc
      exact h.step hl.alone hs
    · have hs : d.shared.registry.step toValue (.startCall k id spec) = some shared.registry := hc
      exact h.step hl.alone hs
    · exact hby.inTurn h hl.alone
  | registry a =>
    obtain ⟨-, registry, hstep, rfl⟩ := registry_cases hs
    exact h.step hl.alone hstep
  | drain c =>
    obtain ⟨registry, -, hr, rfl⟩ | ⟨-, -, rfl⟩ | ⟨-, rfl⟩ := drain_cases hs
    · have hs : d.shared.registry.step toValue .cancelAll = some registry := hr
      exact h.step hl.alone hs
    · exact h
    · exact h
  | stop result => obtain ⟨-, rfl⟩ := stop_cases hs; exact h

/-- **One provider for each run id**, in every run of the daemon on its socket: no run id is
launched twice, and a `start` that was answered Conflict launched nothing. -/
theorem launchesOnce_exec {acts : List (Act P)} (h : exec (step toValue) init acts = some d) :
    d.shared.registry.LaunchesOnce :=
  (exec_inv' (I := fun d : Daemon => d.Lifecycle ∧ d.shared.registry.InTurn)
    (fun _ _ _ hi hs => ⟨hi.1.step hs, inTurn_step hi.1 hi.2 hs⟩)
    ⟨lifecycle_init, Registry.inTurn_init⟩ h).2.once

/-- One run is started on two connections; the second waits for the lock, then gets Conflict. -/
def startedTwice : List (Act Unit) :=
  [.accept 0, .conn 0 (.receive (.frame ⟨1, .hello "first" ⟨0, 4⟩⟩)), .conn 0 (.write true),
   .conn 0 (.receive (.frame ⟨2, .startRun ⟨"r"⟩ plainRequest "a"⟩)),
   .accept 1, .conn 1 (.receive (.frame ⟨1, .hello "second" ⟨0, 4⟩⟩)), .conn 1 (.write true),
   .conn 1 (.receive (.frame ⟨2, .startRun ⟨"r"⟩ plainRequest "b"⟩)),
   .conn 0 (.handle .nothing), .conn 0 (.check 0), .registry (.startCheck 0),
   .registry (.startLaunch 0 (.ok ())), .registry (.startInsert 0), .registry (.startCount 0),
   .registry (.startSpawn 0), .conn 0 .started, .conn 0 (.write true),
   .conn 1 (.handle .nothing), .conn 1 (.check 1), .registry (.startCheck 1),
   .conn 1 .started, .conn 1 (.write true)]

theorem launchesOnce_exec_startedTwice :
    ∃ d : Daemon, exec (step fun _ => .ok .null) init startedTwice = some d ∧
      d.shared.registry.launched = [(0, ⟨"r"⟩)] ∧ d.shared.registry.LaunchesOnce := by
  have h : (exec (step fun _ => .ok .null) init startedTwice).map
      (fun d => d.shared.registry.launched) = some [(0, ⟨"r"⟩)] := by decide +kernel
  obtain ⟨d, hd, hl⟩ := Option.map_eq_some_iff.1 h
  exact ⟨d, hd, hl, launchesOnce_exec hd⟩

end Daemon

end AgencyProxy
