import AgencyProxy.Daemon.Shutdown
import AgencyProxy.Runtime.Cancel

/-!
# A terminating shutdown

`cancel_all` runs in the drain task, after the lifecycle lock was released. No run escapes it
all the same: `stopping` is set and no `start` is in flight when the drain task is spawned, so
no run is inserted from then on, and the runs that the sweep passes over have ended or had
their sender taken before.
-/

namespace AgencyProxy

open AgencyProxy.Runtime Std Lts

namespace Daemon

variable {P : Type} {toValue : P → Except String Value} {d d' : Daemon} {r r' : Registry}

/-- The sender of every run that has not ended was consumed. -/
def Swept (r : Registry) : Prop :=
  ∀ (id : RunId) (run : LiveRun), r.store.runs[id]? = some run → run.isActive = true →
    r.consumed id ≠ []

/-- `cancel_all` leaves no sender to an active run. -/
theorem swept_cancelAll (h : r.Cancels) (hs : r.cancelAll = some r') : Swept r' := by
  intro id run' hr' hact
  have hruns : ∃ run, r.store.runs[id]? = some run := by
    obtain ⟨-, rfl⟩ := Registry.cancelAll_cases hs
    rw [ExtTreeMap.getElem?_map] at hr'
    obtain ⟨run, hr, -⟩ := Option.map_eq_some_iff.1 hr'
    exact ⟨run, hr⟩
  obtain ⟨run, hr⟩ := hruns
  obtain ⟨htaken, hleft⟩ := h.cancelAll_run hs hr
  by_cases hc : run.isActive = true ∧ r.consumed id = []
  · rw [(htaken hc).2.1]
    simp
  · obtain ⟨hsame, hcon, -⟩ := hleft hc
    cases hsame.symm.trans hr'
    rw [hcon]
    exact fun hn => hc ⟨hact, hn⟩

/-- While no `start` is in flight, a step of the registry brings no sender back. -/
theorem Swept.step {a : Registry.Act P} (h : Swept r) (hi : r.Inv)
    (hset : ∀ (k : Nat) (call : StartCall), r.starts[k]? = some call → call.settled = true)
    (hs : r.step toValue a = some r') : Swept r' := by
  intro id run' hr' hact
  refine Registry.consumed_step hs ?_
  obtain ⟨run, hr, hst | ⟨p, last, ht⟩⟩ := Registry.step_run_back hs hset hr'
  · exact h id run hr (by rw [LiveRun.isActive, ← hst]; exact hact)
  · -- A run whose task publishes had not ended before either.
    have hok : Registry.TaskOk (some (.publishing p last)) run _ := ht ▸ hi.runs id run hr
    exact h id run hr hok.1

theorem Swept.clients (total : ∀ p, ∃ v, toValue p = .ok v) (h : Swept r) (hi : r.Inv)
    (hset : ∀ (k : Nat) (call : StartCall), r.starts[k]? = some call → call.settled = true)
    (hc : ByClients toValue r r') : Swept r' := by
  obtain ⟨ks, hk, hex⟩ := hc
  induction ks generalizing r with
  | nil => cases hex; exact h
  | cons a ks ih =>
    obtain ⟨m, hm, hex⟩ := exec_cons_some.1 hex
    have hcalm := Registry.client_calm (hk a List.mem_cons_self) hm
    refine ih (h.step hi hset hm) (hi.step (Registry.serialises_of_total total a) hm) ?_
      (fun b hb => hk b (List.mem_cons_of_mem _ hb)) hex
    rw [hcalm.starts]
    exact hset

/-- One step of a stopping daemon. -/
theorem Lifecycle.swept_step {a : Act P} (total : ∀ p, ∃ v, toValue p = .ok v)
    (hl : d.Lifecycle) (hst : d.shared.stopping = true) (hi : d.shared.registry.Inv)
    (h : Swept d.shared.registry) (hs : d.step toValue a = some d') :
    Swept d'.shared.registry := by
  have hset : ∀ (k : Nat) (call : StartCall), d.shared.registry.starts[k]? = some call →
      call.settled = true := fun k call => hl.settled hst
  cases a with
  | accept c => obtain ⟨-, rfl⟩ := accept_cases hs; exact h
  | conn c a =>
    obtain ⟨conn, shared, conn', hc, hstep, rfl⟩ := conn_cases hs
    obtain ⟨k, id, hcall⟩ | ⟨request, k, id, spec, -, hopen, -⟩ | hcl :=
      moves_registry toValue (Conn.step_moves hstep)
    · have hstep : d.shared.registry.step toValue (.cancelCall k id) = some shared.registry := hcall
      exact h.step hi hset hstep
    · rw [hst] at hopen; cases hopen
    · exact h.clients total hi hset hcl
  | registry a =>
    obtain ⟨-, registry, hstep, rfl⟩ := registry_cases hs
    exact h.step hi hset hstep
  | drain c =>
    obtain ⟨registry, -, hr, rfl⟩ | ⟨-, -, rfl⟩ | ⟨-, rfl⟩ := drain_cases hs
    · have hstep : d.shared.registry.step toValue .cancelAll = some registry := hr
      exact h.step hi hset hstep
    · exact h
    · exact h
  | stop result => obtain ⟨-, rfl⟩ := stop_cases hs; exact h

/-- What holds of the lifecycle and the registry in every run. -/
structure Steady (d : Daemon) : Prop where
  lifecycle : d.Lifecycle
  inv : d.shared.registry.Inv
  cancels : d.shared.registry.Cancels

theorem Steady.step {a : Act P} (total : ∀ p, ∃ v, toValue p = .ok v) (h : d.Steady)
    (hs : d.step toValue a = some d') : d'.Steady := by
  obtain ⟨ks, hk⟩ := step_registry hs
  exact ⟨h.lifecycle.step hs,
    Registry.inv_exec h.inv (fun a _ => Registry.serialises_of_total total a) hk,
    exec_inv' (fun _ _ _ hi hs => hi.step hs) h.cancels hk⟩

theorem steady_init : init.Steady :=
  ⟨lifecycle_init, Registry.inv_init, Registry.cancels_init⟩

theorem steady_exec {acts : List (Act P)} (total : ∀ p, ∃ v, toValue p = .ok v)
    (h : exec (step toValue) init acts = some d) : d.Steady :=
  exec_inv' (I := Steady) (fun _ _ _ hi hs => hi.step total hs) steady_init h

/-- **No run escapes a terminating shutdown.** Once the drain task of a terminating shutdown has
done its `cancel_all`, from then on every run of the registry that has not ended has had its
cancellation sender consumed. -/
theorem terminate_sweeps (toValue : P → Except String Value)
    (total : ∀ p, ∃ v, toValue p = .ok v) (acts later : List (Act P)) (c : Nat)
    (d d₁ d₂ : Daemon) (h : exec (step toValue) init acts = some d)
    (hd : d.shared.drains[c]? = some .cancelling) (h₁ : d.step toValue (.drain c) = some d₁)
    (h₂ : exec (step toValue) d₁ later = some d₂) (id : RunId) (run : LiveRun)
    (hr : d₂.shared.registry.store.runs[id]? = some run) (hact : run.isActive = true) :
    run.cancel = none ∧ d₂.shared.registry.consumed id ≠ [] := by
  have hs := steady_exec total h
  have hs₁ := hs.step total h₁
  have hswept : Swept d₁.shared.registry ∧ d₁.shared.stopping = true := by
    obtain ⟨registry, -, hc, rfl⟩ | ⟨hw, -⟩ | ⟨hw, -⟩ := drain_cases h₁
    · exact ⟨swept_cancelAll hs.cancels hc, hs.lifecycle.drains c _ hd⟩
    · cases hd.symm.trans hw
    · cases hd.symm.trans hw
  obtain ⟨hs₂, -, hsw⟩ : d₂.Steady ∧ d₂.shared.stopping = true ∧ Swept d₂.shared.registry := by
    refine exec_inv'
      (I := fun d => d.Steady ∧ d.shared.stopping = true ∧ Swept d.shared.registry)
      ?_ ⟨hs₁, hswept.2, hswept.1⟩ h₂
    rintro d a d' ⟨hi, hst, hsw⟩ hstep
    exact ⟨hi.step total hstep, (hi.lifecycle.closed_step hst hstep).1,
      hi.lifecycle.swept_step total hst hi.inv hsw hstep⟩
  have hcon := hsw id run hr hact
  refine ⟨?_, hcon⟩
  cases hcan : run.cancel with
  | none => rfl
  | some u => exact absurd ((hs₂.cancels.sender id run hr).1 hcan) hcon

/-- One client starts a run; another asks for a terminating shutdown before it has ended. -/
def terminatedRuns : List (Act Unit) :=
  [.accept 0, .conn 0 (.receive (.frame ⟨1, .hello "first" ⟨0, 4⟩⟩)), .conn 0 (.write true),
   .conn 0 (.receive (.frame ⟨2, .startRun ⟨"r"⟩ plainRequest "key"⟩)), .conn 0 (.handle .nothing),
   .conn 0 (.check 0), .registry (.startCheck 0), .registry (.startLaunch 0 (.ok ())),
   .registry (.startInsert 0), .registry (.startCount 0), .registry (.startSpawn 0),
   .conn 0 .started, .conn 0 (.write true),
   .accept 1, .conn 1 (.receive (.frame ⟨1, .hello "second" ⟨0, 3⟩⟩)), .conn 1 (.write true),
   .conn 1 (.receive (.frame ⟨2, .shutdown .terminate⟩)), .conn 1 (.handle .nothing),
   .conn 1 (.check 1), .conn 1 (.write true)]

theorem terminate_sweeps_terminatedRuns :
    ∃ (d d₁ : Daemon) (run : LiveRun),
      exec (step fun _ => .ok .null) init terminatedRuns = some d ∧
      d.step (fun _ => .ok .null) (.drain 1 : Act Unit) = some d₁ ∧
      d₁.shared.registry.store.runs[RunId.mk "r"]? = some run ∧ run.isActive = true ∧
      run.cancel = none ∧ d₁.shared.registry.consumed ⟨"r"⟩ ≠ [] := by
  have h : (exec (step fun _ => .ok .null) init terminatedRuns).bind (fun d =>
      (d.step (fun _ => .ok .null) (.drain 1 : Act Unit)).bind fun d₁ =>
        (d₁.shared.registry.store.runs[RunId.mk "r"]?).map fun run =>
          (d.shared.drains[1]?, run.isActive)) =
      some (some .cancelling, true) := by decide +kernel
  obtain ⟨d, hd, h⟩ := Option.bind_eq_some_iff.1 h
  obtain ⟨d₁, hd₁, h⟩ := Option.bind_eq_some_iff.1 h
  obtain ⟨run, hr, h⟩ := Option.map_eq_some_iff.1 h
  simp only [Prod.mk.injEq] at h
  exact ⟨d, d₁, run, hd, hd₁, hr, h.2,
    terminate_sweeps _ (fun _ => ⟨_, rfl⟩) terminatedRuns [] 1 d d₁ d₁ hd h.1 hd₁ rfl _ run hr h.2⟩

end Daemon

end AgencyProxy
