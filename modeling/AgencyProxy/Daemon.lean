import AgencyProxy.Connection.Moves
import AgencyProxy.Runtime.Activity

/-!
# The daemon

`ProxyServer` with any number of connections, the run tasks of its registry, and the drain
tasks of accepted shutdowns. The connections are the only callers of `start`; every other
operation on the registry may also come from elsewhere.

`registry_exec` projects a run of the daemon onto a run of its registry, so that what holds
in every run of the registry holds here.
-/

namespace AgencyProxy

open AgencyProxy.Runtime Std Lts

structure Daemon where
  shared : Shared
  conns : ExtTreeMap Nat Conn
  /-- What `serve` has returned, once it has. -/
  served : Option (Except String Unit)

namespace Daemon

def init : Daemon := ⟨.init, ∅, none⟩

inductive Act (P : Type) where
  | accept (c : Nat)
  | conn (c : Nat) (a : Conn.Act)
  /-- A step of a run task, of a call in progress, or of another caller. -/
  | registry (a : Registry.Act P)
  | drain (c : Nat)
  /-- `serve` returns; with an error where an accept has failed. -/
  | stop (result : Except String Unit)

/-- A call of `start` begins. -/
def startsRun {P : Type} : Registry.Act P → Bool
  | .startCall _ _ _ => true
  | _ => false

/-- The drain task of the connection `c`. -/
def drain (s : Shared) (c : Nat) : Option Shared :=
  match s.drains[c]? with
  | some .cancelling =>
    s.registry.cancelAll.map fun registry =>
      { s with registry, drains := s.drains.insert c .waiting }
  | some .waiting =>
    if s.registry.active = 0 then some { s with drains := s.drains.insert c .setting } else none
  | some .setting => some { s with shutdown := true, drains := s.drains.insert c .done }
  | _ => none

/-- `serve` polls the shutdown flag before it accepts, and an accept that fails ends it at once. -/
def step {P : Type} (toValue : P → Except String Value) (d : Daemon) : Act P → Option Daemon
  | .accept c =>
    if d.served.isNone && !d.shared.shutdown && !d.conns.contains c then
      some { d with conns := d.conns.insert c .init }
    else none
  | .conn c a =>
    match d.conns[c]? with
    | some conn =>
      (conn.step d.shared c a).map fun (shared, conn) =>
        { d with shared, conns := d.conns.insert c conn }
    | none => none
  | .registry a =>
    if startsRun a then none
    else (d.shared.registry.step toValue a).map fun registry =>
      { d with shared := { d.shared with registry } }
  | .drain c => (drain d.shared c).map fun shared => { d with shared }
  | .stop result =>
    if d.served.isNone && d.shared.shutdown == result.isOk then
      some { d with served := some result }
    else none

/-! ## What each step does -/

section Cases

variable {P : Type} {toValue : P → Except String Value} {d d' : Daemon} {c : Nat}

theorem accept_cases (h : d.step toValue (.accept c) = some d') :
    d.conns[c]? = none ∧ d' = { d with conns := d.conns.insert c .init } := by
  simp only [step] at h
  split at h
  · rename_i hg
    cases h
    simp only [Bool.and_eq_true, Bool.not_eq_true'] at hg
    refine ⟨?_, rfl⟩
    rw [← Option.isNone_iff_eq_none, ← Option.not_isSome, ← ExtTreeMap.contains_eq_isSome_getElem?,
      hg.2]
    rfl
  · cases h

theorem conn_cases {a : Conn.Act} (h : d.step toValue (.conn c a) = some d') :
    ∃ conn shared conn', d.conns[c]? = some conn ∧
      conn.step d.shared c a = some (shared, conn') ∧
      d' = { d with shared, conns := d.conns.insert c conn' } := by
  simp only [step] at h
  split at h
  · rename_i conn hc
    obtain ⟨⟨shared, conn'⟩, hs, he⟩ := Option.map_eq_some_iff.1 h
    exact ⟨conn, shared, conn', hc, hs, he.symm⟩
  · cases h

theorem registry_cases {a : Registry.Act P} (h : d.step toValue (.registry a) = some d') :
    startsRun a = false ∧ ∃ registry, d.shared.registry.step toValue a = some registry ∧
      d' = { d with shared := { d.shared with registry } } := by
  simp only [step] at h
  split at h
  · cases h
  · rename_i hg
    obtain ⟨registry, hs, he⟩ := Option.map_eq_some_iff.1 h
    exact ⟨by simpa using hg, registry, hs, he.symm⟩

theorem drain_cases (h : d.step toValue (.drain c) = some d') :
    (∃ registry, d.shared.drains[c]? = some .cancelling ∧
      d.shared.registry.cancelAll = some registry ∧
      d' = { d with
        shared := { d.shared with registry, drains := d.shared.drains.insert c .waiting } }) ∨
    (d.shared.drains[c]? = some .waiting ∧ d.shared.registry.active = 0 ∧
      d' = { d with
        shared := { d.shared with drains := d.shared.drains.insert c .setting } }) ∨
    (d.shared.drains[c]? = some .setting ∧
      d' = { d with
        shared := { d.shared with
          shutdown := true, drains := d.shared.drains.insert c .done } }) := by
  obtain ⟨shared, hs, rfl⟩ := Option.map_eq_some_iff.1 h
  unfold drain at hs
  split at hs
  · rename_i hd
    obtain ⟨registry, hr, rfl⟩ := Option.map_eq_some_iff.1 hs
    exact .inl ⟨registry, hd, hr, rfl⟩
  · rename_i hd
    split at hs
    · rename_i ha; cases hs; exact .inr (.inl ⟨hd, ha, rfl⟩)
    · cases hs
  · rename_i hd; cases hs; exact .inr (.inr ⟨hd, rfl⟩)
  · cases hs

theorem stop_cases {result : Except String Unit} (h : d.step toValue (.stop result) = some d') :
    (result = .ok () → d.shared.shutdown = true) ∧ d' = { d with served := some result } := by
  simp only [step] at h
  split at h
  · rename_i hg
    cases h
    simp only [Bool.and_eq_true, beq_iff_eq] at hg
    refine ⟨?_, rfl⟩
    rintro rfl
    exact hg.2
  · cases h

end Cases

/-! ## Down to the registry -/

/-- The registry gets from `r` to `r'` by operations of clients. -/
def ByClients {P : Type} (toValue : P → Except String Value) (r r' : Registry) : Prop :=
  ∃ ks : List (Registry.Act P), (∀ a ∈ ks, a.isClient = true) ∧
    exec (Registry.step toValue) r ks = some r'

section Project

variable {P : Type} {toValue : P → Except String Value} {r r' : Registry} {id : RunId}

theorem ByClients.refl : ByClients toValue r r := ⟨[], by simp, rfl⟩

theorem ByClients.single {a : Registry.Act P} (ha : a.isClient = true)
    (h : r.step toValue a = some r') : ByClients toValue r r' :=
  ⟨[a], by simpa using ha, exec_single.2 h⟩

theorem ByClients.calm (h : ByClients toValue r r') : r.Calm r' := by
  obtain ⟨ks, hk, h⟩ := h
  exact Registry.client_exec hk h

theorem byClients_drop : ByClients toValue r { r with store := r.store.dropReceiver id } :=
  .single (a := .dropReceiver id) rfl rfl

theorem byClients_close (f : Forwarder) :
    ByClients toValue r { r with store := (Forwarder.close r.store id f).store } := by
  unfold Forwarder.close
  split
  · exact byClients_drop
  · exact byClients_drop
  · exact ⟨[.dropReceiver id, .dropReceiver id], by simp [Registry.Act.isClient], rfl⟩
  · exact .refl

theorem byClients_emit {f : Forwarder} {event : SequencedEvent} {accepts : Bool} :
    ByClients toValue r
      { r with store := (Forwarder.emit r.store id f event accepts).store } := by
  cases accepts with
  | true => exact .refl
  | false => exact byClients_close _

theorem byClients_attach {after : Nat} {attachment : Attachment} {store : Store}
    (hl : r.lock = .free) (h : r.store.attach id after = .ok (attachment, store)) :
    ByClients toValue r { r with store } := by
  refine .single (a := .attach id after) rfl ?_
  simp only [Registry.step, Registry.attach, hl, h]

theorem byClients_recv {f : Forwarder} {accepts : Bool} {st : Forwarder.Stepped}
    (h : Forwarder.recv r.store id f accepts = some st) :
    ByClients toValue r { r with store := st.store } := by
  unfold Forwarder.recv at h
  split at h
  · cases h
  · split at h
    · cases h; exact .refl
    · split at h
      · cases h; exact .refl
      · cases h; exact byClients_emit
    · cases h; exact .refl
    · cases h; exact byClients_close _

theorem byClients_reattach {f : Forwarder} (hl : r.lock = .free) :
    ByClients toValue r { r with store := (Forwarder.reattach r.store id f).store } := by
  unfold Forwarder.reattach
  split
  · rename_i attachment store ha
    exact byClients_attach hl ha
  · exact byClients_close _

theorem byClients_forward {f : Forwarder} {act : Forwarder.Act} {st : Forwarder.Stepped}
    (hl : r.lock = .free ∨ f.phase ≠ .lagged) (h : unixForward r.store id f act = some st) :
    ByClients toValue r { r with store := st.store } := by
  cases act with
  | recv accepts =>
    simp only [unixForward] at h
    split at h
    · exact byClients_recv h
    · cases h
  | reattach =>
    simp only [unixForward] at h
    split at h
    · rename_i hp
      cases h
      exact byClients_reattach (hl.resolve_right (by simp [hp]))
    · cases h
  | replay accepts =>
    simp only [unixForward] at h
    split at h
    · cases h; exact byClients_emit
    · cases h; exact byClients_drop
    · cases h

theorem byClients_forwardRunEvents {f : Forwarder} {act : Forwarder.Act} {st : Forwarder.Stepped}
    (hl : r.lock = .free ∨ f.phase ≠ .lagged) (h : forwardRunEvents r.store id f act = some st) :
    ByClients toValue r { r with store := st.store } := by
  cases act with
  | recv accepts =>
    simp only [forwardRunEvents] at h
    split at h
    · exact byClients_recv h
    · cases h
  | reattach =>
    simp only [forwardRunEvents] at h
    split at h
    · rename_i hp
      cases h
      exact byClients_reattach (hl.resolve_right (by simp [hp]))
    · cases h
  | replay accepts =>
    simp only [forwardRunEvents] at h
    split at h
    · split at h
      · cases h; exact .refl
      · cases h; exact byClients_emit
    · cases h; exact byClients_drop
    · cases h

end Project

variable {P : Type} {toValue : P → Except String Value} {d d' : Daemon}

theorem release_registry (s : Shared) (locked : Bool) :
    (s.release locked).registry = s.registry := by
  unfold Shared.release; split <;> rfl

theorem proceed_registry (s : Shared) (c : Nat) (conn : Conn) (locked : Bool) (next : Next) :
    (conn.proceed s c locked next).1.registry = s.registry := by
  cases next <;> simp [Conn.proceed, release_registry]

/-- What a connection does to the registry: it begins a call, or acts as a client. -/
theorem moves_registry (toValue : P → Except String Value) {s s' : Shared} {c : Nat}
    {conn conn' : Conn} {a : Conn.Act} (h : Conn.Moves s c conn a s' conn') :
    (∃ k id, s.registry.cancelCall k id = some s'.registry) ∨
    (∃ request k id spec, conn'.pc = .starting request k ∧ s.stopping = false ∧
      s.registry.startCall k id spec = some s'.registry) ∨
    ByClients toValue s.registry s'.registry := by
  cases h with
  | cancel request id key k registry _ _ hc => exact .inl ⟨k, id, hc⟩
  | launch k request id spec key registry _ _ hs hc =>
    exact .inr (.inl ⟨request, k, id, spec, rfl, hs, hc⟩)
  | acknowledge request id through store _ _ hl ha =>
    refine .inr (.inr (.single (a := .acknowledge id through) rfl ?_))
    simp only [Registry.step, Registry.acknowledge, hl, ha, Shared.withStore]
  | attach request id after attachment store _ _ hl ha =>
    exact .inr (.inr (byClients_attach hl ha))
  | wrote request response next locked =>
    rw [proceed_registry]
    exact .inr (.inr .refl)
  | unanswered request response next locked store _ hd =>
    simp only [Shared.withStore, release_registry]
    rcases hd with rfl | ⟨id, after, attachment, -, rfl⟩
    · exact .inr (.inr .refl)
    · exact .inr (.inr byClients_drop)
  | unreplayed n id => exact .inr (.inr byClients_drop)
  | forward n task stepped _ _ hl ho => exact .inr (.inr (byClients_forward hl ho))
  | reap n task => exact .inr (.inr (byClients_close _))
  | _ => exact .inr (.inr .refl)

theorem step_registry {a : Act P} (h : d.step toValue a = some d') :
    ∃ ks : List (Registry.Act P), exec (Registry.step toValue) d.shared.registry ks =
      some d'.shared.registry := by
  cases a with
  | accept c => obtain ⟨-, rfl⟩ := accept_cases h; exact ⟨[], rfl⟩
  | conn c a =>
    obtain ⟨conn, shared, conn', -, hs, rfl⟩ := conn_cases h
    obtain ⟨k, id, hc⟩ | ⟨request, k, id, spec, -, -, hc⟩ | ⟨ks, -, hk⟩ :=
      moves_registry toValue (Conn.step_moves hs)
    · exact ⟨[.cancelCall k id], exec_single.2 hc⟩
    · exact ⟨[.startCall k id spec], exec_single.2 hc⟩
    · exact ⟨ks, hk⟩
  | registry a =>
    obtain ⟨-, registry, hs, rfl⟩ := registry_cases h
    exact ⟨[a], exec_single.2 hs⟩
  | drain c =>
    obtain ⟨registry, -, hr, rfl⟩ | ⟨-, -, rfl⟩ | ⟨-, rfl⟩ := drain_cases h
    · exact ⟨[.cancelAll], exec_single.2 hr⟩
    · exact ⟨[], rfl⟩
    · exact ⟨[], rfl⟩
  | stop result => obtain ⟨-, rfl⟩ := stop_cases h; exact ⟨[], rfl⟩

/-- **Projection**: the registry of a daemon takes a run of its own. -/
theorem registry_exec {acts : List (Act P)} (h : exec (step toValue) init acts = some d) :
    ∃ ks : List (Registry.Act P), exec (Registry.step toValue) .init ks =
      some d.shared.registry :=
  exec_project (fun d : Daemon => d.shared.registry) (fun _ _ _ hs => step_registry hs) h

/-- **Invariant rule** for connections: what a fresh one has and each of its steps keeps, every
connection has. A step may use what is known of the shared state. -/
theorem conns_exec {G : Shared → Prop} {I : Conn → Prop}
    (good : ∀ (ms : List (Act P)) (m : Daemon), exec (step toValue) init ms = some m → G m.shared)
    (fresh : I .init)
    (keep : ∀ (s s' : Shared) (c : Nat) (conn conn' : Conn) (a : Conn.Act),
      G s → I conn → Conn.Moves s c conn a s' conn' → I conn')
    {acts : List (Act P)} (h : exec (step toValue) init acts = some d) {c : Nat} {conn : Conn}
    (hc : d.conns[c]? = some conn) : I conn := by
  have hall : ∀ (c : Nat) (conn : Conn), d.conns[c]? = some conn → I conn := by
    refine exec_inv_reachable (C := fun _ _ => True)
      (I := fun d => ∀ (c : Nat) (conn : Conn), d.conns[c]? = some conn → I conn)
      (fun ms d a d' hm hi _ hs => ?_) (fun c conn hc => by simp [init] at hc)
      (along_of_forall (fun _ _ => trivial) _ _) h
    intro c' conn' hc'
    cases a with
    | accept c =>
      obtain ⟨-, rfl⟩ := accept_cases hs
      rcases ExtTreeMap.getElem?_insert_some.1 hc' with ⟨-, rfl⟩ | ⟨-, hc'⟩
      · exact fresh
      · exact hi c' conn' hc'
    | conn c a =>
      obtain ⟨conn, shared, conn₁, hc, hstep, rfl⟩ := conn_cases hs
      rcases ExtTreeMap.getElem?_insert_some.1 hc' with ⟨-, rfl⟩ | ⟨-, hc'⟩
      · exact keep _ _ c conn _ a (good ms d hm) (hi c conn hc) (Conn.step_moves hstep)
      · exact hi c' conn' hc'
    | registry a => obtain ⟨-, registry, -, rfl⟩ := registry_cases hs; exact hi c' conn' hc'
    | drain c =>
      obtain ⟨registry, -, -, rfl⟩ | ⟨-, -, rfl⟩ | ⟨-, rfl⟩ := drain_cases hs
      all_goals exact hi c' conn' hc'
    | stop result => obtain ⟨-, rfl⟩ := stop_cases hs; exact hi c' conn' hc'
  exact hall c conn hc

end Daemon

end AgencyProxy
