import AgencyProxy.Daemon.Attachments

/-!
# Leaving a connection

`handle_connection` can return from many places. One of them, the end of the client's stream,
comes by the loop that aborts every forwarder in `attachments`; every other one drops the map
and leaves its forwarders to themselves. `Tracked` says that no forwarder is running but the
ones in the map, so that loop stops all of them, and another exit stops none.
-/

namespace AgencyProxy

open AgencyProxy.Runtime Std Lts

/-- Neither aborted nor at its end. -/
def Forward.isRunning (task : Forward) : Bool :=
  !task.aborted && match task.forwarder.phase with
    | .ended => false
    | _ => true

theorem Forward.isRunning_iff {task : Forward} :
    task.isRunning ↔ task.aborted = false ∧ task.forwarder.phase ≠ .ended := by
  unfold isRunning
  cases hp : task.forwarder.phase <;> simp

namespace Conn

/-- Every forwarder was aborted or has ended. -/
def Stopped (conn : Conn) : Prop :=
  ∀ (n : Nat) (task : Forward), conn.forwards[n]? = some task → task.isRunning = false

/-- The forwarders that are running are in `attachments`, at most one for a run. -/
structure Kept (conn : Conn) : Prop where
  listed : ∀ (n : Nat) (task : Forward), conn.forwards[n]? = some task → task.isRunning →
    conn.attachments[task.id]? = some n
  single : ∀ (n n' : Nat) (task task' : Forward), conn.forwards[n]? = some task →
    conn.forwards[n']? = some task' → task.isRunning → task'.isRunning → task.id = task'.id →
    n = n'

/-- No entry of `attachments` is of a forwarder that is running. -/
def unattended (conn : Conn) : Bool :=
  conn.attachments.toList.all fun p => !(conn.forwards[p.2]?).any Forward.isRunning

/-- The step is a `return` or a `?` of `handle_connection`. -/
def leaves (conn : Conn) : Act → Bool
  | .receive .undecodable | .receive .failed | .write false | .setShutdown => true
  | .receive .closed =>
    match conn.pc with
    | .opening => true
    | _ => false
  | .write true =>
    match conn.pc with
    | .answering _ _ .exit _ | .answering _ _ (.drain _) _ => true
    | _ => false
  | _ => false

variable {s s' : Shared} {c : Nat} {conn conn' : Conn}

theorem Tracked.kept (h : conn.Tracked) : conn.Kept := by
  have hlisted : ∀ (n : Nat) (task : Forward), conn.forwards[n]? = some task → task.isRunning →
      conn.attachments[task.id]? = some n :=
    fun n task hf hrun => h.held n task hf (Forward.isRunning_iff.1 hrun).1
  refine ⟨hlisted, fun n n' task task' hf hf' hrun hrun' hid => ?_⟩
  have hn := hlisted n task hf hrun
  rw [hid, hlisted n' task' hf' hrun'] at hn
  exact (Option.some.inj hn).symm

/-- Where the map has no forwarder that is running, there is none. -/
theorem Kept.stopped_iff (h : conn.Kept) : conn.Stopped ↔ conn.unattended = true := by
  rw [unattended, List.all_eq_true]
  constructor
  · rintro hstop ⟨id, n⟩ -
    cases hf : conn.forwards[n]? with
    | none => simp
    | some task => simp [hstop n task hf]
  · intro hall n task hf
    by_contra hrun
    have hrun : task.isRunning = true := by simpa using hrun
    have hmem := ExtTreeMap.mem_toList_iff_getElem?_eq_some.2 (h.listed n task hf hrun)
    have := hall _ hmem
    simp [hf, hrun] at this

/-- The loop at the end of `handle_connection` stops every forwarder. -/
theorem Kept.abortAll_stopped (h : conn.Kept) : conn.abortAll.Stopped := by
  intro n task hf
  simp only [abortAll, ExtTreeMap.getElem?_map] at hf
  obtain ⟨task₀, hf₀, rfl⟩ := Option.map_eq_some_iff.1 hf
  split
  · rfl
  · rename_i hn
    by_contra hrun
    exact hn (h.listed n task₀ hf₀ (by simpa using hrun))

/-- A task that moves is not started again. -/
theorem Stopped.task (h : conn.Stopped) {n : Nat} {task task' : Forward}
    {outbound : List (Nat × SequencedEvent)} (hf : conn.forwards[n]? = some task)
    (hrun : task'.isRunning → task.isRunning) :
    ({ conn with forwards := conn.forwards.insert n task', outbound } : Conn).Stopped := by
  refine ExtTreeMap.forall_insert h ?_
  by_contra hc
  have := h n task hf
  rw [hrun (by simpa using hc)] at this
  cases this

/-- A loop that has ended takes no step. -/
theorem unixForward_running {store : Store} {id : RunId} {f : Forwarder} {act : Forwarder.Act}
    {stepped : Forwarder.Stepped} (h : unixForward store id f act = some stepped) :
    f.phase ≠ .ended := by
  intro hp
  cases act <;> simp [unixForward, hp] at h

/-- What leaves leaves the forwarders as they are. -/
theorem Moves.left {a : Act} (h : Moves s c conn a s' conn') (hl : conn.leaves a = true) :
    conn'.isOpen = false ∧ conn'.forwards = conn.forwards := by
  cases h with
  | hangUp | undecodable | unreadable | unanswered | unrelayed | unreplayed | setShutdown =>
    exact ⟨rfl, rfl⟩
  | close pc => simp [leaves, pc] at hl
  | wrote request response next locked pc =>
    cases next with
    | exit | drain => exact ⟨rfl, rfl⟩
    | loop | replay | setShutdown => simp [leaves, pc] at hl
  | relayed n event pc => simp [leaves, pc] at hl
  | replayed n id event rest forwarder pc => simp [leaves, pc] at hl
  | _ => cases hl

theorem greet_isOpen (conn : Conn) (frame : ClientFrame) :
    ({ conn with pc := greet frame } : Conn).isOpen := by
  unfold greet
  split
  · split <;> rfl
  · rfl

/-- A connection that has returned is stopped, if it did not leave with a forwarder running. -/
theorem Kept.moves {a : Act} (hk : conn.Kept) (h : Moves s c conn a s' conn')
    (hstop : conn.isOpen = false → conn.Stopped)
    (hleave : conn.leaves a = true → conn.Stopped) (hopen : conn'.isOpen = false) :
    conn'.Stopped := by
  have hleft (hl : conn.leaves a = true) : conn'.Stopped := by
    intro n task hf
    rw [(h.left hl).2] at hf
    exact hleave hl n task hf
  cases h with
  | close => exact hk.abortAll_stopped
  | wake n task found notAborted => exact (hstop hopen).task found id
  | suspend n task found => exact (hstop hopen).task found id
  | forward n task stepped found polled lock ok =>
    refine (hstop hopen).task found fun hrun => ?_
    rw [Forward.isRunning_iff] at hrun ⊢
    exact ⟨hrun.1, unixForward_running ok⟩
  | reap n task found aborted =>
    refine (hstop hopen).task found fun hrun => ?_
    rw [Forward.isRunning_iff] at hrun
    cases hrun.1.symm.trans aborted
  | undecodable | unreadable | unanswered | unrelayed | unreplayed | setShutdown => exact hleft rfl
  | hangUp pc => exact hleft (by simp [leaves, pc])
  | wrote request response next locked pc =>
    cases next with
    | exit | drain => exact hleft (by simp [leaves, pc])
    | loop | replay | setShutdown => cases hopen
  | first frame => exact absurd (greet_isOpen conn frame) (by simpa [isOpen] using hopen)
  | _ => cases hopen

end Conn

namespace Daemon

variable {P : Type} {toValue : P → Except String Value} {d d' : Daemon}

/-- Every connection whose `handle_connection` has returned is stopped. -/
def Stopped (d : Daemon) : Prop :=
  ∀ (c : Nat) (conn : Conn), d.conns[c]? = some conn → conn.isOpen = false → conn.Stopped

/-- A connection leaves by an error or for a shutdown only where no forwarder in its map runs. -/
def leavesQuietly (d : Daemon) : Act P → Bool
  | .conn c a => (d.conns[c]?).all fun conn => !conn.leaves a || conn.unattended
  | _ => true

theorem kept_exec {acts : List (Act P)} (h : exec (step toValue) init acts = some d) {c : Nat}
    {conn : Conn} (hc : d.conns[c]? = some conn) : conn.Kept :=
  (tracked_exec h hc).kept

theorem Stopped.step {a : Act P} (h : d.Stopped)
    (hk : ∀ (c : Nat) (conn : Conn), d.conns[c]? = some conn → conn.Kept)
    (hq : d.leavesQuietly a = true) (hs : d.step toValue a = some d') : d'.Stopped := by
  intro c' conn' hc' hopen
  cases a with
  | accept c =>
    obtain ⟨-, rfl⟩ := accept_cases hs
    rcases ExtTreeMap.getElem?_insert_some.1 hc' with ⟨-, rfl⟩ | ⟨-, hc'⟩
    · cases hopen
    · exact h c' conn' hc' hopen
  | conn c a =>
    obtain ⟨conn, shared, conn₁, hc, hstep, rfl⟩ := conn_cases hs
    rcases ExtTreeMap.getElem?_insert_some.1 hc' with ⟨-, rfl⟩ | ⟨-, hc'⟩
    · have hkept := hk c conn hc
      refine hkept.moves (Conn.step_moves hstep) (h c conn hc) (fun hl => ?_) hopen
      simpa [leavesQuietly, hc, hl, hkept.stopped_iff] using hq
    · exact h c' conn' hc' hopen
  | registry a => obtain ⟨-, registry, -, rfl⟩ := registry_cases hs; exact h c' conn' hc' hopen
  | drain c =>
    obtain ⟨registry, -, -, rfl⟩ | ⟨-, -, rfl⟩ | ⟨-, rfl⟩ := drain_cases hs
    all_goals exact h c' conn' hc' hopen
  | stop result => obtain ⟨-, rfl⟩ := stop_cases hs; exact h c' conn' hc' hopen

/-- Who leaves with a forwarder running has left it running. -/
theorem not_stopped {a : Act P}
    (hk : ∀ (c : Nat) (conn : Conn), d.conns[c]? = some conn → conn.Kept)
    (hq : ¬ d.leavesQuietly a = true) (hs : d.step toValue a = some d') : ¬ d'.Stopped := by
  cases a with
  | conn c a =>
    obtain ⟨conn, shared, conn', hc, hstep, rfl⟩ := conn_cases hs
    simp only [leavesQuietly, hc, Option.all_some, Bool.or_eq_true, Bool.not_eq_true',
      ← (hk c conn hc).stopped_iff, not_or, Bool.not_eq_false] at hq
    obtain ⟨hl, hrun⟩ := hq
    obtain ⟨hopen, hf⟩ := (Conn.step_moves hstep).left hl
    intro hstop
    have hstopped : conn'.Stopped :=
      hstop c conn' ExtTreeMap.getElem?_insert_self hopen
    exact hrun fun n task hn => hstopped n task (hf ▸ hn)
  | _ => exact absurd rfl hq

/-- **Exits and forwarders.** At every point of every run of the daemon, the forwarders of a
connection that are neither aborted nor at their end are in its `attachments`, at most one for a
run. All of them are aborted or at their end whenever `handle_connection` has returned, by any
path, exactly if the connections that leave by another path than the end of their stream do so
while no forwarder in `attachments` is running. -/
theorem exits_stop_iff (toValue : P → Except String Value) (acts : List (Act P)) (d : Daemon)
    (h : exec (step toValue) init acts = some d) :
    (∀ (c : Nat) (conn : Conn), d.conns[c]? = some conn → conn.Kept) ∧
    (Along (step toValue) (fun d a => d.leavesQuietly a = true) init acts ↔
      Always (step toValue) Stopped init acts) := by
  refine ⟨fun c conn hc => kept_exec h hc, ?_⟩
  refine along_iff_always (fun c conn hc => by simp [init] at hc) ?_ ?_ h
  · intro pre d a d' hpre hstop hq hs
    exact hstop.step (fun c conn hc => kept_exec hpre hc) hq hs
  · intro pre d a d' hpre hq hs
    exact not_stopped (fun c conn hc => kept_exec hpre hc) hq hs

/-- The client of `watching` closes its stream. -/
def closing : List (Act Unit) := [.conn 0 (.suspend 0), .conn 0 (.receive .closed)]

theorem exits_stop_iff_closing :
    ∃ (d : Daemon) (conn : Conn),
      exec (step fun _ => .ok .null) init (watching ++ closing) = some d ∧
      d.conns[0]? = some conn ∧ conn.isOpen = false ∧ conn.forwards.size = 1 ∧ conn.Stopped := by
  have h : ((exec (step fun _ => .ok .null) init (watching ++ closing)).bind fun d =>
      d.conns[0]?.map fun conn => (conn.isOpen, conn.forwards.size)) = some (false, 1) := by
    decide +kernel
  obtain ⟨d, hd, h⟩ := Option.bind_eq_some_iff.1 h
  obtain ⟨conn, hc, h⟩ := Option.map_eq_some_iff.1 h
  obtain ⟨hopen, hsize⟩ := Prod.mk.inj h
  have hall := (exits_stop_iff _ _ d hd).2.1 (by decide +kernel)
  exact ⟨d, conn, hd, hc, hopen, hsize, hall _ [] d (by simp) hd 0 conn hc hopen⟩

/-- The read side of its connection fails. -/
def readFails : List (Act Unit) := [.conn 0 (.suspend 0), .conn 0 (.receive .failed)]

/-- `handle_connection` has returned, and its forwarder waits for the next event. -/
theorem not_stopped_readFails :
    ∃ d : Daemon, exec (step fun _ => .ok .null) init (watching ++ readFails) = some d ∧
      ¬ d.Stopped := by
  have h : ((exec (step fun _ => .ok .null) init (watching ++ readFails)).bind fun d =>
      d.conns[0]?.bind fun conn => conn.forwards[0]?.map fun task =>
        (conn.isOpen, task.isRunning)) = some (false, true) := by decide +kernel
  obtain ⟨d, hd, h⟩ := Option.bind_eq_some_iff.1 h
  obtain ⟨conn, hc, h⟩ := Option.bind_eq_some_iff.1 h
  obtain ⟨task, hf, h⟩ := Option.map_eq_some_iff.1 h
  obtain ⟨hopen, hrun⟩ := Prod.mk.inj h
  refine ⟨d, hd, fun hstop => ?_⟩
  cases (hstop 0 conn hc hopen 0 task hf).symm.trans hrun

end Daemon

end AgencyProxy
