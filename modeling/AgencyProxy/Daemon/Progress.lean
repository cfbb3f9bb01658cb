import AgencyProxy.Daemon.Answers
import AgencyProxy.Daemon.Streams
import AgencyProxy.Daemon.Terminate
import AgencyProxy.Runtime.Progress

/-!
# What the daemon has begun comes to an end

The connections that handle a request, the calls and run tasks of the registry, and the drain
tasks, left to themselves: no client sends a frame and no provider an event. Calls into a provider
are assumed to return, with whatever result, and writes to complete, if only by failing: a
`finish` that never returns, or a client that does not read, can hold up what waits for it. Each
step lowers `work`, so that there are only so many of them in whatever order they come; and where
none is enabled any more the daemon is `Settled`, with both locks free, every call returned and
every request answered. Nothing waits for a lock, a call or a run in a circle.
-/

namespace AgencyProxy

open AgencyProxy.Runtime Std Lts

/-! ## Work -/

def Drain.work : Drain → Nat
  | .cancelling => 3
  | .waiting => 2
  | .setting => 1
  | .done => 0

def Next.work : Next → Nat
  | .loop | .exit => 0
  | .replay _ _ attachment => attachment.replay.length + 1
  | .setShutdown => 1
  | .drain _ => 3

/-- How many steps the connection takes at most for the request that it has in hand, with the
call and the replay that the request may bring. -/
def Pc.work : Pc → Nat
  | .handling _ => maxReplayEvents + 14
  | .locked _ => 13
  | .starting _ _ | .cancelling _ _ => 2
  | .answering _ _ next _ => next.work + 1
  | .replaying _ _ rest _ => rest.length + 1
  | .relaying _ _ | .stopping => 1
  | .opening | .selecting | .returned _ => 0

def Shared.work (s : Shared) : Nat := s.registry.work + s.drains.sum Drain.work

theorem Shared.withStore_work (s : Shared) (store : Store) :
    (s.withStore store).work = s.work := rfl

@[simp] theorem Shared.release_work (s : Shared) (locked : Bool) :
    (s.release locked).work = s.work := by
  unfold release
  split <;> rfl

namespace Conn

/-- A frame that is queued is taken and written. -/
def work (conn : Conn) : Nat := conn.pc.work + 2 * conn.outbound.length

/-- The connection goes on with what it has in hand. A provider that it calls returns (`handle`),
and what it writes is written or fails (`write`). -/
def Act.pursues : Act → Bool
  | .relay | .handle _ | .check _ | .started | .canceled | .write _ | .spawn | .setShutdown => true
  | .receive _ | .wake _ | .forward _ | .suspend _ | .reap _ => false

variable {s s' : Shared} {c : Nat} {conn conn' : Conn}

theorem proceed_work (s : Shared) (c : Nat) (conn : Conn) (locked : Bool) (next : Next) :
    (conn.proceed s c locked next).2.work + (conn.proceed s c locked next).1.work ≤
      next.work + 2 * conn.outbound.length + s.work := by
  cases next with
  | loop | exit | replay =>
    simp only [proceed, work, Pc.work, Next.work, Shared.release_work]
    exact le_rfl
  | setShutdown => exact le_rfl
  | drain mode =>
    have hdrains : (s.drains.insert c (if mode = .terminate then .cancelling else .waiting)).sum
        Drain.work ≤ s.drains.sum Drain.work + 3 :=
      ExtTreeMap.sum_insert_le.trans (by split <;> simp [Drain.work])
    simp only [proceed, work, Pc.work, Next.work, Shared.work, Daemon.release_registry]
    omega

/-- An accepted attach replays no more than a journal holds. -/
theorem attach_replay {store store' : Store} {id : RunId} {after : Nat} {attachment : Attachment}
    (hj : store.Journals) (h : store.attach id after = .ok (attachment, store')) :
    attachment.replay.length ≤ maxReplayEvents := by
  obtain ⟨run, run', hr, ha, -⟩ := Store.attach_ok h
  obtain ⟨-, rfl, -⟩ := LiveRun.attach_ok ha
  exact (List.length_filter_le _ _).trans (hj.runs id run hr).bounded

/-- The connection moves on and leaves its queue. -/
theorem moved_work {pc : Pc} (hpc : conn.pc = pc) (hq : conn'.outbound = conn.outbound)
    (hw : conn'.pc.work + s'.work < pc.work + s.work) :
    conn'.work + s'.work < conn.work + s.work := by
  simp only [work, hpc, hq]
  omega

/-- **Each of these steps lowers the work.** -/
theorem moves_work {a : Act} (hj : s.registry.store.Journals) (ha : a.pursues = true)
    (h : Moves s c conn a s' conn') : conn'.work + s'.work < conn.work + s.work := by
  have hsame : ∀ {s₁ : Shared} {n m : Nat}, s₁.work = s.work → n < m →
      n + s₁.work < m + s.work := fun he hlt => by rw [he]; omega
  cases h with
  | relay n event rest hpc hq =>
    simp only [work, hpc, hq, Pc.work, List.length_cons]
    omega
  | answer reply request response called hpc =>
    exact moved_work hpc rfl (hsame rfl (by simp [Conn.answer, Pc.work, Next.work]))
  | acknowledge request id through store hpc =>
    exact moved_work hpc rfl (hsame rfl (by simp [Conn.answer, Pc.work, Next.work]))
  | lock request hpc =>
    exact moved_work hpc rfl (hsame rfl (by simp [Pc.work]))
  | attach request id after attachment store hpc _ _ hok =>
    have hreplay := attach_replay hj hok
    exact moved_work hpc rfl (hsame rfl (by simp only [Pc.work, Next.work]; omega))
  | detach request id hpc =>
    exact moved_work hpc (abort_outbound conn id)
      (hsame rfl (by simp [Conn.answer, Pc.work, Next.work]))
  | cancel request id key k registry hpc _ hcall =>
    have hadd := Registry.cancelCall_work hcall
    refine moved_work hpc rfl ?_
    simp only [Pc.work, Shared.work, hadd]
    omega
  | refuse k request message hpc =>
    exact moved_work hpc rfl (hsame rfl (by simp [Pc.work, Next.work]))
  | idle k request hpc =>
    exact moved_work hpc rfl (hsame rfl (by simp [Pc.work, Next.work]))
  | stop k request mode hpc =>
    exact moved_work hpc rfl (hsame rfl (by simp [Pc.work, Next.work]))
  | launch k request id spec key registry hpc _ _ hcall =>
    have hadd := Registry.startCall_work hcall
    refine moved_work hpc rfl ?_
    simp only [Pc.work, Shared.work, hadd]
    omega
  | started request k id result hpc =>
    exact moved_work hpc rfl (hsame rfl (by simp [Pc.work, Next.work]))
  | canceled request k id result hpc =>
    exact moved_work hpc rfl (hsame rfl (by simp [Conn.answer, Pc.work, Next.work]))
  | wrote request response next locked hpc =>
    have hle := proceed_work s c
      { conn with written := conn.written ++ [.response request response] } locked next
    simp only [work, hpc, Pc.work] at hle ⊢
    omega
  | unanswered request response next locked store hpc =>
    have hkept : ((s.release locked).withStore store).work = s.work :=
      (Shared.withStore_work _ store).trans (Shared.release_work s locked)
    exact moved_work hpc rfl (hsame hkept (by simp [Pc.work]))
  | relayed n event hpc => exact moved_work hpc rfl (hsame rfl (by simp [Pc.work]))
  | unrelayed n event hpc => exact moved_work hpc rfl (hsame rfl (by simp [Pc.work]))
  | replayed n id event rest forwarder hpc =>
    exact moved_work hpc rfl (hsame rfl (by simp [Pc.work]))
  | unreplayed n id event rest forwarder hpc =>
    exact moved_work hpc rfl (hsame rfl (by simp [Pc.work]))
  | spawn n id forwarder hpc =>
    exact moved_work hpc (abort_outbound conn id) (hsame rfl (by simp [Pc.work]))
  | setShutdown hpc => exact moved_work hpc rfl (hsame rfl (by simp [Pc.work]))
  | _ => cases ha

end Conn

namespace Daemon

variable {P : Type} {toValue : P → Except String Value} {d d' : Daemon} {c : Nat} {conn : Conn}

def work (d : Daemon) : Nat := d.shared.work + d.conns.sum Conn.work

/-- The step goes on with what has begun, calls into a provider and writes among it. -/
def Act.pursues : Act P → Bool
  | .conn _ a => a.pursues
  | .registry a => a.pursues
  | .drain _ => true
  | .accept _ | .stop _ => false

theorem drain_work {shared : Shared} (h : drain d.shared c = some shared) :
    shared.work < d.shared.work := by
  have hmove : ∀ {drain : Drain} (drain' : Drain), d.shared.drains[c]? = some drain →
      drain'.work < drain.work →
      (d.shared.drains.insert c drain').sum Drain.work < d.shared.drains.sum Drain.work :=
    fun drain' hd hw => by
      have := ExtTreeMap.sum_insert_old (f := Drain.work) (v := drain') hd
      omega
  unfold drain at h
  split at h
  · rename_i hd
    obtain ⟨registry, hr, rfl⟩ := Option.map_eq_some_iff.1 h
    have hlow := hmove .waiting hd (by decide)
    have hsame := Registry.cancelAll_work hr
    simp only [Shared.work]
    omega
  · rename_i hd
    split at h
    · cases h
      exact Nat.add_lt_add_left (hmove .setting hd (by decide)) _
    · cases h
  · rename_i hd
    cases h
    exact Nat.add_lt_add_left (hmove .done hd (by decide)) _
  · cases h

theorem step_work {a : Act P} (hj : d.shared.registry.store.Journals) (ha : a.pursues = true)
    (h : d.step toValue a = some d') : d'.work < d.work := by
  cases a with
  | conn c a =>
    obtain ⟨conn, shared, conn', hc, hs, rfl⟩ := conn_cases h
    have hlow := Conn.moves_work hj ha (Conn.step_moves hs)
    have hsum := ExtTreeMap.sum_insert_old (f := Conn.work) (v := conn') hc
    simp only [work]
    omega
  | registry a =>
    obtain ⟨-, registry, hr, rfl⟩ := registry_cases h
    have hlow := Registry.step_work ha hr
    simp only [work, Shared.work]
    omega
  | drain c =>
    obtain ⟨shared, hs, rfl⟩ := Option.map_eq_some_iff.1 h
    exact Nat.add_lt_add_right (drain_work hs) _
  | accept c => cases ha
  | stop => cases ha

/-- The run that led to a state goes on by a step. -/
theorem reached_step {a : Act P} (h : ∃ acts, exec (step toValue) init acts = some d)
    (hs : d.step toValue a = some d') : ∃ acts, exec (step toValue) init acts = some d' := by
  obtain ⟨acts, h⟩ := h
  exact ⟨acts ++ [a], exec_append_some.2 ⟨d, h, exec_single.2 hs⟩⟩

/-- What is begun takes a bounded number of steps. -/
theorem pursue_exec {acts later : List (Act P)} (h : exec (step toValue) init acts = some d)
    (h' : exec (step toValue) d later = some d') (hp : ∀ a ∈ later, a.pursues = true) :
    later.length + d'.work ≤ d.work :=
  exec_variant (C := fun _ a => a.pursues = true)
    (I := fun d => ∃ acts, exec (step toValue) init acts = some d)
    (fun _ _ _ hi _ hs => reached_step hi hs)
    (fun _ _ _ ⟨_, hm⟩ ha hs => step_work (store_exec hm).1 ha hs) ⟨acts, h⟩
    (along_of_mem hp d) h'

/-! ## Nothing gets stuck -/

/-- None of the steps that `pursues` picks is enabled. -/
def Stuck (toValue : P → Except String Value) (d : Daemon) : Prop :=
  ∀ a : Act P, a.pursues = true → d.step toValue a = none

theorem Stuck.registry (h : d.Stuck toValue) : d.shared.registry.Stuck toValue fun _ => True := by
  intro a ha _
  have hnone := h (.registry a) ha
  have hstart : startsRun a = false := by
    cases a with
    | startCall => cases ha
    | _ => rfl
  simpa [step, hstart] using hnone

theorem Stuck.conns (h : d.Stuck toValue) (hc : d.conns[c]? = some conn) {a : Conn.Act}
    (ha : a.pursues = true) : conn.step d.shared c a = none := by
  have hnone := h (.conn c a) ha
  simpa [step, hc] using hnone

end Daemon

namespace Conn

variable {s : Shared} {c : Nat} {conn : Conn}

/-- The connection waits for its client with nothing to send, or has returned. -/
def Rests (conn : Conn) : Prop :=
  match conn.pc with
  | .opening | .returned _ => True
  | .selecting => conn.outbound = []
  | _ => False

/-- A request can be handled once both locks are free. -/
theorem handle_enabled {request : ClientFrame} (hpc : conn.pc = .handling request)
    (hl : s.registry.lock = .free) (hh : s.holder = none) :
    ∃ reply, conn.step s c (.handle reply) ≠ none := by
  obtain ⟨k, hk⟩ := ExtTreeMap.exists_notMem s.registry.cancels
  cases hm : request.message with
  | hello | listRuns | shutdownIfIdle | shutdown | startRun | detachRun =>
    exact ⟨.nothing, by simp [step, handle, hpc, hm, hl, hh]⟩
  | probeProviders => exact ⟨.providers [], by simp [step, handle, hpc, hm]⟩
  | readAccountUsage => exact ⟨.accountUsage [], by simp [step, handle, hpc, hm]⟩
  | attachRun id after =>
    refine ⟨.nothing, ?_⟩
    simp only [step, handle, hpc, hm, hl, if_true]
    split <;> simp
  | injectMessage id body key =>
    refine ⟨.control (.ok ()), ?_⟩
    simp only [step, handle, hpc, hm, control, hl, if_true]
    split <;> simp
  | cancelRun id key =>
    exact ⟨.call k, by simp [step, handle, hpc, hm, Registry.cancelCall, hk]⟩
  | interruptSession provider sessionId binary key =>
    refine ⟨.interrupted (.ok true), ?_⟩
    simp only [step, handle, hpc, hm]
    split <;> simp
  | decideApproval id approvalId decision key =>
    refine ⟨.control (.ok ()), ?_⟩
    simp only [step, handle, hpc, hm, control, hl, if_true]
    split <;> simp
  | ackEvents id through =>
    refine ⟨.nothing, ?_⟩
    simp only [step, handle, hpc, hm, hl, if_true]
    split <;> simp

/-- A stop or a start is admitted or refused. -/
theorem check_enabled {request : ClientFrame} (hpc : conn.pc = .locked request)
    (hm : request.message.locks = true) : ∃ k, conn.step s c (.check k) ≠ none := by
  obtain ⟨k, hk⟩ := ExtTreeMap.exists_notMem s.registry.starts
  refine ⟨k, ?_⟩
  cases hmsg : request.message with
  | shutdownIfIdle | shutdown mode =>
    simp only [step, check, hpc, hmsg]
    split <;> simp
  | startRun id spec key =>
    simp only [step, check, hpc, hmsg, Registry.startCall, hk]
    split <;> simp
  | _ => rw [hmsg] at hm; cases hm

end Conn

namespace Daemon

variable {P : Type} {toValue : P → Except String Value} {d d' : Daemon} {c : Nat} {conn : Conn}

/-- Nothing is left to do but what clients and providers bring. -/
structure Settled (d : Daemon) : Prop where
  registry : d.shared.registry.Settled fun _ => True
  holder : d.shared.holder = none
  rests : ∀ (c : Nat) (conn : Conn), d.conns[c]? = some conn → conn.Rests
  /-- Every request that was read on an open connection has its response. -/
  answered : ∀ (c : Nat) (conn : Conn), d.conns[c]? = some conn → conn.isOpen = true →
    conn.consumed = (answered conn.written).map some
  /-- A drain task is done, or waits for the runs that are active. -/
  drains : ∀ (c : Nat) (drain : Drain), d.shared.drains[c]? = some drain →
    drain = .done ∨ drain = .waiting ∧ 0 < d.shared.registry.active

/-- A connection that cannot go on by itself is about to handle a request, or rests. -/
theorem Stuck.handling_or_rests (h : d.Stuck toValue)
    (hset : d.shared.registry.Settled fun _ => True)
    (ht : conn.Truthful d.shared) (hc : d.conns[c]? = some conn) :
    (∃ request, conn.pc = .handling request) ∨ conn.Rests := by
  have hno : ∀ {a : Conn.Act}, a.pursues = true → conn.step d.shared c a ≠ none → False :=
    fun ha hne => hne (h.conns hc ha)
  cases hp : conn.pc with
  | opening | returned exit => exact .inr (by simp [Conn.Rests, hp])
  | selecting =>
    refine .inr ?_
    cases hq : conn.outbound with
    | nil => simp [Conn.Rests, hp, hq]
    | cons p rest =>
      exact (hno (a := .relay) rfl (by simp [Conn.step, Conn.relay, hp, hq])).elim
  | handling request => exact .inl ⟨request, rfl⟩
  | locked request =>
    have hlocks := ht.awaits hp fun frame => by
      obtain ⟨_, _, hg⟩ := Conn.greet_answering frame; simp [hg]
    obtain ⟨k, hk⟩ := Conn.check_enabled (s := d.shared) (c := c) hp hlocks
    exact (hno (a := .check k) rfl hk).elim
  | starting request k =>
    obtain ⟨id, spec, key, -, hstart⟩ := ht.awaits hp fun frame => by
      obtain ⟨_, _, hg⟩ := Conn.greet_answering frame; simp [hg]
    cases hk : d.shared.registry.starts[k]? with
    | none => simp [Registry.StartOf, hk] at hstart
    | some call =>
      cases call with
      | returned id' result =>
        exact (hno (a := .started) rfl (by simp [Conn.step, Conn.started, hp, hk])).elim
      | _ => cases hset.starts k _ hk
  | cancelling request k =>
    obtain ⟨id, key, -, hcancel⟩ := ht.awaits hp fun frame => by
      obtain ⟨_, _, hg⟩ := Conn.greet_answering frame; simp [hg]
    cases hk : d.shared.registry.cancels[k]? with
    | none => simp [Registry.CancelOf, hk] at hcancel
    | some call =>
      cases call with
      | returned id' result =>
        exact (hno (a := .canceled) rfl (by simp [Conn.step, Conn.canceled, hp, hk])).elim
      | _ => cases hset.cancels k _ trivial hk
  | relaying | answering =>
    exact (hno (a := .write true) rfl (by simp [Conn.step, Conn.write, hp])).elim
  | replaying n id rest forwarder =>
    cases rest with
    | nil => exact (hno (a := .spawn) rfl (by simp [Conn.step, Conn.spawn, hp])).elim
    | cons event rest =>
      exact (hno (a := .write true) rfl (by simp [Conn.step, Conn.write, hp])).elim
  | stopping =>
    exact (hno (a := .setShutdown) rfl (by simp [Conn.step, Conn.setShutdown, hp])).elim

/-- Nobody is left who holds the lifecycle lock. -/
theorem Stuck.holder (h : d.Stuck toValue) (hset : d.shared.registry.Settled fun _ => True)
    (ht : d.Truthful) (hl : d.Lifecycle) : d.shared.holder = none := by
  refine Option.eq_none_iff_forall_ne_some.2 fun c hh => ?_
  obtain ⟨conn, hc⟩ := Option.ne_none_iff_exists'.1 (hl.known c hh)
  have hholds := (hl.holder c conn hc).2 hh
  obtain ⟨request, hp⟩ | hrests := h.handling_or_rests hset (ht c conn hc) hc
  · rw [hp] at hholds
    cases hholds
  · unfold Conn.Rests at hrests
    cases hp : conn.pc <;> simp [hp, Pc.holdsLock] at hrests hholds

theorem Stuck.drains (h : d.Stuck toValue) (hlock : d.shared.registry.lock = .free)
    {drain : Drain} (hd : d.shared.drains[c]? = some drain) :
    drain = .done ∨ drain = .waiting ∧ 0 < d.shared.registry.active := by
  have hnone := h (.drain c) rfl
  simp only [step, Daemon.drain, hd] at hnone
  cases drain with
  | cancelling => simp [Registry.cancelAll, hlock] at hnone
  | waiting =>
    refine .inr ⟨rfl, Nat.pos_of_ne_zero fun ha => ?_⟩
    simp [ha] at hnone
  | setting => simp at hnone
  | done => exact .inl rfl

/-- **No deadlock.** -/
theorem Stuck.settled {acts : List (Act P)} (h : exec (step toValue) init acts = some d)
    (hstuck : d.Stuck toValue) : d.Settled := by
  obtain ⟨ks, hk⟩ := registry_exec h
  have hset := Registry.Stuck.settled hk hstuck.registry
  have htrue := truthful_exec h
  have hholder := hstuck.holder hset htrue (lifecycle_exec h)
  have hrests : ∀ (c : Nat) (conn : Conn), d.conns[c]? = some conn → conn.Rests := by
    intro c conn hc
    obtain ⟨request, hp⟩ | hrests := hstuck.handling_or_rests hset (htrue c conn hc) hc
    · obtain ⟨reply, hne⟩ := Conn.handle_enabled (c := c) hp hset.free hholder
      exact absurd (hstuck.conns hc rfl) hne
    · exact hrests
  refine ⟨hset, hholder, hrests, fun c conn hc hopen => ?_,
    fun c drain hd => hstuck.drains hset.free hd⟩
  have hpaired := (disciplined_exec h hc).paired
  have hpending : conn.pc.pending = [] := by
    have hr := hrests c conn hc
    unfold Conn.Rests at hr
    cases hp : conn.pc <;> simp [hp, Pc.pending, Conn.isOpen] at hr hopen ⊢
  rw [hpaired, hpending, List.append_nil]

theorem exists_stuck {acts : List (Act P)} (h : exec (step toValue) init acts = some d) :
    ∃ (more : List (Act P)) (m : Daemon), exec (step toValue) d more = some m ∧
      (∀ a ∈ more, a.pursues = true) ∧ m.Stuck toValue := by
  obtain ⟨more, m, hm, hall, -, hend⟩ : ∃ (more : List (Act P)) (m : Daemon),
      exec (step toValue) d more = some m ∧
        Along (step toValue) (fun _ a => a.pursues = true) d more ∧
        (∃ acts, exec (step toValue) init acts = some m) ∧ m.Stuck toValue :=
    exists_exec_end (m := work) (C := fun _ (a : Act P) => a.pursues = true)
      (I := fun d => ∃ acts, exec (step toValue) init acts = some d)
      (fun _ _ _ hi _ hs => reached_step hi hs)
      (fun _ _ _ ⟨_, hm⟩ ha hs => step_work (store_exec hm).1 ha hs) ⟨_, h⟩
  exact ⟨more, m, hm, mem_of_along hall hm, hend⟩

/-- **What is begun comes to an end**, where calls into a provider return and writes complete. From
any reachable state on, let the daemon go on with what it has begun, with no frame from a client
and no event from a provider, in any order, whatever the calls return and with writes that fail.
It takes no more than `work` steps; where it can take no further one, both locks are free, every
call has returned, every request that an open connection has read is answered and every frame it
had queued is written, and what is left waits for a client, for an event of a provider or, in a
drain task, for a run that is active; and wherever it is, it can get there. -/
theorem settles (toValue : P → Except String Value) (acts later : List (Act P)) (d d' : Daemon)
    (h : exec (step toValue) init acts = some d) (h' : exec (step toValue) d later = some d')
    (hp : ∀ a ∈ later, a.pursues = true) :
    later.length + d'.work ≤ d.work ∧ (d'.Stuck toValue → d'.Settled) ∧
      ∃ (more : List (Act P)) (m : Daemon), exec (step toValue) d' more = some m ∧
        (∀ a ∈ more, a.pursues = true) ∧ m.Settled := by
  have hreach : exec (step toValue) init (acts ++ later) = some d' :=
    exec_append_some.2 ⟨d, h, h'⟩
  obtain ⟨more, m, hm, hall, hend⟩ := exists_stuck hreach
  exact ⟨pursue_exec h h' hp, Stuck.settled hreach, more, m, hm, hall,
    Stuck.settled (exec_append_some.2 ⟨d', hreach, hm⟩) hend⟩

/-- One connection cancels its run while another has the lifecycle lock and launches one. -/
def busy : List (Act Unit) :=
  [.accept 0, .conn 0 (.receive (.frame ⟨1, .hello "first" ⟨0, 4⟩⟩)), .conn 0 (.write true),
   .conn 0 (.receive (.frame ⟨2, .startRun ⟨"r"⟩ plainRequest "key"⟩)),
   .conn 0 (.handle .nothing), .conn 0 (.check 0), .registry (.startCheck 0),
   .registry (.startLaunch 0 (.ok ())), .registry (.startInsert 0), .registry (.startCount 0),
   .registry (.startSpawn 0), .conn 0 .started, .conn 0 (.write true), .accept 1,
   .conn 1 (.receive (.frame ⟨1, .hello "second" ⟨0, 4⟩⟩)), .conn 1 (.write true),
   .conn 1 (.receive (.frame ⟨2, .startRun ⟨"s"⟩ plainRequest "key"⟩)),
   .conn 1 (.handle .nothing), .conn 1 (.check 1), .registry (.startCheck 1),
   .conn 0 (.receive (.frame ⟨3, .cancelRun ⟨"r"⟩ "key"⟩)), .conn 0 (.handle (.call 0)),
   .registry (.cancelTake 0)]

theorem settles_busy :
    ∃ d d' : Daemon, exec (step fun _ => .ok .null) init busy = some d ∧
      d.shared.holder = some 1 ∧
      exec (step fun _ => .ok .null) d [(.registry (.cancelSend 0) : Act Unit)] = some d' ∧
      ∃ (more : List (Act Unit)) (m : Daemon),
        exec (step fun _ => .ok .null) d' more = some m ∧ m.Settled := by
  have h : ∃ d d' : Daemon, exec (step fun _ => .ok .null) init busy = some d ∧
      d.shared.holder = some 1 ∧
      exec (step fun _ => .ok .null) d [(.registry (.cancelSend 0) : Act Unit)] = some d' :=
    ⟨_, _, rfl, rfl, rfl⟩
  obtain ⟨d, d', hd, hholder, hd'⟩ := h
  obtain ⟨-, -, more, m, hm, -, hset⟩ :=
    settles _ busy [.registry (.cancelSend 0)] d d' hd hd' (by decide)
  exact ⟨d, d', hd, hholder, hd', more, m, hm, hset⟩

/-! ## A terminating shutdown -/

/-- A connection spawns its drain task as it returns, and none after. -/
theorem moves_drains {s s' : Shared} {conn conn' : Conn} {a : Conn.Act}
    (h : Conn.Moves s c conn a s' conn') :
    (s.shutdown = true → s'.shutdown = true) ∧
      (s'.drains = s.drains ∧ (∀ exit, conn.pc = .returned exit → conn'.pc = .returned exit) ∨
        (∀ exit, conn.pc ≠ .returned exit) ∧ conn'.pc = .returned .ok ∧
          ∃ drain, drain ≠ .done ∧ s'.drains = s.drains.insert c drain) := by
  refine ⟨(moves_underWay h).1, ?_⟩
  cases h with
  | wrote request response next locked hpc =>
    obtain ⟨-, -, hdrains⟩ := release_fields s locked
    cases next with
    | drain mode =>
      refine .inr ⟨by simp [hpc], rfl, _, ?_, rfl⟩
      split <;> simp
    | setShutdown => exact .inl ⟨rfl, by simp [hpc]⟩
    | _ => exact .inl ⟨hdrains, by simp [hpc]⟩
  | unanswered request response next locked store hpc =>
    exact .inl ⟨(release_fields s locked).2.2, by simp [hpc]⟩
  | wake | forward | suspend | reap => exact .inl ⟨rfl, fun _ he => he⟩
  | undecodable hpc | unreadable hpc =>
    exact .inl ⟨rfl, by rcases hpc with hpc | hpc <;> simp [hpc]⟩
  | _ => exact .inl ⟨rfl, by simp [*]⟩

/-- A drain task outlives its connection, and the one that is done has set the flag. -/
structure Drained (d : Daemon) : Prop where
  returned : ∀ (c : Nat) (drain : Drain), d.shared.drains[c]? = some drain →
    ∃ (conn : Conn) (exit : Exit), d.conns[c]? = some conn ∧ conn.pc = .returned exit
  done : ∀ c : Nat, d.shared.drains[c]? = some .done → d.shared.shutdown = true

theorem drained_init : init.Drained :=
  ⟨fun c drain h => by simp [init, Shared.init] at h, fun c h => by simp [init, Shared.init] at h⟩

/-- A drain task moves on. -/
theorem Drained.setDrain {drain drain' : Drain} {shared : Shared} (h : d.Drained)
    (hd : d.shared.drains[c]? = some drain)
    (hs : shared.drains = d.shared.drains.insert c drain')
    (hflag : d.shared.shutdown = true → shared.shutdown = true)
    (hdone : drain' = .done → shared.shutdown = true) :
    ({ d with shared } : Daemon).Drained := by
  refine ⟨fun c' drain₁ h₁ => ?_, fun c' h₁ => ?_⟩
  · simp only [hs] at h₁
    rcases ExtTreeMap.getElem?_insert_some.1 h₁ with ⟨rfl, -⟩ | ⟨-, h₁⟩
    · exact h.returned c drain hd
    · exact h.returned c' drain₁ h₁
  · simp only [hs] at h₁
    rcases ExtTreeMap.getElem?_insert_some.1 h₁ with ⟨-, he⟩ | ⟨-, h₁⟩
    · exact hdone he
    · exact hflag (h.done c' h₁)

theorem Drained.step {a : Act P} (h : d.Drained) (hs : d.step toValue a = some d') :
    d'.Drained := by
  cases a with
  | accept c =>
    obtain ⟨hnew, rfl⟩ := accept_cases hs
    refine ⟨fun c' drain hd => ?_, h.done⟩
    obtain ⟨conn, exit, hc, he⟩ := h.returned c' drain hd
    have hne : c ≠ c' := by rintro rfl; cases hnew.symm.trans hc
    exact ⟨conn, exit, by rw [ExtTreeMap.getElem?_insert_of_ne hne]; exact hc, he⟩
  | conn c a =>
    obtain ⟨conn, shared, conn', hc, hstep, rfl⟩ := conn_cases hs
    obtain ⟨hflag, ⟨hdrains, hstay⟩ | ⟨hopen, hret, drain, hne, hdrains⟩⟩ :=
      moves_drains (Conn.step_moves hstep)
    · refine ⟨fun c' drain hd => ?_, fun c' hd => hflag (h.done c' (hdrains ▸ hd))⟩
      obtain ⟨conn₀, exit, hc₀, he⟩ := h.returned c' drain (hdrains ▸ hd)
      by_cases heq : c = c'
      · subst heq
        cases hc.symm.trans hc₀
        exact ⟨conn', exit, ExtTreeMap.getElem?_insert_self, hstay exit he⟩
      · exact ⟨conn₀, exit, by rw [ExtTreeMap.getElem?_insert_of_ne heq]; exact hc₀, he⟩
    · refine ⟨fun c' drain' hd => ?_, fun c' hd => ?_⟩
      · by_cases heq : c = c'
        · subst heq
          exact ⟨conn', .ok, ExtTreeMap.getElem?_insert_self, hret⟩
        · rw [hdrains, ExtTreeMap.getElem?_insert_of_ne heq] at hd
          obtain ⟨conn₀, exit, hc₀, he⟩ := h.returned c' drain' hd
          exact ⟨conn₀, exit, by rw [ExtTreeMap.getElem?_insert_of_ne heq]; exact hc₀, he⟩
      · rw [hdrains] at hd
        rcases ExtTreeMap.getElem?_insert_some.1 hd with ⟨-, he⟩ | ⟨-, hd⟩
        · exact absurd he hne
        · exact hflag (h.done c' hd)
  | registry a => obtain ⟨-, registry, -, rfl⟩ := registry_cases hs; exact ⟨h.returned, h.done⟩
  | drain c =>
    obtain ⟨registry, hd, -, rfl⟩ | ⟨hd, -, rfl⟩ | ⟨hd, rfl⟩ := drain_cases hs
    · exact h.setDrain hd rfl (fun hf => hf) (by simp)
    · exact h.setDrain hd rfl (fun hf => hf) (by simp)
    · exact h.setDrain hd rfl (fun _ => rfl) fun _ => rfl
  | stop result => obtain ⟨-, rfl⟩ := stop_cases hs; exact ⟨h.returned, h.done⟩

theorem drained_exec {acts : List (Act P)} (h : exec (step toValue) init acts = some d) :
    d.Drained :=
  exec_inv' (I := Drained) (fun _ _ _ hi hs => hi.step hs) drained_init h

/-- The drain task of a terminating shutdown is there, and has swept the runs unless it is still
to do so. -/
def Terminates (c : Nat) (d : Daemon) : Prop :=
  d.shared.drains[c]? = some .cancelling ∨
    (∃ drain, d.shared.drains[c]? = some drain) ∧ Swept d.shared.registry

theorem Terminates.step {a : Act P} (total : ∀ p, ∃ v, toValue p = .ok v)
    (h : d.Terminates c) (hsteady : d.Steady) (hdr : d.Drained)
    (hs : d.step toValue a = some d') : d'.Terminates c := by
  obtain ⟨drain, hd⟩ : ∃ drain, d.shared.drains[c]? = some drain := h.elim (fun h => ⟨_, h⟩) (·.1)
  have hswept : Swept d.shared.registry → Swept d'.shared.registry := fun hsw =>
    hsteady.lifecycle.swept_step total (hsteady.lifecycle.drains c drain hd) hsteady.inv hsw hs
  have hsame : d'.shared.drains[c]? = d.shared.drains[c]? → d'.Terminates c := fun he => by
    rw [Terminates, he]
    exact h.imp_right fun ⟨hdrain, hsw⟩ => ⟨hdrain, hswept hsw⟩
  cases a with
  | accept c' => obtain ⟨-, rfl⟩ := accept_cases hs; exact hsame rfl
  | conn c' a =>
    obtain ⟨conn, shared, conn', hc, hstep, rfl⟩ := conn_cases hs
    obtain ⟨-, ⟨hdrains, -⟩ | ⟨hopen, -, _, -, hdrains⟩⟩ := moves_drains (Conn.step_moves hstep)
    · exact hsame (by rw [hdrains])
    · -- The connection that spawned this one has returned.
      obtain ⟨conn₀, exit, hc₀, he⟩ := hdr.returned c drain hd
      refine hsame ?_
      rw [hdrains, ExtTreeMap.getElem?_insert_of_ne]
      rintro rfl
      cases hc.symm.trans hc₀
      exact hopen exit he
  | registry a => obtain ⟨-, registry, -, rfl⟩ := registry_cases hs; exact hsame rfl
  | drain c' =>
    by_cases heq : c' = c
    · subst heq
      obtain ⟨registry, -, hall, rfl⟩ | ⟨hw, -, rfl⟩ | ⟨hw, rfl⟩ := drain_cases hs
      · exact .inr ⟨⟨_, ExtTreeMap.getElem?_insert_self⟩, swept_cancelAll hsteady.cancels hall⟩
      · obtain hcan | ⟨-, hsw⟩ := h
        · cases hw.symm.trans hcan
        · exact .inr ⟨⟨_, ExtTreeMap.getElem?_insert_self⟩, hswept hsw⟩
      · obtain hcan | ⟨-, hsw⟩ := h
        · cases hw.symm.trans hcan
        · exact .inr ⟨⟨_, ExtTreeMap.getElem?_insert_self⟩, hswept hsw⟩
    · obtain ⟨registry, -, -, rfl⟩ | ⟨-, -, rfl⟩ | ⟨-, rfl⟩ := drain_cases hs
      all_goals exact hsame (ExtTreeMap.getElem?_insert_of_ne heq)
  | stop result => obtain ⟨-, rfl⟩ := stop_cases hs; exact hsame rfl

/-- Where a terminating daemon has settled, every run has ended. -/
theorem Stuck.quiet {acts : List (Act P)} (h : exec (step toValue) init acts = some d)
    (hstuck : d.Stuck toValue) (hsw : Swept d.shared.registry) : Quiet d.shared.registry := by
  obtain ⟨ks, hk⟩ := registry_exec h
  have hset := Registry.Stuck.settled hk hstuck.registry
  intro id run hr
  cases hact : run.isActive with
  | false => rfl
  | true =>
    have hsent : d.shared.registry.signalled id = true := by
      obtain hs | ⟨k, hs⟩ := Registry.fires_exec hk id (hsw id run hr hact)
      · exact hs
      · cases hset.cancels k _ trivial hs
    obtain ⟨hend, -⟩ := hstuck.registry.ended hset.free (Registry.tasks_exec hk)
      (Registry.owned_exec hk) (Registry.ends_exec hk) hr hsent
    exact hact.symm.trans hend

/-- **A terminating shutdown carries itself out**, where calls into a provider return and writes
complete. Once it was accepted and its drain task spawned, whatever happens then, the daemon left
to itself comes within `work` steps to where it can take no further one, and there every run has
ended and the shutdown flag is set. -/
theorem terminate_finishes (toValue : P → Except String Value)
    (total : ∀ p, ∃ v, toValue p = .ok v) (acts later : List (Act P)) (c : Nat) (d d' : Daemon)
    (h : exec (step toValue) init acts = some d) (hd : d.shared.drains[c]? = some .cancelling)
    (h' : exec (step toValue) d later = some d') :
    (∀ (more : List (Act P)) (m : Daemon), exec (step toValue) d' more = some m →
      (∀ a ∈ more, a.pursues = true) → more.length + m.work ≤ d'.work ∧
        (m.Stuck toValue → m.shared.shutdown = true ∧ Quiet m.shared.registry)) ∧
      ∃ (more : List (Act P)) (m : Daemon), exec (step toValue) d' more = some m ∧
        (∀ a ∈ more, a.pursues = true) ∧ m.shared.shutdown = true ∧ Quiet m.shared.registry := by
  have hterm : ∀ {as : List (Act P)} {m : Daemon}, exec (step toValue) d as = some m →
      m.Terminates c := fun {as m} hm => by
    refine (exec_inv' (I := fun m => m.Steady ∧ m.Drained ∧ m.Terminates c) ?_
      ⟨steady_exec total h, drained_exec h, .inl hd⟩ hm).2.2
    rintro m a m' ⟨hst, hdr, ht⟩ hs
    exact ⟨hst.step total hs, hdr.step hs, ht.step total hst hdr hs⟩
  have hfin : ∀ {as : List (Act P)} {m : Daemon}, exec (step toValue) d as = some m →
      m.Stuck toValue → m.shared.shutdown = true ∧ Quiet m.shared.registry := by
    intro as m hm hstuck
    have hreach := exec_append_some.2 ⟨d, h, hm⟩
    have hset := Stuck.settled hreach hstuck
    obtain hcan | ⟨⟨drain, hdrain⟩, hsw⟩ := hterm hm
    · obtain he | ⟨he, -⟩ := hset.drains c _ hcan <;> cases he
    · have hquiet := hstuck.quiet hreach hsw
      refine ⟨?_, hquiet⟩
      obtain rfl | ⟨rfl, hpos⟩ := hset.drains c _ hdrain
      · exact (drained_exec hreach).done c hdrain
      · have hcount := (steady_exec total hreach).inv.exact.1 hset.registry.free
        rw [hcount, ExtTreeMap.count_eq_zero_of_forall hquiet] at hpos
        cases hpos
  have hreach := exec_append_some.2 ⟨d, h, h'⟩
  refine ⟨fun more m hm hp => ⟨pursue_exec hreach hm hp, fun hstuck =>
    hfin (exec_append_some.2 ⟨d', h', hm⟩) hstuck⟩, ?_⟩
  obtain ⟨more, m, hm, hp, hstuck⟩ := exists_stuck hreach
  exact ⟨more, m, hm, hp, hfin (exec_append_some.2 ⟨d', h', hm⟩) hstuck⟩

/-- The provider of the run sends one more event before the sweep. -/
def lateEvent : List (Act Unit) :=
  [.registry (.recv ⟨"r"⟩ (some (.text "late"))), .registry (.publish ⟨"r"⟩)]

theorem terminate_finishes_lateEvent :
    ∃ d d' m : Daemon, exec (step fun _ => .ok .null) init terminatedRuns = some d ∧
      exec (step fun _ => .ok .null) d lateEvent = some d' ∧
      ∃ more : List (Act Unit), exec (step fun _ => .ok .null) d' more = some m ∧
        m.shared.shutdown = true ∧ Quiet m.shared.registry := by
  have h : ∃ d d' : Daemon, exec (step fun _ => .ok .null) init terminatedRuns = some d ∧
      d.shared.drains[1]? = some .cancelling ∧
      exec (step fun _ => .ok .null) d lateEvent = some d' := ⟨_, _, rfl, rfl, rfl⟩
  obtain ⟨d, d', hd, hdrain, hd'⟩ := h
  obtain ⟨-, more, m, hm, -, hstop⟩ := terminate_finishes _ (fun _ => ⟨_, rfl⟩) terminatedRuns
    lateEvent 1 d d' hd hdrain hd'
  exact ⟨d, d', m, hd, hd', more, hm, hstop⟩

end Daemon

end AgencyProxy
