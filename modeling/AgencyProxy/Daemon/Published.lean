import AgencyProxy.Daemon.Answers
import AgencyProxy.Daemon.Frames

/-!
# What is sent was published

Every event that a connection wrote, has in hand or in its queue, or that one of its tasks still
has to replay, is in the log of its run. A connection makes up no event: it draws them from the
registry, by an attach or by a receiver.
-/

namespace AgencyProxy

open AgencyProxy.Runtime Std Lts

/-- The events that the connection's own code is writing, or hands to the task it spawns. -/
def Pc.events : Pc → List SequencedEvent
  | .relaying _ event => [event]
  | .answering _ _ (.replay _ _ attachment) _ => attachment.replay
  | .replaying _ _ rest forwarder => rest ++ forwarder.rest
  | _ => []

/-- The event is in the log of its run. -/
def Runtime.Store.Logs (store : Store) (e : SequencedEvent) : Prop := e ∈ store.published e.runId

theorem Runtime.Store.Logs.grows {store store' : Store} {e : SequencedEvent} (h : store.Logs e)
    (hg : store.Grows store') : store'.Logs e :=
  (hg.published e.runId).mem h

theorem logs_of_published {store : Store} {id : RunId} {e : SequencedEvent}
    (hn : Registry.Named store) (h : e ∈ store.published id) : store.Logs e := by
  have hid := hn.published id e h
  unfold Runtime.Store.Logs
  rwa [hid]

namespace Conn

/-- The connection sent the event, or is to send it. -/
inductive Carries (conn : Conn) (e : SequencedEvent) : Prop
  | written (n : Nat) (w : Written) (mem : w ∈ conn.written) (spoken : w.spoken = some (n, e))
  | inHand (mem : e ∈ conn.pc.events)
  | queued (n : Nat) (mem : (n, e) ∈ conn.outbound)
  | task (n : Nat) (task : Forward) (found : conn.forwards[n]? = some task)
      (mem : e ∈ task.forwarder.rest)

variable {s s' : Shared} {c : Nat} {conn conn' : Conn} {e : SequencedEvent}

/-- Tasks that hold the forwarders of tasks that were there. -/
def SameTasks (conn conn' : Conn) : Prop :=
  ∀ (n : Nat) (task' : Forward), conn'.forwards[n]? = some task' →
    ∃ task, conn.forwards[n]? = some task ∧ task'.forwarder = task.forwarder

theorem sameTasks_poll {n : Nat} {task : Forward} (polling : Bool)
    (hf : conn.forwards[n]? = some task) :
    SameTasks conn { conn with forwards := conn.forwards.insert n { task with polling } } :=
  ExtTreeMap.forall_insert (fun _ task' hm => ⟨task', hm, rfl⟩) ⟨task, hf, rfl⟩

theorem sameTasks_abort (conn : Conn) (id : RunId) : SameTasks conn (conn.abort id) :=
  fun _ _ hf => by
    obtain ⟨task, h₀, -, he⟩ := abort_forwards hf
    exact ⟨task, h₀, he⟩

theorem sameTasks_abortAll (conn : Conn) : SameTasks conn conn.abortAll := fun _ _ hf => by
  obtain ⟨task, h₀, -, he⟩ := abortAll_forwards hf
  exact ⟨task, h₀, he⟩

theorem Carries.back (h : conn'.Carries e) (conn : Conn)
    (hw : ∀ w ∈ conn'.written, w ∈ conn.written ∨ ∀ p, w.spoken = some p → p.2 ∈ conn.pc.events)
    (hpc : ∀ e ∈ conn'.pc.events, conn.Carries e) (ho : ∀ p ∈ conn'.outbound, p ∈ conn.outbound)
    (ht : SameTasks conn conn') : conn.Carries e := by
  cases h with
  | written n w mem spoken =>
    obtain hw | hw := hw w mem
    · exact .written n w hw spoken
    · exact .inHand (hw _ spoken)
  | inHand mem => exact hpc e mem
  | queued n mem => exact .queued n (ho _ mem)
  | task n task' found mem =>
    obtain ⟨task, h₀, he⟩ := ht n task' found
    exact .task n task h₀ (he ▸ mem)

theorem sameTasks_of_eq (he : conn'.forwards = conn.forwards) : SameTasks conn conn' :=
  fun _ task hf => ⟨task, he ▸ hf, rfl⟩

/-- The connection goes on to where it has no event in hand. -/
theorem Carries.idle (h : conn'.Carries e) (conn : Conn) (hw : conn'.written = conn.written)
    (hpc : conn'.pc.events = []) (ho : conn'.outbound = conn.outbound)
    (ht : SameTasks conn conn') : conn.Carries e :=
  h.back conn (fun w hm => .inl (hw ▸ hm)) (fun e hm => by rw [hpc] at hm; cases hm)
    (fun p hm => ho ▸ hm) ht

/-- A frame that the connection has in hand is written. -/
theorem Carries.wrote {w : Written} {pc : Pc} {attached : List Attached}
    (h : ({ conn with pc, attached, written := conn.written ++ [w] } : Conn).Carries e)
    (hw : ∀ p, w.spoken = some p → p.2 ∈ conn.pc.events)
    (hpc : ∀ e ∈ pc.events, e ∈ conn.pc.events) : conn.Carries e :=
  h.back conn (fun v hv => (List.mem_append.1 hv).imp_right fun hv => by
      rwa [List.mem_singleton.1 hv])
    (fun e he => .inHand (hpc e he)) (fun p hp => hp) (sameTasks_of_eq rfl)

/-- A task advances, and what it hands over goes to the end of the queue, if there is one. -/
theorem Carries.forwarded {store : Store} {n : Nat} {task : Forward} {st : Forwarder.Stepped}
    {outbound : List (Nat × SequencedEvent)} (hn : Registry.Named store)
    (h : ({ conn with
      forwards := conn.forwards.insert n { task with forwarder := st.forwarder }, outbound } :
      Conn).Carries e)
    (hf : conn.forwards[n]? = some task)
    (hd : Forwarder.Draws store task.id task.forwarder st)
    (ho : ∀ p ∈ outbound, p ∈ conn.outbound ∨ st.handed = some p.2) :
    conn.Carries e ∨ store.Logs e := by
  have hdrawn : ∀ e, st.handed = some e ∨ e ∈ st.forwarder.rest → conn.Carries e ∨ store.Logs e :=
    fun e he => (hd e he).imp (.task n task hf) (logs_of_published hn)
  cases h with
  | written m w mem spoken => exact .inl (.written m w mem spoken)
  | inHand mem => exact .inl (.inHand mem)
  | queued m mem =>
    obtain hin | hin := ho _ mem
    · exact .inl (.queued m hin)
    · exact hdrawn e (.inl hin)
  | task m task' found mem =>
    rcases ExtTreeMap.getElem?_insert_some.1 found with ⟨-, rfl⟩ | ⟨-, found⟩
    · exact hdrawn e (.inr mem)
    · exact .inl (.task m task' found mem)

/-- **Step lemma**: what a connection comes to carry is in the registry's logs. -/
theorem carries_moves {a : Act} (hj : s.registry.store.Journals)
    (hn : Registry.Named s.registry.store) (hm : Moves s c conn a s' conn')
    (h : conn'.Carries e) : conn.Carries e ∨ s.registry.store.Logs e := by
  cases hm with
  | first frame hpc =>
    refine .inl (h.idle conn rfl ?_ rfl (sameTasks_of_eq rfl))
    show (greet frame).events = []
    unfold greet
    split
    · split <;> rfl
    · rfl
  | relay n event rest hpc hq =>
    refine .inl (h.back conn (fun w hw => .inl hw) (fun e he => ?_) (fun p hp => ?_)
      (sameTasks_of_eq rfl))
    · rw [List.mem_singleton.1 he]
      exact .queued n (by rw [hq]; exact List.mem_cons_self)
    · rw [hq]; exact List.mem_cons_of_mem _ hp
  | close => exact .inl (h.idle conn rfl rfl rfl (sameTasks_abortAll conn))
  | detach request id hpc =>
    exact .inl (h.idle conn (abort_written conn id) rfl (abort_outbound conn id)
      (sameTasks_abort conn id))
  | attach request id after attachment store hpc hmsg hl ha =>
    cases h with
    | written n w mem spoken => exact .inl (.written n w mem spoken)
    | inHand mem => exact .inr (logs_of_published hn (attach_published hj ha e mem))
    | queued n mem => exact .inl (.queued n mem)
    | task n task found mem => exact .inl (.task n task found mem)
  | wrote request response next locked hpc =>
    cases next with
    | replay id after attachment =>
      refine .inl (h.wrote (fun p hp => by cases hp) fun e he => ?_)
      rw [hpc]
      simpa [Pc.events, Forwarder.start, Forwarder.rest] using he
    | _ => exact .inl (h.wrote (fun p hp => by cases hp) fun e he => by cases he)
  | relayed n event hpc =>
    refine .inl (h.wrote (fun p hp => ?_) fun e he => by cases he)
    cases hp
    rw [hpc]
    exact List.mem_singleton_self _
  | replayed n id event rest forwarder hpc =>
    refine .inl (h.wrote (fun p hp => ?_) fun e he => ?_)
    · cases hp
      rw [hpc]
      exact List.mem_cons_self
    · rw [hpc]
      exact List.mem_cons_of_mem _ he
  | spawn n id forwarder hpc =>
    refine .inl ?_
    cases h with
    | written m w mem spoken => exact .written m w (abort_written conn id ▸ mem) spoken
    | inHand mem => cases mem
    | queued m mem => exact .queued m (abort_outbound conn id ▸ mem)
    | task m task found mem =>
      rcases ExtTreeMap.getElem?_insert_some.1 found with ⟨-, rfl⟩ | ⟨-, found⟩
      · exact .inHand (by rw [hpc]; exact mem)
      · obtain ⟨task₀, h₀, he⟩ := sameTasks_abort conn id m task found
        exact .task m task₀ h₀ (he ▸ mem)
  | wake n task hf =>
    exact .inl (h.back conn (fun w hw => .inl hw) (fun e he => .inHand he) (fun p hp => hp)
      (sameTasks_poll true hf))
  | suspend n task hf =>
    exact .inl (h.back conn (fun w hw => .inl hw) (fun e he => .inHand he) (fun p hp => hp)
      (sameTasks_poll false hf))
  | forward n task stepped hf hpoll hlock hok =>
    refine h.forwarded hn hf (Forwarder.unixForward_draws hj hn hok) fun p hp => ?_
    split at hp
    · refine (List.mem_append.1 hp).imp_right fun hp => ?_
      obtain ⟨e, he, rfl⟩ := Option.map_eq_some_iff.1 (Option.mem_toList.1 hp)
      exact he
    · exact .inl hp
  | reap n task hf => exact h.forwarded hn hf (Forwarder.close_draws _) fun p hp => .inl hp
  | _ => exact .inl (h.idle conn rfl rfl rfl (sameTasks_of_eq rfl))

end Conn

namespace Daemon

variable {P : Type} {toValue : P → Except String Value} {d d' : Daemon}

/-- What each connection carries was published. -/
def Genuine (d : Daemon) : Prop :=
  ∀ (c : Nat) (conn : Conn), d.conns[c]? = some conn → ∀ e, conn.Carries e →
    d.shared.registry.store.Logs e

theorem Genuine.step {a : Act P} (h : d.Genuine) (hj : d.shared.registry.store.Journals)
    (hn : Registry.Named d.shared.registry.store)
    (hg : d.shared.registry.store.Grows d'.shared.registry.store)
    (hs : d.step toValue a = some d') : d'.Genuine := by
  have hlater : d'.conns = d.conns → d'.Genuine := fun he c conn hc e hcarry =>
    (h c conn (he ▸ hc) e hcarry).grows hg
  cases a with
  | accept c =>
    obtain ⟨-, rfl⟩ := accept_cases hs
    intro c' conn hc' e hcarry
    rcases ExtTreeMap.getElem?_insert_some.1 hc' with ⟨-, rfl⟩ | ⟨-, hc'⟩
    · cases hcarry with
      | written _ _ mem | inHand mem | queued _ mem => cases mem
      | task _ _ found => simp [Conn.init] at found
    · exact h c' conn hc' e hcarry
  | conn c a =>
    obtain ⟨conn, shared, conn', hc, hstep, rfl⟩ := conn_cases hs
    intro c' conn₁ hc' e hcarry
    rcases ExtTreeMap.getElem?_insert_some.1 hc' with ⟨-, rfl⟩ | ⟨-, hc'⟩
    · obtain hcarry | hlog := Conn.carries_moves hj hn (Conn.step_moves hstep) hcarry
      · exact (h c conn hc e hcarry).grows hg
      · exact hlog.grows hg
    · exact (h c' conn₁ hc' e hcarry).grows hg
  | registry a => obtain ⟨-, registry, -, rfl⟩ := registry_cases hs; exact hlater rfl
  | drain c =>
    obtain ⟨registry, -, -, rfl⟩ | ⟨-, -, rfl⟩ | ⟨-, rfl⟩ := drain_cases hs <;> exact hlater rfl
  | stop result => obtain ⟨-, rfl⟩ := stop_cases hs; exact hlater rfl

theorem genuine_exec {acts : List (Act P)} (h : exec (step toValue) init acts = some d) :
    d.Genuine :=
  exec_inv_reachable (C := fun _ _ => True) (I := Genuine)
    (fun ls _ _ _ hm hi _ hs =>
      hi.step (store_exec hm).1 (store_exec hm).2 (grows_exec hm (exec_single.2 hs)).store hs)
    (fun c conn hc => by simp [init] at hc) (along_of_forall (fun _ _ => trivial) _ _) h

end Daemon

end AgencyProxy
