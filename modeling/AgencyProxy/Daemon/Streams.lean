import AgencyProxy.Daemon.Discipline
import AgencyProxy.Delivery

/-!
# The events of an attachment

What each attachment of a connection sends: `Conn.sent n` is what attachment `n` had written,
has in hand and has in the queue. `Conn.Streams` says that it is in order, of the
attachment's run and after its cursor, and that the forwarder goes on where it ends, whatever
else the connection and the registry do.
-/

namespace AgencyProxy

open AgencyProxy.Runtime Std Lts

/-! ## What a forwarder hands over -/

/-- Events of one run in order, all above `last`. -/
structure Ahead (id : RunId) (last : Nat) (events : List SequencedEvent) : Prop where
  sorted : events.Pairwise fun x y => x.sequence < y.sequence
  above : ∀ e ∈ events, last < e.sequence
  named : ∀ e ∈ events, e.runId = id

theorem Ahead.nil {id : RunId} {last : Nat} : Ahead id last [] := ⟨.nil, by simp, by simp⟩

theorem Ahead.tail {id : RunId} {last : Nat} {event : SequencedEvent}
    {events : List SequencedEvent} (h : Ahead id last (event :: events)) :
    Ahead id event.sequence events :=
  ⟨(List.pairwise_cons.1 h.sorted).2, (List.pairwise_cons.1 h.sorted).1,
    fun e he => h.named e (List.mem_cons_of_mem _ he)⟩

theorem attach_published {store store' : Store} {id : RunId} {after : Nat}
    {attachment : Attachment} (hj : store.Journals)
    (h : store.attach id after = .ok (attachment, store')) :
    ∀ e ∈ attachment.replay, e ∈ store.published id := by
  obtain ⟨run, run', hrun, ha, -⟩ := Store.attach_ok h
  obtain ⟨-, rfl, -⟩ := LiveRun.attach_ok ha
  intro e he
  have hmem := (List.mem_filter.1 he).1
  rw [(hj.runs id run hrun).journal] at hmem
  exact List.mem_of_mem_drop hmem

/-- What an accepted attach replays. -/
theorem attach_ahead {store store' : Store} {id : RunId} {after : Nat}
    {attachment : Attachment} (hj : store.Journals) (hn : Registry.Named store)
    (h : store.attach id after = .ok (attachment, store')) : Ahead id after attachment.replay := by
  have hpub := attach_published hj h
  obtain ⟨run, run', hrun, ha, -⟩ := Store.attach_ok h
  obtain ⟨-, rfl, -⟩ := LiveRun.attach_ok ha
  have hjr := hj.runs id run hrun
  refine ⟨?_, fun e he => ?_, fun e he => hn.published id e (hpub e he)⟩
  · refine List.Pairwise.filter _ ?_
    rw [hjr.journal]
    exact hjr.numbered.pairwise.drop
  · simpa using (List.mem_filter.1 he).2

/-- A value taken from a channel was in its buffer. -/
theorem take_mem {α : Type*} {sh : Broadcast.Shared α} {rx rx' : Broadcast.Receiver} {value : α}
    (h : Broadcast.take sh rx = (some (.ok value), rx')) : value ∈ sh.buffer := by
  unfold Broadcast.take at h
  split at h
  · simp at h
  · split at h
    · rename_i v hv
      cases h
      exact List.mem_of_getElem? hv
    · split at h <;> simp at h

namespace Forwarder

/-- What is left of a replay in progress is ahead of what the task has handed over. -/
def Ready (id : RunId) (f : Forwarder) : Prop :=
  match f.phase with
  | .replaying rest _ => Ahead id f.lastSequence rest
  | _ => True

/-- The step hands over the next event, or none. -/
structure Advances (id : RunId) (f : Forwarder) (st : Stepped) : Prop where
  ready : st.forwarder.Ready id
  kept : st.handed = none → st.forwarder.lastSequence = f.lastSequence
  next : ∀ event, st.handed = some event → f.lastSequence < event.sequence ∧ event.runId = id ∧
    st.forwarder.lastSequence = event.sequence

variable {store : Store} {id : RunId} {f : Forwarder}

theorem close_fields (store : Store) (id : RunId) (f : Forwarder) :
    (close store id f).forwarder.lastSequence = f.lastSequence ∧
      (close store id f).forwarder.Ready id ∧ (close store id f).handed = none := by
  unfold close
  split
  · exact ⟨rfl, trivial, rfl⟩
  · exact ⟨rfl, trivial, rfl⟩
  · exact ⟨rfl, trivial, rfl⟩
  · rename_i hp
    refine ⟨rfl, ?_, rfl⟩
    simp only [Ready, hp]

theorem close_advances : Advances id f (close store id f) := by
  obtain ⟨hl, hr, hh⟩ := close_fields store id f
  exact ⟨hr, fun _ => hl, fun event he => by rw [hh] at he; cases he⟩

/-- Handing over an event that is ahead, in a state that is ready once it is handed over. -/
theorem emit_advances {event : SequencedEvent} (accepts : Bool) {f' : Forwarder}
    (hlt : f.lastSequence < event.sequence) (hid : event.runId = id)
    (hr : ({ f' with lastSequence := event.sequence } : Forwarder).Ready id) :
    Advances id f (emit store id f' event accepts) := by
  unfold emit
  dsimp only
  split
  · exact ⟨hr, fun hn => (by cases hn), fun e he => by cases he; exact ⟨hlt, hid, rfl⟩⟩
  · obtain ⟨hl, hcr, -⟩ := close_fields store id { f' with lastSequence := event.sequence }
    exact ⟨hcr, fun hn => (by cases hn), fun e he => by cases he; exact ⟨hlt, hid, hl⟩⟩

theorem recv_advances {accepts : Bool} {st : Stepped} (hn : Registry.Named store)
    (hp : f.phase = .receiving) (h : recv store id f accepts = some st) : Advances id f st := by
  unfold recv at h
  split at h
  · cases h
  · rename_i run hrun
    split at h
    · cases h; exact ⟨by simp [Ready, hp], fun _ => rfl, fun e he => by cases he⟩
    · rename_i event events ht
      split at h
      · cases h
        exact ⟨by simp [Ready, hp], fun _ => rfl, fun e he => by cases he⟩
      · rename_i hlt
        cases h
        refine emit_advances accepts (by omega) ?_ (by simp [Ready, hp])
        exact hn.published id event (hn.buffer id run hrun event (take_mem ht))
    · cases h; exact ⟨trivial, fun _ => rfl, fun e he => by cases he⟩
    · rename_i events ht
      cases h
      obtain ⟨hl, hcr, hh⟩ := close_fields store id { f with events }
      exact ⟨hcr, fun _ => hl, fun e he => by rw [hh] at he; cases he⟩

theorem reattach_advances (hj : store.Journals) (hn : Registry.Named store) :
    Advances id f (reattach store id f) := by
  unfold reattach
  split
  · rename_i attachment store' ha
    exact ⟨attach_ahead hj hn ha, fun _ => rfl, fun e he => by cases he⟩
  · exact close_advances

/-- **One step of a forwarder**: it hands over at most one event, of its run and after all
those that it has handed over before. -/
theorem unixForward_advances {act : Act} {st : Stepped} (hj : store.Journals)
    (hn : Registry.Named store) (hr : f.Ready id) (h : unixForward store id f act = some st) :
    Advances id f st := by
  cases act with
  | recv accepts =>
    simp only [unixForward] at h
    split at h
    · rename_i hp
      exact recv_advances hn hp h
    · cases h
  | reattach =>
    simp only [unixForward] at h
    split at h
    · cases h
      exact reattach_advances hj hn
    · cases h
  | replay accepts =>
    simp only [unixForward] at h
    split at h
    · rename_i event rest events hp
      cases h
      simp only [Ready, hp] at hr
      exact emit_advances accepts (hr.above event (by simp)) (hr.named event (by simp)) hr.tail
    · cases h; exact ⟨trivial, fun _ => rfl, fun e he => by cases he⟩
    · cases h

/-- The same of `forwardRunEvents`, whose second check of the replay never skips an event. -/
theorem forwardRunEvents_advances {act : Act} {st : Stepped} (hj : store.Journals)
    (hn : Registry.Named store) (hr : f.Ready id)
    (h : forwardRunEvents store id f act = some st) : Advances id f st := by
  cases act with
  | recv accepts =>
    simp only [forwardRunEvents] at h
    split at h
    · rename_i hp
      exact recv_advances hn hp h
    · cases h
  | reattach =>
    simp only [forwardRunEvents] at h
    split at h
    · cases h
      exact reattach_advances hj hn
    · cases h
  | replay accepts =>
    simp only [forwardRunEvents] at h
    split at h
    · rename_i event rest events hp
      simp only [Ready, hp] at hr
      have hlt := hr.above event (by simp)
      rw [if_neg (by omega)] at h
      cases h
      exact emit_advances accepts hlt (hr.named event (by simp)) hr.tail
    · cases h; exact ⟨trivial, fun _ => rfl, fun e he => by cases he⟩
    · cases h

end Forwarder

/-! ## The events of one attachment -/

/-- An event in the log, with its attachment. -/
def Written.spoken : Written → Option (Nat × SequencedEvent)
  | .response _ _ => none
  | .replayed n event | .live n event => some (n, event)

def Written.spokenBy (n : Nat) (w : Written) : Option SequencedEvent :=
  w.spoken.bind fun p => if p.1 = n then some p.2 else none

/-- The events that attachment `n` had written. -/
def spokenBy (n : Nat) (log : List Written) : List SequencedEvent :=
  log.filterMap (Written.spokenBy n)

/-- Its event taken from the queue and not written yet. -/
def Pc.inHand (n : Nat) : Pc → List SequencedEvent
  | .relaying m event => if m = n then [event] else []
  | _ => []

/-- Its events in the queue. -/
def queuedBy (n : Nat) (outbound : List (Nat × SequencedEvent)) : List SequencedEvent :=
  outbound.filterMap fun p => if p.1 = n then some p.2 else none

/-- Events of the attachment `att`, in order, none before its cursor or after `last`. -/
structure Stream (att : Attached) (sent : List SequencedEvent) (last : Nat) : Prop where
  ahead : Ahead att.id att.after sent
  upto : ∀ e ∈ sent, e.sequence ≤ last
  after_le : att.after ≤ last

section Stream

variable {att : Attached} {sent sent' : List SequencedEvent} {last last' : Nat}
  {event : SequencedEvent}

theorem Stream.nil : Stream att [] att.after := ⟨.nil, by simp, Nat.le_refl _⟩

theorem Stream.mono (h : Stream att sent last) (hl : last ≤ last') : Stream att sent last' :=
  ⟨h.ahead, fun e he => (h.upto e he).trans hl, h.after_le.trans hl⟩

theorem Ahead.sublist {id : RunId} {after : Nat} (h : Ahead id after sent)
    (hs : sent'.Sublist sent) : Ahead id after sent' :=
  ⟨h.sorted.sublist hs, fun e he => h.above e (hs.subset he),
    fun e he => h.named e (hs.subset he)⟩

theorem Stream.sublist (h : Stream att sent last) (hs : sent'.Sublist sent) :
    Stream att sent' last :=
  ⟨h.ahead.sublist hs, fun e he => h.upto e (hs.subset he), h.after_le⟩

theorem Stream.snoc (h : Stream att sent last) (hlt : last < event.sequence)
    (hid : event.runId = att.id) : Stream att (sent ++ [event]) event.sequence where
  ahead :=
    { sorted := by
        refine List.pairwise_append.2 ⟨h.ahead.sorted, List.pairwise_singleton _ _, ?_⟩
        intro x hx y hy
        obtain rfl := List.mem_singleton.1 hy
        exact (h.upto x hx).trans_lt hlt
      above := by
        intro e he
        rcases List.mem_append.1 he with he | he
        · exact h.ahead.above e he
        · obtain rfl := List.mem_singleton.1 he
          exact h.after_le.trans_lt hlt
      named := by
        intro e he
        rcases List.mem_append.1 he with he | he
        · exact h.ahead.named e he
        · obtain rfl := List.mem_singleton.1 he
          exact hid }
  upto e he := by
    rcases List.mem_append.1 he with he | he
    · exact (h.upto e he).trans hlt.le
    · obtain rfl := List.mem_singleton.1 he
      exact Nat.le_refl _
  after_le := h.after_le.trans hlt.le

/-- A forwarder starts after the replay. -/
theorem Stream.start (att : Attached) {attachment : Attachment}
    (h : Ahead att.id att.after attachment.replay) :
    Stream att attachment.replay (Forwarder.start attachment att.after).lastSequence := by
  have hl : IsLast attachment.replay att.after
      (Forwarder.start attachment att.after).lastSequence := IsLast.of_sorted h.sorted
  refine ⟨h, hl.le, ?_⟩
  rcases hl.eq with he | ⟨x, hx, he⟩
  · exact he.ge
  · exact he ▸ (h.above x hx).le

end Stream

namespace Conn

/-- All events of attachment `n` on their way to the client, oldest first. -/
def sent (conn : Conn) (n : Nat) : List SequencedEvent :=
  spokenBy n conn.written ++ conn.pc.inHand n ++ queuedBy n conn.outbound

/-- While a replay is written its attachment has no task, and what follows is in order too. -/
def StreamPc (conn : Conn) : Prop :=
  match conn.pc with
  | .answering _ _ (.replay id after attachment) _ => Ahead id after attachment.replay
  | .replaying n id rest forwarder =>
    conn.forwards[n]? = none ∧ queuedBy n conn.outbound = [] ∧
      ∃ att, conn.attached[n]? = some att ∧ att.id = id ∧ forwarder.Ready id ∧
        Stream att (spokenBy n conn.written ++ rest) forwarder.lastSequence
  | _ => True

/-- A task goes on where its attachment's events end. -/
def TaskOk (conn : Conn) (n : Nat) (task : Forward) : Prop :=
  ∃ att, conn.attached[n]? = some att ∧ task.id = att.id ∧ task.forwarder.Ready att.id ∧
    Stream att (conn.sent n) task.forwarder.lastSequence

structure Streams (conn : Conn) : Prop where
  started : ∀ n att, conn.attached[n]? = some att → ∃ last, Stream att (conn.sent n) last
  unstarted : ∀ n, conn.attached[n]? = none → conn.sent n = []
  tasks : ∀ (n : Nat) (task : Forward), conn.forwards[n]? = some task → conn.TaskOk n task
  pc : conn.StreamPc

@[simp] theorem spokenBy_snoc {n : Nat} {log : List Written} {w : Written} :
    spokenBy n (log ++ [w]) = spokenBy n log ++ (w.spokenBy n).toList := by
  cases h : w.spokenBy n <;> simp [spokenBy, h]

variable {s s' : Shared} {c : Nat} {conn conn' : Conn}

theorem streams_init : Streams .init :=
  ⟨by simp [init], fun _ _ => rfl, by simp [init], trivial⟩

/-- Nothing is sent, and the tasks stay where they are. -/
theorem Streams.keep (h : conn.Streams) (hs : ∀ n, (conn'.sent n).Sublist (conn.sent n))
    (ha : conn'.attached = conn.attached)
    (hf : ∀ (n : Nat) (task' : Forward), conn'.forwards[n]? = some task' →
      ∃ task, conn.forwards[n]? = some task ∧ task'.id = task.id ∧
        task'.forwarder = task.forwarder)
    (hpc : conn'.StreamPc) : conn'.Streams where
  started n att hn := by
    obtain ⟨last, hl⟩ := h.started n att (ha ▸ hn)
    exact ⟨last, hl.sublist (hs n)⟩
  unstarted n hn := by
    have := hs n
    rwa [h.unstarted n (ha ▸ hn), List.sublist_nil] at this
  tasks n task' hn := by
    obtain ⟨task, ht, hid, hfw⟩ := hf n task' hn
    obtain ⟨att, hatt, hid', hr, hst⟩ := h.tasks n task ht
    exact ⟨att, ha ▸ hatt, hid.trans hid', hfw ▸ hr, hfw ▸ hst.sublist (hs n)⟩
  pc := hpc

/-- The connection's own code goes on, its log and its queue as they were. -/
theorem Streams.goto (h : conn.Streams) {pc : Pc} {consumed : List (Option ClientFrame)}
    (hh : ∀ n, pc.inHand n = []) (hpc : ({ conn with pc, consumed } : Conn).StreamPc) :
    ({ conn with pc, consumed } : Conn).Streams := by
  refine h.keep (fun n => ?_) rfl (fun n task hn => ⟨task, hn, rfl, rfl⟩) hpc
  simp only [sent, hh, List.append_nil]
  exact List.Sublist.append (List.sublist_append_left _ _) (List.Sublist.refl _)

/-- A response that starts no attachment is written. -/
theorem Streams.respond (h : conn.Streams) {request : ClientFrame} {response : ServerResponse}
    {pc : Pc} (hh : ∀ n, pc.inHand n = [])
    (hpc : ∀ written, ({ conn with pc, written } : Conn).StreamPc) :
    ({ conn with pc, written := conn.written ++ [.response request response] } :
      Conn).Streams := by
  refine h.keep (fun n => ?_) rfl (fun n task hn => ⟨task, hn, rfl, rfl⟩) (hpc _)
  simp only [sent, hh, spokenBy_snoc, Written.spokenBy, Written.spoken, Option.bind_none,
    Option.toList_none, List.append_nil]
  exact List.Sublist.append (List.sublist_append_left _ _) (List.Sublist.refl _)

/-- The `Run` response starts the next attachment. -/
theorem Streams.attach (h : conn.Streams) {request : ClientFrame} {response : ServerResponse}
    {id : RunId} {after : Nat} {attachment : Attachment} {locked : Bool}
    (hpc : conn.pc = .answering request response (.replay id after attachment) locked) :
    ({ conn with
      written := conn.written ++ [.response request response]
      attached := conn.attached ++ [⟨id, after, attachment.replay⟩]
      pc := .replaying conn.attached.length id attachment.replay
        (Forwarder.start attachment after) } : Conn).Streams := by
  have hahead := h.pc
  simp only [StreamPc, hpc] at hahead
  have hnew : conn.attached[conn.attached.length]? = none := by simp
  have hempty := h.unstarted _ hnew
  have hsent : ∀ n, ({ conn with
      written := conn.written ++ [.response request response]
      attached := conn.attached ++ [⟨id, after, attachment.replay⟩]
      pc := .replaying conn.attached.length id attachment.replay
        (Forwarder.start attachment after) } : Conn).sent n = conn.sent n := fun n => by
    simp [sent, hpc, Pc.inHand, Written.spokenBy, Written.spoken]
  have hold : ∀ (n : Nat) (att : Attached), conn.attached[n]? = some att →
      (conn.attached ++ [⟨id, after, attachment.replay⟩])[n]? = some att := fun n att hn => by
    rw [List.getElem?_append_left (List.getElem?_eq_some_iff.1 hn).1]
    exact hn
  refine ⟨fun n att hn => ?_, fun n hn => ?_, fun n task hf => ?_, ?_⟩
  · rw [hsent]
    by_cases hl : n < conn.attached.length
    · rw [List.getElem?_append_left hl] at hn
      exact h.started n att hn
    · rw [h.unstarted n (by simpa using hl)]
      exact ⟨_, Stream.nil⟩
  · rw [hsent]
    refine h.unstarted n ?_
    simp only [List.getElem?_eq_none_iff, List.length_append] at hn ⊢
    omega
  · obtain ⟨att, hatt, hid, hr, hst⟩ := h.tasks n task hf
    exact ⟨att, hold n att hatt, hid, hr, by rw [hsent]; exact hst⟩
  · simp only [sent, hpc, Pc.inHand, List.append_nil, List.append_eq_nil_iff] at hempty
    refine ⟨?_, hempty.2, ⟨id, after, attachment.replay⟩, by simp, rfl, trivial, ?_⟩
    · cases hf : conn.forwards[conn.attached.length]? with
      | none => rfl
      | some task =>
        obtain ⟨att, hatt, -⟩ := h.tasks _ task hf
        cases hnew.symm.trans hatt
    · simp only [spokenBy_snoc, Written.spokenBy, Written.spoken, Option.bind_none,
        Option.toList_none, List.append_nil, hempty.1, List.nil_append]
      exact Stream.start ⟨id, after, attachment.replay⟩ hahead

/-- A task that moves leaves the connection's own place as it was. -/
theorem StreamPc.task (h : conn.StreamPc) {n : Nat} {task task' : Forward}
    {outbound : List (Nat × SequencedEvent)} (hf : conn.forwards[n]? = some task)
    (ho : ∀ m, m ≠ n → queuedBy m outbound = queuedBy m conn.outbound) :
    ({ conn with forwards := conn.forwards.insert n task', outbound } : Conn).StreamPc := by
  unfold StreamPc at h ⊢
  cases hpc : conn.pc with
  | answering request response next locked => rw [hpc] at h; cases next <;> exact h
  | replaying m id rest forwarder =>
    simp only [hpc] at h ⊢
    obtain ⟨hn, hq, hst⟩ := h
    have hne : n ≠ m := by rintro rfl; cases hn.symm.trans hf
    exact ⟨(ExtTreeMap.getElem?_insert_of_ne hne).trans hn, (ho m hne.symm).trans hq, hst⟩
  | _ => trivial

/-- A task is polled, or suspends. -/
theorem Streams.poll (h : conn.Streams) {n : Nat} {task : Forward} (polling : Bool)
    (hf : conn.forwards[n]? = some task) :
    ({ conn with forwards := conn.forwards.insert n { task with polling } } : Conn).Streams := by
  refine h.keep (fun m => .refl _) rfl ?_ (h.pc.task hf fun _ _ => rfl)
  exact ExtTreeMap.forall_insert (fun m task' hm => ⟨task', hm, rfl, rfl⟩) ⟨task, hf, rfl, rfl⟩

/-- A task advances, and what it hands over goes to the end of the queue, if there is one. -/
theorem Streams.task (h : conn.Streams) {n : Nat} {task : Forward} {st : Forwarder.Stepped}
    {outbound : List (Nat × SequencedEvent)} (hf : conn.forwards[n]? = some task)
    (hadv : Forwarder.Advances task.id task.forwarder st)
    (ho : outbound = conn.outbound ∨
      outbound = conn.outbound ++ (st.handed.map (n, ·)).toList) :
    ({ conn with
      forwards := conn.forwards.insert n { task with forwarder := st.forwarder }, outbound } :
      Conn).Streams := by
  obtain ⟨att, hatt, hid, hready, hst⟩ := h.tasks n task hf
  have hother : ∀ m, m ≠ n → queuedBy m outbound = queuedBy m conn.outbound := fun m hne => by
    rcases ho with rfl | rfl
    · rfl
    · cases st.handed with
      | none => simp
      | some event => simp [queuedBy, hne.symm]
  have hown : Stream att (spokenBy n conn.written ++ conn.pc.inHand n ++ queuedBy n outbound)
      st.forwarder.lastSequence := by
    cases hh : st.handed with
    | none =>
      rw [hadv.kept hh]
      rcases ho with rfl | rfl
      · exact hst
      · simpa [hh, sent] using hst
    | some event =>
      obtain ⟨hlt, hev, hlast⟩ := hadv.next event hh
      rw [hlast]
      rcases ho with rfl | rfl
      · exact hst.mono hlt.le
      · have := hst.snoc hlt (hev.trans hid)
        simpa [hh, queuedBy, sent] using this
  have hsent : ∀ m, m ≠ n → spokenBy m conn.written ++ conn.pc.inHand m ++ queuedBy m outbound =
      conn.sent m := fun m hne => by rw [hother m hne]; rfl
  refine ⟨fun m att' hm => ?_, fun m hm => ?_, fun m task' hm => ?_, h.pc.task hf hother⟩
  · by_cases hne : m = n
    · subst hne
      cases hatt.symm.trans hm
      exact ⟨_, hown⟩
    · obtain ⟨last, hl⟩ := h.started m att' hm
      exact ⟨last, by simpa [sent, hother m hne] using hl⟩
  · have hne : m ≠ n := by rintro rfl; cases hatt.symm.trans hm
    exact (hsent m hne).trans (h.unstarted m hm)
  · rcases ExtTreeMap.getElem?_insert_some.1 hm with ⟨rfl, rfl⟩ | ⟨hne, hm⟩
    · exact ⟨att, hatt, hid, hid ▸ hadv.ready, hown⟩
    · obtain ⟨att', hatt', hid', hr', hst'⟩ := h.tasks m task' hm
      exact ⟨att', hatt', hid', hr', by simpa [sent, hother m (Ne.symm hne)] using hst'⟩

/-- The next event of the replay is written. -/
theorem Streams.replay (h : conn.Streams) {n : Nat} {id : RunId} {event : SequencedEvent}
    {rest : List SequencedEvent} {forwarder : Forwarder}
    (hpc : conn.pc = .replaying n id (event :: rest) forwarder) :
    ({ conn with
      written := conn.written ++ [.replayed n event], pc := .replaying n id rest forwarder } :
      Conn).Streams := by
  have hown := h.pc
  simp only [StreamPc, hpc] at hown
  obtain ⟨hnone, hq, att, hatt, hid, hready, hst⟩ := hown
  have hother : ∀ m, m ≠ n → ({ conn with
      written := conn.written ++ [.replayed n event], pc := .replaying n id rest forwarder } :
      Conn).sent m = conn.sent m := fun m hne => by
    simp [sent, hpc, Pc.inHand, Written.spokenBy, Written.spoken, hne.symm]
  have hnext : spokenBy n (conn.written ++ [.replayed n event]) ++ rest =
      spokenBy n conn.written ++ event :: rest := by
    simp [Written.spokenBy, Written.spoken]
  refine ⟨fun m att' hm => ?_, fun m hm => ?_, fun m task hm => ?_,
    ⟨hnone, hq, att, hatt, hid, hready, by rw [hnext]; exact hst⟩⟩
  · by_cases hne : m = n
    · subst hne
      cases hatt.symm.trans hm
      refine ⟨forwarder.lastSequence, hst.sublist ?_⟩
      rw [← hnext]
      simp [sent, Pc.inHand, hq]
    · rw [hother m hne]
      exact h.started m att' hm
  · have hne : m ≠ n := by rintro rfl; cases hatt.symm.trans hm
    rw [hother m hne]
    exact h.unstarted m hm
  · have hne : m ≠ n := by rintro rfl; cases hnone.symm.trans hm
    obtain ⟨att', hatt', hid', hr', hst'⟩ := h.tasks m task hm
    exact ⟨att', hatt', hid', hr', by rw [hother m hne]; exact hst'⟩

/-- The forwarder is spawned once the whole replay is written. -/
theorem Streams.spawn (h : conn.Streams) {n : Nat} {id : RunId} {forwarder : Forwarder}
    {attachments : ExtTreeMap RunId Nat} (hpc : conn.pc = .replaying n id [] forwarder) :
    ({ conn.abort id with
      attachments
      forwards := (conn.abort id).forwards.insert n ⟨id, forwarder, false, false⟩
      pc := .selecting } : Conn).Streams := by
  have hown := h.pc
  simp only [StreamPc, hpc, List.append_nil] at hown
  obtain ⟨hnone, hq, att, hatt, hid, hready, hst⟩ := hown
  have hsent : ∀ m, ({ conn.abort id with
      attachments
      forwards := (conn.abort id).forwards.insert n ⟨id, forwarder, false, false⟩
      pc := .selecting } : Conn).sent m = conn.sent m := fun m => by
    simp [sent, hpc, Pc.inHand]
  refine ⟨fun m att' hm => ?_, fun m hm => ?_, fun m task hm => ?_, trivial⟩
  · rw [hsent]; exact h.started m att' (by simpa using hm)
  · rw [hsent]; exact h.unstarted m (by simpa using hm)
  · rcases ExtTreeMap.getElem?_insert_some.1 hm with ⟨rfl, rfl⟩ | ⟨-, hm⟩
    · refine ⟨att, by simpa using hatt, hid.symm, hid ▸ hready, ?_⟩
      rw [hsent]
      simpa [sent, hpc, Pc.inHand, hq] using hst
    · obtain ⟨task₀, hm, hi, hfw⟩ := abort_forwards hm
      obtain ⟨att', hatt', hid', hr', hst'⟩ := h.tasks m task₀ hm
      exact ⟨att', by simpa using hatt', hi.trans hid', hfw ▸ hr', by rw [hsent, hfw]; exact hst'⟩

/-- **Step lemma**: each attachment's events stay in order. -/
theorem Streams.moves {a : Act} (h : conn.Streams) (hj : s.registry.store.Journals)
    (hn : Registry.Named s.registry.store) (hm : Moves s c conn a s' conn') : conn'.Streams := by
  cases hm with
  | first frame hpc =>
    obtain ⟨response, next, hg, -, hnext⟩ := greet_cases frame
    rw [hg]
    refine h.goto (fun _ => rfl) ?_
    rcases hnext with ⟨rfl, -⟩ | ⟨rfl, -⟩ <;> trivial
  | close hpc =>
    refine h.keep (fun n => ?_) rfl (fun n task hf => abortAll_forwards hf) trivial
    simp [sent, abortAll, hpc, Pc.inHand]
  | relay n event rest hpc hq =>
    refine h.keep (fun m => ?_) rfl (fun m task hf => ⟨task, hf, rfl, rfl⟩) trivial
    by_cases hne : n = m <;> simp [sent, hpc, Pc.inHand, hq, queuedBy, hne]
  | attach request id after attachment store hpc hmsg hlock hok =>
    exact h.goto (fun _ => rfl) (attach_ahead hj hn hok)
  | detach request id hpc =>
    refine h.keep (fun n => ?_) (by simp [Conn.answer]) (fun n task hf => abort_forwards hf) trivial
    simp [sent, Conn.answer, hpc, Pc.inHand]
  | wrote request response next locked hpc =>
    cases next with
    | replay id after attachment => exact h.attach hpc
    | _ => exact h.respond (fun _ => rfl) fun _ => trivial
  | relayed n event hpc =>
    refine h.keep (fun m => ?_) rfl (fun m task hf => ⟨task, hf, rfl, rfl⟩) trivial
    by_cases hne : n = m <;>
      simp [sent, hpc, Pc.inHand, Written.spokenBy, Written.spoken, hne]
  | replayed n id event rest forwarder hpc => exact h.replay hpc
  | spawn n id forwarder hpc => exact h.spawn hpc
  | wake n task hf => exact h.poll true hf
  | suspend n task hf => exact h.poll false hf
  | forward n task stepped hf hpoll hlock hok =>
    obtain ⟨att, hatt, hid, hready, hst⟩ := h.tasks n task hf
    refine h.task hf (Forwarder.unixForward_advances hj hn (hid ▸ hready) hok) ?_
    split
    · exact .inr rfl
    · exact .inl rfl
  | reap n task hf =>
    exact h.task hf Forwarder.close_advances (.inl rfl)
  | _ => exact h.goto (fun _ => rfl) trivial

end Conn

namespace Daemon

variable {P : Type} {toValue : P → Except String Value} {d : Daemon}

theorem store_exec {acts : List (Act P)} (h : exec (step toValue) init acts = some d) :
    d.shared.registry.store.Journals ∧ Registry.Named d.shared.registry.store := by
  obtain ⟨ks, hk⟩ := registry_exec h
  exact ⟨Registry.journals_exec hk, Registry.named_exec hk⟩

theorem streams_exec {acts : List (Act P)} (h : exec (step toValue) init acts = some d)
    {c : Nat} {conn : Conn} (hc : d.conns[c]? = some conn) : conn.Streams :=
  conns_exec (G := fun s => s.registry.store.Journals ∧ Registry.Named s.registry.store)
    (fun _ _ hm => store_exec hm) Conn.streams_init
    (fun _ _ _ _ _ _ hg hs hm => hs.moves hg.1 hg.2 hm) h hc

end Daemon

end AgencyProxy
