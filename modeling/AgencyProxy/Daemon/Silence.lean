import AgencyProxy.Daemon.Attachments
import AgencyProxy.Daemon.Draining
import AgencyProxy.Delivery.Endings

/-!
# Attachments that fall silent

The forwarder of an attachment that was neither detached nor replaced goes on for as long as the
connection does, unless it has to attach again when the journal has moved past its last event:
then it returns, and the client is not told that nothing will come any more. `retained` is what
has to hold of a step so that this does not happen.
-/

namespace AgencyProxy

open AgencyProxy.Runtime Std Lts

/-- Every run of the one store is in the other. -/
def Runtime.Store.Keeps (s s' : Store) : Prop :=
  ∀ id : RunId, s.runs[id]? ≠ none → s'.runs[id]? ≠ none

theorem Runtime.Store.Quieter.keeps {s s' : Store} (h : Store.Quieter s s') : s.Keeps s' := by
  intro id hr
  obtain ⟨run, hrun⟩ := Option.ne_none_iff_exists'.1 hr
  obtain ⟨run', hrun', -⟩ := h id run hrun
  simp [hrun']

/-- The run of the attachment that is being answered, or whose replay is being written. -/
def Pc.attachingTo : Pc → Option RunId
  | .answering _ _ (.replay id _ _) _ | .replaying _ id _ _ => some id
  | _ => none

namespace Conn

/-- The runs that the connection is attached to are in the registry. -/
structure Registered (store : Store) (conn : Conn) : Prop where
  tasks : ∀ (n : Nat) (task : Forward), conn.forwards[n]? = some task →
    store.runs[task.id]? ≠ none
  pc : ∀ id, conn.pc.attachingTo = some id → store.runs[id]? ≠ none

/-- The step is one of a forwarder that is not aborted, whose re-attach the journal refuses. -/
def lapses (store : Store) (conn : Conn) : Act → Bool
  | .forward n =>
    conn.isOpen && (conn.forwards[n]?).any fun task =>
      !task.aborted && task.forwarder.lapses store task.id
  | _ => false

/-- No forwarder has ended but by an abort. -/
def Lasting (conn : Conn) : Prop :=
  ∀ (n : Nat) (task : Forward), conn.forwards[n]? = some task → task.aborted = false →
    task.forwarder.phase ≠ .ended

variable {s s' : Shared} {c : Nat} {conn conn' : Conn} {store store' : Store}

theorem registered_init (store : Store) : Registered store .init :=
  ⟨by simp [init], fun id h => by cases h⟩

theorem Registered.keeps (h : conn.Registered store) (hk : store.Keeps store') :
    conn.Registered store' :=
  ⟨fun n task hf => hk _ (h.tasks n task hf), fun id hp => hk id (h.pc id hp)⟩

/-- The connection goes on to where it attaches to nothing. -/
theorem Registered.goto (h : conn.Registered store) (hk : store.Keeps store')
    (hf : ∀ (n : Nat) (task' : Forward), conn'.forwards[n]? = some task' →
      ∃ task, conn.forwards[n]? = some task ∧ task'.id = task.id)
    (hp : conn'.pc.attachingTo = none) : conn'.Registered store' := by
  refine ⟨fun n task' hn => ?_, fun id hid => by rw [hp] at hid; cases hid⟩
  obtain ⟨task, ht, he⟩ := hf n task' hn
  rw [he]
  exact hk _ (h.tasks n task ht)

/-- It comes to where it attaches to the run `id`. -/
theorem Registered.attach (h : conn.Registered store) (hk : store.Keeps store') {id : RunId}
    (hf : conn'.forwards = conn.forwards) (hp : conn'.pc.attachingTo = some id)
    (hr : store.runs[id]? ≠ none) : conn'.Registered store' := by
  refine ⟨fun n task hn => hk _ (h.tasks n task (hf ▸ hn)), fun id' hid => ?_⟩
  cases hp.symm.trans hid
  exact hk id hr

/-- A task moves. -/
theorem Registered.task (h : conn.Registered store) (hk : store.Keeps store') {n : Nat}
    {task task' : Forward} {outbound : List (Nat × SequencedEvent)}
    (hf : conn.forwards[n]? = some task) (hid : task'.id = task.id) :
    ({ conn with forwards := conn.forwards.insert n task', outbound } :
      Conn).Registered store' := by
  refine ⟨ExtTreeMap.forall_insert (fun m task₁ hm => hk _ (h.tasks m task₁ hm)) ?_,
    fun id hp => hk id (h.pc id hp)⟩
  rw [hid]
  exact hk _ (h.tasks n task hf)

theorem Registered.moves {a : Act} (h : conn.Registered s.registry.store)
    (hm : Moves s c conn a s' conn') : conn'.Registered s'.registry.store := by
  have hk := (Daemon.moves_quieter hm).keeps
  have hsame : ∀ (n : Nat) (task : Forward), conn.forwards[n]? = some task →
      ∃ task₀, conn.forwards[n]? = some task₀ ∧ task.id = task₀.id :=
    fun n task hf => ⟨task, hf, rfl⟩
  cases hm with
  | first frame =>
    obtain ⟨response, next, hg, -, hnext⟩ := greet_cases frame
    refine h.goto hk hsame ?_
    rcases hnext with ⟨rfl, -⟩ | ⟨rfl, -⟩ <;> simp only [hg, Pc.attachingTo]
  | close =>
    refine h.goto hk (fun n task hf => ?_) rfl
    obtain ⟨task₀, hf₀, hid, -⟩ := abortAll_forwards hf
    exact ⟨task₀, hf₀, hid⟩
  | attach request id after attachment store hpc hmsg hlock ok =>
    obtain ⟨run, run', hr, -⟩ := Store.attach_ok ok
    exact h.attach hk rfl rfl (by simp [hr])
  | wrote request response next locked hpc =>
    cases next with
    | replay id after attachment => exact h.attach hk rfl rfl (h.pc id (by rw [hpc]; rfl))
    | _ => exact h.goto hk hsame rfl
  | replayed n id event rest forwarder hpc =>
    exact h.attach hk rfl rfl (h.pc id (by rw [hpc]; rfl))
  | detach request id =>
    refine h.goto hk (fun n task hf => ?_) rfl
    obtain ⟨task₀, hf₀, hid, -⟩ := abort_forwards hf
    exact ⟨task₀, hf₀, hid⟩
  | spawn n id forwarder hpc =>
    refine ⟨fun m task hf => ?_, fun id hid => by cases hid⟩
    rcases ExtTreeMap.getElem?_insert_some.1 hf with ⟨-, rfl⟩ | ⟨-, hf⟩
    · exact h.pc id (by rw [hpc]; rfl)
    · obtain ⟨task₀, hf₀, hid, -⟩ := abort_forwards hf
      rw [hid]
      exact h.tasks m task₀ hf₀
  | wake n task found => exact h.task hk found rfl
  | suspend n task found => exact h.task hk found rfl
  | forward n task stepped found => exact h.task hk found rfl
  | reap n task found => exact h.task hk found rfl
  | _ => exact h.goto hk hsame rfl

/-! ## Endings -/

/-- What a task did, if it moves. -/
theorem Lasting.task (h : conn.Lasting) {n : Nat} {task' : Forward}
    {outbound : List (Nat × SequencedEvent)}
    (ht : task'.aborted = false → task'.forwarder.phase ≠ .ended) :
    ({ conn with forwards := conn.forwards.insert n task', outbound } : Conn).Lasting :=
  ExtTreeMap.forall_insert h ht

theorem forwardAct_accepts (f : Forwarder) : (forwardAct f true).accepts = true := by
  unfold forwardAct
  split <;> rfl

/-- A step of a forwarder ends it if its re-attach is refused. -/
theorem forward_ended {n : Nat} {task : Forward} {stepped : Forwarder.Stepped}
    (hreg : conn.Registered s.registry.store) (hopen : s.registry.store.Open)
    (hf : conn.forwards[n]? = some task) (ho : conn.isOpen = true)
    (ok : unixForward s.registry.store task.id task.forwarder
      (forwardAct task.forwarder conn.isOpen) = some stepped) :
    stepped.forwarder.phase = .ended ↔
      task.forwarder.lapses s.registry.store task.id = true := by
  rw [ho] at ok
  exact Transport.forward_ended (t := .unix) ok hopen (hreg.tasks n task hf)
    (forwardAct_accepts task.forwarder)

/-- **Step lemma**: while the connection is open, its forwarders last unless one lapses. -/
theorem Lasting.moves {a : Act} (h : conn.Lasting) (hm : Moves s c conn a s' conn')
    (ht : conn.Tracked) (hp : conn.Primed) (hreg : conn.Registered s.registry.store)
    (hopen : s.registry.store.Open) (hl : conn.lapses s.registry.store a = false)
    (ho : conn'.isOpen = true) : conn'.Lasting := by
  have ho₀ := isOpen_of_moves ho hm
  cases hm with
  | close => cases ho
  | wrote request response next locked => cases next <;> exact h
  | detach request id =>
    intro n task hf hab
    exact h n task (ht.abort_other hf hab).2.1 hab
  | spawn n id forwarder hpc =>
    intro m task hf hab
    rcases ExtTreeMap.getElem?_insert_some.1 hf with ⟨-, rfl⟩ | ⟨-, hf⟩
    · simp [hp n id _ forwarder hpc]
    · exact h m task (ht.abort_other hf hab).2.1 hab
  | wake n task found => exact h.task (h n task found)
  | suspend n task found => exact h.task (h n task found)
  | forward n task stepped found polled lock ok =>
    refine h.task fun hab hend => ?_
    have hlapses := (forward_ended hreg hopen found ho₀ ok).1 hend
    have hab : task.aborted = false := hab
    simp [lapses, ho₀, found, hab, hlapses] at hl
  | reap n task found aborted => exact h.task fun hab => by cases hab.symm.trans aborted
  | _ => exact h

/-- A forwarder that lapses ends, and was not aborted. -/
theorem not_lasting {a : Act} (hm : Moves s c conn a s' conn')
    (hreg : conn.Registered s.registry.store) (hopen : s.registry.store.Open)
    (hl : conn.lapses s.registry.store a = true) :
    conn'.isOpen = true ∧ ¬ conn'.Lasting := by
  cases hm with
  | forward n task stepped found polled lock ok =>
    simp only [lapses, found, Option.any_some, Bool.and_eq_true, Bool.not_eq_true'] at hl
    obtain ⟨ho, hab, hlapses⟩ := hl
    refine ⟨ho, fun hlast => ?_⟩
    exact hlast n _ ExtTreeMap.getElem?_insert_self hab
      ((forward_ended hreg hopen found ho ok).2 hlapses)
  | _ => cases hl

end Conn

namespace Daemon

variable {P : Type} {toValue : P → Except String Value} {d d' : Daemon}

/-- The forwarders of each open connection last. -/
def Lasting (d : Daemon) : Prop :=
  ∀ (c : Nat) (conn : Conn), d.conns[c]? = some conn → conn.isOpen = true → conn.Lasting

/-- No forwarder that is not aborted attaches again where the journal has moved past it. -/
def retained (d : Daemon) : Act P → Bool
  | .conn c a => (d.conns[c]?).all fun conn => !conn.lapses d.shared.registry.store a
  | _ => true

theorem step_keeps {a : Act P} (h : d.step toValue a = some d') :
    d.shared.registry.store.Keeps d'.shared.registry.store := by
  obtain ⟨ks, hk⟩ := step_registry h
  exact fun id hr => Registry.found_exec hk hr

theorem registered_exec {acts : List (Act P)} (h : exec (step toValue) init acts = some d) :
    ∀ (c : Nat) (conn : Conn), d.conns[c]? = some conn →
      conn.Registered d.shared.registry.store := by
  refine exec_inv' (I := fun d => ∀ (c : Nat) (conn : Conn), d.conns[c]? = some conn →
    conn.Registered d.shared.registry.store)
    (fun d a d' hi hs => ?_) (fun c conn hc => by simp [init] at hc) h
  have hk := step_keeps hs
  intro c' conn' hc'
  cases a with
  | accept c =>
    obtain ⟨-, rfl⟩ := accept_cases hs
    rcases ExtTreeMap.getElem?_insert_some.1 hc' with ⟨-, rfl⟩ | ⟨-, hc'⟩
    · exact Conn.registered_init _
    · exact (hi c' conn' hc').keeps hk
  | conn c a =>
    obtain ⟨conn, shared, conn₁, hc, hstep, rfl⟩ := conn_cases hs
    rcases ExtTreeMap.getElem?_insert_some.1 hc' with ⟨-, rfl⟩ | ⟨-, hc'⟩
    · exact (hi c conn hc).moves (Conn.step_moves hstep)
    · exact (hi c' conn' hc').keeps hk
  | registry a =>
    obtain ⟨-, registry, -, rfl⟩ := registry_cases hs
    exact (hi c' conn' hc').keeps hk
  | drain c =>
    obtain ⟨registry, -, -, rfl⟩ | ⟨-, -, rfl⟩ | ⟨-, rfl⟩ := drain_cases hs
    all_goals exact (hi c' conn' hc').keeps hk
  | stop result => obtain ⟨-, rfl⟩ := stop_cases hs; exact hi c' conn' hc'

theorem open_exec {acts : List (Act P)} (h : exec (step toValue) init acts = some d) :
    d.shared.registry.store.Open := by
  obtain ⟨ks, hk⟩ := registry_exec h
  exact Registry.open_exec hk

theorem primed_exec {acts : List (Act P)} (h : exec (step toValue) init acts = some d) {c : Nat}
    {conn : Conn} (hc : d.conns[c]? = some conn) : conn.Primed :=
  conns_exec (G := fun _ => True) (I := Conn.Primed) (fun _ _ _ => trivial) Conn.primed_init
    (fun _ _ _ _ _ _ _ hi hm => hi.moves hm) h hc

theorem Lasting.step {acts : List (Act P)} {a : Act P}
    (hd : exec (Daemon.step toValue) init acts = some d) (h : d.Lasting)
    (hr : d.retained a = true) (hs : d.step toValue a = some d') : d'.Lasting := by
  intro c' conn' hc' ho
  cases a with
  | accept c =>
    obtain ⟨-, rfl⟩ := accept_cases hs
    rcases ExtTreeMap.getElem?_insert_some.1 hc' with ⟨-, rfl⟩ | ⟨-, hc'⟩
    · intro n task hf
      simp [Conn.init] at hf
    · exact h c' conn' hc' ho
  | conn c a =>
    obtain ⟨conn, shared, conn₁, hc, hstep, rfl⟩ := conn_cases hs
    rcases ExtTreeMap.getElem?_insert_some.1 hc' with ⟨-, rfl⟩ | ⟨-, hc'⟩
    · have hm := Conn.step_moves hstep
      exact (h c conn hc (Conn.isOpen_of_moves ho hm)).moves hm (tracked_exec hd hc)
        (primed_exec hd hc) (registered_exec hd c conn hc) (open_exec hd)
        (by simpa [retained, hc] using hr) ho
    · exact h c' conn' hc' ho
  | registry a => obtain ⟨-, registry, -, rfl⟩ := registry_cases hs; exact h c' conn' hc' ho
  | drain c =>
    obtain ⟨registry, -, -, rfl⟩ | ⟨-, -, rfl⟩ | ⟨-, rfl⟩ := drain_cases hs
    all_goals exact h c' conn' hc' ho
  | stop result => obtain ⟨-, rfl⟩ := stop_cases hs; exact h c' conn' hc' ho

theorem not_lasting {acts : List (Act P)} {a : Act P}
    (hd : exec (Daemon.step toValue) init acts = some d) (hr : ¬ d.retained a = true)
    (hs : d.step toValue a = some d') : ¬ d'.Lasting := by
  cases a with
  | conn c a =>
    obtain ⟨conn, shared, conn', hc, hstep, rfl⟩ := conn_cases hs
    simp only [retained, hc, Option.all_some, Bool.not_eq_true', Bool.not_eq_false] at hr
    obtain ⟨ho, hn⟩ := Conn.not_lasting (Conn.step_moves hstep) (registered_exec hd c conn hc)
      (open_exec hd) hr
    exact fun hlast => hn (hlast c conn' ExtTreeMap.getElem?_insert_self ho)
  | _ => exact absurd rfl hr

/-- Over a Unix connection. -/
theorem lasting_iff {acts : List (Act P)} (h : exec (step toValue) init acts = some d) :
    Along (step toValue) (fun d a => d.retained a = true) init acts ↔
      Always (step toValue) Lasting init acts := by
  refine along_iff_always (fun c conn hc => by simp [init] at hc) ?_ ?_ h
  · intro pre d a d' hpre hlast hr hs
    exact hlast.step hpre hr hs
  · intro pre d a d' hpre hr hs
    exact not_lasting hpre hr hs

/-! ## A forwarder that is not scheduled -/

/-- A run of the registry is one of the daemon, if no `start` begins in it. -/
theorem exec_registry {ks : List (Registry.Act P)} {registry : Registry}
    (hk : ∀ a ∈ ks, startsRun a = false)
    (h : exec (Registry.step toValue) d.shared.registry ks = some registry) :
    exec (step toValue) d (ks.map Act.registry) =
      some { d with shared := { d.shared with registry } } := by
  induction ks generalizing d with
  | nil => cases h; rfl
  | cons a ks ih =>
    obtain ⟨m, hm, h⟩ := exec_cons_some.1 h
    have hstep : d.step toValue (.registry a) =
        some { d with shared := { d.shared with registry := m } } := by
      simp only [step, hk a List.mem_cons_self, hm]
      rfl
    rw [List.map_cons, exec_cons_some]
    exact ⟨_, hstep, ih (d := { d with shared := { d.shared with registry := m } })
      (fun a' ha' => hk a' (List.mem_cons_of_mem _ ha')) h⟩

theorem texts_startsRun {id : RunId} {k : Nat} :
    ∀ a ∈ (Registry.texts id k : List (Registry.Act P)), startsRun a = false := by
  induction k with
  | zero => simp [Registry.texts]
  | succ k ih => simpa [Registry.texts, startsRun] using ih

/-- The task is polled on. -/
theorem step_forward (toValue : P → Except String Value) {c n : Nat} {conn : Conn}
    {task : Forward} {st : Forwarder.Stepped}
    (hc : d.conns[c]? = some conn) (hf : conn.forwards[n]? = some task)
    (hpoll : task.polling = true) (hl : d.shared.registry.lock = .free)
    (hs : unixForward d.shared.registry.store task.id task.forwarder
      (Conn.forwardAct task.forwarder conn.isOpen) = some st) :
    ∃ d' conn', d.step toValue (.conn c (.forward n)) = some d' ∧ d'.conns[c]? = some conn' ∧
      conn'.isOpen = conn.isOpen ∧
      conn'.forwards[n]? = some { task with forwarder := st.forwarder } ∧
      d'.shared.registry = { d.shared.registry with store := st.store } := by
  let conn' : Conn := { conn with
    forwards := conn.forwards.insert n { task with forwarder := st.forwarder }
    outbound :=
      if conn.isOpen then conn.outbound ++ (st.handed.map (n, ·)).toList else conn.outbound }
  have hforward : conn.forward d.shared n = some (d.shared.withStore st.store, conn') := by
    simp [Conn.forward, hf, hpoll, hl, hs, conn']
  refine ⟨{ d with shared := d.shared.withStore st.store, conns := d.conns.insert c conn' }, conn',
    ?_, ExtTreeMap.getElem?_insert_self, rfl, ExtTreeMap.getElem?_insert_self, rfl⟩
  simp only [step, hc, Conn.step, hforward, Option.map_some]

/-- The provider sends `k` more texts while the forwarder is polled and not scheduled, and then
the forwarder takes two steps. -/
def leftBehind (c n : Nat) (id : RunId) (k : Nat) : List (Act P) :=
  (Registry.texts id k).map Act.registry ++ [.conn c (.forward n), .conn c (.forward n)]

/-- **Any attachment can fall silent**: neither the ring nor the journal then reaches back to it,
if `k` is large. -/
theorem silenced {acts : List (Act P)} (hd : exec (step toValue) init acts = some d)
    {c n k : Nat} {conn : Conn} {task : Forward} {run : LiveRun} (hc : d.conns[c]? = some conn)
    (ho : conn.isOpen = true) (hf : conn.forwards[n]? = some task) (hab : task.aborted = false)
    (hpoll : task.polling = true) (hp : task.forwarder.phase = .receiving)
    (hpub : d.shared.registry.Publishes task.id run) (hrecv : 0 < run.events.receivers)
    (hring : task.forwarder.events.next + run.events.capacity < run.events.tail + k)
    (hjournal : max run.snapshot.acknowledgedSequence task.forwarder.lastSequence +
      maxReplayEvents < run.snapshot.latestSequence + k) :
    ∃ d', exec (step toValue) init (acts ++ leftBehind c n task.id k) = some d' ∧
      ¬ d'.Lasting := by
  obtain ⟨registry, run', hk, hpub', hlatest, hacked, htail, hcap⟩ :=
    hpub.texts toValue hrecv k
  have hd₁ := exec_append_some.2 ⟨d, hd, exec_registry texts_startsRun hk⟩
  have hfloor : task.forwarder.lastSequence < run'.replayFloor := by
    have := ((store_exec hd₁).1.runs task.id run' hpub'.found).floor_near (by omega)
    omega
  have hhead : task.forwarder.events.next < run'.events.head := by
    have := run'.events.bounded
    unfold Broadcast.Shared.tail at htail hring
    omega
  obtain ⟨st, hst, hstore, hlag, hlapses⟩ :=
    Transport.forward_behind .unix hpub'.found hp hhead hfloor
  obtain ⟨d₂, conn₂, hs₂, hc₂, ho₂, hf₂, hr₂⟩ := step_forward toValue
    (d := { d with shared := { d.shared with registry } }) hc hf hpoll hpub'.lock
    (by rw [ho, Conn.forwardAct, hp]; exact hst)
  have hd₂ := exec_append_some.2 ⟨_, hd₁, exec_single.2 hs₂⟩
  obtain ⟨d₃, conn₃, hs₃, -⟩ := step_forward toValue hc₂ hf₂ hpoll
    (by rw [hr₂]; exact hpub'.lock) (by rw [Conn.forwardAct, hlag, unixForward, hlag])
  have hd₃ := exec_append_some.2 ⟨_, hd₂, exec_single.2 hs₃⟩
  rw [List.append_assoc, List.append_assoc] at hd₃
  refine ⟨d₃, hd₃, not_lasting hd₂ ?_ hs₃⟩
  simp [retained, hc₂, Conn.lapses, ho₂, ho, hf₂, hab, hr₂, hstore, hlapses]

end Daemon

end AgencyProxy
