import AgencyProxy.Daemon.Streams

/-!
# Which attachment speaks

`inForce` reads from a connection's log which attachment the client holds for a run: that of
the last `AttachRun` answered with `Run`, if no `DetachRun` was answered since. The events of
one attachment always come in order and after its cursor. That all event frames of a run come
from the attachment in force is another matter: the queue is shared, and not emptied when an
attachment is replaced or taken back. `Undisturbed` is what has to hold of a step so that no
frame of a former attachment gets into the queue or stays there.
-/

namespace AgencyProxy

open AgencyProxy.Runtime Std Lts

/-! ## The attachment in force -/

/-- The entry answers an `AttachRun` for the run with `Run`. -/
def Written.attachesTo (id : RunId) : Written → Bool
  | .response request answer =>
    match request.message, answer with
    | .attachRun r _, .run _ => r = id
    | _, _ => false
  | _ => false

/-- The entry answers a `DetachRun` for the run with `Accepted`. -/
def Written.detachesFrom (id : RunId) : Written → Bool
  | .response request answer =>
    match request.message, answer with
    | .detachRun r, .accepted => r = id
    | _, _ => false
  | _ => false

theorem Written.attachesTo_run {request : ClientFrame} {id : RunId} {after : Nat}
    {response : ServerResponse} (hm : request.message = .attachRun id after)
    (hr : response.isRun = true) : (Written.response request response).attachesTo id = true := by
  obtain ⟨requestId, message⟩ := request
  cases hm
  cases response with
  | run snapshot => simp [Written.attachesTo]
  | _ => cases hr

theorem Written.attachesTo_response {id : RunId} {request : ClientFrame}
    {answer : ServerResponse} (h : (Written.response request answer).attachesTo id = true) :
    answer.isRun = true ∧ ∃ after, request.message = .attachRun id after := by
  obtain ⟨requestId, message⟩ := request
  cases message with
  | attachRun r after =>
    cases answer with
    | run snapshot => exact ⟨rfl, after, by simpa [Written.attachesTo] using h⟩
    | _ => cases h
  | _ => cases h

theorem Written.attachesTo_of_not_run {id : RunId} {request : ClientFrame}
    {answer : ServerResponse} (hr : answer.isRun = false) :
    (Written.response request answer).attachesTo id = false := by
  by_contra h
  rw [(Written.attachesTo_response (by simpa using h)).1] at hr
  cases hr

theorem Written.detachesFrom_response {id : RunId} {request : ClientFrame}
    {answer : ServerResponse} (h : (Written.response request answer).detachesFrom id = true) :
    answer = .accepted ∧ request.message = .detachRun id := by
  obtain ⟨requestId, message⟩ := request
  cases message with
  | detachRun r =>
    cases answer with
    | accepted => exact ⟨rfl, by simpa [Written.detachesFrom] using h⟩
    | _ => cases h
  | _ => cases h

theorem Written.attachesTo_of_detachesFrom {id : RunId} (w : Written)
    (h : w.detachesFrom id = true) : w.attachesTo id = false := by
  cases w with
  | response request answer =>
    obtain ⟨requestId, message⟩ := request
    cases message with
    | detachRun r => rfl
    | _ => cases h
  | _ => rfl

/-- The attachment in force for the run after a log, and how many were made in all. -/
def hold (id : RunId) : Nat × Option Nat → Written → Nat × Option Nat
  | (n, held), w =>
    (if w.attaching.isSome then n + 1 else n,
      if w.attachesTo id then some n else if w.detachesFrom id then none else held)

/-- The attachment made by the last `AttachRun` for the run that was answered with `Run`, unless
it was detached since. -/
def inForce (id : RunId) (log : List Written) : Option Nat := (log.foldl (hold id) (0, none)).2

section InForce

variable {id : RunId} {log mid : List Written} {w : Written}

theorem hold_count : (log.foldl (hold id) (0, none)).1 = (attaching log).length := by
  induction log using List.reverseRecOn with
  | nil => rfl
  | append_singleton log w ih =>
    rw [List.foldl_append, List.foldl_cons, List.foldl_nil, Conn.attaching_snoc]
    cases hw : w.attaching <;> simp [hold, ih, hw]

theorem inForce_snoc : inForce id (log ++ [w]) =
    if w.attachesTo id then some (attaching log).length
    else if w.detachesFrom id then none else inForce id log := by
  rw [inForce, List.foldl_append, List.foldl_cons, List.foldl_nil, hold, hold_count]
  rfl

/-- An entry that is no answer about the run leaves its attachment in force. -/
theorem inForce_keep (ha : w.attachesTo id = false) (hd : w.detachesFrom id = false) :
    inForce id (log ++ [w]) = inForce id log := by
  simp [inForce_snoc, ha, hd]

/-- As long as the run is not attached to again, the same attachment is in force, or none. -/
theorem inForce_append (log : List Written) (hm : ∀ w ∈ mid, w.attachesTo id = false) :
    inForce id (log ++ mid) = inForce id log ∨ inForce id (log ++ mid) = none := by
  induction mid using List.reverseRecOn with
  | nil => exact .inl (by rw [List.append_nil])
  | append_singleton mid w ih =>
    have ha := hm w (by simp)
    rw [← List.append_assoc, inForce_snoc, ha]
    simp only [Bool.false_eq_true, if_false]
    split
    · exact .inr rfl
    · exact ih fun w hw => hm w (by simp [hw])

end InForce

/-- The next step of the task hands an event to its sink. -/
def Forward.hands (store : Store) (task : Forward) : Bool :=
  (unixForward store task.id task.forwarder (Conn.forwardAct task.forwarder true)).any
    (·.handed.isSome)

namespace Conn

/-- The connection writes the replay of a new attachment to the run. -/
def replays (conn : Conn) (id : RunId) : Bool :=
  match conn.pc with
  | .replaying _ r _ _ => r = id
  | _ => false

/-- When the `Run` that answers an attach, or the `Accepted` that answers a detach, is written, no
frame of that run is in the queue; and no task hands an event over once it is aborted, nor while
the replay of a new attachment to its run is being written. -/
def undisturbed (s : Shared) (conn : Conn) : Act → Bool
  | .write true =>
    match conn.pc with
    | .answering request response _ _ =>
      conn.outbound.all fun p =>
        !(Written.response request response).attachesTo p.2.runId &&
          !(Written.response request response).detachesFrom p.2.runId
    | _ => true
  | .forward n =>
    match conn.forwards[n]? with
    | some task =>
      !conn.isOpen || !task.hands s.registry.store ||
        (!task.aborted && !conn.replays task.id)
    | none => true
  | _ => true

/-- The tasks that are not aborted. While the connection is open each is its run's, and the one
in force unless the replay of the next is being written. -/
structure Tracked (conn : Conn) : Prop where
  held : ∀ (n : Nat) (task : Forward), conn.forwards[n]? = some task → task.aborted = false →
    conn.attachments[task.id]? = some n
  current : ∀ (n : Nat) (task : Forward), conn.forwards[n]? = some task → task.aborted = false →
    conn.isOpen = true → conn.replays task.id = true ∨ inForce task.id conn.written = some n
  replaying : ∀ n id rest forwarder, conn.pc = .replaying n id rest forwarder →
    inForce id conn.written = some n
  busy : ∀ request, conn.pc = .locked request ∨ (∃ k, conn.pc = .starting request k) ∨
    (∃ k, conn.pc = .cancelling request k) → ∀ id, request.message ≠ .detachRun id
  detaching : ∀ request next locked id, conn.pc = .answering request .accepted next locked →
    request.message = .detachRun id →
      ∀ (n : Nat) (task : Forward), conn.forwards[n]? = some task → task.id = id →
        task.aborted = true

variable {s s' : Shared} {c : Nat} {conn conn' : Conn}

theorem tracked_init : Tracked .init :=
  ⟨by simp [init], by simp [init], by simp [init], by simp [init], by simp [init]⟩

/-- After the abort for a run, every task of that run is aborted. -/
theorem Tracked.abort_aborted (h : conn.Tracked) {id : RunId} {n : Nat} {task : Forward}
    (hf : (conn.abort id).forwards[n]? = some task) (hid : task.id = id) :
    task.aborted = true := by
  by_contra hab
  have hab : task.aborted = false := by simpa using hab
  unfold abort at hf
  split at hf
  · rename_i m hm
    dsimp only at hf
    rw [ExtTreeMap.getElem?_modify] at hf
    split at hf
    · obtain ⟨task₀, -, rfl⟩ := Option.map_eq_some_iff.1 hf
      cases hab
    · rename_i hne
      have := h.held n task hf hab
      rw [hid, hm] at this
      cases this
      simp at hne
  · rename_i hm
    have := h.held n task hf hab
    rw [hid, hm] at this
    cases this

/-- A task that an abort leaves running is another run's, and still held. -/
theorem Tracked.abort_other (h : conn.Tracked) {id : RunId} {n : Nat} {task : Forward}
    (hf : (conn.abort id).forwards[n]? = some task) (hab : task.aborted = false) :
    id ≠ task.id ∧ conn.forwards[n]? = some task ∧
      (conn.abort id).attachments[task.id]? = some n := by
  have hne : id ≠ task.id := fun he => by
    rw [h.abort_aborted hf he.symm] at hab; cases hab
  unfold abort at hf ⊢
  split at hf
  · rename_i m hm
    dsimp only at hf ⊢
    rw [ExtTreeMap.getElem?_modify] at hf
    split at hf
    · obtain ⟨task₀, -, rfl⟩ := Option.map_eq_some_iff.1 hf
      cases hab
    · exact ⟨hne, hf, (ExtTreeMap.getElem?_erase_of_ne hne).trans (h.held n task hf hab)⟩
  · exact ⟨hne, hf, h.held n task hf hab⟩

/-- Nothing is written, and no task starts or is aborted. -/
theorem Tracked.keep (h : conn.Tracked) (hw : conn'.written = conn.written)
    (ha : conn'.attachments = conn.attachments)
    (hf : ∀ (n : Nat) (task' : Forward), conn'.forwards[n]? = some task' →
      ∃ task, conn.forwards[n]? = some task ∧ task'.id = task.id ∧ task'.aborted = task.aborted)
    (ho : conn'.isOpen = true →
      conn.isOpen = true ∧ ∀ id, conn.replays id = true → conn'.replays id = true)
    (hr : ∀ n id rest forwarder, conn'.pc = .replaying n id rest forwarder →
      conn.pc = .replaying n id rest forwarder)
    (hb : ∀ request, conn'.pc = .locked request ∨ (∃ k, conn'.pc = .starting request k) ∨
      (∃ k, conn'.pc = .cancelling request k) → ∀ id, request.message ≠ .detachRun id)
    (hd : ∀ request next locked id, conn'.pc = .answering request .accepted next locked →
      request.message = .detachRun id → conn.pc = .answering request .accepted next locked) :
    conn'.Tracked where
  held n task' hn hab := by
    obtain ⟨task, ht, hid, hab'⟩ := hf n task' hn
    rw [ha, hid]
    exact h.held n task ht (hab' ▸ hab)
  current n task' hn hab hop := by
    obtain ⟨task, ht, hid, hab'⟩ := hf n task' hn
    obtain ⟨hop, hrep⟩ := ho hop
    rw [hw, hid]
    exact (h.current n task ht (hab' ▸ hab) hop).imp_left (hrep task.id)
  replaying n id rest forwarder hpc := by
    rw [hw]; exact h.replaying n id rest forwarder (hr n id rest forwarder hpc)
  busy := hb
  detaching request next locked id hpc hm n task' hn hid' := by
    obtain ⟨task, ht, hid, hab⟩ := hf n task' hn
    rw [hab]
    exact h.detaching request next locked id (hd request next locked id hpc hm) hm n task ht
      (hid ▸ hid')

/-- The connection's own code goes on, from a place where it writes no replay. -/
theorem Tracked.goto (h : conn.Tracked) {pc : Pc} {consumed : List (Option ClientFrame)}
    {outbound : List (Nat × SequencedEvent)} (ho : conn.isOpen = true)
    (hn : ∀ id, conn.replays id = false)
    (hr : ∀ n id rest forwarder, pc ≠ .replaying n id rest forwarder)
    (hb : ∀ request, pc = .locked request ∨ (∃ k, pc = .starting request k) ∨
      (∃ k, pc = .cancelling request k) → ∀ id, request.message ≠ .detachRun id)
    (hd : ∀ request next locked id, pc = .answering request .accepted next locked →
      request.message ≠ .detachRun id) :
    ({ conn with pc, consumed, outbound } : Conn).Tracked := by
  refine h.keep rfl rfl (fun n task hf => ⟨task, hf, rfl, rfl⟩)
    (fun _ => ⟨ho, fun id hi => ?_⟩) (fun n id rest f hp => absurd hp (hr n id rest f)) hb
    (fun request next locked id hp hm => absurd hm (hd request next locked id hp))
  rw [hn id] at hi
  cases hi

/-- The connection returns. -/
theorem Tracked.leave (h : conn.Tracked) {exit : Exit} {consumed : List (Option ClientFrame)} :
    ({ conn with pc := .returned exit, consumed } : Conn).Tracked :=
  h.keep rfl rfl (fun n task hf => ⟨task, hf, rfl, rfl⟩) (fun ho => by cases ho) (by simp)
    (by simp) (by simp)

/-- A task moves. -/
theorem Tracked.task (h : conn.Tracked) {n : Nat} {task task' : Forward}
    {outbound : List (Nat × SequencedEvent)} (hf : conn.forwards[n]? = some task)
    (hid : task'.id = task.id) (hab : task'.aborted = task.aborted) :
    ({ conn with forwards := conn.forwards.insert n task', outbound } : Conn).Tracked := by
  refine h.keep rfl rfl ?_ (fun ho => ⟨ho, fun _ hr => hr⟩)
    (fun _ _ _ _ hp => hp) h.busy (fun _ _ _ _ hp _ => hp)
  exact ExtTreeMap.forall_insert (fun m task₁ hm => ⟨task₁, hm, rfl, rfl⟩) ⟨task, hf, hid, hab⟩

/-- An event frame changes nothing about which attachment is in force. -/
theorem Tracked.speak {w : Written} {pc : Pc} (h : conn.Tracked) (hw : w.answered = none)
    (ho : conn.isOpen = true) (hrep : ∀ id, conn.replays id = true →
      ({ conn with pc } : Conn).replays id = true)
    (hr : ∀ n id rest forwarder, pc = .replaying n id rest forwarder →
      inForce id conn.written = some n)
    (hb : ∀ request k, pc ≠ .locked request ∧ pc ≠ .starting request k ∧
      pc ≠ .cancelling request k)
    (hd : ∀ request response next locked, pc ≠ .answering request response next locked) :
    ({ conn with pc, written := conn.written ++ [w] } : Conn).Tracked := by
  have hkeep : ∀ id, inForce id (conn.written ++ [w]) = inForce id conn.written := fun id => by
    cases w with
    | response request response => cases hw
    | _ => exact inForce_keep rfl rfl
  refine ⟨h.held, fun n task hn hab _ => ?_, fun n id rest f hp => ?_, fun request hp => ?_,
    fun request next locked id hp => absurd hp (hd _ _ _ _)⟩
  · exact (h.current n task hn hab ho).imp (hrep task.id) fun he => (hkeep _).trans he
  · exact (hkeep _).trans (hr n id rest f hp)
  · rcases hp with hp | ⟨k, hp⟩ | ⟨k, hp⟩
    · exact absurd hp (hb request 0).1
    · exact absurd hp (hb request k).2.1
    · exact absurd hp (hb request k).2.2

/-- A response that is not a `Run` is written; a run it detaches from has no task left. -/
theorem Tracked.respond (h : conn.Tracked) {request : ClientFrame} {response : ServerResponse}
    {next : Next} {locked : Bool} {pc : Pc}
    (hpc : conn.pc = .answering request response next locked) (hr : response.isRun = false)
    (hp : pc = .selecting ∨ pc = .stopping ∨ pc = .returned .ok) :
    ({ conn with pc, written := conn.written ++ [.response request response] } :
      Conn).Tracked := by
  refine ⟨h.held, fun n task hn hab _ => .inr ?_, ?_, ?_, ?_⟩
  · have hopen : conn.isOpen = true := by simp [isOpen, hpc]
    have hcur := (h.current n task hn hab hopen).resolve_left (by simp [replays, hpc])
    refine (inForce_keep (Written.attachesTo_of_not_run hr) ?_).trans hcur
    · by_contra hd
      have hd : (Written.response request response).detachesFrom task.id = true := by simpa using hd
      obtain ⟨rfl, hm⟩ := Written.detachesFrom_response hd
      rw [h.detaching request next locked task.id hpc hm n task hn rfl] at hab
      cases hab
  all_goals rcases hp with rfl | rfl | rfl <;> simp

/-- The `Run` response puts the next attachment in force, and its replay is to be written. -/
theorem Tracked.attach (h : conn.Tracked) (hd : conn.Disciplined) {request : ClientFrame}
    {response : ServerResponse} {id : RunId} {after : Nat} {attachment : Attachment} {locked : Bool}
    (hpc : conn.pc = .answering request response (.replay id after attachment) locked) :
    ({ conn with
      written := conn.written ++ [.response request response]
      attached := conn.attached ++ [⟨id, after, attachment.replay⟩]
      pc := .replaying conn.attached.length id attachment.replay
        (Forwarder.start attachment after) } : Conn).Tracked := by
  have hok := hd.pc
  simp only [LogOk, hpc] at hok
  obtain ⟨-, hmsg, hrun, -⟩ := hok
  refine ⟨h.held, fun n task hn hab _ => ?_, fun n id' rest f hp => ?_, by simp, by simp⟩
  · by_cases hid : id = task.id
    · exact .inl (by simp [replays, hid])
    · have hopen : conn.isOpen = true := by simp [isOpen, hpc]
      have hcur := (h.current n task hn hab hopen).resolve_left (by simp [replays, hpc])
      refine .inr ((inForce_keep ?_ ?_).trans hcur)
      · by_contra ha
        obtain ⟨-, after', hm⟩ := Written.attachesTo_response (by simpa using ha)
        cases hmsg.symm.trans hm
        exact hid rfl
      · by_contra hdet
        obtain ⟨-, hm⟩ := Written.detachesFrom_response (by simpa using hdet)
        cases hmsg.symm.trans hm
  · cases hp
    have hlen := congrArg List.length hd.history.numbered
    simp only [List.length_map] at hlen
    dsimp only
    rw [inForce_snoc, if_pos (Written.attachesTo_run hmsg hrun), hlen]

theorem greet_not_accepted {frame request : ClientFrame} {next : Next} {locked : Bool} :
    greet frame ≠ .answering request .accepted next locked := by
  unfold greet
  split
  · split <;> simp
  · simp

/-- **Step lemma**: the tasks that run are those in force. -/
theorem Tracked.moves {a : Act} (h : conn.Tracked) (hd : conn.Disciplined)
    (hm : Moves s c conn a s' conn') : conn'.Tracked := by
  cases hm with
  | first frame hpc =>
    obtain ⟨response, next, hg, -⟩ := greet_cases frame
    exact h.goto (by simp [isOpen, hpc]) (by simp [replays, hpc]) (by simp [hg]) (by simp [hg])
      (fun request next locked id hp => absurd hp greet_not_accepted)
  | request frame hpc =>
    exact h.goto (by simp [isOpen, hpc]) (by simp [replays, hpc]) (by simp) (by simp) (by simp)
  | hangUp hpc => exact h.leave
  | close hpc =>
    refine ⟨fun n task hf hab => ?_, fun _ _ _ _ ho => (by cases ho), by simp, by simp, by simp⟩
    simp only [abortAll, ExtTreeMap.getElem?_map] at hf
    obtain ⟨task₀, hf₀, rfl⟩ := Option.map_eq_some_iff.1 hf
    split at hab
    · cases hab
    · rename_i hne
      exact absurd (h.held n task₀ hf₀ hab) hne
  | undecodable hpc => exact h.leave
  | unreadable hpc => exact h.leave
  | relay n event rest hpc hq =>
    exact h.goto (by simp [isOpen, hpc]) (by simp [replays, hpc]) (by simp) (by simp) (by simp)
  | answer reply request response called hpc _ _ hnot =>
    exact h.goto (by simp [isOpen, hpc]) (by simp [replays, hpc]) (by simp) (by simp)
      (fun q next locked id hp => by cases hp; exact hnot id)
  | acknowledge request id through store hpc hmsg =>
    exact h.goto (by simp [isOpen, hpc]) (by simp [replays, hpc]) (by simp) (by simp)
      (fun q next locked id hp => by cases hp; simp [hmsg])
  | lock request hpc hlocks =>
    refine h.goto (by simp [isOpen, hpc]) (by simp [replays, hpc]) (by simp) ?_ (by simp)
    simp only [Pc.locked.injEq, reduceCtorEq, exists_false, or_false]
    rintro q rfl id hm
    rw [hm] at hlocks
    cases hlocks
  | attach request id after attachment store hpc hmsg =>
    exact h.goto (by simp [isOpen, hpc]) (by simp [replays, hpc]) (by simp) (by simp) (by simp)
  | detach request id hpc hmsg =>
    refine ⟨fun n task hf hab => (h.abort_other hf hab).2.2, fun n task hf hab _ => .inr ?_,
      by simp [Conn.answer], by simp [Conn.answer], fun q next locked id' hp hm n task hf hid => ?_⟩
    · have hcur := h.current n task (h.abort_other hf hab).2.1 hab (by simp [isOpen, hpc])
      simpa [Conn.answer] using hcur.resolve_left (by simp [replays, hpc])
    · cases hp
      cases hmsg.symm.trans hm
      exact h.abort_aborted hf hid
  | cancel request id key k registry hpc hmsg =>
    refine h.goto (by simp [isOpen, hpc]) (by simp [replays, hpc]) (by simp) ?_ (by simp)
    simp only [Pc.cancelling.injEq, reduceCtorEq, exists_false, false_or]
    rintro q ⟨k', rfl, -⟩ id' hm
    cases hmsg.symm.trans hm
  | refuse k request message hpc =>
    exact h.goto (by simp [isOpen, hpc]) (by simp [replays, hpc]) (by simp) (by simp) (by simp)
  | idle k request hpc =>
    exact h.goto (by simp [isOpen, hpc]) (by simp [replays, hpc]) (by simp) (by simp)
      (fun q next locked id hp => by cases hp; exact h.busy request (.inl hpc) id)
  | stop k request mode hpc =>
    exact h.goto (by simp [isOpen, hpc]) (by simp [replays, hpc]) (by simp) (by simp)
      (fun q next locked id hp => by cases hp; exact h.busy request (.inl hpc) id)
  | launch k request id spec key registry hpc =>
    refine h.goto (by simp [isOpen, hpc]) (by simp [replays, hpc]) (by simp) ?_ (by simp)
    simp only [Pc.starting.injEq, reduceCtorEq, exists_false, false_or, or_false]
    rintro q ⟨k', rfl, -⟩
    exact h.busy request (.inl hpc)
  | started request k id result hpc =>
    exact h.goto (by simp [isOpen, hpc]) (by simp [replays, hpc]) (by simp) (by simp)
      (fun q next locked id hp =>
        (Pc.answering.inj hp).1 ▸ h.busy request (.inr (.inl ⟨k, hpc⟩)) id)
  | canceled request k id result hpc =>
    exact h.goto (by simp [isOpen, hpc]) (by simp [replays, hpc]) (by simp) (by simp)
      (fun q next locked id hp =>
        (Pc.answering.inj hp).1 ▸ h.busy request (.inr (.inr ⟨k, hpc⟩)) id)
  | wrote request response next locked hpc =>
    have hok := hd.pc
    simp only [LogOk, hpc] at hok
    cases next with
    | replay id after attachment => exact h.attach hd hpc
    | loop => exact h.respond hpc hok.2 (.inl rfl)
    | exit => exact h.respond hpc hok.2 (.inr (.inr rfl))
    | setShutdown => exact h.respond hpc hok.2 (.inr (.inl rfl))
    | drain mode => exact h.respond hpc hok.2 (.inr (.inr rfl))
  | unanswered request response next locked store hpc => exact h.leave
  | relayed n event hpc =>
    exact h.speak rfl (by simp [isOpen, hpc]) (by simp [replays, hpc]) (by simp) (by simp)
      (by simp)
  | unrelayed n event hpc => exact h.leave
  | replayed n id event rest forwarder hpc =>
    refine h.speak rfl (by simp [isOpen, hpc]) (by simp [replays, hpc])
      (fun m id' rest' f hp => ?_) (by simp) (by simp)
    cases hp
    exact h.replaying n id _ forwarder hpc
  | unreplayed n id event rest forwarder hpc => exact h.leave
  | spawn n id forwarder hpc =>
    refine ⟨fun m task hf hab => ?_, fun m task hf hab _ => .inr ?_, by simp, by simp, by simp⟩
    · rcases ExtTreeMap.getElem?_insert_some.1 hf with ⟨rfl, rfl⟩ | ⟨-, hf⟩
      · simp
      · obtain ⟨hne, -, hat⟩ := h.abort_other hf hab
        exact (ExtTreeMap.getElem?_insert_of_ne hne).trans hat
    · rcases ExtTreeMap.getElem?_insert_some.1 hf with ⟨rfl, rfl⟩ | ⟨-, hf⟩
      · simpa using h.replaying n id _ forwarder hpc
      · obtain ⟨hne, hf, -⟩ := h.abort_other hf hab
        have hcur := h.current m task hf hab (by simp [isOpen, hpc])
        simpa using hcur.resolve_left (by simpa [replays, hpc] using hne)
  | setShutdown hpc => exact h.leave
  | wake n task hf => exact h.task hf rfl rfl
  | forward n task stepped hf => exact h.task hf rfl rfl
  | suspend n task hf => exact h.task hf rfl rfl
  | reap n task hf => exact h.task hf rfl rfl

/-- Every event in the log, in hand or in the queue is of the attachment in force. -/
structure Forced (conn : Conn) : Prop where
  spoken : Each (fun log w => ∀ n event, w.spoken = some (n, event) →
    inForce event.runId log = some n) conn.written
  queued : ∀ n event, (n, event) ∈ conn.outbound → inForce event.runId conn.written = some n
  relaying : ∀ n event, conn.pc = .relaying n event → inForce event.runId conn.written = some n

theorem forced_init : Forced .init := ⟨each_nil, by simp [init], by simp [init]⟩

/-- A connection that writes nothing, queues nothing and takes nothing from the queue. -/
theorem Forced.goto (h : conn.Forced) (hw : conn'.written = conn.written)
    (ho : conn'.outbound = conn.outbound)
    (hr : ∀ n event, conn'.pc = .relaying n event → conn.pc = .relaying n event) :
    conn'.Forced where
  spoken := hw ▸ h.spoken
  queued n event he := by rw [hw]; exact h.queued n event (ho ▸ he)
  relaying n event hpc := by rw [hw]; exact h.relaying n event (hr n event hpc)

/-- An event frame is written, of the attachment in force. -/
theorem Forced.speak {n : Nat} {event : SequencedEvent} {w : Written} (h : conn.Forced)
    (hw : w.spoken = some (n, event)) (he : inForce event.runId conn.written = some n)
    (hcw : conn'.written = conn.written ++ [w]) (ho : conn'.outbound = conn.outbound)
    (hr : ∀ n event, conn'.pc ≠ .relaying n event) : conn'.Forced := by
  have hkeep : ∀ id, inForce id (conn.written ++ [w]) = inForce id conn.written := fun id => by
    cases w with
    | response request response => cases hw
    | _ => exact inForce_keep rfl rfl
  refine ⟨?_, fun m e hm => ?_, fun m e hm => absurd hm (hr m e)⟩
  · rw [hcw]
    refine each_snoc.2 ⟨h.spoken, fun m e hs => ?_⟩
    cases hw.symm.trans hs
    exact he
  · rw [hcw, hkeep]; exact h.queued m e (ho ▸ hm)

/-- A response is written that takes no queued frame's attachment out of force. -/
theorem Forced.respond {request : ClientFrame} {response : ServerResponse} (h : conn.Forced)
    (hq : ∀ n event, (n, event) ∈ conn.outbound →
      (Written.response request response).attachesTo event.runId = false ∧
        (Written.response request response).detachesFrom event.runId = false)
    (hcw : conn'.written = conn.written ++ [.response request response])
    (ho : conn'.outbound = conn.outbound) (hr : ∀ n event, conn'.pc ≠ .relaying n event) :
    conn'.Forced := by
  refine ⟨?_, fun m e hm => ?_, fun m e hm => absurd hm (hr m e)⟩
  · rw [hcw]
    exact each_snoc.2 ⟨h.spoken, fun m e hs => by cases hs⟩
  · rw [ho] at hm
    obtain ⟨ha, hd⟩ := hq m e hm
    rw [hcw, inForce_keep ha hd]
    exact h.queued m e hm

/-- **Step lemma**: an undisturbed connection speaks for the attachments in force alone. -/
theorem Forced.moves {a : Act} (h : conn.Forced) (ht : conn.Tracked) (hst : conn.Streams)
    (hj : s.registry.store.Journals) (hn : Registry.Named s.registry.store)
    (hu : conn.undisturbed s a = true) (hm : Moves s c conn a s' conn') : conn'.Forced := by
  cases hm with
  | relay n event rest hpc hq =>
    refine ⟨h.spoken, fun m e hm => h.queued m e ?_, fun m e hm => ?_⟩
    · rw [hq]; exact List.mem_cons_of_mem _ hm
    · cases hm; exact h.queued n event (by simp [hq])
  | wrote request response next locked hpc =>
    simp only [undisturbed, hpc, List.all_eq_true, Bool.and_eq_true, Bool.not_eq_true'] at hu
    have hq := fun n event he => hu (n, event) he
    cases next <;> exact h.respond hq rfl rfl (by simp [proceed])
  | relayed n event hpc => exact h.speak rfl (h.relaying n event hpc) rfl rfl (by simp)
  | replayed n id event rest forwarder hpc =>
    have hown := hst.pc
    simp only [StreamPc, hpc] at hown
    obtain ⟨-, -, att, -, hid, -, hsent⟩ := hown
    have he : event.runId = id := (hsent.ahead.named event (by simp)).trans hid
    exact h.speak rfl (he ▸ ht.replaying n id _ forwarder hpc) rfl rfl (by simp)
  | forward n task stepped hf hpoll hlock hok =>
    obtain ⟨att, -, hid, hready, -⟩ := hst.tasks n task hf
    have hadv := Forwarder.unixForward_advances hj hn (hid ▸ hready) hok
    refine ⟨h.spoken, fun m e hm => ?_, h.relaying⟩
    dsimp only at hm ⊢
    split at hm
    · rename_i hopen
      rcases List.mem_append.1 hm with hm | hm
      · exact h.queued m e hm
      · simp only [Option.mem_toList, Option.map_eq_some_iff, Prod.mk.injEq] at hm
        obtain ⟨event, hh, rfl, rfl⟩ := hm
        have hhands : task.hands s.registry.store = true := by
          rw [hopen] at hok
          simp [Forward.hands, hok, hh]
        simp only [undisturbed, hf, hopen, hhands, Bool.not_true, Bool.false_or,
          Bool.and_eq_true, Bool.not_eq_true'] at hu
        rw [(hadv.next event hh).2.1]
        exact (ht.current n task hf hu.1 hopen).resolve_left (by simp [hu.2])
    · exact h.queued m e hm
  | first frame hpc =>
    obtain ⟨response, next, hg, -, -⟩ := greet_cases frame
    exact h.goto rfl rfl (by simp [hg])
  | detach request id hpc =>
    exact h.goto (by simp [Conn.answer]) (by simp [Conn.answer]) (by simp [Conn.answer])
  | spawn n id forwarder hpc => exact h.goto (by simp) (by simp) (by simp)
  | wake n task => exact h.goto rfl rfl (fun _ _ hpc => hpc)
  | suspend n task => exact h.goto rfl rfl (fun _ _ hpc => hpc)
  | reap n task => exact h.goto rfl rfl (fun _ _ hpc => hpc)
  | _ => exact h.goto rfl rfl (by simp [Conn.answer])

/-! ## What the client sees -/

end Conn

/-- The event frames of a run, in a part of the log. -/
def eventsFor (id : RunId) (log : List Written) : List SequencedEvent :=
  log.filterMap fun w => w.spoken.bind fun p => if p.2.runId = id then some p.2 else none

theorem eventsFor_sublist {id : RunId} {n : Nat} {log : List Written}
    (h : ∀ w ∈ log, ∀ m event, w.spoken = some (m, event) → event.runId = id → m = n) :
    (eventsFor id log).Sublist (spokenBy n log) := by
  induction log with
  | nil => exact .slnil
  | cons w log ih =>
    have ih := ih fun w hw => h w (List.mem_cons_of_mem _ hw)
    simp only [eventsFor, spokenBy, List.filterMap_cons, Written.spokenBy] at ih ⊢
    cases hs : w.spoken with
    | none => simpa using ih
    | some p =>
      simp only [Option.bind_some]
      by_cases hid : p.2.runId = id
      · rw [if_pos hid, if_pos (h w (by simp) p.1 p.2 hs hid)]
        exact ih.cons_cons _
      · simp only [if_neg hid]
        by_cases hn : p.1 = n
        · simp only [if_pos hn]
          exact ih.cons _
        · simp only [if_neg hn]
          exact ih

/-- Each event frame of a run is of the attachment in force for it. So after a `DetachRun` is
answered no event frame of the run is written until the next attach; and after an `AttachRun` is
answered the run's event frames come in order, all after its cursor, until the next one. -/
structure Conn.OnlyInForce (conn : Conn) : Prop where
  speaks : ∀ (pre : List Written) (w : Written) (post : List Written) (n : Nat)
    (event : SequencedEvent), conn.written = pre ++ w :: post → w.spoken = some (n, event) →
      inForce event.runId pre = some n
  detached : ∀ (pre : List Written) (w : Written) (mid post : List Written) (id : RunId),
    conn.written = pre ++ w :: (mid ++ post) → w.detachesFrom id = true →
      (∀ w ∈ mid, w.attachesTo id = false) → eventsFor id mid = []
  attached : ∀ (pre : List Written) (request : ClientFrame) (response : ServerResponse)
    (mid post : List Written) (id : RunId) (after : Nat),
    conn.written = pre ++ .response request response :: (mid ++ post) →
      request.message = .attachRun id after → response.isRun = true →
      (∀ w ∈ mid, w.attachesTo id = false) → Ahead id after (eventsFor id mid)

namespace Conn

variable {conn : Conn}

/-- Until the next attach, only what is in force after an answer speaks. -/
theorem Forced.between (h : conn.Forced) {pre mid post : List Written} {w : Written} {id : RunId}
    (he : conn.written = pre ++ w :: (mid ++ post)) (hm : ∀ w ∈ mid, w.attachesTo id = false) :
    ∀ w' ∈ mid, ∀ n event, w'.spoken = some (n, event) → event.runId = id →
      inForce id (pre ++ [w]) = some n := by
  intro w' hw n event hs hid
  obtain ⟨mid₁, mid₂, rfl⟩ := List.append_of_mem hw
  have hf := h.spoken (pre ++ [w] ++ mid₁) w' (mid₂ ++ post) (by simp [he]) n event hs
  rw [hid] at hf
  rcases inForce_append (pre ++ [w]) fun x hx => hm x (List.mem_append_left _ hx) with hk | hk
  · rw [← hk]; exact hf
  · cases hf.symm.trans hk

theorem Forced.onlyInForce (h : conn.Forced) (hd : conn.Disciplined) (hst : conn.Streams) :
    conn.OnlyInForce where
  speaks pre w post n event he hs := h.spoken pre w post he n event hs
  detached pre w mid post id he hw hm := by
    have hnone : inForce id (pre ++ [w]) = none := by
      rw [inForce_snoc, hw]
      simp [w.attachesTo_of_detachesFrom hw]
    refine List.filterMap_eq_nil_iff.2 fun w' hw' => ?_
    cases hs : w'.spoken with
    | none => rfl
    | some p =>
      refine if_neg fun hid => ?_
      cases hnone.symm.trans (h.between he hm w' hw' p.1 p.2 hs hid)
  attached pre request response mid post id after he hmsg hrun hm := by
    have hforce : inForce id (pre ++ [.response request response]) =
        some (attaching pre).length := by
      rw [inForce_snoc, if_pos (Written.attachesTo_run hmsg hrun)]
    have hsub : (eventsFor id mid).Sublist (spokenBy (attaching pre).length mid) :=
      eventsFor_sublist fun w hw m event hs hid =>
        Option.some.inj ((h.between he hm w hw m event hs hid).symm.trans hforce)
    have hatt : conn.attached[(attaching pre).length]?.map
        (fun att => ClientMessage.attachRun att.id att.after) = some (.attachRun id after) := by
      rw [← List.getElem?_map, ← hd.history.numbered, he]
      simp [attaching, Written.attaching, hrun, hmsg]
    obtain ⟨att, ha, hi⟩ := Option.map_eq_some_iff.1 hatt
    cases hi
    obtain ⟨last, hl⟩ := hst.started _ att ha
    refine hl.ahead.sublist (hsub.trans (List.Sublist.trans ?_ (List.sublist_append_left _ _)))
    refine List.Sublist.trans ?_ (List.sublist_append_left _ _)
    refine List.Sublist.filterMap _ ?_
    rw [he]
    exact ((List.sublist_append_left mid post).cons _).trans (List.sublist_append_right pre _)

end Conn

namespace Daemon

variable {P : Type} {toValue : P → Except String Value} {d : Daemon}

/-- The condition on a step of the daemon: it is one on the connection that takes it. -/
def undisturbed (d : Daemon) : Act P → Bool
  | .conn c a =>
    match d.conns[c]? with
    | some conn => conn.undisturbed d.shared a
    | none => true
  | _ => true

theorem tracked_exec {acts : List (Act P)} (h : exec (step toValue) init acts = some d)
    {c : Nat} {conn : Conn} (hc : d.conns[c]? = some conn) : conn.Tracked :=
  (conns_exec (G := fun _ => True) (I := fun conn => conn.Tracked ∧ conn.Disciplined)
    (fun _ _ _ => trivial) ⟨Conn.tracked_init, Conn.disciplined_init⟩
    (fun _ _ _ _ _ _ _ hi hm => ⟨hi.1.moves hi.2 hm, hi.2.moves hm⟩) h hc).1

theorem forced_exec {acts : List (Act P)}
    (hu : Along (step toValue) (fun d a => d.undisturbed a = true) init acts)
    (h : exec (step toValue) init acts = some d) {c : Nat} {conn : Conn}
    (hc : d.conns[c]? = some conn) : conn.Forced := by
  have hall : ∀ (c : Nat) (conn : Conn), d.conns[c]? = some conn → conn.Forced := by
    refine exec_inv_reachable
      (I := fun d => ∀ (c : Nat) (conn : Conn), d.conns[c]? = some conn → conn.Forced)
      (fun ms d a d' hm hi hq hs => ?_) (fun c conn hc => by simp [init] at hc) hu h
    intro c' conn' hc'
    cases a with
    | accept c =>
      obtain ⟨-, rfl⟩ := accept_cases hs
      rcases ExtTreeMap.getElem?_insert_some.1 hc' with ⟨-, rfl⟩ | ⟨-, hc'⟩
      · exact Conn.forced_init
      · exact hi c' conn' hc'
    | conn c a =>
      obtain ⟨conn, shared, conn₁, hc, hstep, rfl⟩ := conn_cases hs
      rcases ExtTreeMap.getElem?_insert_some.1 hc' with ⟨-, rfl⟩ | ⟨-, hc'⟩
      · obtain ⟨hj, hn⟩ := store_exec hm
        simp only [undisturbed, hc] at hq
        exact (hi c conn hc).moves (tracked_exec hm hc) (streams_exec hm hc) hj hn hq
          (Conn.step_moves hstep)
      · exact hi c' conn' hc'
    | registry a => obtain ⟨-, registry, -, rfl⟩ := registry_cases hs; exact hi c' conn' hc'
    | drain c =>
      obtain ⟨registry, -, -, rfl⟩ | ⟨-, -, rfl⟩ | ⟨-, rfl⟩ := drain_cases hs
      all_goals exact hi c' conn' hc'
    | stop result => obtain ⟨-, rfl⟩ := stop_cases hs; exact hi c' conn' hc'
  exact hall c conn hc

/-- **Only the attachment in force speaks**, on every connection and in every run of the daemon
whose steps are all undisturbed. -/
theorem attachment_speaks (toValue : P → Except String Value) (acts : List (Act P)) (d : Daemon)
    (h : exec (step toValue) init acts = some d)
    (hu : Along (step toValue) (fun d a => d.undisturbed a = true) init acts)
    (c : Nat) (conn : Conn) (hc : d.conns[c]? = some conn) : conn.OnlyInForce :=
  (forced_exec hu h hc).onlyInForce (disciplined_exec h hc) (streams_exec h hc)

/-- The client starts a run and watches it from the first event on. -/
def watching : List (Act Unit) :=
  [.accept 0, .conn 0 (.receive (.frame ⟨1, .hello "watcher" ⟨0, 4⟩⟩)), .conn 0 (.write true),
   .conn 0 (.receive (.frame ⟨2, .startRun ⟨"r"⟩ plainRequest "key"⟩)),
   .conn 0 (.handle .nothing), .conn 0 (.check 0), .registry (.startCheck 0),
   .registry (.startLaunch 0 (.ok ())), .registry (.startInsert 0), .registry (.startCount 0),
   .registry (.startSpawn 0), .conn 0 .started, .conn 0 (.write true),
   .registry (.recv ⟨"r"⟩ (some (.text "one"))), .registry (.publish ⟨"r"⟩),
   .conn 0 (.receive (.frame ⟨3, .attachRun ⟨"r"⟩ 0⟩)), .conn 0 (.handle .nothing),
   .conn 0 (.write true), .conn 0 (.write true), .conn 0 .spawn, .conn 0 (.wake 0)]

/-- It detaches, and later comes back for what it has missed. -/
def comingBack : List (Act Unit) :=
  [.conn 0 (.suspend 0), .conn 0 (.receive (.frame ⟨4, .detachRun ⟨"r"⟩⟩)),
   .conn 0 (.handle .nothing), .conn 0 (.write true), .conn 0 (.reap 0),
   .registry (.recv ⟨"r"⟩ (some (.text "two"))), .registry (.publish ⟨"r"⟩),
   .conn 0 (.receive (.frame ⟨5, .attachRun ⟨"r"⟩ 1⟩)), .conn 0 (.handle .nothing),
   .conn 0 (.write true), .conn 0 (.write true), .conn 0 .spawn, .conn 0 (.wake 1),
   .registry (.recv ⟨"r"⟩ (some (.text "three"))), .registry (.publish ⟨"r"⟩),
   .conn 0 (.forward 1), .conn 0 .relay, .conn 0 (.write true)]

theorem attachment_speaks_comingBack :
    ∃ (d : Daemon) (conn : Conn),
      exec (step fun _ => .ok .null) init (watching ++ comingBack) = some d ∧
      d.conns[0]? = some conn ∧
      (eventsFor ⟨"r"⟩ conn.written).map SequencedEvent.sequence = [1, 2, 3] ∧
      conn.OnlyInForce := by
  have h : ((exec (step fun _ => .ok .null) init (watching ++ comingBack)).bind fun d =>
      d.conns[0]?.map fun conn => (eventsFor ⟨"r"⟩ conn.written).map SequencedEvent.sequence) =
      some [1, 2, 3] := by decide +kernel
  obtain ⟨d, hd, h⟩ := Option.bind_eq_some_iff.1 h
  obtain ⟨conn, hc, h⟩ := Option.map_eq_some_iff.1 h
  exact ⟨d, conn, hd, hc, h, attachment_speaks _ _ d hd (by decide +kernel) 0 conn hc⟩

/-- It attaches again, and before that is answered the first forwarder queues the next event. -/
def attachedTwice : List (Act Unit) :=
  [.conn 0 (.receive (.frame ⟨4, .attachRun ⟨"r"⟩ 0⟩)), .conn 0 (.handle .nothing),
   .registry (.recv ⟨"r"⟩ (some (.text "two"))), .registry (.publish ⟨"r"⟩),
   .conn 0 (.forward 0), .conn 0 (.write true), .conn 0 (.write true), .conn 0 .spawn,
   .conn 0 .relay, .conn 0 (.write true)]

/-- The event is then written while the second attachment is in force. -/
theorem attachment_speaks_attachedTwice :
    ∃ (d : Daemon) (conn : Conn),
      exec (step fun _ => .ok .null) init (watching ++ attachedTwice) = some d ∧
      d.conns[0]? = some conn ∧ ¬ conn.OnlyInForce := by
  have h : ((exec (step fun _ => .ok .null) init (watching ++ attachedTwice)).bind fun d =>
      d.conns[0]?.map fun conn => (inForce ⟨"r"⟩ (conn.written.take 6),
        conn.written[6]?.bind fun w => w.spoken.map fun p => (p.1, p.2.runId))) =
      some (some 1, some (0, ⟨"r"⟩)) := by decide +kernel
  obtain ⟨d, hd, h⟩ := Option.bind_eq_some_iff.1 h
  obtain ⟨conn, hc, h⟩ := Option.map_eq_some_iff.1 h
  obtain ⟨hforce, hw⟩ := Prod.mk.inj h
  obtain ⟨w, hw, hs⟩ := Option.bind_eq_some_iff.1 hw
  obtain ⟨⟨n, event⟩, hs, he⟩ := Option.map_eq_some_iff.1 hs
  obtain ⟨rfl, hid⟩ := Prod.mk.inj he
  refine ⟨d, conn, hd, hc, fun honly => ?_⟩
  obtain ⟨hlt, hw⟩ := List.getElem?_eq_some_iff.1 hw
  have hsplit : conn.written = conn.written.take 6 ++ w :: conn.written.drop 7 := by
    rw [← hw, ← List.drop_eq_getElem_cons hlt, List.take_append_drop]
  have hin := honly.speaks _ w _ _ event hsplit hs
  rw [show event.runId = _ from hid, hforce] at hin
  cases hin

end Daemon

end AgencyProxy
