import AgencyProxy.Forwarder
import AgencyProxy.Runtime.Journal

/-!
# Event delivery of one attachment

One attachment to a run, over either transport, while any other callers publish,
acknowledge, attach and drop receivers. `View` records what the attachment has emitted:
the replay, written event by event on a Unix connection and returned at once to a
WebSocket caller, followed by what its forwarder hands to its sink.

The hand-offs where an event could be lost or repeated are all instances of `Feed`: the
emitted events and the rest of a replay together are gapless up to the point `seen` from
which the receiver in hand continues.
-/

namespace AgencyProxy

open AgencyProxy.Runtime AgencyProxy.Broadcast Lts Std

inductive Transport where
  | unix
  | webSocket
  deriving DecidableEq, Repr

/-- The transport's copy of the forwarder. -/
def Transport.forward :
    Transport → Store → RunId → Forwarder → Forwarder.Act → Option Forwarder.Stepped
  | .unix => unixForward
  | .webSocket => forwardRunEvents

/-- How far the attachment has come. -/
inductive Stage where
  /-- `handle_connection` is writing the replay; the forwarder is not spawned yet. -/
  | writing (rest : List SequencedEvent) (next : Forwarder)
  | forwarding (f : Forwarder)
  /-- A failed write dropped the connection with its attachment. -/
  | closed

structure View where
  id : RunId
  after : Nat
  stage : Stage
  emitted : List SequencedEvent
  /-- The frame the sink refused, which ended the forwarder. -/
  refused : Option SequencedEvent

/-- How many receivers of the run's channel the attachment holds. -/
def View.held (v : View) : Nat :=
  match v.stage with
  | .writing _ _ => 1
  | .forwarding f => f.held
  | .closed => 0

structure Delivery where
  store : Store
  view : Option View

def Delivery.init : Delivery := ⟨.empty, none⟩

inductive Delivery.Act where
  /-- Another caller's operation, on any run. -/
  | other (op : Store.Op)
  | attach (id : RunId) (after : Nat)
  /-- The next replay write of a Unix connection. -/
  | write (succeeds : Bool)
  /-- The Unix connection spawns the forwarder once the replay is written. -/
  | spawn
  | forward (act : Forwarder.Act)
  /-- The forwarder is aborted at a suspension point. -/
  | abort

/-- Receivers of `id`'s channel that this attachment holds. -/
def Delivery.heldOf (s : Delivery) (id : RunId) : Nat :=
  match s.view with
  | some v => if v.id = id then v.held else 0
  | none => 0

/-- Others can only drop receivers of their own. -/
def Delivery.mayApply (s : Delivery) : Store.Op → Bool
  | .dropReceiver id =>
    match s.store.runs[id]? with
    | some run => s.heldOf id < run.events.receivers
    | none => true
  | _ => true

/-- Record a forwarder step: an accepted frame is emitted, a refused one is kept apart. -/
def View.record (v : View) (accepts : Bool) (stepped : Forwarder.Stepped) : View :=
  { v with
    stage := .forwarding stepped.forwarder
    emitted := if accepts then v.emitted ++ stepped.handed.toList else v.emitted
    refused := if accepts then v.refused else stepped.handed.or v.refused }

def Forwarder.Act.accepts : Forwarder.Act → Bool
  | .recv accepts => accepts
  | .reattach => true
  | .replay accepts => accepts

def Delivery.step (t : Transport) (s : Delivery) : Delivery.Act → Option Delivery
  | .other op => if s.mayApply op then some { s with store := s.store.apply op } else none
  | .attach id after =>
    match s.view with
    | some _ => none
    | none =>
      match s.store.attach id after with
      | .error _ => none
      | .ok (attachment, store) =>
        let f := Forwarder.start attachment after
        match t with
        | .unix => some ⟨store, some ⟨id, after, .writing attachment.replay f, [], none⟩⟩
        | .webSocket => some ⟨store, some ⟨id, after, .forwarding f, attachment.replay, none⟩⟩
  | .write succeeds =>
    match s.view with
    | some v =>
      match v.stage with
      | .writing (event :: rest) f =>
        if succeeds then
          some ⟨s.store, some
            { v with stage := .writing rest f, emitted := v.emitted ++ [event] }⟩
        else
          some ⟨s.store.dropReceiver v.id, some { v with stage := .closed }⟩
      | _ => none
    | none => none
  | .spawn =>
    match s.view with
    | some v =>
      match v.stage with
      | .writing [] f => some { s with view := some { v with stage := .forwarding f } }
      | _ => none
    | none => none
  | .forward act =>
    match s.view with
    | some v =>
      match v.stage with
      | .forwarding f =>
        match t.forward s.store v.id f act with
        | some stepped => some ⟨stepped.store, some (v.record act.accepts stepped)⟩
        | none => none
      | _ => none
    | none => none
  | .abort =>
    match s.view with
    | some v =>
      match v.stage with
      | .forwarding f =>
        let stepped := Forwarder.close s.store v.id f
        some ⟨stepped.store, some { v with stage := .forwarding stepped.forwarder }⟩
      | _ => none
    | none => none

/-! ## What is handed on -/

/-- `handed` is in order, after the cursor, published, and skips nothing below its events. -/
structure Sound (published handed : List SequencedEvent) (after acked : Nat) : Prop where
  sorted : handed.Pairwise fun x y => x.sequence < y.sequence
  above : ∀ e ∈ handed, after < e.sequence
  real : ∀ e ∈ handed, e ∈ published
  gapless : ∀ x ∈ handed, ∀ e ∈ published, after < e.sequence → e.sequence ≤ x.sequence →
    e ∈ handed ∨ e.sequence ≤ acked

/-- `last_sequence`: the last event handed on, or the cursor. -/
structure IsLast (handed : List SequencedEvent) (after last : Nat) : Prop where
  le : ∀ e ∈ handed, e.sequence ≤ last
  eq : last = after ∨ ∃ x ∈ handed, x.sequence = last

/-- What was handed on and the `rest` of a replay leave no gap up to `seen`, and the receiver
`rx` continues from there. -/
structure Feed (run : LiveRun) (published handed rest : List SequencedEvent) (after : Nat)
    (rx : Receiver) (seen : Nat) : Prop where
  tracks : Tracks run.events rx (published.drop seen)
  seen_le : seen ≤ published.length
  sorted : (handed ++ rest).Pairwise fun x y => x.sequence < y.sequence
  above : ∀ e ∈ handed ++ rest, after < e.sequence
  real : ∀ e ∈ handed ++ rest, e ∈ published
  upto : ∀ e ∈ handed ++ rest, e.sequence ≤ seen
  covered : ∀ e ∈ published, after < e.sequence → e.sequence ≤ seen →
    e ∈ handed ++ rest ∨ e.sequence ≤ run.snapshot.acknowledgedSequence

section Handing

variable {run run' : LiveRun} {published published' handed rest : List SequencedEvent}
  {after acked last seen : Nat} {rx : Receiver} {event : SequencedEvent}

theorem Sound.nil : Sound published [] after acked :=
  ⟨.nil, by simp, by simp, by simp⟩

theorem IsLast.nil : IsLast [] after after := ⟨by simp, .inl rfl⟩

/-- Everything up to `last_sequence` was handed on or acknowledged. -/
theorem Sound.covered_last (h : Sound published handed after acked)
    (hl : IsLast handed after last) {e : SequencedEvent} (he : e ∈ published)
    (ha : after < e.sequence) (hle : e.sequence ≤ last) :
    e ∈ handed ∨ e.sequence ≤ acked := by
  rcases hl.eq with rfl | ⟨x, hx, rfl⟩
  · omega
  · exact h.gapless x hx e he ha hle

theorem IsLast.snoc (h : IsLast handed after last) (hlt : last < event.sequence) :
    IsLast (handed ++ [event]) after event.sequence where
  le e he := by
    rcases List.mem_append.1 he with he | he
    · have := h.le e he; omega
    · rw [List.mem_singleton] at he; rw [he]
  eq := .inr ⟨event, by simp, rfl⟩

theorem Feed.sound (h : Feed run published handed rest after rx seen) :
    Sound published handed after run.snapshot.acknowledgedSequence where
  sorted := (List.pairwise_append.1 h.sorted).1
  above e he := h.above e (List.mem_append_left _ he)
  real e he := h.real e (List.mem_append_left _ he)
  gapless x hx e he ha hle := by
    have hseen := h.upto x (List.mem_append_left _ hx)
    rcases h.covered e he ha (by omega) with hm | hk
    · rcases List.mem_append.1 hm with hm | hm
      · exact .inl hm
      · have := (List.pairwise_append.1 h.sorted).2.2 x hx e hm
        omega
    · exact .inr hk

/-- The replay goes on after `last_sequence`, so the re-check of one copy never skips. -/
theorem Feed.last_lt (h : Feed run published handed (event :: rest) after rx seen)
    (hl : IsLast handed after last) : last < event.sequence := by
  rcases hl.eq with rfl | ⟨x, hx, rfl⟩
  · exact h.above event (by simp)
  · exact (List.pairwise_append.1 h.sorted).2.2 x hx event (by simp)

/-- Handing on the next event of the replay. -/
theorem Feed.advance (h : Feed run published handed (event :: rest) after rx seen) :
    Feed run published (handed ++ [event]) rest after rx seen := by
  have e : handed ++ event :: rest = handed ++ [event] ++ rest := List.append_cons ..
  exact ⟨h.tracks, h.seen_le, e ▸ h.sorted, e ▸ h.above, e ▸ h.real, e ▸ h.upto, e ▸ h.covered⟩

/-- A replay that was handed on at once. -/
theorem Feed.flush (h : Feed run published handed rest after rx seen) :
    Feed run published (handed ++ rest) [] after rx seen := by
  have e : handed ++ rest = handed ++ rest ++ [] := (List.append_nil _).symm
  exact ⟨h.tracks, h.seen_le, e ▸ h.sorted, e ▸ h.above, e ▸ h.real, e ▸ h.upto, e ▸ h.covered⟩

/-- The `map_or` that starts `last_sequence`: the replay's last event, or the cursor. -/
theorem IsLast.of_sorted (h : handed.Pairwise fun x y => x.sequence < y.sequence) :
    IsLast handed after ((handed.getLast?.map SequencedEvent.sequence).getD after) := by
  rcases List.eq_nil_or_concat handed with hnil | ⟨init, x, hx⟩
  · rw [hnil]; exact IsLast.nil
  · rw [List.concat_eq_append] at hx
    subst hx
    simp only [List.getLast?_append, List.getLast?_singleton, Option.some_or, Option.map_some,
      Option.getD_some]
    refine ⟨fun e he => ?_, .inr ⟨x, by simp, rfl⟩⟩
    rcases List.mem_append.1 he with he | he
    · exact Nat.le_of_lt ((List.pairwise_append.1 h).2.2 e he x (by simp))
    · rw [List.mem_singleton] at he; rw [he]

/-- **The cut of an attach**: its replay and its receiver leave no gap. -/
theorem Feed.attach {attachment : Attachment} (hj : Journaled run published)
    (h : Sound published handed after run.snapshot.acknowledgedSequence)
    (hl : IsLast handed after last) (ha : run.attach last = .ok (attachment, run')) :
    Feed run' published handed attachment.replay after attachment.events published.length := by
  have hreplay := hj.replay ha
  have hmem : ∀ e ∈ attachment.replay, e ∈ published ∧ last < e.sequence := fun e he => by
    rw [hreplay] at he
    have hp := List.mem_of_mem_drop he
    have := (hj.numbered.mem_drop_iff hp).1 he
    exact ⟨hp, by omega⟩
  have hafter : after ≤ last := by
    rcases hl.eq with rfl | ⟨x, hx, rfl⟩
    · exact Nat.le_refl _
    · exact Nat.le_of_lt (h.above x hx)
  obtain ⟨-, hatt, hrun'⟩ := LiveRun.attach_ok ha
  refine ⟨?_, Nat.le_refl _, ?_, ?_, ?_, ?_, ?_⟩
  · rw [List.drop_length, hatt, hrun']
    exact Tracks.subscribe run.events
  · refine List.pairwise_append.2 ⟨h.sorted, ?_, fun x hx e he => ?_⟩
    · rw [hreplay]
      exact hj.numbered.pairwise.sublist (List.drop_sublist _ _)
    · have := hl.le x hx; have := (hmem e he).2; omega
  · intro e he
    rcases List.mem_append.1 he with he | he
    · exact h.above e he
    · have := (hmem e he).2; omega
  · intro e he
    rcases List.mem_append.1 he with he | he
    · exact h.real e he
    · exact (hmem e he).1
  · intro e he
    have hp : e ∈ published := by
      rcases List.mem_append.1 he with he | he
      · exact h.real e he
      · exact (hmem e he).1
    have := (hj.numbered.bounds hp).2
    omega
  · intro e he hae _
    rw [show run'.snapshot = run.snapshot by rw [hrun']]
    by_cases hle : e.sequence ≤ last
    · rcases h.covered_last hl he hae hle with hm | hk
      · exact .inl (List.mem_append_left _ hm)
      · exact .inr hk
    · by_cases hk : e.sequence ≤ run.snapshot.acknowledgedSequence
      · exact .inr hk
      · refine .inl (List.mem_append_right _ ?_)
        rw [hreplay, hj.numbered.mem_drop_iff he]
        omega

/-- What the receiver is told next is the published event after `seen`. -/
theorem Feed.next {unseen : List SequencedEvent}
    (h : Feed run published handed [] after rx seen)
    (hn : Numbered SequencedEvent.sequence 0 published)
    (hd : published.drop seen = event :: unseen) :
    event ∈ published ∧ event.sequence = seen + 1 ∧ published.drop (seen + 1) = unseen ∧
      seen + 1 ≤ published.length := by
  have hlt : seen < published.length := by
    by_contra hge
    rw [List.drop_eq_nil_of_le (by omega)] at hd
    cases hd
  have hnum := hn.drop h.seen_le
  rw [hd, Numbered.cons_iff] at hnum
  refine ⟨List.mem_of_mem_drop (hd ▸ List.mem_cons_self), by omega, ?_, by omega⟩
  rw [← List.tail_drop, hd, List.tail_cons]

/-- A received event at or below `last_sequence` was dealt with before. -/
theorem Feed.skip {rx' : Receiver} (h : Feed run published handed [] after rx seen)
    (hn : Numbered SequencedEvent.sequence 0 published) (hl : IsLast handed after last)
    {unseen : List SequencedEvent} (hd : published.drop seen = event :: unseen)
    (ht : Tracks run.events rx' unseen) (hle : event.sequence ≤ last) :
    Feed run published handed [] after rx' (seen + 1) := by
  obtain ⟨hp, hs, hdrop, hlen⟩ := h.next hn hd
  refine ⟨hdrop ▸ ht, hlen, h.sorted, h.above, h.real,
    fun e he => Nat.le_succ_of_le (h.upto e he), fun e he hae hse => ?_⟩
  by_cases heq : e.sequence ≤ seen
  · exact h.covered e he hae heq
  · simpa using h.sound.covered_last hl he hae (by omega)

/-- A received event above `last_sequence` is handed on. -/
theorem Feed.receive {rx' : Receiver} (h : Feed run published handed [] after rx seen)
    (hn : Numbered SequencedEvent.sequence 0 published) (hl : IsLast handed after last)
    {unseen : List SequencedEvent} (hd : published.drop seen = event :: unseen)
    (ht : Tracks run.events rx' unseen) (hlt : last < event.sequence) :
    Feed run published (handed ++ [event]) [] after rx' (seen + 1) := by
  obtain ⟨hp, hs, hdrop, hlen⟩ := h.next hn hd
  have hafter : after < event.sequence := by
    rcases hl.eq with rfl | ⟨x, hx, rfl⟩
    · exact hlt
    · exact Nat.lt_trans (h.above x (by simpa using hx)) hlt
  have hsound := h.sound
  refine ⟨hdrop ▸ ht, hlen, ?_, ?_, ?_, ?_, ?_⟩
  · rw [List.append_nil]
    refine List.pairwise_append.2 ⟨hsound.sorted, by simp, fun x hx e he => ?_⟩
    rw [List.mem_singleton] at he
    have := hl.le x hx
    rw [he]; omega
  · intro e he
    rcases List.mem_append.1 (List.append_nil (handed ++ [event]) ▸ he) with he | he
    · exact hsound.above e he
    · rw [List.mem_singleton] at he; rw [he]; exact hafter
  · intro e he
    rcases List.mem_append.1 (List.append_nil (handed ++ [event]) ▸ he) with he | he
    · exact hsound.real e he
    · rw [List.mem_singleton] at he; rw [he]; exact hp
  · intro e he
    rcases List.mem_append.1 (List.append_nil (handed ++ [event]) ▸ he) with he | he
    · exact Nat.le_succ_of_le (h.upto e (by simpa using he))
    · rw [List.mem_singleton] at he; rw [he, hs]
  · intro e he hae hse
    by_cases hle : e.sequence ≤ seen
    · rcases h.covered e he hae hle with hm | hk
      · exact .inl (by simp only [List.append_nil] at hm ⊢; exact List.mem_append_left _ hm)
      · exact .inr hk
    · -- The only published event numbered `seen + 1` is this one.
      have hi := (hn.getElem?_of_mem he).2.2
      have hi' := (hn.getElem?_of_mem hp).2.2
      rw [show e.sequence - 0 - 1 = event.sequence - 0 - 1 by omega, hi'] at hi
      cases hi
      exact .inl (by simp)

end Handing

/-! ## What others do to the run -/

/-- What one operation does to a run and its log: at most it publishes one event; otherwise the
channel's contents stay and acknowledgements only rise. -/
inductive RunStep (run : LiveRun) (published : List SequencedEvent) :
    LiveRun → List SequencedEvent → Prop where
  | quiet {run' : LiveRun} (hb : run'.events.buffer = run.events.buffer)
      (hh : run'.events.head = run.events.head)
      (ha : run.snapshot.acknowledgedSequence ≤ run'.snapshot.acknowledgedSequence) :
      RunStep run published run' published
  | publish (id : RunId) (event : RunEvent) (state : Option RunState) (session : Option String) :
      RunStep run published (run.publish id event state session)
        (published ++ [run.sequenced id event])

section Environment

variable {run run' : LiveRun} {published published' handed rest : List SequencedEvent}
  {after seen : Nat} {rx : Receiver}

theorem RunStep.rfl' : RunStep run published run published := .quiet rfl rfl (Nat.le_refl _)

theorem RunStep.sound (hs : RunStep run published run' published') (hj : Journaled run published)
    (h : Sound published handed after run.snapshot.acknowledgedSequence) :
    Sound published' handed after run'.snapshot.acknowledgedSequence := by
  cases hs with
  | quiet hb hh ha =>
    refine ⟨h.sorted, h.above, h.real, fun x hx e he hae hle => ?_⟩
    rcases h.gapless x hx e he hae hle with hm | hk
    · exact .inl hm
    · exact .inr (Nat.le_trans hk ha)
  | publish id event state session =>
    refine ⟨h.sorted, h.above, fun e he => List.mem_append_left _ (h.real e he),
      fun x hx e he hae hle => ?_⟩
    rcases List.mem_append.1 he with he | he
    · exact h.gapless x hx e he hae hle
    · rw [List.mem_singleton] at he
      have hx' := (hj.numbered.bounds (h.real x hx)).2
      rw [he, LiveRun.sequenced_sequence, hj.latest] at hle
      omega

/-- While the attachment's receiver lives, nothing others do breaks its feed. -/
theorem RunStep.feed (hs : RunStep run published run' published') (hj : Journaled run published)
    (hr : 0 < run.events.receivers) (h : Feed run published handed rest after rx seen) :
    Feed run' published' handed rest after rx seen := by
  cases hs with
  | quiet hb hh ha =>
    refine ⟨h.tracks.congr hb hh, h.seen_le, h.sorted, h.above, h.real, h.upto,
      fun e he hae hse => ?_⟩
    rcases h.covered e he hae hse with hm | hk
    · exact .inl hm
    · exact .inr (Nat.le_trans hk ha)
  | publish id event state session =>
    refine ⟨?_, ?_, h.sorted, h.above, fun e he => List.mem_append_left _ (h.real e he), h.upto,
      fun e he hae hse => ?_⟩
    · rw [List.drop_append_of_le_length h.seen_le]
      exact h.tracks.send hr _
    · have := h.seen_le; simp only [List.length_append]; omega
    · rcases List.mem_append.1 he with he | he
      · exact h.covered e he hae hse
      · rw [List.mem_singleton] at he
        have := h.seen_le
        rw [he, LiveRun.sequenced_sequence, hj.latest] at hse
        omega

end Environment

theorem Store.dropReceiver_run {s : Store} {id : RunId} {run : LiveRun}
    (h : s.runs[id]? = some run) :
    (s.dropReceiver id).runs[id]? = some { run with events := run.events.dropReceiver } := by
  simp [Store.dropReceiver, Store.modify, h]

@[simp] theorem Store.dropReceiver_published (s : Store) (id : RunId) :
    (s.dropReceiver id).published = s.published := by
  unfold Store.dropReceiver Store.modify; split <;> rfl

/-- **What any operation does to a run**, whoever calls it. -/
theorem Store.apply_run {s : Store} {id : RunId} {run : LiveRun} (h : s.runs[id]? = some run)
    (op : Store.Op) :
    ∃ run' : LiveRun, (s.apply op).runs[id]? = some run' ∧
      RunStep run (s.published id) run' ((s.apply op).published id) ∧
      (run.events.receivers ≤ run'.events.receivers ∨
        (op = .dropReceiver id ∧ run'.events.receivers = run.events.receivers - 1)) := by
  cases op with
  | insert id' spec =>
    simp only [Store.apply, Store.insert]
    by_cases hm : id' ∈ s.runs
    · simp only [hm, ↓reduceIte]
      exact ⟨run, h, .rfl', .inl (Nat.le_refl _)⟩
    · have hne : id' ≠ id := fun e => hm (e ▸ ExtTreeMap.mem_of_getElem? h)
      simp only [hm, ↓reduceIte]
      exact ⟨run, by rw [ExtTreeMap.getElem?_insert_of_ne hne, h], .rfl', .inl (Nat.le_refl _)⟩
  | publish id' event state session =>
    simp only [Store.apply, Store.publish]
    by_cases hid : id' = id
    · subst hid
      simp only [h, ExtTreeMap.getElem?_insert_self, Function.update_self]
      exact ⟨_, rfl, .publish id' event state session, .inl (by simp [LiveRun.publish])⟩
    · cases s.runs[id']? with
      | none => exact ⟨run, h, .rfl', .inl (Nat.le_refl _)⟩
      | some other =>
        simp only [ExtTreeMap.getElem?_insert_of_ne hid, h,
          Function.update_of_ne (Ne.symm hid)]
        exact ⟨run, rfl, .rfl', .inl (Nat.le_refl _)⟩
  | acknowledge id' through =>
    simp only [Store.apply, Store.acknowledge]
    by_cases hid : id' = id
    · subst hid
      simp only [h, ExtTreeMap.getElem?_insert_self]
      exact ⟨_, rfl, .quiet rfl rfl (Nat.le_max_left _ _), .inl (Nat.le_refl _)⟩
    · cases s.runs[id']? with
      | none => exact ⟨run, h, .rfl', .inl (Nat.le_refl _)⟩
      | some other =>
        simp only [ExtTreeMap.getElem?_insert_of_ne hid, h]
        exact ⟨run, rfl, .rfl', .inl (Nat.le_refl _)⟩
  | attach id' cursor =>
    simp only [Store.apply, Store.attach]
    by_cases hid : id' = id
    · subst hid
      simp only [h]
      cases ho : run.attach cursor with
      | error e => exact ⟨run, h, .rfl', .inl (Nat.le_refl _)⟩
      | ok p =>
        obtain ⟨-, -, hrun'⟩ := LiveRun.attach_ok ho
        refine ⟨_, ExtTreeMap.getElem?_insert_self, ?_, .inl ?_⟩
        · rw [hrun']; exact .quiet rfl rfl (Nat.le_refl _)
        · rw [hrun']; simp [Shared.subscribe]
    · cases s.runs[id']? with
      | none => exact ⟨run, h, .rfl', .inl (Nat.le_refl _)⟩
      | some other =>
        cases ho : other.attach cursor with
        | error e => simp only [ho]; exact ⟨run, h, .rfl', .inl (Nat.le_refl _)⟩
        | ok p =>
          simp only [ho, ExtTreeMap.getElem?_insert_of_ne hid, h]
          exact ⟨run, rfl, .rfl', .inl (Nat.le_refl _)⟩
  | dropReceiver id' =>
    simp only [Store.apply]
    by_cases hid : id' = id
    · subst hid
      rw [Store.dropReceiver_run h, Store.dropReceiver_published]
      exact ⟨_, rfl, .quiet rfl rfl (Nat.le_refl _), .inr ⟨rfl, rfl⟩⟩
    · refine ⟨run, ?_, by rw [Store.dropReceiver_published]; exact .rfl', .inl (Nat.le_refl _)⟩
      unfold Store.dropReceiver Store.modify
      split
      · simp only [ExtTreeMap.getElem?_insert_of_ne hid, h]
      · exact h

/-! ## One forwarder step -/

/-- Where the forwarder stands, it continues without a gap or has nothing left to continue. -/
def Forwarder.Ok (run : LiveRun) (published handed : List SequencedEvent) (after : Nat)
    (f : Forwarder) : Prop :=
  match f.phase with
  | .receiving => ∃ seen, Feed run published handed [] after f.events seen
  | .replaying rest events => ∃ seen, Feed run published handed rest after events seen
  | .lagged => True
  | .ended => True

/-- The forwarder `f` has handed on `handed` of the events of run `id` after the cursor. -/
structure Carried (store : Store) (id : RunId) (run : LiveRun) (handed : List SequencedEvent)
    (after : Nat) (f : Forwarder) : Prop where
  journals : store.Journals
  found : store.runs[id]? = some run
  held : f.held ≤ run.events.receivers
  sound : Sound (store.published id) handed after run.snapshot.acknowledgedSequence
  last : IsLast handed after f.lastSequence
  ok : f.Ok run (store.published id) handed after

section Steps

variable {store : Store} {id : RunId} {run : LiveRun} {handed : List SequencedEvent}
  {after : Nat} {f : Forwarder} {event : SequencedEvent}

theorem Carried.journaled (h : Carried store id run handed after f) :
    Journaled run (store.published id) := h.journals.runs id run h.found

/-- Dropping a receiver the forwarder does not go on with. -/
theorem Carried.drop (f' : Forwarder) (h : Carried store id run handed after f)
    (hheld : f'.held < f.held) (hlast : f'.lastSequence = f.lastSequence)
    (hok : f'.Ok run (store.published id) handed after) :
    Carried (store.dropReceiver id) id { run with events := run.events.dropReceiver }
      handed after f' := by
  have hr := h.held
  refine ⟨(h.journals.apply (.dropReceiver id)).1, Store.dropReceiver_run h.found, ?_, ?_, ?_, ?_⟩
  · simp only [Shared.dropReceiver]; omega
  · rw [Store.dropReceiver_published]; exact h.sound
  · rw [hlast]; exact h.last
  · rw [Store.dropReceiver_published]
    have hstep : RunStep run (store.published id)
        { run with events := run.events.dropReceiver } (store.published id) :=
      .quiet rfl rfl (Nat.le_refl _)
    unfold Forwarder.Ok at hok ⊢
    split
    · rename_i hp
      simp only [hp] at hok
      obtain ⟨seen, hf⟩ := hok
      exact ⟨seen, hstep.feed h.journaled (by omega) hf⟩
    · rename_i rest events hp
      simp only [hp] at hok
      obtain ⟨seen, hf⟩ := hok
      exact ⟨seen, hstep.feed h.journaled (by omega) hf⟩
    · trivial
    · trivial

theorem Forwarder.close_ended (store : Store) (id : RunId) (f : Forwarder) :
    (close store id f).forwarder = { f with phase := .ended } := by
  unfold close
  split
  · rfl
  · rfl
  · rfl
  · rename_i hp; cases f; cases hp; rfl

/-- A refused frame ends the forwarder. -/
theorem Forwarder.refused_ended {t : Transport} {act : Forwarder.Act} {st : Forwarder.Stepped}
    (hs : t.forward store id f act = some st) (hacc : act.accepts = false)
    (hh : st.handed ≠ none) : st.forwarder.phase = .ended := by
  have hemit : ∀ f event, (Forwarder.emit store id f event false).forwarder.phase = .ended :=
    fun f event => by simp [Forwarder.emit, Forwarder.close_ended]
  cases act with
  | reattach => simp [Forwarder.Act.accepts] at hacc
  | recv accepts =>
    obtain rfl : accepts = false := hacc
    have hr : Forwarder.recv store id f false = some st := by
      cases t <;> simp only [Transport.forward, unixForward, forwardRunEvents] at hs <;>
        (split at hs <;> first | exact hs | cases hs)
    unfold Forwarder.recv at hr
    split at hr
    · cases hr
    · split at hr
      · cases hr; exact absurd rfl hh
      · split at hr
        · cases hr; exact absurd rfl hh
        · cases hr; exact hemit _ _
      · cases hr; exact absurd rfl hh
      · cases hr; rw [Forwarder.close_ended]
  | replay accepts =>
    obtain rfl : accepts = false := hacc
    cases t with
    | unix =>
      simp only [Transport.forward, unixForward] at hs
      split at hs
      · cases hs; exact hemit _ _
      · cases hs; exact absurd rfl hh
      · cases hs
    | webSocket =>
      simp only [Transport.forward, forwardRunEvents] at hs
      split at hs
      · split at hs
        · cases hs; exact absurd rfl hh
        · cases hs; exact hemit _ _
      · cases hs; exact absurd rfl hh
      · cases hs

theorem Carried.close (h : Carried store id run handed after f) :
    ∃ run', Carried (Forwarder.close store id f).store id run' handed after
      (Forwarder.close store id f).forwarder := by
  have hend : Forwarder.Ok run (store.published id) handed after { f with phase := .ended } :=
    trivial
  rw [Forwarder.close_ended]
  unfold Forwarder.close
  split
  · rename_i hp
    exact ⟨_, h.drop _ (by simp [Forwarder.held, hp]) rfl hend⟩
  · rename_i hp
    exact ⟨_, h.drop _ (by simp [Forwarder.held, hp]) rfl hend⟩
  · -- The replayed subscription goes first, then the lagged one.
    rename_i hp
    have h1 := h.drop { f with phase := .lagged } (by simp [Forwarder.held, hp]) rfl trivial
    exact ⟨_, h1.drop { f with phase := .ended } (by simp [Forwarder.held]) rfl trivial⟩
  · exact ⟨run, h.journals, h.found, by simp [Forwarder.held], h.sound, h.last, trivial⟩

/-- Handing an event to the sink, given that the loop may go on after it. -/
theorem Carried.emit (accepts : Bool)
    (h : Carried store id run (handed ++ [event]) after
      { f with lastSequence := event.sequence }) :
    ∃ run', Carried (Forwarder.emit store id f event accepts).store id run'
      (handed ++ (Forwarder.emit store id f event accepts).handed.toList) after
      (Forwarder.emit store id f event accepts).forwarder := by
  cases accepts with
  | true => exact ⟨run, h⟩
  | false => exact h.close

theorem Carried.recv {accepts : Bool} {st : Forwarder.Stepped}
    (h : Carried store id run handed after f) (hp : f.phase = .receiving)
    (hs : Forwarder.recv store id f accepts = some st) :
    ∃ run', Carried st.store id run' (handed ++ st.handed.toList) after st.forwarder := by
  have hok := h.ok
  simp only [Forwarder.Ok, hp] at hok
  obtain ⟨seen, hfeed⟩ := hok
  simp only [Forwarder.recv, h.found] at hs
  have hheld : 1 ≤ run.events.receivers := by simpa [Forwarder.held, hp] using h.held
  split at hs
  · cases hs
    exact ⟨run, by simpa using h⟩
  · rename_i event rx ht
    obtain ⟨unseen, hd, htr⟩ := hfeed.tracks.take_ok ht
    split at hs
    · rename_i hle
      cases hs
      refine ⟨run, h.journals, h.found, by simpa [Forwarder.held, hp] using hheld,
        by simpa using h.sound, by simpa using h.last, ?_⟩
      simp only [Forwarder.Ok, hp, Option.toList_none, List.append_nil]
      exact ⟨_, hfeed.skip h.journaled.numbered h.last hd htr hle⟩
    · rename_i hgt
      cases hs
      have hf := hfeed.receive h.journaled.numbered h.last hd htr (by omega)
      have hok : Carried store id run (handed ++ [event]) after
          { f with events := rx, lastSequence := event.sequence } :=
        ⟨h.journals, h.found, by simpa [Forwarder.held, hp] using hheld, hf.sound,
          h.last.snoc (by omega), by simp only [Forwarder.Ok, hp]; exact ⟨_, hf⟩⟩
      exact hok.emit accepts
  · cases hs
    exact ⟨run, h.journals, h.found, by simpa [Forwarder.held] using hheld,
      by simpa using h.sound, by simpa using h.last, trivial⟩
  · rename_i rx ht
    cases hs
    have hc : Carried store id run handed after { f with events := rx, phase := .lagged } :=
      ⟨h.journals, h.found, by simpa [Forwarder.held] using hheld, h.sound, h.last, trivial⟩
    obtain ⟨run', hc⟩ := hc.close
    exact ⟨run', by simpa [Forwarder.close, hp] using hc⟩

theorem Carried.reattach (h : Carried store id run handed after f) (hp : f.phase = .lagged) :
    ∃ run', Carried (Forwarder.reattach store id f).store id run' handed after
      (Forwarder.reattach store id f).forwarder := by
  unfold Forwarder.reattach
  cases ha : run.attach f.lastSequence with
  | error e =>
    simp only [Store.attach, h.found, ha]
    exact h.close
  | ok p =>
    obtain ⟨attachment, run'⟩ := p
    have hfeed := Feed.attach h.journaled h.sound h.last ha
    obtain ⟨-, -, hrun'⟩ := LiveRun.attach_ok ha
    rw [Store.attach_of_run h.found ha]
    refine ⟨run', (h.journals.replace' h.found (h.journaled.attach ha) (.attach ha)).1,
      ExtTreeMap.getElem?_insert_self, ?_, hfeed.sound, h.last, ⟨_, hfeed⟩⟩
    have := h.held
    simp only [Forwarder.held, hp, hrun', Shared.subscribe] at this ⊢
    omega

/-- Handing on the next event of a replay. -/
theorem Carried.replay {rest : List SequencedEvent} {events : Receiver} (accepts : Bool)
    (h : Carried store id run handed after f) (hp : f.phase = .replaying (event :: rest) events) :
    f.lastSequence < event.sequence ∧
    ∃ run', Carried
      (Forwarder.emit store id { f with phase := .replaying rest events } event accepts).store id
      run' (handed ++
        (Forwarder.emit store id { f with phase := .replaying rest events } event
          accepts).handed.toList) after
      (Forwarder.emit store id { f with phase := .replaying rest events } event
        accepts).forwarder := by
  have hok := h.ok
  simp only [Forwarder.Ok, hp] at hok
  obtain ⟨seen, hfeed⟩ := hok
  have hlt := hfeed.last_lt h.last
  have hok : Carried store id run (handed ++ [event]) after
      { f with lastSequence := event.sequence, phase := .replaying rest events } :=
    ⟨h.journals, h.found, by simpa [Forwarder.held, hp] using h.held, hfeed.advance.sound,
      h.last.snoc hlt, ⟨seen, hfeed.advance⟩⟩
  exact ⟨hlt, hok.emit accepts⟩

theorem Carried.resume {events : Receiver} (h : Carried store id run handed after f)
    (hp : f.phase = .replaying [] events) :
    ∃ run', Carried (Forwarder.resume store id f events).store id run' handed after
      (Forwarder.resume store id f events).forwarder := by
  have hok := h.ok
  simp only [Forwarder.Ok, hp] at hok
  exact ⟨_, h.drop _ (by simp [Forwarder.held, Forwarder.resume, hp]) rfl hok⟩

/-- **One forwarder step**, of either copy: what it hands on keeps the delivery sound. -/
theorem Carried.forward {t : Transport} {act : Forwarder.Act} {st : Forwarder.Stepped}
    (h : Carried store id run handed after f)
    (hs : t.forward store id f act = some st) :
    ∃ run', Carried st.store id run' (handed ++ st.handed.toList) after st.forwarder := by
  cases act with
  | recv accepts =>
    have hr : f.phase = .receiving ∧ Forwarder.recv store id f accepts = some st := by
      cases t <;> simp only [Transport.forward, unixForward, forwardRunEvents] at hs <;>
        (split at hs <;> first | exact ⟨by assumption, hs⟩ | cases hs)
    exact h.recv hr.1 hr.2
  | reattach =>
    have hr : f.phase = .lagged ∧ Forwarder.reattach store id f = st := by
      cases t <;> simp only [Transport.forward, unixForward, forwardRunEvents] at hs <;>
        (split at hs <;> first | exact ⟨by assumption, Option.some.inj hs⟩ | cases hs)
    obtain ⟨run', h'⟩ := h.reattach hr.1
    rw [hr.2] at h'
    have hnone : st.handed = none := by
      rw [← hr.2]; unfold Forwarder.reattach Forwarder.close
      split
      · rfl
      · split <;> rfl
    exact ⟨run', by simpa [hnone] using h'⟩
  | replay accepts =>
    cases hp : f.phase with
    | replaying rest events =>
      cases rest with
      | nil =>
        obtain ⟨run', h'⟩ := h.resume hp
        cases t <;> simp only [Transport.forward, unixForward, forwardRunEvents, hp,
          Option.some.injEq] at hs <;>
          (subst hs; exact ⟨run', by simpa [Forwarder.resume] using h'⟩)
      | cons event rest =>
        obtain ⟨hlt, run', h'⟩ := h.replay accepts hp
        cases t with
        | unix =>
          simp only [Transport.forward, unixForward, hp, Option.some.injEq] at hs
          subst hs; exact ⟨run', h'⟩
        | webSocket =>
          simp only [Transport.forward, forwardRunEvents, hp] at hs
          rw [if_neg (by omega)] at hs
          cases hs; exact ⟨run', h'⟩
    | receiving => cases t <;> simp [Transport.forward, unixForward, forwardRunEvents, hp] at hs
    | lagged => cases t <;> simp [Transport.forward, unixForward, forwardRunEvents, hp] at hs
    | ended => cases t <;> simp [Transport.forward, unixForward, forwardRunEvents, hp] at hs

end Steps

/-! ## The whole attachment -/

/-- Where the attachment stands, what it emitted is sound and it can go on without a gap. -/
inductive View.Ok (store : Store) (run : LiveRun) : View → Prop where
  | writing {id : RunId} {after seen : Nat} {rest emitted : List SequencedEvent} {f : Forwarder}
      (found : store.runs[id]? = some run) (held : 1 ≤ run.events.receivers)
      (start : f.phase = .receiving) (last : IsLast (emitted ++ rest) after f.lastSequence)
      (feed : Feed run (store.published id) emitted rest after f.events seen) :
      Ok store run ⟨id, after, .writing rest f, emitted, none⟩
  | forwarding {id : RunId} {after : Nat} {f : Forwarder} {emitted : List SequencedEvent}
      {refused : Option SequencedEvent}
      (attached : Carried store id run (emitted ++ refused.toList) after f)
      (ended : refused ≠ none → f.phase = .ended) :
      Ok store run ⟨id, after, .forwarding f, emitted, refused⟩
  | closed {id : RunId} {after : Nat} {emitted : List SequencedEvent}
      (found : store.runs[id]? = some run)
      (sound : Sound (store.published id) emitted after run.snapshot.acknowledgedSequence) :
      Ok store run ⟨id, after, .closed, emitted, none⟩

structure Delivery.Inv (s : Delivery) : Prop where
  journals : s.store.Journals
  view : ∀ v, s.view = some v → ∃ run, v.Ok s.store run

theorem View.Ok.found {store : Store} {run : LiveRun} {v : View} (h : v.Ok store run) :
    store.runs[v.id]? = some run := by
  cases h with
  | writing found => exact found
  | forwarding attached => exact attached.found
  | closed found => exact found

theorem View.Ok.held {store : Store} {run : LiveRun} {v : View} (h : v.Ok store run) :
    v.held ≤ run.events.receivers := by
  cases h with
  | writing _ held => exact held
  | forwarding attached => exact attached.held
  | closed => exact Nat.zero_le _

/-- Another caller's operation keeps the attachment as it is. -/
theorem View.Ok.other {store store' : Store} {run run' : LiveRun} {v : View}
    (h : v.Ok store run) (hj : store.Journals) (hj' : store'.Journals)
    (hrun' : store'.runs[v.id]? = some run')
    (hs : RunStep run (store.published v.id) run' (store'.published v.id))
    (hheld : v.held ≤ run'.events.receivers) : v.Ok store' run' := by
  have hjd := hj.runs v.id run h.found
  have hpos := h.held
  cases h with
  | writing found held start last feed =>
    exact .writing hrun' hheld start last (hs.feed hjd held feed)
  | @forwarding _ _ f _ _ attached ended =>
    refine .forwarding ⟨hj', hrun', hheld, hs.sound hjd attached.sound, attached.last, ?_⟩ ended
    have hok := attached.ok
    unfold Forwarder.Ok at hok ⊢
    cases hp : f.phase with
    | receiving =>
      simp only [hp] at hok ⊢
      obtain ⟨seen, hf⟩ := hok
      exact ⟨seen, hs.feed hjd (by simp [View.held, Forwarder.held, hp] at hpos; omega) hf⟩
    | replaying rest events =>
      simp only [hp] at hok ⊢
      obtain ⟨seen, hf⟩ := hok
      exact ⟨seen, hs.feed hjd (by simp [View.held, Forwarder.held, hp] at hpos; omega) hf⟩
    | lagged => trivial
    | ended => trivial
  | closed found sound => exact .closed hrun' (hs.sound hjd sound)

/-- What an accepted attach leaves: a feed from its cursor, and a forwarder that is to go on after
the replay. -/
theorem journals_attach {store store' : Store} {id : RunId} {after : Nat}
    {attachment : Attachment} (h : store.Journals)
    (hs : store.attach id after = .ok (attachment, store')) :
    store'.Journals ∧ ∃ run', store'.runs[id]? = some run' ∧ 1 ≤ run'.events.receivers ∧
      IsLast attachment.replay after (Forwarder.start attachment after).lastSequence ∧
      Feed run' (store'.published id) [] attachment.replay after attachment.events
        (store.published id).length := by
  obtain ⟨run, run', hrun, hra, rfl⟩ := Store.attach_ok hs
  have hjd := h.runs id run hrun
  have hfeed := Feed.attach hjd Sound.nil IsLast.nil hra
  refine ⟨(h.replace' hrun (hjd.attach hra) (.attach hra)).1, run',
    ExtTreeMap.getElem?_insert_self, ?_, ?_, hfeed⟩
  · obtain ⟨-, -, hr⟩ := LiveRun.attach_ok hra
    rw [hr]; simp [Shared.subscribe]
  · exact IsLast.of_sorted (by simpa using hfeed.sorted)

/-- The attachment of a Unix connection starts by writing its replay. -/
theorem View.Ok.attach {store store' : Store} {id : RunId} {after : Nat}
    {attachment : Attachment} (h : store.Journals)
    (hs : store.attach id after = .ok (attachment, store')) :
    ∃ run', View.Ok store' run'
      ⟨id, after, .writing attachment.replay (Forwarder.start attachment after), [], none⟩ := by
  obtain ⟨-, run', hrun', hheld, hlast, hfeed⟩ := journals_attach h hs
  exact ⟨run', .writing hrun' hheld rfl (by simpa using hlast) hfeed⟩

/-- The attachment that an accepted attach starts. -/
theorem Delivery.Inv.attach {t : Transport} {s s' : Delivery} {id : RunId} {after : Nat}
    (h : s.Inv) (hs : s.step t (.attach id after) = some s') : s'.Inv := by
  simp only [Delivery.step] at hs
  split at hs
  · cases hs
  · split at hs
    · cases hs
    · rename_i attachment store hatt
      obtain ⟨hj', run', hrun', hheld, hlast, hfeed⟩ := journals_attach h.journals hatt
      cases t with
      | unix =>
        cases hs
        refine ⟨hj', fun v hv => ?_⟩
        cases hv
        exact View.Ok.attach h.journals hatt
      | webSocket =>
        cases hs
        refine ⟨hj', fun v hv => ⟨run', ?_⟩⟩
        cases hv
        have hfull := hfeed.flush
        rw [List.nil_append] at hfull
        refine .forwarding ⟨hj', hrun', hheld, ?_, ?_, (s.store.published id).length, ?_⟩
          (fun hn => absurd rfl hn)
        · simpa using hfull.sound
        · simpa using hlast
        · simpa [Forwarder.start] using hfull

/-- A forwarder step of a view, recorded in it. -/
theorem View.Ok.forward {t : Transport} {store : Store} {run : LiveRun} {v : View}
    {f : Forwarder} {act : Forwarder.Act} {st : Forwarder.Stepped} (h : v.Ok store run)
    (hv : v.stage = .forwarding f) (hs : t.forward store v.id f act = some st) :
    st.store.Journals ∧ ∃ run', (v.record act.accepts st).Ok st.store run' := by
  cases h with
  | writing => cases hv
  | closed => cases hv
  | @forwarding id after f' emitted refused attached ended =>
    cases hv
    -- A forwarder that still steps has had no frame refused.
    have hne : f.phase ≠ .ended := by
      intro hp
      cases t <;> cases act <;>
        simp [Transport.forward, unixForward, forwardRunEvents, hp] at hs
    obtain rfl : refused = none := by
      by_contra hr
      exact hne (ended hr)
    obtain ⟨run', h'⟩ := attached.forward hs
    refine ⟨h'.journals, run', ?_⟩
    cases hacc : act.accepts with
    | true =>
      refine .forwarding ?_ (fun hn => absurd rfl hn)
      simpa using h'
    | false =>
      refine .forwarding ?_ (fun hn => ?_)
      · simpa using h'
      · exact Forwarder.refused_ended hs hacc (by simpa using hn)

/-- Every step keeps the attachment's delivery sound. -/
theorem Delivery.Inv.step {t : Transport} {s s' : Delivery} {a : Delivery.Act} (h : s.Inv)
    (hs : s.step t a = some s') : s'.Inv := by
  cases a with
  | other op =>
    simp only [Delivery.step] at hs
    split at hs
    · rename_i hmay
      cases hs
      refine ⟨(h.journals.apply op).1, fun v hv => ?_⟩
      obtain ⟨run, hok⟩ := h.view v hv
      obtain ⟨run', hrun', hstep, hrecv⟩ := Store.apply_run hok.found op
      refine ⟨run', hok.other h.journals (h.journals.apply op).1 hrun' hstep ?_⟩
      have hheld := hok.held
      rcases hrecv with hle | ⟨rfl, heq⟩
      · omega
      · have hv' : s.view = some v := hv
        simp only [Delivery.mayApply, hok.found, Delivery.heldOf, hv', ↓reduceIte,
          decide_eq_true_eq] at hmay
        omega
    · cases hs
  | attach id after => exact h.attach hs
  | write succeeds =>
    simp only [Delivery.step] at hs
    split at hs
    · rename_i v hv
      obtain ⟨run, hok⟩ := h.view v hv
      split at hs
      · rename_i event rest f hst
        cases hok with
        | forwarding => cases hst
        | closed => cases hst
        | @writing id after seen _ emitted _ found held start last feed =>
          cases hst
          cases succeeds with
          | true =>
            cases hs
            refine ⟨h.journals, fun v' hv' => ⟨run, ?_⟩⟩
            cases hv'
            exact .writing found held start (by simpa using last) feed.advance
          | false =>
            cases hs
            refine ⟨(h.journals.apply (.dropReceiver id)).1, fun v' hv' =>
              ⟨{ run with events := run.events.dropReceiver }, ?_⟩⟩
            cases hv'
            refine .closed (Store.dropReceiver_run found) ?_
            rw [Store.dropReceiver_published]
            exact feed.sound
      · cases hs
    · cases hs
  | spawn =>
    simp only [Delivery.step] at hs
    split at hs
    · rename_i v hv
      obtain ⟨run, hok⟩ := h.view v hv
      split at hs
      · rename_i f hst
        cases hok with
        | forwarding => cases hst
        | closed => cases hst
        | @writing id after seen _ emitted _ found held start last feed =>
          cases hst
          cases hs
          refine ⟨h.journals, fun v' hv' => ⟨run, ?_⟩⟩
          cases hv'
          refine .forwarding ⟨h.journals, found, by simpa [Forwarder.held, start] using held, ?_,
            by simpa using last, ?_⟩ (fun hn => absurd rfl hn)
          · simpa using feed.sound
          · simp only [Forwarder.Ok, start]
            exact ⟨seen, by simpa using feed⟩
      · cases hs
    · cases hs
  | forward act =>
    simp only [Delivery.step] at hs
    split at hs
    · rename_i v hv
      obtain ⟨run, hok⟩ := h.view v hv
      split at hs
      · rename_i f hst
        split at hs
        · rename_i st hstep
          cases hs
          obtain ⟨hj, run', h'⟩ := hok.forward hst hstep
          exact ⟨hj, fun v' hv' => by cases hv'; exact ⟨run', h'⟩⟩
        · cases hs
      · cases hs
    · cases hs
  | abort =>
    simp only [Delivery.step] at hs
    split at hs
    · rename_i v hv
      obtain ⟨run, hok⟩ := h.view v hv
      split at hs
      · rename_i f hst
        cases hok with
        | writing => cases hst
        | closed => cases hst
        | @forwarding id after _ emitted refused attached ended =>
          cases hst
          cases hs
          obtain ⟨run', h'⟩ := attached.close
          refine ⟨h'.journals, fun v' hv' => ⟨run', ?_⟩⟩
          cases hv'
          exact .forwarding h' (fun _ => by rw [Forwarder.close_ended])
      · cases hs
    · cases hs

theorem Delivery.inv_exec {t : Transport} {acts : List Delivery.Act} {s : Delivery}
    (h : exec (Delivery.step t) .init acts = some s) : s.Inv :=
  exec_inv' (fun _ _ _ hi hs => hi.step hs) ⟨Store.journals_empty, by simp [Delivery.init]⟩ h

/-- `last_sequence`, once the forwarder has it. -/
def View.lastSequence (v : View) : Option Nat :=
  match v.stage with
  | .forwarding f => some f.lastSequence
  | _ => none

/-- The forwarder is running and its receiver would park. -/
def View.Drained (run : LiveRun) (v : View) : Prop :=
  ∃ f, v.stage = .forwarding f ∧ f.phase = .receiving ∧ (take run.events f.events).1 = none

theorem View.Ok.sound {store : Store} {run : LiveRun} {v : View} (h : v.Ok store run) :
    Sound (store.published v.id) (v.emitted ++ v.refused.toList) v.after
      run.snapshot.acknowledgedSequence := by
  cases h with
  | writing _ _ _ _ feed => simpa using feed.sound
  | forwarding attached => exact attached.sound
  | closed _ sound => simpa using sound

/-- Whatever was published up to `last_sequence` was emitted, acknowledged, or refused by the
sink in the forwarder's last step. -/
theorem View.Ok.covered_last {store : Store} {run : LiveRun} {v : View} {last : Nat}
    (h : v.Ok store run) (hl : v.lastSequence = some last) {e : SequencedEvent}
    (he : e ∈ store.published v.id) (ha : v.after < e.sequence) (hle : e.sequence ≤ last) :
    e ∈ v.emitted ∨ e.sequence ≤ run.snapshot.acknowledgedSequence ∨ v.refused = some e := by
  cases h with
  | writing => cases hl
  | closed => cases hl
  | forwarding attached =>
    cases hl
    rcases attached.sound.covered_last attached.last he ha hle with hm | hk
    · rcases List.mem_append.1 hm with hm | hm
      · exact .inl hm
      · exact .inr (.inr (by simpa using hm))
    · exact .inr (.inl hk)

/-- A forwarder with nothing left to receive has dealt with everything published. -/
theorem View.Ok.covered_drained {store : Store} {run : LiveRun} {v : View}
    (h : v.Ok store run) (hj : store.Journals) (hd : v.Drained run) {e : SequencedEvent}
    (he : e ∈ store.published v.id) (ha : v.after < e.sequence) :
    e ∈ v.emitted ∨ e.sequence ≤ run.snapshot.acknowledgedSequence := by
  obtain ⟨f, hst, hp, htake⟩ := hd
  have hnum := (hj.runs v.id run h.found).numbered
  cases h with
  | writing => cases hst
  | closed => cases hst
  | @forwarding id after f' emitted refused attached ended =>
    cases hst
    have hok := attached.ok
    simp only [Forwarder.Ok, hp] at hok
    obtain ⟨seen, hfeed⟩ := hok
    have hnone : (store.published id).drop seen = [] := hfeed.tracks.parked htake
    have hseen : e.sequence ≤ seen := by
      have hle : e.sequence ≤ 0 + (store.published id).length := (hnum.bounds he).2
      have := List.drop_eq_nil_iff.1 hnone
      omega
    obtain rfl : refused = none := by
      by_contra hr
      simp [ended hr] at hp
    simpa using hfeed.covered e he ha hseen

/-- **Event delivery of one attachment.** For every run, every accepted cursor and every
interleaving of publishes, acknowledgements and other attachments with the attachment's own
steps, over either transport: the emitted events are published events in strictly increasing
order after the cursor; nothing unacknowledged is skipped below them or up to
`last_sequence`; and a running forwarder with nothing left to receive has skipped nothing at
all. A frame is only ever refused in the step that ends the forwarder. -/
theorem attachment_delivers (t : Transport) (acts : List Delivery.Act) (s : Delivery) (v : View)
    (h : exec (Delivery.step t) .init acts = some s) (hv : s.view = some v) :
    ∃ run : LiveRun, s.store.runs[v.id]? = some run ∧
      (s.store.published v.id).map SequencedEvent.sequence =
        List.range' 1 run.snapshot.latestSequence ∧
      v.emitted.Pairwise (fun x y => x.sequence < y.sequence) ∧
      (∀ e ∈ v.emitted, v.after < e.sequence ∧ e ∈ s.store.published v.id) ∧
      (∀ x ∈ v.emitted, ∀ e ∈ s.store.published v.id, v.after < e.sequence →
        e.sequence ≤ x.sequence →
          e ∈ v.emitted ∨ e.sequence ≤ run.snapshot.acknowledgedSequence) ∧
      (∀ last, v.lastSequence = some last → ∀ e ∈ s.store.published v.id,
        v.after < e.sequence → e.sequence ≤ last →
          e ∈ v.emitted ∨ e.sequence ≤ run.snapshot.acknowledgedSequence ∨
            v.refused = some e) ∧
      (∀ e, v.refused = some e → ∃ f, v.stage = .forwarding f ∧ f.phase = .ended) ∧
      (v.Drained run → ∀ e ∈ s.store.published v.id, v.after < e.sequence →
        e ∈ v.emitted ∨ e.sequence ≤ run.snapshot.acknowledgedSequence) := by
  have inv := Delivery.inv_exec h
  obtain ⟨run, hok⟩ := inv.view v hv
  have hj := inv.journals.runs v.id run hok.found
  have hsound := hok.sound
  refine ⟨run, hok.found, ?_, (List.pairwise_append.1 hsound.sorted).1,
    fun e he => ⟨hsound.above e (List.mem_append_left _ he),
      hsound.real e (List.mem_append_left _ he)⟩, fun x hx e he ha hle => ?_,
    fun last hl e he ha hle => hok.covered_last hl he ha hle, fun e hr => ?_,
    fun hd e he ha => hok.covered_drained inv.journals hd he ha⟩
  · rw [hj.latest]; exact hj.numbered
  · rcases hsound.gapless x (List.mem_append_left _ hx) e he ha hle with hm | hk
    · rcases List.mem_append.1 hm with hm | hm
      · exact .inl hm
      · -- The refused frame is the last one handed on, above every emitted event.
        have := (List.pairwise_append.1 hsound.sorted).2.2 x hx e hm
        omega
    · exact .inr hk
  · cases hok with
    | writing => cases hr
    | closed => cases hr
    | @forwarding _ _ _ _ refused attached ended =>
      have hr' : refused = some e := hr
      exact ⟨_, rfl, ended (by simp [hr'])⟩

/-- 257 events overflow the 256-slot channel before the forwarder first runs, so it re-attaches and
replays them from the journal. -/
def overflow : List Delivery.Act :=
  List.replicate 257 (.other (.publish ⟨"r"⟩ .messageBoundary (some .running) none)) ++
    [.forward (.recv true), .forward .reattach, .forward (.replay true), .forward (.replay true)]

def laggingAttachment : List Delivery.Act :=
  [.other (.insert ⟨"r"⟩ plainRequest), .attach ⟨"r"⟩ 0, .spawn] ++ overflow

def laggingSubscription : List Delivery.Act :=
  [.other (.insert ⟨"r"⟩ plainRequest), .attach ⟨"r"⟩ 0] ++ overflow

theorem attachment_delivers_laggingAttachment :
    (∃ s v, exec (Delivery.step .unix) .init laggingAttachment = some s ∧ s.view = some v ∧
      v.emitted.map SequencedEvent.sequence = [1, 2] ∧
      v.emitted.Pairwise (fun x y => x.sequence < y.sequence)) ∧
    ∃ s v, exec (Delivery.step .webSocket) .init laggingSubscription = some s ∧
      s.view = some v ∧ v.emitted.map SequencedEvent.sequence = [1, 2] ∧
      v.emitted.Pairwise (fun x y => x.sequence < y.sequence) := by
  have hlags : ∀ t acts, ((exec (Delivery.step t) .init acts).bind Delivery.view).map
      (fun v => v.emitted.map SequencedEvent.sequence) = some [1, 2] →
      ∃ s v, exec (Delivery.step t) .init acts = some s ∧ s.view = some v ∧
        v.emitted.map SequencedEvent.sequence = [1, 2] ∧
        v.emitted.Pairwise (fun x y => x.sequence < y.sequence) := fun t acts h => by
    obtain ⟨v, hv, he⟩ := Option.map_eq_some_iff.1 h
    obtain ⟨s, hs, hv⟩ := Option.bind_eq_some_iff.1 hv
    obtain ⟨run, -, -, hp, -⟩ := attachment_delivers t acts s v hs hv
    exact ⟨s, v, hs, hv, he, hp⟩
  exact ⟨hlags .unix laggingAttachment (by decide +kernel),
    hlags .webSocket laggingSubscription (by decide +kernel)⟩

end AgencyProxy
