import AgencyProxy.Maps
import AgencyProxy.Numbered
import AgencyProxy.Runtime.Store

/-!
# The replay journal

Two operations trim a run's journal from the front: `push_journal` evicts what is over
the limit and raises `replay_floor`, `acknowledge` removes what was acknowledged and does
not. `Journaled run published` is the invariant that relates the journal, the three
counters and everything ever published: the journal is the published log without its first
`max acknowledged floor` events. `Store.Journals` is that invariant for the whole map; it is
kept by every operation on it.
-/

namespace AgencyProxy.Runtime

open Std

/-! ## One run -/

theorem evict_of_le {journal : List SequencedEvent} {floor : Nat}
    (h : journal.length ≤ maxReplayEvents) : evict journal floor = (journal, floor) := by
  cases journal with
  | nil => rfl
  | cons event rest => rw [evict, if_neg (by omega)]

/-- One event over the limit: it is evicted, and nothing else. -/
theorem evict_succ {event : SequencedEvent} {rest : List SequencedEvent} {floor : Nat}
    (h : rest.length = maxReplayEvents) :
    evict (event :: rest) floor = (rest, max floor event.sequence) := by
  rw [evict, if_pos (by simp; omega), evict_of_le (Nat.le_of_eq h)]

/-- The journal is what is left of the published log. -/
structure Journaled (run : LiveRun) (published : List SequencedEvent) : Prop where
  numbered : Numbered SequencedEvent.sequence 0 published
  latest : run.snapshot.latestSequence = published.length
  journal : run.journal =
    published.drop (max run.snapshot.acknowledgedSequence run.replayFloor)
  bounded : run.journal.length ≤ maxReplayEvents
  acked_le : run.snapshot.acknowledgedSequence ≤ run.snapshot.latestSequence
  floor_le : run.replayFloor ≤ run.snapshot.latestSequence
  floor_far : run.replayFloor = 0 ∨
    run.replayFloor + maxReplayEvents ≤ run.snapshot.latestSequence

namespace Journaled

variable {run : LiveRun} {published : List SequencedEvent}

theorem fresh (id : RunId) (spec : RunRequest) : Journaled (.fresh id spec) [] where
  numbered := .nil
  latest := rfl
  journal := rfl
  bounded := by simp [LiveRun.fresh]
  acked_le := Nat.le_refl _
  floor_le := Nat.le_refl _
  floor_far := .inl rfl

/-- Everything but the journal and its three counters is free to change. -/
theorem congr {run' : LiveRun} (h : Journaled run published)
    (hl : run'.snapshot.latestSequence = run.snapshot.latestSequence)
    (ha : run'.snapshot.acknowledgedSequence = run.snapshot.acknowledgedSequence)
    (hj : run'.journal = run.journal) (hf : run'.replayFloor = run.replayFloor) :
    Journaled run' published where
  numbered := h.numbered
  latest := hl ▸ h.latest
  journal := by rw [hj, ha, hf, h.journal]
  bounded := hj ▸ h.bounded
  acked_le := by rw [ha, hl]; exact h.acked_le
  floor_le := by rw [hf, hl]; exact h.floor_le
  floor_far := by rw [hf, hl]; exact h.floor_far

/-- The journal is numbered from the event after the last one trimmed. -/
theorem numbered_journal (h : Journaled run published) :
    Numbered SequencedEvent.sequence
      (max run.snapshot.acknowledgedSequence run.replayFloor) run.journal := by
  have := h.numbered.drop (k := max run.snapshot.acknowledgedSequence run.replayFloor)
    (by have := h.acked_le; have := h.floor_le; have := h.latest; omega)
  rwa [Nat.zero_add, ← h.journal] at this

theorem numbered_sequenced (h : Journaled run published) (id : RunId) (event : RunEvent) :
    Numbered SequencedEvent.sequence 0 (published ++ [run.sequenced id event]) := by
  rw [Numbered.append_iff]
  exact ⟨h.numbered, by simp [LiveRun.sequenced, h.latest]⟩

theorem publish (h : Journaled run published) (id : RunId) (event : RunEvent)
    (state : Option RunState) (session : Option String) :
    Journaled (run.publish id event state session)
      (published ++ [run.sequenced id event]) := by
  have hnum := h.numbered_sequenced id event
  have hlatest := h.latest
  have hacked := h.acked_le
  have hfloor := h.floor_le
  have hbound := h.bounded
  have hfar := h.floor_far
  generalize hm : max run.snapshot.acknowledgedSequence run.replayFloor = trimmed
  have hpush : run.journal ++ [run.sequenced id event] =
      (published ++ [run.sequenced id event]).drop trimmed := by
    rw [h.journal, hm, List.drop_append_of_le_length (by omega)]
  have hlen : run.journal.length = published.length - trimmed := by
    rw [h.journal, hm, List.length_drop]
  by_cases hfull : run.journal.length = maxReplayEvents
  · -- The oldest journaled event is the one after the last trimmed; evicting it moves the floor.
    obtain ⟨oldest, rest, hsplit⟩ : ∃ oldest rest,
        run.journal ++ [run.sequenced id event] = oldest :: rest :=
      List.exists_cons_of_ne_nil (by simp)
    have hrest : rest.length = maxReplayEvents := by
      have := congrArg List.length hsplit
      simp only [List.length_append, List.length_cons, List.length_nil] at this
      omega
    have hseq : oldest.sequence = trimmed + 1 := by
      have hd := hnum.drop (k := trimmed) (by simp; omega)
      rw [← hpush, hsplit, Numbered.cons_iff] at hd
      omega
    have hev : pushJournal run.journal run.replayFloor (run.sequenced id event) =
        (rest, max run.replayFloor oldest.sequence) := by
      rw [pushJournal, hsplit, evict_succ hrest]
    refine ⟨hnum, ?_, ?_, ?_, ?_, ?_, ?_⟩
    · simp [LiveRun.publish, hlatest]
    · simp only [LiveRun.publish, hev]
      rw [show max run.snapshot.acknowledgedSequence (max run.replayFloor oldest.sequence) =
        trimmed + 1 by omega, ← List.tail_drop, ← hpush, hsplit, List.tail_cons]
    · simp only [LiveRun.publish, hev]; omega
    · simp only [LiveRun.publish]; omega
    · simp only [LiveRun.publish, hev]; omega
    · simp only [LiveRun.publish, hev]; omega
  · have hev : pushJournal run.journal run.replayFloor (run.sequenced id event) =
        (run.journal ++ [run.sequenced id event], run.replayFloor) :=
      evict_of_le (by simp only [List.length_append, List.length_singleton]; omega)
    refine ⟨hnum, ?_, ?_, ?_, ?_, ?_, ?_⟩
    · simp [LiveRun.publish, hlatest]
    · simp only [LiveRun.publish, hev, hm]; exact hpush
    · simp only [LiveRun.publish, hev, List.length_append, List.length_singleton]; omega
    · simp only [LiveRun.publish]; omega
    · simp only [LiveRun.publish, hev]; omega
    · simp only [LiveRun.publish, hev]; omega

theorem acknowledge (h : Journaled run published) (through : Nat) :
    Journaled (run.acknowledge through) published where
  numbered := h.numbered
  latest := h.latest
  journal := by
    simp only [LiveRun.acknowledge]
    rw [h.numbered_journal.dropWhile_le, h.journal, List.drop_drop]
    congr 1; omega
  bounded := Nat.le_trans (List.dropWhile_sublist _).length_le h.bounded
  acked_le := by have := h.acked_le; simp only [LiveRun.acknowledge]; omega
  floor_le := h.floor_le
  floor_far := h.floor_far

theorem attach {after : Nat} {attachment : Attachment} {run' : LiveRun}
    (h : Journaled run published) (ha : run.attach after = .ok (attachment, run')) :
    Journaled run' published := by
  obtain ⟨-, -, rfl⟩ := LiveRun.attach_ok ha
  exact h.congr rfl rfl rfl rfl

/-- The replay of an accepted attach: everything after the cursor that was not acknowledged. -/
theorem replay {after : Nat} {attachment : Attachment} {run' : LiveRun}
    (h : Journaled run published) (ha : run.attach after = .ok (attachment, run')) :
    attachment.replay = published.drop (max run.snapshot.acknowledgedSequence after) := by
  obtain ⟨hfloor, rfl, -⟩ := LiveRun.attach_ok ha
  dsimp only
  rw [h.numbered_journal.filter_gt, h.journal, List.drop_drop]
  congr 1; omega

/-- An attach from within the journal's length of the head is never refused. -/
theorem attach_of_near (h : Journaled run published) {after : Nat}
    (hn : run.snapshot.latestSequence ≤ after + maxReplayEvents) :
    ∃ attachment run', run.attach after = .ok (attachment, run') := by
  have := h.floor_far
  unfold LiveRun.attach
  rw [if_neg (by omega)]
  exact ⟨_, _, rfl⟩

end Journaled

/-- The counters that only rise: `before` is an earlier state of the run than `now`. -/
structure LiveRun.Earlier (before now : LiveRun) : Prop where
  latest : before.snapshot.latestSequence ≤ now.snapshot.latestSequence
  acked : before.snapshot.acknowledgedSequence ≤ now.snapshot.acknowledgedSequence
  floor : before.replayFloor ≤ now.replayFloor

namespace LiveRun.Earlier

theorem rfl' (run : LiveRun) : run.Earlier run := ⟨Nat.le_refl _, Nat.le_refl _, Nat.le_refl _⟩

theorem trans {a b c : LiveRun} (h₁ : a.Earlier b) (h₂ : b.Earlier c) : a.Earlier c :=
  ⟨Nat.le_trans h₁.latest h₂.latest, Nat.le_trans h₁.acked h₂.acked,
    Nat.le_trans h₁.floor h₂.floor⟩

theorem evict_floor (journal : List SequencedEvent) (floor : Nat) :
    floor ≤ (evict journal floor).2 := by
  induction journal generalizing floor with
  | nil => exact Nat.le_refl _
  | cons event rest ih =>
    unfold evict
    split
    · exact Nat.le_trans (Nat.le_max_left _ _) (ih _)
    · exact Nat.le_refl _

theorem publish (run : LiveRun) (id : RunId) (event : RunEvent) (state : Option RunState)
    (session : Option String) : run.Earlier (run.publish id event state session) :=
  ⟨Nat.le_succ _, Nat.le_refl _, evict_floor _ _⟩

theorem acknowledge (run : LiveRun) (through : Nat) : run.Earlier (run.acknowledge through) :=
  ⟨Nat.le_refl _, Nat.le_max_left _ _, Nat.le_refl _⟩

theorem attach {run run' : LiveRun} {after : Nat} {attachment : Attachment}
    (h : run.attach after = .ok (attachment, run')) : run.Earlier run' := by
  obtain ⟨-, -, rfl⟩ := LiveRun.attach_ok h
  exact ⟨Nat.le_refl _, Nat.le_refl _, Nat.le_refl _⟩

end LiveRun.Earlier

/-! ## The whole map -/

namespace Store

/-- The data operations on the map, by any callers. -/
inductive Op where
  | insert (id : RunId) (spec : RunRequest)
  | publish (id : RunId) (event : RunEvent) (state : Option RunState) (session : Option String)
  | acknowledge (id : RunId) (through : Nat)
  | attach (id : RunId) (after : Nat)
  | dropReceiver (id : RunId)

/-- A refused operation leaves the map as it was. -/
def apply (s : Store) : Op → Store
  | .insert id spec =>
    match s.insert id spec with
    | .ok s' => s'
    | .error _ => s
  | .publish id event state session => s.publish id event state session
  | .acknowledge id through =>
    match s.acknowledge id through with
    | .ok s' => s'
    | .error _ => s
  | .attach id after =>
    match s.attach id after with
    | .ok (_, s') => s'
    | .error _ => s
  | .dropReceiver id => s.dropReceiver id

/-- Every run's journal is what is left of its published log. -/
structure Journals (s : Store) : Prop where
  runs : ∀ (id : RunId) (run : LiveRun), s.runs[id]? = some run → Journaled run (s.published id)
  absent : ∀ id : RunId, s.runs[id]? = none → s.published id = []

/-- What a step may do to a run the map holds: keep it, with its counters only rising. -/
def Later (s s' : Store) : Prop :=
  ∀ (id : RunId) (run : LiveRun), s.runs[id]? = some run →
    ∃ run' : LiveRun, s'.runs[id]? = some run' ∧ run.Earlier run'

theorem Later.refl (s : Store) : s.Later s := fun _ run h => ⟨run, h, .rfl' run⟩

theorem Later.trans {a b c : Store} (h₁ : a.Later b) (h₂ : b.Later c) : a.Later c := by
  intro id run h
  obtain ⟨run', h', e⟩ := h₁ id run h
  obtain ⟨run'', h'', e'⟩ := h₂ id run' h'
  exact ⟨run'', h'', e.trans e'⟩

theorem journals_empty : empty.Journals :=
  ⟨fun id run h => by simp [empty] at h, fun _ _ => rfl⟩

/-- Replacing one run by a later state of it, with its log, keeps the invariant. -/
theorem Journals.replace {s : Store} (h : s.Journals) {id : RunId} {run run' : LiveRun}
    {log : List SequencedEvent} (hrun : s.runs[id]? = some run)
    (hj : Journaled run' log) (he : run.Earlier run') :
    (⟨s.runs.insert id run', Function.update s.published id log⟩ : Store).Journals ∧
      s.Later ⟨s.runs.insert id run', Function.update s.published id log⟩ := by
  refine ⟨⟨fun id' r hr => ?_, fun id' hn => ?_⟩, fun id' r hr => ?_⟩
  · rcases ExtTreeMap.getElem?_insert_some.1 hr with ⟨rfl, rfl⟩ | ⟨hid, hr⟩
    · simpa using hj
    · simpa [Function.update_of_ne (Ne.symm hid)] using h.runs id' r hr
  · by_cases hid : id = id'
    · subst hid; simp at hn
    · rw [ExtTreeMap.getElem?_insert_of_ne hid] at hn
      simpa [Function.update_of_ne (Ne.symm hid)] using h.absent id' hn
  · by_cases hid : id = id'
    · subst hid
      rw [hrun] at hr
      cases hr
      exact ⟨run', by simp, he⟩
    · exact ⟨r, by rw [ExtTreeMap.getElem?_insert_of_ne hid, hr], .rfl' r⟩

theorem Journals.replace' {s : Store} (h : s.Journals) {id : RunId} {run run' : LiveRun}
    (hrun : s.runs[id]? = some run) (hj : Journaled run' (s.published id))
    (he : run.Earlier run') :
    ({ s with runs := s.runs.insert id run' } : Store).Journals ∧
      s.Later { s with runs := s.runs.insert id run' } := by
  simpa using h.replace hrun hj he

theorem Journals.apply {s : Store} (h : s.Journals) (op : Op) :
    (s.apply op).Journals ∧ s.Later (s.apply op) := by
  cases op with
  | insert id spec =>
    simp only [Store.apply, Store.insert]
    split
    · rename_i hins
      split at hins
      · cases hins
      · rename_i hid
        cases hins
        have hn : s.runs[id]? = none := ExtTreeMap.getElem?_eq_none hid
        refine ⟨⟨fun id' r hr => ?_, fun id' hr => ?_⟩, fun id' r hr => ?_⟩
        · rcases ExtTreeMap.getElem?_insert_some.1 hr with ⟨rfl, rfl⟩ | ⟨he, hr⟩
          · simpa [h.absent id hn] using Journaled.fresh id spec
          · exact h.runs id' r hr
        · by_cases he : id = id'
          · subst he; simp at hr
          · rw [ExtTreeMap.getElem?_insert_of_ne he] at hr
            exact h.absent id' hr
        · have he : id ≠ id' := by rintro rfl; rw [hn] at hr; cases hr
          exact ⟨r, by rw [ExtTreeMap.getElem?_insert_of_ne he, hr], .rfl' r⟩
    · exact ⟨h, .refl s⟩
  | publish id event state session =>
    simp only [Store.apply, Store.publish]
    split
    · rename_i run hrun
      exact h.replace hrun ((h.runs id run hrun).publish id event state session)
        (.publish run id event state session)
    · exact ⟨h, .refl s⟩
  | acknowledge id through =>
    simp only [Store.apply, Store.acknowledge]
    cases hrun : s.runs[id]? with
    | none => exact ⟨h, .refl s⟩
    | some run =>
      exact h.replace' hrun ((h.runs id run hrun).acknowledge through) (.acknowledge run through)
  | attach id after =>
    simp only [Store.apply, Store.attach]
    cases hrun : s.runs[id]? with
    | none => exact ⟨h, .refl s⟩
    | some run =>
      cases hatt : run.attach after with
      | error e => exact ⟨by simpa [hatt] using h, by simpa [hatt] using Later.refl s⟩
      | ok p =>
        obtain ⟨attachment, run'⟩ := p
        simpa [hatt] using h.replace' hrun ((h.runs id run hrun).attach hatt) (.attach hatt)
  | dropReceiver id =>
    simp only [Store.apply, Store.dropReceiver, Store.modify]
    cases hrun : s.runs[id]? with
    | none => exact ⟨h, .refl s⟩
    | some run =>
      exact h.replace' hrun ((h.runs id run hrun).congr rfl rfl rfl rfl)
        ⟨Nat.le_refl _, Nat.le_refl _, Nat.le_refl _⟩

/-- Any sequence of operations keeps the invariant, and every run with its counters rising. -/
theorem Journals.foldl {s : Store} (h : s.Journals) (ops : List Op) :
    (ops.foldl Store.apply s).Journals ∧ s.Later (ops.foldl Store.apply s) := by
  induction ops generalizing s with
  | nil => exact ⟨h, .refl s⟩
  | cons op ops ih =>
    obtain ⟨hj, hl⟩ := h.apply op
    obtain ⟨hj', hl'⟩ := ih hj
    exact ⟨hj', hl.trans hl'⟩

theorem attach_of_run {s : Store} {id : RunId} {run run' : LiveRun} {after : Nat}
    {attachment : Attachment} (hrun : s.runs[id]? = some run)
    (ha : run.attach after = .ok (attachment, run')) :
    s.attach id after = .ok (attachment, { s with runs := s.runs.insert id run' }) := by
  simp only [Store.attach, hrun, ha]

end Store

/-- The journal by sequence number rather than by position. -/
theorem Journaled.journal_eq_filter {run : LiveRun} {published : List SequencedEvent}
    (h : Journaled run published) :
    run.journal = published.filter fun event =>
      max run.snapshot.acknowledgedSequence run.replayFloor < event.sequence ∧
        event.sequence ≤ run.snapshot.latestSequence := by
  have hle : ∀ event ∈ published, event.sequence ≤ run.snapshot.latestSequence := fun event he => by
    have := (h.numbered.bounds he).2
    rw [h.latest]; omega
  rw [h.journal, ← Nat.sub_zero (max _ _), ← h.numbered.filter_gt]
  apply List.filter_congr
  intro event he
  simp [hle event he]

/-- **Replay journal invariant.** After any sequence of operations on the registry's runs, the
journal of every run holds exactly its published events after `max acknowledged floor`, in
order and without a gap; it is bounded; the counters stay within the head, never fall, and the
floor stays a journal's length behind it, so an attach from within that length is accepted. -/
theorem journal_exact (ops later : List Store.Op) (id : RunId) (run : LiveRun)
    (h : (ops.foldl Store.apply .empty).runs[id]? = some run) :
    let s := ops.foldl Store.apply .empty
    let latest := run.snapshot.latestSequence
    let trimmed := max run.snapshot.acknowledgedSequence run.replayFloor
    (s.published id).map SequencedEvent.sequence = List.range' 1 latest ∧
    run.journal = (s.published id).filter
      (fun event => trimmed < event.sequence ∧ event.sequence ≤ latest) ∧
    run.journal.map SequencedEvent.sequence = List.range' (trimmed + 1) (latest - trimmed) ∧
    run.journal.length ≤ maxReplayEvents ∧
    run.snapshot.acknowledgedSequence ≤ latest ∧ run.replayFloor ≤ latest ∧
    (run.replayFloor = 0 ∨ run.replayFloor ≤ latest - maxReplayEvents) ∧
    (∀ after, latest ≤ after + maxReplayEvents →
      ∃ attachment s', s.attach id after = .ok (attachment, s')) ∧
    ∃ run' : LiveRun, (later.foldl Store.apply s).runs[id]? = some run' ∧
      run.snapshot.acknowledgedSequence ≤ run'.snapshot.acknowledgedSequence ∧
      run.replayFloor ≤ run'.replayFloor := by
  intro s latest trimmed
  have hs : s.Journals := (Store.journals_empty.foldl ops).1
  have hj := hs.runs id run h
  have hlen : run.journal.length = latest - trimmed := by
    rw [hj.journal, List.length_drop, ← hj.latest]
  refine ⟨?_, hj.journal_eq_filter, ?_, hj.bounded, hj.acked_le, hj.floor_le, ?_, ?_, ?_⟩
  · rw [show latest = (s.published id).length from hj.latest]
    exact hj.numbered
  · rw [← hlen]; exact hj.numbered_journal
  · have := hj.floor_far
    omega
  · intro after hnear
    obtain ⟨attachment, run', ha⟩ := hj.attach_of_near hnear
    exact ⟨attachment, _, Store.attach_of_run h ha⟩
  · obtain ⟨run', hr, he⟩ := (hs.foldl later).2 id run h
    exact ⟨run', hr, he.acked, he.floor⟩

/-- A request with only the fields that decide anything here. -/
def plainRequest : RunRequest where
  provider := "claude"
  model := ""
  prompt := "hi"
  isCommand := false
  system := none
  permission := "plan"
  effort := none
  extraThinking := none
  approvals := false
  interactive := false
  workspaceRoots := []
  resumeSessionId := none
  binary := none
  environment := []
  uncheckedArgs := []
  metadata := []

/-- Three events, acknowledgements behind, at and beyond the head. -/
def ackedRun : List Store.Op :=
  [.insert ⟨"r"⟩ plainRequest, .publish ⟨"r"⟩ (.text "1") (some .running) none,
   .publish ⟨"r"⟩ (.text "2") (some .running) none, .acknowledge ⟨"r"⟩ 1, .acknowledge ⟨"r"⟩ 0,
   .publish ⟨"r"⟩ (.text "3") (some .running) none, .acknowledge ⟨"x"⟩ 9]

theorem journal_exact_ackedRun :
    ∃ run : LiveRun, (ackedRun.foldl Store.apply .empty).runs[RunId.mk "r"]? = some run ∧
      run.journal.map SequencedEvent.sequence = [2, 3] ∧
      run.journal.length ≤ maxReplayEvents :=
  ⟨_, rfl, rfl, (journal_exact ackedRun [] ⟨"r"⟩ _ rfl).2.2.2.1⟩

/-! ## Complete replays -/

/-- What an attach is to do: replay every event after the cursor, or, when one of them is no
longer retained, say that the replay has expired. -/
structure Store.AttachComplete (s : Store) (id : RunId) (run : LiveRun) (after : Nat) : Prop where
  replayed : ∀ attachment s', s.attach id after = .ok (attachment, s') →
    ∀ event ∈ s.published id, after < event.sequence →
      event.sequence ≤ run.snapshot.latestSequence → event ∈ attachment.replay
  expired : ∀ event ∈ s.published id, after < event.sequence →
    event.sequence ≤ run.snapshot.latestSequence → event ∉ run.journal →
      s.attach id after = .error (.replayExpired after run.replayFloor)

theorem Store.attach_refused {s : Store} {id : RunId} {run : LiveRun} {after : Nat}
    (hrun : s.runs[id]? = some run) (h : after < run.replayFloor) :
    s.attach id after = .error (.replayExpired after run.replayFloor) := by
  simp only [Store.attach, hrun, LiveRun.attach, if_pos h]

/-- A cursor that is not behind the acknowledgements is replayed in full. -/
theorem Journaled.replay_complete {run run' : LiveRun} {published : List SequencedEvent}
    {after : Nat} {attachment : Attachment} (h : Journaled run published)
    (hack : run.snapshot.acknowledgedSequence ≤ after)
    (ha : run.attach after = .ok (attachment, run')) {event : SequencedEvent}
    (he : event ∈ published) (hlt : after < event.sequence) : event ∈ attachment.replay := by
  rw [h.replay ha, Nat.max_eq_right hack, h.numbered.mem_drop_iff he]
  omega

/-- An accepted attach from behind the acknowledgements misses the last acknowledged event. -/
theorem Journaled.replay_misses {run run' : LiveRun} {published : List SequencedEvent}
    {after : Nat} {attachment : Attachment} (h : Journaled run published)
    (hack : after < run.snapshot.acknowledgedSequence)
    (ha : run.attach after = .ok (attachment, run')) :
    ∃ event ∈ published, event.sequence = run.snapshot.acknowledgedSequence ∧
      event ∉ attachment.replay := by
  have hle : run.snapshot.acknowledgedSequence ≤ 0 + published.length := by
    have := h.acked_le; have := h.latest; omega
  obtain ⟨event, he, hs⟩ := h.numbered.exists_key (by omega) hle
  refine ⟨event, he, hs, ?_⟩
  rw [h.replay ha, h.numbered.mem_drop_iff he]
  omega

/-- **When an attach is complete.** After any sequence of operations on the registry's runs, an
attach replays every event after its cursor or says that the replay has expired, if and only if
the cursor is below the replay floor or no event after it was acknowledged: `acknowledge` pops
the journal without raising the floor. -/
theorem attach_complete_iff (ops : List Store.Op) (id : RunId) (run : LiveRun) (after : Nat)
    (h : (ops.foldl Store.apply .empty).runs[id]? = some run) :
    (ops.foldl Store.apply .empty).AttachComplete id run after ↔
      after < run.replayFloor ∨ run.snapshot.acknowledgedSequence ≤ after := by
  have hj := (Store.journals_empty.foldl ops).1.runs id run h
  by_cases hf : after < run.replayFloor
  · have hr := Store.attach_refused h hf
    refine iff_of_true ⟨fun attachment s' ha => ?_, fun _ _ _ _ _ => hr⟩ (.inl hf)
    rw [hr] at ha
    cases ha
  · obtain ⟨attachment, run', ha⟩ :
        ∃ attachment run', run.attach after = .ok (attachment, run') := by
      unfold LiveRun.attach
      rw [if_neg hf]
      exact ⟨_, _, rfl⟩
    have hok := Store.attach_of_run h ha
    constructor
    · intro hc
      refine .inr (Nat.le_of_not_lt fun hack => ?_)
      obtain ⟨event, he, hs, hmiss⟩ := hj.replay_misses hack ha
      exact hmiss (hc.replayed _ _ hok event he (by omega) (by have := hj.acked_le; omega))
    · rintro (hlt | hack)
      · exact absurd hlt hf
      · have hall : ∀ event ∈ (ops.foldl Store.apply .empty).published id,
            after < event.sequence → event ∈ attachment.replay :=
          fun event he hlt => hj.replay_complete hack ha he hlt
        refine ⟨fun attachment' s' ha' event he hlt _ => ?_, fun event he hlt _ hn => ?_⟩
        · cases hok.symm.trans ha'
          exact hall event he hlt
        · obtain ⟨-, hatt, -⟩ := LiveRun.attach_ok ha
          have hm := hall event he hlt
          rw [hatt] at hm
          exact absurd (List.mem_filter.1 hm).1 hn

theorem attach_complete_iff_ackedRun :
    ∃ run : LiveRun, (ackedRun.foldl Store.apply .empty).runs[RunId.mk "r"]? = some run ∧
      run.snapshot.acknowledgedSequence = 1 ∧
      (ackedRun.foldl Store.apply .empty).AttachComplete ⟨"r"⟩ run 1 :=
  ⟨_, rfl, rfl, (attach_complete_iff ackedRun ⟨"r"⟩ _ 1 rfl).2 (.inr (by decide))⟩

/-- One client acknowledges the first event; an attach from the start is accepted and replays the
other two. -/
theorem attach_incomplete_ackedRun :
    ∃ (run : LiveRun) (attachment : Attachment) (s' : Store),
      (ackedRun.foldl Store.apply .empty).runs[RunId.mk "r"]? = some run ∧
      (ackedRun.foldl Store.apply .empty).attach ⟨"r"⟩ 0 = .ok (attachment, s') ∧
      attachment.replay.map SequencedEvent.sequence = [2, 3] ∧
      ((ackedRun.foldl Store.apply .empty).published ⟨"r"⟩).map SequencedEvent.sequence =
        [1, 2, 3] ∧
      ¬ (ackedRun.foldl Store.apply .empty).AttachComplete ⟨"r"⟩ run 0 := by
  refine ⟨_, _, _, rfl, rfl, rfl, rfl, fun hc => ?_⟩
  have hm := hc.replayed _ _ rfl _ List.mem_cons_self (by decide) (by decide)
  have hs := List.mem_map_of_mem (f := SequencedEvent.sequence) hm
  revert hs
  decide

end AgencyProxy.Runtime
