import AgencyProxy.Runtime.Journal

/-!
# Acknowledgements commute

An acknowledgement is clamped to the head, joined to what was acknowledged before, and the
journal popped from the front up to the result. Two in a row are therefore one with the larger
value (`LiveRun.acknowledge_acknowledge`), and a list of them is one with the largest. That the
pop removes exactly the acknowledged events needs the order of the journal (`Journaled`).
-/

namespace AgencyProxy.Runtime

open Std

/-! ## One run -/

/-- The largest of a list of acknowledged values; 0 acknowledges nothing. -/
def largest (values : List Nat) : Nat := values.foldr max 0

@[simp] theorem largest_nil : largest [] = 0 := rfl

@[simp] theorem largest_cons (v : Nat) (values : List Nat) :
    largest (v :: values) = max v (largest values) := rfl

theorem largest_le_iff {values : List Nat} {n : Nat} :
    largest values ≤ n ↔ ∀ v ∈ values, v ≤ n := by
  induction values with
  | nil => simp
  | cons v values ih => simp [ih]

/-- Neither order nor repetition changes the largest value. -/
theorem largest_congr {values values' : List Nat} (h : ∀ v, v ∈ values' ↔ v ∈ values) :
    largest values' = largest values := by
  apply Nat.le_antisymm
  · exact largest_le_iff.mpr fun v hv => largest_le_iff.mp (Nat.le_refl _) v ((h v).mp hv)
  · exact largest_le_iff.mpr fun v hv => largest_le_iff.mp (Nat.le_refl _) v ((h v).mpr hv)

/-- Popping up to a bound and then up to a larger one is popping up to the larger one. -/
theorem dropWhile_dropWhile_le {a b : Nat} (hab : a ≤ b) (journal : List SequencedEvent) :
    ((journal.dropWhile fun event => event.sequence ≤ a).dropWhile
      fun event => event.sequence ≤ b) = journal.dropWhile fun event => event.sequence ≤ b := by
  induction journal with
  | nil => rfl
  | cons event journal ih =>
    by_cases ha : event.sequence ≤ a
    · have hb : event.sequence ≤ b := Nat.le_trans ha hab
      simp only [List.dropWhile_cons, ha, hb, decide_true, if_true, ih]
    · simp only [List.dropWhile_cons, ha, decide_false, Bool.false_eq_true, if_false]

namespace LiveRun

theorem acknowledge_acknowledge (run : LiveRun) (a b : Nat) :
    (run.acknowledge a).acknowledge b = run.acknowledge (max a b) := by
  have hack : ∀ k latest : Nat,
      max (max k (min a latest)) (min b latest) = max k (min (max a b) latest) := by
    intro k latest
    omega
  simp only [acknowledge, hack, LiveRun.mk.injEq, true_and, and_true]
  exact dropWhile_dropWhile_le (by omega) run.journal

/-- A value beyond the head acts as the head. -/
theorem acknowledge_clamp (run : LiveRun) {through : Nat}
    (h : run.snapshot.latestSequence ≤ through) :
    run.acknowledge through = run.acknowledge run.snapshot.latestSequence := by
  simp only [acknowledge, Nat.min_eq_right h, Nat.min_self]

/-- The same snapshot, journal and replay floor; receivers may come and go. -/
structure SameLog (run run' : LiveRun) : Prop where
  snapshot : run.snapshot = run'.snapshot
  journal : run.journal = run'.journal
  replayFloor : run.replayFloor = run'.replayFloor

namespace SameLog

variable {a b c : LiveRun}

theorem rfl' (run : LiveRun) : run.SameLog run := ⟨rfl, rfl, rfl⟩

theorem trans (h₁ : a.SameLog b) (h₂ : b.SameLog c) : a.SameLog c :=
  ⟨h₁.snapshot.trans h₂.snapshot, h₁.journal.trans h₂.journal,
    h₁.replayFloor.trans h₂.replayFloor⟩

theorem acknowledge (h : a.SameLog b) (through : Nat) :
    (a.acknowledge through).SameLog (b.acknowledge through) := by
  constructor <;> simp only [LiveRun.acknowledge, h.snapshot, h.journal, h.replayFloor]

end SameLog

end LiveRun

namespace Journaled

variable {run : LiveRun} {published : List SequencedEvent}

/-- What an acknowledgement removes from the journal, and what it leaves. -/
theorem acknowledge_splits (h : Journaled run published) (through : Nat) :
    ∃ removed, run.journal = removed ++ (run.acknowledge through).journal ∧
      (∀ event ∈ removed,
        event.sequence ≤ (run.acknowledge through).snapshot.acknowledgedSequence) ∧
      ∀ event ∈ (run.acknowledge through).journal,
        (run.acknowledge through).snapshot.acknowledgedSequence < event.sequence := by
  refine ⟨_, (List.takeWhile_append_dropWhile).symm, ?_, ?_⟩
  · intro event he
    exact of_decide_eq_true (List.all_eq_true.mp List.all_takeWhile event he)
  · intro event he
    have hnum := (h.acknowledge through).numbered_journal
    have := (hnum.bounds he).1
    omega

/-- What an acknowledgement would remove is gone already if it says nothing new. -/
theorem acknowledge_zero (h : Journaled run published) : run.acknowledge 0 = run := by
  have hkeep : (run.journal.dropWhile fun event =>
      event.sequence ≤ run.snapshot.acknowledgedSequence) = run.journal := by
    rw [h.numbered_journal.dropWhile_le, Nat.sub_eq_zero_of_le (Nat.le_max_left _ _),
      List.drop_zero]
  simp only [LiveRun.acknowledge, Nat.zero_min, Nat.max_zero, hkeep]

end Journaled

/-! ## The whole map -/

namespace Store

/-- Acknowledgements of one run, one after the other. -/
def acknowledgeAll (s : Store) (id : RunId) (values : List Nat) : Except RuntimeError Store :=
  values.foldlM (fun s through => s.acknowledge id through) s

theorem acknowledge_of_run {s : Store} {id : RunId} {run : LiveRun}
    (hrun : s.runs[id]? = some run) (through : Nat) :
    s.acknowledge id through =
      .ok { s with runs := s.runs.insert id (run.acknowledge through) } := by
  simp only [acknowledge, hrun]

/-- One acknowledgement with the largest value does what all of them do. -/
theorem acknowledgeAll_eq {s : Store} {id : RunId} {run : LiveRun}
    {published : List SequencedEvent} (hrun : s.runs[id]? = some run)
    (hj : Journaled run published) (values : List Nat) :
    s.acknowledgeAll id values = s.acknowledge id (largest values) := by
  induction values generalizing s run with
  | nil =>
    rw [largest_nil, acknowledge_of_run hrun, hj.acknowledge_zero, ExtTreeMap.insert_same hrun]
    rfl
  | cons v values ih =>
    have hfirst := acknowledge_of_run hrun v
    have hrest := ih (s := { s with runs := s.runs.insert id (run.acknowledge v) })
      (ExtTreeMap.getElem?_insert_self) (hj.acknowledge v)
    calc s.acknowledgeAll id (v :: values)
        = acknowledgeAll { s with runs := s.runs.insert id (run.acknowledge v) } id values := by
          simp only [acknowledgeAll, List.foldlM_cons, hfirst]
          rfl
      _ = .ok { s with
            runs := (s.runs.insert id (run.acknowledge v)).insert id
              ((run.acknowledge v).acknowledge (largest values)) } := by
          rw [hrest, acknowledge_of_run ExtTreeMap.getElem?_insert_self]
      _ = s.acknowledge id (largest (v :: values)) := by
          rw [acknowledge_of_run hrun, largest_cons, LiveRun.acknowledge_acknowledge,
            ExtTreeMap.insert_insert]

/-- An operation that publishes an event of run `id`. -/
def Op.Publishes (id : RunId) : Op → Prop
  | .publish id' _ _ _ => id' = id
  | _ => False

/-- The value that an operation acknowledges for run `id`. -/
def Op.acknowledged (id : RunId) : Op → Option Nat
  | .acknowledge id' through => if id' = id then some through else none
  | _ => none

/-- One operation that does not publish on a run acknowledges its value there, or nothing. -/
theorem apply_sameLog {s : Store} {id : RunId} {run : LiveRun} {op : Op}
    (hrun : s.runs[id]? = some run) (hop : ¬ op.Publishes id) :
    ∃ run' : LiveRun, (s.apply op).runs[id]? = some run' ∧
      run'.SameLog ((op.acknowledged id).elim run run.acknowledge) := by
  cases op with
  | insert id' spec =>
    refine ⟨run, ?_, .rfl' run⟩
    simp only [apply, Store.insert]
    split
    · rename_i hins
      split at hins
      · cases hins
      · rename_i hmem
        cases hins
        have hne : id' ≠ id := by
          rintro rfl
          exact hmem (ExtTreeMap.mem_of_getElem? hrun)
        rw [ExtTreeMap.getElem?_insert_of_ne hne, hrun]
    · exact hrun
  | publish id' event state session =>
    have hne : id' ≠ id := hop
    refine ⟨run, ?_, .rfl' run⟩
    simp only [apply, Store.publish]
    split
    · rw [ExtTreeMap.getElem?_insert_of_ne hne, hrun]
    · exact hrun
  | acknowledge id' through =>
    by_cases hid : id' = id
    · subst hid
      refine ⟨run.acknowledge through, ?_, ?_⟩
      · simp [apply, acknowledge_of_run hrun]
      · simpa [Op.acknowledged] using LiveRun.SameLog.rfl' _
    · refine ⟨run, ?_, ?_⟩
      · simp only [apply, acknowledge]
        cases s.runs[id']? with
        | none => exact hrun
        | some other => simpa [ExtTreeMap.getElem?_insert_of_ne hid] using hrun
      · simpa [Op.acknowledged, hid] using LiveRun.SameLog.rfl' _
  | attach id' after =>
    simp only [apply]
    cases hatt : s.attach id' after with
    | error e => exact ⟨run, hrun, .rfl' run⟩
    | ok p =>
      obtain ⟨attachment, s'⟩ := p
      obtain ⟨other, other', hother, ha, rfl⟩ := attach_ok hatt
      by_cases hid : id' = id
      · subst hid
        cases hother.symm.trans hrun
        obtain ⟨-, -, rfl⟩ := LiveRun.attach_ok ha
        exact ⟨_, ExtTreeMap.getElem?_insert_self, rfl, rfl, rfl⟩
      · exact ⟨run, by rw [ExtTreeMap.getElem?_insert_of_ne hid, hrun], .rfl' run⟩
  | dropReceiver id' =>
    simp only [apply, dropReceiver, modify]
    cases hother : s.runs[id']? with
    | none => exact ⟨run, hrun, .rfl' run⟩
    | some other =>
      by_cases hid : id' = id
      · subst hid
        cases hother.symm.trans hrun
        exact ⟨_, ExtTreeMap.getElem?_insert_self, rfl, rfl, rfl⟩
      · exact ⟨run, by rw [ExtTreeMap.getElem?_insert_of_ne hid, hrun], .rfl' run⟩

/-- Acknowledgements among any other operations that do not publish on the run. -/
theorem foldl_sameLog {s : Store} {id : RunId} {run base : LiveRun} {n : Nat} {ops : List Op}
    (hrun : s.runs[id]? = some run) (hsame : run.SameLog (base.acknowledge n))
    (hops : ∀ op ∈ ops, ¬ op.Publishes id) :
    ∃ run' : LiveRun, (ops.foldl Store.apply s).runs[id]? = some run' ∧
      run'.SameLog (base.acknowledge (max n (largest (ops.filterMap (Op.acknowledged id))))) := by
  induction ops generalizing s run n with
  | nil => exact ⟨run, hrun, by simpa using hsame⟩
  | cons op ops ih =>
    obtain ⟨run₁, hrun₁, hsame₁⟩ := apply_sameLog hrun (hops op List.mem_cons_self)
    have hrest : ∀ op ∈ ops, ¬ op.Publishes id :=
      fun op h => hops op (List.mem_cons_of_mem _ h)
    cases hv : op.acknowledged id with
    | none =>
      rw [hv] at hsame₁
      obtain ⟨run', hrun', hsame'⟩ := ih hrun₁ (hsame₁.trans hsame) hrest
      exact ⟨run', hrun', by rwa [List.filterMap_cons_none hv]⟩
    | some v =>
      rw [hv] at hsame₁
      have hstep := hsame₁.trans (hsame.acknowledge v)
      rw [LiveRun.acknowledge_acknowledge] at hstep
      obtain ⟨run', hrun', hsame'⟩ := ih hrun₁ hstep hrest
      exact ⟨run', hrun', by rwa [List.filterMap_cons_some hv, largest_cons, ← Nat.max_assoc]⟩

end Store

/-- **Acknowledgements commute.** In any reachable state a list of acknowledgements of a run does
what one with the largest value does, so order and repetition do not matter, and a value beyond
the head acts as the head. It sets `acknowledged_sequence` and removes the acknowledged prefix
of the journal; nothing else changes in this run or any other. The same holds of the run's log
when other operations come in between, as long as none publishes on the run. -/
theorem acknowledgements_commute (ops : List Store.Op) (id : RunId) (run : LiveRun)
    (h : (ops.foldl Store.apply .empty).runs[id]? = some run) (values : List Nat) :
    let s := ops.foldl Store.apply .empty
    let latest := run.snapshot.latestSequence
    let acknowledged := max run.snapshot.acknowledgedSequence (min (largest values) latest)
    s.acknowledgeAll id values = s.acknowledge id (largest values) ∧
    (∀ values', (∀ v, v ∈ values' ↔ v ∈ values) →
      s.acknowledgeAll id values' = s.acknowledgeAll id values) ∧
    (∀ through, latest ≤ through → s.acknowledge id through = s.acknowledge id latest) ∧
    (∃ (s' : Store) (removed rest : List SequencedEvent),
      s.acknowledgeAll id values = .ok s' ∧ run.journal = removed ++ rest ∧
      (∀ event ∈ removed, event.sequence ≤ acknowledged) ∧
      (∀ event ∈ rest, acknowledged < event.sequence) ∧
      s'.runs[id]? = some
        { run with
          snapshot := { run.snapshot with acknowledgedSequence := acknowledged }
          journal := rest } ∧
      (∀ other : RunId, other ≠ id → s'.runs[other]? = s.runs[other]?) ∧
      s'.published = s.published) ∧
    (∀ mixed : List Store.Op, (∀ op ∈ mixed, ¬ op.Publishes id) →
      mixed.filterMap (Store.Op.acknowledged id) = values →
      ∃ run' : LiveRun, (mixed.foldl Store.apply s).runs[id]? = some run' ∧
        run'.SameLog (run.acknowledge (largest values))) := by
  intro s latest acknowledged
  have hj := (Store.journals_empty.foldl ops).1.runs id run h
  have hall : ∀ values, s.acknowledgeAll id values = s.acknowledge id (largest values) :=
    Store.acknowledgeAll_eq h hj
  refine ⟨hall values, ?_, ?_, ?_, ?_⟩
  · intro values' hsame
    rw [hall, hall, largest_congr hsame]
  · intro through hge
    rw [Store.acknowledge_of_run h, Store.acknowledge_of_run h, run.acknowledge_clamp hge]
  · obtain ⟨removed, hsplit, hremoved, hrest⟩ := hj.acknowledge_splits (largest values)
    refine ⟨_, removed, _, (hall values).trans (Store.acknowledge_of_run h _), hsplit, hremoved,
      hrest, ExtTreeMap.getElem?_insert_self, ?_, rfl⟩
    intro other hne
    exact ExtTreeMap.getElem?_insert_of_ne (Ne.symm hne)
  · intro mixed hmixed hvalues
    have hstart : run.SameLog (run.acknowledge 0) := by
      rw [hj.acknowledge_zero]
      exact .rfl' run
    obtain ⟨run', hrun', hsame⟩ := Store.foldl_sameLog h hstart hmixed
    refine ⟨run', hrun', ?_⟩
    rwa [hvalues, Nat.zero_max] at hsame

/-- Late, doubled and overlong values on a run of three events. -/
theorem acknowledgements_commute_ackedRun :
    ∃ run : LiveRun, (ackedRun.foldl Store.apply .empty).runs[RunId.mk "r"]? = some run ∧
      run.snapshot.latestSequence = 3 ∧
      (ackedRun.foldl Store.apply .empty).acknowledgeAll ⟨"r"⟩ [2, 0, 2, 1] =
        (ackedRun.foldl Store.apply .empty).acknowledge ⟨"r"⟩ 2 :=
  ⟨_, rfl, rfl, (acknowledgements_commute ackedRun ⟨"r"⟩ _ rfl [2, 0, 2, 1]).1⟩

end AgencyProxy.Runtime
