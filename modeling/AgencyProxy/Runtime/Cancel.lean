import AgencyProxy.Runtime.Activity

/-!
# Cancellation

A run's cancellation sender is taken under the `runs` lock, by one `cancel` call or by
`cancel_all`, and fired outside of it. `Cancels` ties the sender to the history of who took
it. A `cancel` call returns `Ok` only once the completion flag is set, which happens in the
critical section that publishes the terminal event.
-/

namespace AgencyProxy.Runtime

open Std Lts

/-- The run whose sender the call has taken. -/
def CancelCall.took : CancelCall → Option RunId
  | .sending id | .waiting id | .returned id (.ok ()) => some id
  | _ => none

namespace Registry

structure Cancels (r : Registry) : Prop where
  sender : ∀ (id : RunId) (run : LiveRun), r.store.runs[id]? = some run →
    (run.cancel = some () ↔ r.consumed id = [])
  absent : ∀ id : RunId, r.store.runs[id]? = none → r.consumed id = []
  once : ∀ id, (r.consumed id).length ≤ 1
  owner : ∀ (k : Nat) (c : CancelCall) (id : RunId), r.cancels[k]? = some c →
    c.took = some id → r.consumed id = [.cancel k]
  acked : ∀ (k : Nat) (id : RunId), r.cancels[k]? = some (.returned id (.ok ())) →
    ∃ run, r.store.runs[id]? = some run ∧ run.completed = true

theorem cancels_init : init.Cancels where
  sender id run h := by simp [init, Store.empty] at h
  absent _ _ := rfl
  once _ := by simp [init]
  owner k c id h := by simp [init] at h
  acked k id h := by simp [init] at h

variable {P : Type} {toValue : P → Except String Value} {r r' : Registry} {k : Nat} {id : RunId}

/-- A step that takes no sender: a run keeps its sender and its flag, a new run has a sender. -/
theorem Cancels.congr (h : r.Cancels) (hc : r'.consumed = r.consumed)
    (hk : r'.cancels = r.cancels)
    (hold : ∀ (id : RunId) (run : LiveRun), r.store.runs[id]? = some run →
      ∃ run', r'.store.runs[id]? = some run' ∧ run'.cancel = run.cancel ∧
        (run.completed = true → run'.completed = true))
    (hnew : ∀ (id : RunId) (run' : LiveRun), r.store.runs[id]? = none →
      r'.store.runs[id]? = some run' → run'.cancel = some ()) : r'.Cancels := by
  refine ⟨fun id run' hr' => ?_, fun id hn => ?_, fun id => by rw [hc]; exact h.once id,
    fun k c id => by rw [hc, hk]; exact h.owner k c id, fun k id hg => ?_⟩
  · rw [hc]
    cases hr : r.store.runs[id]? with
    | none => simp [hnew id run' hr hr', h.absent id hr]
    | some run =>
      obtain ⟨run'', hr'', hcan, -⟩ := hold id run hr
      cases hr''.symm.trans hr'
      rw [hcan]
      exact h.sender id run hr
  · rw [hc]
    cases hr : r.store.runs[id]? with
    | none => exact h.absent id hr
    | some run =>
      obtain ⟨run', hr', -⟩ := hold id run hr
      cases hr'.symm.trans hn
  · rw [hk] at hg
    obtain ⟨run, hr, hcomp⟩ := h.acked k id hg
    obtain ⟨run', hr', -, hkeep⟩ := hold id run hr
    exact ⟨run', hr', hkeep hcomp⟩

theorem Cancels.same (h : r.Cancels) (hs : r'.store = r.store) (hc : r'.consumed = r.consumed)
    (hk : r'.cancels = r.cancels) : r'.Cancels :=
  h.congr hc hk (fun id run hr => ⟨run, by rw [hs]; exact hr, rfl, fun hd => hd⟩)
    (fun id run hn hr => by rw [hs] at hr; cases hn.symm.trans hr)

/-- One run changes, and keeps its sender and its flag. -/
theorem Cancels.replace {run run' : LiveRun} (h : r.Cancels) (hc : r'.consumed = r.consumed)
    (hk : r'.cancels = r.cancels) (hr : r.store.runs[id]? = some run)
    (hs : r'.store.runs = r.store.runs.insert id run') (hcan : run'.cancel = run.cancel)
    (hcomp : run.completed = true → run'.completed = true) : r'.Cancels := by
  refine h.congr hc hk (fun id' run₀ hr₀ => ?_) (fun id' run₀ hn hr₀ => ?_)
  · rw [hs]
    by_cases he : id = id'
    · subst he
      cases hr.symm.trans hr₀
      exact ⟨run', ExtTreeMap.getElem?_insert_self, hcan, hcomp⟩
    · exact ⟨run₀, by rw [ExtTreeMap.getElem?_insert_of_ne he]; exact hr₀, rfl, fun hd => hd⟩
  · rw [hs] at hr₀
    rcases ExtTreeMap.getElem?_insert_some.1 hr₀ with ⟨rfl, -⟩ | ⟨-, hr₀⟩
    · cases hr.symm.trans hn
    · cases hr₀.symm.trans hn

/-- A call that has not taken a sender moves on without one. -/
theorem Cancels.setCall {c : CancelCall} (h : r.Cancels) (hnew : c.took = none) :
    ({ r with cancels := r.cancels.insert k c } : Registry).Cancels := by
  refine ⟨h.sender, h.absent, h.once, fun k' c' id hg ht => ?_, fun k' id hg => ?_⟩
  · rcases ExtTreeMap.getElem?_insert_some.1 hg with ⟨rfl, rfl⟩ | ⟨-, hg⟩
    · rw [hnew] at ht; cases ht
    · exact h.owner k' c' id hg ht
  · rcases ExtTreeMap.getElem?_insert_some.1 hg with ⟨rfl, rfl⟩ | ⟨-, hg⟩
    · cases hnew
    · exact h.acked k' id hg

/-- `cancel` takes the sender of a run. -/
theorem Cancels.take {run : LiveRun} (h : r.Cancels) (hr : r.store.runs[id]? = some run)
    (hcan : run.cancel = some ()) :
    ({ r with
        store := { r.store with runs := r.store.runs.insert id { run with cancel := none } }
        cancels := r.cancels.insert k (.sending id)
        consumed := Function.update r.consumed id (r.consumed id ++ [.cancel k]) }
      : Registry).Cancels := by
  have hnil : r.consumed id = [] := (h.sender id run hr).1 hcan
  rw [hnil, List.nil_append]
  refine ⟨fun id' run' hr' => ?_, fun id' hn => ?_, fun id' => ?_, fun k' c id' hg ht => ?_,
    fun k' id' hg => ?_⟩
  · rcases ExtTreeMap.getElem?_insert_some.1 hr' with ⟨rfl, rfl⟩ | ⟨he, hr'⟩
    · simp
    · simp only [Function.update_of_ne (Ne.symm he)]
      exact h.sender id' run' hr'
  · have he : id ≠ id' := by rintro rfl; simp at hn
    rw [ExtTreeMap.getElem?_insert_of_ne he] at hn
    simp only [Function.update_of_ne (Ne.symm he)]
    exact h.absent id' hn
  · by_cases he : id = id'
    · subst he; simp
    · simp only [Function.update_of_ne (Ne.symm he)]; exact h.once id'
  · rcases ExtTreeMap.getElem?_insert_some.1 hg with ⟨rfl, rfl⟩ | ⟨-, hg⟩
    · cases ht; simp
    · -- Another call that had taken this sender would be in the history.
      have he : id ≠ id' := by
        rintro rfl
        have := h.owner k' c id hg ht
        rw [hnil] at this
        cases this
      simp only [Function.update_of_ne (Ne.symm he)]
      exact h.owner k' c id' hg ht
  · rcases ExtTreeMap.getElem?_insert_some.1 hg with ⟨rfl, hc⟩ | ⟨-, hg⟩
    · cases hc
    · obtain ⟨run', hr', hd⟩ := h.acked k' id' hg
      by_cases he : id = id'
      · subst he
        cases hr.symm.trans hr'
        exact ⟨_, ExtTreeMap.getElem?_insert_self, hd⟩
      · exact ⟨run', by rw [ExtTreeMap.getElem?_insert_of_ne he]; exact hr', hd⟩

/-- The call fires the sender it took, or is told that the run has completed. -/
theorem Cancels.advance {c c' : CancelCall} {signalled : RunId → Bool} (h : r.Cancels)
    (hk : r.cancels[k]? = some c) (ht : c.took = some id)
    (ht' : c'.took = some id)
    (hack : c' = .returned id (.ok ()) →
      ∃ run, r.store.runs[id]? = some run ∧ run.completed = true) :
    ({ r with signalled, cancels := r.cancels.insert k c' } : Registry).Cancels := by
  refine ⟨h.sender, h.absent, h.once, fun k' c₀ id' hg hi => ?_, fun k' id' hg => ?_⟩
  · rcases ExtTreeMap.getElem?_insert_some.1 hg with ⟨rfl, rfl⟩ | ⟨-, hg⟩
    · cases ht'.symm.trans hi
      exact h.owner k c id hk ht
    · exact h.owner k' c₀ id' hg hi
  · rcases ExtTreeMap.getElem?_insert_some.1 hg with ⟨rfl, rfl⟩ | ⟨-, hg⟩
    · cases ht'
      exact hack rfl
    · exact h.acked k' id' hg

theorem sweep_completed (run : LiveRun) : (sweep run).completed = run.completed := by
  unfold sweep; split <;> rfl

theorem Cancels.sweep (h : r.Cancels) :
    ({ r with
        store := { r.store with runs := r.store.runs.map fun _ run => Registry.sweep run }
        signalled := fun id => r.signalled id || r.store.runs[id]?.any cancellable
        consumed := fun id =>
          if r.store.runs[id]?.any cancellable then r.consumed id ++ [.cancelAll]
          else r.consumed id } : Registry).Cancels := by
  have hnil : ∀ id : RunId, r.store.runs[id]?.any cancellable = true → r.consumed id = [] := by
    intro id hs
    cases hr : r.store.runs[id]? with
    | none => simp [hr] at hs
    | some run =>
      simp only [hr, Option.any_some, cancellable, Bool.and_eq_true] at hs
      exact (h.sender id run hr).1 (Option.eq_some_of_isSome hs.2)
  refine ⟨fun id run' hr' => ?_, fun id hn => ?_, fun id => ?_, fun k c id hg ht => ?_,
    fun k id hg => ?_⟩
  · rw [ExtTreeMap.getElem?_map, Option.map_eq_some_iff] at hr'
    obtain ⟨run, hr, rfl⟩ := hr'
    have hs := h.sender id run hr
    simp only [hr, Option.any_some, Registry.sweep]
    cases hc : cancellable run with
    | true => simp
    | false => simpa using hs
  · have hn : r.store.runs[id]? = none := by simpa [ExtTreeMap.getElem?_map] using hn
    simp only [hn, Option.any_none, Bool.false_eq_true, ↓reduceIte]
    exact h.absent id hn
  · dsimp only
    split
    · rename_i hs; simp [hnil id hs]
    · exact h.once id
  · have howner := h.owner k c id hg ht
    dsimp only
    split
    · rename_i hs; rw [hnil id hs] at howner; cases howner
    · exact howner
  · obtain ⟨run, hr, hd⟩ := h.acked k id hg
    exact ⟨Registry.sweep run, by rw [ExtTreeMap.getElem?_map, hr]; rfl,
      by rw [sweep_completed]; exact hd⟩

theorem Cancels.client {a : Act P} (h : r.Cancels) (ha : a.isClient = true)
    (hs : r.step toValue a = some r') : r'.Cancels := by
  obtain rfl | ⟨id, run, run', hr, -, hcan, hcomp, rfl⟩ := client_cases ha hs
  · exact h
  · exact h.replace rfl rfl hr rfl hcan (fun hd => by rw [hcomp]; exact hd)

theorem Cancels.step {a : Act P} (h : r.Cancels) (hs : r.step toValue a = some r') :
    r'.Cancels := by
  have hf := step_frame hs
  cases a with
  | startInsert k =>
    obtain ⟨id, spec, -, -, ⟨-, rfl⟩ | ⟨hn, rfl⟩⟩ := startInsert_cases hs
    · exact h.same rfl rfl rfl
    · refine h.congr rfl rfl (fun id' run hr => ?_) (fun id' run hn' hr => ?_)
      · have he : id ≠ id' := by rintro rfl; cases hn.symm.trans hr
        exact ⟨run, by rw [ExtTreeMap.getElem?_insert_of_ne he]; exact hr, rfl, fun hd => hd⟩
      · rcases ExtTreeMap.getElem?_insert_some.1 hr with ⟨rfl, rfl⟩ | ⟨-, hr⟩
        · rfl
        · cases hr.symm.trans hn'
  | publish id =>
    obtain ⟨p, last, -, -, ⟨-, rfl⟩ | ⟨run, hr, ⟨-, rfl⟩ | ⟨-, rfl⟩⟩⟩ := publish_cases hs
    · exact h.same rfl rfl rfl
    · exact h.replace rfl rfl hr (Store.publish_runs hr) rfl (fun hd => hd)
    · exact h.replace rfl rfl hr (Store.publish_runs hr) rfl (fun hd => hd)
  | complete id =>
    obtain ⟨last, -, rfl⟩ := complete_cases hs
    cases hr : r.store.runs[id]? with
    | none => exact h.same (by simp only [Store.modify, hr]) rfl rfl
    | some run =>
      exact h.replace rfl rfl hr (Store.modify_runs hr _) rfl (fun _ => rfl)
  | cancelCall k id => obtain ⟨-, rfl⟩ := cancelCall_cases hs; exact h.setCall rfl
  | cancelTake k =>
    obtain ⟨id, -, -, ⟨e, -, rfl⟩ | ⟨run, hr, hcan, rfl⟩⟩ := cancelTake_cases hs
    · exact h.setCall rfl
    · exact h.take hr hcan
  | cancelSend k =>
    obtain ⟨id, hk, rfl⟩ := cancelSend_cases hs
    exact h.advance hk rfl rfl (fun he => by cases he)
  | cancelWait k =>
    obtain ⟨id, run, hk, hr, hd, rfl⟩ := cancelWait_cases hs
    exact h.advance hk rfl rfl (fun _ => ⟨run, hr, hd⟩)
  | cancelAll => obtain ⟨-, rfl⟩ := cancelAll_cases hs; exact h.sweep
  | acknowledge id through => exact h.client rfl hs
  | attach id after => exact h.client rfl hs
  | dropReceiver id => exact h.client rfl hs
  | _ => exact h.same (hf.store rfl) (hf.consumed rfl) (hf.cancels rfl)

theorem cancels_exec {acts : List (Act P)} (h : exec (step toValue) init acts = some r) :
    r.Cancels :=
  exec_inv' (fun _ _ _ hi hs => hi.step hs) cancels_init h

/-- A sender that was consumed stays consumed. -/
theorem consumed_step {a : Act P} (hs : r.step toValue a = some r') (hc : r.consumed id ≠ []) :
    r'.consumed id ≠ [] := by
  cases a with
  | cancelTake k =>
    obtain ⟨id', -, -, ⟨e, -, rfl⟩ | ⟨run, -, -, rfl⟩⟩ := cancelTake_cases hs
    · exact hc
    · by_cases he : id = id'
      · subst he; simp
      · simpa [Function.update_of_ne he] using hc
  | cancelAll =>
    obtain ⟨-, rfl⟩ := cancelAll_cases hs
    dsimp only
    split
    · simp
    · exact hc
  | _ => rw [(step_frame hs).consumed rfl]; exact hc

/-- A completed run has ended. -/
theorem Inv.completed_ended {run : LiveRun} (h : r.Inv) (hr : r.store.runs[id]? = some run)
    (hd : run.completed = true) : run.isActive = false := by
  have hok := h.runs id run hr
  unfold TaskOk at hok
  split at hok
  all_goals simp_all

/-- Only the step at the lock makes a `cancel` call fail, and it changes nothing else. -/
theorem cancel_error {a : Act P} {e : RuntimeError} (hs : r.step toValue a = some r')
    (hbefore : r.cancels[k]? ≠ some (.returned id (.error e)))
    (hafter : r'.cancels[k]? = some (.returned id (.error e))) :
    r.cancels[k]? = some (.taking id) ∧ (e = .notFound ∨ e = .conflict) ∧
      r' = { r with cancels := r'.cancels } := by
  have hsame : r'.cancels ≠ r.cancels := fun he => hbefore (he ▸ hafter)
  -- A step of another call, or one that leaves the call without an error.
  have hother : ∀ (k' : Nat) (c : CancelCall), r'.cancels = r.cancels.insert k' c →
      k' = k ∧ c = .returned id (.error e) := fun k' c he => by
    rw [he] at hafter
    rcases ExtTreeMap.getElem?_insert_some.1 hafter with h | ⟨-, h⟩
    · exact h
    · exact absurd h hbefore
  cases a with
  | cancelCall k' id' =>
    obtain ⟨-, rfl⟩ := cancelCall_cases hs
    cases (hother k' _ rfl).2
  | cancelTake k' =>
    obtain ⟨id', -, hk, ⟨e', he', rfl⟩ | ⟨run, -, -, rfl⟩⟩ := cancelTake_cases hs
    · obtain ⟨rfl, hc⟩ := hother k' _ rfl
      cases hc
      exact ⟨hk, he', rfl⟩
    · cases (hother k' _ rfl).2
  | cancelSend k' =>
    obtain ⟨id', -, rfl⟩ := cancelSend_cases hs
    cases (hother k' _ rfl).2
  | cancelWait k' =>
    obtain ⟨id', run, -, -, -, rfl⟩ := cancelWait_cases hs
    cases (hother k' _ rfl).2
  | _ => exact absurd ((step_frame hs).cancels rfl) hsame

/-- What `cancel_all` does to a run: it takes the sender of an active run whose sender is still
there, and leaves every other run as it is. -/
theorem Cancels.cancelAll_run {run : LiveRun} (h : r.Cancels) (hs : r.cancelAll = some r')
    (hr : r.store.runs[id]? = some run) :
    (run.isActive = true ∧ r.consumed id = [] →
      r'.store.runs[id]? = some { run with cancel := none } ∧
        r'.consumed id = [.cancelAll] ∧ r'.signalled id = true) ∧
    (¬ (run.isActive = true ∧ r.consumed id = []) →
      r'.store.runs[id]? = some run ∧ r'.consumed id = r.consumed id ∧
        r'.signalled id = r.signalled id) := by
  obtain ⟨-, rfl⟩ := cancelAll_cases hs
  have hc : cancellable run = true ↔ run.isActive = true ∧ r.consumed id = [] := by
    rw [← h.sender id run hr, cancellable, Bool.and_eq_true, Option.isSome_iff_exists]
    constructor
    · rintro ⟨ha, ⟨⟩, hcan⟩; exact ⟨ha, hcan⟩
    · rintro ⟨ha, hcan⟩; exact ⟨ha, (), hcan⟩
  simp only [ExtTreeMap.getElem?_map, hr, Option.map_some, Option.any_some, Registry.sweep]
  rw [← hc]
  constructor
  · intro hcan
    simp [hcan, (hc.1 hcan).2]
  · intro hcan
    simp [hcan]

/-- **Cancel acknowledges only a finished run, once.** In every run of the registry: after a
`cancel` has returned `Ok` its run has ended, for good; the sender of a run is consumed at most
once, so at most one `cancel` of it returns `Ok`; a `cancel` that fails changes nothing, in
either of its steps; and `cancel_all` consumes the senders of exactly the active runs whose
sender had not been consumed. -/
theorem cancel_acknowledges (toValue : P → Except String Value)
    (total : ∀ p, ∃ v, toValue p = .ok v) (acts later : List (Act P)) (r r' : Registry)
    (h : exec (step toValue) init acts = some r) (h' : exec (step toValue) r later = some r') :
    (∀ (k : Nat) (id : RunId), r.cancels[k]? = some (.returned id (.ok ())) →
      ∃ run : LiveRun, r'.store.runs[id]? = some run ∧ run.isActive = false) ∧
    (∀ id, (r.consumed id).length ≤ 1) ∧
    (∀ (id : RunId) (run : LiveRun), r.store.runs[id]? = some run →
      (run.cancel = some () ↔ r.consumed id = [])) ∧
    (∀ (k k' : Nat) (id : RunId), r.cancels[k]? = some (.returned id (.ok ())) →
      r.cancels[k']? = some (.returned id (.ok ())) → k = k') ∧
    (∀ k id r₁, r.step toValue (.cancelCall k id) = some r₁ →
      r₁ = { r with cancels := r₁.cancels }) ∧
    (∀ (a : Act P) (k : Nat) (id : RunId) (e : RuntimeError) (r₁ : Registry),
      r.step toValue a = some r₁ →
      r.cancels[k]? ≠ some (.returned id (.error e)) →
      r₁.cancels[k]? = some (.returned id (.error e)) →
        r.cancels[k]? = some (.taking id) ∧ (e = .notFound ∨ e = .conflict) ∧
          r₁ = { r with cancels := r₁.cancels }) ∧
    (∀ r₁, r.step toValue .cancelAll = some r₁ →
      ∀ (id : RunId) (run : LiveRun), r.store.runs[id]? = some run →
        (run.isActive = true ∧ r.consumed id = [] →
          r₁.store.runs[id]? = some { run with cancel := none } ∧
            r₁.consumed id = [.cancelAll] ∧ r₁.signalled id = true) ∧
        (¬ (run.isActive = true ∧ r.consumed id = []) →
          r₁.store.runs[id]? = some run ∧ r₁.consumed id = r.consumed id ∧
            r₁.signalled id = r.signalled id)) := by
  have hser : ∀ a : Act P, a.Serialises toValue := serialises_of_total total
  have hinv : r.Inv := inv_exec inv_init (fun a _ => hser a) h
  have hcan : r.Cancels := cancels_exec h
  refine ⟨fun k id hk => ?_, hcan.once, hcan.sender, fun k k' id hk hk' => ?_,
    fun k id r₁ hs => ?_, fun a k id e r₁ hs => cancel_error hs,
    fun r₁ hs id run hr => hcan.cancelAll_run hs hr⟩
  · obtain ⟨run, hr, hd⟩ := hcan.acked k id hk
    obtain ⟨run', hr', hend, -⟩ :=
      final_exec hinv (fun a _ => hser a) h' id run hr (hinv.completed_ended hr hd)
    exact ⟨run', hr', hend⟩
  · have h₁ := hcan.owner k _ id hk rfl
    have h₂ := hcan.owner k' _ id hk' rfl
    rw [h₁] at h₂
    cases h₂
    rfl
  · obtain ⟨-, rfl⟩ := cancelCall_cases hs
    rfl

/-- Two clients cancel one run; the second finds the sender taken. -/
def canceledTwice : List (Act Unit) :=
  startSteps 0 ⟨"r"⟩ ++
    [.cancelCall 0 ⟨"r"⟩, .cancelCall 1 ⟨"r"⟩, .cancelTake 1, .cancelTake 0, .cancelSend 1,
     .sawCancel ⟨"r"⟩, .canceled ⟨"r"⟩, .publish ⟨"r"⟩, .complete ⟨"r"⟩, .cancelWait 1,
     .uncount ⟨"r"⟩]

theorem cancel_acknowledges_canceledTwice :
    ∃ r : Registry, exec (step fun _ => .ok .null) init canceledTwice = some r ∧
      r.cancels[1]? = some (.returned ⟨"r"⟩ (.ok ())) ∧ r.consumed ⟨"r"⟩ = [.cancel 1] ∧
      ∃ run : LiveRun, r.store.runs[RunId.mk "r"]? = some run ∧ run.isActive = false := by
  refine ⟨_, rfl, rfl, rfl, ?_⟩
  exact (cancel_acknowledges (fun _ => .ok .null) (fun _ => ⟨_, rfl⟩) canceledTwice [] _ _ rfl
    rfl).1 1 _ rfl

end Registry

end AgencyProxy.Runtime
