import AgencyProxy.Runtime.Activity

/-!
# How runs end

A run that has ended was told so: the publication that takes it to a terminal state is its
`Finished` or its `Failed` event, also where it stands in for a payload that does not
serialise.
-/

namespace AgencyProxy

open Std Lts

/-- `Finished` and `Failed`. -/
def RunEvent.ends : RunEvent → Bool
  | .finished _ | .failed _ => true
  | _ => false

namespace Runtime

/-- A publication that ends its run says so. -/
def Publication.Tells (p : Publication) : Prop :=
  ∀ s, p.state = some s → isActiveState s = false → p.event.ends = true

namespace Publication

variable {P : Type} {toValue : P → Except String Value}

theorem tells_of_live {p : Publication} (h : p.Live) : p.Tells := by
  obtain ⟨s, hs, ha⟩ := h
  intro s' hs' hf
  cases hs.symm.trans hs'
  cases ha.symm.trans hf

theorem tells_error (error : String) (state : RunState) : (publishError error state).Tells :=
  fun _ _ _ => rfl

theorem tells_payload (event : Value → RunEvent) (value : P) :
    (publishPayload toValue event value).Tells := by
  cases hv : toValue value with
  | ok v => exact tells_of_live (publishPayload_live ⟨v, hv⟩)
  | error e =>
    rw [show publishPayload toValue event value = publishError e .failed by
      simp [publishPayload, hv]]
    exact tells_error _ _

theorem tells_provider {event : Event P} {p : Publication}
    (h : publishProvider toValue event = some p) : p.Tells := by
  cases event with
  | usage value | rateLimit value | compaction value | commands value =>
    cases h
    exact tells_payload _ value
  | other => cases h
  | _ => cases h; exact tells_of_live ⟨_, rfl, rfl⟩

theorem tells_finished (outcome : Outcome P) : (publishFinished toValue outcome).Tells := by
  unfold publishFinished
  split
  · exact fun _ _ _ => rfl
  · exact tells_error _ _

end Publication

namespace Registry

/-- What tasks are to publish tells of an end, and every run that has ended was told of it. -/
structure Told (r : Registry) : Prop where
  tasks : ∀ (id : RunId) (p : Publication) (last : Bool),
    r.tasks[id]? = some (.publishing p last) → p.Tells
  runs : ∀ (id : RunId) (run : LiveRun), r.store.runs[id]? = some run → run.isActive = false →
    ∃ e ∈ r.store.published id, e.event.ends = true

variable {P : Type} {toValue : P → Except String Value} {r r' : Registry} {id : RunId}

theorem afterPublish_not_publishing (last last' : Bool) (p : Publication) :
    afterPublish last ≠ .publishing p last' := by
  cases last <;> simp [afterPublish]

/-- What a task is to publish it was to publish before, or it tells. -/
theorem step_publishing {a : Act P} (h : r.step toValue a = some r') {p : Publication}
    {last : Bool} (ht : r'.tasks[id]? = some (.publishing p last)) :
    r.tasks[id]? = some (.publishing p last) ∨ p.Tells := by
  have hset : ∀ (id' : RunId) (t : RunTask), r'.tasks = r.tasks.insert id' t →
      (∀ p last, t = .publishing p last → p.Tells) →
      r.tasks[id]? = some (.publishing p last) ∨ p.Tells := fun id' t he htell => by
    rw [he] at ht
    rcases ExtTreeMap.getElem?_insert_some.1 ht with ⟨-, he⟩ | ⟨-, ht⟩
    · exact .inr (htell p last he)
    · exact .inl ht
  cases a with
  | startSpawn k =>
    obtain ⟨id', -, rfl⟩ := startSpawn_cases h
    exact hset id' _ rfl (by simp)
  | recv id' event =>
    obtain ⟨-, -, ⟨-, rfl⟩ | ⟨e, p', -, hp, rfl⟩ | rfl⟩ := recv_cases h
    · exact hset id' _ rfl (by simp)
    · refine hset id' _ rfl fun p last he => ?_
      cases he
      exact Publication.tells_provider hp
    · exact .inl ht
  | sawCancel id' =>
    obtain ⟨-, -, rfl⟩ := sawCancel_cases h
    exact hset id' _ rfl (by simp)
  | canceled id' =>
    simp only [step, canceled] at h
    split at h
    · cases h
      refine hset id' _ rfl fun p last he => ?_
      cases he
      exact Publication.tells_error _ _
    · cases h
  | finish id' outcome =>
    simp only [step, finish] at h
    split at h
    · cases h
      refine hset id' _ rfl fun p last he => ?_
      cases he
      cases outcome with
      | ok outcome => exact Publication.tells_finished outcome
      | error e => exact Publication.tells_error _ _
    · cases h
  | publish id' =>
    obtain ⟨p', last', -, -, ⟨-, rfl⟩ | ⟨run, -, ⟨-, rfl⟩ | ⟨-, rfl⟩⟩⟩ := publish_cases h
    · exact hset id' _ rfl fun p last he => absurd he (afterPublish_not_publishing _ _ _)
    · exact hset id' _ rfl (by simp)
    · exact hset id' _ rfl fun p last he => absurd he (afterPublish_not_publishing _ _ _)
  | complete id' =>
    obtain ⟨last', -, rfl⟩ := complete_cases h
    exact hset id' _ rfl (by simp)
  | uncount id' =>
    obtain ⟨last', -, rfl⟩ := uncount_cases h
    exact hset id' _ rfl fun p last he => absurd he (afterPublish_not_publishing _ _ _)
  | _ => rw [(step_frame h).tasks rfl] at ht; exact .inl ht

theorem Told.step {a : Act P} (h : r.Told) (hs : r.step toValue a = some r') : r'.Told := by
  refine ⟨fun id p last ht => (step_publishing hs ht).elim (h.tasks id p last) (·),
    fun id run' hr' hend => ?_⟩
  cases step_store hs with
  | same he => rw [he] at hr' ⊢; exact h.runs id run' hr' hend
  | insert k id' spec _ hn he =>
    rw [he] at hr' ⊢
    rcases ExtTreeMap.getElem?_insert_some.1 hr' with ⟨-, rfl⟩ | ⟨-, hr'⟩
    · cases hend
    · exact h.runs id run' hr' hend
  | publish id' p last run ht hr he =>
    rw [he] at hr' ⊢
    rw [Store.publish_runs hr] at hr'
    rw [Store.publish_published hr]
    rcases ExtTreeMap.getElem?_insert_some.1 hr' with ⟨rfl, rfl⟩ | ⟨hne, hr'⟩
    · rw [Function.update_self]
      cases hp : p.state with
      | none =>
        have hwas : run.isActive = false := by
          simpa [LiveRun.isActive, LiveRun.publish, hp] using hend
        obtain ⟨e, hm, hterm⟩ := h.runs id' run hr hwas
        exact ⟨e, List.mem_append_left _ hm, hterm⟩
      | some s =>
        have hs : isActiveState s = false := by
          simpa [LiveRun.isActive, LiveRun.publish, hp] using hend
        exact ⟨_, List.mem_append_right _ (List.mem_singleton_self _),
          h.tasks id' p last ht s hp hs⟩
    · rw [Function.update_of_ne (Ne.symm hne)]
      exact h.runs id run' hr' hend
  | touch id' run run₁ hr ht he =>
    rw [he] at hr' ⊢
    rcases ExtTreeMap.getElem?_insert_some.1 hr' with ⟨rfl, rfl⟩ | ⟨-, hr'⟩
    · refine h.runs id' run hr ?_
      rw [LiveRun.isActive, ← ht.state]
      exact hend
    · exact h.runs id run' hr' hend
  | sweep he =>
    rw [he] at hr' ⊢
    rw [ExtTreeMap.getElem?_map, Option.map_eq_some_iff] at hr'
    obtain ⟨run, hr, rfl⟩ := hr'
    refine h.runs id run hr ?_
    rw [LiveRun.isActive, ← (sweep_touch run).state]
    exact hend

end Registry

end Runtime

end AgencyProxy
