import AgencyProxy.Runtime.Results
import AgencyProxy.Runtime.Signal

/-!
# Who a run belongs to

Each run in the map was inserted by one call of `start`, which is still on its way or has returned
`Ok`; a call that has returned stays so, and has spawned the task of its run. So when the activity
count is zero, a run that is still active is one that its call has inserted and not yet counted.
-/

namespace AgencyProxy.Runtime

open Std Lts

namespace Registry

variable {P : Type} {toValue : P → Except String Value} {r r' : Registry} {k : Nat} {id : RunId}

/-- A run that was not there is inserted by its call of `start`. -/
theorem step_new {a : Act P} {run' : LiveRun} (h : r.step toValue a = some r')
    (hr : r'.store.runs[id]? = some run') :
    r.store.runs[id]? ≠ none ∨ ∃ k : Nat, r'.starts[k]? = some (.counting id) := by
  have hput : ∀ (id₀ : RunId) (run₀ run₁ : LiveRun), r.store.runs[id₀]? = some run₀ →
      r'.store.runs = r.store.runs.insert id₀ run₁ → r.store.runs[id]? ≠ none :=
    fun id₀ run₀ run₁ h₀ he => by
    rw [he] at hr
    rcases ExtTreeMap.getElem?_insert_some.1 hr with ⟨rfl, -⟩ | ⟨-, hr⟩
    · simp [h₀]
    · simp [hr]
  have hclient : a.isClient = true → r.store.runs[id]? ≠ none := fun ha => by
    obtain ⟨run, h₀, -⟩ := client_run ha h hr
    simp [h₀]
  cases a with
  | startInsert k =>
    obtain ⟨id₀, spec, -, hk, ⟨-, rfl⟩ | ⟨-, rfl⟩⟩ := startInsert_cases h
    · exact .inl (by simp [hr])
    · rcases ExtTreeMap.getElem?_insert_some.1 hr with ⟨rfl, -⟩ | ⟨-, hr⟩
      · exact .inr ⟨k, ExtTreeMap.getElem?_insert_self⟩
      · exact .inl (by simp [hr])
  | publish id₀ =>
    obtain ⟨p, last, -, -, ⟨-, rfl⟩ | ⟨run, h₀, ⟨-, rfl⟩ | ⟨-, rfl⟩⟩⟩ := publish_cases h
    · exact .inl (by simp [hr])
    · exact .inl (hput id₀ run _ h₀ (Store.publish_runs h₀))
    · exact .inl (hput id₀ run _ h₀ (Store.publish_runs h₀))
  | complete id₀ =>
    obtain ⟨last, -, rfl⟩ := complete_cases h
    cases h₀ : r.store.runs[id₀]? with
    | none =>
      simp only [Store.modify, h₀] at hr
      exact .inl (by simp [hr])
    | some run => exact .inl (hput id₀ run _ h₀ (Store.modify_runs h₀ _))
  | cancelTake k =>
    obtain ⟨id₀, -, -, ⟨e, -, rfl⟩ | ⟨run, h₀, -, rfl⟩⟩ := cancelTake_cases h
    · exact .inl (by simp [hr])
    · exact .inl (hput id₀ run _ h₀ rfl)
  | cancelAll =>
    obtain ⟨-, rfl⟩ := cancelAll_cases h
    rw [ExtTreeMap.getElem?_map, Option.map_eq_some_iff] at hr
    obtain ⟨run, h₀, -⟩ := hr
    exact .inl (by simp [h₀])
  | acknowledge id₀ through => exact .inl (hclient rfl)
  | attach id₀ after => exact .inl (hclient rfl)
  | dropReceiver id₀ => exact .inl (hclient rfl)
  | _ => rw [(step_frame h).store rfl] at hr; exact .inl (by simp [hr])

/-- A task that is there stays, and a call that moves to its return spawns one. -/
theorem step_tasks {a : Act P} (h : r.step toValue a = some r') (ht : r.tasks[id]? ≠ none) :
    r'.tasks[id]? ≠ none := by
  have hset : ∀ (id₀ : RunId) (t : RunTask), r'.tasks = r.tasks.insert id₀ t →
      r'.tasks[id]? ≠ none := fun id₀ t he => by
    rw [he, ExtTreeMap.getElem?_insert]
    split
    · simp
    · exact ht
  cases a with
  | startSpawn k =>
    obtain ⟨id₀, -, rfl⟩ := startSpawn_cases h
    exact hset id₀ _ rfl
  | recv id₀ event =>
    obtain ⟨-, -, ⟨-, rfl⟩ | ⟨e, p, -, -, rfl⟩ | rfl⟩ := recv_cases h
    · exact hset id₀ _ rfl
    · exact hset id₀ _ rfl
    · exact ht
  | sawCancel id₀ =>
    obtain ⟨-, -, rfl⟩ := sawCancel_cases h
    exact hset id₀ _ rfl
  | canceled id₀ =>
    obtain ⟨-, p, -, rfl⟩ := canceled_cases h
    exact hset id₀ _ rfl
  | finish id₀ outcome =>
    obtain ⟨-, p, -, rfl⟩ := finish_cases h
    exact hset id₀ _ rfl
  | publish id₀ =>
    obtain ⟨p, last, -, -, ⟨-, rfl⟩ | ⟨run, -, ⟨-, rfl⟩ | ⟨-, rfl⟩⟩⟩ := publish_cases h <;>
      exact hset id₀ _ rfl
  | complete id₀ =>
    obtain ⟨last, -, rfl⟩ := complete_cases h
    exact hset id₀ _ rfl
  | uncount id₀ =>
    obtain ⟨last, -, rfl⟩ := uncount_cases h
    exact hset id₀ _ rfl
  | _ => rw [(step_frame h).tasks rfl]; exact ht

/-- A call of `start` that has returned does not move. -/
theorem returned_exec {acts : List (Act P)} {result : Except RuntimeError Unit}
    (hk : r.starts[k]? = some (.returned id result)) (h : exec (step toValue) r acts = some r') :
    r'.starts[k]? = some (.returned id result) :=
  exec_inv' (I := fun r : Registry => r.starts[k]? = some (.returned id result))
    (fun _ _ _ hi hs => returned_step hs hi) hk h

/-- A call that is there was there before, unless it begins. -/
theorem step_calls {a : Act P} (h : r.step toValue a = some r') (hk : r'.starts[k]? ≠ none) :
    r.starts[k]? ≠ none ∨ ∃ id spec, a = .startCall k id spec := by
  by_cases ha : a.startOf = some k
  · obtain ⟨call', -, hm⟩ := start_move ha h
    cases hc : r.starts[k]? with
    | some call => exact .inl (by simp)
    | none =>
      rw [hc] at hm
      cases hm with
      | begin id spec act => exact .inr ⟨id, spec, act⟩
  · rw [start_other ha h] at hk
    exact .inl hk

theorem exec_calls {acts : List (Act P)} (h : exec (step toValue) r acts = some r')
    (hk : r'.starts[k]? ≠ none) :
    r.starts[k]? ≠ none ∨ ∃ id spec, .startCall k id spec ∈ acts := by
  induction acts using List.reverseRecOn generalizing r' with
  | nil => cases h; exact .inl hk
  | append_singleton acts a ih =>
    obtain ⟨m, hm, h⟩ := exec_append_some.1 h
    obtain hk | ⟨id, spec, rfl⟩ := step_calls (exec_single.1 h) hk
    · obtain hk | ⟨id, spec, hin⟩ := ih hm hk
      · exact .inl hk
      · exact .inr ⟨id, spec, List.mem_append_left _ hin⟩
    · exact .inr ⟨id, spec, List.mem_append_right _ (List.mem_singleton_self _)⟩

/-! ## The owner of a run -/

/-- The call that owns a run goes on to own it. -/
theorem owns_step {a : Act P} {call : StartCall} (h : r.step toValue a = some r')
    (hk : r.starts[k]? = some call) (ho : call.owns = some id) :
    ∃ call' : StartCall, r'.starts[k]? = some call' ∧ call'.owns = some id := by
  by_cases ha : a.startOf = some k
  · obtain ⟨call', he, hm⟩ := start_move ha h
    refine ⟨call', by rw [he, ExtTreeMap.getElem?_insert_self], ?_⟩
    rw [hk] at hm
    cases hm with
    | fail _ _ _ _ place => obtain rfl | rfl | rfl := place <;> cases ho
    | check | launch | insert => cases ho
    | count | spawn => exact ho
  · exact ⟨call, by rw [start_other ha h, hk], ho⟩

/-- A call owns no other run than the one it was asked for. -/
theorem StartOf.owns {call : StartCall} {spec : RunRequest} {id' : RunId} (h : r.StartOf k id spec)
    (hk : r.starts[k]? = some call) (ho : call.owns = some id') : id' = id := by
  unfold StartOf at h
  rw [hk] at h
  cases call with
  | checking | launching | inserting => cases ho
  | counting | spawning => cases ho; exact h.1
  | returned _ result =>
    cases result with
    | ok => cases ho; exact h.1
    | error e => cases ho

structure Owned (r : Registry) : Prop where
  runs : ∀ (id : RunId) (run : LiveRun), r.store.runs[id]? = some run →
    ∃ (k : Nat) (call : StartCall), r.starts[k]? = some call ∧ call.owns = some id
  spawned : ∀ (k : Nat) (id : RunId), r.starts[k]? = some (.returned id (.ok ())) →
    r.tasks[id]? ≠ none

/-- A call that spawns the task of its run. -/
theorem spawn_task {a : Act P} (hk : r.starts[k]? = some (.spawning id)) (ha : a.startOf = some k)
    (h : r.step toValue a = some r') : r'.tasks[id]? ≠ none := by
  cases a <;> cases ha
  case startCall id₀ spec =>
    obtain ⟨hn, -⟩ := startCall_cases h
    rw [hk] at hn
    cases hn
  case startCheck =>
    obtain ⟨_, _, _, -, hc, -⟩ := startCheck_cases h
    rw [hk] at hc
    cases hc
  case startLaunch launched =>
    obtain ⟨_, _, _, _, hc, -⟩ := startLaunch_cases h
    rw [hk] at hc
    cases hc
  case startInsert =>
    obtain ⟨_, _, -, hc, -⟩ := startInsert_cases h
    rw [hk] at hc
    cases hc
  case startCount =>
    obtain ⟨_, hc, -⟩ := startCount_cases h
    rw [hk] at hc
    cases hc
  case startSpawn =>
    obtain ⟨id₀, hc, rfl⟩ := startSpawn_cases h
    rw [hk] at hc
    cases hc
    simp

theorem owned_init : init.Owned :=
  ⟨fun id run h => by simp [init, Store.empty] at h, fun k id h => by simp [init] at h⟩

theorem Owned.step {a : Act P} (h : r.Owned) (hs : r.step toValue a = some r') : r'.Owned := by
  refine ⟨fun id run' hr => ?_, fun k id hk => ?_⟩
  · obtain hr | ⟨k, hk⟩ := step_new hs hr
    · obtain ⟨run, hr⟩ := Option.ne_none_iff_exists'.1 hr
      obtain ⟨k, call, hk, ho⟩ := h.runs id run hr
      obtain ⟨call', hk', ho'⟩ := owns_step hs hk ho
      exact ⟨k, call', hk', ho'⟩
    · exact ⟨k, _, hk, rfl⟩
  · by_cases ha : a.startOf = some k
    · obtain ⟨call', he, hm⟩ := start_move ha hs
      rw [he, ExtTreeMap.getElem?_insert_self] at hk
      cases hk
      cases hc : r.starts[k]? with
      | none => rw [hc] at hm; cases hm
      | some call =>
        rw [hc] at hm
        cases hm with
        | spawn => exact spawn_task hc ha hs
    · exact step_tasks hs (h.spawned k id (by rw [← start_other ha hs, hk]))

theorem owned_exec {acts : List (Act P)} (h : exec (Registry.step toValue) init acts = some r) :
    r.Owned :=
  exec_inv' (I := Owned) (fun _ _ _ hi hs => hi.step hs) owned_init h

/-! ## An idle registry -/

/-- At a count of zero, an active run is one that is inserted and not counted. -/
theorem Inv.counting_of_idle {run : LiveRun} (h : r.Inv) (ha : r.active = 0)
    (hr : r.store.runs[id]? = some run) (hact : run.isActive = true) :
    ∃ k : Nat, r.starts[k]? = some (.counting id) := by
  have hb := h.balanced
  unfold Balanced at hb
  cases hl : r.lock with
  | free =>
    rw [hl] at hb
    have hno := ExtTreeMap.count_eq_zero (hb.symm.trans ha) hr
    rw [hact] at hno
    cases hno
  | publishing id' =>
    rw [hl] at hb
    dsimp only at hb
    omega
  | starting k =>
    obtain ⟨id₀, hk⟩ := (h.starting k).1 hl
    obtain ⟨hr₀, ht₀⟩ := h.pending k _ id₀ hk rfl
    obtain ⟨run₀, hr₀⟩ := Option.ne_none_iff_exists'.1 hr₀
    have hact₀ : run₀.isActive = true := by
      have hok := h.runs id₀ run₀ hr₀
      rw [ht₀] at hok
      exact hok.1
    rw [hl] at hb
    -- the run being counted is the only active one
    by_cases he : id = id₀
    · exact ⟨k, he ▸ hk⟩
    · have hrest := ExtTreeMap.count_erase (p := LiveRun.isActive) hr₀
      have hin : (r.store.runs.erase id₀)[id]? = some run := by
        rw [ExtTreeMap.getElem?_erase_of_ne (Ne.symm he), hr]
      have hpos := ExtTreeMap.count_pos_of_getElem? hin hact
      rw [hact₀] at hrest
      dsimp only [Bool.toNat_true] at hb hrest
      omega

/-- So a run whose task was spawned has ended when the registry is idle. -/
theorem Inv.ended_of_idle {run : LiveRun} (h : r.Inv) (ha : r.active = 0)
    (hr : r.store.runs[id]? = some run) (ht : r.tasks[id]? ≠ none) : run.isActive = false := by
  cases hact : run.isActive with
  | false => rfl
  | true =>
    obtain ⟨k, hk⟩ := h.counting_of_idle ha hr hact
    exact absurd (h.pending k _ id hk rfl).2 ht

end Registry

end AgencyProxy.Runtime
