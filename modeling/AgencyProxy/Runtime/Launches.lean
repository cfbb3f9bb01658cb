import AgencyProxy.Runtime.Starts

/-!
# Launching providers

`start_owned` asks whether the run id is free, launches the provider, and asks again before it
inserts the run. `launched` is the history of the launches. A launch is `Clear` if its run id is
still free and no other call of `start` is past its own launch of it; two calls that are both
past the first question break that, and the one that loses the insert has launched a provider
all the same.
-/

namespace AgencyProxy.Runtime

open Std Lts

/-- Between the launch of its provider and the insert of its run. -/
def StartCall.isInserting (id : RunId) : StartCall → Bool
  | .inserting id' _ => id' == id
  | _ => false

/-- Not past the launch. -/
def StartCall.isEarly : StartCall → Bool
  | .checking _ _ | .launching _ _ => true
  | _ => false

theorem StartCall.isInserting_iff {id : RunId} {call : StartCall} :
    call.isInserting id ↔ ∃ spec, call = .inserting id spec := by
  cases call <;> simp [isInserting]

namespace Registry

variable {P : Type} {toValue : P → Except String Value} {r r' : Registry} {k : Nat} {id : RunId}

/-! ## What a step launches -/

/-- The run id that the step launches. -/
def launches (r : Registry) : Act P → Option RunId
  | .startLaunch k (.ok ()) =>
    match r.starts[k]? with
    | some (.launching id spec) => if (buildRequest spec).isOk then some id else none
    | _ => none
  | _ => none

/-- A launch that succeeds is recorded; one that does not is the end of the call. -/
theorem startLaunch_split {launched : Except String Unit}
    (h : r.startLaunch k launched = some r') :
    ∃ id spec, r.starts[k]? = some (.launching id spec) ∧
      ((r.launches (.startLaunch k launched : Act P) = none ∧
          ∃ e, r' = { r with starts := r.starts.insert k (.returned id (.error e)) }) ∨
        (r.launches (.startLaunch k launched : Act P) = some id ∧
          r' = { r with
            starts := r.starts.insert k (.inserting id spec)
            launched := r.launched ++ [(k, id)] })) := by
  unfold startLaunch at h
  split at h
  · rename_i id spec hk
    have hfailed : ∀ e, buildRequest spec = .error e →
        r.launches (.startLaunch k launched : Act P) = none := fun e hb => by
      cases launched <;> simp [launches, hk, hb, Except.isOk, Except.toBool]
    refine ⟨id, spec, hk, ?_⟩
    split at h
    · rename_i e hb
      cases h
      exact .inl ⟨hfailed e hb, _, rfl⟩
    · cases h
      exact .inl ⟨rfl, _, rfl⟩
    · rename_i request hb
      cases h
      exact .inr ⟨by simp [launches, hk, hb, Except.isOk, Except.toBool], rfl⟩
  · cases h

theorem launches_eq_some {a : Act P} (h : r.launches a = some id) :
    ∃ k launched spec, a = .startLaunch k launched ∧
      r.starts[k]? = some (.launching id spec) := by
  unfold launches at h
  split at h
  · split at h
    · rename_i hk
      split at h
      · cases h
        exact ⟨_, _, _, rfl, hk⟩
      · cases h
    · cases h
  · cases h

/-- No other step launches. -/
theorem launched_other {a : Act P} (ha : ∀ k launched, a ≠ .startLaunch k launched)
    (h : r.step toValue a = some r') : r'.launched = r.launched := by
  cases a with
  | startLaunch k launched => exact absurd rfl (ha k launched)
  | startCall k id spec => obtain ⟨-, rfl⟩ := startCall_cases h; rfl
  | startCheck k => obtain ⟨id, spec, call, -, -, -, rfl⟩ := startCheck_cases h; rfl
  | startInsert k =>
    obtain ⟨id, spec, -, -, ⟨-, rfl⟩ | ⟨-, rfl⟩⟩ := startInsert_cases h <;> rfl
  | startCount k => obtain ⟨id, -, rfl⟩ := startCount_cases h; rfl
  | startSpawn k => obtain ⟨id, -, rfl⟩ := startSpawn_cases h; rfl
  | recv id event =>
    obtain ⟨-, -, ⟨-, rfl⟩ | ⟨e, p, -, -, rfl⟩ | rfl⟩ := recv_cases h <;> rfl
  | sawCancel id => obtain ⟨-, -, rfl⟩ := sawCancel_cases h; rfl
  | canceled id => obtain ⟨-, p, -, rfl⟩ := canceled_cases h; rfl
  | finish id outcome => obtain ⟨-, p, -, rfl⟩ := finish_cases h; rfl
  | publish id =>
    obtain ⟨p, last, -, -, ⟨-, rfl⟩ | ⟨run, -, ⟨-, rfl⟩ | ⟨-, rfl⟩⟩⟩ := publish_cases h <;> rfl
  | complete id => obtain ⟨last, -, rfl⟩ := complete_cases h; rfl
  | uncount id => obtain ⟨last, -, rfl⟩ := uncount_cases h; rfl
  | cancelCall k id => obtain ⟨-, rfl⟩ := cancelCall_cases h; rfl
  | cancelTake k =>
    obtain ⟨id, -, -, ⟨e, -, rfl⟩ | ⟨run, -, -, rfl⟩⟩ := cancelTake_cases h <;> rfl
  | cancelSend k => obtain ⟨id, -, rfl⟩ := cancelSend_cases h; rfl
  | cancelWait k => obtain ⟨id, run, -, -, -, rfl⟩ := cancelWait_cases h; rfl
  | cancelAll => obtain ⟨-, rfl⟩ := cancelAll_cases h; rfl
  | _ => obtain rfl | ⟨id, run, run', -, -, -, -, rfl⟩ := client_cases rfl h <;> rfl

theorem found_replaced {store : Store} {id' : RunId} {run run' : LiveRun}
    (hrun : store.runs[id']? = some run) (h : (store.runs.insert id' run')[id]? ≠ none) :
    store.runs[id]? ≠ none := by
  by_cases hid : id' = id
  · subst hid
    rw [hrun]
    exact Option.some_ne_none run
  · rwa [ExtTreeMap.getElem?_insert_of_ne hid] at h

/-- A run that is new after a step was inserted by it. -/
theorem found_back {a : Act P} (ha : ∀ k, a ≠ .startInsert k) (h : r.step toValue a = some r')
    (hr : r'.store.runs[id]? ≠ none) : r.store.runs[id]? ≠ none := by
  have hclient (hc : a.isClient = true) : r.store.runs[id]? ≠ none := by
    obtain rfl | ⟨id', run, run', hrun, -, -, -, rfl⟩ := client_cases hc h
    · exact hr
    · exact found_replaced hrun hr
  cases a with
  | startInsert k => exact absurd rfl (ha k)
  | publish id' =>
    obtain ⟨p, last, -, -, ⟨-, rfl⟩ | ⟨run, hrun, hcases⟩⟩ := publish_cases h
    · exact hr
    · have hstore : r'.store = r.store.publish id' p.event p.state p.session := by
        rcases hcases with ⟨-, rfl⟩ | ⟨-, rfl⟩ <;> rfl
      rw [hstore, Store.publish_runs hrun] at hr
      exact found_replaced hrun hr
  | complete id' =>
    obtain ⟨last, -, rfl⟩ := complete_cases h
    cases hrun : r.store.runs[id']? with
    | none => simpa only [Store.modify, hrun] using hr
    | some run =>
      simp only [Store.modify_runs hrun] at hr
      exact found_replaced hrun hr
  | cancelTake k =>
    obtain ⟨id', -, -, ⟨e, -, rfl⟩ | ⟨run, hrun, -, rfl⟩⟩ := cancelTake_cases h
    · exact hr
    · exact found_replaced hrun hr
  | cancelAll =>
    obtain ⟨-, rfl⟩ := cancelAll_cases h
    simp only [ExtTreeMap.getElem?_map] at hr
    cases hrun : r.store.runs[id]? with
    | none => rw [hrun] at hr; exact absurd rfl hr
    | some run => exact Option.some_ne_none run
  | acknowledge id' through => exact hclient rfl
  | attach id' after => exact hclient rfl
  | dropReceiver id' => exact hclient rfl
  | _ => rwa [(step_frame h).store rfl] at hr

/-! ## What was launched -/

/-- A launch is of a call that went on from it, whose run is there unless it is still to be
inserted; and a run that is there was launched by the call that inserted it. -/
structure Launches (r : Registry) : Prop where
  past : ∀ (k : Nat) (id : RunId), (k, id) ∈ r.launched →
    ∃ call, r.starts[k]? = some call ∧ call.isEarly = false
  inserting : ∀ (k : Nat) (id : RunId) (spec : RunRequest),
    r.starts[k]? = some (.inserting id spec) → (k, id) ∈ r.launched
  held : ∀ (k : Nat) (id : RunId), (k, id) ∈ r.launched →
    (∃ spec, r.starts[k]? = some (.inserting id spec)) ∨ r.store.runs[id]? ≠ none
  inserted : ∀ id : RunId, r.store.runs[id]? ≠ none →
    ∃ k, (k, id) ∈ r.launched ∧ ∀ spec, r.starts[k]? ≠ some (.inserting id spec)

theorem launches_init : init.Launches := by
  constructor <;> simp [init, Store.empty]

/-- A call that is not between its launch and its insert moves on, and does not come there. -/
theorem Launches.goto (h : r.Launches) {call' : StartCall}
    (hfrom : ∀ id spec, r.starts[k]? ≠ some (.inserting id spec))
    (hto : ∀ id spec, call' ≠ .inserting id spec)
    (hearly : ∀ call, r.starts[k]? = some call → call.isEarly = false → call'.isEarly = false)
    (hstarts : r'.starts = r.starts.insert k call') (hlaunched : r'.launched = r.launched)
    (hfound : r'.store.runs = r.store.runs) : r'.Launches where
  past k' id hmem := by
    obtain ⟨call, hk', hnot⟩ := h.past k' id (hlaunched ▸ hmem)
    rw [hstarts]
    by_cases hk : k = k'
    · subst hk
      exact ⟨call', ExtTreeMap.getElem?_insert_self, hearly call hk' hnot⟩
    · exact ⟨call, by rw [ExtTreeMap.getElem?_insert_of_ne hk, hk'], hnot⟩
  inserting k' id spec hk' := by
    rw [hstarts] at hk'
    rcases ExtTreeMap.getElem?_insert_some.1 hk' with ⟨-, hc⟩ | ⟨-, hk'⟩
    · exact absurd hc (hto id spec)
    · rw [hlaunched]
      exact h.inserting k' id spec hk'
  held k' id hmem := by
    rw [hstarts, hfound]
    rcases h.held k' id (hlaunched ▸ hmem) with ⟨spec, hk'⟩ | hr
    · refine .inl ⟨spec, ?_⟩
      have hk : k ≠ k' := by rintro rfl; exact hfrom id spec hk'
      rw [ExtTreeMap.getElem?_insert_of_ne hk, hk']
    · exact .inr hr
  inserted id hr := by
    obtain ⟨k', hmem, hnot⟩ := h.inserted id (hfound ▸ hr)
    refine ⟨k', hlaunched ▸ hmem, fun spec hk' => ?_⟩
    rw [hstarts] at hk'
    rcases ExtTreeMap.getElem?_insert_some.1 hk' with ⟨-, hc⟩ | ⟨-, hk'⟩
    · exact hto id spec hc
    · exact hnot spec hk'

/-- A launch that succeeds. -/
theorem Launches.launch (h : r.Launches) {spec : RunRequest}
    (hk : r.starts[k]? = some (.launching id spec)) :
    Launches { r with
      starts := r.starts.insert k (.inserting id spec), launched := r.launched ++ [(k, id)] } where
  past k' id' hmem := by
    rcases List.mem_append.mp hmem with hmem | hmem
    · obtain ⟨call, hk', hnot⟩ := h.past k' id' hmem
      have hne : k ≠ k' := by
        rintro rfl
        cases hk.symm.trans hk'
        cases hnot
      exact ⟨call, (ExtTreeMap.getElem?_insert_of_ne hne).trans hk', hnot⟩
    · cases List.mem_singleton.mp hmem
      exact ⟨_, ExtTreeMap.getElem?_insert_self, rfl⟩
  inserting k' id' spec' hk' := by
    rcases ExtTreeMap.getElem?_insert_some.1 hk' with ⟨rfl, hc⟩ | ⟨-, hk'⟩
    · cases hc
      exact List.mem_append_right _ (List.mem_singleton.mpr rfl)
    · exact List.mem_append_left _ (h.inserting k' id' spec' hk')
  held k' id' hmem := by
    rcases List.mem_append.mp hmem with hmem | hmem
    · rcases h.held k' id' hmem with ⟨spec', hk'⟩ | hr
      · have hne : k ≠ k' := by rintro rfl; cases hk.symm.trans hk'
        exact .inl ⟨spec', (ExtTreeMap.getElem?_insert_of_ne hne).trans hk'⟩
      · exact .inr hr
    · cases List.mem_singleton.mp hmem
      exact .inl ⟨spec, ExtTreeMap.getElem?_insert_self⟩
  inserted id' hr := by
    obtain ⟨k', hmem, hnot⟩ := h.inserted id' hr
    refine ⟨k', List.mem_append_left _ hmem, fun spec' hk' => ?_⟩
    rcases ExtTreeMap.getElem?_insert_some.1 hk' with ⟨rfl, -⟩ | ⟨-, hk'⟩
    · obtain ⟨call, hk', hearly⟩ := h.past k id' hmem
      cases hk.symm.trans hk'
      cases hearly
    · exact hnot spec' hk'

/-- The second question: the run is inserted, or the call that launched it for nothing is told. -/
theorem Launches.insert (h : r.Launches) {call' : StartCall} {spec : RunRequest}
    (hk : r.starts[k]? = some (.inserting id spec)) (hearly : call'.isEarly = false)
    (hto : ∀ id spec, call' ≠ .inserting id spec)
    (hstarts : r'.starts = r.starts.insert k call') (hlaunched : r'.launched = r.launched)
    (hmine : r'.store.runs[id]? ≠ none)
    (hothers : ∀ id' : RunId, id' ≠ id → r'.store.runs[id']? = r.store.runs[id']?)
    (hold : r.store.runs[id]? ≠ none → ∃ k', (k', id) ∈ r.launched ∧
      ∀ spec, r.starts[k']? ≠ some (.inserting id spec)) : r'.Launches where
  past k' id' hmem := by
    obtain ⟨call, hk', hnot⟩ := h.past k' id' (hlaunched ▸ hmem)
    rw [hstarts]
    by_cases he : k = k'
    · subst he
      exact ⟨call', ExtTreeMap.getElem?_insert_self, hearly⟩
    · exact ⟨call, by rw [ExtTreeMap.getElem?_insert_of_ne he, hk'], hnot⟩
  inserting k' id' spec' hk' := by
    rw [hstarts] at hk'
    rcases ExtTreeMap.getElem?_insert_some.1 hk' with ⟨-, hc⟩ | ⟨-, hk'⟩
    · exact absurd hc (hto id' spec')
    · rw [hlaunched]
      exact h.inserting k' id' spec' hk'
  held k' id' hmem := by
    by_cases hid : id' = id
    · subst hid
      exact .inr hmine
    · rw [hstarts, hothers id' hid]
      rcases h.held k' id' (hlaunched ▸ hmem) with ⟨spec', hk'⟩ | hr
      · have hne : k ≠ k' := by
          rintro rfl
          cases hk.symm.trans hk'
          exact hid rfl
        exact .inl ⟨spec', by rw [ExtTreeMap.getElem?_insert_of_ne hne, hk']⟩
      · exact .inr hr
  inserted id' hr := by
    rw [hlaunched, hstarts]
    by_cases hid : id' = id
    · subst hid
      exact ⟨k, h.inserting k id' spec hk, fun spec' hk' => hto id' spec' (by simpa using hk')⟩
    · rw [hothers id' hid] at hr
      obtain ⟨k', hmem, hnot⟩ := h.inserted id' hr
      refine ⟨k', hmem, fun spec' hk' => ?_⟩
      rcases ExtTreeMap.getElem?_insert_some.1 hk' with ⟨-, hc⟩ | ⟨-, hk'⟩
      · exact hto id' spec' hc
      · exact hnot spec' hk'

theorem Launches.step {a : Act P} (h : r.Launches) (hs : r.step toValue a = some r') :
    r'.Launches := by
  cases a with
  | startCall k id spec =>
    obtain ⟨hk, rfl⟩ := startCall_cases hs
    exact h.goto (by simp [hk]) (fun _ _ hc => by cases hc) (by simp [hk]) rfl rfl rfl
  | startCheck k =>
    obtain ⟨id, spec, call, -, hk, rfl | ⟨-, rfl⟩, rfl⟩ := startCheck_cases hs
    · exact h.goto (by simp [hk]) (fun _ _ hc => by cases hc) (fun _ _ _ => rfl) rfl rfl rfl
    · exact h.goto (by simp [hk]) (fun _ _ hc => by cases hc) (by simp [hk, StartCall.isEarly])
        rfl rfl rfl
  | startLaunch k launched =>
    obtain ⟨id, spec, hk, ⟨-, e, rfl⟩ | ⟨-, rfl⟩⟩ := startLaunch_split (P := P) hs
    · exact h.goto (by simp [hk]) (fun _ _ hc => by cases hc) (fun _ _ _ => rfl) rfl rfl rfl
    · exact h.launch hk
  | startInsert k =>
    obtain ⟨id, spec, -, hk, ⟨hid, rfl⟩ | ⟨hn, rfl⟩⟩ := startInsert_cases hs
    · have hfound : r.store.runs[id]? ≠ none := by
        intro hn
        rw [ExtTreeMap.mem_iff_isSome_getElem?, hn] at hid
        cases hid
      exact h.insert hk rfl (fun _ _ hc => by cases hc) rfl rfl hfound (fun _ _ => rfl)
        (h.inserted id)
    · exact h.insert hk rfl (fun _ _ hc => by cases hc) rfl rfl (by simp)
        (fun id' hne => ExtTreeMap.getElem?_insert_of_ne (Ne.symm hne)) (h.inserted id)
  | startCount k =>
    obtain ⟨id, hk, rfl⟩ := startCount_cases hs
    exact h.goto (by simp [hk]) (fun _ _ hc => by cases hc) (fun _ _ _ => rfl) rfl rfl rfl
  | startSpawn k =>
    obtain ⟨id, hk, rfl⟩ := startSpawn_cases hs
    exact h.goto (by simp [hk]) (fun _ _ hc => by cases hc) (fun _ _ _ => rfl) rfl rfl rfl
  | _ =>
    have hstarts := starts_other rfl hs
    have hlaunched := launched_other (fun _ _ hc => by cases hc) hs
    refine ⟨?_, ?_, ?_, ?_⟩
    · rw [hstarts, hlaunched]; exact h.past
    · rw [hstarts, hlaunched]; exact h.inserting
    · intro k id hmem
      rw [hstarts]
      exact (h.held k id (hlaunched ▸ hmem)).imp_right (step_found hs)
    · intro id hr
      rw [hstarts, hlaunched]
      exact h.inserted id (found_back (fun _ hc => by cases hc) hs hr)

theorem launches_exec {acts : List (Act P)} (h : exec (step toValue) init acts = some r) :
    r.Launches :=
  exec_inv' (I := Launches) (fun _ _ _ hi hs => hi.step hs) launches_init h

/-! ## One launch for each run -/

/-- No run id was launched twice, and a call that was answered Conflict launched nothing. -/
structure LaunchesOnce (r : Registry) : Prop where
  once : (r.launched.map Prod.snd).Nodup
  conflict : ∀ (k : Nat) (id : RunId), r.starts[k]? = some (.returned id (.error .conflict)) →
    ∀ id' : RunId, (k, id') ∉ r.launched

/-- There is no run `id`, and no call that launched it is still to insert it. -/
def isFree (r : Registry) (id : RunId) : Bool :=
  !r.store.runs.contains id && r.starts.toList.all fun p => !p.2.isInserting id

/-- The step launches only what is free. -/
def Clear (r : Registry) (a : Act P) : Prop := ∀ id ∈ r.launches a, r.isFree id

instance decidableClear (r : Registry) (a : Act P) : Decidable (r.Clear a) :=
  inferInstanceAs (Decidable (∀ id ∈ r.launches a, r.isFree id = true))

theorem isFree_iff : r.isFree id ↔ r.store.runs[id]? = none ∧
    ∀ (k : Nat) (spec : RunRequest), r.starts[k]? ≠ some (.inserting id spec) := by
  simp only [isFree, Bool.and_eq_true, Bool.not_eq_true', List.all_eq_true]
  refine and_congr ?_ ?_
  · rw [ExtTreeMap.contains_eq_isSome_getElem?, Option.isSome_eq_false_iff,
      Option.isNone_iff_eq_none]
  · constructor
    · intro h k spec hk
      have := h (k, _) (ExtTreeMap.mem_toList_iff_getElem?_eq_some.2 hk)
      simp [StartCall.isInserting] at this
    · rintro h ⟨k, call⟩ hmem
      by_contra hc
      rw [Bool.not_eq_false, StartCall.isInserting_iff] at hc
      obtain ⟨spec, rfl⟩ := hc
      exact h k spec (ExtTreeMap.mem_toList_iff_getElem?_eq_some.1 hmem)

/-- A call that has a run, or is about to insert one, launched it. -/
theorem Launches.not_free (h : r.Launches) (hn : ¬ r.isFree id) :
    ∃ k, (k, id) ∈ r.launched := by
  rw [isFree_iff] at hn
  by_cases hr : r.store.runs[id]? = none
  · have : ∃ (k : Nat) (spec : RunRequest), r.starts[k]? = some (.inserting id spec) := by
      by_contra hc
      exact hn ⟨hr, fun k spec hk => hc ⟨k, spec, hk⟩⟩
    obtain ⟨k, spec, hk⟩ := this
    exact ⟨k, h.inserting k id spec hk⟩
  · obtain ⟨k, hmem, -⟩ := h.inserted id hr
    exact ⟨k, hmem⟩

/-- What is free was not launched. -/
theorem Launches.free (h : r.Launches) (hf : r.isFree id) : (k, id) ∉ r.launched := by
  intro hmem
  obtain ⟨hn, hi⟩ := isFree_iff.1 hf
  rcases h.held k id hmem with ⟨spec, hk⟩ | hr
  · exact hi k spec hk
  · exact hr hn

/-- A call that is not past its launch has launched nothing. -/
theorem Launches.early (h : r.Launches) {call : StartCall} (hk : r.starts[k]? = some call)
    (hearly : call.isEarly) : (k, id) ∉ r.launched := by
  intro hmem
  obtain ⟨call', hk', hnot⟩ := h.past k id hmem
  cases hk.symm.trans hk'
  cases hearly.symm.trans hnot

/-- A run that is there was launched by another call than one still to insert it. -/
theorem Launches.second (h : r.Launches) {spec : RunRequest}
    (hk : r.starts[k]? = some (.inserting id spec)) (hr : r.store.runs[id]? ≠ none) :
    ¬ (r.launched.map Prod.snd).Nodup := by
  obtain ⟨k', hmem, hnot⟩ := h.inserted id hr
  intro hnodup
  have hpair := List.inj_on_of_nodup_map hnodup hmem (h.inserting k id spec hk) rfl
  cases hpair
  exact hnot spec hk

theorem launchesOnce_init : init.LaunchesOnce :=
  ⟨by simp [init], fun k id hk => by simp [init] at hk⟩

/-- A step that launches nothing keeps the launches at one, if the call it answers with Conflict
launched nothing. -/
theorem LaunchesOnce.quiet (h : r.LaunchesOnce) (hlaunched : r'.launched = r.launched)
    (hanswer : ∀ (k : Nat) (id : RunId), r'.starts[k]? = some (.returned id (.error .conflict)) →
      r.starts[k]? = some (.returned id (.error .conflict)) ∨
        ∀ id' : RunId, (k, id') ∉ r.launched) :
    r'.LaunchesOnce where
  once := by rw [hlaunched]; exact h.once
  conflict k id hk := by
    rw [hlaunched]
    rcases hanswer k id hk with hold | hnone
    · exact h.conflict k id hold
    · exact hnone

/-- A call goes to a place that is not the answer Conflict, or launched nothing. -/
theorem LaunchesOnce.goto (h : r.LaunchesOnce) {call' : StartCall}
    (hlaunched : r'.launched = r.launched) (hstarts : r'.starts = r.starts.insert k call')
    (hto : (∀ id, call' ≠ .returned id (.error .conflict)) ∨ ∀ id' : RunId, (k, id') ∉ r.launched) :
    r'.LaunchesOnce := by
  refine h.quiet hlaunched fun k' id hk' => ?_
  rw [hstarts] at hk'
  rcases ExtTreeMap.getElem?_insert_some.1 hk' with ⟨rfl, hc⟩ | ⟨-, hk'⟩
  · rcases hto with hto | hnone
    · exact absurd hc (hto id)
    · exact .inr hnone
  · exact .inl hk'

theorem LaunchesOnce.step {a : Act P} (h : r.LaunchesOnce) (hl : r.Launches) (hc : r.Clear a)
    (hs : r.step toValue a = some r') : r'.LaunchesOnce := by
  cases a with
  | startCall k id spec =>
    obtain ⟨-, rfl⟩ := startCall_cases hs
    exact h.goto rfl rfl (.inl fun _ hc => by cases hc)
  | startCheck k =>
    obtain ⟨id, spec, call, -, hk, -, rfl⟩ := startCheck_cases hs
    exact h.goto rfl rfl (.inr fun id' => hl.early hk rfl)
  | startLaunch k launched =>
    obtain ⟨id, spec, hk, ⟨-, e, rfl⟩ | ⟨hid, rfl⟩⟩ := startLaunch_split (P := P) hs
    · exact h.goto rfl rfl (.inr fun id' => hl.early hk rfl)
    · have hfree := hc id hid
      constructor
      · rw [List.map_append, List.nodup_append]
        refine ⟨h.once, by simp, ?_⟩
        intro id₁ hid₁ id₂ hid₂
        obtain ⟨⟨k', id'⟩, hmem, rfl⟩ := List.mem_map.mp hid₁
        cases List.mem_singleton.mp hid₂
        rintro rfl
        exact hl.free hfree hmem
      · intro k' id' hk' id'' hmem
        rcases ExtTreeMap.getElem?_insert_some.1 hk' with ⟨-, hcall⟩ | ⟨hne, hk'⟩
        · cases hcall
        · rcases List.mem_append.mp hmem with hmem | hmem
          · exact h.conflict k' id' hk' id'' hmem
          · cases List.mem_singleton.mp hmem
            exact hne rfl
  | startInsert k =>
    obtain ⟨id, spec, -, hk, ⟨hid, rfl⟩ | ⟨hn, rfl⟩⟩ := startInsert_cases hs
    · refine absurd h.once (hl.second hk fun hn => ?_)
      rw [ExtTreeMap.mem_iff_isSome_getElem?, hn] at hid
      cases hid
    · exact h.goto rfl rfl (.inl fun _ hc => by cases hc)
  | startCount k =>
    obtain ⟨id, -, rfl⟩ := startCount_cases hs
    exact h.goto rfl rfl (.inl fun _ hc => by cases hc)
  | startSpawn k =>
    obtain ⟨id, -, rfl⟩ := startSpawn_cases hs
    exact h.goto rfl rfl (.inl fun _ hc => by cases hc)
  | _ =>
    refine h.quiet (launched_other (fun _ _ hc => by cases hc) hs) fun k id hk => .inl ?_
    rwa [starts_other rfl hs] at hk

/-- A launch of what is not free is a second one. -/
theorem Launches.breaks {a : Act P} (hl : r.Launches) (hc : ¬ r.Clear a)
    (hs : r.step toValue a = some r') : ¬ r'.LaunchesOnce := by
  obtain ⟨id, hid⟩ := not_forall.1 hc
  obtain ⟨hid, hfree⟩ := Classical.not_imp.1 hid
  obtain ⟨k, launched, spec, rfl, -⟩ := launches_eq_some hid
  obtain ⟨k', hmem⟩ := hl.not_free hfree
  obtain ⟨id', spec, -, ⟨hnone, -⟩ | ⟨hid', rfl⟩⟩ := startLaunch_split (P := P) hs
  · cases hnone.symm.trans hid
  · cases hid.symm.trans hid'
    rintro ⟨honce, -⟩
    rw [List.map_append, List.nodup_append] at honce
    exact honce.2.2 id (List.mem_map.mpr ⟨_, hmem, rfl⟩) id (by simp) rfl

/-- **One provider for each run id**, exactly while launches are clear: of the runs of the
registry, those on whose every state no run id was launched twice and no call answered Conflict
had launched are those whose every launch finds no such run and no call still to insert it. -/
theorem launches_once_iff (toValue : P → Except String Value) (acts : List (Act P)) (r : Registry)
    (h : exec (step toValue) init acts = some r) :
    Along (step toValue) Clear init acts ↔ Always (step toValue) LaunchesOnce init acts := by
  refine along_iff_always launchesOnce_init ?_ ?_ h
  · intro pre s a s' hpre honce hclear hs
    exact honce.step (launches_exec hpre) hclear hs
  · intro pre s a s' hpre hclear hs
    exact (launches_exec hpre).breaks hclear hs

/-- Two starts of one run, the second after the first has inserted it. -/
def startedInTurn : List (Act Unit) :=
  [.startCall 0 ⟨"r"⟩ plainRequest, .startCheck 0, .startLaunch 0 (.ok ()), .startInsert 0,
   .startCount 0, .startCall 1 ⟨"r"⟩ plainRequest, .startSpawn 0, .startCheck 1]

theorem launches_once_iff_startedInTurn :
    ∃ r : Registry, exec (step fun _ => .ok .null) init startedInTurn = some r ∧
      r.starts[0]? = some (.returned ⟨"r"⟩ (.ok ())) ∧
      r.starts[1]? = some (.returned ⟨"r"⟩ (.error .conflict)) ∧
      Along (step fun _ => .ok .null) Clear init startedInTurn ∧
      Always (step fun _ => .ok .null) LaunchesOnce init startedInTurn := by
  have h : ∃ r : Registry, exec (step fun _ => .ok .null) init startedInTurn = some r ∧
      r.starts[0]? = some (.returned ⟨"r"⟩ (.ok ())) ∧
      r.starts[1]? = some (.returned ⟨"r"⟩ (.error .conflict)) := ⟨_, rfl, rfl, rfl⟩
  obtain ⟨r, hr, h₀, h₁⟩ := h
  have hclear : Along (step fun _ => .ok .null) Clear init startedInTurn := by decide +kernel
  exact ⟨r, hr, h₀, h₁, hclear, (launches_once_iff _ _ r hr).mp hclear⟩

/-- Both calls of `startedTwice` launched a provider, and one of them was answered Conflict. -/
theorem launched_twice_startedTwice :
    ∃ r : Registry, exec (step fun _ => .ok .null) init startedTwice = some r ∧
      r.launched = [(1, ⟨"r"⟩), (0, ⟨"r"⟩)] ∧
      r.starts[0]? = some (.returned ⟨"r"⟩ (.error .conflict)) ∧ ¬ r.LaunchesOnce := by
  refine ⟨_, rfl, rfl, rfl, ?_⟩
  rintro ⟨honce, -⟩
  exact absurd honce (by decide +kernel)

end Registry

end AgencyProxy.Runtime
