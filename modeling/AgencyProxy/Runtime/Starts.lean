import AgencyProxy.Runtime.Activity

/-!
# Starting a run

A call of `start` checks twice that its run id is free, with `build_request` and the launch
of the provider between the checks, and only then inserts the run and counts it. `Progress`
says for each place a call can be at what its steps have done to the runs and to the count;
`Owners` says that a run id belongs to the one call that inserted it.
-/

namespace AgencyProxy.Runtime

open Std Lts

/-- The run that the call has inserted. -/
def StartCall.owns : StartCall → Option RunId
  | .counting id | .spawning id | .returned id (.ok ()) => some id
  | _ => none

namespace Registry

variable {P : Type} {toValue : P → Except String Value} {r r' : Registry} {k : Nat} {id : RunId}

/-- The call of `start` whose step it is. -/
def Act.startOf : Act P → Option Nat
  | .startCall k _ _ | .startCheck k | .startLaunch k _ | .startInsert k | .startCount k
  | .startSpawn k => some k
  | _ => none

/-! ## What a step of a start changes -/

/-- The runs and the count are as they were. -/
def Unmoved (r r' : Registry) : Prop := r'.store = r.store ∧ r'.active = r.active

/-- The run `id` is new, as `spec` asks for it, and nothing else is. -/
def Inserted (r r' : Registry) (id : RunId) (spec : RunRequest) : Prop :=
  r.store.runs[id]? = none ∧
    r'.store = { r.store with runs := r.store.runs.insert id (.fresh id spec) } ∧
    r'.active = r.active

/-- The count is one higher, and nothing else is. -/
def Counted (r r' : Registry) : Prop := r'.store = r.store ∧ r'.active = r.active + 1

/-- What the step `a` of the call `k` finds the call at and leaves it at. -/
inductive StartMove (r r' : Registry) (k : Nat) (a : Act P) : Option StartCall → StartCall → Prop
  | begin (id : RunId) (spec : RunRequest) (act : a = .startCall k id spec) (h : Unmoved r r') :
      StartMove r r' k a none (.checking id spec)
  | fail (id : RunId) (spec : RunRequest) (call : StartCall) (e : RuntimeError)
      (place : call = .checking id spec ∨ call = .launching id spec ∨ call = .inserting id spec)
      (h : Unmoved r r') : StartMove r r' k a (some call) (.returned id (.error e))
  | check (id : RunId) (spec : RunRequest) (h : Unmoved r r') :
      StartMove r r' k a (some (.checking id spec)) (.launching id spec)
  | launch (id : RunId) (spec : RunRequest) (h : Unmoved r r') :
      StartMove r r' k a (some (.launching id spec)) (.inserting id spec)
  | insert (id : RunId) (spec : RunRequest) (h : Inserted r r' id spec) :
      StartMove r r' k a (some (.inserting id spec)) (.counting id)
  | count (id : RunId) (h : Counted r r') :
      StartMove r r' k a (some (.counting id)) (.spawning id)
  | spawn (id : RunId) (h : Unmoved r r') :
      StartMove r r' k a (some (.spawning id)) (.returned id (.ok ()))

/-- **One step of a start.** -/
theorem start_move {a : Act P} (ha : a.startOf = some k) (h : r.step toValue a = some r') :
    ∃ call', r'.starts = r.starts.insert k call' ∧ StartMove r r' k a r.starts[k]? call' := by
  cases a <;> cases ha
  case startCall id spec =>
    obtain ⟨hk, rfl⟩ := startCall_cases h
    rw [hk]
    exact ⟨_, rfl, .begin id spec rfl ⟨rfl, rfl⟩⟩
  case startCheck =>
    obtain ⟨id, spec, call, -, hk, rfl | ⟨-, rfl⟩, rfl⟩ := startCheck_cases h
    · rw [hk]; exact ⟨_, rfl, .fail id spec _ _ (.inl rfl) ⟨rfl, rfl⟩⟩
    · rw [hk]; exact ⟨_, rfl, .check id spec ⟨rfl, rfl⟩⟩
  case startLaunch launched =>
    obtain ⟨id, spec, call, log, hk, ⟨e, rfl⟩ | rfl, rfl⟩ := startLaunch_cases h
    · rw [hk]; exact ⟨_, rfl, .fail id spec _ e (.inr (.inl rfl)) ⟨rfl, rfl⟩⟩
    · rw [hk]; exact ⟨_, rfl, .launch id spec ⟨rfl, rfl⟩⟩
  case startInsert =>
    obtain ⟨id, spec, -, hk, ⟨-, rfl⟩ | ⟨hn, rfl⟩⟩ := startInsert_cases h
    · rw [hk]; exact ⟨_, rfl, .fail id spec _ _ (.inr (.inr rfl)) ⟨rfl, rfl⟩⟩
    · rw [hk]; exact ⟨_, rfl, .insert id spec ⟨hn, rfl, rfl⟩⟩
  case startCount =>
    obtain ⟨id, hk, rfl⟩ := startCount_cases h
    rw [hk]
    exact ⟨_, rfl, .count id ⟨rfl, rfl⟩⟩
  case startSpawn =>
    obtain ⟨id, hk, rfl⟩ := startSpawn_cases h
    rw [hk]
    exact ⟨_, rfl, .spawn id ⟨rfl, rfl⟩⟩

/-- Only steps of starts move the calls of `start`. -/
theorem starts_other {a : Act P} (ha : a.startOf = none) (h : r.step toValue a = some r') :
    r'.starts = r.starts := by
  refine (step_frame h).starts ?_
  cases a <;> first | rfl | cases ha

/-- A step that is not the call's leaves the call where it is. -/
theorem start_other {a : Act P} (ha : a.startOf ≠ some k) (h : r.step toValue a = some r') :
    r'.starts[k]? = r.starts[k]? := by
  cases hk : a.startOf with
  | none => rw [starts_other hk h]
  | some k' =>
    obtain ⟨call', he, -⟩ := start_move hk h
    rw [he, ExtTreeMap.getElem?_insert_of_ne]
    rintro rfl
    exact ha hk

/-- A start leaves every run there is as it is. -/
theorem start_keeps {a : Act P} {run : LiveRun} (ha : a.startOf = some k)
    (h : r.step toValue a = some r') (hr : r.store.runs[id]? = some run) :
    r'.store.runs[id]? = some run := by
  obtain ⟨call', -, hm⟩ := start_move ha h
  generalize r.starts[k]? = call at hm
  cases hm with
  | insert id' spec hi =>
    obtain ⟨hn, he, -⟩ := hi
    have hne : id' ≠ id := by rintro rfl; cases hn.symm.trans hr
    rw [he, ExtTreeMap.getElem?_insert_of_ne hne]
    exact hr
  | begin id spec _ hu | fail id spec call e _ hu | check id spec hu | launch id spec hu
  | count id hu | spawn id hu => rw [hu.1]; exact hr

/-! ## What a call has done -/

/-- The step is not one of the call `k`, or it changes neither the runs nor the count. -/
def Still (toValue : P → Except String Value) (k : Nat) (r : Registry) (a : Act P) : Prop :=
  a.startOf = some k → ∀ r', r.step toValue a = some r' → Unmoved r r'

/-- In the run over `acts` that ends in `r`, the call `k` inserted `id` and did nothing else. -/
def Inserts (toValue : P → Except String Value) (k : Nat) (id : RunId) (acts : List (Act P))
    (r : Registry) : Prop :=
  ∃ (pre mid : List (Act P)) (a : Act P) (spec : RunRequest) (s s' : Registry),
    acts = pre ++ a :: mid ∧ .startCall k id spec ∈ pre ∧
    exec (step toValue) init pre = some s ∧ Along (step toValue) (Still toValue k) init pre ∧
    a.startOf = some k ∧ s.step toValue a = some s' ∧ Inserted s s' id spec ∧
    exec (step toValue) s' mid = some r ∧ Along (step toValue) (Still toValue k) s' mid

/-- In the run over `acts` that ends in `r`, the call `k` inserted `id`, then counted it, and did
nothing else. -/
def Adds (toValue : P → Except String Value) (k : Nat) (id : RunId) (acts : List (Act P))
    (r : Registry) : Prop :=
  ∃ (pre post : List (Act P)) (a : Act P) (s s' : Registry),
    acts = pre ++ a :: post ∧ Inserts toValue k id pre s ∧
    a.startOf = some k ∧ s.step toValue a = some s' ∧ Counted s s' ∧
    exec (step toValue) s' post = some r ∧ Along (step toValue) (Still toValue k) s' post

/-- What the call `k` has done when it is at `call`. -/
def Progress (toValue : P → Except String Value) (k : Nat) (acts : List (Act P)) (r : Registry) :
    Option StartCall → Prop
  | none | some (.returned _ (.error _)) => Along (step toValue) (Still toValue k) init acts
  | some (.checking id spec) | some (.launching id spec) | some (.inserting id spec) =>
    .startCall k id spec ∈ acts ∧ Along (step toValue) (Still toValue k) init acts
  | some (.counting id) => Inserts toValue k id acts r
  | some (.spawning id) | some (.returned id (.ok ())) => Adds toValue k id acts r

/-- A run that is still is still after one more still step. -/
theorem along_still_snoc {acts : List (Act P)} {s : Registry} {a : Act P}
    (h : Along (step toValue) (Still toValue k) s acts)
    (he : exec (step toValue) s acts = some r) (ha : Still toValue k r a) :
    Along (step toValue) (Still toValue k) s (acts ++ [a]) :=
  (along_append he).2 ⟨h, ha, fun _ _ => trivial⟩

theorem Inserts.snoc {acts : List (Act P)} {a : Act P} (h : Inserts toValue k id acts r)
    (ha : Still toValue k r a) (hs : r.step toValue a = some r') :
    Inserts toValue k id (acts ++ [a]) r' := by
  obtain ⟨pre, mid, b, spec, s, s', rfl, hcall, hpre, hp, hb, hstep, hi, hmid, hm⟩ := h
  exact ⟨pre, mid ++ [a], b, spec, s, s', by simp, hcall, hpre, hp, hb, hstep, hi,
    exec_append_some.2 ⟨r, hmid, exec_single.2 hs⟩, along_still_snoc hm hmid ha⟩

theorem Adds.snoc {acts : List (Act P)} {a : Act P} (h : Adds toValue k id acts r)
    (ha : Still toValue k r a) (hs : r.step toValue a = some r') :
    Adds toValue k id (acts ++ [a]) r' := by
  obtain ⟨pre, post, b, s, s', rfl, hpre, hb, hstep, hc, hpost, hm⟩ := h
  exact ⟨pre, post ++ [a], b, s, s', by simp, hpre, hb, hstep, hc,
    exec_append_some.2 ⟨r, hpost, exec_single.2 hs⟩, along_still_snoc hm hpost ha⟩

/-- A step that is still for the call keeps what it has done. -/
theorem Progress.snoc {acts : List (Act P)} {a : Act P} {call : Option StartCall}
    (h : Progress toValue k acts r call) (he : exec (step toValue) init acts = some r)
    (ha : Still toValue k r a) (hs : r.step toValue a = some r') :
    Progress toValue k (acts ++ [a]) r' call := by
  cases call with
  | none => exact along_still_snoc h he ha
  | some call =>
    cases call with
    | checking id spec | launching id spec | inserting id spec =>
      exact ⟨List.mem_append_left _ h.1, along_still_snoc h.2 he ha⟩
    | counting id => exact Inserts.snoc h ha hs
    | spawning id => exact Adds.snoc h ha hs
    | returned id result =>
      cases result with
      | error e => exact along_still_snoc h he ha
      | ok => exact Adds.snoc h ha hs

/-- **Run lemma**: wherever a call is, its steps have done what `Progress` says. -/
theorem progress_exec {acts : List (Act P)} (h : exec (step toValue) init acts = some r) :
    Progress toValue k acts r r.starts[k]? := by
  induction acts using List.reverseRecOn generalizing r with
  | nil => cases h; simp [init, Progress, Along]
  | append_singleton acts a ih =>
    obtain ⟨m, hm, h⟩ := exec_append_some.1 h
    have hs := exec_single.1 h
    have hp := ih hm
    by_cases ha : a.startOf = some k
    · obtain ⟨call', he, hmove⟩ := start_move ha hs
      have hstill (hu : Unmoved m r) : Still toValue k m a := fun _ r₁ hr₁ => by
        rw [hs] at hr₁; cases hr₁; exact hu
      rw [he, ExtTreeMap.getElem?_insert_self]
      generalize m.starts[k]? = call at hp hmove
      cases hmove with
      | begin id spec act hu =>
        exact ⟨by simp [act], along_still_snoc hp hm (hstill hu)⟩
      | fail id spec call e place hu =>
        rcases place with rfl | rfl | rfl
        all_goals exact along_still_snoc hp.2 hm (hstill hu)
      | check id spec hu => exact hp.snoc hm (hstill hu) hs
      | launch id spec hu => exact hp.snoc hm (hstill hu) hs
      | insert id spec hi =>
        exact ⟨acts, [], a, spec, m, r, rfl, hp.1, hm, hp.2, ha, hs, hi, rfl, trivial⟩
      | count id hc => exact ⟨acts, [], a, m, r, rfl, hp, ha, hs, hc, rfl, trivial⟩
      | spawn id hu => exact Adds.snoc hp (hstill hu) hs
    · rw [start_other ha hs]
      exact hp.snoc hm (fun hk => absurd hk ha) hs

/-! ## Owners -/

/-- A run id belongs to at most one call, and it is in the map. -/
structure Owners (r : Registry) : Prop where
  found : ∀ (k : Nat) (call : StartCall) (id : RunId), r.starts[k]? = some call →
    call.owns = some id → r.store.runs[id]? ≠ none
  unique : ∀ (k k' : Nat) (call call' : StartCall) (id : RunId), r.starts[k]? = some call →
    r.starts[k']? = some call' → call.owns = some id → call'.owns = some id → k = k'

theorem owners_init : init.Owners :=
  ⟨fun k call id h => by simp [init] at h, fun k k' call call' id h => by simp [init] at h⟩

/-- Runs stay in the map. -/
theorem step_found {a : Act P} (h : r.step toValue a = some r')
    (hr : r.store.runs[id]? ≠ none) : r'.store.runs[id]? ≠ none := by
  obtain ⟨run, hrun⟩ := Option.ne_none_iff_exists'.1 hr
  obtain ⟨run', hrun', -⟩ := step_run h hrun
  rw [hrun']
  exact Option.some_ne_none run'

/-- The call that a step moves owns what it owned, unless it inserts. -/
theorem StartMove.owns {a : Act P} {call : Option StartCall} {call' : StartCall}
    (h : StartMove r r' k a call call') (ho : call'.owns = some id) :
    (∃ c, call = some c ∧ c.owns = some id) ∨
      (r.store.runs[id]? = none ∧ r'.store.runs[id]? ≠ none) := by
  cases h with
  | insert id' spec hi =>
    cases ho
    exact .inr ⟨hi.1, by rw [hi.2.1]; simp⟩
  | count id' hc => exact .inl ⟨_, rfl, ho⟩
  | spawn id' hu => exact .inl ⟨_, rfl, ho⟩
  | begin | fail | check | launch => cases ho

theorem Owners.step {a : Act P} (h : r.Owners) (hs : r.step toValue a = some r') : r'.Owners := by
  cases hk : a.startOf with
  | none =>
    have he := starts_other hk hs
    exact ⟨fun k call id hc ho => step_found hs (h.found k call id (he ▸ hc) ho),
      fun k k' call call' id hc hc' => h.unique k k' call call' id (he ▸ hc) (he ▸ hc')⟩
  | some k₀ =>
    obtain ⟨call₀, he, hm⟩ := start_move hk hs
    -- Whoever owns a run after the step owned it before, or it is the call that inserted it.
    have hback : ∀ (k : Nat) (call : StartCall) (id : RunId), r'.starts[k]? = some call →
        call.owns = some id →
        (∃ c, r.starts[k]? = some c ∧ c.owns = some id) ∨
          (k = k₀ ∧ r.store.runs[id]? = none ∧ r'.store.runs[id]? ≠ none) := by
      intro k call id hc ho
      rw [he] at hc
      rcases ExtTreeMap.getElem?_insert_some.1 hc with ⟨rfl, rfl⟩ | ⟨-, hc⟩
      · rcases hm.owns ho with hold | hnew
        · exact .inl hold
        · exact .inr ⟨rfl, hnew⟩
      · exact .inl ⟨call, hc, ho⟩
    refine ⟨fun k call id hc ho => ?_, fun k k' call call' id hc hc' ho ho' => ?_⟩
    · rcases hback k call id hc ho with ⟨c, hc, ho⟩ | ⟨-, -, hf⟩
      · exact step_found hs (h.found k c id hc ho)
      · exact hf
    · rcases hback k call id hc ho with ⟨c, hc, ho⟩ | ⟨rfl, hn, -⟩
      · rcases hback k' call' id hc' ho' with ⟨c', hc', ho'⟩ | ⟨rfl, hn, -⟩
        · exact h.unique k k' c c' id hc hc' ho ho'
        · exact absurd hn (h.found k c id hc ho)
      · rcases hback k' call' id hc' ho' with ⟨c', hc', ho'⟩ | ⟨rfl, -, -⟩
        · exact absurd hn (h.found k' c' id hc' ho')
        · rfl

theorem owners_exec {acts : List (Act P)} (h : exec (Registry.step toValue) init acts = some r) :
    r.Owners :=
  exec_inv' (I := Owners) (fun _ _ _ hi hs => hi.step hs) owners_init h

/-! ## Runs are never reset -/

/-- A step keeps every run, with its counters only rising and its log only growing. -/
theorem StoreStep.later {store : Store} (h : StoreStep r store) :
    r.store.Later store ∧ ∀ id, r.store.published id <+: store.published id := by
  cases h with
  | same he => rw [he]; exact ⟨.refl _, fun _ => List.prefix_rfl⟩
  | insert k id spec _ hn he =>
    rw [he]
    refine ⟨fun id' run hr => ⟨run, ?_, .rfl' run⟩, fun _ => List.prefix_rfl⟩
    have hne : id ≠ id' := by rintro rfl; cases hn.symm.trans hr
    rw [ExtTreeMap.getElem?_insert_of_ne hne]
    exact hr
  | publish id p last run _ hr he =>
    rw [he]
    refine ⟨fun id' run' hr' => ?_, fun id' => ?_⟩
    · rw [Store.publish_runs hr]
      by_cases hid : id = id'
      · subst hid
        cases hr.symm.trans hr'
        exact ⟨_, ExtTreeMap.getElem?_insert_self, .publish _ _ _ _ _⟩
      · exact ⟨run', by rw [ExtTreeMap.getElem?_insert_of_ne hid]; exact hr', .rfl' _⟩
    · rw [Store.publish_published hr]
      by_cases hid : id' = id
      · subst hid
        rw [Function.update_self]
        exact List.prefix_append _ _
      · rw [Function.update_of_ne hid]
  | touch id run run' hr ht he =>
    rw [he]
    refine ⟨fun id' run₀ hr₀ => ?_, fun _ => List.prefix_rfl⟩
    by_cases hid : id = id'
    · subst hid
      cases hr.symm.trans hr₀
      exact ⟨run', ExtTreeMap.getElem?_insert_self, ht.earlier⟩
    · exact ⟨run₀, by rw [ExtTreeMap.getElem?_insert_of_ne hid]; exact hr₀, .rfl' _⟩
  | sweep he =>
    rw [he]
    refine ⟨fun id run hr => ⟨Registry.sweep run, ?_, (sweep_touch run).earlier⟩,
      fun _ => List.prefix_rfl⟩
    rw [ExtTreeMap.getElem?_map, hr]
    rfl

theorem later_exec {acts : List (Act P)} (h : exec (Registry.step toValue) r acts = some r') :
    r.store.Later r'.store ∧ ∀ id, r.store.published id <+: r'.store.published id :=
  exec_mono (I := fun _ => True) (C := fun _ _ => True)
    (R := fun r r' : Registry =>
      r.store.Later r'.store ∧ ∀ id, r.store.published id <+: r'.store.published id)
    (fun r => ⟨.refl r.store, fun _ => List.prefix_rfl⟩)
    (fun _ _ _ h₁ h₂ => ⟨h₁.1.trans h₂.1, fun id => (h₁.2 id).trans (h₂.2 id)⟩)
    (fun _ _ _ _ _ _ => trivial) (fun _ _ _ _ _ hs => (step_store hs).later) trivial
    (along_of_forall (fun _ _ => trivial) _ _) h

/-- **A start is atomic, and a run id has one owner.** In every run of the registry: at most one
`start` of a run id has returned `Ok`; no step of a `start` that returned an error changed the
runs or the count; the steps of a `start` that returned `Ok` inserted its own run, which was not
there, then added one to the count, and changed nothing else; no step of any `start` touches a
run that is there; and from any state on, every run stays, with its sequence counter only rising
and its log only growing. -/
theorem start_atomic (toValue : P → Except String Value) (acts later : List (Act P))
    (r r' : Registry) (h : exec (step toValue) init acts = some r)
    (h' : exec (step toValue) r later = some r') :
    (∀ (k k' : Nat) (id : RunId), r.starts[k]? = some (.returned id (.ok ())) →
      r.starts[k']? = some (.returned id (.ok ())) → k = k') ∧
    (∀ (k : Nat) (id : RunId) (e : RuntimeError), r.starts[k]? = some (.returned id (.error e)) →
      Along (step toValue) (Still toValue k) init acts) ∧
    (∀ (k : Nat) (id : RunId), r.starts[k]? = some (.returned id (.ok ())) →
      Adds toValue k id acts r) ∧
    (∀ (a : Act P) (k : Nat) (r₁ : Registry), a.startOf = some k → r.step toValue a = some r₁ →
      ∀ (id : RunId) (run : LiveRun), r.store.runs[id]? = some run →
        r₁.store.runs[id]? = some run) ∧
    r.store.Later r'.store ∧ (∀ id, r.store.published id <+: r'.store.published id) := by
  have ho := owners_exec h
  obtain ⟨hlater, hlog⟩ := later_exec h'
  refine ⟨fun k k' id hk hk' => ho.unique k k' _ _ id hk hk' rfl rfl, fun k id e hk => ?_,
    fun k id hk => ?_, fun a k r₁ ha hs id run hr => start_keeps ha hs hr, hlater, hlog⟩
  · have hp := progress_exec (k := k) h
    rw [hk] at hp
    exact hp
  · have hp := progress_exec (k := k) h
    rw [hk] at hp
    exact hp

/-- Two clients start one run; both pass the first check, and both launch a provider. -/
def startedTwice : List (Act Unit) :=
  [.startCall 0 ⟨"r"⟩ plainRequest, .startCall 1 ⟨"r"⟩ plainRequest, .startCheck 0, .startCheck 1,
   .startLaunch 1 (.ok ()), .startLaunch 0 (.ok ()), .startInsert 1, .startCount 1,
   .startInsert 0, .startSpawn 1]

theorem start_atomic_startedTwice :
    ∃ r : Registry, exec (step fun _ => .ok .null) init startedTwice = some r ∧
      r.starts[0]? = some (.returned ⟨"r"⟩ (.error .conflict)) ∧
      r.starts[1]? = some (.returned ⟨"r"⟩ (.ok ())) ∧
      Along (step fun _ => .ok .null) (Still (fun _ => .ok .null) 0) init startedTwice ∧
      Adds (fun _ => .ok .null) 1 ⟨"r"⟩ startedTwice r := by
  have h : ∃ r : Registry, exec (step fun _ => .ok .null) init startedTwice = some r ∧
      r.starts[0]? = some (.returned ⟨"r"⟩ (.error .conflict)) ∧
      r.starts[1]? = some (.returned ⟨"r"⟩ (.ok ())) := ⟨_, rfl, rfl, rfl⟩
  obtain ⟨r, hr, h₀, h₁⟩ := h
  have hall := start_atomic (fun _ => .ok .null) startedTwice [] r r hr rfl
  exact ⟨r, hr, h₀, h₁, hall.2.1 0 _ _ h₀, hall.2.2.1 1 _ h₁⟩

end Registry

end AgencyProxy.Runtime
