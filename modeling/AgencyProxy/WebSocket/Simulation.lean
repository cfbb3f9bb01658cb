import AgencyProxy.WebSocket.RunSubscriptions
import AgencyProxy.WebSocket.Subscriptions

/-!
# The subscription table of the server

A run of the server is a run of the subscription table: a step of a connection is a step of the
table, under the generation as the handle, or it leaves the table as it is. What is proved of the
table under any interleaving so holds of the server, and the entries of a connection are those
of its live forwarders.
-/

namespace AgencyProxy.WebSocket

open AgencyProxy.Runtime Std Lts

/-! ## Steps of the table for one connection -/

namespace Table

variable {t t' u : Table} {c k : Nat} {sub : Subscription}

/-- Handles are generations. -/
def Named (t : Table) : Prop :=
  ∀ (k : Nat) (sub : Subscription), t.subscriptions[k]? = some sub → sub.generation = k

/-- What connections other than `c` have in the table stays. -/
structure Elsewhere (c : Nat) (t t' : Table) : Prop where
  active : ∀ key : SubscriptionKey, key.connectionId ≠ c →
    t'.runs.active[key]? = t.runs.active[key]?
  subscriptions : ∀ (k : Nat) (sub : Subscription), sub.key.connectionId ≠ c →
    (t'.subscriptions[k]? = some sub ↔ t.subscriptions[k]? = some sub)

theorem Elsewhere.refl : Elsewhere c t t := ⟨fun _ _ => rfl, fun _ _ _ => Iff.rfl⟩

theorem Elsewhere.trans (h₁ : Elsewhere c t u) (h₂ : Elsewhere c u t') : Elsewhere c t t' where
  active key hkey := (h₂.active key hkey).trans (h₁.active key hkey)
  subscriptions k sub hkey := (h₂.subscriptions k sub hkey).trans (h₁.subscriptions k sub hkey)

/-- A subscription of `c` is put in, or put in place of one of `c`. -/
theorem Elsewhere.insert {runs : RunSubscriptions} (hkey : sub.key.connectionId = c)
    (hold : ∀ old, t.subscriptions[k]? = some old → old.key.connectionId = c)
    (hactive : ∀ key : SubscriptionKey, key.connectionId ≠ c →
      runs.active[key]? = t.runs.active[key]?) :
    Elsewhere c t ⟨runs, t.subscriptions.insert k sub⟩ where
  active := hactive
  subscriptions k' sub' hne := by
    rw [ExtTreeMap.getElem?_insert_some]
    constructor
    · rintro (⟨rfl, rfl⟩ | ⟨-, hsub'⟩)
      · exact absurd hkey hne
      · exact hsub'
    · intro hsub'
      refine .inr ⟨?_, hsub'⟩
      rintro rfl
      exact hne (hold sub' hsub')

theorem Removes.elsewhere {p : SubscriptionKey → Bool} (hr : Removes p t t')
    (hp : ∀ key, p key → key.connectionId = c) : Elsewhere c t t' where
  active key hkey := by rw [hr.active, if_neg (fun h => hkey (hp key h))]
  subscriptions k sub hkey := by
    rw [hr.subscriptions]
    cases hsub : t.subscriptions[k]? with
    | none => simp
    | some sub₀ =>
      by_cases hc : p sub₀.key ∧ sub₀.Live
      · rw [Option.map_some, if_pos hc, Option.some.injEq, Option.some.injEq]
        constructor <;> rintro rfl <;> exact absurd (hp _ hc.1) hkey
      · rw [Option.map_some, if_neg hc]

theorem Named.insert (h : t.Named) {runs : RunSubscriptions} (hk : sub.generation = k) :
    Named ⟨runs, t.subscriptions.insert k sub⟩ := by
  exact ExtTreeMap.forall_insert h hk

theorem Named.removes {p : SubscriptionKey → Bool} (h : t.Named) (hr : Removes p t t') :
    t'.Named := by
  intro k sub hsub
  obtain ⟨sub₀, hsub₀, -, hgen, -⟩ := hr.find hsub
  exact hgen.trans (h k sub₀ hsub₀)

/-- The next generation is no handle yet. -/
theorem Inv.next_not_mem (h : t.Inv) (hn : t.Named) :
    t.runs.nextGeneration + 1 ∉ t.subscriptions := by
  intro hmem
  obtain ⟨sub, hsub⟩ := Option.isSome_iff_exists.mp (ExtTreeMap.mem_iff_isSome_getElem?.mp hmem)
  have hgen := hn _ sub hsub
  have hle := h.numbered.fresh _ sub hsub
  omega

theorem removeIfCurrent_active (s : RunSubscriptions) (key key' : SubscriptionKey) (g : Nat) :
    (s.removeIfCurrent key g).active[key']? =
      if key' = key ∧ s.active[key]?.any (·.generation == g) then none else s.active[key']? := by
  unfold RunSubscriptions.removeIfCurrent
  by_cases hany : s.active[key]?.any (·.generation == g)
  · by_cases hkey : key' = key
    · subst hkey; simp [hany]
    · simp [hany, hkey, ExtTreeMap.getElem?_erase_of_ne (Ne.symm hkey)]
  · simp [hany]

theorem goto_eq (hsub : t.subscriptions[k]? = some sub) {before after : Stage}
    (hbefore : sub.stage = before) : t.goto k before after =
      some { t with subscriptions := t.subscriptions.insert k { sub with stage := after } } := by
  simp only [goto, hsub, if_pos hbefore]

end Table

/-! ## What a connection has in the table -/

/-- The subscription that a handler makes, from its generation to its spawn. -/
def Handler.making : Handler → Option Nat
  | .inserting _ _ n | .spawning _ _ n => some n
  | _ => none

/-- Where the table has the forwarder of a task. -/
def StandsAt (task : Forward) : Stage → Prop
  | .drawn | .inserted => False
  | .parked => task.polling = false ∧ ended task = false
  | .polling => task.polling = true ∧ ended task = false
  | .finished => task.polling = true ∧ ended task = true
  | .cleaned => task.polling = false ∧ ended task = true
  | .dropped => task.polling = false ∧ ended task = true ∧ task.aborted = true

/-- A task that is not polled and not over is parked. -/
theorem StandsAt.parked {task : Forward} {stage : Stage} (h : StandsAt task stage)
    (hp : task.polling = false) (he : ended task = false) : stage = .parked := by
  cases stage <;> simp_all [StandsAt]

theorem StandsAt.polled {task : Forward} {stage : Stage} (h : StandsAt task stage)
    (hp : task.polling = true) : stage = if ended task then .finished else .polling := by
  cases stage <;> simp_all [StandsAt]

/-- Neither aborted nor done. -/
def Lives (task : Forward) : Prop :=
  task.aborted = false ∧ (task.polling = true ∨ ended task = false)

theorem StandsAt.lives {task : Forward} {stage : Stage} {key : SubscriptionKey} {n : Nat}
    (h : StandsAt task stage) :
    (Subscription.mk key n stage task.aborted).Live ↔ Lives task := by
  constructor
  · rintro ⟨hdrawn, hcleaned, haborted⟩
    refine ⟨haborted, ?_⟩
    cases stage with
    | drawn => exact absurd rfl hdrawn
    | inserted => exact h.elim
    | parked => exact .inr h.2
    | polling => exact .inl h.1
    | finished => exact .inl h.1
    | cleaned => exact absurd rfl hcleaned
    | dropped => cases haborted.symm.trans h.2.2
  · rintro ⟨haborted, hgoes⟩
    refine ⟨?_, ?_, haborted⟩
    · rintro rfl
      exact h
    · rintro rfl
      rcases hgoes with hp | he
      · cases h.1.symm.trans hp
      · cases h.2.symm.trans he

theorem StandsAt.abort {task : Forward} {stage : Stage} (h : StandsAt task stage) :
    StandsAt { task with aborted := true } stage := by
  cases stage with
  | dropped => exact ⟨h.1, h.2.1, rfl⟩
  | _ => exact h

namespace Conn

variable {r r' : Registry} {g g' c n : Nat} {conn conn' : Conn} {t t' u : Table}

/-- The entries and the subscriptions that connection `c` has in the table are those of `conn`. -/
structure Agrees (t : Table) (c : Nat) (conn : Conn) : Prop where
  active : ∀ id : RunId, t.runs.active[SubscriptionKey.mk c id]? =
    conn.active[id]?.map fun n => ⟨n, n⟩
  inserting : ∀ request attachment n, conn.handler = .inserting request attachment n →
    t.subscriptions[n]? = some ⟨⟨c, request.runId⟩, n, .drawn, false⟩
  spawning : ∀ request attachment n, conn.handler = .spawning request attachment n →
    t.subscriptions[n]? = some ⟨⟨c, request.runId⟩, n, .inserted, false⟩
  forwards : ∀ (n : Nat) (task : Forward), conn.forwards[n]? = some task →
    ∃ stage, StandsAt task stage ∧
      t.subscriptions[n]? = some ⟨⟨c, task.id⟩, n, stage, task.aborted⟩
  known : ∀ (n : Nat) (sub : Subscription), t.subscriptions[n]? = some sub →
    sub.key.connectionId = c → conn.forwards[n]? ≠ none ∨ conn.handler.making = some n

/-- The table goes from `t` to `t'` as connection `c` becomes `conn`, and the generation `g`. -/
structure Follows (c g : Nat) (conn : Conn) (t t' : Table) : Prop where
  agrees : conn.Agrees t' c
  elsewhere : Table.Elsewhere c t t'
  generation : t'.runs.nextGeneration = g
  named : t'.Named

/-- A step of another connection. -/
theorem Agrees.elsewhere (h : conn.Agrees t c) {c' : Nat} (he : Table.Elsewhere c' t t')
    (hne : c ≠ c') : conn.Agrees t' c where
  active id := (he.active _ hne).trans (h.active id)
  inserting request attachment n hh :=
    (he.subscriptions n _ hne).mpr (h.inserting request attachment n hh)
  spawning request attachment n hh :=
    (he.subscriptions n _ hne).mpr (h.spawning request attachment n hh)
  forwards n task hf := by
    obtain ⟨stage, hat, hsub⟩ := h.forwards n task hf
    exact ⟨stage, hat, (he.subscriptions n _ hne).mpr hsub⟩
  known n sub hsub hkey :=
    h.known n sub ((he.subscriptions n sub (fun hc => hne (hkey.symm.trans hc))).mp hsub) hkey

/-- The table stays as it is. -/
theorem Agrees.stays (h : conn'.Agrees t c) (hn : t.Named)
    (hg : t.runs.nextGeneration = g) :
    ∃ ks t', exec Table.step t ks = some t' ∧ Follows c g conn' t t' :=
  ⟨[], t, rfl, h, .refl, hg, hn⟩

theorem making_of_handler {handler : Handler} (h : handler.making = none) :
    (∀ request attachment n, handler ≠ .inserting request attachment n) ∧
    ∀ request attachment n, handler ≠ .spawning request attachment n := by
  constructor <;> (rintro request attachment n rfl; cases h)

/-- A handler goes on that makes no subscription, before or after. -/
theorem Agrees.handler (h : conn.Agrees t c) {connected : Bool} {handler : Handler}
    {queue : List Queued} (hm : conn.handler.making = none) (hm' : handler.making = none) :
    ({ conn with connected, handler, queue } : Conn).Agrees t c where
  active := h.active
  inserting request attachment n hh := absurd hh ((making_of_handler hm').1 _ _ _)
  spawning request attachment n hh := absurd hh ((making_of_handler hm').2 _ _ _)
  forwards := h.forwards
  known n sub hsub hkey := by
    rcases h.known n sub hsub hkey with hf | hh
    · exact .inl hf
    · cases hm.symm.trans hh

/-- A subscription that a handler makes has no task yet. -/
theorem Agrees.not_making (h : conn.Agrees t c) {task : Forward}
    (hf : conn.forwards[n]? = some task) : conn.handler.making ≠ some n := by
  obtain ⟨stage, hat, hsub⟩ := h.forwards n task hf
  intro hm
  unfold Handler.making at hm
  split at hm
  · rename_i request attachment m hh
    cases hm
    obtain ⟨-, -, rfl, -⟩ := Subscription.mk.inj
      (Option.some.inj (hsub.symm.trans (h.inserting request attachment _ hh)))
    exact hat
  · rename_i request attachment m hh
    cases hm
    obtain ⟨-, -, rfl, -⟩ := Subscription.mk.inj
      (Option.some.inj (hsub.symm.trans (h.spawning request attachment _ hh)))
    exact hat
  · cases hm

/-- A task goes on, and its forwarder in the table with it. -/
theorem Agrees.task (h : conn.Agrees t c) {task task' : Forward}
    (hf : conn.forwards[n]? = some task) {stage : Stage} (hat : StandsAt task' stage)
    (hid : task'.id = task.id) (haborted : task'.aborted = task.aborted)
    {runs : RunSubscriptions} {active : ExtTreeMap RunId Nat}
    (hactive : ∀ id : RunId, runs.active[SubscriptionKey.mk c id]? =
      active[id]?.map fun n => ⟨n, n⟩) {queue : List Queued} :
    ({ conn with forwards := conn.forwards.insert n task', active, queue } : Conn).Agrees
      ⟨runs, t.subscriptions.insert n ⟨⟨c, task.id⟩, n, stage, task.aborted⟩⟩ c where
  active := hactive
  inserting request attachment m hh := by
    have hne : n ≠ m := by
      rintro rfl
      exact h.not_making hf (by rw [hh]; rfl)
    exact (ExtTreeMap.getElem?_insert_of_ne hne).trans (h.inserting request attachment m hh)
  spawning request attachment m hh := by
    have hne : n ≠ m := by
      rintro rfl
      exact h.not_making hf (by rw [hh]; rfl)
    exact (ExtTreeMap.getElem?_insert_of_ne hne).trans (h.spawning request attachment m hh)
  forwards m task₁ hm := by
    rcases ExtTreeMap.getElem?_insert_some.mp hm with ⟨rfl, rfl⟩ | ⟨hne, hm⟩
    · exact ⟨stage, hat, by rw [hid, haborted]; exact ExtTreeMap.getElem?_insert_self⟩
    · obtain ⟨stage₁, hat₁, hsub₁⟩ := h.forwards m task₁ hm
      exact ⟨stage₁, hat₁, (ExtTreeMap.getElem?_insert_of_ne hne).trans hsub₁⟩
  known m sub hsub hkey := by
    by_cases hne : n = m
    · subst hne
      exact .inl (by simp)
    · have hsub : t.subscriptions[m]? = some sub :=
        (ExtTreeMap.getElem?_insert_of_ne hne).symm.trans hsub
      refine (h.known m sub hsub hkey).imp_left fun hf => ?_
      rwa [ExtTreeMap.getElem?_insert_of_ne hne]

/-- A task goes on where the table does not see it. -/
theorem Agrees.unseen (h : conn.Agrees t c) {task task' : Forward}
    (hf : conn.forwards[n]? = some task) {stage : Stage}
    (hsub : t.subscriptions[n]? = some ⟨⟨c, task.id⟩, n, stage, task.aborted⟩)
    (hat : StandsAt task' stage) (hid : task'.id = task.id)
    (haborted : task'.aborted = task.aborted) {queue : List Queued} :
    ({ conn with forwards := conn.forwards.insert n task', queue } : Conn).Agrees t c := by
  have hst : Agrees ⟨t.runs, t.subscriptions.insert n ⟨⟨c, task.id⟩, n, stage, task.aborted⟩⟩ c
      { conn with forwards := conn.forwards.insert n task', queue } :=
    h.task hf hat hid haborted h.active
  rwa [ExtTreeMap.insert_same hsub] at hst

/-- The same, where the table only has the forwarder go from one stage to another. -/
theorem Agrees.follows_task (h : conn.Agrees t c) (hn : t.Named)
    (hg : t.runs.nextGeneration = g) {task task' : Forward}
    (hf : conn.forwards[n]? = some task) {stage : Stage} (hat : StandsAt task' stage)
    (hid : task'.id = task.id) (haborted : task'.aborted = task.aborted)
    {runs : RunSubscriptions} {active : ExtTreeMap RunId Nat}
    (hactive : ∀ id : RunId, runs.active[SubscriptionKey.mk c id]? =
      active[id]?.map fun n => ⟨n, n⟩)
    (helse : ∀ key : SubscriptionKey, key.connectionId ≠ c →
      runs.active[key]? = t.runs.active[key]?)
    (hruns : runs.nextGeneration = t.runs.nextGeneration) {queue : List Queued} :
    Follows c g { conn with forwards := conn.forwards.insert n task', active, queue } t
      ⟨runs, t.subscriptions.insert n ⟨⟨c, task.id⟩, n, stage, task.aborted⟩⟩ where
  agrees := h.task hf hat hid haborted hactive
  elsewhere := by
    refine .insert rfl (fun old hold => ?_) helse
    obtain ⟨stage₀, -, hsub⟩ := h.forwards n task hf
    cases hsub.symm.trans hold
    rfl
  generation := hruns.trans hg
  named := hn.insert rfl

/-! ## Its subscriptions -/

/-- A forwarder is live exactly if it is the current one of its run. -/
theorem Agrees.live_iff (h : conn.Agrees t c) (hi : t.Inv) {sub : Subscription} {id : RunId}
    (hsub : t.subscriptions[n]? = some sub) :
    sub.key = ⟨c, id⟩ ∧ sub.Live ↔ conn.active[id]? = some n := by
  rw [← hi.entry_handle_iff hsub ⟨c, id⟩, h.active, Option.map_map]
  cases conn.active[id]? <;> simp

/-- The entries of some runs are withdrawn and their forwarders aborted. -/
theorem Agrees.removes (h : conn.Agrees t c) (hi : t.Inv) {p : SubscriptionKey → Bool}
    (hr : Table.Removes p t t')
    (hh : ∀ request attachment n, conn.handler ≠ .spawning request attachment n)
    {active : ExtTreeMap RunId Nat} {forwards : ExtTreeMap Nat Forward}
    (hactive : ∀ id : RunId, active[id]? = if p ⟨c, id⟩ then none else conn.active[id]?)
    (hforwards : ∀ n : Nat, forwards[n]? = conn.forwards[n]?.map fun task =>
      if p ⟨c, task.id⟩ ∧ conn.active[task.id]? = some n then { task with aborted := true }
      else task) :
    ({ conn with active, forwards } : Conn).Agrees t' c where
  active id := by
    rw [hr.active, hactive, h.active]
    split <;> rfl
  inserting request attachment m hm := by
    rw [hr.subscriptions, h.inserting request attachment m hm, Option.map_some,
      if_neg (fun hc => hc.2.1 rfl)]
  spawning request attachment m hm := absurd hm (hh _ _ _)
  forwards m task hm := by
    rw [hforwards, Option.map_eq_some_iff] at hm
    obtain ⟨task₀, hf, rfl⟩ := hm
    obtain ⟨stage, hat, hsub⟩ := h.forwards m task₀ hf
    have hlive : (Subscription.mk ⟨c, task₀.id⟩ m stage task₀.aborted).Live ↔
        conn.active[task₀.id]? = some m := (and_iff_right rfl).symm.trans (h.live_iff hi hsub)
    by_cases hc : p ⟨c, task₀.id⟩ ∧ conn.active[task₀.id]? = some m
    · rw [if_pos hc]
      refine ⟨stage, hat.abort, ?_⟩
      rw [hr.subscriptions, hsub, Option.map_some, if_pos ⟨hc.1, hlive.mpr hc.2⟩]
    · rw [if_neg hc]
      refine ⟨stage, hat, ?_⟩
      rw [hr.subscriptions, hsub, Option.map_some, if_neg (fun hp => hc ⟨hp.1, hlive.mp hp.2⟩)]
  known m sub hsub hkey := by
    obtain ⟨sub₀, hsub₀, hkey₀, -⟩ := hr.find hsub
    refine (h.known m sub₀ hsub₀ (hkey₀ ▸ hkey)).imp_left fun hf => ?_
    rw [hforwards]
    simpa using hf

theorem abort_eq (k : Option Nat) (conn : Conn) :
    conn.abort k = { conn with forwards := (conn.abort k).forwards } := by
  cases k <;> rfl

/-- The entry of one run is withdrawn: `unsubscribe`, and the first half of `insert`. -/
theorem Agrees.withdraw (h : conn.Agrees t c) (hi : t.Inv)
    (hh : ∀ request attachment n, conn.handler ≠ .spawning request attachment n) (id : RunId) :
    ({ conn with
        active := conn.active.erase id
        forwards := (conn.abort conn.active[id]?).forwards } : Conn).Agrees
      (t.unsubscribe ⟨c, id⟩).2 c := by
  refine h.removes hi (hi.unsubscribe_removes ⟨c, id⟩) hh (fun id' => ?_) fun m => ?_
  · by_cases hid : id = id'
    · subst hid; simp
    · simp [ExtTreeMap.getElem?_erase_of_ne hid, Ne.symm hid]
  · rw [abort_getElem?]
    cases hf : conn.forwards[m]? with
    | none => rfl
    | some task =>
      obtain ⟨stage, -, hsub⟩ := h.forwards m task hf
      -- the task under the entry of `id` is one of `id`
      have hiff : conn.active[id]? = some m ↔
          task.id = id ∧ conn.active[task.id]? = some m := by
        constructor
        · intro ha
          obtain ⟨hkey, hlive⟩ := (h.live_iff hi hsub).mpr ha
          exact ⟨(SubscriptionKey.mk.inj hkey).2, (h.live_iff hi hsub).mp ⟨rfl, hlive⟩⟩
        · rintro ⟨rfl, ha⟩
          exact ha
      simp only [Option.map_some, beq_iff_eq, SubscriptionKey.mk.injEq, true_and, hiff]

theorem Agrees.number (h : conn.Agrees t c) (hi : t.Inv) (hn : t.Named)
    {request : SubscribeRunRequest} {attachment : Attachment}
    (hh : conn.handler = .numbering request attachment) :
    ∃ t', t.step (.draw (t.runs.nextGeneration + 1) ⟨c, request.runId⟩) = some t' ∧
      Follows c (t.runs.nextGeneration + 1)
        { conn with
          handler := .inserting request attachment (t.runs.nextGeneration + 1) } t t' := by
  have hnew := hi.next_not_mem hn
  have hnone : t.subscriptions[t.runs.nextGeneration + 1]? = none :=
    ExtTreeMap.getElem?_eq_none hnew
  have hother : ∀ {m : Nat} {sub : Subscription}, t.subscriptions[m]? = some sub →
      t.runs.nextGeneration + 1 ≠ m := by
    rintro m sub hsub rfl
    cases hnone.symm.trans hsub
  refine ⟨⟨t.runs.drawGeneration.2, t.subscriptions.insert (t.runs.nextGeneration + 1)
      ⟨⟨c, request.runId⟩, t.runs.nextGeneration + 1, .drawn, false⟩⟩, if_neg hnew,
    ⟨h.active, ?_, ?_, ?_, ?_⟩,
    .insert rfl (fun old hold => absurd rfl (hother hold)) (fun _ _ => rfl), rfl, hn.insert rfl⟩
  · intro request' attachment' m hm
    cases hm
    exact ExtTreeMap.getElem?_insert_self
  · intro request' attachment' m hm
    cases hm
  · intro m task hf
    obtain ⟨stage, hat, hsub⟩ := h.forwards m task hf
    exact ⟨stage, hat, (ExtTreeMap.getElem?_insert_of_ne (hother hsub)).trans hsub⟩
  · intro m sub hsub hkey
    rcases ExtTreeMap.getElem?_insert_some.mp hsub with ⟨rfl, -⟩ | ⟨-, hsub⟩
    · exact .inr rfl
    · rcases h.known m sub hsub hkey with hf | hm
      · exact .inl hf
      · rw [hh] at hm
        cases hm

/-- The second half of `insert`, under a key that has no entry left. -/
theorem Agrees.store (h : conn.Agrees t c) {request : SubscribeRunRequest}
    {attachment : Attachment} (hh : conn.handler = .inserting request attachment n) :
    ({ conn with
        active := conn.active.insert request.runId n
        handler := .spawning request attachment n } : Conn).Agrees
      (t.store n ⟨⟨c, request.runId⟩, n, .drawn, false⟩) c where
  active id := by
    by_cases hid : request.runId = id
    · subst hid; simp [Table.store]
    · have hkey : SubscriptionKey.mk c request.runId ≠ ⟨c, id⟩ :=
        fun he => hid (SubscriptionKey.mk.inj he).2
      simpa [Table.store, ExtTreeMap.getElem?_insert_of_ne hid,
        ExtTreeMap.getElem?_insert_of_ne hkey] using h.active id
  inserting request' attachment' m hm := by cases hm
  spawning request' attachment' m hm := by
    cases hm
    exact ExtTreeMap.getElem?_insert_self
  forwards m task hf := by
    obtain ⟨stage, hat, hsub⟩ := h.forwards m task hf
    have hne : n ≠ m := by
      rintro rfl
      exact h.not_making hf (by rw [hh]; rfl)
    exact ⟨stage, hat, (ExtTreeMap.getElem?_insert_of_ne hne).trans hsub⟩
  known m sub hsub hkey := by
    rcases ExtTreeMap.getElem?_insert_some.mp hsub with ⟨rfl, -⟩ | ⟨hne, hsub⟩
    · exact .inr rfl
    · rcases h.known m sub hsub hkey with hf | hm
      · exact .inl hf
      · rw [hh] at hm
        exact absurd (Option.some.inj hm) hne

theorem Agrees.insert (h : conn.Agrees t c) (hi : t.Inv) (hn : t.Named)
    (hg : t.runs.nextGeneration = g) (hs : conn.insert = some conn') :
    ∃ ks t', exec Table.step t ks = some t' ∧ Follows c g conn' t t' := by
  unfold Conn.insert at hs
  split at hs
  · rename_i request attachment n hh
    cases hs
    have hsub := h.inserting request attachment n hh
    have hr := hi.unsubscribe_removes ⟨c, request.runId⟩
    have hw := h.withdraw hi (by simp [hh]) request.runId
    refine ⟨[.insert n], _, exec_single.mpr (hi.insert_eq hsub rfl), ?_, ?_, ?_, ?_⟩
    · rw [abort_eq]
      have hst := hw.store hh
      rwa [ExtTreeMap.insert_erase] at hst
    · have hkey : ∀ key, (key == SubscriptionKey.mk c request.runId) = true →
          key.connectionId = c := by
        intro key hk
        rw [beq_iff_eq.mp hk]
      refine (hr.elsewhere hkey).trans (.insert rfl (fun old hold => ?_) fun key hne => ?_)
      · obtain ⟨sub₀, hsub₀, hk₀, -⟩ := hr.find hold
        cases hsub₀.symm.trans hsub
        rw [hk₀]
      · refine ExtTreeMap.getElem?_insert_of_ne ?_
        rintro rfl
        exact hne rfl
    · exact hr.generation.trans hg
    · exact (hn.removes hr).insert rfl
  · cases hs

theorem Agrees.spawn (h : conn.Agrees t c) (hn : t.Named)
    (hg : t.runs.nextGeneration = g) (hs : conn.spawn = some conn') :
    ∃ ks t', exec Table.step t ks = some t' ∧ Follows c g conn' t t' := by
  unfold Conn.spawn at hs
  split at hs
  · rename_i request attachment n hh
    cases hs
    have hsub := h.spawning request attachment n hh
    refine ⟨[.spawn n], _, exec_single.mpr (Table.goto_eq hsub rfl), ⟨h.active, ?_, ?_, ?_, ?_⟩,
      .insert rfl (fun old hold => ?_) (fun _ _ => rfl), hg, hn.insert rfl⟩
    · intro request' attachment' m hm
      cases hm
    · intro request' attachment' m hm
      cases hm
    · intro m task hf
      rcases ExtTreeMap.getElem?_insert_some.mp hf with ⟨rfl, rfl⟩ | ⟨hne, hf⟩
      · exact ⟨.parked, ⟨rfl, rfl⟩, ExtTreeMap.getElem?_insert_self⟩
      · obtain ⟨stage, hat, hsub'⟩ := h.forwards m task hf
        exact ⟨stage, hat, (ExtTreeMap.getElem?_insert_of_ne hne).trans hsub'⟩
    · intro m sub hsub' hkey
      refine .inl ?_
      rcases ExtTreeMap.getElem?_insert_some.mp hsub' with ⟨rfl, -⟩ | ⟨hne, hsub'⟩
      · simp
      · rw [ExtTreeMap.getElem?_insert_of_ne hne]
        rcases h.known m sub hsub' hkey with hf | hm
        · exact hf
        · rw [hh] at hm
          exact absurd (Option.some.inj hm) hne
    · cases hold.symm.trans hsub
      rfl
  · cases hs

theorem Agrees.unsubscribe (h : conn.Agrees t c) (hi : t.Inv) (hn : t.Named)
    (hg : t.runs.nextGeneration = g) (hs : conn.unsubscribe = some conn') :
    ∃ ks t', exec Table.step t ks = some t' ∧ Follows c g conn' t t' := by
  unfold Conn.unsubscribe at hs
  split at hs
  · rename_i request hh
    cases hs
    have hr := hi.unsubscribe_removes ⟨c, request.runId⟩
    have hw := h.withdraw hi (by simp [hh]) request.runId
    refine ⟨[.unsubscribe ⟨c, request.runId⟩], _, rfl, ?_, hr.elsewhere fun key hk => ?_,
      hr.generation.trans hg, hn.removes hr⟩
    · rw [abort_eq]
      exact hw.handler (by rw [hh]; rfl) rfl
    · rw [beq_iff_eq.mp hk]
  · cases hs

theorem Agrees.disconnect (h : conn.Agrees t c) (hi : t.Inv) (hn : t.Named)
    (hg : t.runs.nextGeneration = g) (hs : conn.disconnect = some conn') :
    ∃ ks t', exec Table.step t ks = some t' ∧ Follows c g conn' t t' := by
  have hmaking : conn.handler.making = none ∧ conn' =
      { conn with
        connected := false
        handler := .idle
        active := ∅
        forwards := conn.forwards.map fun n task =>
          if conn.active[task.id]? = some n then { task with aborted := true } else task } := by
    unfold Conn.disconnect at hs
    split at hs
    · rename_i hh
      cases hs
      exact ⟨by rw [hh]; rfl, rfl⟩
    · rename_i hh
      cases hs
      exact ⟨by rw [hh]; rfl, rfl⟩
    · cases hs
  obtain ⟨hm, rfl⟩ := hmaking
  have hr := hi.disconnect_removes c
  refine ⟨[.disconnect c], _, rfl, ?_, hr.elsewhere fun key hk => beq_iff_eq.mp hk,
    hr.generation.trans hg, hn.removes hr⟩
  have hag : Conn.Agrees (t.disconnect c) c
      { conn with
        active := ∅
        forwards := conn.forwards.map fun n task =>
          if conn.active[task.id]? = some n then { task with aborted := true } else task } :=
    h.removes hi hr (making_of_handler hm).2 (fun id => by simp) (fun m => by simp)
  exact hag.handler hm rfl

/-! ## Its forwarders -/

theorem Agrees.wake (h : conn.Agrees t c) (hn : t.Named) (hg : t.runs.nextGeneration = g)
    (hs : conn.wake n = some conn') :
    ∃ ks t', exec Table.step t ks = some t' ∧ Follows c g conn' t t' := by
  unfold Conn.wake at hs
  split at hs
  · rename_i task hf
    split at hs
    · cases hs
    · rename_i hc
      cases hs
      simp only [Bool.or_eq_true, not_or, Bool.not_eq_true] at hc
      obtain ⟨stage, hat, hsub⟩ := h.forwards n task hf
      obtain rfl := hat.parked hc.1.2 hc.2
      have hat' : StandsAt { task with polling := true } .polling := ⟨rfl, hc.2⟩
      have hflag : ¬ t.subscriptions[n]?.any Subscription.aborted = true := by
        simp [hsub, hc.1.1]
      exact ⟨[.poll n], _, exec_single.mpr ((if_neg hflag).trans (Table.goto_eq hsub rfl)),
        h.follows_task hn hg hf hat' rfl rfl h.active (fun _ _ => rfl) rfl⟩
  · cases hs

/-- A step of a forwarder ends it, or the table does not see it. -/
theorem Agrees.forward (h : conn.Agrees t c) (hn : t.Named) (hg : t.runs.nextGeneration = g)
    (hs : conn.forward r n = some (r', conn')) :
    ∃ ks t', exec Table.step t ks = some t' ∧ Follows c g conn' t t' := by
  unfold Conn.forward at hs
  split at hs
  · rename_i task hf
    split at hs
    · rename_i hc
      split at hs
      · rename_i stepped hok
        cases hs
        have hp : task.polling = true := (Bool.and_eq_true_iff.mp hc).1
        obtain ⟨stage, hat, hsub⟩ := h.forwards n task hf
        have hstage := hat.polled hp
        rw [forward_not_ended hok] at hstage
        obtain rfl : stage = .polling := hstage
        by_cases he : ended { task with forwarder := stepped.forwarder } = true
        · have hat' : StandsAt { task with forwarder := stepped.forwarder } .finished := ⟨hp, he⟩
          exact ⟨[.finish n], _, exec_single.mpr (Table.goto_eq hsub rfl),
            h.follows_task hn hg hf hat' rfl rfl h.active (fun _ _ => rfl) rfl⟩
        · have hat' : StandsAt { task with forwarder := stepped.forwarder } .polling :=
            ⟨hp, Bool.not_eq_true _ ▸ he⟩
          exact (h.unseen hf hsub hat' rfl rfl).stays hn hg
      · cases hs
    · cases hs
  · cases hs

/-- A task that suspends is not over. -/
theorem parks_not_ended {store : Store} {task : Forward} (h : task.parks store = true) :
    ended task = false := by
  unfold ended
  split
  · rename_i hp
    simp [Forward.parks, hp] at h
  · rfl

theorem Agrees.suspend (h : conn.Agrees t c) (hn : t.Named) (hg : t.runs.nextGeneration = g)
    (hs : conn.suspend r n = some conn') :
    ∃ ks t', exec Table.step t ks = some t' ∧ Follows c g conn' t t' := by
  unfold Conn.suspend at hs
  split at hs
  · rename_i task hf
    split at hs
    · rename_i hc
      cases hs
      obtain ⟨hp, hparks⟩ := Bool.and_eq_true_iff.mp hc
      have he := parks_not_ended hparks
      obtain ⟨stage, hat, hsub⟩ := h.forwards n task hf
      have hstage := hat.polled hp
      rw [he] at hstage
      obtain rfl : stage = .polling := hstage
      have hat' : StandsAt { task with polling := false } .parked := ⟨rfl, he⟩
      exact ⟨[.park n], _, exec_single.mpr (Table.goto_eq hsub rfl),
        h.follows_task hn hg hf hat' rfl rfl h.active (fun _ _ => rfl) rfl⟩
    · cases hs
  · cases hs

theorem close_ended (store : Store) (task : Forward) :
    ended { task with forwarder := (Forwarder.close store task.id task.forwarder).forwarder } =
      true := by
  unfold ended Forwarder.close
  cases hp : task.forwarder.phase <;> simp [hp]

/-- The drop of an aborted forwarder; one that has ended by itself is not dropped again. -/
theorem Agrees.reap (h : conn.Agrees t c) (hn : t.Named) (hg : t.runs.nextGeneration = g)
    (hs : conn.reap r n = some (r', conn')) :
    ∃ ks t', exec Table.step t ks = some t' ∧ Follows c g conn' t t' := by
  unfold Conn.reap at hs
  split at hs
  · rename_i task hf
    split at hs
    · rename_i hc
      cases hs
      simp only [Bool.and_eq_true, Bool.not_eq_true'] at hc
      obtain ⟨haborted, hp⟩ := hc
      obtain ⟨stage, hat, hsub⟩ := h.forwards n task hf
      have hclosed := close_ended r.store task
      by_cases he : ended task = false
      · obtain rfl := hat.parked hp he
        have hat' : StandsAt { task with
            forwarder := (Forwarder.close r.store task.id task.forwarder).forwarder } .dropped :=
          ⟨hp, hclosed, haborted⟩
        have hflag : t.subscriptions[n]?.any Subscription.aborted = true := by
          simp [hsub, haborted]
        exact ⟨[.drop n], _, exec_single.mpr ((if_pos hflag).trans (Table.goto_eq hsub rfl)),
          h.follows_task hn hg hf hat' rfl rfl h.active (fun _ _ => rfl) rfl⟩
      · have hat' : StandsAt { task with
            forwarder := (Forwarder.close r.store task.id task.forwarder).forwarder } stage := by
          cases stage with
          | cleaned => exact ⟨hp, hclosed⟩
          | dropped => exact ⟨hp, hclosed, haborted⟩
          | _ => simp_all [StandsAt]
        exact (h.unseen hf hsub hat' rfl rfl).stays hn hg
    · cases hs
  · cases hs

theorem Agrees.removeIfCurrent (h : conn.Agrees t c) (hn : t.Named)
    (hg : t.runs.nextGeneration = g) (hs : conn.removeIfCurrent n = some conn') :
    ∃ ks t', exec Table.step t ks = some t' ∧ Follows c g conn' t t' := by
  unfold Conn.removeIfCurrent at hs
  split at hs
  · rename_i task hf
    split at hs
    · rename_i hc
      cases hs
      obtain ⟨hp, he⟩ := Bool.and_eq_true_iff.mp hc
      obtain ⟨stage, hat, hsub⟩ := h.forwards n task hf
      have hstage := hat.polled hp
      rw [he] at hstage
      obtain rfl : stage = .finished := hstage
      have hat' : StandsAt { task with polling := false } .cleaned := ⟨rfl, he⟩
      have hactive : ∀ id : RunId,
          (t.runs.removeIfCurrent ⟨c, task.id⟩ n).active[SubscriptionKey.mk c id]? =
            (if conn.active[task.id]? = some n then conn.active.erase task.id
              else conn.active)[id]?.map fun n => ⟨n, n⟩ := by
        intro id
        rw [Table.removeIfCurrent_active, h.active task.id, h.active id]
        by_cases hcur : conn.active[task.id]? = some n
        · by_cases hid : task.id = id
          · subst hid; simp [hcur]
          · simp [hcur, Ne.symm hid, ExtTreeMap.getElem?_erase_of_ne hid]
        · have hany : (conn.active[task.id]?.map fun n => (⟨n, n⟩ : Entry)).any
              (·.generation == n) = false := by
            cases ha : conn.active[task.id]? with
            | none => rfl
            | some m =>
              have hne : m ≠ n := fun he => hcur (ha.trans (congrArg some he))
              simpa using hne
          simp [hcur, hany]
      refine ⟨[.cleanup n], _, exec_single.mpr ?_,
        h.follows_task hn hg hf hat' rfl rfl hactive (fun key hkey => ?_) ?_⟩
      · simp only [Table.step, Table.cleanup, hsub, if_true]
      · rw [Table.removeIfCurrent_active, if_neg]
        rintro ⟨rfl, -⟩
        exact hkey rfl
      · unfold RunSubscriptions.removeIfCurrent
        split <;> rfl
    · cases hs
  · cases hs

/-- A handler goes on that has no subscription in the making. -/
theorem Agrees.follows_handler (h : conn.Agrees t c) (hn : t.Named)
    (hg : t.runs.nextGeneration = g) {handler : Handler} {queue : List Queued}
    (hm : conn.handler.making = none) (hm' : handler.making = none) :
    ∃ ks t', exec Table.step t ks = some t' ∧
      Follows c g { conn with handler, queue } t t' :=
  (h.handler hm hm').stays hn hg

/-- **Step lemma**: what a connection does is a run of the table. -/
theorem Agrees.connStep {a : Act} (h : conn.Agrees t c) (hi : t.Inv) (hn : t.Named)
    (hg : t.runs.nextGeneration = g)
    (hs : Server.connStep r g conn a = some (r', g', conn')) :
    ∃ ks t', exec Table.step t ks = some t' ∧ Follows c g' conn' t t' := by
  have hm : Moves r g conn a r' g' conn' := connStep_moves hs
  cases hm with
  | subscribe request hh => exact h.follows_handler hn hg (by rw [hh]; rfl) rfl
  | unsubscribe request hh => exact h.follows_handler hn hg (by rw [hh]; rfl) rfl
  | attach request attachment store hh => exact h.follows_handler hn hg (by rw [hh]; rfl) rfl
  | refuse request e hh => exact h.follows_handler hn hg (by rw [hh]; rfl) rfl
  | number request attachment hh =>
    obtain ⟨t', ht', hf⟩ := h.number hi hn hh
    rw [hg] at hf
    exact ⟨[_], t', exec_single.mpr ht', hf⟩
  | insert request attachment n hh =>
    obtain ⟨conn₁, hs, heq⟩ := Option.map_eq_some_iff.mp hs
    cases heq
    exact h.insert hi hn hg hs
  | spawn request attachment n hh =>
    obtain ⟨conn₁, hs, heq⟩ := Option.map_eq_some_iff.mp hs
    cases heq
    exact h.spawn hn hg hs
  | remove request response hh =>
    obtain ⟨conn₁, hs, heq⟩ := Option.map_eq_some_iff.mp hs
    cases heq
    exact h.unsubscribe hi hn hg hs
  | respond response hh => exact h.follows_handler hn hg (by rw [hh]; rfl) rfl
  | disconnect hh =>
    obtain ⟨conn₁, hs, heq⟩ := Option.map_eq_some_iff.mp hs
    cases heq
    exact h.disconnect hi hn hg hs
  | wake n task hf =>
    obtain ⟨conn₁, hs, heq⟩ := Option.map_eq_some_iff.mp hs
    cases heq
    exact h.wake hn hg hs
  | forward n task stepped hf =>
    obtain ⟨⟨r₁, conn₁⟩, hs, heq⟩ := Option.map_eq_some_iff.mp hs
    cases heq
    exact h.forward hn hg hs
  | suspend n task hf =>
    obtain ⟨conn₁, hs, heq⟩ := Option.map_eq_some_iff.mp hs
    cases heq
    exact h.suspend hn hg hs
  | reap n task hf =>
    obtain ⟨⟨r₁, conn₁⟩, hs, heq⟩ := Option.map_eq_some_iff.mp hs
    cases heq
    exact h.reap hn hg hs
  | removeIfCurrent n task hf =>
    obtain ⟨conn₁, hs, heq⟩ := Option.map_eq_some_iff.mp hs
    cases heq
    exact h.removeIfCurrent hn hg hs

end Conn

/-! ## The server -/

namespace Server

variable {P : Type} {toValue : P → Except String Value} {s s' : Server} {t : Table}

/-- The table of the server, with what each connection has in it. -/
structure Agrees (s : Server) (t : Table) : Prop where
  inv : t.Inv
  named : t.Named
  generation : t.runs.nextGeneration = s.nextGeneration
  conns : ∀ (c : Nat) (conn : Conn), s.conns[c]? = some conn → conn.Agrees t c
  absent : ∀ c : Nat, s.conns[c]? = none → ∀ (k : Nat) (sub : Subscription),
    t.subscriptions[k]? = some sub → sub.key.connectionId ≠ c

theorem agrees_init : init.Agrees .init := by
  refine ⟨Table.inv_init, fun k sub hsub => ?_, rfl, fun c conn hc => ?_, fun c _ k sub hsub => ?_⟩
  · simp [Table.init] at hsub
  · simp [init] at hc
  · simp [Table.init] at hsub

theorem Agrees.connect (h : s.Agrees t) {c : Nat} (hc : s.conns[c]? = none) :
    Agrees { s with conns := s.conns.insert c .init } t where
  inv := h.inv
  named := h.named
  generation := h.generation
  conns c' conn hc' := by
    rcases ExtTreeMap.getElem?_insert_some.mp hc' with ⟨rfl, rfl⟩ | ⟨-, hc'⟩
    · refine ⟨fun id => ?_, nofun, nofun, fun n task hf => ?_, fun n sub hsub hkey => ?_⟩
      · cases hentry : t.runs.active[SubscriptionKey.mk c id]? with
        | none => simp [Conn.init]
        | some entry =>
          obtain ⟨sub, hsub, -, hkey, -⟩ := h.inv.entry _ entry hentry
          exact absurd (congrArg SubscriptionKey.connectionId hkey) (h.absent c hc _ sub hsub)
      · simp [Conn.init] at hf
      · exact absurd hkey (h.absent c hc n sub hsub)
    · exact h.conns c' conn hc'
  absent c' hc' k sub hsub := by
    refine h.absent c' ?_ k sub hsub
    by_cases hcc : c = c'
    · subst hcc; exact hc
    · rwa [ExtTreeMap.getElem?_insert_of_ne hcc] at hc'

/-- A connection that takes a step, and the table with it. -/
theorem Agrees.conn (h : s.Agrees t) {c g : Nat} {conn : Conn} {registry : Registry} {t' : Table}
    (hi : t'.Inv) (hf : Conn.Follows c g conn t t') :
    Agrees ⟨registry, g, s.conns.insert c conn⟩ t' where
  inv := hi
  named := hf.named
  generation := hf.generation
  conns c' conn' hc' := by
    rcases ExtTreeMap.getElem?_insert_some.mp hc' with ⟨rfl, rfl⟩ | ⟨hne, hc'⟩
    · exact hf.agrees
    · exact (h.conns c' conn' hc').elsewhere hf.elsewhere (Ne.symm hne)
  absent c' hc' k sub hsub := by
    have hne : c ≠ c' := by
      rintro rfl
      simp at hc'
    rw [ExtTreeMap.getElem?_insert_of_ne hne] at hc'
    by_cases hkey : sub.key.connectionId = c
    · exact fun he => hne (hkey.symm.trans he)
    · exact h.absent c' hc' k sub ((hf.elsewhere.subscriptions k sub hkey).mp hsub)

/-- **Simulation**: a step of the server is a run of its table. -/
theorem Agrees.step {a : Act P} (h : s.Agrees t) (hs : s.step toValue a = some s') :
    ∃ ks t', exec Table.step t ks = some t' ∧ s'.Agrees t' := by
  cases a with
  | connect c =>
    obtain ⟨hc, rfl⟩ := connect_cases hs
    exact ⟨[], t, rfl, h.connect hc⟩
  | conn c a =>
    simp only [Server.step] at hs
    split at hs
    · rename_i conn hc
      obtain ⟨⟨r', g', conn'⟩, hstep, rfl⟩ := Option.map_eq_some_iff.mp hs
      obtain ⟨ks, t', hk, hf⟩ := (h.conns c conn hc).connStep h.inv h.named h.generation hstep
      have hi : t'.Inv := exec_inv' (fun _ _ _ hi hs => Table.Inv.step hi hs) h.inv hk
      exact ⟨ks, t', hk, h.conn hi hf⟩
    · cases hs
  | registry a =>
    obtain ⟨registry, -, rfl⟩ := Option.map_eq_some_iff.mp hs
    exact ⟨[], t, rfl, h.inv, h.named, h.generation, h.conns, h.absent⟩

/-- Every run of the server is a run of its table. -/
theorem agrees_exec {acts : List (Act P)} (h : exec (step toValue) init acts = some s) :
    ∃ ks t, exec Table.step .init ks = some t ∧ s.Agrees t :=
  exec_simulates (R := Agrees) (fun _ _ _ _ hR hs => hR.step hs) agrees_init h

/-- **The entries of a connection**, in every run of the server: they are those of the live
forwarders, each under its own run, and of the handler that is about to spawn one. -/
theorem active_iff_lives {acts : List (Act P)} (h : exec (step toValue) init acts = some s)
    {c : Nat} {conn : Conn} (hc : s.conns[c]? = some conn) (id : RunId) (n : Nat) :
    conn.active[id]? = some n ↔
      (∃ request attachment, conn.handler = .spawning request attachment n ∧
        request.runId = id) ∨
      ∃ task, conn.forwards[n]? = some task ∧ task.id = id ∧ Lives task := by
  obtain ⟨ks, t, -, hag⟩ := agrees_exec h
  have hconn := hag.conns c conn hc
  constructor
  · intro ha
    have hentry : t.runs.active[SubscriptionKey.mk c id]? = some ⟨n, n⟩ := by
      rw [hconn.active, ha]
      rfl
    obtain ⟨sub, hsub, hlive, hkey, -⟩ := hag.inv.entry _ _ hentry
    rcases hconn.known n sub hsub (by rw [hkey]) with hf | hm
    · obtain ⟨task, hf⟩ := Option.ne_none_iff_exists'.mp hf
      obtain ⟨stage, hat, hsub'⟩ := hconn.forwards n task hf
      cases hsub.symm.trans hsub'
      exact .inr ⟨task, hf, (SubscriptionKey.mk.inj hkey).2, hat.lives.mp hlive⟩
    · refine .inl ?_
      unfold Handler.making at hm
      split at hm
      · rename_i request attachment m hh
        cases hm
        cases hsub.symm.trans (hconn.inserting request attachment _ hh)
        exact absurd rfl hlive.1
      · rename_i request attachment m hh
        cases hm
        cases hsub.symm.trans (hconn.spawning request attachment _ hh)
        exact ⟨request, attachment, hh, (SubscriptionKey.mk.inj hkey).2⟩
      · cases hm
  · rintro (⟨request, attachment, hh, rfl⟩ | ⟨task, hf, rfl, hlives⟩)
    · exact (hconn.live_iff hag.inv (hconn.spawning request attachment n hh)).mp
        ⟨rfl, nofun, nofun, rfl⟩
    · obtain ⟨stage, hat, hsub⟩ := hconn.forwards n task hf
      exact (hconn.live_iff hag.inv hsub).mp ⟨rfl, hat.lives.mpr hlives⟩

theorem active_iff_lives_subscribedTwice :
    ∃ (s : Server) (conn : Conn),
      exec (step fun _ => .ok .null) init subscribedTwice = some s ∧ s.conns[0]? = some conn ∧
      (∃ task, conn.forwards[2]? = some task ∧ task.id = ⟨"r"⟩ ∧ Lives task) ∧
      ¬ ∃ task, conn.forwards[1]? = some task ∧ task.id = ⟨"r"⟩ ∧ Lives task := by
  have h : ((exec (step fun _ => .ok .null) init subscribedTwice).bind fun s =>
      s.conns[0]?.map fun conn => (conn.active[RunId.mk "r"]?, conn.handler.making)) =
      some (some 2, none) := by decide +kernel
  obtain ⟨s, hs, h⟩ := Option.bind_eq_some_iff.1 h
  obtain ⟨conn, hc, h⟩ := Option.map_eq_some_iff.1 h
  obtain ⟨hactive, hmaking⟩ := Prod.mk.inj h
  have hnot : ∀ request attachment n, conn.handler ≠ .spawning request attachment n :=
    fun _ _ _ he => by rw [he] at hmaking; cases hmaking
  refine ⟨s, conn, hs, hc, ?_, fun hf => ?_⟩
  · obtain ⟨_, _, hh, -⟩ | hf := (active_iff_lives hs hc ⟨"r"⟩ 2).1 hactive
    · exact absurd hh (hnot _ _ _)
    · exact hf
  · cases hactive.symm.trans ((active_iff_lives hs hc ⟨"r"⟩ 1).2 (.inr hf))

end Server

end AgencyProxy.WebSocket
