import AgencyProxy.Lts
import AgencyProxy.Maps
import AgencyProxy.Protocol

/-!
# The subscription table

`RunSubscriptions` of `web.rs` under any number of `SubscribeRun` handlers, of any connections,
each of them free to stop between drawing its generation, inserting its handle and spawning its
forwarder. An entry holds a generation and an `AbortHandle`; the handle is the name of the
forwarder it aborts, which has nothing to do with the generation drawn for it.

`unsubscribe` and `disconnect` release the lock before they abort what they removed. All handlers
run on the server's one thread, so only a forwarder that cleans up can come in between, and it
finds the table as it will be: a step here is the whole call.
-/

namespace AgencyProxy.WebSocket

open Std Lts

structure SubscriptionKey where
  connectionId : Nat
  runId : RunId
  deriving DecidableEq, Repr

namespace SubscriptionKey

instance : Ord SubscriptionKey :=
  ⟨compareLex (compareOn SubscriptionKey.connectionId) (compareOn SubscriptionKey.runId)⟩

instance : TransOrd SubscriptionKey :=
  inferInstanceAs (TransCmp
    (compareLex (compareOn SubscriptionKey.connectionId) (compareOn SubscriptionKey.runId)))

instance : LawfulEqOrd SubscriptionKey where
  eq_of_compare {a b} h := by
    obtain ⟨hc, hr⟩ := compareLex_eq_eq.mp h
    have hconn : a.connectionId = b.connectionId := LawfulEqOrd.eq_of_compare hc
    have hrun : a.runId = b.runId := LawfulEqOrd.eq_of_compare hr
    cases a; cases b; cases hconn; cases hrun; rfl

end SubscriptionKey

/-! ## The table -/

/-- An entry of `active`: the generation, and the forwarder that the `AbortHandle` stops. -/
structure Entry where
  generation : Nat
  handle : Nat
  deriving DecidableEq, Repr

structure RunSubscriptions where
  active : ExtTreeMap SubscriptionKey Entry
  nextGeneration : Nat

namespace RunSubscriptions

def default : RunSubscriptions := ⟨∅, 0⟩

/-- `next_generation`: `fetch_add(1) + 1`. -/
def drawGeneration (s : RunSubscriptions) : Nat × RunSubscriptions :=
  (s.nextGeneration + 1, { s with nextGeneration := s.nextGeneration + 1 })

/-- `insert`: the table, and the handle it aborts. -/
def insert (s : RunSubscriptions) (key : SubscriptionKey) (generation handle : Nat) :
    RunSubscriptions × Option Nat :=
  ({ s with active := s.active.insert key ⟨generation, handle⟩ }, s.active[key]?.map Entry.handle)

def removeIfCurrent (s : RunSubscriptions) (key : SubscriptionKey) (generation : Nat) :
    RunSubscriptions :=
  if s.active[key]?.any fun entry => entry.generation == generation then
    { s with active := s.active.erase key }
  else s

/-- `unsubscribe`: the table, and the handle it aborts; the answer is whether there is one. -/
def unsubscribe (s : RunSubscriptions) (key : SubscriptionKey) : RunSubscriptions × Option Nat :=
  ({ s with active := s.active.erase key }, s.active[key]?.map Entry.handle)

/-- `disconnect`: the table, and the handles it aborts. -/
def disconnect (s : RunSubscriptions) (connectionId : Nat) : RunSubscriptions × List Nat :=
  let removed := s.active.filter fun key _ => key.connectionId == connectionId
  ({ s with active := s.active.filter fun key _ => !(key.connectionId == connectionId) },
    removed.toList.map fun p => p.2.handle)

end RunSubscriptions

/-! ## Handlers and forwarders -/

/-- How far a `SubscribeRun` call and the forwarder it starts have come. -/
inductive Stage where
  /-- The generation is drawn; before `subscriptions.insert`. -/
  | drawn
  /-- Before `registry.spawn`. -/
  | inserted
  /-- Spawned, and suspended. -/
  | parked
  | polling
  /-- `forward_run_events` has returned; before `remove_if_current`. -/
  | finished
  | cleaned
  /-- Dropped by the abort, without its cleanup. -/
  | dropped
  deriving DecidableEq, Repr

structure Subscription where
  key : SubscriptionKey
  generation : Nat
  stage : Stage
  aborted : Bool

/-- Inserted, not aborted, and its cleanup has not run. -/
def Subscription.Live (sub : Subscription) : Prop :=
  sub.stage ≠ .drawn ∧ sub.stage ≠ .cleaned ∧ sub.aborted = false

instance (sub : Subscription) : Decidable sub.Live :=
  inferInstanceAs (Decidable (_ ∧ _ ∧ _))

/-- The table and every subscription there has been, each under its handle. -/
structure Table where
  runs : RunSubscriptions
  subscriptions : ExtTreeMap Nat Subscription

namespace Table

def init : Table := ⟨.default, ∅⟩

inductive Act where
  /-- A handler past its attach draws the generation; `k` is the handle it goes on to make. -/
  | draw (k : Nat) (key : SubscriptionKey)
  | insert (k : Nat)
  | spawn (k : Nat)
  | poll (k : Nat)
  | park (k : Nat)
  | finish (k : Nat)
  /-- `remove_if_current`, in the poll that finished. -/
  | cleanup (k : Nat)
  /-- An aborted forwarder is dropped where it is suspended. -/
  | drop (k : Nat)
  | unsubscribe (key : SubscriptionKey)
  | disconnect (connectionId : Nat)
  deriving DecidableEq, Repr

/-- `AbortHandle::abort` -/
def abort (s : Table) (k : Nat) : Table :=
  { s with subscriptions := s.subscriptions.modify k fun sub => { sub with aborted := true } }

/-- A subscription goes on to another stage, if it is where `from` says. -/
def goto (s : Table) (k : Nat) (before after : Stage) : Option Table :=
  match s.subscriptions[k]? with
  | some sub =>
    if sub.stage = before then
      some { s with subscriptions := s.subscriptions.insert k { sub with stage := after } }
    else none
  | none => none

def draw (s : Table) (k : Nat) (key : SubscriptionKey) : Option Table :=
  if k ∈ s.subscriptions then none
  else
    let (generation, runs) := s.runs.drawGeneration
    some ⟨runs, s.subscriptions.insert k ⟨key, generation, .drawn, false⟩⟩

def insert (s : Table) (k : Nat) : Option Table :=
  match s.subscriptions[k]? with
  | some sub =>
    if sub.stage = .drawn then
      let (runs, previous) := s.runs.insert sub.key sub.generation k
      let inserted : Table :=
        ⟨runs, s.subscriptions.insert k { sub with stage := .inserted }⟩
      some (previous.elim inserted inserted.abort)
    else none
  | none => none

/-- `Abortable` looks at the flag before it polls. -/
def poll (s : Table) (k : Nat) : Option Table :=
  if s.subscriptions[k]?.any Subscription.aborted then none else s.goto k .parked .polling

def cleanup (s : Table) (k : Nat) : Option Table :=
  match s.subscriptions[k]? with
  | some sub =>
    if sub.stage = .finished then
      some ⟨s.runs.removeIfCurrent sub.key sub.generation,
        s.subscriptions.insert k { sub with stage := .cleaned }⟩
    else none
  | none => none

def drop (s : Table) (k : Nat) : Option Table :=
  if s.subscriptions[k]?.any Subscription.aborted then s.goto k .parked .dropped else none

/-- `MethodUnsubscribeRun::handle`: the answer `removed`, and what it leaves. -/
def unsubscribe (s : Table) (key : SubscriptionKey) : Bool × Table :=
  let (runs, removed) := s.runs.unsubscribe key
  let left : Table := { s with runs }
  (removed.isSome, removed.elim left left.abort)

def disconnect (s : Table) (connectionId : Nat) : Table :=
  let (runs, removed) := s.runs.disconnect connectionId
  removed.foldl abort { s with runs }

def step (s : Table) : Act → Option Table
  | .draw k key => s.draw k key
  | .insert k => s.insert k
  | .spawn k => s.goto k .inserted .parked
  | .poll k => s.poll k
  | .park k => s.goto k .polling .parked
  | .finish k => s.goto k .polling .finished
  | .cleanup k => s.cleanup k
  | .drop k => s.drop k
  | .unsubscribe key => some (s.unsubscribe key).2
  | .disconnect connectionId => some (s.disconnect connectionId)

/-! ## The table is the live forwarders -/

/-- Generations tell subscriptions apart. -/
structure Numbered (s : Table) : Prop where
  fresh : ∀ (k : Nat) (sub : Subscription), s.subscriptions[k]? = some sub →
    sub.generation ≤ s.runs.nextGeneration
  distinct : ∀ (k k' : Nat) (sub sub' : Subscription), s.subscriptions[k]? = some sub →
    s.subscriptions[k']? = some sub' → sub.generation = sub'.generation → k = k'

/-- The entries are those of the live forwarders. -/
structure Inv (s : Table) : Prop where
  numbered : s.Numbered
  entry : ∀ (key : SubscriptionKey) (entry : Entry), s.runs.active[key]? = some entry →
    ∃ sub, s.subscriptions[entry.handle]? = some sub ∧ sub.Live ∧ sub.key = key ∧
      sub.generation = entry.generation
  live : ∀ (k : Nat) (sub : Subscription), s.subscriptions[k]? = some sub → sub.Live →
    s.runs.active[sub.key]? = some ⟨sub.generation, k⟩
  /-- A handle that is not in the table yet has not been aborted. -/
  drawn : ∀ (k : Nat) (sub : Subscription), s.subscriptions[k]? = some sub →
    sub.stage = .drawn → sub.aborted = false

theorem inv_init : init.Inv := by
  refine ⟨⟨?_, ?_⟩, ?_, ?_, ?_⟩ <;> simp [init, RunSubscriptions.default]

variable {s s' : Table} {k : Nat} {sub : Subscription}

theorem abort_subscriptions {k' : Nat} : (s.abort k).subscriptions[k']? =
    s.subscriptions[k']?.map fun sub =>
      if k = k' then { sub with aborted := true } else sub := by
  simp only [abort, ExtTreeMap.getElem?_modify]
  by_cases hk : k = k'
  · subst hk; simp
  · simp [hk]

@[simp] theorem abort_runs : (s.abort k).runs = s.runs := rfl

theorem foldl_abort_runs (handles : List Nat) : (handles.foldl abort s).runs = s.runs := by
  induction handles generalizing s with
  | nil => rfl
  | cons k handles ih => rw [List.foldl_cons, ih, abort_runs]

/-- Aborting a list of handles sets the flag of each of them, and no other. -/
theorem foldl_abort_subscriptions (handles : List Nat) {k' : Nat} :
    (handles.foldl abort s).subscriptions[k']? = s.subscriptions[k']?.map fun sub =>
      if k' ∈ handles then { sub with aborted := true } else sub := by
  induction handles generalizing s with
  | nil => simp
  | cons k handles ih =>
    rw [List.foldl_cons, ih, abort_subscriptions, Option.map_map]
    congr 1
    funext sub
    by_cases hk : k = k'
    · subst hk
      by_cases hmem : k ∈ handles <;> simp [hmem]
    · by_cases hmem : k' ∈ handles <;> simp [hk, hmem, Ne.symm hk]

/-- The entries under the keys of `p` are gone, and the live forwarders under them aborted. -/
structure Removes (p : SubscriptionKey → Bool) (s s' : Table) : Prop where
  generation : s'.runs.nextGeneration = s.runs.nextGeneration
  active : ∀ key : SubscriptionKey, s'.runs.active[key]? =
    if p key then none else s.runs.active[key]?
  subscriptions : ∀ k : Nat, s'.subscriptions[k]? = s.subscriptions[k]?.map fun sub =>
    if p sub.key ∧ sub.Live then { sub with aborted := true } else sub

/-- The entry under a key is of handle `k` exactly if `k` is live there. -/
theorem Inv.entry_handle_iff (h : s.Inv) (hsub : s.subscriptions[k]? = some sub)
    (key : SubscriptionKey) :
    (s.runs.active[key]?.map Entry.handle = some k) ↔ sub.key = key ∧ sub.Live := by
  constructor
  · intro hhandle
    obtain ⟨entry, hentry, rfl⟩ := Option.map_eq_some_iff.mp hhandle
    obtain ⟨sub', hsub', hlive, hkey, -⟩ := h.entry key entry hentry
    cases hsub.symm.trans hsub'
    exact ⟨hkey, hlive⟩
  · rintro ⟨rfl, hlive⟩
    rw [h.live k sub hsub hlive]
    rfl

theorem Inv.unsubscribe_removes (h : s.Inv) (key : SubscriptionKey) :
    Removes (· == key) s (s.unsubscribe key).2 := by
  have hruns : (s.unsubscribe key).2.runs = { s.runs with active := s.runs.active.erase key } := by
    simp only [unsubscribe, RunSubscriptions.unsubscribe]
    cases s.runs.active[key]?.map Entry.handle <;> rfl
  refine ⟨by rw [hruns], fun key' => ?_, fun k => ?_⟩
  · rw [hruns]
    by_cases hkey : key' = key
    · subst hkey; simp
    · simp [hkey, ExtTreeMap.getElem?_erase_of_ne (Ne.symm hkey)]
  · simp only [unsubscribe, RunSubscriptions.unsubscribe]
    cases hsub : s.subscriptions[k]? with
    | none =>
      cases s.runs.active[key]?.map Entry.handle with
      | none => simpa using hsub
      | some prev => simp [abort_subscriptions, hsub]
    | some sub =>
      have hiff := h.entry_handle_iff hsub key
      cases hprev : s.runs.active[key]?.map Entry.handle with
      | none =>
        have hnot : ¬ (sub.key = key ∧ sub.Live) := by
          rw [← hiff, hprev]
          exact nofun
        simp [hsub, hnot]
      | some prev =>
        rw [hprev, Option.some.injEq] at hiff
        simp [abort_subscriptions, hsub, hiff]

theorem Inv.disconnect_removes (h : s.Inv) (c : Nat) :
    Removes (fun key => key.connectionId == c) s (s.disconnect c) := by
  refine ⟨?_, fun key => ?_, fun k => ?_⟩
  · simp only [disconnect, foldl_abort_runs, RunSubscriptions.disconnect]
  · simp only [disconnect, foldl_abort_runs, RunSubscriptions.disconnect,
      ExtTreeMap.getElem?_filter']
    cases s.runs.active[key]? with
    | none => simp
    | some entry => by_cases hc : key.connectionId = c <;> simp [hc, Option.filter]
  · have hmem : ∀ sub, s.subscriptions[k]? = some sub →
        (k ∈ (s.runs.disconnect c).2 ↔ (sub.key.connectionId == c) = true ∧ sub.Live) := by
      intro sub hsub
      simp only [RunSubscriptions.disconnect, List.mem_map, Prod.exists,
        ExtTreeMap.mem_toList_iff_getElem?_eq_some, ExtTreeMap.getElem?_filter',
        Option.filter_eq_some_iff]
      constructor
      · rintro ⟨key, entry, ⟨hentry, hc⟩, rfl⟩
        obtain ⟨rfl, hlive⟩ := (h.entry_handle_iff hsub key).mp (by rw [hentry]; rfl)
        exact ⟨hc, hlive⟩
      · rintro ⟨hc, hlive⟩
        exact ⟨sub.key, _, ⟨h.live k sub hsub hlive, hc⟩, rfl⟩
    simp only [disconnect, foldl_abort_subscriptions]
    cases hsub : s.subscriptions[k]? with
    | none => rfl
    | some sub => simp only [Option.map_some, hmem sub hsub]

/-- A subscription after a removal: the one before, aborted if it was live under a removed key. -/
theorem Removes.find {p : SubscriptionKey → Bool} (hr : Removes p s s')
    (hsub : s'.subscriptions[k]? = some sub) :
    ∃ sub₀, s.subscriptions[k]? = some sub₀ ∧ sub.key = sub₀.key ∧
      sub.generation = sub₀.generation ∧ sub.stage = sub₀.stage ∧
      (sub.Live ↔ sub₀.Live ∧ p sub₀.key = false) ∧
      (sub₀.Live ∨ sub = sub₀) := by
  rw [hr.subscriptions k] at hsub
  obtain ⟨sub₀, hsub₀, rfl⟩ := Option.map_eq_some_iff.mp hsub
  refine ⟨sub₀, hsub₀, ?_⟩
  by_cases hc : p sub₀.key ∧ sub₀.Live
  · rw [if_pos hc]
    exact ⟨rfl, rfl, rfl, by simp [Subscription.Live, hc.1], .inl hc.2⟩
  · rw [if_neg hc]
    refine ⟨rfl, rfl, rfl, ⟨fun hl => ⟨hl, ?_⟩, And.left⟩, .inr rfl⟩
    cases hp : p sub₀.key with
    | true => exact absurd ⟨hp, hl⟩ hc
    | false => rfl

theorem Numbered.removes {p : SubscriptionKey → Bool} (h : s.Numbered) (hr : Removes p s s') :
    s'.Numbered where
  fresh k sub hsub := by
    obtain ⟨sub₀, hsub₀, -, hgen, -⟩ := hr.find hsub
    rw [hgen, hr.generation]
    exact h.fresh k sub₀ hsub₀
  distinct k k' sub sub' hsub hsub' heq := by
    obtain ⟨sub₀, hsub₀, -, hgen, -⟩ := hr.find hsub
    obtain ⟨sub₀', hsub₀', -, hgen', -⟩ := hr.find hsub'
    exact h.distinct k k' sub₀ sub₀' hsub₀ hsub₀' (hgen.symm.trans (heq.trans hgen'))

theorem Inv.removes {p : SubscriptionKey → Bool} (h : s.Inv) (hr : Removes p s s') : s'.Inv where
  numbered := h.numbered.removes hr
  entry key entry hentry := by
    rw [hr.active] at hentry
    cases hp : p key with
    | true =>
      rw [hp] at hentry
      cases hentry
    | false =>
      rw [hp] at hentry
      obtain ⟨sub, hsub, hlive, rfl, hgen⟩ := h.entry key entry hentry
      refine ⟨sub, ?_, hlive, rfl, hgen⟩
      rw [hr.subscriptions, hsub, Option.map_some, if_neg (by simp [hp])]
  live k sub hsub hlive := by
    obtain ⟨sub₀, hsub₀, hkey, hgen, -, hiff, -⟩ := hr.find hsub
    obtain ⟨hlive₀, hp⟩ := hiff.mp hlive
    rw [hr.active, hkey, hp, hgen]
    exact h.live k sub₀ hsub₀ hlive₀
  drawn k sub hsub hstage := by
    obtain ⟨sub₀, hsub₀, -, -, hstage₀, -, hl | rfl⟩ := hr.find hsub
    · exact absurd (hstage₀.symm.trans hstage) hl.1
    · exact h.drawn k sub hsub₀ hstage

/-- A subscription that goes on keeps its generation, whatever becomes of the entries. -/
theorem Numbered.restage (h : s.Numbered) (hsub : s.subscriptions[k]? = some sub) (stage : Stage)
    {runs : RunSubscriptions} (hruns : runs.nextGeneration = s.runs.nextGeneration) :
    Numbered ⟨runs, s.subscriptions.insert k { sub with stage }⟩ where
  fresh k' sub' hsub' := by
    rw [hruns]
    rcases ExtTreeMap.getElem?_insert_some.mp hsub' with ⟨-, rfl⟩ | ⟨-, hsub'⟩
    · exact h.fresh k sub hsub
    · exact h.fresh k' sub' hsub'
  distinct k₁ k₂ sub₁ sub₂ h₁ h₂ heq := by
    rcases ExtTreeMap.getElem?_insert_some.mp h₁ with ⟨rfl, rfl⟩ | ⟨-, h₁⟩
    · rcases ExtTreeMap.getElem?_insert_some.mp h₂ with ⟨rfl, rfl⟩ | ⟨-, h₂⟩
      · rfl
      · exact h.distinct _ k₂ sub sub₂ hsub h₂ heq
    · rcases ExtTreeMap.getElem?_insert_some.mp h₂ with ⟨rfl, rfl⟩ | ⟨-, h₂⟩
      · exact h.distinct k₁ _ sub₁ sub h₁ hsub heq
      · exact h.distinct k₁ k₂ sub₁ sub₂ h₁ h₂ heq

/-- A subscription goes on, with no effect on whether it is live. -/
theorem Inv.restage (h : s.Inv) (hsub : s.subscriptions[k]? = some sub) {stage : Stage}
    (hlive : ({ sub with stage } : Subscription).Live ↔ sub.Live) (hstage : stage ≠ .drawn) :
    Inv { s with subscriptions := s.subscriptions.insert k { sub with stage } } where
  numbered := h.numbered.restage hsub stage rfl
  entry key entry hentry := by
    obtain ⟨sub', hsub', hlive', hkey, hgen⟩ := h.entry key entry hentry
    by_cases hk : k = entry.handle
    · subst hk
      cases hsub.symm.trans hsub'
      exact ⟨_, ExtTreeMap.getElem?_insert_self, hlive.mpr hlive', hkey, hgen⟩
    · exact ⟨sub', by rw [ExtTreeMap.getElem?_insert_of_ne hk, hsub'], hlive', hkey, hgen⟩
  live k' sub' hsub' hlive' := by
    rcases ExtTreeMap.getElem?_insert_some.mp hsub' with ⟨rfl, rfl⟩ | ⟨-, hsub'⟩
    · exact h.live _ sub hsub (hlive.mp hlive')
    · exact h.live k' sub' hsub' hlive'
  drawn k' sub' hsub' hd := by
    rcases ExtTreeMap.getElem?_insert_some.mp hsub' with ⟨-, rfl⟩ | ⟨-, hsub'⟩
    · exact absurd hd hstage
    · exact h.drawn k' sub' hsub' hd

/-- The handle of `sub` in the table. -/
def store (s : Table) (k : Nat) (sub : Subscription) : Table where
  runs := { s.runs with active := s.runs.active.insert sub.key ⟨sub.generation, k⟩ }
  subscriptions := s.subscriptions.insert k { sub with stage := .inserted }

/-- The handle of a drawn generation is stored under a key that has no entry. -/
theorem Inv.store (h : s.Inv) (hsub : s.subscriptions[k]? = some sub)
    (hdrawn : sub.stage = .drawn) (hfree : s.runs.active[sub.key]? = none) :
    (s.store k sub).Inv where
  numbered := h.numbered.restage hsub .inserted rfl
  entry key entry hentry := by
    rcases ExtTreeMap.getElem?_insert_some.mp hentry with ⟨rfl, rfl⟩ | ⟨-, hentry⟩
    · exact ⟨_, ExtTreeMap.getElem?_insert_self, ⟨nofun, nofun, h.drawn k sub hsub hdrawn⟩, rfl,
        rfl⟩
    · obtain ⟨sub', hsub', hlive', hkey, hgen⟩ := h.entry key entry hentry
      have hk : k ≠ entry.handle := by
        rintro rfl
        cases hsub.symm.trans hsub'
        exact hlive'.1 hdrawn
      exact ⟨sub', (ExtTreeMap.getElem?_insert_of_ne hk).trans hsub', hlive', hkey, hgen⟩
  live k' sub' hsub' hlive' := by
    rcases ExtTreeMap.getElem?_insert_some.mp hsub' with ⟨rfl, rfl⟩ | ⟨-, hsub'⟩
    · exact ExtTreeMap.getElem?_insert_self
    · have hlookup := h.live k' sub' hsub' hlive'
      have hkey : sub.key ≠ sub'.key := by
        intro heq
        rw [heq, hlookup] at hfree
        cases hfree
      exact (ExtTreeMap.getElem?_insert_of_ne hkey).trans hlookup
  drawn k' sub' hsub' hd := by
    rcases ExtTreeMap.getElem?_insert_some.mp hsub' with ⟨-, rfl⟩ | ⟨-, hsub'⟩
    · cases hd
    · exact h.drawn k' sub' hsub' hd

/-- Storing a handle is taking out what the key holds, and then storing it. -/
theorem Inv.insert_eq (h : s.Inv) (hsub : s.subscriptions[k]? = some sub)
    (hdrawn : sub.stage = .drawn) :
    s.insert k = some ((s.unsubscribe sub.key).2.store k sub) := by
  have hother : s.runs.active[sub.key]?.map Entry.handle ≠ some k := by
    rw [Ne, h.entry_handle_iff hsub]
    exact fun hlive => hlive.2.1 hdrawn
  simp only [Table.insert, hsub, if_pos hdrawn, RunSubscriptions.insert, Table.unsubscribe,
    RunSubscriptions.unsubscribe, Table.store]
  cases hprev : s.runs.active[sub.key]?.map Entry.handle with
  | none => simp only [Option.elim_none, ExtTreeMap.insert_erase]
  | some prev =>
    rw [hprev, Ne, Option.some.injEq] at hother
    simp only [Option.elim_some, abort, ExtTreeMap.insert_erase, Option.some.injEq,
      Table.mk.injEq, true_and]
    apply ExtTreeMap.ext_getElem?
    intro k'
    by_cases hk : k = k'
    · subst hk
      simp [ExtTreeMap.getElem?_modify, hother]
    · by_cases hp : prev = k'
      · subst hp
        simp [ExtTreeMap.getElem?_insert_of_ne hk]
      · simp [ExtTreeMap.getElem?_modify, ExtTreeMap.getElem?_insert_of_ne hk, hp]

theorem Inv.insert (h : s.Inv) (hs : s.insert k = some s') : s'.Inv := by
  have hfound := hs
  unfold Table.insert at hfound
  split at hfound
  · rename_i sub hsub
    split at hfound
    · rename_i hdrawn
      rw [h.insert_eq hsub hdrawn] at hs
      cases hs
      have hr := h.unsubscribe_removes sub.key
      have hsub₁ : (s.unsubscribe sub.key).2.subscriptions[k]? = some sub := by
        rw [hr.subscriptions, hsub, Option.map_some, if_neg (fun hc => hc.2.1 hdrawn)]
      exact (h.removes hr).store hsub₁ hdrawn (by rw [hr.active]; simp)
    · cases hfound
  · cases hfound

/-- The cleanup of a live forwarder removes its entry. -/
theorem Inv.removeIfCurrent_live (h : s.Inv) (hsub : s.subscriptions[k]? = some sub)
    (hlive : sub.Live) : s.runs.removeIfCurrent sub.key sub.generation =
      { s.runs with active := s.runs.active.erase sub.key } := by
  simp only [RunSubscriptions.removeIfCurrent, h.live k sub hsub hlive, Option.any_some,
    beq_self_eq_true, if_true]

/-- The cleanup of any other removes nothing: an entry under its key has a generation of its
own. -/
theorem Inv.removeIfCurrent_not_live (h : s.Inv) (hsub : s.subscriptions[k]? = some sub)
    (hlive : ¬ sub.Live) : s.runs.removeIfCurrent sub.key sub.generation = s.runs := by
  unfold RunSubscriptions.removeIfCurrent
  cases hentry : s.runs.active[sub.key]? with
  | none => simp
  | some entry =>
    obtain ⟨sub', hsub', hlive', -, hgen⟩ := h.entry sub.key entry hentry
    have hne : entry.generation ≠ sub.generation := by
      intro heq
      have hk := h.numbered.distinct _ _ _ _ hsub' hsub (hgen.trans heq)
      subst hk
      cases hsub.symm.trans hsub'
      exact hlive hlive'
    simp [hne]

/-- A live forwarder leaves the table as its cleanup runs. -/
theorem Inv.leave (h : s.Inv) (hsub : s.subscriptions[k]? = some sub) (hlive : sub.Live) :
    Inv ⟨{ s.runs with active := s.runs.active.erase sub.key },
      s.subscriptions.insert k { sub with stage := .cleaned }⟩ where
  numbered := h.numbered.restage hsub .cleaned rfl
  entry key entry hentry := by
    obtain ⟨hkey, hentry⟩ := ExtTreeMap.getElem?_erase_some.mp hentry
    obtain ⟨sub', hsub', hlive', rfl, hgen⟩ := h.entry key entry hentry
    have hk : k ≠ entry.handle := by
      rintro rfl
      cases hsub.symm.trans hsub'
      exact hkey rfl
    exact ⟨sub', (ExtTreeMap.getElem?_insert_of_ne hk).trans hsub', hlive', rfl, hgen⟩
  live k' sub' hsub' hlive' := by
    rcases ExtTreeMap.getElem?_insert_some.mp hsub' with ⟨rfl, rfl⟩ | ⟨hk, hsub'⟩
    · exact absurd rfl hlive'.2.1
    · have hlookup := h.live k' sub' hsub' hlive'
      have hkey : sub.key ≠ sub'.key := by
        intro heq
        rw [← heq, h.live k sub hsub hlive] at hlookup
        exact hk (Entry.mk.inj (Option.some.inj hlookup)).2
      exact (ExtTreeMap.getElem?_erase_of_ne hkey).trans hlookup
  drawn k' sub' hsub' hd := by
    rcases ExtTreeMap.getElem?_insert_some.mp hsub' with ⟨-, rfl⟩ | ⟨-, hsub'⟩
    · cases hd
    · exact h.drawn k' sub' hsub' hd

theorem Inv.cleanup (h : s.Inv) (hs : s.cleanup k = some s') : s'.Inv := by
  unfold Table.cleanup at hs
  split at hs
  · rename_i sub hsub
    split at hs
    · rename_i hfinished
      cases hs
      by_cases hlive : sub.Live
      · rw [h.removeIfCurrent_live hsub hlive]
        exact h.leave hsub hlive
      · rw [h.removeIfCurrent_not_live hsub hlive]
        exact h.restage hsub ⟨fun hl => absurd rfl hl.2.1, fun hl => absurd hl hlive⟩ nofun
    · cases hs
  · cases hs

theorem Inv.draw (h : s.Inv) {key : SubscriptionKey} (hs : s.draw k key = some s') : s'.Inv := by
  unfold Table.draw at hs
  split at hs
  · cases hs
  · rename_i hnew
    cases hs
    have hnone : s.subscriptions[k]? = none := ExtTreeMap.getElem?_eq_none hnew
    refine ⟨⟨?_, ?_⟩, ?_, ?_, ?_⟩
    · intro k' sub' hsub'
      rcases ExtTreeMap.getElem?_insert_some.mp hsub' with ⟨-, rfl⟩ | ⟨-, hsub'⟩
      · exact Nat.le_refl _
      · exact Nat.le_succ_of_le (h.numbered.fresh k' sub' hsub')
    · intro k₁ k₂ sub₁ sub₂ h₁ h₂ heq
      rcases ExtTreeMap.getElem?_insert_some.mp h₁ with ⟨rfl, rfl⟩ | ⟨-, h₁⟩
      · rcases ExtTreeMap.getElem?_insert_some.mp h₂ with ⟨rfl, rfl⟩ | ⟨-, h₂⟩
        · rfl
        · exact absurd (heq ▸ h.numbered.fresh k₂ sub₂ h₂) (Nat.not_succ_le_self _)
      · rcases ExtTreeMap.getElem?_insert_some.mp h₂ with ⟨rfl, rfl⟩ | ⟨-, h₂⟩
        · exact absurd (heq ▸ h.numbered.fresh k₁ sub₁ h₁) (Nat.not_succ_le_self _)
        · exact h.numbered.distinct k₁ k₂ sub₁ sub₂ h₁ h₂ heq
    · intro key' entry hentry
      obtain ⟨sub', hsub', hrest⟩ := h.entry key' entry hentry
      have hk : k ≠ entry.handle := by
        rintro rfl
        cases hnone.symm.trans hsub'
      exact ⟨sub', (ExtTreeMap.getElem?_insert_of_ne hk).trans hsub', hrest⟩
    · intro k' sub' hsub' hlive'
      rcases ExtTreeMap.getElem?_insert_some.mp hsub' with ⟨-, rfl⟩ | ⟨-, hsub'⟩
      · exact absurd rfl hlive'.1
      · exact h.live k' sub' hsub' hlive'
    · intro k' sub' hsub' hd
      rcases ExtTreeMap.getElem?_insert_some.mp hsub' with ⟨-, rfl⟩ | ⟨-, hsub'⟩
      · rfl
      · exact h.drawn k' sub' hsub' hd

/-- The steps of a task, before its cleanup. -/
theorem Inv.goto (h : s.Inv) {before after : Stage} (hs : s.goto k before after = some s')
    (hbefore : before ≠ .drawn ∧ before ≠ .cleaned) (hafter : after ≠ .drawn ∧ after ≠ .cleaned) :
    s'.Inv := by
  unfold Table.goto at hs
  split at hs
  · rename_i sub hsub
    split at hs
    · rename_i hstage
      cases hs
      refine h.restage hsub ?_ hafter.1
      simp [Subscription.Live, hstage, hbefore, hafter]
    · cases hs
  · cases hs

theorem Inv.step (h : s.Inv) {a : Act} (hs : s.step a = some s') : s'.Inv := by
  cases a with
  | draw k key => exact h.draw hs
  | insert k => exact h.insert hs
  | spawn k => exact h.goto hs (by decide) (by decide)
  | poll k =>
    simp only [Table.step, Table.poll] at hs
    split at hs
    · cases hs
    · exact h.goto hs (by decide) (by decide)
  | park k => exact h.goto hs (by decide) (by decide)
  | finish k => exact h.goto hs (by decide) (by decide)
  | cleanup k => exact h.cleanup hs
  | drop k =>
    simp only [Table.step, Table.drop] at hs
    split at hs
    · exact h.goto hs (by decide) (by decide)
    · cases hs
  | unsubscribe key =>
    cases hs
    exact h.removes (h.unsubscribe_removes key)
  | disconnect c =>
    cases hs
    exact h.removes (h.disconnect_removes c)

theorem inv_exec {acts : List Act} (h : exec step init acts = some s) : s.Inv :=
  exec_inv' (fun _ _ _ hi hs => hi.step hs) inv_init h

/-- The entries under the keys of `p`, and no others, are removed and their handles aborted. -/
structure Withdraws (p : SubscriptionKey → Bool) (s s' : Table) : Prop where
  removed : ∀ (key : SubscriptionKey) (entry : Entry), s.runs.active[key]? = some entry → p key →
    s'.runs.active[key]? = none ∧ ∃ sub, s.subscriptions[entry.handle]? = some sub ∧
      sub.aborted = false ∧ s'.subscriptions[entry.handle]? = some { sub with aborted := true }
  kept : ∀ key : SubscriptionKey, ¬ p key → s'.runs.active[key]? = s.runs.active[key]?
  others : ∀ k : Nat, (∀ (key : SubscriptionKey) (entry : Entry),
      s.runs.active[key]? = some entry → p key → entry.handle ≠ k) →
    s'.subscriptions[k]? = s.subscriptions[k]?

theorem Inv.withdraws {p : SubscriptionKey → Bool} (h : s.Inv) (hr : Removes p s s') :
    Withdraws p s s' where
  removed key entry hentry hp := by
    obtain ⟨sub, hsub, hlive, rfl, -⟩ := h.entry key entry hentry
    refine ⟨by rw [hr.active, if_pos hp], sub, hsub, hlive.2.2, ?_⟩
    rw [hr.subscriptions, hsub, Option.map_some, if_pos ⟨hp, hlive⟩]
  kept key hp := by rw [hr.active, if_neg hp]
  others k hk := by
    rw [hr.subscriptions]
    cases hsub : s.subscriptions[k]? with
    | none => rfl
    | some sub =>
      have hnot : ¬ (p sub.key ∧ sub.Live) :=
        fun hc => hk sub.key _ (h.live k sub hsub hc.2) hc.1 rfl
      rw [Option.map_some, if_neg hnot]

/-- A cleanup leaves every entry that is not its own. -/
theorem Inv.cleanup_keeps (h : s.Inv) (hs : s.cleanup k = some s') {key : SubscriptionKey}
    {entry : Entry} (hentry : s.runs.active[key]? = some entry) (hk : entry.handle ≠ k) :
    s'.runs.active[key]? = some entry := by
  unfold Table.cleanup at hs
  split at hs
  · rename_i sub hsub
    split at hs
    · cases hs
      by_cases hlive : sub.Live
      · have hkey : sub.key ≠ key := by
          rintro rfl
          rw [h.live k sub hsub hlive] at hentry
          exact hk (congrArg Entry.handle (Option.some.inj hentry)).symm
        rw [h.removeIfCurrent_live hsub hlive]
        exact (ExtTreeMap.getElem?_erase_of_ne hkey).trans hentry
      · rw [h.removeIfCurrent_not_live hsub hlive]
        exact hentry
    · cases hs
  · cases hs

/-- **The subscription table.** In every state that handlers, clients and forwarders can reach in
any interleaving: each entry is of a forwarder that was not aborted; a forwarder that was
inserted, not aborted and not cleaned up is the entry of its own key, so there is one for a key;
a cleanup that comes late changes nothing, and none removes the entry of another; `unsubscribe`
answers whether it aborted the entry of the key; and `disconnect` withdraws exactly the entries
of the connection. -/
theorem active_iff_live (acts : List Act) (s : Table) (h : exec step init acts = some s) :
    (∀ (key : SubscriptionKey) (entry : Entry), s.runs.active[key]? = some entry →
      ∃ sub, s.subscriptions[entry.handle]? = some sub ∧ sub.aborted = false ∧
        sub.key = key) ∧
    (∀ (k : Nat) (sub : Subscription), s.subscriptions[k]? = some sub → sub.Live →
      s.runs.active[sub.key]? = some ⟨sub.generation, k⟩) ∧
    (∀ (k k' : Nat) (sub sub' : Subscription), s.subscriptions[k]? = some sub →
      s.subscriptions[k']? = some sub' → sub.Live → sub'.Live → sub.key = sub'.key → k = k') ∧
    (∀ (k : Nat) (sub : Subscription) (s' : Table), s.subscriptions[k]? = some sub →
      sub.aborted = true → s.step (.cleanup k) = some s' → s'.runs = s.runs) ∧
    (∀ (k : Nat) (s' : Table), s.step (.cleanup k) = some s' →
      ∀ (key : SubscriptionKey) (entry : Entry), s.runs.active[key]? = some entry →
        entry.handle ≠ k → s'.runs.active[key]? = some entry) ∧
    (∀ key : SubscriptionKey,
      ((s.unsubscribe key).1 = true ↔ ∃ entry, s.runs.active[key]? = some entry) ∧
      Withdraws (· == key) s (s.unsubscribe key).2) ∧
    (∀ c : Nat, Withdraws (fun key => key.connectionId == c) s (s.disconnect c)) := by
  have hi := inv_exec h
  refine ⟨?_, hi.live, ?_, ?_, fun k s' hs _ _ hentry hk => hi.cleanup_keeps hs hentry hk, ?_,
    fun c => hi.withdraws (hi.disconnect_removes c)⟩
  · intro key entry hentry
    obtain ⟨sub, hsub, hlive, hkey, -⟩ := hi.entry key entry hentry
    exact ⟨sub, hsub, hlive.2.2, hkey⟩
  · intro k k' sub sub' hsub hsub' hlive hlive' hkey
    have hlookup := hi.live k sub hsub hlive
    rw [hkey, hi.live k' sub' hsub' hlive'] at hlookup
    exact (congrArg Entry.handle (Option.some.inj hlookup)).symm
  · intro k sub s' hsub haborted hs
    have hnot : ¬ sub.Live := fun hlive => by simp [hlive.2.2] at haborted
    simp only [step, Table.cleanup, hsub] at hs
    split at hs
    · cases hs
      exact hi.removeIfCurrent_not_live hsub hnot
    · cases hs
  · intro key
    refine ⟨?_, hi.withdraws (hi.unsubscribe_removes key)⟩
    simp only [unsubscribe, RunSubscriptions.unsubscribe]
    cases s.runs.active[key]? <;> simp

/-- The generations of one key inserted out of order: the older handle replaces the newer one,
whose forwarder is being polled and cleans up late. -/
def insertedLate : List Act :=
  let key : SubscriptionKey := ⟨0, ⟨"r"⟩⟩
  [.draw 7 key, .draw 3 key, .insert 3, .spawn 3, .poll 3, .insert 7, .finish 3]

theorem active_iff_live_insertedLate :
    ∃ s s', exec step init insertedLate = some s ∧ s.step (.cleanup 3) = some s' ∧
      s.runs.active[SubscriptionKey.mk 0 ⟨"r"⟩]? = some ⟨1, 7⟩ ∧ s'.runs = s.runs :=
  ⟨_, _, rfl, rfl, rfl, (active_iff_live insertedLate _ rfl).2.2.2.1 3 _ _ rfl rfl rfl⟩

end Table

end AgencyProxy.WebSocket
