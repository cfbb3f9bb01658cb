import AgencyProxy.Lts

/-!
# Waiting on a notify

A `Notify` counts its broadcasts. A waiter records the count (`notified()`), then looks at the
state it waits for, and parks if it is not ready; the await returns once the count has moved on,
and the waiter starts over. A signaller changes the state first and broadcasts second.

A `Protocol` says what the waiters look for and what the signallers change, and carries the two
conditions under which no wake-up is lost: a change that is not followed by a broadcast makes
no waiter ready, and neither does a waiter that returns.
-/

namespace Notify

open Lts

/-- Waiters are numbered; `κ` are the changes that signallers make. -/
structure Protocol (σ κ : Type*) where
  /-- The condition that a waiter waits for. -/
  ready : σ → Nat → Bool
  /-- One look at the state: what the waiter that returns leaves, or `none` when it parks. -/
  check : σ → Nat → Option σ
  /-- The first step of a signaller: what it leaves, and whether it goes on to broadcast. -/
  change : σ → κ → Option (σ × Bool)
  parks : ∀ s i, check s i = none → ready s i = false
  returns : ∀ s i s', check s i = some s' → ∀ j, j ≠ i → ready s' j = true → ready s j = true
  silent : ∀ s k s', change s k = some (s', false) → ∀ i, ready s' i = true → ready s i = true

/-- Where the loop of a waiter stands. -/
inductive Wait where
  /-- Not waiting, or at the top of the loop. -/
  | away
  /-- Has recorded the count, before its check. -/
  | checking (seen : Nat)
  /-- At the await of what it recorded. -/
  | parked (seen : Nat)
  deriving DecidableEq, Repr

structure System (σ : Type*) where
  state : σ
  /-- The broadcasts so far. -/
  generation : Nat
  waits : Nat → Wait
  /-- How many signallers have made their change and not broadcast yet. -/
  owed : Nat

inductive Act (κ : Type*) where
  /-- `notified()`. -/
  | record (i : Nat)
  | check (i : Nat)
  /-- The await returns: what was recorded is older than the last broadcast. -/
  | wake (i : Nat)
  /-- The future is dropped. -/
  | drop (i : Nat)
  | change (k : κ)
  /-- `notify_waiters()`. -/
  | broadcast

variable {σ κ : Type*}

def System.init (s : σ) : System σ := ⟨s, 0, fun _ => .away, 0⟩

def System.set (s : System σ) (i : Nat) (w : Wait) : System σ :=
  { s with waits := Function.update s.waits i w }

def Protocol.step (p : Protocol σ κ) (s : System σ) : Act κ → Option (System σ)
  | .record i =>
    match s.waits i with
    | .away => some (s.set i (.checking s.generation))
    | _ => none
  | .check i =>
    match s.waits i with
    | .checking seen =>
      match p.check s.state i with
      | some state => some ({ s with state }.set i .away)
      | none => some (s.set i (.parked seen))
    | _ => none
  | .wake i =>
    match s.waits i with
    | .parked seen => if seen < s.generation then some (s.set i .away) else none
    | _ => none
  | .drop i => some (s.set i .away)
  | .change k =>
    match p.change s.state k with
    | some (state, notifies) =>
      some { s with state, owed := if notifies then s.owed + 1 else s.owed }
    | none => none
  | .broadcast =>
    if 0 < s.owed then some { s with generation := s.generation + 1, owed := s.owed - 1 }
    else none

/-- A lost wake-up: every signaller is done, and a waiter stays parked though it is ready. -/
def Protocol.Lost (p : Protocol σ κ) (s : System σ) : Prop :=
  s.owed = 0 ∧ ∃ i seen, s.waits i = .parked seen ∧ ¬ seen < s.generation ∧
    p.ready s.state i = true

/-- A waiter has recorded no broadcast to come, and one that is parked on the current count and
ready has a broadcast coming. -/
structure Protocol.Woken (p : Protocol σ κ) (s : System σ) : Prop where
  recorded : ∀ i seen, s.waits i = .checking seen → seen ≤ s.generation
  parked : ∀ i seen, s.waits i = .parked seen → seen ≤ s.generation
  coming : ∀ i, s.waits i = .parked s.generation → p.ready s.state i = true → 0 < s.owed

variable {p : Protocol σ κ} {s s' : System σ}

theorem Protocol.woken_init (s : σ) : p.Woken (.init s) :=
  ⟨fun _ _ h => (by cases h), fun _ _ h => (by cases h), fun _ h => (by cases h)⟩

theorem System.set_waits (s : System σ) (i j : Nat) (w : Wait) :
    (s.set i w).waits j = if j = i then w else s.waits j := by
  simp only [set, Function.update_apply]

/-- A waiter leaves its loop, or goes round it. -/
theorem Protocol.Woken.away (h : p.Woken s) (i : Nat) : p.Woken (s.set i .away) := by
  refine ⟨fun j seen hj => ?_, fun j seen hj => ?_, fun j hj hr => ?_⟩
  all_goals
    rw [System.set_waits] at hj
    split at hj
    · cases hj
  · exact h.recorded j seen hj
  · exact h.parked j seen hj
  · exact h.coming j hj hr

/-- **One step** loses no wake-up. -/
theorem Protocol.Woken.step {a : Act κ} (h : p.Woken s) (hs : p.step s a = some s') :
    p.Woken s' := by
  cases a with
  | record i =>
    simp only [Protocol.step] at hs
    split at hs
    · cases hs
      refine ⟨fun j seen hj => ?_, fun j seen hj => ?_, fun j hj hr => ?_⟩
      all_goals
        rw [System.set_waits] at hj
        split at hj
      · cases hj; exact Nat.le_refl _
      · exact h.recorded j seen hj
      · cases hj
      · exact h.parked j seen hj
      · cases hj
      · exact h.coming j hj hr
    · cases hs
  | check i =>
    simp only [Protocol.step] at hs
    split at hs
    · rename_i seen hi
      split at hs
      · rename_i state hc
        cases hs
        -- The waiter returns; whoever is parked and ready was ready before.
        have hw : p.Woken { s with state, waits := Function.update s.waits i .away } := by
          refine ⟨(h.away i).recorded, (h.away i).parked, fun j hj hr => ?_⟩
          have hne : j ≠ i := by
            rintro rfl
            simp at hj
          exact (h.away i).coming j hj (p.returns _ _ _ hc j hne hr)
        exact hw
      · rename_i hc
        cases hs
        refine ⟨fun j seen' hj => ?_, fun j seen' hj => ?_, fun j hj hr => ?_⟩
        all_goals
          rw [System.set_waits] at hj
          split at hj
        · cases hj
        · exact h.recorded j seen' hj
        · cases hj; exact h.recorded i seen hi
        · exact h.parked j seen' hj
        · rename_i he
          subst he
          -- It parks because it is not ready.
          cases (p.parks _ _ hc).symm.trans hr
        · exact h.coming j hj hr
    · cases hs
  | wake i =>
    simp only [Protocol.step] at hs
    split at hs
    · split at hs
      · cases hs; exact h.away i
      · cases hs
    · cases hs
  | drop i => cases hs; exact h.away i
  | change k =>
    simp only [Protocol.step] at hs
    split at hs
    · rename_i state notifies hc
      cases hs
      refine ⟨h.recorded, h.parked, fun j hj hr => ?_⟩
      cases notifies with
      | true => exact Nat.succ_pos _
      | false => exact h.coming j hj (p.silent _ _ _ hc j hr)
    · cases hs
  | broadcast =>
    simp only [Protocol.step] at hs
    split at hs
    · cases hs
      refine ⟨fun j seen hj => Nat.le_succ_of_le (h.recorded j seen hj),
        fun j seen hj => Nat.le_succ_of_le (h.parked j seen hj), fun j hj hr => ?_⟩
      have := h.parked j _ hj
      dsimp only at this
      omega
    · cases hs

/-- **No wake-up is lost**, in any run. -/
theorem Protocol.not_lost {acts : List (Act κ)} {init : σ}
    (h : exec p.step (.init init) acts = some s) : ¬ p.Lost s := by
  have hw : p.Woken s := exec_inv' (fun _ _ _ hi hs => hi.step hs) (woken_init init) h
  rintro ⟨howed, i, seen, hi, hseen, hr⟩
  have hle := hw.parked i seen hi
  have he : seen = s.generation := by omega
  subst he
  have := hw.coming i hi hr
  omega

end Notify
