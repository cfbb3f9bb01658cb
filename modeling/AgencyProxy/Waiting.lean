import AgencyProxy.Broadcast
import AgencyProxy.Maps
import AgencyProxy.Notify

/-!
# What waits

The three wait loops of the proxy, each as a protocol over a `Notify`: `Flag::wait`,
`RunActivity::wait_until_idle` and the `recv` of a broadcast receiver. The signallers are
`Flag::set`, `started` and `finished`, and every operation on the handles of a channel.
-/

namespace AgencyProxy

open Std Lts

/-! ## `Flag` -/

namespace Flag

/-- `Flag`: its boolean, with `set` as the one change. -/
def protocol : Notify.Protocol Bool Unit where
  ready set _ := set
  check set _ := if set then some set else none
  change _ _ := some (true, true)
  parks set i h := by cases set <;> simp_all
  returns set i set' h j _ hr := by cases set <;> simp_all
  silent set _ set' h i _ := by simp at h

end Flag

/-! ## `RunActivity` -/

namespace RunActivity

inductive Change where
  | started
  | finished
  deriving DecidableEq, Repr

/-- `RunActivity`: its count. `finished` saturates at zero. -/
def protocol : Notify.Protocol Nat Change where
  ready active _ := active == 0
  check active _ := if active = 0 then some active else none
  change active
    | .started => some (active + 1, true)
    | .finished => some (active - 1, true)
  parks active i h := by split at h <;> simp_all
  returns active i active' h j _ hr := by split at h <;> simp_all
  silent active k active' h i hr := by cases k <;> simp at h

end RunActivity

/-! ## The broadcast channel -/

namespace Broadcast

universe u

/-- A channel with its receivers. -/
structure Channel (α : Type u) where
  shared : Shared α
  receivers : ExtTreeMap Nat Receiver

/-- What the holders of handles do. Only a live sender can send, be cloned or be dropped. -/
inductive Channel.Change (α : Type u) where
  | send (value : α)
  | cloneSender
  | dropSender
  | subscribe (i : Nat)
  | dropReceiver (i : Nat)

variable {α : Type u}

/-- A value or a lag is available to the receiver, or no sender is left. -/
def Available (sh : Shared α) (rx : Receiver) : Prop :=
  rx.next < sh.head ∨ sh.buffer[rx.next - sh.head]? ≠ none ∨ sh.senders = 0

instance (sh : Shared α) (rx : Receiver) : Decidable (Available sh rx) := by
  unfold Available
  have : Decidable (sh.buffer[rx.next - sh.head]? ≠ none) :=
    decidable_of_iff (sh.buffer[rx.next - sh.head]?.isSome = true) (by
      rw [Option.isSome_iff_ne_none])
  infer_instance

/-- `recv` parks exactly when nothing is available. -/
theorem take_none_iff (sh : Shared α) (rx : Receiver) :
    (take sh rx).1 = none ↔ ¬ Available sh rx := by
  unfold take Available
  split
  · rename_i h
    simp [h]
  · rename_i h
    cases hb : sh.buffer[rx.next - sh.head]? with
    | some value => simp
    | none =>
      by_cases hs : sh.senders = 0
      · simp [hs]
      · simp [hs, h]

namespace Channel

def init (α : Type u) (capacity : Nat) : Channel α :=
  ⟨(channel α capacity).1, (∅ : ExtTreeMap Nat Receiver).insert 0 (channel α capacity).2⟩

def ready (ch : Channel α) (i : Nat) : Bool :=
  match ch.receivers[i]? with
  | some rx => decide (Available ch.shared rx)
  | none => false

/-- `take` by the receiver `i`, which it moves on. -/
def check (ch : Channel α) (i : Nat) : Option (Channel α) :=
  match ch.receivers[i]? with
  | some rx =>
    match take ch.shared rx with
    | (some _, rx') => some { ch with receivers := ch.receivers.insert i rx' }
    | (none, _) => none
  | none => none

/-- What a holder of a handle does up to the broadcast. A send that finds no receiver, and the
drop of a sender that is not the last, broadcast nothing. -/
def change (ch : Channel α) : Change α → Option (Channel α × Bool)
  | .send value =>
    if ch.shared.senders = 0 then none
    else match ch.shared.send value with
      | (.ok _, shared) => some ({ ch with shared }, true)
      | (.error _, shared) => some ({ ch with shared }, false)
  | .cloneSender =>
    if ch.shared.senders = 0 then none
    else some ({ ch with shared := ch.shared.cloneSender }, false)
  | .dropSender =>
    if ch.shared.senders = 0 then none
    else some ({ ch with shared := ch.shared.dropSender }, ch.shared.dropSender.senders == 0)
  | .subscribe i =>
    if ch.shared.senders = 0 ∨ i ∈ ch.receivers then none
    else some
      ({ shared := ch.shared.subscribe.2
         receivers := ch.receivers.insert i ch.shared.subscribe.1 }, false)
  | .dropReceiver i =>
    if i ∈ ch.receivers then
      some ({ shared := ch.shared.dropReceiver, receivers := ch.receivers.erase i }, false)
    else none

theorem ready_insert {ch : Channel α} {i j : Nat} {rx : Receiver} (h : j ≠ i) :
    ready { ch with receivers := ch.receivers.insert i rx } j = ch.ready j := by
  simp only [ready, ExtTreeMap.getElem?_insert_of_ne (Ne.symm h)]

/-- What is available to a receiver depends on the buffer and on whether there are senders. -/
theorem ready_congr (ch ch' : Channel α) {i : Nat}
    (hb : ch'.shared.buffer = ch.shared.buffer)
    (hh : ch'.shared.head = ch.shared.head)
    (hs : ch'.shared.senders = 0 → ch.shared.senders = 0)
    (hr : ch'.receivers[i]? = ch.receivers[i]?) (h : ch'.ready i = true) : ch.ready i = true := by
  unfold ready at h ⊢
  rw [hr] at h
  split at h
  · have h := of_decide_eq_true h
    refine decide_eq_true ?_
    unfold Available at h ⊢
    rw [hb, hh] at h
    exact h.imp_right (Or.imp_right hs)
  · cases h

def protocol (α : Type u) : Notify.Protocol (Channel α) (Change α) where
  ready := ready
  check := check
  change := change
  parks ch i h := by
    unfold check at h
    unfold ready
    split at h
    · rename_i rx hrx
      split at h
      · cases h
      · rename_i rx' ht
        rw [decide_eq_false_iff_not, ← take_none_iff, ht]
    · rename_i hrx
      rfl
  returns ch i ch' h j hne hr := by
    unfold check at h
    split at h
    · split at h
      · cases h
        rwa [ready_insert hne] at hr
      · cases h
    · cases h
  silent ch k ch' h i hr := by
    cases k with
    | send value =>
      simp only [change] at h
      split at h
      · cases h
      · split at h
        · cases h
        · rename_i hsend
          cases h
          unfold Shared.send at hsend
          split at hsend
          · cases hsend; exact hr
          · cases hsend
    | cloneSender =>
      simp only [change] at h
      split at h
      · cases h
      · cases h
        have hs : ch.shared.cloneSender.senders = 0 → ch.shared.senders = 0 := by
          intro he
          simp [Shared.cloneSender] at he
        exact ready_congr ch ⟨ch.shared.cloneSender, ch.receivers⟩ rfl rfl hs rfl hr
    | dropSender =>
      simp only [change] at h
      split at h
      · cases h
      · simp only [Option.some.injEq, Prod.mk.injEq, beq_eq_false_iff_ne] at h
        obtain ⟨rfl, hlast⟩ := h
        exact ready_congr ch ⟨ch.shared.dropSender, ch.receivers⟩ rfl rfl
          (fun he => absurd he hlast) rfl hr
    | subscribe j =>
      simp only [change] at h
      split at h
      · cases h
      · rename_i hguard
        cases h
        rw [not_or] at hguard
        by_cases he : i = j
        · subst he
          -- A new receiver is past everything in the buffer, and there is a sender.
          have ha : Available ch.shared.subscribe.2 ch.shared.subscribe.1 := by
            unfold ready at hr
            rw [ExtTreeMap.getElem?_insert_self] at hr
            exact of_decide_eq_true hr
          rcases ha with hlt | hb | hs
          · simp only [Shared.subscribe] at hlt
            omega
          · simp [Shared.subscribe] at hb
          · exact absurd hs hguard.1
        · exact ready_congr ch
            ⟨ch.shared.subscribe.2, ch.receivers.insert j ch.shared.subscribe.1⟩ rfl rfl id
            (ExtTreeMap.getElem?_insert_of_ne (Ne.symm he)) hr
    | dropReceiver j =>
      simp only [change] at h
      split at h
      · cases h
        by_cases he : i = j
        · subst he
          simp [ready] at hr
        · exact ready_congr ch ⟨ch.shared.dropReceiver, ch.receivers.erase j⟩ rfl rfl id
            (ExtTreeMap.getElem?_erase_of_ne (Ne.symm he)) hr
      · cases h

end Channel

end Broadcast

/-- **No wake-up is lost.** In no run of any number of waiters and signallers, step by step, is
there a state in which every signaller has broadcast and a waiter stays parked although what it
waits for holds: not at a flag, not at the activity count, and not at a channel. -/
theorem no_wakeup_lost.{u} :
    (∀ (acts : List (Notify.Act Unit)) (s : Notify.System Bool),
      exec Flag.protocol.step (.init false) acts = some s → ¬ Flag.protocol.Lost s) ∧
    (∀ (acts : List (Notify.Act RunActivity.Change)) (s : Notify.System Nat),
      exec RunActivity.protocol.step (.init 0) acts = some s → ¬ RunActivity.protocol.Lost s) ∧
    (∀ (α : Type u) (capacity : Nat) (acts : List (Notify.Act (Broadcast.Channel.Change α)))
      (s : Notify.System (Broadcast.Channel α)),
      exec (Broadcast.Channel.protocol α).step (.init (.init α capacity)) acts = some s →
        ¬ (Broadcast.Channel.protocol α).Lost s) :=
  ⟨fun _ _ h => Flag.protocol.not_lost h, fun _ _ h => RunActivity.protocol.not_lost h,
    fun α _ _ _ h => (Broadcast.Channel.protocol α).not_lost h⟩

/-- A waiter parks, and then the signaller makes its change. -/
def signalInFlight {κ : Type} (k : κ) : List (Notify.Act κ) := [.record 0, .check 0, .change k]

/-- In each of the three, a waiter is parked and ready with the broadcast still to come. -/
theorem no_wakeup_lost_signalInFlight :
    (∃ s, exec Flag.protocol.step (.init false) (signalInFlight ()) = some s ∧
      s.waits 0 = .parked 0 ∧ s.state = true ∧ s.owed = 1 ∧ ¬ Flag.protocol.Lost s) ∧
    (∃ s, exec RunActivity.protocol.step (.init 0)
        ([.change .started, .broadcast] ++ signalInFlight .finished) = some s ∧
      s.waits 0 = .parked 1 ∧ s.state = 0 ∧ s.owed = 1 ∧ ¬ RunActivity.protocol.Lost s) ∧
    ∃ s, exec (Broadcast.Channel.protocol Nat).step (.init (.init Nat 1))
        (signalInFlight (.send 7)) = some s ∧
      s.waits 0 = .parked 0 ∧ s.state.ready 0 = true ∧ s.owed = 1 ∧
        ¬ (Broadcast.Channel.protocol Nat).Lost s := by
  obtain ⟨hflag, hactivity, hchannel⟩ := no_wakeup_lost.{0}
  exact ⟨⟨_, rfl, rfl, rfl, rfl, hflag (signalInFlight ()) _ rfl⟩,
    ⟨_, rfl, rfl, rfl, rfl,
      hactivity ([.change .started, .broadcast] ++ signalInFlight .finished) _ rfl⟩,
    ⟨_, rfl, rfl, rfl, rfl, hchannel Nat 1 (signalInFlight (.send 7)) _ rfl⟩⟩

end AgencyProxy
