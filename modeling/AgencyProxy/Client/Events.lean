import AgencyProxy.Client

/-!
# Event subscribers

One connection of the client crate with the receivers that `Client::subscribe` handed out. The
request side tells every waiter when `drive` stops. The event side has only the channel's count
of senders to go by, and each `Client` holds one as `drive` does (`Drive.senders_step`): the
subscribers are told of the end when the last handle goes, not when the connection does.
-/

namespace AgencyProxy.Client

open Std Lts Broadcast

/-! ## Who holds a sender -/

namespace Drive

/-- The sender that `drive` itself holds until it returns. -/
def ownSender (s : Drive) : Nat :=
  match s.phase with
  | .returned => 0
  | _ => 1

/-- Every handle holds a sender of the event channel, and so does `drive`. -/
def SendersHeld (s : Drive) : Prop := s.events.senders = s.clients + s.ownSender

theorem sendersHeld_init : init.SendersHeld := rfl

theorem ownSender_eq {s : Drive} (h : s.phase ≠ .returned) : s.ownSender = 1 := by
  unfold ownSender
  split
  · rename_i hp
    exact absurd hp h
  · rfl

variable {s s' : Drive}

/-- A frame from the proxy leaves the handles, their senders and `drive`'s own. -/
theorem receive_senders {incoming : Received} (h : s.receive incoming = some s') :
    s'.clients = s.clients ∧ s'.events.senders = s.events.senders ∧ s'.phase ≠ .returned := by
  unfold receive at h
  split at h
  · rename_i hp
    split at h
    · split at h
      · cases h; exact ⟨rfl, rfl, nofun⟩
      · cases h; exact ⟨rfl, rfl, nofun⟩
      · cases h; exact ⟨rfl, rfl, nofun⟩
      · cases h; exact ⟨rfl, rfl, by simp [hp]⟩
      · cases h; exact ⟨rfl, rfl, nofun⟩
      · dsimp only at h
        split at h
        · cases h; exact ⟨rfl, rfl, by simp [complete, hp]⟩
        · cases h; exact ⟨rfl, rfl, by simp [hp]⟩
      · cases h; exact ⟨rfl, by simp, by simp [hp]⟩
    · cases h
  · cases h

theorem senders_step {a : Act} (hs : s.SendersHeld) (h : s.step a = some s') :
    s'.SendersHeld := by
  unfold SendersHeld at hs ⊢
  cases a with
  | request message =>
    simp only [step, request] at h
    split at h
    · cases h
    · split at h
      · cases h; exact hs
      · cases h; exact hs
  | clone =>
    simp only [step] at h
    split at h
    · cases h
    · cases h
      simp only [Shared.cloneSender, ownSender] at hs ⊢
      omega
  | drop =>
    simp only [step] at h
    split at h
    · cases h
    · cases h
      simp only [Shared.dropSender, ownSender] at hs ⊢
      omega
  | subscribe =>
    simp only [step] at h
    split at h
    · cases h
    · cases h; exact hs
  | unsubscribe =>
    simp only [step] at h
    split at h
    · cases h
    · cases h; exact hs
  | take encoded =>
    have hbefore : s.phase = .selecting ∧ s'.clients = s.clients ∧ s'.events = s.events ∧
        s'.phase ≠ .returned := by
      simp only [step, take] at h
      split at h
      · rename_i hp _
        cases encoded with
        | error error => cases h; exact ⟨hp, rfl, rfl, by simp [complete, hp]⟩
        | ok u => cases h; exact ⟨hp, rfl, rfl, by simp⟩
      · rename_i hp _
        split at h
        · cases h; exact ⟨hp, rfl, rfl, by simp⟩
        · cases h
      · cases h
    obtain ⟨hp, hclients, hevents, hrun⟩ := hbefore
    rw [ownSender_eq (by simp [hp])] at hs
    rw [ownSender_eq hrun, hclients, hevents, hs]
  | sent result =>
    simp only [step, Drive.sent] at h
    split at h
    · rename_i frame call hp
      rw [ownSender_eq (by simp [hp])] at hs
      cases result with
      | error detail => cases h; exact hs
      | ok u => cases h; exact hs
    · cases h
  | receive incoming =>
    have hp : s.phase = .selecting := by
      simp only [step, receive] at h
      split at h
      · assumption
      · cases h
    obtain ⟨hclients, hevents, hrun⟩ := receive_senders h
    rw [ownSender_eq (by simp [hp])] at hs
    rw [ownSender_eq hrun, hclients, hevents, hs]
  | notify requestId =>
    simp only [step, notify] at h
    split at h
    · cases h; exact hs
    · cases h
  | finish =>
    simp only [step, finish] at h
    split at h
    · rename_i detail hp
      rw [ownSender_eq (by simp [hp])] at hs
      split at h
      · cases h
        simp only [Shared.dropSender, ownSender]
        omega
      · cases h
    · cases h

/-- `drive` returns by `finish` alone, which leaves the handles. -/
theorem returned_step {a : Act} (h : s.step a = some s') (hreturned : s'.phase = .returned) :
    s.phase = .returned ∨ a = .finish ∧ s'.clients = s.clients := by
  cases step_moves h with
  | quiet => exact .inl hreturned
  | queued => exact .inl hreturned
  | refused => exact .inl hreturned
  | unencodable => exact .inl hreturned
  | taken => cases hreturned
  | stop => cases hreturned
  | sent => cases hreturned
  | unsent => cases hreturned
  | answered => exact .inl hreturned
  | unknown => exact .inl hreturned
  | notify => exact .inl hreturned
  | finish => exact .inr ⟨rfl, rfl⟩

/-- A handle comes from a handle: once the last one is gone there is none again. -/
theorem clients_step {a : Act} (h : s.step a = some s') (hnone : s.clients = 0) :
    s'.clients = 0 := by
  cases a with
  | request message => simp [step, request, hnone] at h
  | clone => simp [step, hnone] at h
  | drop => simp [step, hnone] at h
  | subscribe => simp [step, hnone] at h
  | unsubscribe =>
    simp only [step] at h
    split at h
    · cases h
    · cases h; exact hnone
  | take encoded =>
    simp only [step, take] at h
    split at h
    · cases encoded with
      | error error => cases h; exact hnone
      | ok u => cases h; exact hnone
    · rw [if_pos hnone] at h
      cases h
      exact hnone
    · cases h
  | sent result =>
    simp only [step, Drive.sent] at h
    split at h
    · cases result with
      | error detail => cases h; exact hnone
      | ok u => cases h; exact hnone
    · cases h
  | receive incoming =>
    rw [(receive_senders h).1]
    exact hnone
  | notify requestId =>
    simp only [step, notify] at h
    split at h
    · cases h; exact hnone
    · cases h
  | finish =>
    simp only [step, finish] at h
    split at h
    · split at h
      · cases h; exact hnone
      · cases h
    · cases h

end Drive

/-! ## The subscribers -/

/-- The connection, and the receivers that are alive, each under a name of its own. -/
structure Session where
  drive : Drive
  receivers : ExtTreeMap Nat Receiver

namespace Session

def init : Session := ⟨.init, ∅⟩

inductive Act where
  /-- A step of `drive`, of a call, or of a `Client` handle. -/
  | drive (a : Drive.Act)
  | subscribe (rx : Nat)
  /-- One check of the channel by `recv`. -/
  | recv (rx : Nat)
  | unsubscribe (rx : Nat)

def step (s : Session) : Act → Option Session
  | .drive a =>
    match a with
    | .subscribe | .unsubscribe => none
    | a => (s.drive.step a).map fun drive => { s with drive }
  | .subscribe rx =>
    if rx ∈ s.receivers then none
    else (s.drive.step .subscribe).map fun drive =>
      ⟨drive, s.receivers.insert rx s.drive.events.subscribe.1⟩
  | .recv rx =>
    match s.receivers[rx]? with
    | some r => some { s with receivers := s.receivers.insert rx (take s.drive.events r).2 }
    | none => none
  | .unsubscribe rx =>
    if rx ∈ s.receivers then
      (s.drive.step .unsubscribe).map fun drive => ⟨drive, s.receivers.erase rx⟩
    else none

/-- Every step is a step of the connection, or leaves it as it is. -/
theorem step_drive {s s' : Session} {a : Act} (h : s.step a = some s') :
    s'.drive = s.drive ∨
      ∃ b, s.drive.step b = some s'.drive ∧ (b = .finish → a = .drive .finish) := by
  cases a with
  | drive b =>
    have hstep : (s.drive.step b).map (fun drive => { s with drive }) = some s' := by
      cases b with
      | subscribe => cases h
      | unsubscribe => cases h
      | _ => exact h
    obtain ⟨drive, hdrive, rfl⟩ := Option.map_eq_some_iff.mp hstep
    exact .inr ⟨b, hdrive, fun hb => by rw [hb]⟩
  | subscribe rx =>
    simp only [step] at h
    split at h
    · cases h
    · obtain ⟨drive, hdrive, rfl⟩ := Option.map_eq_some_iff.mp h
      exact .inr ⟨_, hdrive, nofun⟩
  | recv rx =>
    simp only [step] at h
    split at h
    · cases h; exact .inl rfl
    · cases h
  | unsubscribe rx =>
    simp only [step] at h
    split at h
    · obtain ⟨drive, hdrive, rfl⟩ := Option.map_eq_some_iff.mp h
      exact .inr ⟨_, hdrive, nofun⟩
    · cases h

theorem sendersHeld_exec {acts : List Act} {s : Session} (h : exec step init acts = some s) :
    s.drive.SendersHeld := by
  refine exec_inv' (I := fun s => s.drive.SendersHeld) ?_ Drive.sendersHeld_init h
  intro s a s' hi hs
  obtain heq | ⟨b, hb, -⟩ := step_drive hs
  · rw [heq]
    exact hi
  · exact Drive.senders_step hi hb

/-- `drive` returns. -/
def Act.isFinish : Act → Bool
  | .drive .finish => true
  | _ => false

/-- `drive` returns only when the last handle is gone. -/
def EndsAlone (s : Session) (a : Act) : Prop := a.isFinish → s.drive.clients = 0

instance (s : Session) (a : Act) : Decidable (s.EndsAlone a) :=
  inferInstanceAs (Decidable (a.isFinish → s.drive.clients = 0))

theorem clients_exec {acts : List Act} {s : Session} (h : exec step init acts = some s)
    (halone : Along step EndsAlone init acts) (hreturned : s.drive.phase = .returned) :
    s.drive.clients = 0 := by
  refine exec_inv (I := fun s => s.drive.phase = .returned → s.drive.clients = 0) ?_
    (by intro hinit; cases hinit) halone h hreturned
  intro s a s' hi hcond hs hret
  obtain heq | ⟨b, hb, hfinish⟩ := step_drive hs
  · rw [heq] at hret ⊢
    exact hi hret
  · obtain hbefore | ⟨rfl, hsame⟩ := Drive.returned_step hb hret
    · exact Drive.clients_step hb (hi hbefore)
    · rw [hsame]
      exact hcond (by rw [hfinish rfl]; rfl)

/-- The receiver has received everything buffered. -/
def Drained (s : Session) (r : Receiver) : Prop := s.drive.events.tail ≤ r.next

/-- Once `drive` has ended, who has received everything is told so. -/
def Informed (s : Session) : Prop :=
  s.drive.phase = .returned → ∀ (rx : Nat) (r : Receiver), s.receivers[rx]? = some r →
    s.Drained r → (take s.drive.events r).1 = some (.error .closed)

/-- After the end a receiver with nothing left to receive is told of it exactly if no handle is
alive; otherwise it parks. -/
theorem drained_take {acts : List Act} {s : Session} {r : Receiver}
    (h : exec step init acts = some s) (hreturned : s.drive.phase = .returned)
    (hdrained : s.Drained r) :
    (take s.drive.events r).1 =
      if s.drive.clients = 0 then some (.error .closed) else none := by
  have hheld := sendersHeld_exec h
  have hown : s.drive.ownSender = 0 := by
    unfold Drive.ownSender
    rw [hreturned]
  unfold Drive.SendersHeld at hheld
  rw [take_drained hdrained, hheld, hown, Nat.add_zero]

/-- **Who is told that the connection is gone.** In every state after `drive` has ended, a
receiver that has received everything buffered is told `closed` if and only if no `Client` handle
is alive, and parks otherwise. So the subscribers of a connection whose `drive` returns after
its last handle was dropped are all told. -/
theorem subscribers_told_iff (acts : List Act) (s : Session)
    (h : exec step init acts = some s) :
    (s.drive.phase = .returned → ∀ (rx : Nat) (r : Receiver), s.receivers[rx]? = some r →
      s.Drained r →
        ((take s.drive.events r).1 = some (.error .closed) ↔ s.drive.clients = 0) ∧
        (s.drive.clients ≠ 0 → (take s.drive.events r).1 = none)) ∧
    (Along step EndsAlone init acts → s.Informed) := by
  constructor
  · intro hreturned rx r _ hdrained
    rw [drained_take h hreturned hdrained]
    by_cases hnone : s.drive.clients = 0 <;> simp [hnone]
  · intro halone hreturned rx r _ hdrained
    rw [drained_take h hreturned hdrained, if_pos (clients_exec h halone hreturned)]

/-- A subscriber, and the proxy closing the connection. -/
def closedByProxy : List Act :=
  [.subscribe 0, .drive (.receive .finished), .drive .finish]

/-- The handle is dropped first, and `drive` ends because of it. -/
def closedByDrop : List Act :=
  [.subscribe 0, .drive .drop, .drive (.take (.ok ())), .drive .finish]

theorem subscribers_told_iff_closedByDrop :
    ∃ s r, exec step init closedByDrop = some s ∧ s.receivers[0]? = some r ∧
      s.drive.phase = .returned ∧ (take s.drive.events r).1 = some (.error .closed) := by
  refine ⟨_, _, rfl, rfl, rfl, ?_⟩
  exact (subscribers_told_iff closedByDrop _ rfl).2 (by decide +kernel) rfl 0 _ rfl
    (Nat.le_refl _)

/-- The proxy is gone, the request side has been told, and the subscriber parks for as long as
the handle lives. -/
theorem subscriber_parks_closedByProxy :
    ∃ s r, exec step init closedByProxy = some s ∧ s.drive.phase = .returned ∧
      s.receivers[0]? = some r ∧ s.Drained r ∧ (take s.drive.events r).1 = none ∧
      ¬ s.Informed := by
  refine ⟨_, _, rfl, rfl, rfl, Nat.le_refl _, rfl, fun hinformed => ?_⟩
  have htold := hinformed rfl 0 _ rfl (Nat.le_refl _)
  cases htold

end Session

end AgencyProxy.Client
