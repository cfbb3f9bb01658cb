import AgencyProxy.Broadcast

/-!
# Any number of channel handles

The channel with its live `Sender` and `Receiver` handles, driven by any sequence of
sends, subscriptions, clones, drops and receive steps. Each live receiver carries two
history variables: what was passed to `send` since it was created, and what `recv`
told it. `Peer.Exact` relates them through the promised queue; it is kept by every
step, so each receiver's observations are a prefix of what was sent to it, with the
missed values counted exactly.
-/

namespace AgencyProxy.Broadcast

open Lts Std

universe u

variable {α : Type u}

/-- What one `recv` told its receiver. -/
inductive Seen (α : Type u) where
  | value (v : α)
  | lagged (missed : Nat)

/-- A `Lagged(n)` stands for `n` missed values. -/
def Seen.told : Seen α → List (Option α)
  | .value v => [some v]
  | .lagged missed => List.replicate missed none

/-- A live receiver, with what was sent and what was told to it since its creation. -/
structure Peer (α : Type u) where
  rx : Receiver
  sent : List α
  seen : List (Seen α)

/-- The observations with every lag replaced by the values it stands for. -/
def Peer.told (p : Peer α) : List (Option α) := p.seen.flatMap Seen.told

/-- The values sent to the receiver that it has not been told about. -/
def Peer.unseen (p : Peer α) : List α := p.sent.drop p.told.length

structure Handles (α : Type u) where
  shared : Shared α
  senders : Finset Nat
  peers : ExtTreeMap Nat (Peer α)

/-- `channel`: sender `0` and receiver `0`. -/
def Handles.init (α : Type u) (capacity : Nat) : Handles α :=
  { shared := (channel α capacity).1
    senders := {0}
    peers := (∅ : ExtTreeMap Nat (Peer α)).insert 0 ⟨(channel α capacity).2, [], []⟩ }

inductive Act (α : Type u) where
  | send (tx : Nat) (value : α)
  | subscribe (tx rx : Nat)
  | cloneSender (tx tx' : Nat)
  | dropSender (tx : Nat)
  | dropReceiver (rx : Nat)
  | recv (rx : Nat)

/-- What a `recv` result adds to the observations: a close tells of no value. -/
def observe : Option (Except RecvError α) → List (Seen α)
  | some (.ok v) => [.value v]
  | some (.error (.lagged missed)) => [.lagged missed]
  | some (.error .closed) => []
  | none => []

def Peer.recv (sh : Shared α) (p : Peer α) : Peer α :=
  { p with rx := (take sh p.rx).2, seen := p.seen ++ observe (take sh p.rx).1 }

/-- A step needs the handle it goes through; new handles get an unused name. -/
def Handles.step (s : Handles α) : Act α → Option (Handles α)
  | .send tx value =>
    if tx ∈ s.senders then
      some { s with
        shared := (s.shared.send value).2
        peers := s.peers.map fun _ p => { p with sent := p.sent ++ [value] } }
    else none
  | .subscribe tx rx =>
    if tx ∈ s.senders ∧ rx ∉ s.peers then
      some { s with
        shared := s.shared.subscribe.2
        peers := s.peers.insert rx ⟨s.shared.subscribe.1, [], []⟩ }
    else none
  | .cloneSender tx tx' =>
    if tx ∈ s.senders ∧ tx' ∉ s.senders then
      some { s with shared := s.shared.cloneSender, senders := insert tx' s.senders }
    else none
  | .dropSender tx =>
    if tx ∈ s.senders then
      some { s with shared := s.shared.dropSender, senders := s.senders.erase tx }
    else none
  | .dropReceiver rx =>
    if rx ∈ s.peers then
      some { s with shared := s.shared.dropReceiver, peers := s.peers.erase rx }
    else none
  | .recv rx =>
    match s.peers[rx]? with
    | some p => some { s with peers := s.peers.insert rx (p.recv s.shared) }
    | none => none

/-- An observation stands in the place of the value that was sent there. -/
def Stands (o : Option α) (v : α) : Prop := ∀ x ∈ o, x = v

/-- A receiver was told exactly a prefix of what was sent, and the ring still holds the
newest of the rest. -/
structure Peer.Exact (sh : Shared α) (p : Peer α) : Prop where
  aligned : List.Forall₂ Stands p.told (p.sent.take p.told.length)
  tracks : Tracks sh p.rx p.unseen
  /-- Right after a lag the receiver stands at, or by later sends before, the oldest value. -/
  afterLag : (∃ missed, p.seen.getLast? = some (.lagged missed)) → p.rx.next ≤ sh.head

theorem Shared.head_le_push (sh : Shared α) (value : α) : sh.head ≤ (sh.push value).head := by
  unfold push; dsimp only; split
  · simp
  · simp

theorem Peer.told_length_le {sh : Shared α} {p : Peer α} (h : p.Exact sh) :
    p.told.length ≤ p.sent.length := by
  have := h.aligned.length_eq
  rw [List.length_take] at this
  omega

theorem Peer.Exact.fresh (sh : Shared α) :
    Peer.Exact sh.subscribe.2 ⟨sh.subscribe.1, [], []⟩ where
  aligned := .nil
  tracks := Tracks.subscribe sh
  afterLag := by simp

theorem Peer.Exact.congr {sh sh' : Shared α} {p : Peer α} (h : p.Exact sh)
    (hb : sh'.buffer = sh.buffer) (hh : sh'.head = sh.head) : p.Exact sh' :=
  ⟨h.aligned, h.tracks.congr hb hh, fun hl => hh ▸ h.afterLag hl⟩

/-- A sent value joins the unseen ones of every live receiver. -/
theorem Peer.Exact.send {sh : Shared α} {p : Peer α} (h : p.Exact sh) (hr : 0 < sh.receivers)
    (value : α) : Peer.Exact (sh.send value).2 { p with sent := p.sent ++ [value] } where
  aligned := by
    show List.Forall₂ Stands p.told ((p.sent ++ [value]).take p.told.length)
    rw [List.take_append_of_le_length (told_length_le h)]
    exact h.aligned
  tracks := by
    have ht := h.tracks.send hr value
    show Tracks _ _ ((p.sent ++ [value]).drop p.told.length)
    rwa [List.drop_append_of_le_length (told_length_le h)]
  afterLag := fun hl => by
    rw [Shared.send_of_receivers sh value hr]
    exact Nat.le_trans (h.afterLag hl) (sh.head_le_push value)

/-- The values a result tells about are the oldest unseen ones, in order. -/
theorem observe_promise (capacity : Nat) (closed : Bool) (unseen : List α) :
    ∃ k, k ≤ unseen.length ∧
      (Promise.take capacity closed unseen).2 = unseen.drop k ∧
      ((observe (Promise.take capacity closed unseen).1).flatMap Seen.told).length = k ∧
      List.Forall₂ Stands ((observe (Promise.take capacity closed unseen).1).flatMap Seen.told)
        (unseen.take k) := by
  unfold Promise.take
  split
  · rename_i hlag
    refine ⟨unseen.length - capacity, by omega, rfl, by simp [observe, Seen.told], ?_⟩
    simp only [observe, List.flatMap_cons, List.flatMap_nil, List.append_nil, Seen.told]
    rw [List.forall₂_iff_get]
    refine ⟨by simp, fun i _ _ => ?_⟩
    simp [Stands]
  · cases unseen with
    | nil => cases closed <;> exact ⟨0, Nat.le_refl _, rfl, rfl, .nil⟩
    | cons value rest =>
      refine ⟨1, by simp, by simp, rfl, ?_⟩
      simp [observe, Seen.told, Stands]

theorem Peer.told_recv (sh : Shared α) (p : Peer α) :
    (p.recv sh).told = p.told ++ (observe (take sh p.rx).1).flatMap Seen.told := by
  simp [Peer.told, Peer.recv]

theorem take_lagged_next {sh : Shared α} {rx : Receiver} {missed : Nat}
    (h : (take sh rx).1 = some (.error (.lagged missed))) : (take sh rx).2.next = sh.head := by
  unfold take at h ⊢
  split
  · rfl
  · rename_i hlag
    rw [if_neg hlag] at h
    split at h
    · simp at h
    · simp only at h
      split at h <;> simp at h

/-- A receive step that tells of no value leaves the receiver where it was. -/
theorem take_silent {sh : Shared α} {rx : Receiver} (h : observe (take sh rx).1 = []) :
    (take sh rx).2 = rx := by
  unfold take at h ⊢
  split
  · rename_i hlag
    simp [hlag, observe] at h
  · rename_i hlag
    rw [if_neg hlag] at h
    split
    · rename_i hget
      simp [hget, observe] at h
    · rfl

/-- A receive step keeps the receiver exact. -/
theorem Peer.Exact.recv {sh : Shared α} {p : Peer α} (h : p.Exact sh) : (p.recv sh).Exact sh := by
  obtain ⟨hres, htr⟩ := take_tracks h.tracks
  obtain ⟨k, hk, hrest, hlen, hal⟩ := observe_promise sh.capacity (sh.senders = 0) p.unseen
  rw [← hres] at hlen hal
  have htold : (p.recv sh).told.length = p.told.length + k := by
    rw [Peer.told_recv, List.length_append, hlen]
  have hsent : (p.recv sh).sent = p.sent := rfl
  refine ⟨?_, ?_, ?_⟩
  · rw [htold, hsent, List.take_add, Peer.told_recv]
    exact List.rel_append h.aligned hal
  · rw [hrest] at htr
    show Tracks sh (take sh p.rx).2 ((p.recv sh).sent.drop (p.recv sh).told.length)
    rw [htold, hsent, ← List.drop_drop]
    exact htr
  · rintro ⟨missed, hm⟩
    show (take sh p.rx).2.next ≤ sh.head
    have hm' : (p.seen ++ observe (take sh p.rx).1).getLast? = some (.lagged missed) := hm
    -- Either this step lagged, or it told nothing and the receiver did not move.
    cases ho : observe (take sh p.rx).1 with
    | nil =>
      rw [take_silent ho]
      exact h.afterLag ⟨missed, by simpa [ho] using hm'⟩
    | cons o os =>
      match hr : (take sh p.rx).1 with
      | some (.ok v) => simp [hr, observe] at hm'
      | some (.error (.lagged n)) => exact Nat.le_of_eq (take_lagged_next hr)
      | some (.error .closed) => simp [hr, observe] at ho
      | none => simp [hr, observe] at ho

/-! ## Every reachable state -/

/-- The counters count the live handles and every live receiver is exact. -/
structure Handles.Inv (capacity : Nat) (s : Handles α) : Prop where
  capacity : s.shared.capacity = max capacity 1
  senders : s.shared.senders = s.senders.card
  receivers : s.shared.receivers = s.peers.size
  peers : ∀ (rx : Nat) (p : Peer α), s.peers[rx]? = some p → p.Exact s.shared

theorem Handles.inv_init (capacity : Nat) : (Handles.init α capacity).Inv capacity where
  capacity := rfl
  senders := rfl
  receivers := by simp [Handles.init, channel, ExtTreeMap.size_insert]
  peers := by
    intro rx p hp
    simp only [Handles.init, ExtTreeMap.getElem?_insert] at hp
    split at hp
    · cases hp
      exact ⟨.nil, ⟨Nat.le_refl _, rfl, rfl⟩, by simp⟩
    · simp at hp

theorem size_pos_of_getElem? {m : ExtTreeMap Nat (Peer α)} {rx : Nat} {p : Peer α}
    (h : m[rx]? = some p) : 0 < m.size := by
  rw [Nat.pos_iff_ne_zero, Ne, ← ExtTreeMap.eq_empty_iff_size_eq_zero]
  rintro rfl
  simp at h

/-- One step keeps the invariant. -/
theorem Handles.Inv.step {capacity : Nat} {s s' : Handles α} {a : Act α} (h : s.Inv capacity)
    (hs : s.step a = some s') : s'.Inv capacity := by
  cases a with
  | send tx value =>
    simp only [Handles.step] at hs
    split at hs
    · cases hs
      refine ⟨by simpa using h.capacity, by simpa using h.senders, ?_, ?_⟩
      · simpa [ExtTreeMap.size_map] using h.receivers
      · intro rx p hp
        simp only [ExtTreeMap.getElem?_map, Option.map_eq_some_iff] at hp
        obtain ⟨q, hq, rfl⟩ := hp
        have hr : 0 < s.shared.receivers := h.receivers ▸ size_pos_of_getElem? hq
        exact (h.peers rx q hq).send hr value
    · cases hs
  | subscribe tx rx =>
    simp only [Handles.step] at hs
    split at hs
    · rename_i hg
      cases hs
      refine ⟨h.capacity, h.senders, ?_, ?_⟩
      · have hn : s.peers.contains rx = false := Bool.eq_false_iff.2 hg.2
        simp [Shared.subscribe, ExtTreeMap.size_insert, hn, h.receivers]
      · intro rx' p hp
        simp only [ExtTreeMap.getElem?_insert] at hp
        split at hp
        · cases hp; exact Peer.Exact.fresh s.shared
        · exact (h.peers rx' p hp).congr rfl rfl
    · cases hs
  | cloneSender tx tx' =>
    simp only [Handles.step] at hs
    split at hs
    · rename_i hg
      cases hs
      refine ⟨h.capacity, ?_, h.receivers, fun rx p hp => (h.peers rx p hp).congr rfl rfl⟩
      simp [Shared.cloneSender, Finset.card_insert_of_notMem hg.2, h.senders]
    · cases hs
  | dropSender tx =>
    simp only [Handles.step] at hs
    split at hs
    · rename_i hg
      cases hs
      refine ⟨h.capacity, ?_, h.receivers, fun rx p hp => (h.peers rx p hp).congr rfl rfl⟩
      simp [Shared.dropSender, Finset.card_erase_of_mem hg, h.senders]
    · cases hs
  | dropReceiver rx =>
    simp only [Handles.step] at hs
    split at hs
    · rename_i hg
      cases hs
      refine ⟨h.capacity, h.senders, ?_, ?_⟩
      · have hc : s.peers.contains rx = true := hg
        simp [Shared.dropReceiver, ExtTreeMap.size_erase, hc, h.receivers]
      · intro rx' p hp
        simp only [ExtTreeMap.getElem?_erase] at hp
        split at hp
        · cases hp
        · exact (h.peers rx' p hp).congr rfl rfl
    · cases hs
  | recv rx =>
    simp only [Handles.step] at hs
    split at hs
    · rename_i p hp
      cases hs
      refine ⟨h.capacity, h.senders, ?_, ?_⟩
      · have hc : s.peers.contains rx = true := by
          rw [ExtTreeMap.contains_eq_isSome_getElem?, hp]; rfl
        simp [ExtTreeMap.size_insert, hc, h.receivers]
      · intro rx' q hq
        simp only [ExtTreeMap.getElem?_insert] at hq
        split at hq
        · cases hq; exact (h.peers rx p hp).recv
        · exact h.peers rx' q hq
    · cases hs

theorem Handles.inv_exec {capacity : Nat} {acts : List (Act α)} {s : Handles α}
    (h : exec Handles.step (Handles.init α capacity) acts = some s) : s.Inv capacity :=
  exec_inv' (fun _ _ _ hi hs => hi.step hs) (Handles.inv_init capacity) h

/-! ## What a receive step reports -/

/-- A lag is reported exactly when more than the capacity is unseen, and counts the excess. -/
theorem Peer.Exact.take_lagged {sh : Shared α} {p : Peer α} (h : p.Exact sh) (missed : Nat) :
    (take sh p.rx).1 = some (.error (.lagged missed)) ↔
      sh.capacity < p.unseen.length ∧ missed = p.unseen.length - sh.capacity := by
  rw [(take_tracks h.tracks).1]
  unfold Promise.take
  split
  · rename_i hlag
    simp [hlag, eq_comm]
  · rename_i hlag
    simp only [hlag, false_and, iff_false]
    cases p.unseen with
    | nil => simp only; split <;> simp
    | cons v rest => simp

/-- The buffer is what stays unseen once the lag has been charged. -/
theorem Peer.Exact.buffer_of_lagged {sh : Shared α} {p : Peer α} {missed : Nat} (h : p.Exact sh)
    (hl : (take sh p.rx).1 = some (.error (.lagged missed))) :
    sh.buffer = p.unseen.drop missed := by
  obtain ⟨hlag, rfl⟩ := (h.take_lagged missed).1 hl
  have hlt := h.tracks.lagging.2 hlag
  have hfull := sh.full (by omega)
  have hw := h.tracks.window
  have hb := h.tracks.behind
  unfold Shared.tail at hb
  rw [show p.rx.next - sh.head = 0 by omega, List.drop_zero] at hw
  rw [hw]; congr 1; omega

theorem Peer.Exact.take_closed {sh : Shared α} {p : Peer α} (h : p.Exact sh)
    (hc : (take sh p.rx).1 = some (.error .closed)) : sh.senders = 0 ∧ p.unseen = [] := by
  rw [(take_tracks h.tracks).1] at hc
  unfold Promise.take at hc
  split at hc
  · simp at hc
  · cases hu : p.unseen with
    | nil =>
      rw [hu] at hc
      refine ⟨?_, rfl⟩
      by_contra hs
      simp [hs] at hc
    | cons v rest => rw [hu] at hc; simp at hc

/-- The first value after a lag is the oldest still buffered, whatever was sent meanwhile. -/
theorem Peer.Exact.value_after_lag {sh : Shared α} {p : Peer α} {missed : Nat} {v : α}
    (h : p.Exact sh) (hl : p.seen.getLast? = some (.lagged missed))
    (hv : (take sh p.rx).1 = some (.ok v)) : sh.buffer.head? = some v := by
  have hle := h.afterLag ⟨missed, hl⟩
  unfold take at hv
  split at hv
  · simp at hv
  · rename_i hge
    rw [show p.rx.next - sh.head = 0 by omega] at hv
    split at hv
    · rename_i w hw
      simp only [Option.some.injEq, Except.ok.injEq] at hv
      rw [List.head?_eq_getElem?, hw, hv]
    · simp only at hv
      split at hv <;> simp at hv

/-- **Broadcast exactness.** In every state that any sequence of handle operations reaches from
a fresh channel, every live receiver was told exactly the values sent since it was created,
in order, each lag standing for the oldest unseen ones; and the counters count the handles. -/
theorem broadcast_exact (capacity : Nat) (acts : List (Act α)) (s : Handles α)
    (h : exec Handles.step (Handles.init α capacity) acts = some s) :
    (∀ (rx : Nat) (p : Peer α), s.peers[rx]? = some p →
      List.Forall₂ Stands p.told (p.sent.take p.told.length) ∧
      (∀ missed, (take s.shared p.rx).1 = some (.error (.lagged missed)) ↔
        max capacity 1 < p.sent.length - p.told.length ∧
          missed = p.sent.length - p.told.length - max capacity 1) ∧
      (∀ missed, (take s.shared p.rx).1 = some (.error (.lagged missed)) →
        s.shared.buffer = p.sent.drop (p.told.length + missed)) ∧
      (∀ missed v, p.seen.getLast? = some (.lagged missed) →
        (take s.shared p.rx).1 = some (.ok v) → s.shared.buffer.head? = some v) ∧
      ((take s.shared p.rx).1 = some (.error .closed) →
        s.senders = ∅ ∧ p.told.length = p.sent.length)) ∧
    s.shared.buffer.length ≤ max capacity 1 ∧
    (s.shared.senders = s.senders.card ∧ ∀ tx ∈ s.senders, 0 < s.shared.senders) ∧
    (s.shared.receivers = s.peers.size ∧ ∀ rx ∈ s.peers, 0 < s.shared.receivers) := by
  have inv := Handles.inv_exec h
  refine ⟨fun rx p hp => ?_, inv.capacity ▸ s.shared.bounded, ⟨inv.senders, fun tx htx => ?_⟩,
    inv.receivers, fun rx hrx => ?_⟩
  · have ex := inv.peers rx p hp
    have hlen : p.unseen.length = p.sent.length - p.told.length := List.length_drop
    refine ⟨ex.aligned, fun missed => ?_, fun missed hl => ?_,
      fun missed v hl hv => ex.value_after_lag hl hv, fun hc => ?_⟩
    · rw [ex.take_lagged missed, inv.capacity, hlen]
    · rw [ex.buffer_of_lagged hl, Peer.unseen, List.drop_drop]
    · obtain ⟨h0, hu⟩ := ex.take_closed hc
      have hle := Peer.told_length_le ex
      rw [hu, List.length_nil] at hlen
      exact ⟨Finset.card_eq_zero.1 (inv.senders ▸ h0), by omega⟩
  · rw [inv.senders]
    exact Finset.card_pos.2 ⟨tx, htx⟩
  · obtain ⟨p, hp⟩ := Option.isSome_iff_exists.1 (ExtTreeMap.mem_iff_isSome_getElem?.1 hrx)
    exact inv.receivers ▸ size_pos_of_getElem? hp

/-- A slow receiver of a two-value channel: five sends, then a lag of three and value `4`. -/
def slowReceiver : List (Act Nat) :=
  [.send 0 1, .send 0 2, .send 0 3, .cloneSender 0 1, .send 1 4, .send 0 5, .recv 0, .recv 0]

theorem broadcast_exact_slowReceiver :
    ∃ s p, exec Handles.step (Handles.init Nat 2) slowReceiver = some s ∧
      s.peers[0]? = some p ∧ p.told = [none, none, none, some 4] ∧
      List.Forall₂ Stands p.told (p.sent.take p.told.length) :=
  ⟨_, _, rfl, rfl, rfl, ((broadcast_exact 2 slowReceiver _ rfl).1 0 _ rfl).1⟩

end AgencyProxy.Broadcast
