import AgencyProxy.Lts

/-!
# The broadcast channel

`broadcast.rs` (the proxy and the client carry the same file): a bounded ring
whose slow receivers lag rather than block. `Shared` is the state behind the
mutex together with the capacity, and carries the ring's shape as fields; a
receiver is the position of the next value it will return. Every function here
is one critical section of the source.

`Promise.take` is what a receiver was promised: an unbounded queue of the values it has
not seen, of which all but the newest `capacity` may be charged as missed. `Tracks`
relates the ring to that queue, and `take_tracks` and `Tracks.push` say that the ring
implements it.
-/

namespace AgencyProxy.Broadcast

universe u

variable {α : Type u}

structure State (α : Type u) where
  buffer : List α
  /-- The position of `buffer[0]`. -/
  head : Nat
  senders : Nat
  receivers : Nat

structure Shared (α : Type u) extends State α where
  capacity : Nat
  capacity_pos : 0 < capacity
  bounded : buffer.length ≤ capacity
  /-- Values are only dropped from a full buffer, and it stays full. -/
  full : 0 < head → buffer.length = capacity

/-- `Receiver`: the position of the next value it will return. -/
structure Receiver where
  next : Nat
  deriving DecidableEq, Repr

structure SendError (α : Type u) where
  value : α

inductive RecvError where
  | closed
  | lagged (missed : Nat)
  deriving DecidableEq, Repr

/-- `channel`: one sender and one receiver; a capacity of zero is treated as one. -/
def channel (α : Type u) (capacity : Nat) : Shared α × Receiver :=
  ({ buffer := [], head := 0, senders := 1, receivers := 1, capacity := max capacity 1
     capacity_pos := by omega, bounded := by simp, full := by simp }, ⟨0⟩)

/-- `push_back`, then `pop_front` when the buffer is over capacity. -/
def Shared.push (sh : Shared α) (value : α) : Shared α :=
  let buffer := sh.buffer ++ [value]
  if excess : buffer.length > sh.capacity then
    { sh with
      buffer := buffer.tail, head := sh.head + 1
      bounded := by have := sh.bounded; simp [buffer]; omega
      full := fun _ => by have := sh.bounded; simp [buffer] at excess ⊢; omega }
  else
    { sh with
      buffer := buffer
      bounded := by omega
      full := fun h => by have := sh.full h; simp [buffer] at excess; omega }

/-- `Sender::send`: with no receiver the value is handed back and not kept. -/
def Shared.send (sh : Shared α) (value : α) : Except (SendError α) Nat × Shared α :=
  if sh.receivers = 0 then (.error ⟨value⟩, sh) else (.ok sh.receivers, sh.push value)

/-- `Sender::subscribe`: a receiver that sees every value sent from now on. -/
def Shared.subscribe (sh : Shared α) : Receiver × Shared α :=
  (⟨sh.head + sh.buffer.length⟩, { sh with receivers := sh.receivers + 1 })

/-- `Clone for Sender`. -/
def Shared.cloneSender (sh : Shared α) : Shared α := { sh with senders := sh.senders + 1 }

/-- `Drop for Sender`. -/
def Shared.dropSender (sh : Shared α) : Shared α := { sh with senders := sh.senders - 1 }

/-- `Drop for Receiver`. -/
def Shared.dropReceiver (sh : Shared α) : Shared α := { sh with receivers := sh.receivers - 1 }

/-- `take`: one check of the buffer by `recv`; `none` means the receiver parks. -/
def take (sh : Shared α) (rx : Receiver) : Option (Except RecvError α) × Receiver :=
  if rx.next < sh.head then (some (.error (.lagged (sh.head - rx.next))), ⟨sh.head⟩)
  else match sh.buffer[rx.next - sh.head]? with
    | some value => (some (.ok value), ⟨rx.next + 1⟩)
    | none => (if sh.senders = 0 then some (.error .closed) else none, rx)

/-! ## Field lemmas -/

section Fields

variable (sh : Shared α) (value : α)

@[simp] theorem Shared.push_senders : (sh.push value).senders = sh.senders := by
  unfold push; dsimp only; split <;> rfl

@[simp] theorem Shared.push_receivers : (sh.push value).receivers = sh.receivers := by
  unfold push; dsimp only; split <;> rfl

@[simp] theorem Shared.push_capacity : (sh.push value).capacity = sh.capacity := by
  unfold push; dsimp only; split <;> rfl

/-- The position one past the newest value. -/
def Shared.tail : Nat := sh.head + sh.buffer.length

@[simp] theorem Shared.push_tail : (sh.push value).tail = sh.tail + 1 := by
  unfold push tail; dsimp only
  split
  · simp; omega
  · simp; omega

@[simp] theorem Shared.send_senders : (sh.send value).2.senders = sh.senders := by
  unfold send; split <;> simp

@[simp] theorem Shared.send_receivers : (sh.send value).2.receivers = sh.receivers := by
  unfold send; split <;> simp

@[simp] theorem Shared.send_capacity : (sh.send value).2.capacity = sh.capacity := by
  unfold send; split <;> simp

/-- While a receiver lives, a send is a push. -/
theorem Shared.send_of_receivers (h : 0 < sh.receivers) :
    sh.send value = (.ok sh.receivers, sh.push value) := by
  unfold send; rw [if_neg (by omega)]

end Fields

/-- A receiver that has received everything buffered is told of a close, or parks. -/
theorem take_drained {sh : Shared α} {rx : Receiver} (h : sh.tail ≤ rx.next) :
    (take sh rx).1 = if sh.senders = 0 then some (.error .closed) else none := by
  unfold Shared.tail at h
  have hnone : sh.buffer[rx.next - sh.head]? = none := List.getElem?_eq_none (by omega)
  unfold take
  rw [if_neg (by omega), hnone]

/-! ## The promised queue -/

/-- What a receiver is promised to be told when `unseen` are the values sent to it that it has
not been told about: the oldest beyond `capacity` are charged as missed. -/
def Promise.take (capacity : Nat) (closed : Bool) (unseen : List α) :
    Option (Except RecvError α) × List α :=
  if capacity < unseen.length then
    (some (.error (.lagged (unseen.length - capacity))), unseen.drop (unseen.length - capacity))
  else match unseen with
    | value :: rest => (some (.ok value), rest)
    | [] => (if closed then some (.error .closed) else none, [])

/-- The ring holds, for the receiver `rx`, the newest of the values `unseen`. -/
structure Tracks (sh : Shared α) (rx : Receiver) (unseen : List α) : Prop where
  next_le : rx.next ≤ sh.tail
  behind : unseen.length = sh.tail - rx.next
  window : sh.buffer.drop (rx.next - sh.head) = unseen.drop (sh.head - rx.next)

theorem Tracks.subscribe (sh : Shared α) : Tracks (sh.subscribe).2 (sh.subscribe).1 [] where
  next_le := Nat.le_refl _
  behind := by simp [Shared.subscribe, Shared.tail]
  window := by simp [Shared.subscribe]

/-- Only the buffer and its position matter to a receiver. -/
theorem Tracks.congr {sh sh' : Shared α} {rx : Receiver} {unseen : List α}
    (h : Tracks sh rx unseen) (hb : sh'.buffer = sh.buffer) (hh : sh'.head = sh.head) :
    Tracks sh' rx unseen where
  next_le := by simpa [Shared.tail, hb, hh] using h.next_le
  behind := by simpa [Shared.tail, hb, hh] using h.behind
  window := by rw [hb, hh]; exact h.window

/-- A pushed value becomes the newest unseen value of every receiver. -/
theorem Tracks.push {sh : Shared α} {rx : Receiver} {unseen : List α} (h : Tracks sh rx unseen)
    (value : α) : Tracks (sh.push value) rx (unseen ++ [value]) where
  next_le := by rw [Shared.push_tail]; have := h.next_le; omega
  behind := by
    have := h.next_le
    rw [Shared.push_tail, List.length_append, h.behind, List.length_singleton]; omega
  window := by
    have hn := h.next_le
    have hu := h.behind
    have hw := h.window
    unfold Shared.tail at hn hu
    have hbuf : (sh.buffer ++ [value]).drop (rx.next - sh.head) =
        (unseen ++ [value]).drop (sh.head - rx.next) := by
      rw [List.drop_append_of_le_length (by omega), hw,
        List.drop_append_of_le_length (by omega)]
    unfold Shared.push
    dsimp only
    split
    · -- The oldest value leaves the ring: one more is charged to a receiver still behind it.
      simp only [List.drop_tail]
      rcases Nat.lt_or_ge sh.head rx.next with hlt | hge
      · rw [show rx.next - (sh.head + 1) + 1 = rx.next - sh.head by omega, hbuf]
        congr 1; omega
      · have h0 : rx.next - sh.head = 0 := by omega
        rw [h0, List.drop_zero] at hbuf
        rw [show rx.next - (sh.head + 1) + 1 = 1 by omega, hbuf, List.drop_drop]
        congr 1; omega
    · exact hbuf

theorem Tracks.send {sh : Shared α} {rx : Receiver} {unseen : List α} (h : Tracks sh rx unseen)
    (hr : 0 < sh.receivers) (value : α) : Tracks (sh.send value).2 rx (unseen ++ [value]) := by
  rw [Shared.send_of_receivers sh value hr]; exact h.push value

/-- A receiver is behind the ring exactly when it is more than the capacity behind. -/
theorem Tracks.lagging {sh : Shared α} {rx : Receiver} {unseen : List α}
    (h : Tracks sh rx unseen) : rx.next < sh.head ↔ sh.capacity < unseen.length := by
  have hb := h.behind
  have hn := h.next_le
  have hc := sh.bounded
  unfold Shared.tail at hb hn
  constructor
  · intro hlt
    have := sh.full (by omega)
    omega
  · omega

/-- **The ring keeps the promise**: one `take` answers as the promised queue does, and the
receiver then tracks what the promise leaves unseen. -/
theorem take_tracks {sh : Shared α} {rx : Receiver} {unseen : List α} (h : Tracks sh rx unseen) :
    (take sh rx).1 = (Promise.take sh.capacity (sh.senders = 0) unseen).1 ∧
      Tracks sh (take sh rx).2 (Promise.take sh.capacity (sh.senders = 0) unseen).2 := by
  have hb := h.behind
  have hn := h.next_le
  have hw := h.window
  unfold Shared.tail at hb hn
  by_cases hlag : rx.next < sh.head
  · have hcap := h.lagging.1 hlag
    have hfull := sh.full (by omega)
    have hmiss : unseen.length - sh.capacity = sh.head - rx.next := by omega
    simp only [take, hlag, ↓reduceIte, Promise.take, hcap, hmiss, true_and]
    refine ⟨by simp [Shared.tail], ?_, ?_⟩
    · simp only [List.length_drop, Shared.tail]; omega
    · rw [← hw]; simp [show rx.next - sh.head = 0 by omega]
  · have hcap : ¬ sh.capacity < unseen.length := fun hc => hlag (h.lagging.2 hc)
    rw [show sh.head - rx.next = 0 by omega, List.drop_zero] at hw
    have hget : sh.buffer[rx.next - sh.head]? = unseen.head? := by
      rw [← hw, List.head?_drop]
    simp only [take, hlag, ↓reduceIte, Promise.take, hcap, hget]
    cases unseen with
    | nil => exact ⟨by simp, h⟩
    | cons value rest =>
      refine ⟨rfl, ?_, ?_, ?_⟩
      · simp only [List.length_cons, List.head?_cons, Shared.tail] at hb ⊢; omega
      · simp only [List.length_cons, List.head?_cons, Shared.tail] at hb ⊢; omega
      · simp only [List.head?_cons]
        rw [show rx.next + 1 - sh.head = rx.next - sh.head + 1 by omega,
          show sh.head - (rx.next + 1) = 0 by omega, List.drop_zero,
          ← List.tail_drop, hw, List.tail_cons]

/-- A received value is the oldest unseen one. -/
theorem Tracks.take_ok {sh : Shared α} {rx rx' : Receiver} {unseen : List α} {value : α}
    (h : Tracks sh rx unseen) (ht : take sh rx = (some (.ok value), rx')) :
    ∃ rest, unseen = value :: rest ∧ Tracks sh rx' rest := by
  obtain ⟨hres, htr⟩ := take_tracks h
  rw [ht] at hres htr
  unfold Promise.take at hres htr
  split at hres
  · simp at hres
  · rename_i hlag
    rw [if_neg hlag] at htr
    cases unseen with
    | nil => simp only at hres; split at hres <;> simp at hres
    | cons v rest =>
      simp only [Option.some.injEq, Except.ok.injEq] at hres
      exact ⟨rest, by rw [hres], htr⟩

/-- A receiver that parks has been told about every value sent to it. -/
theorem Tracks.parked {sh : Shared α} {rx : Receiver} {unseen : List α}
    (h : Tracks sh rx unseen) (hp : (take sh rx).1 = none) : unseen = [] := by
  rw [(take_tracks h).1] at hp
  unfold Promise.take at hp
  split at hp
  · cases hp
  · cases unseen with
    | nil => rfl
    | cons value rest => cases hp

end AgencyProxy.Broadcast
