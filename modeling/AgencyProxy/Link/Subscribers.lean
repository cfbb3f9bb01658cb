import AgencyProxy.Broadcast.Handles
import AgencyProxy.Daemon.Draining
import AgencyProxy.Daemon.Published
import AgencyProxy.Link.Requests

/-!
# What a subscriber hears

A client with the receivers of its `Client::subscribe`. An event of a run comes to them from the
provider by way of the run's journal and channel, a forwarder, the connection's queue, the socket
and the client's own channel. Each of these keeps its part of the promise; here they are put
together: what a subscriber is told is what the client read since it subscribed, in order and with
any gap announced; all of it was published; and once nothing is on its way any more, a
subscriber that was told of no gap has every event of an attachment that was not acknowledged.
-/

namespace AgencyProxy

open AgencyProxy.Client AgencyProxy.Runtime Std Lts Broadcast

/-! ## Event frames -/

/-- The frame, if it is one of an event. -/
def Written.eventFrame? (w : Written) : Option ServerFrame := w.spoken.map fun p => eventFrame p.2

/-- The event frames of a log. -/
def eventFrames (log : List Written) : List ServerFrame := log.filterMap Written.eventFrame?

@[simp] theorem eventFrames_snoc (log : List Written) (w : Written) :
    eventFrames (log ++ [w]) = eventFrames log ++ w.eventFrame?.toList := by
  cases h : w.eventFrame? <;> simp [eventFrames, h]

theorem mem_eventFrames {log : List Written} {n : Nat} {e : SequencedEvent}
    (h : e ∈ spokenBy n log) : eventFrame e ∈ eventFrames log := by
  obtain ⟨w, hw, he⟩ := List.mem_filterMap.1 h
  refine List.mem_filterMap.2 ⟨w, hw, ?_⟩
  obtain ⟨p, hp, he⟩ := Option.bind_eq_some_iff.1 he
  split at he
  · cases he
    simp [Written.eventFrame?, hp]
  · cases he

/-! ## The client's channel -/

namespace Client.Drive

/-- The channel holds the same values for the same receivers. -/
structure SameRing (sh sh' : Broadcast.Shared ServerFrame) : Prop where
  buffer : sh'.buffer = sh.buffer
  head : sh'.head = sh.head
  receivers : sh'.receivers = sh.receivers

theorem SameRing.refl (sh : Broadcast.Shared ServerFrame) : SameRing sh sh := ⟨rfl, rfl, rfl⟩

variable {s s' : Drive}

theorem events_heard {id : RunId} {sequence : Nat} {event : RunEvent}
    (h : s.step (.receive (.frame (.event id sequence event))) = some s') :
    s'.events = (s.events.send (.event id sequence event)).2 := by
  simp only [step, receive] at h
  split at h
  · split at h
    · cases h; rfl
    · cases h
  · cases h

/-- Only event frames are sent on it. -/
theorem events_still {a : Act} (h : s.step a = some s')
    (hreceive : ∀ id sequence event, a ≠ .receive (.frame (.event id sequence event)))
    (hsub : a ≠ .subscribe) (hunsub : a ≠ .unsubscribe) : SameRing s.events s'.events := by
  cases a with
  | request message =>
    simp only [step, request] at h
    split at h
    · cases h
    · split at h <;> cases h <;> exact .refl _
  | clone | drop =>
    simp only [step] at h
    split at h
    · cases h
    · cases h; exact ⟨rfl, rfl, rfl⟩
  | subscribe => exact absurd rfl hsub
  | unsubscribe => exact absurd rfl hunsub
  | take encoded =>
    simp only [step, take] at h
    split at h
    · cases encoded <;> cases h <;> exact .refl _
    · split at h
      · cases h; exact .refl _
      · cases h
    · cases h
  | sent result =>
    simp only [step, Drive.sent] at h
    split at h
    · cases result <;> cases h <;> exact .refl _
    · cases h
  | receive incoming =>
    simp only [step, receive] at h
    split at h
    · split at h
      · cases incoming with
        | frame frame =>
          cases frame with
          | response requestId response =>
            dsimp only at h
            split at h <;> cases h <;> exact .refl _
          | event id sequence event => exact absurd rfl (hreceive id sequence event)
        | _ => cases h; exact .refl _
      · cases h
    · cases h
  | notify requestId =>
    simp only [step, notify] at h
    split at h
    · cases h; exact .refl _
    · cases h
  | finish =>
    simp only [step, finish] at h
    split at h
    · split at h
      · cases h; exact ⟨rfl, rfl, rfl⟩
      · cases h
    · cases h

end Client.Drive

/-! ## What a receiver has been told -/

namespace Broadcast.Peer.Exact

variable {α : Type*} {sh : Broadcast.Shared α} {p : Broadcast.Peer α}

/-- A value that a receiver was told was sent to it. -/
theorem mem_sent (h : p.Exact sh) {v : α} (hv : .value v ∈ p.seen) : v ∈ p.sent := by
  have htold : some v ∈ p.told :=
    List.mem_flatMap.2 ⟨.value v, hv, List.mem_singleton_self _⟩
  obtain ⟨i, hi, he⟩ := List.getElem_of_mem htold
  obtain ⟨hlen, hget⟩ := List.forall₂_iff_get.1 h.aligned
  have hstands := hget i hi (hlen ▸ hi)
  rw [List.get_eq_getElem, he] at hstands
  rw [hstands v rfl]
  exact List.mem_of_mem_take (List.get_mem _ _)

/-- A receiver that was told of no lag and has nothing left to receive was told everything. -/
theorem values (h : p.Exact sh) (hlag : ∀ missed, .lagged missed ∉ p.seen)
    (hdrained : sh.tail ≤ p.rx.next) : p.seen = p.sent.map .value := by
  obtain ⟨vs, hvs⟩ : ∃ vs : List α, p.seen = vs.map .value := by
    clear h hdrained
    generalize p.seen = seen at hlag ⊢
    induction seen with
    | nil => exact ⟨[], rfl⟩
    | cons x seen ih =>
      obtain ⟨vs, rfl⟩ := ih fun missed hm => hlag missed (List.mem_cons_of_mem _ hm)
      cases x with
      | value v => exact ⟨v :: vs, rfl⟩
      | lagged missed => exact absurd List.mem_cons_self (hlag missed)
  have htold : p.told = vs.map some := by
    rw [told, hvs, List.flatMap_map]
    exact List.flatMap_pure_eq_map some vs
  have hall : p.sent.length ≤ p.told.length := by
    have hbehind := h.tracks.behind
    have hdrop : p.unseen.length = p.sent.length - p.told.length := List.length_drop
    omega
  have haligned := h.aligned
  rw [List.take_of_length_le hall, htold, List.forall₂_map_left_iff] at haligned
  have heq : List.Forall₂ Eq vs p.sent := haligned.imp fun v w hvw => hvw v rfl
  rw [List.forall₂_eq_eq_eq] at heq
  rw [hvs, heq]

end Broadcast.Peer.Exact

/-! ## The client and its subscribers -/

structure Subscriber where
  rx : Broadcast.Receiver
  /-- History: how much the client had read when it subscribed. -/
  since : Nat
  /-- History: what its `recv` returned. -/
  seen : List (Seen ServerFrame)

namespace Subscriber

/-- The event frames that the client read since. -/
def offered (x : Subscriber) (read : List Written) : List ServerFrame :=
  eventFrames (read.drop x.since)

/-- The subscriber as a receiver of the client's channel. -/
def peer (x : Subscriber) (read : List Written) : Broadcast.Peer ServerFrame :=
  ⟨x.rx, x.offered read, x.seen⟩

/-- One check of the channel by `recv`. -/
def recv (x : Subscriber) (events : Broadcast.Shared ServerFrame) : Subscriber :=
  { x with rx := (take events x.rx).2, seen := x.seen ++ observe (take events x.rx).1 }

end Subscriber

structure Audience where
  link : Link
  subscribers : ExtTreeMap Nat Subscriber

namespace Audience

variable {P : Type}

def init : Audience := ⟨.init, ∅⟩

inductive Act (P : Type) where
  | link (a : Link.Act P)
  | subscribe (n : Nat)
  | recv (n : Nat)
  | unsubscribe (n : Nat)

/-- The client's channel. -/
def events (s : Audience) : Broadcast.Shared ServerFrame := s.link.peer.drive.events

/-- Receivers come and go by the subscribers' own steps. -/
def subscribes : Link.Act P → Bool
  | .peer (.drive .subscribe) | .peer (.drive .unsubscribe) => true
  | _ => false

def step (toValue : P → Except String Value) (debug : ServerResponse → String) (c : Nat)
    (s : Audience) : Act P → Option Audience
  | .link a =>
    if subscribes a then none
    else (s.link.step toValue debug c a).map fun link => { s with link }
  | .subscribe n =>
    if n ∈ s.subscribers then none
    else (s.link.step toValue debug c (.peer (.drive .subscribe))).map fun link =>
      ⟨link, s.subscribers.insert n ⟨s.events.subscribe.1, s.link.read.length, []⟩⟩
  | .recv n =>
    match s.subscribers[n]? with
    | some x => some { s with subscribers := s.subscribers.insert n (x.recv s.events) }
    | none => none
  | .unsubscribe n =>
    if n ∈ s.subscribers then
      (s.link.step toValue debug c (.peer (.drive .unsubscribe))).map fun link =>
        ⟨link, s.subscribers.erase n⟩
    else none

variable {toValue : P → Except String Value} {debug : ServerResponse → String} {c : Nat}
  {l l' : Link} {s s' : Audience}

/-- What a step of the link is to the subscribers: the client reads a frame, or nothing. -/
theorem link_events {a : Link.Act P} (h : l.step toValue debug c a = some l')
    (ha : subscribes a = false) :
    (∃ w frame, l'.read = l.read ++ [w] ∧ w.eventFrame? = some frame ∧
      l'.peer.drive.events = (l.peer.drive.events.send frame).2) ∨
    (∃ more, l'.read = l.read ++ more ∧ eventFrames more = []) ∧
      Drive.SameRing l.peer.drive.events l'.peer.drive.events := by
  obtain ⟨b, d, -, -, -, rfl⟩ | ⟨conn, q, d, -, -, -, -, rfl⟩ | ⟨b, p, rfl, hb, hp, rfl⟩ |
    ⟨w, drive, -, -, hd, rfl⟩ := Link.step_cases h
  · exact .inr ⟨⟨[], by simp, rfl⟩, .refl _⟩
  · exact .inr ⟨⟨[], by simp, rfl⟩, .refl _⟩
  · refine .inr ⟨⟨[], by simp, rfl⟩, ?_⟩
    obtain ⟨b, rfl, -, drive, hd, rfl⟩ | ⟨_, _, -, -, -, rfl⟩ | ⟨drive, _, -, hd, rfl, -⟩ :=
      Peer.step_cases hp
    · refine Drive.events_still hd (fun id sequence event he => ?_) (fun he => ?_) fun he => ?_
      · subst he; cases hb
      · subst he; cases ha
      · subst he; cases ha
    · exact .refl _
    · exact Drive.events_still hd (by simp) (by simp) (by simp)
  · cases w with
    | response request response =>
      refine .inr ⟨⟨_, rfl, rfl⟩, ?_⟩
      exact Drive.events_still hd (by simp [Written.frame]) (by simp) (by simp)
    | replayed n e | live n e => exact .inl ⟨_, eventFrame e, rfl, rfl, Drive.events_heard hd⟩

/-- Each subscriber is a receiver of the channel, exact for what was read since it came. -/
structure Tuned (s : Audience) : Prop where
  counted : s.events.receivers = s.subscribers.size
  since : ∀ (n : Nat) (x : Subscriber), s.subscribers[n]? = some x →
    x.since ≤ s.link.read.length
  exact : ∀ (n : Nat) (x : Subscriber), s.subscribers[n]? = some x →
    (x.peer s.link.read).Exact s.events

theorem tuned_init : init.Tuned :=
  ⟨by simp [events, init, Link.init, Peer.init, Drive.init, Broadcast.channel,
      Broadcast.Shared.dropReceiver, Broadcast.Shared.cloneSender],
    fun n x hx => by simp [init] at hx, fun n x hx => by simp [init] at hx⟩

/-- The client reads a frame that is one of an event. -/
theorem Tuned.heard {w : Written} {frame : ServerFrame} (h : s.Tuned)
    (hread : l'.read = s.link.read ++ [w]) (hw : w.eventFrame? = some frame)
    (he : l'.peer.drive.events = (s.events.send frame).2) :
    ({ s with link := l' } : Audience).Tuned := by
  refine ⟨?_, fun n x hx => ?_, fun n x hx => ?_⟩
  · have hr : (s.events.send frame).2.receivers = s.events.receivers := by
      unfold Broadcast.Shared.send
      split <;> simp
    rw [← h.counted, ← hr]
    simp only [events, he]
  · have := h.since n x hx
    simp only [hread, List.length_append]
    omega
  · have hpos : 0 < s.events.receivers := h.counted ▸ (by
      rw [Nat.pos_iff_ne_zero, Ne, ← ExtTreeMap.eq_empty_iff_size_eq_zero]
      intro hempty
      rw [hempty] at hx
      simp at hx)
    have hsent := (h.exact n x hx).send hpos frame
    have hoffered : x.offered l'.read = x.offered s.link.read ++ [frame] := by
      rw [Subscriber.offered, hread, List.drop_append_of_le_length (h.since n x hx),
        eventFrames_snoc, hw]
      rfl
    simpa only [events, he, Subscriber.peer, hoffered] using hsent

/-- A step that is nothing to the subscribers. -/
theorem Tuned.still {more : List Written} (h : s.Tuned) (hread : l'.read = s.link.read ++ more)
    (hmore : eventFrames more = []) (hring : Drive.SameRing s.events l'.peer.drive.events) :
    ({ s with link := l' } : Audience).Tuned := by
  refine ⟨hring.receivers.trans h.counted, fun n x hx => ?_, fun n x hx => ?_⟩
  · have := h.since n x hx
    simp only [hread, List.length_append]
    omega
  · have hoffered : x.offered l'.read = x.offered s.link.read := by
      rw [Subscriber.offered, hread, List.drop_append_of_le_length (h.since n x hx), eventFrames,
        List.filterMap_append]
      exact (congrArg _ hmore).trans (List.append_nil _)
    have hexact := (h.exact n x hx).congr hring.buffer hring.head
    simpa only [events, Subscriber.peer, hoffered] using hexact

/-- A receiver comes or goes; the client reads nothing. -/
theorem drive_step {a : Drive.Act} (h : l.step toValue debug c (.peer (.drive a)) = some l')
    (ha : Link.reads (.drive a) = false) :
    l'.read = l.read ∧ l.peer.drive.step a = some l'.peer.drive := by
  simp only [Link.step, ha] at h
  obtain ⟨p, hp, rfl⟩ := Option.map_eq_some_iff.1 h
  simp only [Peer.step] at hp
  split at hp
  · cases hp
  · obtain ⟨drive, hd, rfl⟩ := Option.map_eq_some_iff.1 hp
    exact ⟨rfl, hd⟩

theorem Tuned.step {a : Act P} (h : s.Tuned) (hs : s.step toValue debug c a = some s') :
    s'.Tuned := by
  cases a with
  | link a =>
    simp only [Audience.step] at hs
    split at hs
    · cases hs
    · rename_i ha
      obtain ⟨l', hl, rfl⟩ := Option.map_eq_some_iff.1 hs
      obtain ⟨w, frame, hread, hw, he⟩ | ⟨⟨more, hread, hmore⟩, hring⟩ :=
        link_events hl (by simpa using ha)
      · exact h.heard hread hw he
      · exact h.still hread hmore hring
  | subscribe n =>
    simp only [Audience.step] at hs
    split at hs
    · cases hs
    · rename_i hn
      obtain ⟨l', hl, rfl⟩ := Option.map_eq_some_iff.1 hs
      obtain ⟨hread, hd⟩ := drive_step hl rfl
      simp only [Drive.step] at hd
      split at hd
      · cases hd
      · have he : l'.peer.drive.events = s.events.subscribe.2 :=
          congrArg Drive.events (Option.some.inj hd).symm
        have hfresh : s.subscribers.contains n = false := Bool.eq_false_iff.2 hn
        have hsize : ∀ x, l'.peer.drive.events.receivers = (s.subscribers.insert n x).size :=
          fun x => by
          rw [he]
          simp [Broadcast.Shared.subscribe, ExtTreeMap.size_insert, hfresh, h.counted]
        have hlen : s.link.read.length ≤ l'.read.length := by rw [hread]
        refine ⟨hsize _, ExtTreeMap.forall_insert (fun m x hx => (h.since m x hx).trans hlen) hlen,
          ExtTreeMap.forall_insert (fun m x hx => ?_) ?_⟩
        · have hexact : (x.peer l'.read).Exact l'.peer.drive.events := by
            rw [he, hread]
            exact (h.exact m x hx).congr rfl rfl
          exact hexact
        · have hfirst : (Subscriber.peer ⟨s.events.subscribe.1, s.link.read.length, []⟩
              l'.read).Exact l'.peer.drive.events := by
            rw [he, hread, Subscriber.peer, Subscriber.offered, List.drop_length]
            exact Broadcast.Peer.Exact.fresh s.events
          exact hfirst
  | recv n =>
    simp only [Audience.step] at hs
    split at hs
    · rename_i x hx
      cases hs
      refine ⟨?_, ExtTreeMap.forall_insert h.since (h.since n x hx),
        ExtTreeMap.forall_insert h.exact (h.exact n x hx).recv⟩
      have hc : s.subscribers.contains n = true := by
        rw [ExtTreeMap.contains_eq_isSome_getElem?, hx]; rfl
      have hsize : (s.subscribers.insert n (x.recv s.events)).size = s.subscribers.size := by
        simp [ExtTreeMap.size_insert, hc]
      exact h.counted.trans hsize.symm
    · cases hs
  | unsubscribe n =>
    simp only [Audience.step] at hs
    split at hs
    · rename_i hn
      obtain ⟨l', hl, rfl⟩ := Option.map_eq_some_iff.1 hs
      obtain ⟨hread, hd⟩ := drive_step hl rfl
      simp only [Drive.step] at hd
      split at hd
      · cases hd
      · have he : l'.peer.drive.events = s.events.dropReceiver :=
          congrArg Drive.events (Option.some.inj hd).symm
        have hc : s.subscribers.contains n = true := hn
        have hsize : l'.peer.drive.events.receivers = (s.subscribers.erase n).size := by
          rw [he]
          simp [Broadcast.Shared.dropReceiver, ExtTreeMap.size_erase, hc, h.counted]
        have hback : ∀ (m : Nat) (x : Subscriber), (s.subscribers.erase n)[m]? = some x →
            s.subscribers[m]? = some x := fun m x hx => (ExtTreeMap.getElem?_erase_some.1 hx).2
        refine ⟨hsize, fun m x hx => by rw [hread]; exact h.since m x (hback m x hx),
          fun m x hx => ?_⟩
        have hexact : (x.peer l'.read).Exact l'.peer.drive.events := by
          rw [he, hread]
          exact (h.exact m x (hback m x hx)).congr rfl rfl
        exact hexact
    · cases hs

theorem tuned_exec {acts : List (Act P)} (h : exec (step toValue debug c) init acts = some s) :
    s.Tuned :=
  exec_inv' (fun _ _ _ hi hs => hi.step hs) tuned_init h

/-! ## The link below -/

/-- Other callers of the registry drop only receivers of their own. -/
def owned (s : Audience) : Act P → Bool
  | .link (.daemon a) => s.link.daemon.owned a
  | _ => true

theorem step_link {a : Act P} (h : s.step toValue debug c a = some s') :
    (∃ b, a = .link b ∧ s.link.step toValue debug c b = some s'.link) ∨
      (∃ b, (∀ b, a ≠ .link b) ∧ s.link.step toValue debug c (.peer b) = some s'.link) ∨
      s'.link = s.link := by
  cases a with
  | link b =>
    simp only [step] at h
    split at h
    · cases h
    · obtain ⟨l', hl, rfl⟩ := Option.map_eq_some_iff.1 h
      exact .inl ⟨b, rfl, hl⟩
  | subscribe n =>
    simp only [step] at h
    split at h
    · cases h
    · obtain ⟨l', hl, rfl⟩ := Option.map_eq_some_iff.1 h
      exact .inr (.inl ⟨_, by simp, hl⟩)
  | recv n =>
    simp only [step] at h
    split at h
    · cases h; exact .inr (.inr rfl)
    · cases h
  | unsubscribe n =>
    simp only [step] at h
    split at h
    · obtain ⟨l', hl, rfl⟩ := Option.map_eq_some_iff.1 h
      exact .inr (.inl ⟨_, by simp, hl⟩)
    · cases h

theorem link_exec {acts : List (Act P)} (h : exec (step toValue debug c) init acts = some s) :
    ∃ as, exec (Link.step toValue debug c) Link.init as = some s.link := by
  refine exec_project link (fun s a s' hs => ?_) h
  obtain ⟨b, -, hb⟩ | ⟨b, -, hb⟩ | he := step_link hs
  · exact ⟨[b], exec_single.2 hb⟩
  · exact ⟨[.peer b], exec_single.2 hb⟩
  · exact ⟨[], by rw [he]; rfl⟩

theorem daemon_exec {acts : List (Act P)} (h : exec (step toValue debug c) init acts = some s)
    (ho : Along (step toValue debug c) (fun s a => s.owned a = true) init acts) :
    ∃ as, exec (Daemon.step toValue) Daemon.init as = some s.link.daemon ∧
      Along (Daemon.step toValue) (fun d a => d.owned a = true) Daemon.init as := by
  refine exec_project_along (fun s : Audience => s.link.daemon) (fun s a s' ho hs => ?_) ho h
  have hone : ∀ a d', s.link.daemon.step toValue a = some d' → s.link.daemon.owned a = true →
      ∃ ks, exec (Daemon.step toValue) s.link.daemon ks = some d' ∧
        Along (Daemon.step toValue) (fun d a => d.owned a = true) s.link.daemon ks :=
    fun a d' hd ho => ⟨[a], exec_single.2 hd, ho, fun _ _ => trivial⟩
  have hnone : ∃ ks, exec (Daemon.step toValue) s.link.daemon ks = some s.link.daemon ∧
      Along (Daemon.step toValue) (fun d a => d.owned a = true) s.link.daemon ks :=
    ⟨[], rfl, trivial⟩
  obtain ⟨b, rfl, hb⟩ | ⟨b, -, hb⟩ | he := step_link hs
  · obtain ⟨a, d, rfl, -, hd, he⟩ | ⟨_, q, d, -, -, -, hd, he⟩ | ⟨_, _, -, -, -, he⟩ |
      ⟨_, _, -, -, -, he⟩ := Link.step_cases hb
    · rw [he]; exact hone a d hd ho
    · rw [he]; exact hone _ d hd rfl
    · rw [he]; exact hnone
    · rw [he]; exact hnone
  · obtain ⟨_, _, hb, -⟩ | ⟨_, _, _, hb, -⟩ | ⟨_, _, -, -, -, he⟩ | ⟨_, _, hb, -⟩ :=
      Link.step_cases hb
    · cases hb
    · cases hb
    · rw [he]; exact hnone
    · cases hb
  · rw [he]; exact hnone

/-! ## From the provider to the subscriber -/

/-- Nothing of attachment `k` is on its way to the client any more. -/
structure AtRest (l : Link) (conn : Conn) (k : Nat) (task : Forward) (run : LiveRun) : Prop where
  isOpen : conn.isOpen = true
  read : l.read = conn.written
  inHand : conn.pc.inHand k = []
  queued : queuedBy k conn.outbound = []
  receiving : task.forwarder.phase = .receiving
  parked : (take run.events task.forwarder.events).1 = none

/-- The subscriber was there before the events of attachment `k`, was told of no lag and has
nothing left to receive. -/
structure KeepsUp (s : Audience) (x : Subscriber) (k : Nat) : Prop where
  early : spokenBy k (s.link.read.take x.since) = []
  unlagged : ∀ missed, .lagged missed ∉ x.seen
  drained : s.events.tail ≤ x.rx.next

/-- What the client read, its connection wrote. -/
theorem read_written {acts : List (Act P)} (h : exec (step toValue debug c) init acts = some s)
    {w : Written} (hw : w ∈ s.link.read) :
    ∃ conn, s.link.daemon.conns[c]? = some conn ∧ w ∈ conn.written := by
  obtain ⟨as, hl⟩ := link_exec h
  have hin := (Link.piped_exec hl).delivered.mem hw
  obtain ⟨conn, hc, he, -⟩ | ⟨-, he, -⟩ := Link.conn_cases c s.link.daemon
  · exact ⟨conn, hc, he ▸ hin⟩
  · rw [he] at hin
    cases hin

/-- **From the provider to the subscriber.** In every run, what a subscriber was told agrees, value
by value and with the gaps counted, with the event frames that the client read since it came;
each of them was published by the run it names. Once nothing of an attachment is on its way, a
subscriber that was there before it and kept up has every event that the client read, the events
of the attachment among them in ascending order after its cursor, and misses none of the run's
that is not acknowledged. -/
theorem subscriber_hears (toValue : P → Except String Value) (debug : ServerResponse → String)
    (c : Nat) (acts : List (Act P)) (s : Audience)
    (h : exec (step toValue debug c) init acts = some s)
    (ho : Along (step toValue debug c) (fun s a => s.owned a = true) init acts)
    (n : Nat) (x : Subscriber) (hx : s.subscribers[n]? = some x) :
    List.Forall₂ Stands (x.peer s.link.read).told
      ((x.offered s.link.read).take (x.peer s.link.read).told.length) ∧
    (∀ frame, .value frame ∈ x.seen → ∃ e, frame = eventFrame e ∧
      e ∈ s.link.daemon.shared.registry.store.published e.runId) ∧
    ∀ (conn : Conn) (k : Nat) (task : Forward) (att : Attached) (run : LiveRun),
      s.link.daemon.conns[c]? = some conn → conn.forwards[k]? = some task →
      conn.attached[k]? = some att →
      s.link.daemon.shared.registry.store.runs[att.id]? = some run →
      AtRest s.link conn k task run → s.KeepsUp x k →
      x.seen = (x.offered s.link.read).map .value ∧
      Ahead att.id att.after (spokenBy k (s.link.read.drop x.since)) ∧
      ∀ e ∈ s.link.daemon.shared.registry.store.published att.id, att.after < e.sequence →
        run.snapshot.acknowledgedSequence < e.sequence → .value (eventFrame e) ∈ x.seen := by
  have hexact := (tuned_exec h).exact n x hx
  obtain ⟨das, hd, hdo⟩ := daemon_exec h ho
  refine ⟨hexact.aligned, fun frame hv => ?_, fun conn k task att run hc hf ha hr hrest hup => ?_⟩
  · obtain ⟨w, hw, he⟩ := List.mem_filterMap.1 (hexact.mem_sent hv)
    obtain ⟨p, hp, rfl⟩ := Option.map_eq_some_iff.1 he
    obtain ⟨conn, hc, hw⟩ := read_written h (List.mem_of_mem_drop hw)
    exact ⟨p.2, rfl, Daemon.genuine_exec hd c conn hc p.2 (.written p.1 w hw hp)⟩
  · have hseen : x.seen = (x.offered s.link.read).map .value :=
      hexact.values hup.unlagged hup.drained
    have hsent : spokenBy k (s.link.read.drop x.since) = spokenBy k conn.written := by
      have hsplit : spokenBy k (s.link.read.take x.since) ++
          spokenBy k (s.link.read.drop x.since) = spokenBy k s.link.read := by
        rw [spokenBy, spokenBy, ← List.filterMap_append, List.take_append_drop, spokenBy]
      rw [hup.early, List.nil_append] at hsplit
      rw [hsplit, hrest.read]
    have hway := (Daemon.fed_exec hdo hd c conn hc hrest.isOpen).onItsWay
      (Daemon.streams_exec hd hc) (Daemon.store_exec hd).1 hf
    obtain ⟨hid, hahead⟩ := hway.ordered att ha
    have hwritten : conn.sent k = spokenBy k conn.written := by
      simp [Conn.sent, hrest.inHand, hrest.queued]
    refine ⟨hseen, by rw [hsent, ← hwritten]; exact hahead, fun e he hafter hacked => ?_⟩
    have hin : e ∈ spokenBy k conn.written := by
      obtain hin | hin | hin := hway.drained att run ha (hid ▸ hr) hrest.receiving hrest.parked e
        (hid ▸ he) hafter hacked
      · exact hin
      · rw [hrest.inHand] at hin; cases hin
      · rw [hrest.queued] at hin; cases hin
    rw [hseen]
    exact List.mem_map_of_mem (mem_eventFrames (hsent ▸ hin))

/-- Steps of the proxy. -/
def onProxy (acts : List (Daemon.Act P)) : List (Act P) := acts.map fun a => .link (.daemon a)

/-- A subscriber comes, the client attaches, and the run publishes twice: the first event is
replayed, the second forwarded. -/
def watched : List (Act Unit) :=
  Link.linked.map .link ++ [.subscribe 0] ++
  onProxy [.conn 0 (.handle .nothing), .conn 0 (.write true)] ++
  [.link .deliver, .link (.peer (.drive (.request (.attachRun ⟨"r"⟩ 0)))),
   .link (.peer (.drive (.take (.ok ())))), .link (.peer (.drive (.sent (.ok ())))),
   .link .arrive] ++
  onProxy [.registry (.recv ⟨"r"⟩ (some (.text "one"))), .registry (.publish ⟨"r"⟩),
   .conn 0 (.handle .nothing), .conn 0 (.write true), .conn 0 (.write true), .conn 0 .spawn,
   .conn 0 (.wake 0), .registry (.recv ⟨"r"⟩ (some (.text "two"))), .registry (.publish ⟨"r"⟩),
   .conn 0 (.forward 0), .conn 0 .relay, .conn 0 (.write true)] ++
  [.link .deliver, .link .deliver, .link .deliver, .recv 0, .recv 0]

theorem watched_exec :
    ∃ (s : Audience) (x : Subscriber) (conn : Conn) (task : Forward) (att : Attached)
      (run : LiveRun),
      exec (step (fun _ : Unit => .ok .null) Link.noDebug 0) init watched = some s ∧
      s.subscribers[0]? = some x ∧ s.link.daemon.conns[0]? = some conn ∧
      conn.forwards[0]? = some task ∧ conn.attached[0]? = some att ∧
      att.id = ⟨"r"⟩ ∧ att.after = 0 ∧
      s.link.daemon.shared.registry.store.runs[att.id]? = some run ∧
      run.snapshot.acknowledgedSequence = 0 ∧ AtRest s.link conn 0 task run ∧
      spokenBy 0 (s.link.read.take x.since) = [] ∧
      (∃ frame frame', x.seen = [.value frame, .value frame']) ∧ s.events.tail = x.rx.next :=
  ⟨_, _, _, _, _, _, rfl, rfl, rfl, rfl, rfl, rfl, rfl, rfl, rfl, ⟨rfl, rfl, rfl, rfl, rfl, rfl⟩,
    rfl, ⟨_, _, rfl⟩, rfl⟩

theorem subscriber_hears_watched :
    ∃ (s : Audience) (x : Subscriber),
      exec (step (fun _ : Unit => .ok .null) Link.noDebug 0) init watched = some s ∧
      s.subscribers[0]? = some x ∧ x.seen.length = 2 ∧
      ∀ e ∈ s.link.daemon.shared.registry.store.published ⟨"r"⟩, 0 < e.sequence →
        .value (eventFrame e) ∈ x.seen := by
  obtain ⟨s, x, conn, task, att, run, h, hx, hc, hf, ha, hid, hafter, hr, hacked, hrest, hearly,
    ⟨frame, frame', hseen⟩, hdrained⟩ := watched_exec
  have ho : Along (step (fun _ : Unit => .ok .null) Link.noDebug 0)
      (fun s a => s.owned a = true) init watched := by decide +kernel
  have hup : s.KeepsUp x 0 := ⟨hearly, by simp [hseen], hdrained.le⟩
  have hall := ((subscriber_hears _ Link.noDebug 0 watched s h ho 0 x hx).2.2 conn 0 task att run
    hc hf ha hr hrest hup).2.2
  rw [hid, hafter, hacked] at hall
  exact ⟨s, x, h, hx, by rw [hseen]; rfl, fun e he hpos => hall e he hpos hpos⟩

end Audience

end AgencyProxy
