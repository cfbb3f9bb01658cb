import AgencyProxy.Daemon.Progress
import AgencyProxy.Link.Requests

/-!
# No call hangs

The client and the daemon go on with what they have begun: `drive` sends what is queued and reads
what the connection wrote, the connection reads what was sent, and the daemon handles it as in
`AgencyProxy.Daemon.Progress`, where calls into a provider return and writes complete. A client
whose connection has returned finds the end of the stream behind the last frame. Each such step
lowers `work`, in which a request counts for everything that it may still bring; and where none is
enabled any more every call has completed.
-/

namespace AgencyProxy

open AgencyProxy.Runtime Std Lts

/-! ## The client -/

namespace Client

/-- For a frame on its way to the connection: twice the steps that its request takes at most, as
each of them may write a frame that the client has to read, and the step that reads it. -/
def frameWork : Nat := 2 * (maxReplayEvents + 14) + 2

def Phase.work : Phase → Nat
  | .selecting => 2
  | .sending _ _ => frameWork + 5
  | .stopped _ => 1
  | .returned => 0

def Opening.work : Opening → Nat
  | .greeting => 1
  | _ => 0

namespace Drive

/-- A request is taken, sent and read, and somebody may have to be told that it has failed. -/
def work (s : Drive) : Nat :=
  s.phase.work + (frameWork + 4) * s.requests.length + s.pending.count fun _ => true

/-- The task goes on with what callers have queued, or ends. A send completes, or fails. -/
def Act.pursues : Act → Bool
  | .take _ | .sent _ | .notify _ | .finish => true
  | _ => false

variable {s s' : Drive}

theorem take_work {encoded : Except String Unit} (h : s.take encoded = some s') :
    s'.work < s.work := by
  unfold take at h
  split at h
  · rename_i request rest hp hq
    have hlen : (frameWork + 4) * s.requests.length =
        (frameWork + 4) * rest.length + (frameWork + 4) := by rw [hq]; rfl
    cases encoded with
    | error error =>
      cases h
      simp only [work, complete, hlen]
      omega
    | ok u =>
      cases h
      simp only [work, hlen, hp, Phase.work]
      omega
  · rename_i hp hq
    split at h
    · cases h
      simp only [work, hp, Phase.work]
      omega
    · cases h
  · cases h

theorem sent_work {result : Except String Unit} (h : s.sent result = some s') :
    s'.work + frameWork * (s.puts (.sent result)).length < s.work := by
  unfold sent at h
  split at h
  · rename_i frame call hp
    cases result with
    | error detail =>
      cases h
      simp only [work, complete, hp, Phase.work, puts, List.length_nil]
      omega
    | ok u =>
      cases h
      have hwaits : (s.pending.insert frame.requestId call).count (fun _ => true) ≤
          s.pending.count (fun _ => true) + 1 := by
        cases hw : s.pending[frame.requestId]? with
        | none => exact (ExtTreeMap.count_insert_new hw).le
        | some old =>
          have := ExtTreeMap.count_insert_old (v := call) (p := fun _ => true) hw
          omega
      simp only [work, hp, Phase.work, puts, onSend, List.length_singleton]
      omega
  · cases h

theorem notify_work {requestId : Nat} (h : s.notify requestId = some s') : s'.work < s.work := by
  unfold notify at h
  split at h
  · rename_i detail call hp hw
    cases h
    have hcount := ExtTreeMap.count_erase (p := fun _ => true) hw
    simp only [work, complete, Bool.toNat_true] at hcount ⊢
    omega
  · cases h

theorem finish_work (h : s.finish = some s') : s'.work < s.work := by
  unfold finish at h
  split at h
  · rename_i detail hp
    split at h
    · cases h
      simp only [work, hp, Phase.work, List.length_nil]
      omega
    · cases h
  · cases h

theorem step_work {a : Act} (ha : a.pursues = true) (h : s.step a = some s') :
    s'.work + frameWork * (s.puts a).length < s.work := by
  cases a with
  | take encoded => simpa [puts] using take_work h
  | sent result => exact sent_work h
  | notify requestId => simpa [puts] using notify_work h
  | finish => simpa [puts] using finish_work h
  | _ => cases ha

/-- Reading makes no work. -/
theorem receive_work {incoming : Received} (h : s.step (.receive incoming) = some s') :
    s'.work ≤ s.work := by
  cases receive_moves h with
  | quiet | unknown => exact le_rfl
  | stop _ detail hp =>
    simp only [work, hp, Phase.work]
    omega
  | answered id call response hp hw =>
    have hcount := ExtTreeMap.count_erase (p := fun _ => true) hw
    simp only [work] at hcount ⊢
    omega

theorem finished_work (h : s.step (.receive .finished) = some s') : s'.work < s.work := by
  simp only [step, receive] at h
  split at h
  · rename_i hp
    split at h
    · cases h
      simp only [work, hp, Phase.work]
      omega
    · cases h
  · cases h

theorem drop_work (h : s.step .drop = some s') : s'.work = s.work := by
  simp only [step] at h
  split at h
  · cases h
  · cases h; rfl

/-- Only who has a `Client` can make it one more or less. -/
theorem step_clients {a : Act} (ha : a.byHandle = false) (h : s.step a = some s') :
    s'.clients = s.clients := by
  cases a with
  | request | clone | drop | subscribe => cases ha
  | unsubscribe =>
    simp only [step] at h
    split at h
    · cases h
    · cases h; rfl
  | take encoded =>
    simp only [step, take] at h
    split at h
    · cases encoded with
      | error error => cases h; rfl
      | ok u => cases h; rfl
    · split at h
      · cases h; rfl
      · cases h
    · cases h
  | sent result =>
    simp only [step, sent] at h
    split at h
    · cases result with
      | error detail => cases h; rfl
      | ok u => cases h; rfl
    · cases h
  | receive incoming =>
    simp only [step, receive] at h
    split at h
    · split at h
      · split at h
        case h_6 =>
          split at h
          · cases h; rfl
          · cases h; rfl
        all_goals cases h; rfl
      · cases h
    · cases h
  | notify requestId =>
    simp only [step, notify] at h
    split at h
    · cases h; rfl
    · cases h
  | finish =>
    simp only [step, finish] at h
    split at h
    · split at h
      · cases h; rfl
      · cases h
    · cases h

/-- A task that cannot go on by itself has returned, or waits for the socket with nothing queued
and somebody there who may ask. -/
theorem stuck_cases (h : ∀ a : Act, a.pursues = true → s.step a = none) :
    s.phase = .returned ∨ s.phase = .selecting ∧ s.requests = [] ∧ s.clients ≠ 0 := by
  cases hp : s.phase with
  | returned => exact .inl rfl
  | selecting =>
    have hnone := h (.take (.ok ())) rfl
    cases hq : s.requests with
    | cons request rest => simp [step, take, hp, hq] at hnone
    | nil => exact .inr ⟨rfl, rfl, fun hc => by simp [step, take, hp, hq, hc] at hnone⟩
  | sending frame call =>
    have hnone := h (.sent (.ok ())) rfl
    simp [step, sent, hp] at hnone
  | stopped detail =>
    have hfinish := h .finish rfl
    have htold : s.pending = ∅ := by
      apply ExtTreeMap.ext_getElem?
      intro id
      rw [ExtTreeMap.getElem?_empty]
      refine Option.eq_none_iff_forall_ne_some.2 fun call hw => ?_
      have hnone := h (.notify id) rfl
      simp [step, notify, hp, hw] at hnone
    simp [step, finish, hp, htold] at hfinish

/-- At the `select` with nothing queued, every frame is read. -/
theorem receive_enabled (hp : s.phase = .selecting) (hq : s.requests = []) (hc : s.clients ≠ 0)
    (incoming : Received) : s.step (.receive incoming) ≠ none := by
  simp only [step, receive, hp]
  rw [if_pos (by simp [hq, hc])]
  split
  case h_6 => split <;> simp
  all_goals simp

end Drive

namespace Peer

def work (p : Peer) : Nat := p.drive.work + p.opening.work

/-- The client goes on with what its callers have begun. -/
def Act.pursues : Act → Bool
  | .opened => true
  | .drive a => a.pursues
  | .abandon => false

variable {debug : ServerResponse → String} {p p' : Peer}

theorem sent_work {a : Act} (ha : a.pursues = true) (h : p.step debug a = some p') :
    p'.work + frameWork * (p'.sent.length - p.sent.length) < p.work := by
  obtain ⟨b, rfl, -, drive, hd, rfl⟩ | ⟨_, _, hopen, -, -, rfl⟩ |
    ⟨drive, opening, hopen, hd, rfl, hwhy⟩ := step_cases h
  · have hlow := Drive.step_work ha hd
    simp only [work, List.length_append, Nat.add_sub_cancel_left]
    omega
  · simp [work, hopen, Opening.work]
  · have hsame := Drive.drop_work hd
    have hdone : opening.work = 0 := by
      obtain rfl | ⟨_, _, -, -, rfl⟩ := hwhy <;> rfl
    have hbefore : p.opening.work = 1 := by rw [hopen]; rfl
    simp only [work, hsame, hdone, hbefore, Nat.sub_self]
    omega

/-- Until `connect` has returned it holds the only handle. -/
def Held (p : Peer) : Prop := p.opening = .greeting → p.drive.clients ≠ 0

theorem held_init : init.Held := fun _ => by decide

theorem Held.step {a : Act} (h : p.Held) (hs : p.step debug a = some p') : p'.Held := by
  obtain ⟨b, -, hb, drive, hd, rfl⟩ | ⟨_, _, -, -, -, rfl⟩ | ⟨_, _, -, -, rfl, hwhy⟩ :=
    step_cases hs
  · intro hopen
    have hout : b.byHandle = false := by
      refine Bool.eq_false_iff.2 fun hh => ?_
      have hcon := hb hh
      simp only [isConnected] at hcon
      rw [show p.opening = .greeting from hopen] at hcon
      cases hcon
    rw [Drive.step_clients hout hd]
    exact h hopen
  · exact fun hopen => by cases hopen
  · intro hopen
    obtain rfl | ⟨_, _, -, -, rfl⟩ := hwhy <;> cases hopen

theorem held_exec {acts : List Act} (h : exec (step debug) init acts = some p) : p.Held :=
  exec_inv' (I := Held) (fun _ _ _ hi hs => hi.step hs) held_init h

/-- `connect` returns once its call has completed. -/
theorem opened_enabled (hh : p.Held) (hopen : p.opening = .greeting)
    (hin : 0 ∈ p.drive.completed) : p.step debug .opened ≠ none := by
  obtain ⟨⟨k, result⟩, hmem, rfl⟩ := List.mem_map.1 hin
  simp only [step, opened, hopen]
  cases hf : p.drive.completions.find? fun completion => completion.1 = 0 with
  | none => simpa using List.find?_eq_none.1 hf _ hmem
  | some completion =>
    obtain ⟨k, result⟩ := completion
    simp only
    split
    · simp
    · simp [Drive.step, hh hopen]

end Peer

end Client

/-! ## The connection -/

namespace Conn

variable {s s' : Shared} {c : Nat} {conn conn' : Conn}

/-- A step writes at most one frame. -/
theorem moves_written_length {a : Act} (h : Moves s c conn a s' conn') :
    conn'.written.length ≤ conn.written.length + 1 := by
  cases h with
  | wrote request response next locked => cases next <;> simp [proceed]
  | relayed | replayed => simp
  | detach request id => simp [answer]
  | spawn n id => simp
  | _ => exact Nat.le_succ _

/-- The work that a frame brings. -/
theorem arrive_work {frame : ClientFrame} (h : Moves s c conn (.receive (.frame frame)) s' conn') :
    s' = s ∧ conn'.work ≤ conn.work + (maxReplayEvents + 14) := by
  cases h with
  | first _ hpc =>
    obtain ⟨response, next, hg⟩ := greet_answering frame
    have hnext : next.work = 0 := by
      unfold greet at hg
      split at hg
      · split at hg <;> (cases hg; rfl)
      · cases hg; rfl
    refine ⟨rfl, ?_⟩
    simp only [work, hg, Pc.work, hnext]
    omega
  | request _ hpc =>
    refine ⟨rfl, ?_⟩
    simp only [work, hpc, Pc.work]
    omega

/-- A connection that rests and has not returned reads the next frame. -/
theorem Rests.receive (h : conn.Rests) (hopen : conn.isOpen = true) (frame : ClientFrame) :
    conn.step s c (.receive (.frame frame)) ≠ none := by
  unfold Rests at h
  cases hp : conn.pc <;> simp [hp, isOpen] at h hopen
  · simp [step, Conn.receive, hp]
  · simp [step, Conn.receive, hp, h]

end Conn

/-! ## The link -/

namespace Link

open AgencyProxy.Client

variable {P : Type} {toValue : P → Except String Value} {debug : ServerResponse → String} {c : Nat}
  {l l' : Link}

/-- The connection has returned, or will not be accepted any more. -/
def Closed (c : Nat) (d : Daemon) : Prop :=
  match d.conns[c]? with
  | some conn => conn.isOpen = false
  | none => (d.served.isNone && !d.shared.shutdown) = false

/-- Client and daemon go on with what has begun: no new call, no frame of another client, no event
from a provider, but the results of calls into a provider, of writes and of sends. The end of the
stream comes after the last frame of a closed connection. -/
def Goes (c : Nat) (l : Link) : Act P → Prop
  | .daemon (.accept k) => k = c
  | .daemon a => a.pursues = true
  | .arrive | .deliver => True
  | .peer (.drive (.receive .finished)) =>
    Closed c l.daemon ∧ l.read.length = (written c l.daemon).length
  | .peer a => a.pursues = true

/-- What the connection is to read and the client is to read count on top of what both have
begun. -/
def work (c : Nat) (l : Link) : Nat :=
  2 * l.daemon.work + (if l.daemon.conns.contains c then 0 else 1) +
    frameWork * (l.peer.sent.length - (taken c l.daemon).length) +
    ((written c l.daemon).length - l.read.length) + l.peer.work

/-- What a step of the daemon does to the connection. -/
theorem daemon_bounds {d d' : Daemon} {a : Daemon.Act P} (h : d.step toValue a = some d')
    (ha : readsOn c a = false) : taken c d' = taken c d ∧
      (written c d').length ≤ (written c d).length + 1 ∧
      (d.conns.contains c = true → d'.conns.contains c = true) := by
  simp only [ExtTreeMap.contains_eq_isSome_getElem?]
  unfold taken written
  obtain he | ⟨hn, he⟩ | ⟨b, conn, conn', rfl, hc, hm, he⟩ := daemon_step (c := c) h
  · rw [he]
    exact ⟨rfl, Nat.le_succ _, fun h => h⟩
  · rw [hn, he]
    exact ⟨rfl, Nat.zero_le _, fun h => (by cases h)⟩
  · rw [hc, he]
    refine ⟨?_, Conn.moves_written_length hm, fun _ => rfl⟩
    simp [Conn.moves_taken hm, arrives_of_not_readsOn ha]

theorem readsOn_of_pursues {a : Daemon.Act P} (ha : a.pursues = true) : readsOn c a = false := by
  cases a with
  | conn k b =>
    cases b with
    | receive incoming => cases ha
    | _ => rfl
  | _ => rfl

theorem ite_le_of_imp {p q : Prop} [Decidable p] [Decidable q] (h : p → q) :
    (if q then 0 else 1) ≤ if p then 0 else 1 := by
  by_cases hp : p
  · rw [if_pos hp, if_pos (h hp)]
  · rw [if_neg hp]
    split <;> omega

theorem daemon_work {d : Daemon} {a : Daemon.Act P}
    (hj : l.daemon.shared.registry.store.Journals) (ha : a.pursues = true)
    (h : l.daemon.step toValue a = some d) : work c { l with daemon := d } < work c l := by
  have hlow := Daemon.step_work hj ha h
  obtain ⟨htaken, hwritten, hkept⟩ := daemon_bounds (c := c) h (readsOn_of_pursues ha)
  have hbit := ite_le_of_imp hkept
  simp only [work, htaken]
  omega

theorem accept_work {d : Daemon}
    (h : l.daemon.step toValue (.accept c) = some d) :
    work c { l with daemon := d } < work c l := by
  obtain ⟨hnew, rfl⟩ := Daemon.accept_cases h
  have hsum : (l.daemon.conns.insert c .init).sum Conn.work =
      l.daemon.conns.sum Conn.work + Conn.init.work := ExtTreeMap.sum_insert_new hnew
  have hinit : Conn.init.work = 0 := rfl
  have hbefore : l.daemon.conns.contains c = false := by
    rw [ExtTreeMap.contains_eq_isSome_getElem?, hnew]
    rfl
  simp only [work, Daemon.work, hsum, hinit, taken, written, hnew, hbefore,
    ExtTreeMap.getElem?_insert_self, ExtTreeMap.contains_insert_self, Option.map_some,
    Option.map_none, Option.getD_some, Option.getD_none, if_true]
  simp [Conn.init, Conn.taken]

theorem arrive_work {conn : Conn} {q : Nat × ClientFrame} {d : Daemon}
    (hc : l.daemon.conns[c]? = some conn) (hq : l.peer.sent[conn.taken.length]? = some q)
    (h : l.daemon.step toValue (.conn c (.receive (.frame q.2))) = some d) :
    work c { l with daemon := d } < work c l := by
  obtain ⟨conn₀, shared, conn', hc₀, hs, rfl⟩ := Daemon.conn_cases h
  cases hc.symm.trans hc₀
  have hm := Conn.step_moves hs
  obtain ⟨rfl, hwork⟩ := Conn.arrive_work hm
  have hsum := ExtTreeMap.sum_insert_old (f := Conn.work) (v := conn') hc
  have hlen := Conn.moves_written_length hm
  have htaken : conn'.taken.length = conn.taken.length + 1 := by
    rw [Conn.moves_taken hm]
    simp [Conn.Act.arrives]
  have hlt := (List.getElem?_eq_some_iff.1 hq).1
  have hsplit : frameWork * (l.peer.sent.length - conn.taken.length) =
      frameWork * (l.peer.sent.length - (conn.taken.length + 1)) + frameWork := by
    rw [← Nat.mul_succ]
    congr 1
    omega
  have hhave : l.daemon.conns.contains c = true := by
    rw [ExtTreeMap.contains_eq_isSome_getElem?, hc]
    rfl
  simp only [work, Daemon.work, taken, written, hc, hhave, ExtTreeMap.getElem?_insert_self,
    ExtTreeMap.contains_insert_self, Option.map_some, Option.getD_some, htaken, hsplit, if_true]
  simp only [frameWork] at *
  omega

theorem peer_work {p : Peer} {a : Peer.Act} (ha : a.pursues = true)
    (h : l.peer.step debug a = some p) : work c { l with peer := p } < work c l := by
  have hlow := Peer.sent_work ha h
  have hsplit : frameWork * (p.sent.length - (taken c l.daemon).length) ≤
      frameWork * (l.peer.sent.length - (taken c l.daemon).length) +
        frameWork * (p.sent.length - l.peer.sent.length) := by
    rw [← Nat.mul_add]
    exact Nat.mul_le_mul_left _ (by omega)
  simp only [work]
  omega

theorem finished_work {p : Peer} (h : l.peer.step debug (.drive (.receive .finished)) = some p) :
    work c { l with peer := p } < work c l := by
  obtain ⟨drive, hd, rfl⟩ := Peer.receive_cases h
  have hlow := Drive.finished_work hd
  simp only [work, Peer.work]
  omega

theorem deliver_work {w : Written} {drive : Drive}
    (hw : (written c l.daemon)[l.read.length]? = some w)
    (h : l.peer.drive.step (.receive (.frame w.frame)) = some drive) :
    work c { l with peer := { l.peer with drive }, read := l.read ++ [w] } < work c l := by
  have hlow := Drive.receive_work h
  have hlt := (List.getElem?_eq_some_iff.1 hw).1
  simp only [work, Peer.work, List.length_append, List.length_singleton]
  omega

/-- **Each of these steps lowers the work.** -/
theorem step_work {a : Act P} (hj : l.daemon.shared.registry.store.Journals) (hg : Goes c l a)
    (hs : l.step toValue debug c a = some l') : l'.work c < l.work c := by
  obtain ⟨b, d, rfl, -, hd, rfl⟩ | ⟨conn, q, d, rfl, hc, hq, hd, rfl⟩ | ⟨b, p, rfl, -, hp, rfl⟩ |
    ⟨w, drive, rfl, hw, hd, rfl⟩ := step_cases hs
  · cases b with
    | accept k =>
      obtain rfl : k = c := hg
      exact accept_work hd
    | _ => exact daemon_work hj hg hd
  · exact arrive_work hc hq hd
  · cases b with
    | opened => exact peer_work rfl hp
    | abandon => cases hg
    | drive b =>
      cases b with
      | receive incoming =>
        cases incoming with
        | finished => exact finished_work hp
        | _ => cases hg
      | _ => exact peer_work hg hp
  · exact deliver_work hw hd

/-! ## Who waits is answered -/

/-- Whoever waits has a request on the socket that the client has read no response to. -/
def Awaited (l : Link) : Prop :=
  l.peer.drive.isOver = false → ∀ id call : Nat, l.peer.drive.pending[id]? = some call →
    ∃ q ∈ l.peer.sent.drop (replies l.read).length, q.2.requestId = id

theorem awaited_init : init.Awaited := fun _ id call h => by
  simp [init, Peer.init, Drive.init] at h

/-- The client goes on, with nothing sent and nothing answered. -/
theorem Awaited.still (h : l.Awaited) {p : Peer} {read : List Written} (hs : p.sent = l.peer.sent)
    (hr : replies read = replies l.read) (hp : p.drive.isOver = false →
      l.peer.drive.isOver = false ∧ p.drive.pending = l.peer.drive.pending) :
    Awaited { l with peer := p, read } := fun hover id call hw => by
  obtain ⟨hover, hpend⟩ := hp hover
  dsimp only at hw ⊢
  rw [hpend] at hw
  rw [hs, hr]
  exact h hover id call hw

/-- A response is read: its request is the first that was not answered. -/
theorem Awaited.answer (h : l.Awaited) {drive : Drive} {q : Nat × ClientFrame}
    {response : ServerResponse} (hq : l.peer.sent[(replies l.read).length]? = some q)
    (hd : l.peer.drive.step (.receive (.frame (.response q.2.requestId response))) = some drive) :
    Awaited { l with
      peer := { l.peer with drive }, read := l.read ++ [.response q.2 response] } := by
  obtain ⟨hover, hcase⟩ := Drive.response_cases hd
  obtain ⟨hlt, hget⟩ := List.getElem?_eq_some_iff.1 hq
  have hdrop : l.peer.sent.drop (replies l.read).length =
      q :: l.peer.sent.drop ((replies l.read).length + 1) := by
    rw [List.drop_eq_getElem_cons hlt, hget]
  have hreplies : (replies (l.read ++ [.response q.2 response])).length =
      (replies l.read).length + 1 := by simp [replies, reply]
  intro _ id call hw
  dsimp only at hw ⊢
  rw [hreplies]
  have hother : l.peer.drive.pending[id]? = some call ∧ id ≠ q.2.requestId := by
    obtain ⟨k, -, -, hpend⟩ | ⟨hnone, -, hpend⟩ := hcase
    · rw [hpend, ExtTreeMap.getElem?_erase_some] at hw
      exact ⟨hw.2, Ne.symm hw.1⟩
    · rw [hpend] at hw
      refine ⟨hw, ?_⟩
      rintro rfl
      cases hnone.symm.trans hw
  obtain ⟨q', hin, hid⟩ := h hover id call hother.1
  rw [hdrop] at hin
  obtain rfl | hin := List.mem_cons.1 hin
  · exact absurd hid.symm hother.2
  · exact ⟨q', hin, hid⟩

theorem Awaited.step {acts : List (Act P)} {a : Act P}
    (hm : exec (Link.step toValue debug c) init acts = some l) (h : l.Awaited)
    (hs : l.step toValue debug c a = some l') : l'.Awaited := by
  obtain ⟨as, hd₀⟩ := daemon_exec hm
  have hpiped := piped_exec hm
  have hle : (replies l.read).length ≤ l.peer.sent.length := by
    simpa using (hpiped.replied hd₀).length_le
  obtain ⟨_, _, -, -, -, rfl⟩ | ⟨_, _, _, -, -, -, -, rfl⟩ | ⟨b, p, -, hb, hp, rfl⟩ |
    ⟨w, drive, ha, hw, hd, rfl⟩ := step_cases hs
  · exact h
  · exact h
  · obtain ⟨b, rfl, -, drive, hd, rfl⟩ | ⟨_, _, -, -, -, rfl⟩ | ⟨drive, _, -, hd, rfl, -⟩ :=
      Peer.step_cases hp
    · by_cases hsent : b = .sent (.ok ())
      · subst hsent
        obtain ⟨frame, call, hphase, hon, -, hpend⟩ := Drive.sent_cases hd
        intro _ id k hk
        dsimp only at hk ⊢
        rw [hpend, ExtTreeMap.getElem?_insert_some] at hk
        rw [Drive.puts, hon, List.drop_append_of_le_length hle]
        rcases hk with ⟨rfl, -⟩ | ⟨-, hk⟩
        · exact ⟨(call, frame), by simp, rfl⟩
        · obtain ⟨q, hq, hid⟩ := h (by simp [Drive.isOver, hphase]) id k hk
          exact ⟨q, List.mem_append_left _ hq, hid⟩
      · have hresponse : ∀ id response, b ≠ .receive (.frame (.response id response)) := by
          rintro id response rfl
          cases hb
        refine h.still ?_ rfl (Drive.step_still hd hsent hresponse).2
        have hputs : l.peer.drive.puts b = [] := by
          unfold Drive.puts
          split
          · exact absurd rfl hsent
          · rfl
        simp [hputs]
    · exact h.still rfl rfl fun ho => ⟨ho, rfl⟩
    · exact h.still rfl rfl (Drive.step_still hd (by simp) (by simp)).2
  · have hread := (hpiped.step hs).replied hd₀
    cases w with
    | response request response =>
      have hnext : (l.peer.sent.map Prod.snd)[(replies l.read).length]? = some request := by
        obtain ⟨rest, hrest⟩ := hread
        dsimp only at hrest
        rw [← hrest]
        simp [replies, reply]
      obtain ⟨q, hq, rfl⟩ : ∃ q, l.peer.sent[(replies l.read).length]? = some q ∧
          q.2 = request := by simpa using hnext
      exact h.answer hq hd
    | replayed n event =>
      have hstill := Drive.step_still hd (by simp) (by simp [Written.frame, eventFrame])
      exact h.still rfl (by simp [replies, reply]) hstill.2
    | live n event =>
      have hstill := Drive.step_still hd (by simp) (by simp [Written.frame, eventFrame])
      exact h.still rfl (by simp [replies, reply]) hstill.2

theorem awaited_exec {acts : List (Act P)}
    (h : exec (Link.step toValue debug c) init acts = some l) : l.Awaited :=
  exec_inv_reachable (C := fun _ _ => True) (I := Awaited) (fun _ _ _ _ hm hi _ hs => hi.step hm hs)
    awaited_init (along_of_forall (fun _ _ => trivial) _ _) h

/-! ## Where neither side can go on -/

/-- None of the steps that `Goes` picks is enabled. -/
def Stuck (toValue : P → Except String Value) (debug : ServerResponse → String) (c : Nat)
    (l : Link) : Prop :=
  ∀ a : Act P, Goes c l a → l.step toValue debug c a = none

/-- Every call has completed, once, and `connect` has returned. -/
structure Settled (l : Link) : Prop where
  daemon : l.daemon.Settled
  calls : ∀ k < l.peer.drive.calls, l.peer.drive.completed.count k = 1
  connect : l.peer.opening ≠ .greeting

theorem Stuck.daemon (h : l.Stuck toValue debug c) : l.daemon.Stuck toValue := by
  intro a ha
  have hg : Goes c l (.daemon a) := by
    cases a with
    | accept k => cases ha
    | _ => exact ha
  have hnone := h (.daemon a) hg
  simpa [step, readsOn_of_pursues ha] using hnone

theorem Stuck.drive (h : l.Stuck toValue debug c) {a : Drive.Act} (ha : a.pursues = true) :
    l.peer.drive.step a = none := by
  have hg : Goes c l (.peer (.drive a) : Act P) := by
    cases a with
    | receive incoming => cases ha
    | _ => exact ha
  have hnone := h (.peer (.drive a)) hg
  cases a with
  | take | sent | notify | finish =>
    simpa [step, reads, Peer.step, Drive.Act.byHandle] using hnone
  | _ => cases ha

/-- A client at the `select` has read everything that the connection wrote. -/
theorem Stuck.delivered {acts : List (Act P)}
    (hl : exec (Link.step toValue debug c) init acts = some l) (h : l.Stuck toValue debug c)
    (hreads : ∀ incoming, l.peer.drive.step (.receive incoming) ≠ none) :
    l.read = written c l.daemon := by
  refine List.IsPrefix.eq_of_length_le (piped_exec hl).delivered (Nat.le_of_not_lt fun hlt => ?_)
  have hnone := h .deliver trivial
  simp only [step, List.getElem?_eq_getElem hlt] at hnone
  obtain ⟨drive, hdrive⟩ := Option.ne_none_iff_exists'.1
    (hreads (.frame (written c l.daemon)[l.read.length].frame))
  simp [Peer.receive_step hdrive] at hnone

/-- Its connection is open: the client would have found the end of the stream. -/
theorem Stuck.connected (h : l.Stuck toValue debug c)
    (hreads : ∀ incoming, l.peer.drive.step (.receive incoming) ≠ none)
    (hread : l.read = written c l.daemon) :
    ∃ conn, l.daemon.conns[c]? = some conn ∧ conn.isOpen = true := by
  have hclosed : ¬ Closed c l.daemon := fun hclosed => by
    have hnone := h (.peer (.drive (.receive .finished))) ⟨hclosed, by rw [hread]⟩
    obtain ⟨drive, hdrive⟩ := Option.ne_none_iff_exists'.1 (hreads .finished)
    simp [step, reads, Peer.receive_step hdrive] at hnone
  unfold Closed at hclosed
  split at hclosed
  · rename_i conn hconn
    exact ⟨conn, hconn, by simpa using hclosed⟩
  · rename_i hnew
    have hnone := h (.daemon (.accept c)) rfl
    have hcontains : l.daemon.conns.contains c = false := by
      rw [ExtTreeMap.contains_eq_isSome_getElem?, hnew]
      rfl
    simp only [Bool.not_eq_false] at hclosed
    simp [step, readsOn, Daemon.step, hclosed, hcontains] at hnone

/-- An open connection has read everything that was sent. -/
theorem Stuck.arrived {acts : List (Act P)}
    (hl : exec (Link.step toValue debug c) init acts = some l) (h : l.Stuck toValue debug c)
    {conn : Conn} (hconn : l.daemon.conns[c]? = some conn) (hrests : conn.Rests)
    (hopen : conn.isOpen = true) : conn.taken.length = l.peer.sent.length := by
  refine Nat.le_antisymm (by simpa using ((piped_exec hl).arrived conn hconn).length_le)
    (Nat.le_of_not_lt fun hlt => ?_)
  have hnone := h .arrive trivial
  obtain ⟨⟨s, conn'⟩, hstep⟩ := Option.ne_none_iff_exists'.1
    (hrests.receive (s := l.daemon.shared) (c := c) hopen l.peer.sent[conn.taken.length].2)
  simp [step, hconn, List.getElem?_eq_getElem hlt, Daemon.step, hstep] at hnone

/-- Whoever waits at the `select` has an open connection, which has read and answered everything. -/
theorem Stuck.answered {acts : List (Act P)}
    (hl : exec (Link.step toValue debug c) init acts = some l) (h : l.Stuck toValue debug c)
    (hp : l.peer.drive.phase = .selecting) (hq : l.peer.drive.requests = [])
    (hc : l.peer.drive.clients ≠ 0) : (replies l.read).length = l.peer.sent.length := by
  obtain ⟨as, hd⟩ := daemon_exec hl
  have hset := Daemon.Stuck.settled hd h.daemon
  have hreads : ∀ incoming, l.peer.drive.step (.receive incoming) ≠ none :=
    Drive.receive_enabled hp hq hc
  have hread := h.delivered hl hreads
  obtain ⟨conn, hconn, hopen⟩ := h.connected hreads hread
  have hwritten : written c l.daemon = conn.written := by simp [written, hconn]
  have htaken : conn.taken = AgencyProxy.answered conn.written := by
    rw [Conn.taken, hset.answered c conn hconn hopen, List.filterMap_map]
    exact List.filterMap_some
  calc (replies l.read).length
      = conn.taken.length := by rw [htaken, ← hwritten, ← hread, ← replies_fst, List.length_map]
    _ = l.peer.sent.length := h.arrived hl hconn (hset.rests c conn hconn) hopen

/-- **No call waits for ever.** -/
theorem Stuck.settled {acts : List (Act P)}
    (hl : exec (Link.step toValue debug c) init acts = some l) (h : l.Stuck toValue debug c) :
    l.Settled := by
  obtain ⟨as, hd⟩ := daemon_exec hl
  obtain ⟨bs, hb⟩ := peer_exec hl
  obtain ⟨ds, hdrive⟩ := Peer.drive_exec hb
  have hacc := Drive.accounted_exec hdrive
  -- Nobody is queued, being sent or waiting.
  have hnobody : l.peer.drive.requests = [] ∧ (∀ k, l.peer.drive.inSend k = 0) ∧
      l.peer.drive.pending = ∅ := by
    obtain hp | ⟨hp, hq, hc⟩ := Drive.stuck_cases fun a ha => h.drive ha
    · obtain ⟨hq, hpend⟩ := hacc.left hp
      exact ⟨hq, fun k => by simp [Drive.inSend, hp], hpend⟩
    · refine ⟨hq, fun k => by simp [Drive.inSend, hp], ?_⟩
      apply ExtTreeMap.ext_getElem?
      intro id
      rw [ExtTreeMap.getElem?_empty]
      refine Option.eq_none_iff_forall_ne_some.2 fun call hw => ?_
      obtain ⟨q, hin, -⟩ := awaited_exec hl (by simp [Drive.isOver, hp]) id call hw
      rw [h.answered hl hp hq hc, List.drop_length] at hin
      cases hin
  obtain ⟨hq, hsend, hpend⟩ := hnobody
  have hcalls : ∀ k < l.peer.drive.calls, l.peer.drive.completed.count k = 1 := fun k hk => by
    have honce := hacc.once k
    rw [Drive.tally, hq, hsend, hpend, if_pos hk] at honce
    simpa using honce
  refine ⟨Daemon.Stuck.settled hd h.daemon, hcalls, fun hopen => ?_⟩
  have hfirst : 0 < l.peer.drive.calls := by
    rw [← (Peer.lined_exec hb).calls]
    have := (Peer.greets_exec hb).first
    cases hasked : l.peer.asked with
    | nil => rw [hasked] at this; cases this
    | cons message rest => exact Nat.succ_pos _
  have hin : 0 ∈ l.peer.drive.completed :=
    List.count_pos_iff.1 (by rw [hcalls 0 hfirst]; exact Nat.one_pos)
  have hcan : l.peer.step debug .opened ≠ none :=
    Peer.opened_enabled (Peer.held_exec hb) hopen hin
  obtain ⟨p, hp⟩ := Option.ne_none_iff_exists'.1 hcan
  have hnone := h (.peer .opened) rfl
  simp [step, reads, hp] at hnone

end Link

end AgencyProxy
