import AgencyProxy.Client.Connect
import AgencyProxy.Daemon.Answers

/-!
# A client and its connection

Connection `c` of the daemon has a client at its other end: what the client's `drive` puts on the
socket the connection reads, and what the connection writes the client reads, both in order. Either
side may find the socket closed or broken at any time; other connections, run tasks and drain tasks
take their steps as before.
-/

namespace AgencyProxy

open AgencyProxy.Client AgencyProxy.Runtime Std Lts

/-! ## What passes a connection -/

namespace Conn

/-- The frames read. -/
def taken (conn : Conn) : List ClientFrame := conn.consumed.filterMap id

def Act.arrives : Act → List ClientFrame
  | .receive (.frame frame) => [frame]
  | _ => []

variable {s s' : Shared} {c : Nat} {conn conn' : Conn}

theorem moves_taken {a : Act} (h : Moves s c conn a s' conn') :
    conn'.taken = conn.taken ++ a.arrives := by
  cases h with
  | first frame | request frame => simp [taken, Act.arrives]
  | undecodable => simp [taken, Act.arrives]
  | wrote request response next locked => cases next <;> simp [taken, Act.arrives, proceed]
  | _ => simp [taken, Act.arrives, answer, abortAll, abort_consumed]

theorem moves_written {a : Act} (h : Moves s c conn a s' conn') :
    conn.written <+: conn'.written := by
  cases h with
  | wrote request response next locked => cases next <;> exact List.prefix_append _ _
  | relayed | replayed => exact List.prefix_append _ _
  | detach request id => simp [answer]
  | spawn n id => simp
  | _ => exact List.prefix_rfl

/-- Where a connection may stand that has written nothing. -/
def early : Pc → Bool
  | .opening | .answering _ _ _ _ | .returned _ => true
  | _ => false

/-- The first that a connection writes is the answer to its first frame. -/
structure Introduced (conn : Conn) : Prop where
  before : conn.written = [] → early conn.pc = true
  greeting : conn.written = [] → ∀ request response next locked,
    conn.pc = .answering request response next locked → FirstAnswer request response
  first : ∀ w ∈ conn.written.head?, ∃ request response,
    w = .response request response ∧ FirstAnswer request response

theorem introduced_init : Introduced init :=
  ⟨fun _ => rfl, fun _ _ _ _ _ h => (by cases h), by simp [init]⟩

/-- Once something is written there is nothing more to keep. -/
theorem Introduced.past (h : conn.Introduced) (hne : conn.written ≠ [])
    (hw : conn.written <+: conn'.written) : conn'.Introduced := by
  obtain ⟨more, hmore⟩ := hw
  have hne' : conn'.written ≠ [] := fun he => by
    rw [← hmore] at he
    exact hne (List.append_eq_nil_iff.1 he).1
  refine ⟨fun he => absurd he hne', fun he => absurd he hne', fun w hm => h.first w ?_⟩
  rwa [← hmore, List.head?_append_of_ne_nil _ hne] at hm

theorem Introduced.moves {a : Act} (h : conn.Introduced) (hm : Moves s c conn a s' conn') :
    conn'.Introduced := by
  have hw := moves_written hm
  by_cases hne : conn.written = []
  swap
  · exact h.past hne hw
  have hlate : ∀ {pc : Pc}, conn.pc = pc → early pc = false → conn'.Introduced := fun hpc hp => by
    have hb := h.before hne
    rw [hpc, hp] at hb
    cases hb
  cases hm with
  | first frame hpc =>
    obtain ⟨response, next, hg⟩ := greet_answering frame
    refine ⟨fun _ => by simp [hg, early], fun _ request response' next' locked he => ?_, h.first⟩
    rw [hg] at he
    cases he
    exact ⟨next, hg⟩
  | hangUp | undecodable | unreadable | unanswered =>
    exact ⟨fun _ => rfl, fun _ _ _ _ _ he => (by cases he), h.first⟩
  | wake | forward | suspend | reap => exact ⟨h.before, h.greeting, h.first⟩
  | wrote request response next locked hpc =>
    have hfirst := h.greeting hne request response next locked hpc
    refine ⟨fun he => ?_, fun he => ?_, fun w hm => ⟨request, response, ?_, hfirst⟩⟩
    · cases next <;> simp [proceed] at he
    · cases next <;> simp [proceed] at he
    · cases next <;> simpa [proceed, hne, eq_comm] using hm
  | _ => exact hlate (by assumption) (by rfl)

end Conn

/-! ## The link -/

structure Link where
  daemon : Daemon
  peer : Peer
  /-- History: what the client has read, as the connection wrote it. -/
  read : List Written

namespace Link

variable {P : Type}

inductive Act (P : Type) where
  /-- Anything that the daemon does without a frame of this client. -/
  | daemon (a : Daemon.Act P)
  /-- The connection reads the next frame that the client sent. -/
  | arrive
  /-- Anything that the client does without a frame of the connection. -/
  | peer (a : Peer.Act)
  /-- The client reads the next frame that the connection wrote. -/
  | deliver

def init : Link where
  daemon := Daemon.init
  peer := Peer.init
  read := []

/-- The connection reads a frame. -/
def readsOn (c : Nat) : Daemon.Act P → Bool
  | .conn c' (.receive (.frame _)) => c' = c
  | _ => false

/-- The client reads a frame. -/
def reads : Peer.Act → Bool
  | .drive (.receive (.frame _)) => true
  | _ => false

/-- What the connection wrote, if it was accepted yet. -/
def written (c : Nat) (d : Daemon) : List Written := (d.conns[c]?.map Conn.written).getD []

/-- The frames that the connection has read. -/
def taken (c : Nat) (d : Daemon) : List ClientFrame := (d.conns[c]?.map Conn.taken).getD []

theorem conn_cases (c : Nat) (d : Daemon) :
    (∃ conn, d.conns[c]? = some conn ∧ written c d = conn.written ∧ taken c d = conn.taken) ∨
      d.conns[c]? = none ∧ written c d = [] ∧ taken c d = [] := by
  cases hc : d.conns[c]? with
  | none => exact .inr ⟨rfl, by simp [written, hc], by simp [taken, hc]⟩
  | some conn => exact .inl ⟨conn, rfl, by simp [written, hc], by simp [taken, hc]⟩

def step (toValue : P → Except String Value) (debug : ServerResponse → String) (c : Nat)
    (l : Link) : Act P → Option Link
  | .daemon a =>
    if readsOn c a then none
    else (l.daemon.step toValue a).map fun daemon => { l with daemon }
  | .arrive => do
    let conn ← l.daemon.conns[c]?
    let (_, frame) ← l.peer.sent[conn.taken.length]?
    let daemon ← l.daemon.step toValue (.conn c (.receive (.frame frame)))
    some { l with daemon }
  | .peer a =>
    if reads a then none
    else (l.peer.step debug a).map fun peer => { l with peer }
  | .deliver => do
    let w ← (written c l.daemon)[l.read.length]?
    let peer ← l.peer.step debug (.drive (.receive (.frame w.frame)))
    some { l with peer, read := l.read ++ [w] }

variable {toValue : P → Except String Value} {debug : ServerResponse → String} {c : Nat}
  {l l' : Link}

theorem step_cases {a : Act P} (h : l.step toValue debug c a = some l') :
    (∃ b daemon, a = .daemon b ∧ readsOn c b = false ∧ l.daemon.step toValue b = some daemon ∧
      l' = { l with daemon }) ∨
    (∃ conn q daemon, a = .arrive ∧ l.daemon.conns[c]? = some conn ∧
      l.peer.sent[conn.taken.length]? = some q ∧
      l.daemon.step toValue (.conn c (.receive (.frame q.2))) = some daemon ∧
      l' = { l with daemon }) ∨
    (∃ b peer, a = .peer b ∧ reads b = false ∧ l.peer.step debug b = some peer ∧
      l' = { l with peer }) ∨
    ∃ w drive, a = .deliver ∧ (written c l.daemon)[l.read.length]? = some w ∧
      l.peer.drive.step (.receive (.frame w.frame)) = some drive ∧
      l' = { l with peer := { l.peer with drive }, read := l.read ++ [w] } := by
  cases a with
  | daemon b =>
    simp only [step] at h
    split at h
    · cases h
    · rename_i hb
      obtain ⟨daemon, hd, rfl⟩ := Option.map_eq_some_iff.1 h
      exact .inl ⟨b, daemon, rfl, by simpa using hb, hd, rfl⟩
  | arrive =>
    obtain ⟨conn, hc, h⟩ := Option.bind_eq_some_iff.1 h
    obtain ⟨q, hq, h⟩ := Option.bind_eq_some_iff.1 h
    obtain ⟨daemon, hd, h⟩ := Option.bind_eq_some_iff.1 h
    cases h
    exact .inr (.inl ⟨conn, q, daemon, rfl, hc, hq, hd, rfl⟩)
  | peer b =>
    simp only [step] at h
    split at h
    · cases h
    · rename_i hb
      obtain ⟨peer, hp, rfl⟩ := Option.map_eq_some_iff.1 h
      exact .inr (.inr (.inl ⟨b, peer, rfl, by simpa using hb, hp, rfl⟩))
  | deliver =>
    obtain ⟨w, hw, h⟩ := Option.bind_eq_some_iff.1 h
    obtain ⟨peer, hp, h⟩ := Option.bind_eq_some_iff.1 h
    cases h
    obtain ⟨drive, hd, rfl⟩ := Peer.receive_cases hp
    exact .inr (.inr (.inr ⟨w, drive, rfl, hw, hd, rfl⟩))

/-- The daemon takes steps of its own only. -/
theorem daemon_sim {a : Act P} (hs : l.step toValue debug c a = some l') :
    ∃ as, exec (Daemon.step toValue) l.daemon as = some l'.daemon := by
  obtain ⟨b, _, -, -, hd, rfl⟩ | ⟨_, q, _, -, -, -, hd, rfl⟩ | ⟨_, _, -, -, -, rfl⟩ |
    ⟨_, _, -, -, -, rfl⟩ := step_cases hs
  · exact ⟨[b], exec_single.2 hd⟩
  · exact ⟨[_], exec_single.2 hd⟩
  · exact ⟨[], rfl⟩
  · exact ⟨[], rfl⟩

theorem daemon_exec {acts : List (Act P)} (h : exec (step toValue debug c) init acts = some l) :
    ∃ as, exec (Daemon.step toValue) Daemon.init as = some l.daemon :=
  exec_project Link.daemon (fun _ _ _ hs => daemon_sim hs) h

theorem peer_exec {acts : List (Act P)} (h : exec (step toValue debug c) init acts = some l) :
    ∃ as, exec (Peer.step debug) Peer.init as = some l.peer := by
  refine exec_project Link.peer (fun l a l' hs => ?_) h
  obtain ⟨_, _, -, -, -, rfl⟩ | ⟨_, _, _, -, -, -, -, rfl⟩ | ⟨b, _, -, -, hp, rfl⟩ |
    ⟨_, _, -, -, hd, rfl⟩ := step_cases hs
  · exact ⟨[], rfl⟩
  · exact ⟨[], rfl⟩
  · exact ⟨[b], exec_single.2 hp⟩
  · exact ⟨[.drive (.receive _)], exec_single.2 (Peer.receive_step hd)⟩

/-! ## The socket -/

/-- What is read is what was written, in order, so far. -/
structure Piped (c : Nat) (l : Link) : Prop where
  arrived : ∀ conn, l.daemon.conns[c]? = some conn → conn.taken <+: l.peer.sent.map Prod.snd
  delivered : l.read <+: written c l.daemon

theorem piped_init : Piped c init :=
  ⟨fun conn hc => by simp [init, Daemon.init] at hc, List.nil_prefix⟩

/-- The next element extends a prefix. -/
theorem prefix_next {α : Type*} {xs ys : List α} {x : α} (h : xs <+: ys)
    (hx : ys[xs.length]? = some x) : xs ++ [x] <+: ys := by
  obtain ⟨zs, rfl⟩ := h
  obtain ⟨zs, rfl⟩ : ∃ rest, zs = x :: rest := by
    cases zs with
    | nil => simp at hx
    | cons z rest => exact ⟨rest, by simpa using hx⟩
  exact ⟨zs, by simp⟩

/-- What a step of the daemon does to one connection. -/
theorem daemon_step {d d' : Daemon} {a : Daemon.Act P} (h : d.step toValue a = some d') :
    d'.conns[c]? = d.conns[c]? ∨ (d.conns[c]? = none ∧ d'.conns[c]? = some .init) ∨
      ∃ b conn conn', a = .conn c b ∧ d.conns[c]? = some conn ∧
        Conn.Moves d.shared c conn b d'.shared conn' ∧ d'.conns[c]? = some conn' := by
  cases a with
  | accept k =>
    obtain ⟨hk, rfl⟩ := Daemon.accept_cases h
    by_cases hck : k = c
    · subst hck
      exact .inr (.inl ⟨hk, ExtTreeMap.getElem?_insert_self⟩)
    · exact .inl (ExtTreeMap.getElem?_insert_of_ne hck)
  | conn k b =>
    obtain ⟨conn, shared, conn', hk, hs, rfl⟩ := Daemon.conn_cases h
    by_cases hck : k = c
    · subst hck
      exact .inr (.inr
        ⟨b, conn, conn', rfl, hk, Conn.step_moves hs, ExtTreeMap.getElem?_insert_self⟩)
    · exact .inl (ExtTreeMap.getElem?_insert_of_ne hck)
  | registry b => obtain ⟨-, registry, -, rfl⟩ := Daemon.registry_cases h; exact .inl rfl
  | drain k =>
    obtain ⟨registry, -, -, rfl⟩ | ⟨-, -, rfl⟩ | ⟨-, rfl⟩ := Daemon.drain_cases h
    all_goals exact .inl rfl
  | stop result => obtain ⟨-, rfl⟩ := Daemon.stop_cases h; exact .inl rfl

theorem written_step {d d' : Daemon} {a : Daemon.Act P} (h : d.step toValue a = some d') :
    written c d <+: written c d' := by
  unfold written
  obtain he | ⟨hn, -⟩ | ⟨b, conn, conn', -, hc, hm, hc'⟩ := daemon_step (c := c) h
  · rw [he]
  · rw [hn]
    exact List.nil_prefix
  · rw [hc, hc']
    exact Conn.moves_written hm

theorem arrives_of_not_readsOn {b : Conn.Act} (h : readsOn (P := P) c (.conn c b) = false) :
    b.arrives = [] := by
  unfold Conn.Act.arrives
  split
  · simp [readsOn] at h
  · rfl

theorem sent_step {p p' : Peer} {a : Peer.Act} (h : p.step debug a = some p') :
    p.sent <+: p'.sent := by
  obtain ⟨b, -, -, drive, -, rfl⟩ | ⟨_, _, -, -, -, rfl⟩ | ⟨drive, _, -, -, rfl, -⟩ :=
    Peer.step_cases h
  · exact List.prefix_append _ _
  · exact List.prefix_rfl
  · exact List.prefix_rfl

theorem Piped.step {a : Act P} (h : l.Piped c) (hs : l.step toValue debug c a = some l') :
    l'.Piped c := by
  obtain ⟨b, d, -, hb, hd, rfl⟩ | ⟨conn, q, d, -, hc, hq, hd, rfl⟩ | ⟨b, p, -, -, hp, rfl⟩ |
    ⟨w, p, -, hw, hp, rfl⟩ := step_cases hs
  · refine ⟨fun conn' hc' => ?_, h.delivered.trans (written_step hd)⟩
    obtain he | ⟨-, he⟩ | ⟨b, conn, conn₁, rfl, hc, hm, he⟩ := daemon_step (c := c) hd
    · exact h.arrived conn' (he ▸ hc')
    · cases he.symm.trans hc'
      exact List.nil_prefix
    · cases he.symm.trans hc'
      rw [Conn.moves_taken hm, arrives_of_not_readsOn hb, List.append_nil]
      exact h.arrived conn hc
  · refine ⟨fun conn' hc' => ?_, h.delivered.trans (written_step hd)⟩
    have hnext : (l.peer.sent.map Prod.snd)[conn.taken.length]? = some q.2 := by simp [hq]
    obtain he | ⟨hn, -⟩ | ⟨b, conn₀, conn₁, hb, hc₀, hm, he⟩ := daemon_step (c := c) hd
    · exact h.arrived conn' (he ▸ hc')
    · cases hn.symm.trans hc
    · cases he.symm.trans hc'
      cases hc₀.symm.trans hc
      cases hb
      rw [Conn.moves_taken hm]
      exact prefix_next (h.arrived conn hc) hnext
  · exact ⟨fun conn hc => (h.arrived conn hc).trans ((sent_step hp).map _), h.delivered⟩
  · exact ⟨h.arrived, prefix_next h.delivered hw⟩

theorem piped_exec {acts : List (Act P)} (h : exec (step toValue debug c) init acts = some l) :
    l.Piped c :=
  exec_inv' (fun _ _ _ hi hs => hi.step hs) piped_init h

end Link

end AgencyProxy
