import AgencyProxy.Link

/-!
# Requests over the link

A call of the client completes with the response that the connection wrote to its own request:
the `n`-th response that the client reads answers the `n`-th request that it sent, whatever ids
the two went under. Under that, what `connect` comes to, what an `Ok` means to the caller, and where
each request is.
-/

namespace AgencyProxy.Link

open AgencyProxy.Client AgencyProxy.Runtime Std Lts

variable {P : Type} {toValue : P → Except String Value} {debug : ServerResponse → String} {c : Nat}
  {l l' : Link}

/-! ## Requests and responses -/

/-- The request that an entry answers, with the response. -/
def reply : Written → Option (ClientFrame × ServerResponse)
  | .response request response => some (request, response)
  | _ => none

def replies (log : List Written) : List (ClientFrame × ServerResponse) := log.filterMap reply

theorem replies_fst (log : List Written) : (replies log).map Prod.fst = answered log := by
  rw [replies, answered, List.map_filterMap]
  congr 1
  funext w
  cases w <;> rfl

theorem mem_replies {log : List Written} {request : ClientFrame} {response : ServerResponse} :
    (request, response) ∈ replies log ↔ .response request response ∈ log := by
  simp only [replies, List.mem_filterMap]
  constructor
  · rintro ⟨w, hw, h⟩
    cases w with
    | response q r => cases h; exact hw
    | replayed n event => cases h
    | live n event => cases h
  · exact fun h => ⟨_, h, rfl⟩

/-- What was answered was read, and all but at most one of what was read was answered. -/
theorem taken_eq {conn : Conn} (h : conn.Disciplined) :
    conn.taken = answered conn.written ++ conn.pc.pending.filterMap id := by
  rw [Conn.taken, h.paired, List.filterMap_append, List.filterMap_map]
  congr 1
  exact List.filterMap_some

/-- The responses that the client has read answer what it sent, in order. -/
theorem Piped.replied (h : l.Piped c) {as : List (Daemon.Act P)}
    (hd : exec (Daemon.step toValue) Daemon.init as = some l.daemon) :
    (replies l.read).map Prod.fst <+: l.peer.sent.map Prod.snd := by
  have hread := h.delivered
  rw [replies_fst]
  obtain ⟨conn, hc, hw, -⟩ | ⟨-, hw, -⟩ := conn_cases c l.daemon
  · rw [hw] at hread
    have htaken : answered conn.written <+: conn.taken :=
      taken_eq (Daemon.disciplined_exec hd hc) ▸ List.prefix_append _ _
    exact (hread.filterMap _).trans (htaken.trans (h.arrived conn hc))
  · rw [hw] at hread
    rw [List.prefix_nil.1 hread]
    exact List.nil_prefix

/-- Each response goes to the call whose request it answers, and all others wait. -/
structure Paired (l : Link) : Prop where
  okays : l.peer.drive.okays =
    List.zipWith (fun q p => (q.1, p.2)) l.peer.sent (replies l.read)
  waits : l.peer.drive.isOver = false → ∀ id call : Nat, l.peer.drive.pending[id]? = some call ↔
    ∃ message, (call, ⟨id, message⟩) ∈ l.peer.sent.drop (replies l.read).length
  count : l.peer.drive.isOver = false → ∀ k, l.peer.drive.pending.count (· == k) =
    ((l.peer.sent.drop (replies l.read).length).map Prod.fst).count k

theorem paired_init : init.Paired := by
  refine ⟨rfl, fun _ id call => ?_, fun _ k => ?_⟩
  · simp [init, Peer.init, Drive.init]
  · simp [init, Peer.init, Drive.init]

/-- The client goes on, with nothing sent and nothing answered. -/
theorem Paired.still (h : l.Paired) {p : Peer} (hs : p.sent = l.peer.sent)
    (ho : p.drive.okays = l.peer.drive.okays) (hp : p.drive.isOver = false →
      l.peer.drive.isOver = false ∧ p.drive.pending = l.peer.drive.pending) :
    Paired { l with peer := p } where
  okays := by rw [ho, hs]; exact h.okays
  waits hover id call := by rw [(hp hover).2, hs]; exact h.waits (hp hover).1 id call
  count hover k := by rw [(hp hover).2, hs]; exact h.count (hp hover).1 k

/-- An event is read. -/
theorem Paired.skip (h : l.Paired) {w : Written} (hw : reply w = none) :
    Paired { l with read := l.read ++ [w] } := by
  have hreplies : replies (l.read ++ [w]) = replies l.read := by simp [replies, hw]
  refine ⟨?_, fun ho => ?_, fun ho => ?_⟩
  · dsimp only
    rw [hreplies]
    exact h.okays
  · dsimp only
    rw [hreplies]
    exact h.waits ho
  · dsimp only
    rw [hreplies]
    exact h.count ho

theorem zipWith_extend {α β γ : Type*} (f : α → β → γ) {xs more : List α} {ys : List β}
    (h : ys.length ≤ xs.length) : List.zipWith f (xs ++ more) ys = List.zipWith f xs ys := by
  induction ys generalizing xs with
  | nil => simp
  | cons y ys ih =>
    cases xs with
    | nil => simp at h
    | cons x xs => simpa using ih (by simpa using h)

theorem zipWith_next {α β γ : Type*} (f : α → β → γ) {xs : List α} {x : α} {ys : List β} {y : β}
    (h : xs[ys.length]? = some x) :
    List.zipWith f xs (ys ++ [y]) = List.zipWith f xs ys ++ [f x y] := by
  induction ys generalizing xs with
  | nil =>
    cases xs with
    | nil => simp at h
    | cons x' xs => simpa using congrArg (f · y) (Option.some.inj h)
  | cons y' ys ih =>
    cases xs with
    | nil => simp at h
    | cons x' xs => simpa using ih (by simpa using h)

/-- A request is sent. -/
theorem Paired.send (h : l.Paired) (hr : (replies l.read).length ≤ l.peer.sent.length)
    {p : Peer} {frame : ClientFrame} {call : Nat} (hover : l.peer.drive.isOver = false)
    (hfree : l.peer.drive.pending[frame.requestId]? = none)
    (hs : p.sent = l.peer.sent ++ [(call, frame)]) (ho : p.drive.okays = l.peer.drive.okays)
    (hp : p.drive.pending = l.peer.drive.pending.insert frame.requestId call) :
    Paired { l with peer := p } where
  okays := by rw [ho, hs, zipWith_extend _ hr]; exact h.okays
  waits _ id k := by
    dsimp only
    rw [hp, hs, List.drop_append_of_le_length hr, ExtTreeMap.getElem?_insert_some]
    simp only [List.mem_append, List.mem_singleton, Prod.mk.injEq]
    constructor
    · rintro (⟨rfl, rfl⟩ | ⟨-, hk⟩)
      · exact ⟨frame.message, .inr ⟨rfl, rfl⟩⟩
      · obtain ⟨message, hm⟩ := (h.waits hover id k).1 hk
        exact ⟨message, .inl hm⟩
    · rintro ⟨message, hm | ⟨rfl, rfl⟩⟩
      · have hk := (h.waits hover id k).2 ⟨message, hm⟩
        refine .inr ⟨?_, hk⟩
        rintro rfl
        cases hfree.symm.trans hk
      · exact .inl ⟨rfl, rfl⟩
  count _ k := by
    dsimp only
    rw [hp, hs, List.drop_append_of_le_length hr, ExtTreeMap.count_insert_new hfree,
      h.count hover k, Drive.toNat_beq, List.map_append, List.count_append]
    simp [List.count_singleton]

/-- A response is read. -/
theorem Paired.answer (h : l.Paired) (hl : l.peer.Lined) {p : Peer} {request : ClientFrame}
    {response : ServerResponse} {call : Nat} (hover : l.peer.drive.isOver = false)
    (hq : l.peer.sent[(replies l.read).length]? = some (call, request))
    (hs : p.sent = l.peer.sent) (ho : p.drive.okays = l.peer.drive.okays ++ [(call, response)])
    (hp : p.drive.pending = l.peer.drive.pending.erase request.requestId) :
    Paired { l with peer := p, read := l.read ++ [.response request response] } := by
  obtain ⟨hlt, hget⟩ := List.getElem?_eq_some_iff.1 hq
  have hdrop : l.peer.sent.drop (replies l.read).length =
      (call, request) :: l.peer.sent.drop ((replies l.read).length + 1) := by
    rw [List.drop_eq_getElem_cons hlt, hget]
  have hreplies : replies (l.read ++ [.response request response]) =
      replies l.read ++ [(request, response)] := by simp [replies, reply]
  -- The call is in the line once.
  have honce : ∀ q ∈ l.peer.sent.drop ((replies l.read).length + 1), q.1 ≠ call := fun q hq he => by
    have horder := List.Pairwise.sublist
      ((List.drop_sublist (replies l.read).length l.peer.sent).map Prod.fst) hl.sent
    rw [hdrop, List.map_cons, List.pairwise_cons] at horder
    have := horder.1 q.1 (List.mem_map_of_mem hq)
    omega
  have hwait : l.peer.drive.pending[request.requestId]? = some call :=
    (h.waits hover _ _).2 ⟨request.message, by rw [hdrop]; exact List.mem_cons_self⟩
  refine ⟨?_, fun _ id k => ?_, fun _ k => ?_⟩
  · dsimp only
    rw [ho, hs, hreplies, zipWith_next _ hq, h.okays]
  · dsimp only
    rw [hp, hs, hreplies, List.length_append, List.length_singleton,
      ExtTreeMap.getElem?_erase_some, h.waits hover, hdrop]
    constructor
    · rintro ⟨hne, message, hm⟩
      obtain he | hm := List.mem_cons.1 hm
      · cases he
        exact absurd rfl hne
      · exact ⟨message, hm⟩
    · rintro ⟨message, hm⟩
      refine ⟨?_, message, List.mem_cons_of_mem _ hm⟩
      rintro rfl
      have hk := (h.waits hover _ _).2 ⟨message, by rw [hdrop]; exact List.mem_cons_of_mem _ hm⟩
      exact honce _ hm (Option.some.inj (hk.symm.trans hwait))
  · dsimp only
    have hcount := ExtTreeMap.count_erase (p := (· == k)) hwait
    have hk := h.count hover k
    rw [hdrop, List.map_cons, List.count_cons] at hk
    rw [Drive.toNat_beq] at hcount
    rw [hp, hs, hreplies, List.length_append, List.length_singleton]
    simp only [beq_iff_eq] at hk
    omega

/-- Fewer than `maxIds` requests are numbered while one is outstanding. -/
def Uncrowded (l : Link) : Act P → Prop
  | .peer (.drive a) => l.peer.drive.Uncrowded a
  | _ => True

theorem spaced_step {a : Act P} (hi : l.peer.drive.Spaced) (hu : l.Uncrowded a)
    (hs : l.step toValue debug c a = some l') : l'.peer.drive.Spaced := by
  obtain ⟨_, _, -, -, -, rfl⟩ | ⟨_, _, _, -, -, -, -, rfl⟩ | ⟨b, p, rfl, -, hp, rfl⟩ |
    ⟨w, drive, -, -, hd, rfl⟩ := step_cases hs
  · exact hi
  · exact hi
  · obtain ⟨b, rfl, -, drive, hd, rfl⟩ | ⟨_, _, -, -, -, rfl⟩ | ⟨drive, _, -, hd, rfl, -⟩ :=
      Peer.step_cases hp
    · exact hi.moves hu (Drive.step_moves hd)
    · exact hi
    · have hu : l.peer.drive.Uncrowded .drop := trivial
      exact hi.moves hu (Drive.step_moves hd)
  · have hu : l.peer.drive.Uncrowded (.receive (.frame w.frame)) := trivial
    exact hi.moves hu (Drive.step_moves hd)

/-- **Step lemma.** -/
theorem Paired.step {acts : List (Act P)} {a : Act P}
    (hm : exec (Link.step toValue debug c) init acts = some l) (hsp : l.peer.drive.Spaced)
    (h : l.Paired) (hs : l.step toValue debug c a = some l') : l'.Paired := by
  obtain ⟨as, hd₀⟩ := daemon_exec hm
  obtain ⟨bs, hb⟩ := peer_exec hm
  obtain ⟨ds, hdrive⟩ := Peer.drive_exec hb
  have hlined := Peer.lined_exec hb
  have hpiped := piped_exec hm
  have hreplied := hpiped.replied hd₀
  have hle : (replies l.read).length ≤ l.peer.sent.length := by
    simpa using hreplied.length_le
  obtain ⟨_, _, -, -, -, rfl⟩ | ⟨_, _, _, -, -, -, -, rfl⟩ | ⟨b, p, -, hb, hp, rfl⟩ |
    ⟨w, drive, ha, hw, hd, rfl⟩ := step_cases hs
  · exact ⟨h.okays, h.waits, h.count⟩
  · exact ⟨h.okays, h.waits, h.count⟩
  · obtain ⟨b, rfl, -, drive, hd, rfl⟩ | ⟨_, _, -, -, -, rfl⟩ | ⟨drive, _, -, hd, rfl, -⟩ :=
      Peer.step_cases hp
    · by_cases hsent : b = .sent (.ok ())
      · subst hsent
        obtain ⟨frame, call, hphase, hon, ho, hpend⟩ := Drive.sent_cases hd
        refine h.send hle (by simp [Drive.isOver, hphase]) ?_ (by simp [Drive.puts, hon]) ho hpend
        exact Drive.pending_free (Drive.accounted_exec hdrive) (Drive.numbering_exec hdrive) hsp
          hphase
      · have hresponse : ∀ id response, b ≠ .receive (.frame (.response id response)) := by
          rintro id response rfl
          cases hb
        obtain ⟨ho, hpend⟩ := Drive.step_still hd hsent hresponse
        refine h.still ?_ ho hpend
        have hputs : l.peer.drive.puts b = [] := by
          unfold Drive.puts
          split
          · exact absurd rfl hsent
          · rfl
        simp [hputs]
    · exact h.still rfl rfl fun ho => ⟨ho, rfl⟩
    · obtain ⟨ho, hpend⟩ := Drive.step_still hd (by simp) (by simp)
      exact h.still rfl ho hpend
  · have hread := (hpiped.step hs).replied hd₀
    cases w with
    | response request response =>
      have hreplies : replies (l.read ++ [.response request response]) =
          replies l.read ++ [(request, response)] := by simp [replies, reply]
      have hnext : (l.peer.sent.map Prod.snd)[(replies l.read).length]? = some request := by
        obtain ⟨rest, hrest⟩ := hread
        dsimp only at hrest
        rw [← hrest, hreplies]
        simp
      obtain ⟨⟨call, frame⟩, hq, rfl⟩ : ∃ q, l.peer.sent[(replies l.read).length]? = some q ∧
          q.2 = request := by simpa using hnext
      obtain ⟨hlt, hget⟩ := List.getElem?_eq_some_iff.1 hq
      obtain ⟨hover, hcase⟩ := Drive.response_cases hd
      have hwait : l.peer.drive.pending[frame.requestId]? = some call := by
        refine (h.waits hover _ _).2 ⟨frame.message, ?_⟩
        rw [List.drop_eq_getElem_cons hlt, hget]
        exact List.mem_cons_self
      obtain ⟨k, hk, ho, hpend⟩ | ⟨hnone, -⟩ := hcase
      · cases hwait.symm.trans hk
        exact h.answer hlined hover hq rfl ho hpend
      · cases hwait.symm.trans hnone
    | replayed n event =>
      obtain ⟨ho, hpend⟩ := Drive.step_still hd (by simp) (by simp [Written.frame, eventFrame])
      exact (h.still (p := { l.peer with drive }) rfl ho hpend).skip rfl
    | live n event =>
      obtain ⟨ho, hpend⟩ := Drive.step_still hd (by simp) (by simp [Written.frame, eventFrame])
      exact (h.still (p := { l.peer with drive }) rfl ho hpend).skip rfl

theorem paired_exec {acts : List (Act P)} (hu : Along (step toValue debug c) Uncrowded init acts)
    (h : exec (step toValue debug c) init acts = some l) : l.Paired :=
  (exec_inv_reachable (I := fun l : Link => l.Paired ∧ l.peer.drive.Spaced)
    (fun _ _ _ _ hm hi hu hs => ⟨hi.1.step hm hi.2 hs, spaced_step hi.2 hu hs⟩)
    ⟨paired_init, fun i j call id hi => by simp [init, Peer.init, Drive.init] at hi⟩ hu h).1

/-- An `Ok` is the answer to the request of its call, in its turn. -/
theorem Paired.okay (h : l.Paired) (hr : (replies l.read).map Prod.fst <+: l.peer.sent.map Prod.snd)
    {k : Nat} {response : ServerResponse} (hk : (k, .ok response) ∈ l.peer.drive.completions) :
    ∃ (i : Nat) (request : ClientFrame), l.peer.sent[i]? = some (k, request) ∧
      (replies l.read)[i]? = some (request, response) := by
  rw [← Drive.mem_okays, h.okays] at hk
  obtain ⟨i, hi⟩ := List.mem_iff_getElem?.1 hk
  obtain ⟨⟨k', frame⟩, ⟨request, response'⟩, hsent, hreply, he⟩ :=
    List.getElem?_zipWith_eq_some.1 hi
  cases he
  refine ⟨i, request, ?_, hreply⟩
  obtain ⟨rest, hrest⟩ := hr
  have hlt := (List.getElem?_eq_some_iff.1 hreply).1
  have hframe : (l.peer.sent.map Prod.snd)[i]? = some request := by
    rw [← hrest, List.getElem?_append_left (by simpa using hlt)]
    simp [hreply]
  have heq : frame = request := by simpa [hsent] using hframe
  rw [hsent, heq]

/-! ## Where a request is -/

/-- The calls whose request is on its way to the connection. -/
def onTheWay (c : Nat) (l : Link) : List Nat :=
  (l.peer.sent.drop (taken c l.daemon).length).map Prod.fst

/-- The calls whose request the connection has read and not answered. -/
def atProxy (c : Nat) (l : Link) : List Nat :=
  ((l.peer.sent.take (taken c l.daemon).length).drop
    (answered (written c l.daemon)).length).map Prod.fst

/-- The calls whose response is on its way back. -/
def comingBack (c : Nat) (l : Link) : List Nat :=
  ((l.peer.sent.take (answered (written c l.daemon)).length).drop
    (replies l.read).length).map Prod.fst

theorem drop_split {α : Type*} {xs : List α} {m n : Nat} (hmn : m ≤ n) (hn : n ≤ xs.length) :
    xs.drop m = (xs.take n).drop m ++ xs.drop n := by
  conv_lhs => rw [← List.take_append_drop n xs]
  exact List.drop_append_of_le_length (by simp; omega)

/-- What the connection has read, and answered, of what was sent. -/
theorem Piped.lengths (h : l.Piped c) {as : List (Daemon.Act P)}
    (hd : exec (Daemon.step toValue) Daemon.init as = some l.daemon) :
    taken c l.daemon <+: l.peer.sent.map Prod.snd ∧
      (replies l.read).length ≤ (answered (written c l.daemon)).length ∧
      (answered (written c l.daemon)).length ≤ (taken c l.daemon).length ∧
      (taken c l.daemon).length ≤ (answered (written c l.daemon)).length + 1 := by
  have hread : (replies l.read).length ≤ (answered (written c l.daemon)).length := by
    rw [← List.length_map (f := Prod.fst), replies_fst]
    exact (h.delivered.filterMap _).length_le
  refine ⟨?_, hread, ?_⟩
  · obtain ⟨conn, hc, -, ht⟩ | ⟨-, -, ht⟩ := conn_cases c l.daemon
    · exact ht ▸ h.arrived conn hc
    · exact ht ▸ List.nil_prefix
  · obtain ⟨conn, hc, hw, ht⟩ | ⟨-, hw, ht⟩ := conn_cases c l.daemon
    · have hone : (conn.pc.pending.filterMap id).length ≤ 1 := by
        refine (List.length_filterMap_le _ _).trans ?_
        unfold Pc.pending
        split <;> simp
      rw [hw, ht, taken_eq (Daemon.disciplined_exec hd hc), List.length_append]
      omega
    · simp [hw, ht, answered]

/-! ## A run -/

theorem numbered_step {a : Act P} (hs : l.step toValue debug c a = some l') :
    l'.peer.drive.numbered.length ≤ l.peer.drive.numbered.length + 1 := by
  have hdrive : ∀ {b : Drive.Act} {s s' : Drive}, s.step b = some s' →
      s'.numbered.length ≤ s.numbered.length + 1 := fun hd => by
    obtain ⟨-, hn | ⟨_, _, -, hn⟩⟩ := Drive.moves_history (Drive.step_moves hd)
    · rw [hn]; omega
    · rw [hn, List.length_append, List.length_singleton]
  obtain ⟨_, _, -, -, -, rfl⟩ | ⟨_, _, _, -, -, -, -, rfl⟩ | ⟨b, p, rfl, -, hp, rfl⟩ |
    ⟨w, drive, -, -, hd, rfl⟩ := step_cases hs
  · exact Nat.le_succ _
  · exact Nat.le_succ _
  · obtain ⟨b, rfl, -, drive, hd, rfl⟩ | ⟨_, _, -, -, -, rfl⟩ | ⟨drive, _, -, hd, rfl, -⟩ :=
      Peer.step_cases hp
    · exact hdrive hd
    · exact Nat.le_succ _
    · exact hdrive hd
  · exact hdrive hd

/-- A run that is short of a whole cycle of ids is never crowded. -/
theorem along_uncrowded {acts : List (Act P)}
    (h : l.peer.drive.numbered.length + acts.length < Drive.maxIds) :
    Along (step toValue debug c) Uncrowded l acts := by
  induction acts generalizing l with
  | nil => trivial
  | cons a acts ih =>
    rw [List.length_cons] at h
    refine ⟨?_, fun l' hs => ih ?_⟩
    · unfold Uncrowded
      split
      · unfold Drive.Uncrowded
        split
        · intro i call id _ _
          omega
        · trivial
      · trivial
    · have := numbered_step hs
      omega

/-- The client connects, asks for a run and for the list of runs, and has the first answer. -/
def linked : List (Act Unit) :=
  [.peer (.drive (.take (.ok ()))), .peer (.drive (.sent (.ok ()))), .daemon (.accept 0),
   .arrive, .daemon (.conn 0 (.write true)), .deliver, .peer .opened,
   .peer (.drive (.request (.startRun ⟨"r"⟩ plainRequest "key"))),
   .peer (.drive (.request .listRuns)), .peer (.drive (.take (.ok ()))),
   .peer (.drive (.sent (.ok ()))), .arrive, .daemon (.conn 0 (.handle .nothing)),
   .daemon (.conn 0 (.check 0)), .daemon (.registry (.startCheck 0)),
   .daemon (.registry (.startLaunch 0 (.ok ()))), .daemon (.registry (.startInsert 0)),
   .daemon (.registry (.startCount 0)), .daemon (.registry (.startSpawn 0)),
   .daemon (.conn 0 .started), .daemon (.conn 0 (.write true)),
   .peer (.drive (.take (.ok ()))), .peer (.drive (.sent (.ok ()))), .deliver, .arrive]

/-- Nothing here is printed. -/
def noDebug : ServerResponse → String := fun _ => ""

/-- The third call's request is being handled, the second call has its answer. -/
theorem linked_exec :
    ∃ l : Link, exec (step (fun _ : Unit => .ok .null) noDebug 0) init linked = some l ∧
      l.peer.asked = [hello, .startRun ⟨"r"⟩ plainRequest "key", .listRuns] ∧
      l.peer.drive.okays =
        [(0, .hello "agency-proxy" protocolVersion serverCapabilities), (1, .accepted)] ∧
      l.peer.opening = .connected protocolVersion ∧
      l.peer.drive.isOver = false ∧ l.peer.drive.calls = 3 ∧ l.atProxy 0 = [2] :=
  ⟨_, rfl, rfl, rfl, rfl, rfl, rfl, rfl⟩

/-! ## The hello -/

/-- What the client sends first is its hello. -/
theorem hello_first (hl : l.peer.Lined) (hg : l.peer.Greets debug) (hp : l.Paired)
    (hr : (replies l.read).map Prod.fst <+: l.peer.sent.map Prod.snd) {q : Nat × ClientFrame}
    (hq : l.peer.sent[0]? = some q) : q.1 = 0 ∧ q.2.message = hello := by
  have hin := List.mem_of_getElem? hq
  have hasked := hl.asked_sent hin
  have hzero : q.1 = 0 := by
    by_cases hone : l.peer.asked = [hello]
    · rw [hone] at hasked
      have := (List.getElem?_eq_some_iff.1 hasked).1
      simpa using this
    · -- Another call was made, so the hello was answered, and before that it was sent.
      obtain ⟨response, hresponse⟩ := hg.more hone
      obtain ⟨i, request, hi, -⟩ := hp.okay hr hresponse
      have hlt := hl.sent
      have hin := List.mem_of_getElem? hi
      cases hs : l.peer.sent with
      | nil => rw [hs] at hq; cases hq
      | cons q' rest =>
        rw [hs] at hq hin hlt
        cases hq
        rw [List.map_cons, List.pairwise_cons] at hlt
        obtain he | hin := List.mem_cons.1 hin
        · rw [← he]
        · exact absurd (hlt.1 0 (List.mem_map_of_mem hin)) (Nat.not_lt_zero _)
  refine ⟨hzero, ?_⟩
  rw [hzero, ← List.head?_eq_getElem?, hg.first] at hasked
  exact (Option.some.inj hasked).symm

theorem firstAnswer_hello {request : ClientFrame} {response : ServerResponse}
    (hm : request.message = hello) (h : Conn.FirstAnswer request response) :
    response = .hello "agency-proxy" protocolVersion serverCapabilities := by
  obtain ⟨next, hg⟩ := h
  have hv : protocolVersion.negotiate protocolVersion = some protocolVersion := by decide
  simp only [Conn.greet, hm, hello, hv, Pc.answering.injEq] at hg
  exact hg.2.1.symm

/-- What every connection that was accepted has written, the client's among them. -/
theorem introduced_exec {as : List (Daemon.Act P)} {d : Daemon}
    (h : exec (Daemon.step toValue) Daemon.init as = some d) {conn : Conn}
    (hc : d.conns[c]? = some conn) : conn.Introduced :=
  Daemon.conns_exec (G := fun _ => True) (fun _ _ _ => trivial) Conn.introduced_init
    (fun _ _ _ _ _ _ _ hi hm => hi.moves hm) h hc

/-- The first response that the client has read is that to its hello. -/
theorem Piped.greeting (h : l.Piped c) {as : List (Daemon.Act P)}
    (hd : exec (Daemon.step toValue) Daemon.init as = some l.daemon) {request : ClientFrame}
    {response : ServerResponse} (hr : (replies l.read)[0]? = some (request, response)) :
    Conn.FirstAnswer request response := by
  have hread := h.delivered
  obtain ⟨conn, hc, hw, -⟩ | ⟨-, hw, -⟩ := conn_cases c l.daemon
  · rw [hw] at hread
    have hintro := introduced_exec hd hc
    cases hl : l.read with
    | nil => rw [hl] at hr; cases hr
    | cons w rest =>
      rw [hl] at hread hr
      obtain ⟨more, hmore⟩ := hread
      obtain ⟨q, r, rfl, hfirst⟩ := hintro.first w (by rw [← hmore]; rfl)
      cases hr
      exact hfirst
  · rw [hw] at hread
    rw [List.prefix_nil.1 hread] at hr
    cases hr

/-- **Connecting.** In every run of the link, whatever else happens to the daemon: the response that
`connect` gets to its hello, if it gets one, is a hello of the client's own version, so that
`connect` returns a client of that version, and fails only where its call failed; and whoever has
such a client finds the connection past its greeting. -/
theorem connect_negotiates (toValue : P → Except String Value) (debug : ServerResponse → String)
    (c : Nat) (acts : List (Act P)) (l : Link)
    (h : exec (step toValue debug c) init acts = some l)
    (hu : Along (step toValue debug c) Uncrowded init acts) :
    (∀ response, (0, .ok response) ∈ l.peer.drive.completions →
      response = .hello "agency-proxy" protocolVersion serverCapabilities) ∧
    (∀ version, l.peer.opening = .connected version → version = protocolVersion ∧
      ∃ conn, l.daemon.conns[c]? = some conn ∧ conn.greeted = true) ∧
    ∀ error, l.peer.opening = .failed error → (0, .error error) ∈ l.peer.drive.completions := by
  obtain ⟨as, hd⟩ := daemon_exec h
  obtain ⟨bs, hb⟩ := peer_exec h
  have hl := Peer.lined_exec hb
  have hg := Peer.greets_exec hb
  have hpiped := piped_exec h
  have hreplied := hpiped.replied hd
  have hp := paired_exec hu h
  -- The call of `connect` is the first of the line, so its answer is the first response.
  have hok : ∀ response, (0, .ok response) ∈ l.peer.drive.completions →
      response = .hello "agency-proxy" protocolVersion serverCapabilities ∧
        ∃ request, .response request response ∈ l.read := fun response hk => by
    obtain ⟨i, request, hi, hr⟩ := hp.okay hreplied hk
    obtain ⟨q, hq⟩ : ∃ q, l.peer.sent[0]? = some q :=
      Option.isSome_iff_exists.1 (by
        have := (List.getElem?_eq_some_iff.1 hi).1
        simp; omega)
    obtain ⟨hzero, hhello⟩ := hello_first hl hg hp hreplied hq
    obtain rfl := hl.sent_injective hq hi hzero
    cases hq.symm.trans hi
    exact ⟨firstAnswer_hello hhello (hpiped.greeting hd hr), request,
      mem_replies.1 (List.mem_of_getElem? hr)⟩
  have hopens := hg.opens
  unfold Peer.Opens at hopens
  refine ⟨fun response hk => (hok response hk).1, fun version ho => ?_, fun error ho => ?_⟩
  · rw [ho] at hopens
    obtain ⟨result, hin, hv⟩ := hopens
    obtain ⟨response, rfl⟩ := Peer.connected_ok hv
    obtain ⟨rfl, request, hread⟩ := hok response hin
    refine ⟨by cases hv; rfl, ?_⟩
    have hwritten := hpiped.delivered.subset hread
    obtain ⟨conn, hc, hw, -⟩ | ⟨-, hw, -⟩ := conn_cases c l.daemon
    · rw [hw] at hwritten
      exact ⟨conn, hc, List.any_eq_true.2 ⟨_, hwritten, rfl⟩⟩
    · rw [hw] at hwritten
      cases hwritten
  · rw [ho] at hopens
    obtain ⟨result, hin, he⟩ := hopens
    cases result with
    | error e => cases he; exact hin
    | ok response =>
      obtain ⟨rfl, -⟩ := hok response hin
      cases he

theorem connect_negotiates_linked :
    ∃ l : Link, exec (step (fun _ : Unit => .ok .null) noDebug 0) init linked = some l ∧
      l.peer.opening = .connected protocolVersion ∧
      ∃ conn, l.daemon.conns[0]? = some conn ∧ conn.greeted = true := by
  obtain ⟨l, hl, -, -, hopen, -, -, -⟩ := linked_exec
  have hu : Along (step (fun _ : Unit => .ok .null) noDebug 0) Uncrowded init linked :=
    along_uncrowded (by decide)
  exact ⟨l, hl, hopen, ((connect_negotiates _ noDebug 0 linked l hl hu).2.1 _ hopen).2⟩

/-! ## The answers -/

/-- Every response that the client has read is true, that to its hello too. -/
theorem read_answers {acts : List (Act P)} (h : exec (step toValue debug c) init acts = some l)
    (hp : l.Paired) {request : ClientFrame} {response : ServerResponse}
    (hr : .response request response ∈ l.read) :
    l.daemon.shared.Answers request.message response := by
  obtain ⟨as, hd⟩ := daemon_exec h
  obtain ⟨bs, hb⟩ := peer_exec h
  have hpiped := piped_exec h
  have hreplied := hpiped.replied hd
  have hread := hpiped.delivered
  obtain ⟨conn, hc, hw, -⟩ | ⟨-, hw, -⟩ := conn_cases c l.daemon
  · rw [hw] at hread
    have htrue : Each (Conn.TrueAt l.daemon.shared) l.read := fun pre w post he => by
      obtain ⟨more, hmore⟩ := hread
      refine (Daemon.truthful_exec hd c conn hc).written pre w (post ++ more) ?_
      rw [← hmore, he]
      simp
    obtain ⟨pre, post, he⟩ := List.append_of_mem hr
    obtain hnow | ⟨rfl, hfirst⟩ := htrue pre _ post he request response rfl
    · exact hnow
    · -- The answer to the first frame, which is the client's hello.
      have hreply : (replies l.read)[0]? = some (request, response) := by
        rw [he]
        rfl
      obtain ⟨q, hq, rfl⟩ : ∃ q, l.peer.sent[0]? = some q ∧ q.2 = request := by
        obtain ⟨rest, hrest⟩ := hreplied
        have hnext : (l.peer.sent.map Prod.snd)[0]? = some request := by
          rw [← hrest, List.getElem?_append_left (by
            have := (List.getElem?_eq_some_iff.1 hreply).1
            simpa using this)]
          simp [hreply]
        simpa using hnext
      have hhello := (hello_first (Peer.lined_exec hb) (Peer.greets_exec hb) hp hreplied hq).2
      rw [firstAnswer_hello hhello hfirst, hhello]
      exact ⟨rfl, by decide, rfl⟩
  · rw [hw] at hread
    rw [List.prefix_nil.1 hread] at hr
    cases hr

/-- **An `Ok` is true, and about its own request.** In every run of the link, whatever other
connections, run tasks and drain tasks do: where a call of the client has completed with a
response, the connection wrote that response to a frame with the call's own message, and what the
response vouches for holds, then and in every later state. -/
theorem request_answered (toValue : P → Except String Value) (debug : ServerResponse → String)
    (c : Nat) (acts later : List (Act P)) (l l' : Link)
    (h : exec (step toValue debug c) init acts = some l)
    (hu : Along (step toValue debug c) Uncrowded init acts)
    (h' : exec (step toValue debug c) l later = some l') (k : Nat) (response : ServerResponse)
    (hk : (k, .ok response) ∈ l.peer.drive.completions) :
    ∃ message requestId, l.peer.asked[k]? = some message ∧
      .response ⟨requestId, message⟩ response ∈ written c l.daemon ∧
      l.daemon.shared.Answers message response ∧ l'.daemon.shared.Answers message response := by
  obtain ⟨as, hd⟩ := daemon_exec h
  obtain ⟨bs, hb⟩ := peer_exec h
  have hl := Peer.lined_exec hb
  have hpiped := piped_exec h
  have hreplied := hpiped.replied hd
  have hp := paired_exec hu h
  obtain ⟨i, request, hi, hr⟩ := hp.okay hreplied hk
  have hread := mem_replies.1 (List.mem_of_getElem? hr)
  have hwritten := hpiped.delivered.subset hread
  have hnow := read_answers h hp hread
  obtain ⟨later', hlater⟩ := exec_project Link.daemon (fun _ _ _ hs => daemon_sim hs) h'
  exact ⟨request.message, request.requestId, hl.asked_sent (List.mem_of_getElem? hi), hwritten,
    hnow, hnow.grows (Daemon.grows_exec hd hlater)⟩

theorem request_answered_linked :
    ∃ l : Link, exec (step (fun _ : Unit => .ok .null) noDebug 0) init linked = some l ∧
      (1, .ok .accepted) ∈ l.peer.drive.completions ∧
      l.daemon.shared.registry.Holds ⟨"r"⟩ plainRequest := by
  obtain ⟨l, hl, hasked, hokays, -, -, -, -⟩ := linked_exec
  have hu : Along (step (fun _ : Unit => .ok .null) noDebug 0) Uncrowded init linked :=
    along_uncrowded (by decide)
  have hk : (1, .ok .accepted) ∈ l.peer.drive.completions :=
    Drive.mem_okays.1 (by rw [hokays]; simp)
  obtain ⟨message, requestId, hm, -, hnow, -⟩ :=
    request_answered _ noDebug 0 linked [] l l hl hu rfl 1 .accepted hk
  rw [hasked] at hm
  cases hm
  exact ⟨l, hl, hk, hnow⟩

/-! ## In order -/

/-- **In order, one at a time, and none lost.** In every run of the link: the connection has read
the requests in the order of their calls, each once; at most one of them is being handled; and as
long as the client's `drive` runs, each call is in exactly one place: queued, being sent, on its way
to the connection, being handled, answered and on its way back, or completed. -/
theorem requests_in_order (toValue : P → Except String Value) (debug : ServerResponse → String)
    (c : Nat) (acts : List (Act P)) (l : Link)
    (h : exec (step toValue debug c) init acts = some l)
    (hu : Along (step toValue debug c) Uncrowded init acts) :
    ((taken c l.daemon).map ClientFrame.message).Sublist l.peer.asked ∧
    (l.atProxy c).length ≤ 1 ∧
    (l.peer.drive.isOver = false → ∀ k,
      (l.peer.drive.requests.map PendingRequest.response).count k + l.peer.drive.inSend k +
          (l.onTheWay c).count k + (l.atProxy c).count k + (l.comingBack c).count k +
          l.peer.drive.completed.count k =
        if k < l.peer.drive.calls then 1 else 0) := by
  obtain ⟨as, hd⟩ := daemon_exec h
  obtain ⟨bs, hb⟩ := peer_exec h
  obtain ⟨ds, hdrive⟩ := Peer.drive_exec hb
  obtain ⟨htaken, hread, hanswered, hone⟩ := (piped_exec h).lengths hd
  have hlen : (taken c l.daemon).length ≤ l.peer.sent.length := by simpa using htaken.length_le
  refine ⟨?_, ?_, fun hover k => ?_⟩
  · have hsent : ((taken c l.daemon).map ClientFrame.message).Sublist
        (l.peer.sent.map fun q => q.2.message) := by
      have hmap := htaken.sublist.map ClientFrame.message
      rw [List.map_map] at hmap
      exact hmap
    refine hsent.trans (List.Sublist.trans ?_ (Peer.lined_exec hb).sublist)
    rw [Peer.line, List.map_append, List.map_map]
    exact List.sublist_append_left _ _
  · simp only [atProxy, List.length_map, List.length_drop, List.length_take]
    omega
  · have hcount := (paired_exec hu h).count hover k
    rw [drop_split hread (hanswered.trans hlen), drop_split hanswered hlen] at hcount
    rw [← (Drive.accounted_exec hdrive).once k, Drive.tally, hcount]
    simp only [onTheWay, atProxy, comingBack, List.map_append, List.count_append]
    omega

theorem requests_in_order_linked :
    ∃ l : Link, exec (step (fun _ : Unit => .ok .null) noDebug 0) init linked = some l ∧
      l.atProxy 0 = [2] ∧ 2 ∉ l.peer.drive.completed ∧ 2 ∉ l.onTheWay 0 := by
  obtain ⟨l, hl, -, -, -, hover, hcalls, hat⟩ := linked_exec
  have hu : Along (step (fun _ : Unit => .ok .null) noDebug 0) Uncrowded init linked :=
    along_uncrowded (by decide)
  have hone := (requests_in_order _ noDebug 0 linked l hl hu).2.2 hover 2
  rw [hcalls, if_pos (by decide), hat, List.count_singleton, if_pos (by decide)] at hone
  refine ⟨l, hl, hat, fun hin => ?_, fun hin => ?_⟩
  · have := List.count_pos_iff.2 hin
    omega
  · have := List.count_pos_iff.2 hin
    omega

end AgencyProxy.Link
