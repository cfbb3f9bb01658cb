import AgencyProxy.Client.Correlation

/-!
# Connecting

`Client::connect` queues the hello as the first call, before anyone else has a handle, and decides
by its result. `Peer` is a client from there on: its `drive`, what `connect` has come to, and, as
history, what each call asked for and what was put on the socket.
-/

namespace AgencyProxy.Client

open Std Lts

/-! ## `connect` -/

/-- The message that `connect` sends. -/
def hello : ClientMessage := .hello "agency-proxy-client" protocolVersion

/-- What `connect` makes of the result of its call; `debug` is what `Debug` prints. -/
def connected (debug : ServerResponse → String) :
    Except ClientError ServerResponse → Except ClientError ProtocolVersion
  | .error error => .error error
  | .ok (.hello name version capabilities) =>
    if version.major = protocolVersion.major then .ok version
    else .error (.protocol
      ("unexpected hello response: " ++ debug (.hello name version capabilities)))
  | .ok (.error _ message) => .error (.protocol message)
  | .ok response => .error (.protocol ("unexpected hello response: " ++ debug response))

inductive Opening where
  /-- Awaits the response to the hello. -/
  | greeting
  | connected (version : ProtocolVersion)
  | failed (error : ClientError)
  /-- Its future was dropped. -/
  | abandoned

structure Peer where
  drive : Drive
  opening : Opening
  /-- History: what each call asked for, by its number. -/
  asked : List ClientMessage
  /-- History: the frames put on the socket, each with its call. -/
  sent : List (Nat × ClientFrame)

namespace Drive

/-- Only who has a `Client` can do this. -/
def Act.byHandle : Act → Bool
  | .request _ | .clone | .drop | .subscribe => true
  | _ => false

def Act.asks : Act → List ClientMessage
  | .request message => [message]
  | _ => []

/-- The call whose frame is being sent. -/
def onSend (s : Drive) : List (Nat × ClientFrame) :=
  match s.phase with
  | .sending frame call => [(call, frame)]
  | _ => []

/-- What a step puts on the socket. -/
def puts (s : Drive) : Act → List (Nat × ClientFrame)
  | .sent (.ok ()) => s.onSend
  | _ => []

end Drive

namespace Peer

/-- The hello is queued. -/
def init : Peer where
  drive := { Drive.init with requests := [⟨hello, 0⟩], calls := 1 }
  opening := .greeting
  asked := [hello]
  sent := []

inductive Act where
  /-- `connect` has the result of its call. -/
  | opened
  /-- The future of `connect` is dropped. -/
  | abandon
  | drive (a : Drive.Act)

def isConnected (p : Peer) : Bool :=
  match p.opening with
  | .connected _ => true
  | _ => false

/-- `connect` returns; with an error it drops its handle. -/
def opened (p : Peer) (debug : ServerResponse → String) : Option Peer :=
  match p.opening, p.drive.completions.find? fun completion => completion.1 = 0 with
  | .greeting, some (_, result) =>
    match connected debug result with
    | .ok version => some { p with opening := .connected version }
    | .error error =>
      (p.drive.step .drop).map fun drive => { p with drive, opening := .failed error }
  | _, _ => none

def abandon (p : Peer) : Option Peer :=
  match p.opening with
  | .greeting => (p.drive.step .drop).map fun drive => { p with drive, opening := .abandoned }
  | _ => none

def step (debug : ServerResponse → String) (p : Peer) : Act → Option Peer
  | .opened => p.opened debug
  | .abandon => p.abandon
  | .drive a =>
    if a.byHandle && !p.isConnected then none
    else
      (p.drive.step a).map fun drive =>
        { p with drive, asked := p.asked ++ a.asks, sent := p.sent ++ p.drive.puts a }

variable {debug : ServerResponse → String} {p p' : Peer}

/-- A step of the client is one of its `drive`, or `connect` returns. -/
theorem step_cases {a : Act} (h : p.step debug a = some p') :
    (∃ b, a = .drive b ∧ (b.byHandle = true → p.isConnected = true) ∧
      ∃ drive, p.drive.step b = some drive ∧
        p' = { p with drive, asked := p.asked ++ b.asks, sent := p.sent ++ p.drive.puts b }) ∨
    (∃ result version, p.opening = .greeting ∧ (0, result) ∈ p.drive.completions ∧
      connected debug result = .ok version ∧ p' = { p with opening := .connected version }) ∨
    ∃ drive opening, p.opening = .greeting ∧ p.drive.step .drop = some drive ∧
      p' = { p with drive, opening } ∧
      (opening = .abandoned ∨ ∃ result error, (0, result) ∈ p.drive.completions ∧
        connected debug result = .error error ∧ opening = .failed error) := by
  cases a with
  | opened =>
    simp only [step, opened] at h
    split at h
    · rename_i k result hopen hfind
      have hin : (0, result) ∈ p.drive.completions := by
        obtain rfl : k = 0 := by simpa using List.find?_some hfind
        exact List.mem_of_find?_eq_some hfind
      split at h
      · rename_i version hv
        cases h
        exact .inr (.inl ⟨result, version, hopen, hin, hv, rfl⟩)
      · rename_i error he
        obtain ⟨drive, hd, rfl⟩ := Option.map_eq_some_iff.1 h
        exact .inr (.inr ⟨drive, _, hopen, hd, rfl, .inr ⟨result, error, hin, he, rfl⟩⟩)
    · cases h
  | abandon =>
    simp only [step, abandon] at h
    split at h
    · rename_i hopen
      obtain ⟨drive, hd, rfl⟩ := Option.map_eq_some_iff.1 h
      exact .inr (.inr ⟨drive, _, hopen, hd, rfl, .inl rfl⟩)
    · cases h
  | drive b =>
    simp only [step] at h
    split at h
    · cases h
    · rename_i hb
      obtain ⟨drive, hd, rfl⟩ := Option.map_eq_some_iff.1 h
      refine .inl ⟨b, rfl, fun hh => ?_, drive, hd, rfl⟩
      simpa [hh] using hb

theorem receive_cases {incoming : Received}
    (h : p.step debug (.drive (.receive incoming)) = some p') :
    ∃ drive, p.drive.step (.receive incoming) = some drive ∧ p' = { p with drive } := by
  obtain ⟨drive, hd, rfl⟩ := Option.map_eq_some_iff.1 h
  exact ⟨drive, hd, by simp [Drive.Act.asks, Drive.puts]⟩

theorem receive_step {incoming : Received} {drive : Drive}
    (h : p.drive.step (.receive incoming) = some drive) :
    p.step debug (.drive (.receive incoming)) = some { p with drive } := by
  simp [step, Drive.Act.byHandle, h, Drive.Act.asks, Drive.puts]

/-- The drive of a client takes steps of its own only. -/
theorem step_drive {a : Act} (h : p.step debug a = some p') :
    ∃ bs, exec Drive.step p.drive bs = some p'.drive := by
  obtain ⟨b, -, -, drive, hd, rfl⟩ | ⟨_, _, -, -, -, rfl⟩ | ⟨drive, _, -, hd, rfl, -⟩ :=
    step_cases h
  · exact ⟨[b], exec_single.2 hd⟩
  · exact ⟨[], rfl⟩
  · exact ⟨[.drop], exec_single.2 hd⟩

/-- What `connect` and its callers do is a run of `drive`, the hello first. -/
theorem drive_exec {acts : List Act} (h : exec (step debug) init acts = some p) :
    ∃ bs, exec Drive.step Drive.init (.request hello :: bs) = some p.drive := by
  obtain ⟨bs, hb⟩ := exec_project Peer.drive (fun _ _ _ hs => step_drive hs) h
  exact ⟨bs, hb⟩

end Peer

/-! ## The line of requests -/

namespace Drive

/-- What is being sent and what is queued: each call with what it asks. -/
def line (s : Drive) : List (Nat × ClientMessage) :=
  s.onSend.map (fun q => (q.1, q.2.message)) ++ s.requests.map fun r => (r.response, r.message)

variable {s s' : Drive}

theorem receive_line {incoming : Received} (h : s.receive incoming = some s') :
    s'.calls = s.calls ∧ s'.line = s.line := by
  unfold receive at h
  split at h
  · rename_i hp
    split at h
    · split at h
      case h_6 =>
        dsimp only at h
        split at h
        · cases h; exact ⟨rfl, rfl⟩
        · cases h; exact ⟨rfl, rfl⟩
      all_goals cases h; exact ⟨rfl, by simp [line, onSend, hp]⟩
    · cases h
  · cases h

/-- A step adds at most its own call at the end of the line, and the head may leave it. -/
theorem step_line {a : Act} (h : s.step a = some s') :
    s'.calls = s.calls + a.asks.length ∧
      ((s.puts a).map (fun q => (q.1, q.2.message)) ++ s'.line).Sublist
        (s.line ++ a.asks.map fun message => (s.calls, message)) := by
  cases a with
  | request message =>
    simp only [step, request] at h
    split at h
    · cases h
    · split at h
      · cases h
        exact ⟨rfl, by simp [puts, line, onSend, complete]⟩
      · cases h
        exact ⟨rfl, by simp [puts, line, onSend, Act.asks]⟩
  | clone =>
    simp only [step] at h
    split at h
    · cases h
    · cases h; exact ⟨rfl, by simp [puts, line, onSend, Act.asks]⟩
  | drop =>
    simp only [step] at h
    split at h
    · cases h
    · cases h; exact ⟨rfl, by simp [puts, line, onSend, Act.asks]⟩
  | subscribe =>
    simp only [step] at h
    split at h
    · cases h
    · cases h; exact ⟨rfl, by simp [puts, line, onSend, Act.asks]⟩
  | unsubscribe =>
    simp only [step] at h
    split at h
    · cases h
    · cases h; exact ⟨rfl, by simp [puts, line, onSend, Act.asks]⟩
  | take encoded =>
    simp only [step, take] at h
    split at h
    · rename_i request rest hp hq
      cases encoded with
      | error error =>
        cases h
        exact ⟨rfl, by simp [puts, line, onSend, Act.asks, complete, hp, hq]⟩
      | ok u => cases h; exact ⟨rfl, by simp [puts, line, onSend, Act.asks, hp, hq]⟩
    · rename_i hp hq
      split at h
      · cases h; exact ⟨rfl, by simp [puts, line, onSend, Act.asks, hp, hq]⟩
      · cases h
    · cases h
  | sent result =>
    simp only [step, sent] at h
    split at h
    · rename_i frame call hp
      cases result with
      | error detail => cases h; exact ⟨rfl, by simp [puts, line, onSend, Act.asks, complete, hp]⟩
      | ok u => cases h; exact ⟨rfl, by simp [puts, line, onSend, Act.asks, hp]⟩
    · cases h
  | receive incoming =>
    obtain ⟨hc, hl⟩ := receive_line h
    exact ⟨hc, by simp [puts, hl, Act.asks]⟩
  | notify requestId =>
    simp only [step, notify] at h
    split at h
    · cases h; exact ⟨rfl, by simp [puts, line, onSend, Act.asks, complete]⟩
    · cases h
  | finish =>
    simp only [step, finish] at h
    split at h
    · rename_i detail hp
      split at h
      · cases h; exact ⟨rfl, by simp [puts, line, onSend, Act.asks, hp]⟩
      · cases h
    · cases h

/-! ## Responses -/

/-- The calls that were answered, each with its response. -/
def okays (s : Drive) : List (Nat × ServerResponse) :=
  s.completions.filterMap fun completion => completion.2.toOption.map (completion.1, ·)

theorem mem_okays {call : Nat} {response : ServerResponse} :
    (call, response) ∈ s.okays ↔ (call, .ok response) ∈ s.completions := by
  simp only [okays, List.mem_filterMap, Option.map_eq_some_iff, Prod.mk.injEq]
  constructor
  · rintro ⟨⟨k, result⟩, hin, r, hr, rfl, rfl⟩
    cases result with
    | ok response => cases hr; exact hin
    | error error => cases hr
  · exact fun hin => ⟨_, hin, response, rfl, rfl, rfl⟩

/-- The errors of a step answer nothing. -/
theorem okays_error {completions : List (Nat × Except ClientError ServerResponse)}
    (hc : s'.completions = s.completions ++ completions)
    (he : ∀ p ∈ completions, ∃ error, p.2 = .error error) : s'.okays = s.okays := by
  unfold okays
  rw [hc, List.filterMap_append]
  refine (congrArg _ (List.filterMap_eq_nil_iff.2 fun p hp => ?_)).trans (List.append_nil _)
  obtain ⟨error, he⟩ := he p hp
  rw [he]
  rfl

/-- A step that sends no request and reads no response. -/
theorem step_still {a : Act} (h : s.step a = some s') (hs : a ≠ .sent (.ok ()))
    (hr : ∀ id response, a ≠ .receive (.frame (.response id response))) :
    s'.okays = s.okays ∧ (s'.isOver = false → s.isOver = false ∧ s'.pending = s.pending) := by
  have hselect : s.phase = .selecting → s.isOver = false := fun hp => by simp [isOver, hp]
  cases step_moves h with
  | quiet _ clients events => exact ⟨rfl, fun ho => ⟨ho, rfl⟩⟩
  | queued message => exact ⟨rfl, fun ho => ⟨ho, rfl⟩⟩
  | refused message hp => exact ⟨okays_error rfl (by simp), fun ho => ⟨ho, rfl⟩⟩
  | unencodable request rest error hp =>
    exact ⟨okays_error rfl (by simp), fun _ => ⟨hselect hp, rfl⟩⟩
  | taken request rest hp => exact ⟨rfl, fun _ => ⟨hselect hp, rfl⟩⟩
  | stop _ detail hp => exact ⟨rfl, fun ho => (by cases ho)⟩
  | sent frame call => exact absurd rfl hs
  | unsent frame call detail => exact ⟨okays_error rfl (by simp), fun ho => (by cases ho)⟩
  | answered id call response => exact absurd rfl (hr id response)
  | unknown id response => exact absurd rfl (hr id response)
  | notify id call detail hp =>
    exact ⟨okays_error rfl (by simp), fun ho => (by simp [isOver, complete, hp] at ho)⟩
  | finish detail hp => exact ⟨okays_error rfl (by simp), fun ho => (by cases ho)⟩

theorem sent_cases (h : s.step (.sent (.ok ())) = some s') :
    ∃ frame call, s.phase = .sending frame call ∧ s.onSend = [(call, frame)] ∧
      s'.okays = s.okays ∧ s'.pending = s.pending.insert frame.requestId call := by
  simp only [step, sent] at h
  split at h
  · rename_i frame call hp
    cases h
    refine ⟨frame, call, hp, by simp [onSend, hp], okays_error rfl fun p hp => ?_, rfl⟩
    obtain ⟨k, -, rfl⟩ := Option.map_eq_some_iff.1 (Option.mem_toList.1 hp)
    exact ⟨_, rfl⟩
  · cases h

theorem response_cases {id : Nat} {response : ServerResponse}
    (h : s.step (.receive (.frame (.response id response))) = some s') :
    s.isOver = false ∧
      ((∃ call, s.pending[id]? = some call ∧ s'.okays = s.okays ++ [(call, response)] ∧
        s'.pending = s.pending.erase id) ∨
      s.pending[id]? = none ∧ s'.okays = s.okays ∧ s'.pending = s.pending) := by
  simp only [step, receive] at h
  split at h
  · rename_i hp
    refine ⟨by simp [isOver, hp], ?_⟩
    split at h
    · split at h
      · rename_i call hw
        cases h
        exact .inl ⟨call, hw, by simp [okays, complete, Except.toOption], rfl⟩
      · rename_i hw
        cases h
        exact .inr ⟨hw, rfl, rfl⟩
    · cases h
  · cases h

/-- The id of the request that is being sent is free: under it nobody waits. -/
theorem pending_free (ha : s.Accounted) (hn : s.Numbering) (hs : s.Spaced) {frame : ClientFrame}
    {call : Nat} (hp : s.phase = .sending frame call) : s.pending[frame.requestId]? = none := by
  refine Option.eq_none_iff_forall_ne_some.2 fun k hk => ?_
  have hone : ∀ k, s.tally k ≤ 1 := fun k => by rw [ha.once k]; split <;> omega
  have hwaits : 1 ≤ s.pending.count (· == k) :=
    ExtTreeMap.count_pos_of_getElem? hk (by simp)
  have hopen : ∀ k, 1 ≤ s.pending.count (· == k) + s.inSend k → k ∉ s.completed := fun k h hin => by
    have hcount := List.count_pos_iff.2 hin
    have hk := hone k
    unfold tally at hk
    omega
  have hsend : s.inSend call = 1 := by simp [inSend, hp]
  obtain rfl := hs.injective hn ⟨hn.waiting _ _ hk, hopen k (by omega)⟩
    ⟨hn.sending frame call hp, hopen call (by omega)⟩
  have hk := hone k
  unfold tally at hk
  omega

end Drive

namespace Peer

/-- Each call whose request was sent, is being sent or is queued, with what it asked. -/
def line (p : Peer) : List (Nat × ClientMessage) :=
  p.sent.map (fun q => (q.1, q.2.message)) ++ p.drive.line

/-- Requests stand in the order of their calls, and are what the calls asked for. -/
structure Lined (p : Peer) : Prop where
  calls : p.asked.length = p.drive.calls
  asked : ∀ q ∈ p.line, p.asked[q.1]? = some q.2
  order : (p.line.map Prod.fst).Pairwise (· < ·)

variable {debug : ServerResponse → String} {p p' : Peer}

theorem lined_init : init.Lined := by
  have hline : init.line = [(0, hello)] := rfl
  refine ⟨rfl, fun q hq => ?_, by simp [hline]⟩
  rw [hline, List.mem_singleton] at hq
  exact hq ▸ rfl

theorem Lined.drive (h : p.Lined) {a : Drive.Act} {drive : Drive} (opening : Opening)
    (hs : p.drive.step a = some drive) :
    Lined ⟨drive, opening, p.asked ++ a.asks, p.sent ++ p.drive.puts a⟩ := by
  obtain ⟨hcalls, hsub⟩ := Drive.step_line hs
  have hlt : ∀ q ∈ p.line, q.1 < p.drive.calls := fun q hq => by
    rw [← h.calls]
    exact (List.getElem?_eq_some_iff.1 (h.asked q hq)).1
  have hline : (line ⟨drive, opening, p.asked ++ a.asks, p.sent ++ p.drive.puts a⟩).Sublist
      (p.line ++ a.asks.map fun message => (p.drive.calls, message)) := by
    simpa [line] using hsub.append_left (p.sent.map fun q => (q.1, q.2.message))
  -- A step asks for at most one message.
  have hone : a.asks = [] ∨ ∃ message, a.asks = [message] := by
    cases a with
    | request message => exact .inr ⟨message, rfl⟩
    | _ => exact .inl rfl
  refine ⟨by simp [h.calls, hcalls], fun q hq => ?_, ?_⟩
  · have hq := hline.subset hq
    rcases hone with hn | ⟨message, hm⟩
    · rw [hn, List.map_nil, List.append_nil] at hq
      rw [hn]
      simpa using h.asked q hq
    · rw [hm, List.map_singleton] at hq
      rw [hm]
      rcases List.mem_append.1 hq with hq | hq
      · rw [List.getElem?_append_left (h.calls ▸ hlt q hq)]
        exact h.asked q hq
      · obtain rfl := List.mem_singleton.1 hq
        simp [← h.calls]
  · refine List.Pairwise.sublist (hline.map Prod.fst) ?_
    rw [List.map_append, List.pairwise_append]
    refine ⟨h.order, ?_, fun k hk k' hk' => ?_⟩
    · rcases hone with hn | ⟨message, hm⟩
      · simp [hn]
      · simp [hm]
    · obtain ⟨q, hq, rfl⟩ := List.mem_map.1 hk
      rcases hone with hn | ⟨message, hm⟩
      · simp [hn] at hk'
      · simp only [hm, List.map_singleton, List.mem_singleton] at hk'
        exact hk' ▸ hlt q hq

theorem Lined.step {a : Act} (h : p.Lined) (hs : p.step debug a = some p') : p'.Lined := by
  obtain ⟨b, -, -, drive, hd, rfl⟩ | ⟨_, _, -, -, -, rfl⟩ | ⟨drive, opening, -, hd, rfl, -⟩ :=
    step_cases hs
  · exact h.drive p.opening hd
  · exact ⟨h.calls, h.asked, h.order⟩
  · simpa [Drive.Act.asks, Drive.puts] using h.drive opening hd

theorem lined_exec {acts : List Act} (h : exec (step debug) init acts = some p) : p.Lined :=
  exec_inv' (fun _ _ _ hi hs => hi.step hs) lined_init h

theorem Lined.sent (h : p.Lined) : (p.sent.map Prod.fst).Pairwise (· < ·) := by
  refine List.Pairwise.sublist ?_ h.order
  rw [line, List.map_append, List.map_map]
  exact List.sublist_append_left _ _

/-- A call is sent once. -/
theorem Lined.sent_injective (h : p.Lined) {i j : Nat} {q q' : Nat × ClientFrame}
    (hi : p.sent[i]? = some q) (hj : p.sent[j]? = some q') (he : q.1 = q'.1) : i = j := by
  have hn : (p.sent.map Prod.fst).Nodup := h.sent.imp Nat.ne_of_lt
  refine (List.getElem?_inj ?_ hn).1 ?_
  · simpa using (List.getElem?_eq_some_iff.1 hi).1
  · simp [hi, hj, he]

theorem Lined.asked_sent (h : p.Lined) {q : Nat × ClientFrame} (hq : q ∈ p.sent) :
    p.asked[q.1]? = some q.2.message :=
  h.asked (q.1, q.2.message) (List.mem_append_left _ (List.mem_map_of_mem hq))

/-- Elements at increasing places are a sublist. -/
theorem sublist_drop {α : Type*} {xs : List α} {ps : List (Nat × α)} {n : Nat}
    (ho : (ps.map Prod.fst).Pairwise (· < ·)) (hx : ∀ q ∈ ps, xs[q.1]? = some q.2)
    (hn : ∀ q ∈ ps, n ≤ q.1) : (ps.map Prod.snd).Sublist (xs.drop n) := by
  induction ps generalizing n with
  | nil => exact List.nil_sublist _
  | cons q ps ih =>
    rw [List.map_cons, List.pairwise_cons] at ho
    obtain ⟨hlt, hget⟩ := List.getElem?_eq_some_iff.1 (hx q List.mem_cons_self)
    have hdrop : xs.drop q.1 = q.2 :: xs.drop (q.1 + 1) := by
      rw [List.drop_eq_getElem_cons hlt, hget]
    have hrest : (ps.map Prod.snd).Sublist (xs.drop (q.1 + 1)) :=
      ih ho.2 (fun q' hq' => hx q' (List.mem_cons_of_mem _ hq'))
        fun q' hq' => ho.1 q'.1 (List.mem_map_of_mem hq')
    have hmore : (xs.drop q.1).Sublist (xs.drop n) :=
      List.drop_sublist_drop_left xs (hn q List.mem_cons_self)
    exact (hdrop ▸ hrest.cons_cons q.2).trans hmore

/-- The line is part of what was asked, in order. -/
theorem Lined.sublist (h : p.Lined) : (p.line.map Prod.snd).Sublist p.asked := by
  simpa using sublist_drop h.order h.asked fun q _ => Nat.zero_le q.1

/-! ## The hello comes first -/

/-- What `connect` returned is what it makes of the result of its call. -/
def Opens (debug : ServerResponse → String) (p : Peer) : Prop :=
  match p.opening with
  | .connected version =>
    ∃ result, (0, result) ∈ p.drive.completions ∧ connected debug result = .ok version
  | .failed error =>
    ∃ result, (0, result) ∈ p.drive.completions ∧ connected debug result = .error error
  | _ => True

/-- Nobody asks for more before the hello is answered. -/
structure Greets (debug : ServerResponse → String) (p : Peer) : Prop where
  first : p.asked.head? = some hello
  more : p.asked ≠ [hello] → ∃ response, (0, .ok response) ∈ p.drive.completions
  opens : p.Opens debug

theorem greets_init : init.Greets debug := ⟨rfl, fun h => absurd rfl h, trivial⟩

theorem connected_ok {result : Except ClientError ServerResponse} {version : ProtocolVersion}
    (h : connected debug result = .ok version) : ∃ response, result = .ok response := by
  cases result with
  | error error => cases h
  | ok response => exact ⟨response, rfl⟩

theorem Greets.answered (h : p.Greets debug) (hc : p.isConnected = true) :
    ∃ response, (0, .ok response) ∈ p.drive.completions := by
  have ho := h.opens
  unfold isConnected at hc
  unfold Opens at ho
  split at hc
  · rename_i version hopen
    rw [hopen] at ho
    obtain ⟨result, hin, hv⟩ := ho
    obtain ⟨response, rfl⟩ := connected_ok hv
    exact ⟨response, hin⟩
  · cases hc

theorem Opens.later {drive : Drive} {asked : List ClientMessage} {sent : List (Nat × ClientFrame)}
    (h : p.Opens debug) (hm : p.drive.completions ⊆ drive.completions) :
    Opens debug ⟨drive, p.opening, asked, sent⟩ := by
  unfold Opens at h ⊢
  dsimp only
  split
  · rename_i version hopen
    rw [hopen] at h
    obtain ⟨result, hin, hv⟩ := h
    exact ⟨result, hm hin, hv⟩
  · rename_i error hopen
    rw [hopen] at h
    obtain ⟨result, hin, hv⟩ := h
    exact ⟨result, hm hin, hv⟩
  · trivial

theorem completions_step {a : Drive.Act} {s s' : Drive} (h : s.step a = some s') :
    s.completions ⊆ s'.completions := by
  obtain ⟨⟨more, hmore⟩, -⟩ := Drive.moves_history (Drive.step_moves h)
  exact hmore ▸ List.subset_append_left _ _

theorem Greets.step {a : Act} (h : p.Greets debug) (hs : p.step debug a = some p') :
    p'.Greets debug := by
  obtain ⟨b, -, hb, drive, hd, rfl⟩ | ⟨result, version, -, hin, hv, rfl⟩ |
    ⟨drive, opening, -, hd, rfl, ho⟩ := step_cases hs
  · have hlater := completions_step hd
    refine ⟨by simp [h.first], fun hne => ?_, h.opens.later hlater⟩
    · by_cases he : p.asked = [hello]
      · have hasks : b.asks ≠ [] := fun hn => hne (by simp [he, hn])
        have hhandle : b.byHandle = true := by
          cases b with
          | request message => rfl
          | _ => exact absurd rfl hasks
        obtain ⟨response, hr⟩ := h.answered (hb hhandle)
        exact ⟨response, hlater hr⟩
      · obtain ⟨response, hr⟩ := h.more he
        exact ⟨response, hlater hr⟩
  · exact ⟨h.first, h.more, result, hin, hv⟩
  · have hlater := completions_step hd
    refine ⟨h.first, fun hne => ?_, ?_⟩
    · obtain ⟨response, hr⟩ := h.more hne
      exact ⟨response, hlater hr⟩
    · obtain rfl | ⟨result, error, hin, he, rfl⟩ := ho
      · trivial
      · exact ⟨result, hlater hin, he⟩

theorem greets_exec {acts : List Act} (h : exec (step debug) init acts = some p) :
    p.Greets debug :=
  exec_inv' (fun _ _ _ hi hs => hi.step hs) greets_init h

end Peer

end AgencyProxy.Client
