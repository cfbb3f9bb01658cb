import AgencyProxy.Daemon.Answers

/-!
# Calls to providers

A message, an approval decision or a session interrupt is handed to `agent_abstraction` while its
request is handled, and its answer tells whether it was. `called` is compared with the answers of
all connections: a call is made once for each request that it was answered for, and no others,
but for requests whose answer could not be written.
-/

namespace AgencyProxy

open AgencyProxy.Runtime Std Lts

/-- The call that a control request asks for, if it is well formed. -/
def ClientMessage.call : ClientMessage → Option ProviderCall
  | .injectMessage id body _ => some (.send id body)
  | .decideApproval id approvalId decision _ => some (.respond id approvalId (decisionFor decision))
  | .interruptSession provider sessionId binary _ =>
    (interruptRequest provider sessionId binary).toOption.map .interrupt
  | _ => none

/-- The answer of a control request whose call was made, whatever came of it. -/
def ServerResponse.reached : ServerResponse → Bool
  | .error .internal _ => true
  | .error _ _ => false
  | _ => true

/-- How often the request's call is `x`. -/
def ClientFrame.asks (x : ProviderCall) (request : ClientFrame) : Nat :=
  if request.message.call = some x then 1 else 0

/-- How often the answered request made the call. -/
def ClientFrame.made (x : ProviderCall) (request : ClientFrame) (response : ServerResponse) : Nat :=
  if response.reached then request.asks x else 0

def Written.made (x : ProviderCall) : Written → Nat
  | .response request answer => request.made x answer
  | _ => 0

/-- The call of the answer that is being written. -/
def Pc.made (x : ProviderCall) : Pc → Nat
  | .answering request response _ _ => request.made x response
  | _ => 0

/-- The call of the request whose answer could not be written, if it was made. -/
def Pc.lost (x : ProviderCall) : Pc → Nat
  | .returned (.writeFailed (some request)) => request.asks x
  | _ => 0

namespace Conn

/-- How often the connection made the call, by the answers that it wrote or is writing. -/
def made (x : ProviderCall) (conn : Conn) : Nat :=
  (conn.written.map (Written.made x)).sum + conn.pc.made x

def lost (x : ProviderCall) (conn : Conn) : Nat := conn.pc.lost x

/-- The step made the call `n` times, and the answers tell so. -/
structure Tells (x : ProviderCall) (s s' : Shared) (conn conn' : Conn) : Prop where
  least : s.called.count x + conn'.made x ≤ s'.called.count x + conn.made x
  most : s'.called.count x + conn.made x + conn.lost x ≤
    s.called.count x + conn'.made x + conn'.lost x

variable {x : ProviderCall} {s s' : Shared} {c : Nat} {conn conn' : Conn}

/-- A step that makes no call, and is not about an answer to a control request. -/
theorem Tells.still (hs : s'.called = s.called) (hw : conn'.written = conn.written)
    (hpc : conn.pc.made x = 0) (hpc' : conn'.pc.made x = 0) (hl : conn.pc.lost x = 0) :
    Tells x s s' conn conn' := by
  constructor <;> simp only [hs, made, lost, hw, hpc, hpc', hl] <;> omega

theorem asks_of_none {request : ClientFrame} (h : request.message.call = none) :
    request.asks x = 0 := by
  simp [ClientFrame.asks, h]

theorem made_of_none {request : ClientFrame} {response : ServerResponse}
    (h : request.message.call = none) : request.made x response = 0 := by
  unfold ClientFrame.made
  split
  · exact asks_of_none h
  · rfl

theorem made_of_refused {request : ClientFrame} {response : ServerResponse}
    (h : response.reached = false) : request.made x response = 0 := by
  simp [ClientFrame.made, h]

theorem made_le (request : ClientFrame) (response : ServerResponse) :
    request.made x response ≤ request.asks x := by
  unfold ClientFrame.made
  split <;> omega

/-- A request that is answered, with the call that its answer tells of. -/
theorem Tells.answer {request : ClientFrame} {response : ServerResponse}
    (hpc : conn.pc = .handling request) (hw : conn'.written = conn.written)
    (hpc' : conn'.pc = .answering request response .loop false)
    (hs : s'.called.count x = s.called.count x + request.made x response) :
    Tells x s s' conn conn' := by
  constructor <;> simp only [hs, made, lost, hw, hpc, hpc', Pc.made, Pc.lost] <;> omega

theorem count_call {request : ClientFrame} {call : ProviderCall} {response : ServerResponse}
    (hm : request.message.call = some call) (hr : response.reached = true) :
    (s.called ++ [call]).count x = s.called.count x + request.made x response := by
  rw [List.count_append, List.count_singleton, ClientFrame.made, if_pos hr, ClientFrame.asks, hm]
  by_cases hx : call = x <;> simp [hx]

theorem control_tells {request : ClientFrame} {id : RunId} {call : ProviderCall} {reply : Reply}
    (hpc : conn.pc = .handling request) (hm : request.message.call = some call)
    (h : control s conn request id call reply = some (s', conn')) :
    Tells x s s' conn conn' := by
  unfold control at h
  split at h
  · rename_i result
    split at h
    · split at h
      · cases h
        refine .answer hpc rfl rfl (count_call hm ?_)
        cases result <;> rfl
      · cases h
        exact .answer hpc rfl rfl (by rw [made_of_refused rfl]; rfl)
    · cases h
  · cases h

/-- An answer in a request's arm without a call. -/
theorem handle_tells {reply : Reply} (h : conn.handle s c reply = some (s', conn')) :
    Tells x s s' conn conn' := by
  unfold handle at h
  split at h
  · rename_i request hpc
    have hzero : conn.pc.made x = 0 := by rw [hpc]; rfl
    have hlost : conn.pc.lost x = 0 := by rw [hpc]; rfl
    -- The arms that make no call either leave the request unanswered or have none to make.
    have quiet : ∀ response, request.message.call = none →
        Tells x s s conn (conn.answer request response) := fun response hm =>
      .answer hpc rfl rfl (by rw [made_of_none hm]; rfl)
    split at h
    · rename_i hm
      split at h
      · cases h; exact quiet _ (by rw [hm]; rfl)
      · cases h
    · rename_i hm
      cases h
      exact quiet _ (by rw [hm]; rfl)
    · rename_i hm
      cases h
      exact quiet _ (by rw [hm]; rfl)
    · split at h
      · cases h; exact .still rfl rfl hzero rfl hlost
      · cases h
    · split at h
      · cases h; exact .still rfl rfl hzero rfl hlost
      · cases h
    · split at h
      · cases h; exact .still rfl rfl hzero rfl hlost
      · cases h
    · rename_i id after hm
      split at h
      · split at h
        · cases h
          exact .still rfl rfl hzero (made_of_none (by rw [hm]; rfl)) hlost
        · cases h
          exact quiet _ (by rw [hm]; rfl)
      · cases h
    · rename_i id hm
      cases h
      exact .still rfl (by simp [answer]) hzero (made_of_none (by rw [hm]; rfl)) hlost
    · rename_i id body key reply hm
      exact control_tells hpc (by rw [hm]; rfl) h
    · rename_i id key k hm
      obtain ⟨registry, -, he⟩ := Option.map_eq_some_iff.1 h
      cases he
      exact .still rfl rfl hzero rfl hlost
    · rename_i provider sessionId binary key result hm
      split at h
      · rename_i e he
        cases h
        exact quiet _ (by rw [hm]; simp [ClientMessage.call, he, Except.toOption])
      · rename_i call hcall
        cases h
        refine .answer hpc rfl rfl (count_call ?_ ?_)
        · rw [hm]
          simp [ClientMessage.call, hcall, Except.toOption]
        · cases result <;> rfl
    · rename_i id approvalId decision key reply hm
      exact control_tells hpc (by rw [hm]; rfl) h
    · rename_i id through hm
      split at h
      · split at h
        · cases h
          exact .still rfl rfl hzero (made_of_none (by rw [hm]; rfl)) hlost
        · cases h
          exact quiet _ (by rw [hm]; rfl)
      · cases h
    · rename_i hm
      cases h
      exact quiet _ (by rw [hm]; rfl)
    · cases h
  · cases h

/-- A step of a forwarder. -/
theorem Tells.same (hs : s'.called = s.called) (hw : conn'.written = conn.written)
    (hpc : conn'.pc = conn.pc) : Tells x s s' conn conn' := by
  constructor <;> simp only [hs, made, lost, hw, hpc] <;> omega

theorem greet_made (frame : ClientFrame) : (greet frame).made x = 0 := by
  unfold greet
  split
  · rename_i name version hm
    split
    · exact made_of_none (by rw [hm]; rfl)
    · exact made_of_refused rfl
  · exact made_of_refused rfl

/-- The response that was being written is written. -/
theorem Tells.wrote {request : ClientFrame} {response : ServerResponse} {next : Next}
    {locked : Bool} (hpc : conn.pc = .answering request response next locked) :
    Tells x s
      (proceed s c { conn with written := conn.written ++ [.response request response] }
        locked next).1 conn
      (proceed s c { conn with written := conn.written ++ [.response request response] }
        locked next).2 := by
  have hcalled : ∀ locked, (s.release locked).called = s.called := fun locked => by
    unfold Shared.release; split <;> rfl
  cases next <;> constructor <;>
    simp only [proceed, hcalled, made, lost, hpc, Pc.made, Pc.lost, Written.made, List.map_append,
      List.map_cons, List.map_nil, List.sum_append, List.sum_cons, List.sum_nil] <;> omega

theorem moves_tells {a : Act} (hm : Moves s c conn a s' conn') (ha : ∀ reply, a ≠ .handle reply)
    (h : conn.Truthful s) : Tells x s s' conn conn' := by
  -- Neither what the connection was at nor what it goes on to is an answer with a call.
  have hstill : ∀ {pc : Pc}, conn.pc = pc → pc.made x = 0 → pc.lost x = 0 →
      s'.called = s.called → conn'.written = conn.written → conn'.pc.made x = 0 →
      Tells x s s' conn conn' := fun hpc hmade hlost hs hw hpc' =>
    .still hs hw (by rw [hpc, hmade]) hpc' (by rw [hpc, hlost])
  cases hm with
  | first frame hpc => exact hstill hpc rfl rfl rfl rfl (greet_made frame)
  | request frame hpc => exact hstill hpc rfl rfl rfl rfl rfl
  | hangUp hpc => exact hstill hpc rfl rfl rfl rfl rfl
  | close hpc => exact hstill hpc rfl rfl rfl rfl rfl
  | undecodable hpc =>
    rcases hpc with hpc | hpc
    · exact hstill hpc rfl rfl rfl rfl rfl
    · exact hstill hpc rfl rfl rfl rfl rfl
  | unreadable hpc =>
    rcases hpc with hpc | hpc
    · exact hstill hpc rfl rfl rfl rfl rfl
    · exact hstill hpc rfl rfl rfl rfl rfl
  | relay n event rest hpc => exact hstill hpc rfl rfl rfl rfl rfl
  | answer | acknowledge | lock | attach | detach | cancel => exact absurd rfl (ha _)
  | refuse k request message hpc => exact hstill hpc rfl rfl rfl rfl (made_of_refused rfl)
  | idle k request hpc hmsg =>
    exact hstill hpc rfl rfl rfl rfl (made_of_none (by rw [hmsg]; rfl))
  | stop k request mode hpc hmsg =>
    exact hstill hpc rfl rfl rfl rfl (made_of_none (by rw [hmsg]; rfl))
  | launch k request id spec key registry hpc => exact hstill hpc rfl rfl rfl rfl rfl
  | started request k id result hpc =>
    obtain ⟨id', spec, key, hmsg, -⟩ := h.awaits hpc fun frame => by
      obtain ⟨_, _, hg⟩ := greet_answering frame; simp [hg]
    exact hstill hpc rfl rfl rfl rfl (made_of_none (by rw [hmsg]; rfl))
  | canceled request k id result hpc =>
    obtain ⟨id', key, hmsg, -⟩ := h.awaits hpc fun frame => by
      obtain ⟨_, _, hg⟩ := greet_answering frame; simp [hg]
    exact hstill hpc rfl rfl rfl rfl (made_of_none (by rw [hmsg]; rfl))
  | wrote request response next locked hpc => exact .wrote hpc
  | unanswered request response next locked store hpc =>
    have hcalled : (s.release locked).called = s.called := by
      unfold Shared.release; split <;> rfl
    have hle := made_le (x := x) request response
    constructor <;>
      simp only [Shared.withStore, hcalled, made, lost, hpc, Pc.made, Pc.lost] <;> omega
  | relayed n event hpc =>
    constructor <;> simp [made, lost, hpc, Pc.made, Pc.lost, Written.made]
  | unrelayed n event hpc => exact hstill hpc rfl rfl rfl rfl rfl
  | replayed n id event rest forwarder hpc =>
    constructor <;> simp [made, lost, hpc, Pc.made, Pc.lost, Written.made]
  | unreplayed n id event rest forwarder hpc => exact hstill hpc rfl rfl rfl rfl rfl
  | spawn n id forwarder hpc =>
    exact hstill hpc rfl rfl rfl (abort_written conn id) rfl
  | setShutdown hpc => exact hstill hpc rfl rfl rfl rfl rfl
  | wake | forward | suspend | reap => exact .same rfl rfl rfl

/-- **Step lemma**: the answers tell of each call that is made. -/
theorem tells_step {a : Act} (h : conn.Truthful s) (hs : conn.step s c a = some (s', conn')) :
    Tells x s s' conn conn' := by
  by_cases ha : ∃ reply, a = .handle reply
  · obtain ⟨reply, rfl⟩ := ha
    exact handle_tells hs
  · exact moves_tells (step_moves hs) (fun reply he => ha ⟨reply, he⟩) h

end Conn

namespace Daemon

variable {P : Type} {toValue : P → Except String Value} {x : ProviderCall} {d d' : Daemon}

/-- How often the call was made, against what the answers of all connections tell. -/
def Told (x : ProviderCall) (d : Daemon) : Prop :=
  d.conns.sum (Conn.made x) ≤ d.shared.called.count x ∧
    d.shared.called.count x ≤ d.conns.sum fun conn => conn.made x + conn.lost x

theorem Told.step {acts : List (Act P)} {a : Act P}
    (hd : exec (Daemon.step toValue) init acts = some d) (h : d.Told x)
    (hs : d.step toValue a = some d') : d'.Told x := by
  cases a with
  | accept c =>
    obtain ⟨hc, rfl⟩ := accept_cases hs
    unfold Told
    rw [ExtTreeMap.sum_insert_new hc, ExtTreeMap.sum_insert_new hc]
    exact h
  | conn c a =>
    obtain ⟨conn, shared, conn', hc, hstep, rfl⟩ := conn_cases hs
    obtain ⟨hleast, hmost⟩ := Conn.tells_step (x := x) (truthful_exec hd c conn hc) hstep
    have hmade := ExtTreeMap.sum_insert_old (f := Conn.made x) (v := conn') hc
    have hall := ExtTreeMap.sum_insert_old (f := fun conn => conn.made x + conn.lost x)
      (v := conn') hc
    obtain ⟨hlow, hhigh⟩ := h
    refine ⟨?_, ?_⟩ <;> dsimp only at * <;> omega
  | registry a => obtain ⟨-, registry, -, rfl⟩ := registry_cases hs; exact h
  | drain c =>
    obtain ⟨registry, -, -, rfl⟩ | ⟨-, -, rfl⟩ | ⟨-, rfl⟩ := drain_cases hs
    all_goals exact h
  | stop result => obtain ⟨-, rfl⟩ := stop_cases hs; exact h

/-- **A control call is made once for each request that was answered so.** In every run of the
daemon, each message, approval decision and session interrupt has gone to its provider exactly as
often as requests for it, on all connections together, were answered with a success or with the
provider's own failure; what was refused, or is still to be handled, has not gone there. Only a
request whose answer could not be written may have gone there unannounced. -/
theorem calls_told (toValue : P → Except String Value) (acts : List (Act P)) (d : Daemon)
    (h : exec (step toValue) init acts = some d) (x : ProviderCall) :
    d.conns.sum (Conn.made x) ≤ d.shared.called.count x ∧
      d.shared.called.count x ≤ d.conns.sum fun conn => conn.made x + conn.lost x :=
  exec_inv_reachable (C := fun _ _ => True) (I := Told x)
    (fun _ _ _ _ hm hi _ hs => Told.step hm hi hs)
    (by simp [Told, init, Shared.init, ExtTreeMap.sum_empty])
    (along_of_forall (fun _ _ => trivial) _ _) h

/-- A message for a run that is not there, then a run that is started and sent the same message
twice; the second answer cannot be written. -/
def messaged : List (Act Unit) :=
  [.accept 0, .conn 0 (.receive (.frame ⟨1, .hello "sender" ⟨0, 4⟩⟩)), .conn 0 (.write true),
   .conn 0 (.receive (.frame ⟨2, .injectMessage ⟨"r"⟩ "more" "a"⟩)),
   .conn 0 (.handle (.control (.ok ()))), .conn 0 (.write true),
   .conn 0 (.receive (.frame ⟨3, .startRun ⟨"r"⟩ plainRequest "b"⟩)), .conn 0 (.handle .nothing),
   .conn 0 (.check 0), .registry (.startCheck 0), .registry (.startLaunch 0 (.ok ())),
   .registry (.startInsert 0), .registry (.startCount 0), .registry (.startSpawn 0),
   .conn 0 .started, .conn 0 (.write true),
   .conn 0 (.receive (.frame ⟨4, .injectMessage ⟨"r"⟩ "more" "c"⟩)),
   .conn 0 (.handle (.control (.ok ()))), .conn 0 (.write true),
   .conn 0 (.receive (.frame ⟨5, .injectMessage ⟨"r"⟩ "more" "c"⟩)),
   .conn 0 (.handle (.control (.ok ()))), .conn 0 (.write false)]

theorem calls_told_messaged :
    ∃ d : Daemon, exec (step fun _ => .ok .null) init messaged = some d ∧
      d.conns.sum (Conn.made (.send ⟨"r"⟩ "more")) = 1 ∧
      d.conns.sum (Conn.made (.send ⟨"r"⟩ "more")) ≤
        d.shared.called.count (.send ⟨"r"⟩ "more") ∧
      d.shared.called.count (.send ⟨"r"⟩ "more") ≤
        d.conns.sum fun conn =>
          conn.made (.send ⟨"r"⟩ "more") + conn.lost (.send ⟨"r"⟩ "more") := by
  have h : (exec (step fun _ => .ok .null) init messaged).map
      (fun d => d.conns.sum (Conn.made (.send ⟨"r"⟩ "more"))) = some 1 := by decide +kernel
  obtain ⟨d, hd, hsum⟩ := Option.map_eq_some_iff.1 h
  have htold := calls_told _ messaged d hd (.send ⟨"r"⟩ "more")
  exact ⟨d, hd, hsum, htold.1, htold.2⟩

end Daemon

end AgencyProxy
