import AgencyProxy.Connection

/-!
# What a connection can do

`Moves` lists the steps of a connection, each with what it needs and what it leaves, and
`step_moves` says that there are no others. Every invariant of connections is proved by
cases on it.
-/

namespace AgencyProxy

open AgencyProxy.Runtime Std

/-- The requests that take the lifecycle lock. -/
def ClientMessage.locks : ClientMessage → Bool
  | .shutdownIfIdle | .shutdown _ | .startRun _ _ _ => true
  | _ => false

/-- Answers that only their own request can get. -/
def ServerResponse.plain : ServerResponse → Bool
  | .hello _ _ _ | .run _ => false
  | _ => true

namespace Conn

inductive Moves (s : Shared) (c : Nat) (conn : Conn) : Act → Shared → Conn → Prop
  | first (frame : ClientFrame) (pc : conn.pc = .opening) :
      Moves s c conn (.receive (.frame frame)) s
        { conn with consumed := conn.consumed ++ [some frame], pc := greet frame }
  | request (frame : ClientFrame) (pc : conn.pc = .selecting) (drained : conn.outbound = []) :
      Moves s c conn (.receive (.frame frame)) s
        { conn with consumed := conn.consumed ++ [some frame], pc := .handling frame }
  | hangUp (pc : conn.pc = .opening) :
      Moves s c conn (.receive .closed) s { conn with pc := .returned .ok }
  | close (pc : conn.pc = .selecting) (drained : conn.outbound = []) :
      Moves s c conn (.receive .closed) s { conn.abortAll with pc := .returned .ok }
  | undecodable (pc : conn.pc = .opening ∨ conn.pc = .selecting) :
      Moves s c conn (.receive .undecodable) s
        { conn with consumed := conn.consumed ++ [none], pc := .returned .undecodable }
  | unreadable (pc : conn.pc = .opening ∨ conn.pc = .selecting) :
      Moves s c conn (.receive .failed) s { conn with pc := .returned .unreadable }
  | relay (n : Nat) (event : SequencedEvent) (rest : List (Nat × SequencedEvent))
      (pc : conn.pc = .selecting) (queue : conn.outbound = (n, event) :: rest) :
      Moves s c conn .relay s { conn with outbound := rest, pc := .relaying n event }
  | answer (reply : Reply) (request : ClientFrame) (response : ServerResponse)
      (called : List ProviderCall) (pc : conn.pc = .handling request)
      (unlocked : request.message.locks = false) (plain : response.plain = true)
      (notDetach : ∀ id, request.message ≠ .detachRun id) :
      Moves s c conn (.handle reply) { s with called } (conn.answer request response)
  | acknowledge (request : ClientFrame) (id : RunId) (through : Nat) (store : Store)
      (pc : conn.pc = .handling request) (message : request.message = .ackEvents id through)
      (lock : s.registry.lock = .free)
      (acked : s.registry.store.acknowledge id through = .ok store) :
      Moves s c conn (.handle .nothing) (s.withStore store) (conn.answer request .accepted)
  | lock (request : ClientFrame) (pc : conn.pc = .handling request)
      (locks : request.message.locks = true) (free : s.holder = none) :
      Moves s c conn (.handle .nothing) { s with holder := some c }
        { conn with pc := .locked request }
  | attach (request : ClientFrame) (id : RunId) (after : Nat) (attachment : Attachment)
      (store : Store) (pc : conn.pc = .handling request)
      (message : request.message = .attachRun id after) (lock : s.registry.lock = .free)
      (ok : s.registry.store.attach id after = .ok (attachment, store)) :
      Moves s c conn (.handle .nothing) (s.withStore store)
        { conn with
          pc := .answering request (.run attachment.snapshot) (.replay id after attachment) false }
  | detach (request : ClientFrame) (id : RunId) (pc : conn.pc = .handling request)
      (message : request.message = .detachRun id) :
      Moves s c conn (.handle .nothing) s ((conn.abort id).answer request .accepted)
  | cancel (request : ClientFrame) (id : RunId) (key : String) (k : Nat) (registry : Registry)
      (pc : conn.pc = .handling request) (message : request.message = .cancelRun id key)
      (call : s.registry.cancelCall k id = some registry) :
      Moves s c conn (.handle (.call k)) { s with registry }
        { conn with pc := .cancelling request k }
  | refuse (k : Nat) (request : ClientFrame) (message : String) (pc : conn.pc = .locked request) :
      Moves s c conn (.check k) s
        { conn with pc := .answering request (.error .conflict message) .loop true }
  | idle (k : Nat) (request : ClientFrame) (pc : conn.pc = .locked request)
      (message : request.message = .shutdownIfIdle) (none : s.registry.active = 0) :
      Moves s c conn (.check k) { s with stopping := true }
        { conn with pc := .answering request .accepted .setShutdown true }
  | stop (k : Nat) (request : ClientFrame) (mode : ShutdownMode) (pc : conn.pc = .locked request)
      (message : request.message = .shutdown mode) (running : s.stopping = false) :
      Moves s c conn (.check k) { s with stopping := true }
        { conn with pc := .answering request .accepted (.drain mode) true }
  | launch (k : Nat) (request : ClientFrame) (id : RunId) (spec : RunRequest) (key : String)
      (registry : Registry) (pc : conn.pc = .locked request)
      (message : request.message = .startRun id spec key) (running : s.stopping = false)
      (call : s.registry.startCall k id spec = some registry) :
      Moves s c conn (.check k) { s with registry } { conn with pc := .starting request k }
  | started (request : ClientFrame) (k : Nat) (id : RunId) (result : Except RuntimeError Unit)
      (pc : conn.pc = .starting request k)
      (call : s.registry.starts[k]? = some (.returned id result)) :
      Moves s c conn .started s
        { conn with pc := .answering request (accepted result) .loop true }
  | canceled (request : ClientFrame) (k : Nat) (id : RunId) (result : Except RuntimeError Unit)
      (pc : conn.pc = .cancelling request k)
      (call : s.registry.cancels[k]? = some (.returned id result)) :
      Moves s c conn .canceled s (conn.answer request (accepted result))
  | wrote (request : ClientFrame) (response : ServerResponse) (next : Next) (locked : Bool)
      (pc : conn.pc = .answering request response next locked) :
      Moves s c conn (.write true)
        (proceed s c { conn with written := conn.written ++ [.response request response] }
          locked next).1
        (proceed s c { conn with written := conn.written ++ [.response request response] }
          locked next).2
  | unanswered (request : ClientFrame) (response : ServerResponse) (next : Next) (locked : Bool)
      (store : Store) (pc : conn.pc = .answering request response next locked)
      (dropped : store = s.registry.store ∨
        ∃ id after attachment, next = .replay id after attachment ∧
          store = s.registry.store.dropReceiver id) :
      Moves s c conn (.write false) ((s.release locked).withStore store)
        { conn with pc := .returned (.writeFailed (some request)) }
  | relayed (n : Nat) (event : SequencedEvent) (pc : conn.pc = .relaying n event) :
      Moves s c conn (.write true) s
        { conn with written := conn.written ++ [.live n event], pc := .selecting }
  | unrelayed (n : Nat) (event : SequencedEvent) (pc : conn.pc = .relaying n event) :
      Moves s c conn (.write false) s { conn with pc := .returned (.writeFailed none) }
  | replayed (n : Nat) (id : RunId) (event : SequencedEvent) (rest : List SequencedEvent)
      (forwarder : Forwarder) (pc : conn.pc = .replaying n id (event :: rest) forwarder) :
      Moves s c conn (.write true) s
        { conn with
          written := conn.written ++ [.replayed n event], pc := .replaying n id rest forwarder }
  | unreplayed (n : Nat) (id : RunId) (event : SequencedEvent) (rest : List SequencedEvent)
      (forwarder : Forwarder) (pc : conn.pc = .replaying n id (event :: rest) forwarder) :
      Moves s c conn (.write false) (s.withStore (s.registry.store.dropReceiver id))
        { conn with pc := .returned (.writeFailed none) }
  | spawn (n : Nat) (id : RunId) (forwarder : Forwarder)
      (pc : conn.pc = .replaying n id [] forwarder) :
      Moves s c conn .spawn s
        { conn.abort id with
          attachments := (conn.abort id).attachments.insert id n
          forwards := (conn.abort id).forwards.insert n ⟨id, forwarder, false, false⟩
          pc := .selecting }
  | setShutdown (pc : conn.pc = .stopping) :
      Moves s c conn .setShutdown { s with shutdown := true, holder := none }
        { conn with pc := .returned .ok }
  | wake (n : Nat) (task : Forward) (found : conn.forwards[n]? = some task)
      (notAborted : task.aborted = false) :
      Moves s c conn (.wake n) s
        { conn with forwards := conn.forwards.insert n { task with polling := true } }
  | forward (n : Nat) (task : Forward) (stepped : Forwarder.Stepped)
      (found : conn.forwards[n]? = some task) (polled : task.polling = true)
      (lock : s.registry.lock = .free ∨ task.forwarder.phase ≠ .lagged)
      (ok : unixForward s.registry.store task.id task.forwarder
        (forwardAct task.forwarder conn.isOpen) = some stepped) :
      Moves s c conn (.forward n) (s.withStore stepped.store)
        { conn with
          forwards := conn.forwards.insert n { task with forwarder := stepped.forwarder }
          outbound :=
            if conn.isOpen then conn.outbound ++ (stepped.handed.map (n, ·)).toList
            else conn.outbound }
  | suspend (n : Nat) (task : Forward) (found : conn.forwards[n]? = some task)
      (polled : task.polling = true) :
      Moves s c conn (.suspend n) s
        { conn with forwards := conn.forwards.insert n { task with polling := false } }
  | reap (n : Nat) (task : Forward) (found : conn.forwards[n]? = some task)
      (aborted : task.aborted = true) (suspended : task.polling = false) :
      Moves s c conn (.reap n)
        (s.withStore (Forwarder.close s.registry.store task.id task.forwarder).store)
        { conn with
          forwards := conn.forwards.insert n { task with
            forwarder := (Forwarder.close s.registry.store task.id task.forwarder).forwarder } }

variable {s s' : Shared} {c : Nat} {conn conn' : Conn}

theorem receive_moves {incoming : Incoming} (h : conn.receive incoming = some conn') :
    Moves s c conn (.receive incoming) s conn' := by
  unfold receive at h
  split at h
  · rename_i hpc
    split at h <;> cases h
    · exact .first _ hpc
    · exact .hangUp hpc
    · exact .undecodable (.inl hpc)
    · exact .unreadable (.inl hpc)
  · rename_i hpc
    split at h
    · rename_i hq
      have hq : conn.outbound = [] := List.isEmpty_iff.1 hq
      split at h <;> cases h
      · exact .request _ hpc hq
      · exact .close hpc hq
      · exact .undecodable (.inr hpc)
      · exact .unreadable (.inr hpc)
    · cases h
  · cases h

theorem relay_moves (h : conn.relay = some conn') : Moves s c conn .relay s conn' := by
  unfold relay at h
  split at h
  · rename_i n event rest hpc hq
    cases h
    exact .relay n event rest hpc hq
  · cases h

theorem accepted_plain (result : Except RuntimeError Unit) : (accepted result).plain = true := by
  cases result <;> rfl

theorem control_moves {request : ClientFrame} {id : RunId} {call : ProviderCall} {reply : Reply}
    (hpc : conn.pc = .handling request) (hl : request.message.locks = false)
    (hd : ∀ id, request.message ≠ .detachRun id)
    (h : control s conn request id call reply = some (s', conn')) :
    Moves s c conn (.handle reply) s' conn' := by
  unfold control at h
  split at h
  · split at h
    · split at h
      · cases h; exact .answer _ request _ _ hpc hl (accepted_plain _) hd
      · cases h; exact .answer _ request _ s.called hpc hl rfl hd
    · cases h
  · cases h

theorem handle_moves {reply : Reply} (h : conn.handle s c reply = some (s', conn')) :
    Moves s c conn (.handle reply) s' conn' := by
  unfold handle at h
  split at h
  · rename_i request hpc
    split at h
    · rename_i hm
      split at h
      · cases h
        exact .answer _ request _ s.called hpc (by rw [hm]; rfl) rfl (by simp [hm])
      · cases h
    · rename_i hm
      cases h
      exact .answer _ request _ s.called hpc (by rw [hm]; rfl) rfl (by simp [hm])
    · rename_i hm
      cases h
      exact .answer _ request _ s.called hpc (by rw [hm]; rfl) rfl (by simp [hm])
    · rename_i hm
      split at h
      · rename_i hf; cases h; exact .lock request hpc (by rw [hm]; rfl) hf
      · cases h
    · rename_i hm
      split at h
      · rename_i hf; cases h; exact .lock request hpc (by rw [hm]; rfl) hf
      · cases h
    · rename_i hm
      split at h
      · rename_i hf; cases h; exact .lock request hpc (by rw [hm]; rfl) hf
      · cases h
    · rename_i id after hm
      split at h
      · rename_i hl
        split at h
        · rename_i attachment store ha
          cases h
          exact .attach request id after attachment store hpc hm hl ha
        · cases h
          exact .answer _ request _ s.called hpc (by rw [hm]; rfl) rfl (by simp [hm])
      · cases h
    · rename_i id hm
      cases h
      exact .detach request id hpc hm
    · rename_i id body key reply hm
      exact control_moves hpc (by rw [hm]; rfl) (by simp [hm]) h
    · rename_i id key k hm
      obtain ⟨registry, hc, he⟩ := Option.map_eq_some_iff.1 h
      cases he
      exact .cancel request id key k registry hpc hm hc
    · rename_i provider sessionId binary key result hm
      split at h
      · cases h
        exact .answer _ request _ s.called hpc (by rw [hm]; rfl) rfl (by simp [hm])
      · cases h
        refine .answer _ request _ _ hpc (by rw [hm]; rfl) ?_ (by simp [hm])
        cases result <;> rfl
    · rename_i id approvalId decision key reply hm
      exact control_moves hpc (by rw [hm]; rfl) (by simp [hm]) h
    · rename_i id through hm
      split at h
      · rename_i hl
        split at h
        · rename_i store ha
          cases h
          exact .acknowledge request id through store hpc hm hl ha
        · cases h
          exact .answer _ request _ s.called hpc (by rw [hm]; rfl) rfl (by simp [hm])
      · cases h
    · rename_i hm
      cases h
      exact .answer _ request _ s.called hpc (by rw [hm]; rfl) rfl (by simp [hm])
    · cases h
  · cases h

theorem check_moves {k : Nat} (h : conn.check s k = some (s', conn')) :
    Moves s c conn (.check k) s' conn' := by
  unfold check at h
  split at h
  · rename_i request hpc
    dsimp only at h
    split at h
    · rename_i hm
      split at h
      · cases h; exact .refuse k request _ hpc
      · cases h; exact .idle k request hpc hm (by omega)
    · rename_i mode hm
      split at h
      · cases h; exact .refuse k request _ hpc
      · rename_i hs; cases h; exact .stop k request mode hpc hm (by simpa using hs)
    · rename_i id spec key hm
      split at h
      · cases h; exact .refuse k request _ hpc
      · rename_i hs
        obtain ⟨registry, hc, he⟩ := Option.map_eq_some_iff.1 h
        cases he
        exact .launch k request id spec key registry hpc hm (by simpa using hs) hc
    · cases h
  · cases h

theorem started_moves (h : conn.started s = some (s', conn')) :
    Moves s c conn .started s' conn' := by
  unfold started at h
  split at h
  · rename_i request k hpc
    split at h
    · rename_i id result hc; cases h; exact .started request k id result hpc hc
    · cases h
  · cases h

theorem canceled_moves (h : conn.canceled s = some (s', conn')) :
    Moves s c conn .canceled s' conn' := by
  unfold canceled at h
  split at h
  · rename_i request k hpc
    split at h
    · rename_i id result hc; cases h; exact .canceled request k id result hpc hc
    · cases h
  · cases h

theorem write_moves {succeeds : Bool} (h : conn.write s c succeeds = some (s', conn')) :
    Moves s c conn (.write succeeds) s' conn' := by
  have hrel : ∀ locked, (s.release locked).registry = s.registry := fun locked => by
    unfold Shared.release; split <;> rfl
  unfold write at h
  cases succeeds with
  | true =>
    simp only [↓reduceIte] at h
    split at h
    · rename_i request response next locked hpc
      have h := Option.some.inj h
      obtain rfl : _ = s' := congrArg Prod.fst h
      obtain rfl : _ = conn' := congrArg Prod.snd h
      exact .wrote request response next locked hpc
    · rename_i n event hpc; cases h; exact .relayed n event hpc
    · rename_i n id event rest forwarder hpc
      cases h
      exact .replayed n id event rest forwarder hpc
    · cases h
  | false =>
    simp only [Bool.false_eq_true, ↓reduceIte] at h
    split at h
    · rename_i request response next locked hpc
      cases h
      cases next with
      | replay id after attachment =>
        exact .unanswered request response _ locked _ hpc
          (.inr ⟨id, after, attachment, rfl, by rw [hrel]⟩)
      | _ =>
        have hs : s.release locked = (s.release locked).withStore s.registry.store := by
          rw [← hrel locked]; rfl
        dsimp only
        rw [hs]
        exact .unanswered request response _ locked _ hpc (.inl rfl)
    · rename_i n event hpc; cases h; exact .unrelayed n event hpc
    · rename_i n id event rest forwarder hpc
      cases h
      exact .unreplayed n id event rest forwarder hpc
    · cases h

theorem spawn_moves (h : conn.spawn = some conn') : Moves s c conn .spawn s conn' := by
  unfold spawn at h
  split at h
  · rename_i n id forwarder hpc; cases h; exact .spawn n id forwarder hpc
  · cases h

theorem setShutdown_moves (h : conn.setShutdown s = some (s', conn')) :
    Moves s c conn .setShutdown s' conn' := by
  unfold setShutdown at h
  split at h
  · rename_i hpc; cases h; exact .setShutdown hpc
  · cases h

theorem wake_moves {n : Nat} (h : conn.wake n = some conn') :
    Moves s c conn (.wake n) s conn' := by
  unfold wake at h
  split at h
  · rename_i task hf
    split at h
    · cases h
    · rename_i hg
      cases h
      exact .wake n task hf (by simp at hg; exact hg.1)
  · cases h

theorem forward_moves {n : Nat} (h : conn.forward s n = some (s', conn')) :
    Moves s c conn (.forward n) s' conn' := by
  unfold forward at h
  split at h
  · rename_i task hf
    split at h
    · rename_i hg
      simp only [Bool.and_eq_true, Bool.or_eq_true, decide_eq_true_eq, Bool.not_eq_true'] at hg
      split at h
      · rename_i stepped hs
        cases h
        refine .forward n task stepped hf hg.1 ?_ hs
        rcases hg.2 with hl | hp
        · exact .inl hl
        · exact .inr fun he => by simp [Forward.reattaches, he] at hp
      · cases h
    · cases h
  · cases h

theorem suspend_moves {n : Nat} (h : conn.suspend s n = some conn') :
    Moves s c conn (.suspend n) s conn' := by
  unfold suspend at h
  split at h
  · rename_i task hf
    split at h
    · rename_i hg
      cases h
      exact .suspend n task hf (Bool.and_eq_true_iff.1 hg).1
    · cases h
  · cases h

theorem reap_moves {n : Nat} (h : conn.reap s n = some (s', conn')) :
    Moves s c conn (.reap n) s' conn' := by
  unfold reap at h
  split at h
  · rename_i task hf
    split at h
    · rename_i hg
      cases h
      have hg := Bool.and_eq_true_iff.1 hg
      exact .reap n task hf hg.1 (by simpa using hg.2)
    · cases h
  · cases h

theorem step_moves {a : Act} (h : conn.step s c a = some (s', conn')) :
    Moves s c conn a s' conn' := by
  cases a with
  | receive incoming =>
    obtain ⟨_, h, he⟩ := Option.map_eq_some_iff.1 h; cases he; exact receive_moves h
  | relay => obtain ⟨_, h, he⟩ := Option.map_eq_some_iff.1 h; cases he; exact relay_moves h
  | handle reply => exact handle_moves h
  | check k => exact check_moves h
  | started => exact started_moves h
  | canceled => exact canceled_moves h
  | write succeeds => exact write_moves h
  | spawn => obtain ⟨_, h, he⟩ := Option.map_eq_some_iff.1 h; cases he; exact spawn_moves h
  | setShutdown => exact setShutdown_moves h
  | wake n => obtain ⟨_, h, he⟩ := Option.map_eq_some_iff.1 h; cases he; exact wake_moves h
  | forward n => exact forward_moves h
  | suspend n => obtain ⟨_, h, he⟩ := Option.map_eq_some_iff.1 h; cases he; exact suspend_moves h
  | reap n => exact reap_moves h

end Conn

end AgencyProxy
