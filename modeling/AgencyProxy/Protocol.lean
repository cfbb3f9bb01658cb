import AgencyProxy.Serde

/-!
# Wire types

The vocabulary of `crates/protocol/src/lib.rs` that the daemon and the client
compute with: versions, run ids, client messages, server frames, run events and
snapshots. Sequence numbers and request ids are `Nat`; where a 64-bit wrap
matters (the client's request ids) the model reduces explicitly.
-/

namespace AgencyProxy

export Serde (Value)

structure ProtocolVersion where
  major : Nat
  minor : Nat
  deriving DecidableEq, Repr

def protocolVersion : ProtocolVersion := ⟨0, 4⟩

def maxFrameBytes : Nat := 1024 * 1024

def ProtocolVersion.negotiate (self peer : ProtocolVersion) : Option ProtocolVersion :=
  if self.major ≠ peer.major then none
  else some ⟨self.major, if self.minor < peer.minor then self.minor else peer.minor⟩

structure RunId where
  id : String
  deriving DecidableEq, Repr

instance : Ord RunId := ⟨compareOn RunId.id⟩

instance : Std.TransOrd RunId := inferInstanceAs (Std.TransCmp (compareOn RunId.id))

instance : Std.LawfulEqOrd RunId where
  eq_of_compare {a b} h := by
    have : a.id = b.id := Std.LawfulEqOrd.eq_of_compare h
    cases a; cases b; cases this; rfl

inductive ShutdownMode where
  | drain
  | terminate
  deriving DecidableEq, Repr

inductive ApprovalDecision where
  | allowOnce
  | allowSimilar
  | deny
  deriving DecidableEq, Repr

structure RunRequest where
  provider : String
  model : String
  prompt : String
  isCommand : Bool
  system : Option String
  permission : String
  effort : Option String
  extraThinking : Option Bool
  approvals : Bool
  interactive : Bool
  workspaceRoots : List String
  resumeSessionId : Option String
  binary : Option String
  environment : List (String × String)
  uncheckedArgs : List String
  metadata : List (String × Value)

inductive ClientMessage where
  | hello (clientName : String) (version : ProtocolVersion)
  | listRuns
  | probeProviders
  | readAccountUsage
  | shutdownIfIdle
  | shutdown (mode : ShutdownMode)
  | startRun (runId : RunId) (request : RunRequest) (idempotencyKey : String)
  | attachRun (runId : RunId) (afterSequence : Nat)
  | detachRun (runId : RunId)
  | injectMessage (runId : RunId) (body : String) (idempotencyKey : String)
  | cancelRun (runId : RunId) (idempotencyKey : String)
  | interruptSession (provider sessionId : String) (binary : Option String)
      (idempotencyKey : String)
  | decideApproval (runId : RunId) (approvalId : String) (decision : ApprovalDecision)
      (idempotencyKey : String)
  | ackEvents (runId : RunId) (throughSequence : Nat)

structure ClientFrame where
  requestId : Nat
  message : ClientMessage

inductive Capability where
  | eventReplay
  | liveInjection
  | approvals
  | cancellation
  | sessionInterruption
  | providerDetection
  | lifecycleControl
  deriving DecidableEq, Repr

structure ProviderStatus where
  provider : String
  installed : Bool
  version : Option String
  outdated : Bool
  authState : String
  detail : String
  authMethod : Option String
  account : Option String
  plan : Option String
  loginHint : String

structure ProviderAccountUsage where
  provider : String
  supported : Bool
  usage : Option Value
  error : Option String

inductive ErrorCode where
  | incompatibleVersion
  | protocolViolation
  | notFound
  | notImplemented
  | conflict
  | internal
  deriving DecidableEq, Repr

inductive RunState where
  | starting
  | running
  | waitingApproval
  | finishing
  | completed
  | failed
  | canceled
  | interrupted
  deriving DecidableEq, Repr

structure RunSnapshot where
  runId : RunId
  state : RunState
  provider : String
  model : String
  providerSessionId : Option String
  latestSequence : Nat
  acknowledgedSequence : Nat
  workspaceRoots : List String
  metadata : List (String × Value)

inductive RunEvent where
  | finished (outcome : Value)
  | failed (error : String)
  | stateChanged (state : RunState)
  | sessionOpened (providerSessionId : String) (model : Option String)
  | reasoning (text : String)
  | text (text : String)
  | messageBoundary
  | toolCall (id : Option String) (name : String) (input : Value)
  | toolResult (id : Option String) (ok : Option Bool) (output : String)
  | approvalRequested (approvalId title : String) (detail : Value)
  | usage (value : Value)
  | rateLimit (value : Value)
  | compaction (value : Value)
  | commands (value : Value)
  | error (message : String)

inductive ServerResponse where
  | hello (serverName : String) (version : ProtocolVersion) (capabilities : List Capability)
  | runs (runs : List RunSnapshot)
  | providers (providers : List ProviderStatus)
  | accountUsage (providers : List ProviderAccountUsage)
  | run (run : RunSnapshot)
  | accepted
  | sessionInterrupted (interrupted : Bool)
  | error (code : ErrorCode) (message : String)

inductive ServerFrame where
  | response (requestId : Nat) (response : ServerResponse)
  | event (runId : RunId) (sequence : Nat) (event : RunEvent)

theorem ProtocolVersion.negotiate_eq_some {self peer v : ProtocolVersion}
    (h : self.negotiate peer = some v) :
    peer.major = self.major ∧ v.major = self.major ∧ v.minor = min self.minor peer.minor := by
  unfold negotiate at h
  split at h
  · cases h
  · rename_i hm
    cases h
    refine ⟨(Decidable.not_not.1 hm).symm, rfl, ?_⟩
    simp only [Nat.min_def]
    split <;> split <;> omega

end AgencyProxy
