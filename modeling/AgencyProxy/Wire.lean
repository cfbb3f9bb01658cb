import AgencyProxy.Protocol

/-!
# The wire format

How each type of `crates/protocol/src/lib.rs` is written as JSON and read back: the `Serialize`
and `Deserialize` that its attributes derive. The fields of structs are camelCase, those of enum
variants keep their names, and variants are snake_case. The message of a client frame and the
response of a server frame are flattened into the members of their frame, so a frame is read
back only if the fields of each variant are under other keys than its tag and the frame's own.

`Valid` collects what the types of the source ensure and those of the model do not: integers
are 64 or 16 bits wide, and maps have their entries in key order.
-/

namespace AgencyProxy

open Serde

/-! ## Structs -/

namespace ProtocolVersion

structure Valid (version : ProtocolVersion) : Prop where
  major : version.major < 2 ^ 16
  minor : version.minor < 2 ^ 16

def fields (version : ProtocolVersion) : Members :=
  [("major", writeUInt version.major), ("minor", writeUInt version.minor)]

def serialize (version : ProtocolVersion) : Value := .object version.fields

def deserialize : Reader ProtocolVersion := readStruct fun ms => do
  return {
    major := ← required ms "major" (readUInt 16)
    minor := ← required ms "minor" (readUInt 16) }

theorem fields_distinct (version : ProtocolVersion) : Distinct version.fields := by
  simp [Distinct, fields]

theorem deserialize_serialize {version : ProtocolVersion} (h : version.Valid) :
    deserialize version.serialize = some version := by
  unfold deserialize serialize
  rw [readStruct_object]
  simp only [required, field_eq_lookup version.fields_distinct]
  simp [fields, List.lookup_cons, readUInt_write h.major, readUInt_write h.minor]

end ProtocolVersion

namespace RunId

def serialize (id : RunId) : Value := .string id.id

def deserialize : Reader RunId := fun v => (readString v).map RunId.mk

@[simp] theorem deserialize_serialize (id : RunId) : deserialize id.serialize = some id := rfl

end RunId

namespace RunRequest

structure Valid (request : RunRequest) : Prop where
  environment : InKeyOrder request.environment
  metadata : InKeyOrder request.metadata
  values : ∀ entry ∈ request.metadata, entry.2.Ordered

def fields (request : RunRequest) : Members := [
  ("provider", .string request.provider),
  ("model", .string request.model),
  ("prompt", .string request.prompt),
  ("isCommand", .bool request.isCommand),
  ("system", writeOption .string request.system),
  ("permission", .string request.permission),
  ("effort", writeOption .string request.effort),
  ("extraThinking", writeOption .bool request.extraThinking),
  ("approvals", .bool request.approvals),
  ("interactive", .bool request.interactive),
  ("workspaceRoots", writeList .string request.workspaceRoots),
  ("resumeSessionId", writeOption .string request.resumeSessionId),
  ("binary", writeOption .string request.binary),
  ("environment", writeMap .string request.environment),
  ("uncheckedArgs", writeList .string request.uncheckedArgs),
  ("metadata", writeMap id request.metadata)]

def serialize (request : RunRequest) : Value := .object request.fields

def deserialize : Reader RunRequest := readStruct fun ms => do
  return {
    provider := ← required ms "provider" readString
    model := ← required ms "model" readString
    prompt := ← required ms "prompt" readString
    isCommand := ← defaulted ms "isCommand" readBool false
    system := ← nullable ms "system" readString
    permission := ← required ms "permission" readString
    effort := ← nullable ms "effort" readString
    extraThinking := ← nullable ms "extraThinking" readBool
    approvals := ← required ms "approvals" readBool
    interactive := ← required ms "interactive" readBool
    workspaceRoots := ← required ms "workspaceRoots" (readList readString)
    resumeSessionId := ← nullable ms "resumeSessionId" readString
    binary := ← nullable ms "binary" readString
    environment := ← defaulted ms "environment" (readMap readString) []
    uncheckedArgs := ← defaulted ms "uncheckedArgs" (readList readString) []
    metadata := ← defaulted ms "metadata" (readMap readValue) [] }

theorem fields_distinct (request : RunRequest) : Distinct request.fields := by
  simp [Distinct, fields]

theorem deserialize_serialize {request : RunRequest} (h : request.Valid) :
    deserialize request.serialize = some request := by
  have henv : readMap readString (writeMap .string request.environment) =
      some request.environment := readMap_write h.environment fun _ _ => rfl
  have hmeta : readMap readValue (writeMap id request.metadata) = some request.metadata :=
    readMap_write h.metadata fun entry he => readValue_of_ordered (h.values entry he)
  unfold deserialize serialize
  rw [readStruct_object]
  simp only [required, nullable, defaulted, field_eq_lookup request.fields_distinct]
  simp [fields, List.lookup_cons, henv, hmeta]

end RunRequest

/-! ## Enums without fields -/

namespace ShutdownMode

def name : ShutdownMode → String
  | .drain => "drain"
  | .terminate => "terminate"

def serialize (mode : ShutdownMode) : Value := .string mode.name

def deserialize : Reader ShutdownMode := readVariant [.drain, .terminate] name

@[simp] theorem deserialize_serialize (mode : ShutdownMode) :
    deserialize mode.serialize = some mode :=
  readVariant_name (by cases mode <;> simp) (by cases mode <;> simp [name])

end ShutdownMode

namespace ApprovalDecision

def name : ApprovalDecision → String
  | .allowOnce => "allow_once"
  | .allowSimilar => "allow_similar"
  | .deny => "deny"

def serialize (decision : ApprovalDecision) : Value := .string decision.name

def deserialize : Reader ApprovalDecision := readVariant [.allowOnce, .allowSimilar, .deny] name

@[simp] theorem deserialize_serialize (decision : ApprovalDecision) :
    deserialize decision.serialize = some decision :=
  readVariant_name (by cases decision <;> simp) (by cases decision <;> simp [name])

end ApprovalDecision

/-! ## Client frames -/

namespace ClientMessage

def Valid : ClientMessage → Prop
  | .hello _ version => version.Valid
  | .startRun _ request _ => request.Valid
  | .attachRun _ afterSequence => afterSequence < 2 ^ 64
  | .ackEvents _ throughSequence => throughSequence < 2 ^ 64
  | _ => True

def variant : ClientMessage → String
  | .hello _ _ => "hello"
  | .listRuns => "list_runs"
  | .probeProviders => "probe_providers"
  | .readAccountUsage => "read_account_usage"
  | .shutdownIfIdle => "shutdown_if_idle"
  | .shutdown _ => "shutdown"
  | .startRun _ _ _ => "start_run"
  | .attachRun _ _ => "attach_run"
  | .detachRun _ => "detach_run"
  | .injectMessage _ _ _ => "inject_message"
  | .cancelRun _ _ => "cancel_run"
  | .interruptSession _ _ _ _ => "interrupt_session"
  | .decideApproval _ _ _ _ => "decide_approval"
  | .ackEvents _ _ => "ack_events"

def fields : ClientMessage → Members
  | .hello clientName version =>
    [("client_name", .string clientName), ("version", version.serialize)]
  | .listRuns | .probeProviders | .readAccountUsage | .shutdownIfIdle => []
  | .shutdown mode => [("mode", mode.serialize)]
  | .startRun runId request idempotencyKey =>
    [("run_id", runId.serialize), ("request", request.serialize),
     ("idempotency_key", .string idempotencyKey)]
  | .attachRun runId afterSequence =>
    [("run_id", runId.serialize), ("after_sequence", writeUInt afterSequence)]
  | .detachRun runId => [("run_id", runId.serialize)]
  | .injectMessage runId body idempotencyKey =>
    [("run_id", runId.serialize), ("body", .string body),
     ("idempotency_key", .string idempotencyKey)]
  | .cancelRun runId idempotencyKey =>
    [("run_id", runId.serialize), ("idempotency_key", .string idempotencyKey)]
  | .interruptSession provider sessionId binary idempotencyKey =>
    [("provider", .string provider), ("session_id", .string sessionId),
     ("binary", writeOption .string binary), ("idempotency_key", .string idempotencyKey)]
  | .decideApproval runId approvalId decision idempotencyKey =>
    [("run_id", runId.serialize), ("approval_id", .string approvalId),
     ("decision", decision.serialize), ("idempotency_key", .string idempotencyKey)]
  | .ackEvents runId throughSequence =>
    [("run_id", runId.serialize), ("through_sequence", writeUInt throughSequence)]

def read (variant : String) (ms : Members) : Option ClientMessage := do
  match variant with
  | "hello" =>
    return .hello (← required ms "client_name" readString)
      (← required ms "version" ProtocolVersion.deserialize)
  | "list_runs" => return .listRuns
  | "probe_providers" => return .probeProviders
  | "read_account_usage" => return .readAccountUsage
  | "shutdown_if_idle" => return .shutdownIfIdle
  | "shutdown" => return .shutdown (← required ms "mode" ShutdownMode.deserialize)
  | "start_run" =>
    return .startRun (← required ms "run_id" RunId.deserialize)
      (← required ms "request" RunRequest.deserialize)
      (← required ms "idempotency_key" readString)
  | "attach_run" =>
    return .attachRun (← required ms "run_id" RunId.deserialize)
      (← required ms "after_sequence" (readUInt 64))
  | "detach_run" => return .detachRun (← required ms "run_id" RunId.deserialize)
  | "inject_message" =>
    return .injectMessage (← required ms "run_id" RunId.deserialize)
      (← required ms "body" readString) (← required ms "idempotency_key" readString)
  | "cancel_run" =>
    return .cancelRun (← required ms "run_id" RunId.deserialize)
      (← required ms "idempotency_key" readString)
  | "interrupt_session" =>
    return .interruptSession (← required ms "provider" readString)
      (← required ms "session_id" readString) (← nullable ms "binary" readString)
      (← required ms "idempotency_key" readString)
  | "decide_approval" =>
    return .decideApproval (← required ms "run_id" RunId.deserialize)
      (← required ms "approval_id" readString)
      (← required ms "decision" ApprovalDecision.deserialize)
      (← required ms "idempotency_key" readString)
  | "ack_events" =>
    return .ackEvents (← required ms "run_id" RunId.deserialize)
      (← required ms "through_sequence" (readUInt 64))
  | _ => none

theorem fields_distinct (message : ClientMessage) : Distinct message.fields := by
  cases message <;> simp [Distinct, fields]

/-- No field is under the tag or the key of the request id. -/
theorem fields_fresh (message : ClientMessage) :
    "type" ∉ message.fields.map Prod.fst ∧ "requestId" ∉ message.fields.map Prod.fst := by
  cases message <;> simp [fields]

theorem read_fields {message : ClientMessage} (h : message.Valid) :
    read message.variant message.fields = some message := by
  have hd := message.fields_distinct
  cases message <;> simp only [variant, read, required, nullable, field_eq_lookup hd]
  case hello clientName version =>
    simp [fields, List.lookup_cons, ProtocolVersion.deserialize_serialize h]
  case startRun runId request idempotencyKey =>
    simp [fields, List.lookup_cons, RunRequest.deserialize_serialize h]
  case attachRun runId afterSequence => simp [fields, List.lookup_cons, readUInt_write h]
  case ackEvents runId throughSequence => simp [fields, List.lookup_cons, readUInt_write h]
  all_goals simp [fields, List.lookup_cons]

end ClientMessage

namespace ClientFrame

structure Valid (frame : ClientFrame) : Prop where
  requestId : frame.requestId < 2 ^ 64
  message : frame.message.Valid

def serialize (frame : ClientFrame) : Value :=
  .object (("requestId", writeUInt frame.requestId) ::
    ("type", .string frame.message.variant) :: frame.message.fields)

def deserialize : Reader ClientFrame := readStruct fun ms => do
  return {
    requestId := ← required ms "requestId" (readUInt 64)
    message := ← tagged "type" ClientMessage.read (without "requestId" ms) }

theorem deserialize_serialize {frame : ClientFrame} (h : frame.Valid) :
    deserialize frame.serialize = some frame := by
  obtain ⟨htype, hid⟩ := frame.message.fields_fresh
  have hid' : "requestId" ∉ (("type", .string frame.message.variant) ::
      frame.message.fields : Members).map Prod.fst := by
    rw [List.map_cons, List.mem_cons, not_or]
    exact ⟨by simp, hid⟩
  unfold deserialize serialize
  rw [readStruct_object, required, field_head hid', readUInt_write h.requestId,
    without_head hid', tagged_head htype, ClientMessage.read_fields h.message]
  rfl

end ClientFrame

/-! ## Server frames -/

namespace Capability

def name : Capability → String
  | .eventReplay => "event_replay"
  | .liveInjection => "live_injection"
  | .approvals => "approvals"
  | .cancellation => "cancellation"
  | .sessionInterruption => "session_interruption"
  | .providerDetection => "provider_detection"
  | .lifecycleControl => "lifecycle_control"

def serialize (capability : Capability) : Value := .string capability.name

def deserialize : Reader Capability :=
  readVariant [.eventReplay, .liveInjection, .approvals, .cancellation, .sessionInterruption,
    .providerDetection, .lifecycleControl] name

@[simp] theorem deserialize_serialize (capability : Capability) :
    deserialize capability.serialize = some capability :=
  readVariant_name (by cases capability <;> simp) (by cases capability <;> simp [name])

end Capability

namespace ErrorCode

def name : ErrorCode → String
  | .incompatibleVersion => "incompatible_version"
  | .protocolViolation => "protocol_violation"
  | .notFound => "not_found"
  | .notImplemented => "not_implemented"
  | .conflict => "conflict"
  | .internal => "internal"

def serialize (code : ErrorCode) : Value := .string code.name

def deserialize : Reader ErrorCode :=
  readVariant [.incompatibleVersion, .protocolViolation, .notFound, .notImplemented, .conflict,
    .internal] name

@[simp] theorem deserialize_serialize (code : ErrorCode) :
    deserialize code.serialize = some code :=
  readVariant_name (by cases code <;> simp) (by cases code <;> simp [name])

end ErrorCode

namespace RunState

def name : RunState → String
  | .starting => "starting"
  | .running => "running"
  | .waitingApproval => "waiting_approval"
  | .finishing => "finishing"
  | .completed => "completed"
  | .failed => "failed"
  | .canceled => "canceled"
  | .interrupted => "interrupted"

def serialize (state : RunState) : Value := .string state.name

def deserialize : Reader RunState :=
  readVariant [.starting, .running, .waitingApproval, .finishing, .completed, .failed, .canceled,
    .interrupted] name

@[simp] theorem deserialize_serialize (state : RunState) :
    deserialize state.serialize = some state :=
  readVariant_name (by cases state <;> simp) (by cases state <;> simp [name])

end RunState

namespace ProviderStatus

def fields (status : ProviderStatus) : Members := [
  ("provider", .string status.provider),
  ("installed", .bool status.installed),
  ("version", writeOption .string status.version),
  ("outdated", .bool status.outdated),
  ("authState", .string status.authState),
  ("detail", .string status.detail),
  ("authMethod", writeOption .string status.authMethod),
  ("account", writeOption .string status.account),
  ("plan", writeOption .string status.plan),
  ("loginHint", .string status.loginHint)]

def serialize (status : ProviderStatus) : Value := .object status.fields

def deserialize : Reader ProviderStatus := readStruct fun ms => do
  return {
    provider := ← required ms "provider" readString
    installed := ← required ms "installed" readBool
    version := ← nullable ms "version" readString
    outdated := ← required ms "outdated" readBool
    authState := ← required ms "authState" readString
    detail := ← required ms "detail" readString
    authMethod := ← nullable ms "authMethod" readString
    account := ← nullable ms "account" readString
    plan := ← nullable ms "plan" readString
    loginHint := ← required ms "loginHint" readString }

theorem fields_distinct (status : ProviderStatus) : Distinct status.fields := by
  simp [Distinct, fields]

@[simp] theorem deserialize_serialize (status : ProviderStatus) :
    deserialize status.serialize = some status := by
  unfold deserialize serialize
  rw [readStruct_object]
  simp only [required, nullable, field_eq_lookup status.fields_distinct]
  simp [fields, List.lookup_cons]

end ProviderStatus

namespace ProviderAccountUsage

/-- `account_usage` builds `usage` from a struct: it is never `Some(Value::Null)`. -/
structure Valid (account : ProviderAccountUsage) : Prop where
  ordered : ∀ usage, account.usage = some usage → usage.Ordered
  present : ∀ usage, account.usage = some usage → usage ≠ .null

def fields (account : ProviderAccountUsage) : Members := [
  ("provider", .string account.provider),
  ("supported", .bool account.supported),
  ("usage", writeOption id account.usage),
  ("error", writeOption .string account.error)]

def serialize (account : ProviderAccountUsage) : Value := .object account.fields

def deserialize : Reader ProviderAccountUsage := readStruct fun ms => do
  return {
    provider := ← required ms "provider" readString
    supported := ← required ms "supported" readBool
    usage := ← nullable ms "usage" readValue
    error := ← nullable ms "error" readString }

theorem fields_distinct (account : ProviderAccountUsage) : Distinct account.fields := by
  simp [Distinct, fields]

theorem deserialize_serialize {account : ProviderAccountUsage} (h : account.Valid) :
    deserialize account.serialize = some account := by
  have husage : readOption readValue (writeOption id account.usage) = some account.usage :=
    readOption_write (fun usage hu => readValue_of_ordered (h.ordered usage hu)) h.present
  unfold deserialize serialize
  rw [readStruct_object]
  simp only [required, nullable, field_eq_lookup account.fields_distinct]
  simp [fields, List.lookup_cons, husage]

end ProviderAccountUsage

namespace RunSnapshot

structure Valid (snapshot : RunSnapshot) : Prop where
  latest : snapshot.latestSequence < 2 ^ 64
  acknowledged : snapshot.acknowledgedSequence < 2 ^ 64
  metadata : InKeyOrder snapshot.metadata
  values : ∀ entry ∈ snapshot.metadata, entry.2.Ordered

def fields (snapshot : RunSnapshot) : Members := [
  ("runId", snapshot.runId.serialize),
  ("state", snapshot.state.serialize),
  ("provider", .string snapshot.provider),
  ("model", .string snapshot.model),
  ("providerSessionId", writeOption .string snapshot.providerSessionId),
  ("latestSequence", writeUInt snapshot.latestSequence),
  ("acknowledgedSequence", writeUInt snapshot.acknowledgedSequence),
  ("workspaceRoots", writeList .string snapshot.workspaceRoots),
  ("metadata", writeMap id snapshot.metadata)]

def serialize (snapshot : RunSnapshot) : Value := .object snapshot.fields

def deserialize : Reader RunSnapshot := readStruct fun ms => do
  return {
    runId := ← required ms "runId" RunId.deserialize
    state := ← required ms "state" RunState.deserialize
    provider := ← required ms "provider" readString
    model := ← required ms "model" readString
    providerSessionId := ← nullable ms "providerSessionId" readString
    latestSequence := ← required ms "latestSequence" (readUInt 64)
    acknowledgedSequence := ← required ms "acknowledgedSequence" (readUInt 64)
    workspaceRoots := ← required ms "workspaceRoots" (readList readString)
    metadata := ← defaulted ms "metadata" (readMap readValue) [] }

theorem fields_distinct (snapshot : RunSnapshot) : Distinct snapshot.fields := by
  simp [Distinct, fields]

theorem deserialize_serialize {snapshot : RunSnapshot} (h : snapshot.Valid) :
    deserialize snapshot.serialize = some snapshot := by
  have hmeta : readMap readValue (writeMap id snapshot.metadata) = some snapshot.metadata :=
    readMap_write h.metadata fun entry he => readValue_of_ordered (h.values entry he)
  unfold deserialize serialize
  rw [readStruct_object]
  simp only [required, nullable, defaulted, field_eq_lookup snapshot.fields_distinct]
  simp [fields, List.lookup_cons, readUInt_write h.latest, readUInt_write h.acknowledged, hmeta]

end RunSnapshot

namespace RunEvent

def Valid : RunEvent → Prop
  | .finished value | .usage value | .rateLimit value | .compaction value | .commands value =>
    value.Ordered
  | .toolCall _ _ input => input.Ordered
  | .approvalRequested _ _ detail => detail.Ordered
  | _ => True

def variant : RunEvent → String
  | .finished _ => "finished"
  | .failed _ => "failed"
  | .stateChanged _ => "state_changed"
  | .sessionOpened _ _ => "session_opened"
  | .reasoning _ => "reasoning"
  | .text _ => "text"
  | .messageBoundary => "message_boundary"
  | .toolCall _ _ _ => "tool_call"
  | .toolResult _ _ _ => "tool_result"
  | .approvalRequested _ _ _ => "approval_requested"
  | .usage _ => "usage"
  | .rateLimit _ => "rate_limit"
  | .compaction _ => "compaction"
  | .commands _ => "commands"
  | .error _ => "error"

/-- The members of the payload of a variant with named fields. -/
def fields : RunEvent → Members
  | .sessionOpened providerSessionId model =>
    [("provider_session_id", .string providerSessionId), ("model", writeOption .string model)]
  | .toolCall id name input =>
    [("id", writeOption .string id), ("name", .string name), ("input", input)]
  | .toolResult id ok output =>
    [("id", writeOption .string id), ("ok", writeOption .bool ok), ("output", .string output)]
  | .approvalRequested approvalId title detail =>
    [("approval_id", .string approvalId), ("title", .string title), ("detail", detail)]
  | _ => []

def payload : RunEvent → Option Value
  | .finished value | .usage value | .rateLimit value | .compaction value | .commands value =>
    some value
  | .failed s | .reasoning s | .text s | .error s => some (.string s)
  | .stateChanged state => some state.serialize
  | .messageBoundary => none
  | event => some (.object event.fields)

def serialize (event : RunEvent) : Value :=
  .object (("type", .string event.variant) :: (event.payload.map ("payload", ·)).toList)

def readPayload (variant : String) (v : Value) : Option RunEvent :=
  match variant with
  | "finished" => (readValue v).map .finished
  | "failed" => (readString v).map .failed
  | "state_changed" => (RunState.deserialize v).map .stateChanged
  | "session_opened" =>
    readStruct (fun ms => do
      return .sessionOpened (← required ms "provider_session_id" readString)
        (← nullable ms "model" readString)) v
  | "reasoning" => (readString v).map .reasoning
  | "text" => (readString v).map .text
  | "message_boundary" => (readUnit v).map fun _ => .messageBoundary
  | "tool_call" =>
    readStruct (fun ms => do
      return .toolCall (← nullable ms "id" readString) (← required ms "name" readString)
        (← required ms "input" readValue)) v
  | "tool_result" =>
    readStruct (fun ms => do
      return .toolResult (← nullable ms "id" readString) (← nullable ms "ok" readBool)
        (← required ms "output" readString)) v
  | "approval_requested" =>
    readStruct (fun ms => do
      return .approvalRequested (← required ms "approval_id" readString)
        (← required ms "title" readString) (← required ms "detail" readValue)) v
  | "usage" => (readValue v).map .usage
  | "rate_limit" => (readValue v).map .rateLimit
  | "compaction" => (readValue v).map .compaction
  | "commands" => (readValue v).map .commands
  | "error" => (readString v).map .error
  | _ => none

/-- Only the variant without a payload may be given none. -/
def read (variant : String) : Option Value → Option RunEvent
  | none => if variant = "message_boundary" then some .messageBoundary else none
  | some v => readPayload variant v

def deserialize : Reader RunEvent := readStruct (adjacent "type" "payload" read)

theorem fields_distinct (event : RunEvent) : Distinct event.fields := by
  cases event <;> simp [Distinct, fields]

theorem read_payload {event : RunEvent} (h : event.Valid) :
    read event.variant event.payload = some event := by
  have hd := event.fields_distinct
  cases event <;> simp only [variant, payload, read, readPayload, readStruct_object, required,
    nullable, field_eq_lookup hd]
  case toolCall id name input => simp [fields, List.lookup_cons, readValue_of_ordered h]
  case approvalRequested approvalId title detail =>
    simp [fields, List.lookup_cons, readValue_of_ordered h]
  case finished value => rw [readValue_of_ordered h]; rfl
  case usage value => rw [readValue_of_ordered h]; rfl
  case rateLimit value => rw [readValue_of_ordered h]; rfl
  case compaction value => rw [readValue_of_ordered h]; rfl
  case commands value => rw [readValue_of_ordered h]; rfl
  all_goals simp [fields, List.lookup_cons]

theorem deserialize_serialize {event : RunEvent} (h : event.Valid) :
    deserialize event.serialize = some event := by
  have hread := read_payload h
  unfold deserialize serialize
  rw [readStruct_object]
  cases hp : event.payload with
  | none => rw [← hread, hp]; exact adjacent_unit (by simp)
  | some v => rw [← hread, hp]; exact adjacent_content (by simp)

end RunEvent

namespace ServerResponse

def Valid : ServerResponse → Prop
  | .hello _ version _ => version.Valid
  | .runs snapshots => ∀ snapshot ∈ snapshots, snapshot.Valid
  | .accountUsage accounts => ∀ account ∈ accounts, account.Valid
  | .run snapshot => snapshot.Valid
  | _ => True

def variant : ServerResponse → String
  | .hello _ _ _ => "hello"
  | .runs _ => "runs"
  | .providers _ => "providers"
  | .accountUsage _ => "account_usage"
  | .run _ => "run"
  | .accepted => "accepted"
  | .sessionInterrupted _ => "session_interrupted"
  | .error _ _ => "error"

def fields : ServerResponse → Members
  | .hello serverName version capabilities =>
    [("server_name", .string serverName), ("version", version.serialize),
     ("capabilities", writeList Capability.serialize capabilities)]
  | .runs snapshots => [("runs", writeList RunSnapshot.serialize snapshots)]
  | .providers statuses => [("providers", writeList ProviderStatus.serialize statuses)]
  | .accountUsage accounts =>
    [("providers", writeList ProviderAccountUsage.serialize accounts)]
  | .run snapshot => [("run", snapshot.serialize)]
  | .accepted => []
  | .sessionInterrupted interrupted => [("interrupted", .bool interrupted)]
  | .error code message => [("code", code.serialize), ("message", .string message)]

def read (variant : String) (ms : Members) : Option ServerResponse := do
  match variant with
  | "hello" =>
    return .hello (← required ms "server_name" readString)
      (← required ms "version" ProtocolVersion.deserialize)
      (← required ms "capabilities" (readList Capability.deserialize))
  | "runs" => return .runs (← required ms "runs" (readList RunSnapshot.deserialize))
  | "providers" =>
    return .providers (← required ms "providers" (readList ProviderStatus.deserialize))
  | "account_usage" =>
    return .accountUsage (← required ms "providers" (readList ProviderAccountUsage.deserialize))
  | "run" => return .run (← required ms "run" RunSnapshot.deserialize)
  | "accepted" => return .accepted
  | "session_interrupted" =>
    return .sessionInterrupted (← required ms "interrupted" readBool)
  | "error" =>
    return .error (← required ms "code" ErrorCode.deserialize)
      (← required ms "message" readString)
  | _ => none

theorem fields_distinct (response : ServerResponse) : Distinct response.fields := by
  cases response <;> simp [Distinct, fields]

/-- No field is under the tag or the key of the request id. -/
theorem fields_fresh (response : ServerResponse) :
    "type" ∉ response.fields.map Prod.fst ∧ "request_id" ∉ response.fields.map Prod.fst ∧
      "kind" ∉ response.fields.map Prod.fst := by
  cases response <;> simp [fields]

theorem read_fields {response : ServerResponse} (h : response.Valid) :
    read response.variant response.fields = some response := by
  have hd := response.fields_distinct
  cases response <;> simp only [variant, read, required, field_eq_lookup hd]
  case hello serverName version capabilities =>
    have hlist : readList Capability.deserialize (writeList Capability.serialize capabilities) =
        some capabilities := readList_write fun capability _ => capability.deserialize_serialize
    simp [fields, List.lookup_cons, ProtocolVersion.deserialize_serialize h, hlist]
  case runs snapshots =>
    have hlist : readList RunSnapshot.deserialize (writeList RunSnapshot.serialize snapshots) =
        some snapshots :=
      readList_write fun snapshot hs => RunSnapshot.deserialize_serialize (h snapshot hs)
    simp [fields, hlist]
  case providers statuses =>
    have hlist : readList ProviderStatus.deserialize
        (writeList ProviderStatus.serialize statuses) = some statuses :=
      readList_write fun status _ => status.deserialize_serialize
    simp [fields, hlist]
  case accountUsage accounts =>
    have hlist : readList ProviderAccountUsage.deserialize
        (writeList ProviderAccountUsage.serialize accounts) = some accounts :=
      readList_write fun account ha =>
        ProviderAccountUsage.deserialize_serialize (h account ha)
    simp [fields, hlist]
  case run snapshot => simp [fields, RunSnapshot.deserialize_serialize h]
  all_goals simp [fields, List.lookup_cons]

end ServerResponse

namespace ServerFrame

def Valid : ServerFrame → Prop
  | .response requestId answer => requestId < 2 ^ 64 ∧ answer.Valid
  | .event _ sequence payload => sequence < 2 ^ 64 ∧ payload.Valid

def variant : ServerFrame → String
  | .response _ _ => "response"
  | .event _ _ _ => "event"

def fields : ServerFrame → Members
  | .response requestId answer =>
    ("request_id", writeUInt requestId) :: ("type", .string answer.variant) :: answer.fields
  | .event runId sequence payload =>
    [("run_id", runId.serialize), ("sequence", writeUInt sequence), ("event", payload.serialize)]

def serialize (frame : ServerFrame) : Value :=
  .object (("kind", .string frame.variant) :: frame.fields)

def read (variant : String) (ms : Members) : Option ServerFrame := do
  match variant with
  | "response" =>
    return .response (← required ms "request_id" (readUInt 64))
      (← tagged "type" ServerResponse.read (without "request_id" ms))
  | "event" =>
    return .event (← required ms "run_id" RunId.deserialize)
      (← required ms "sequence" (readUInt 64)) (← required ms "event" RunEvent.deserialize)
  | _ => none

def deserialize : Reader ServerFrame := readStruct (tagged "kind" read)

theorem fields_fresh (frame : ServerFrame) : "kind" ∉ frame.fields.map Prod.fst := by
  cases frame with
  | response requestId response => simp [fields, response.fields_fresh.2.2]
  | event runId sequence event => simp [fields]

theorem read_fields {frame : ServerFrame} (h : frame.Valid) :
    read frame.variant frame.fields = some frame := by
  cases frame with
  | response requestId response =>
    obtain ⟨hid, hresponse⟩ := h
    obtain ⟨htype, hfresh, -⟩ := response.fields_fresh
    have hfresh' : "request_id" ∉ (("type", .string response.variant) ::
        response.fields : Members).map Prod.fst := by
      rw [List.map_cons, List.mem_cons, not_or]
      exact ⟨by simp, hfresh⟩
    simp only [variant, read, fields, required]
    rw [field_head hfresh', readUInt_write hid, without_head hfresh', tagged_head htype,
      ServerResponse.read_fields hresponse]
    rfl
  | event runId sequence event =>
    obtain ⟨hseq, hevent⟩ := h
    have hd : Distinct (ServerFrame.event runId sequence event).fields := by
      simp [Distinct, fields]
    simp only [variant, read, required, field_eq_lookup hd]
    simp [fields, List.lookup_cons, readUInt_write hseq, RunEvent.deserialize_serialize hevent]

theorem deserialize_serialize {frame : ServerFrame} (h : frame.Valid) :
    deserialize frame.serialize = some frame := by
  unfold deserialize serialize
  rw [readStruct_object, tagged_head frame.fields_fresh, read_fields h]

end ServerFrame

/-- **Frames round-trip**: what a client or a server writes is read back as itself. -/
theorem frames_round_trip :
    (∀ frame : ClientFrame, frame.Valid →
      ClientFrame.deserialize frame.serialize = some frame) ∧
    ∀ frame : ServerFrame, frame.Valid →
      ServerFrame.deserialize frame.serialize = some frame :=
  ⟨fun _ h => ClientFrame.deserialize_serialize h, fun _ h => ServerFrame.deserialize_serialize h⟩

/-- An object in an array in an object, with a `null`. -/
def nested : Value :=
  .object [("a", .array [.object [("b", .null)], .number (-3)]), ("b", .string "c")]

theorem nested_ordered : nested.Ordered := by
  refine .object (by decide) fun m hm => ?_
  rcases List.mem_cons.1 hm with rfl | hm
  · refine .array fun item hi => ?_
    rcases List.mem_cons.1 hi with rfl | hi
    · refine .object (by decide) fun m hm => ?_
      obtain rfl := List.mem_singleton.1 hm
      exact .null
    · obtain rfl := List.mem_singleton.1 hi
      exact .number _
  · obtain rfl := List.mem_singleton.1 hm
    exact .string _

/-- A request with an environment and nested metadata. -/
def nestedStart : ClientFrame where
  requestId := 2 ^ 64 - 1
  message := .startRun ⟨"r"⟩
    { provider := "claude", model := "m", prompt := "p", isCommand := true, system := none
      permission := "plan", effort := some "high", extraThinking := some false, approvals := true
      interactive := false, workspaceRoots := ["/w"], resumeSessionId := none, binary := none
      environment := [("A", "1"), ("B", "2")], uncheckedArgs := [], metadata := [("k", nested)] }
    "key"

theorem frames_round_trip_nested :
    ClientFrame.deserialize nestedStart.serialize = some nestedStart ∧
    ServerFrame.deserialize
      (ServerFrame.event ⟨"r"⟩ 7 (.toolCall none "read" nested)).serialize =
        some (.event ⟨"r"⟩ 7 (.toolCall none "read" nested)) := by
  have hmeta : ∀ entry ∈ [("k", nested)], entry.2.Ordered := fun entry he => by
    obtain rfl := List.mem_singleton.1 he
    exact nested_ordered
  exact ⟨frames_round_trip.1 _ ⟨by decide, ⟨by decide, by decide, hmeta⟩⟩,
    frames_round_trip.2 _ ⟨by decide, nested_ordered⟩⟩

end AgencyProxy
