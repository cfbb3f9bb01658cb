import AgencyProxy.Runtime.Store

/-!
# Providers: requests in, events out

The pure parts of `runtime.rs` that face `agent_abstraction`: `build_request` and
`interrupt_session` turn a client's request into the abstraction's `Request`, and the
`publish_*` functions turn the abstraction's events and outcomes into what `publish` is
called with. The abstraction itself is not modelled: its payload types are a parameter `P`
and `serde_json::to_value` is a parameter `toValue`, which may fail.
-/

namespace AgencyProxy.Runtime

inductive Agent where
  | claude
  | codex
  | copilot
  | grok
  deriving DecidableEq, Repr

def agentForProvider : String → Except RuntimeError Agent
  | "claude" => .ok .claude
  | "codex" => .ok .codex
  | "copilot" => .ok .copilot
  | "grok" => .ok .grok
  | other => .error (.provider other)

inductive Permission where
  | readOnly
  | plan
  | edit
  | auto
  | bypass
  deriving DecidableEq, Repr

/-- The `match` on `spec.permission`. -/
def permissionFor : String → Except RuntimeError Permission
  | "read_only" | "read-only" => .ok .readOnly
  | "plan" => .ok .plan
  | "edit" => .ok .edit
  | "auto" => .ok .auto
  | "bypass" => .ok .bypass
  | other => .error (.permission other)

/-- What a `Request` is opened with: a prompt, or the one command that is supported. -/
inductive Opening where
  | prompt (text : String)
  | compact
  deriving DecidableEq, Repr

/-- The builder calls made on a `Request`. -/
inductive Setting where
  | permission (permission : Permission)
  | cwd (root : String)
  | addDir (extra : String)
  | model (model : String)
  | system (system : String)
  | effort (effort : String)
  | thinking (thinking : Bool)
  | resume (session : String)
  | bin (binary : String)
  | approvals
  | interactive
  | env (name value : String)
  | uncheckedArgs (args : List String)
  deriving DecidableEq, Repr

/-- A `Request`, as the sequence of builder calls that made it. -/
structure Request where
  agent : Agent
  opening : Opening
  settings : List Setting
  deriving DecidableEq, Repr

/-- `option.filter(|value| !value.is_empty())`, as a builder call. -/
def nonEmpty (set : String → Setting) (value : Option String) : List Setting :=
  ((value.filter fun v => !v.isEmpty).map set).toList

def buildRequest (spec : RunRequest) : Except RuntimeError Request := do
  let agent ← agentForProvider spec.provider
  let permission ← permissionFor spec.permission
  let opening ←
    if spec.isCommand then
      if spec.prompt = "/compact" then .ok Opening.compact
      else .error (.start s!"unsupported command: {spec.prompt}")
    else .ok (.prompt spec.prompt)
  return {
    agent, opening
    settings :=
      [.permission permission] ++
      (match spec.workspaceRoots with
        | root :: extras => .cwd root :: extras.map .addDir
        | [] => []) ++
      (if spec.model.isEmpty then [] else [.model spec.model]) ++
      nonEmpty .system spec.system ++ nonEmpty .effort spec.effort ++
      (spec.extraThinking.map .thinking).toList ++
      nonEmpty .resume spec.resumeSessionId ++ nonEmpty .bin spec.binary ++
      (if spec.approvals then [.approvals] else []) ++
      (if spec.interactive then [.interactive] else []) ++
      spec.environment.map (fun (name, value) => .env name value) ++
      (if spec.uncheckedArgs.isEmpty then [] else [.uncheckedArgs spec.uncheckedArgs]) }

/-- `char::is_whitespace`: the Unicode `White_Space` property. -/
def isWhitespace (c : Char) : Bool :=
  let n := c.toNat
  (9 ≤ n && n ≤ 13) || n = 0x20 || n = 0x85 || n = 0xA0 || n = 0x1680 ||
    (0x2000 ≤ n && n ≤ 0x200A) || n = 0x2028 || n = 0x2029 || n = 0x202F || n = 0x205F ||
    n = 0x3000

/-- `str::trim`. -/
def trim (s : String) : String :=
  .ofList (((s.toList.dropWhile isWhitespace).reverse.dropWhile isWhitespace).reverse)

/-- `interrupt_session` up to the call of `interrupt`. -/
def interruptRequest (provider sessionId : String) (binary : Option String) :
    Except RuntimeError Request := do
  let agent ← agentForProvider provider
  let sessionId := trim sessionId
  if sessionId.isEmpty then throw (.provider "the session id is empty")
  return {
    agent, opening := .prompt ""
    settings := [.resume sessionId, .permission .readOnly] ++ nonEmpty .bin binary }

inductive Decision where
  | allow
  | deny
  deriving DecidableEq, Repr

/-- The `match` of `decide`. -/
def decisionFor : ApprovalDecision → Decision
  | .allowOnce | .allowSimilar => .allow
  | .deny => .deny

/-- `agent_abstraction::Event`; `P` stands for its payload structs. -/
inductive Event (P : Type) where
  | started (session : String) (model : Option String)
  | thinking (text : String)
  | text (text : String)
  | messageBoundary
  | toolCall (id : Option String) (name : String) (input : Value)
  | toolResult (id : Option String) (ok : Option Bool) (output : String)
  | approvalRequest (id tool : String) (input : Value)
  | usage (value : P)
  | rateLimit (value : P)
  | compaction (value : P)
  | commands (value : P)
  /-- Any other event: `publish_provider` ignores it. -/
  | other

/-- `agent_abstraction::Outcome`. -/
structure Outcome (P : Type) where
  isOk : Bool
  body : P

/-- The arguments of one `publish`. -/
structure Publication where
  event : RunEvent
  state : Option RunState
  session : Option String

def publishError (error : String) (state : RunState) : Publication :=
  ⟨.failed error, some state, none⟩

section

variable {P : Type} (toValue : P → Except String Value)

/-- The arms that serialise a payload: a payload that does not serialise fails the run. -/
def publishPayload (event : Value → RunEvent) (value : P) : Publication :=
  match toValue value with
  | .ok value => ⟨event value, some .running, none⟩
  | .error error => publishError error .failed

def publishProvider : Event P → Option Publication
  | .started session model =>
    some ⟨.sessionOpened session model, some .running, some session⟩
  | .thinking text => some ⟨.reasoning text, some .running, none⟩
  | .text text => some ⟨.text text, some .running, none⟩
  | .messageBoundary => some ⟨.messageBoundary, some .running, none⟩
  | .toolCall id name input => some ⟨.toolCall id name input, some .running, none⟩
  | .toolResult id ok output => some ⟨.toolResult id ok output, some .running, none⟩
  | .approvalRequest id tool input =>
    some ⟨.approvalRequested id tool input, some .waitingApproval, none⟩
  | .usage value => some (publishPayload toValue .usage value)
  | .rateLimit value => some (publishPayload toValue .rateLimit value)
  | .compaction value => some (publishPayload toValue .compaction value)
  | .commands value => some (publishPayload toValue .commands value)
  | .other => none

/-- `publish_finished`, with the state that the run task chooses for the outcome. -/
def publishFinished (outcome : Outcome P) : Publication :=
  match toValue outcome.body with
  | .ok value => ⟨.finished value, some (if outcome.isOk then .completed else .failed), none⟩
  | .error error => publishError error .failed

/-- Every payload the event carries serialises. -/
def Event.Serialises : Event P → Prop
  | .usage value | .rateLimit value | .compaction value | .commands value =>
    ∃ v, toValue value = .ok v
  | _ => True

/-- A publication that keeps its run active. -/
def Publication.Live (p : Publication) : Prop := ∃ s, p.state = some s ∧ isActiveState s = true

/-- A failure, in place of a payload that does not serialise or from the provider. -/
def Publication.Fails (p : Publication) : Prop := p.state = some .failed

/-- A publication that ends its run. -/
def Publication.Terminal (p : Publication) : Prop :=
  ∃ s, p.state = some s ∧ isActiveState s = false

variable {toValue}

theorem publishPayload_live {event : Value → RunEvent} {value : P}
    (h : ∃ v, toValue value = .ok v) : (publishPayload toValue event value).Live := by
  obtain ⟨v, hv⟩ := h
  simp [publishPayload, hv, Publication.Live, isActiveState]

/-- An event whose payload serialises keeps its run active. -/
theorem publishProvider_live {event : Event P} {p : Publication}
    (hs : event.Serialises toValue) (h : publishProvider toValue event = some p) : p.Live := by
  cases event with
  | usage value => cases h; exact publishPayload_live hs
  | rateLimit value => cases h; exact publishPayload_live hs
  | compaction value => cases h; exact publishPayload_live hs
  | commands value => cases h; exact publishPayload_live hs
  | other => cases h
  | _ => cases h; exact ⟨_, rfl, rfl⟩

theorem publishPayload_kind (event : Value → RunEvent) (value : P) :
    (publishPayload toValue event value).Live ∨ (publishPayload toValue event value).Fails := by
  cases hv : toValue value with
  | ok v => exact .inl (publishPayload_live ⟨v, hv⟩)
  | error e => exact .inr (by simp [publishPayload, hv, publishError, Publication.Fails])

/-- An event keeps its run active, or fails it because it does not serialise. -/
theorem publishProvider_kind {event : Event P} {p : Publication}
    (h : publishProvider toValue event = some p) : p.Live ∨ p.Fails := by
  cases event with
  | usage value | rateLimit value | compaction value | commands value =>
    cases h
    exact publishPayload_kind _ value
  | other => cases h
  | _ => cases h; exact .inl ⟨_, rfl, rfl⟩

/-- An outcome completes its run or fails it. -/
theorem publishFinished_kind (outcome : Outcome P) :
    (publishFinished toValue outcome).state = some .completed ∨
      (publishFinished toValue outcome).Fails := by
  unfold publishFinished
  split
  · cases outcome.isOk
    · exact .inr rfl
    · exact .inl rfl
  · exact .inr rfl

theorem publishFinished_terminal (outcome : Outcome P) :
    (publishFinished toValue outcome).Terminal := by
  unfold publishFinished
  split
  · refine ⟨_, rfl, ?_⟩
    split <;> rfl
  · exact ⟨_, rfl, rfl⟩

end

end AgencyProxy.Runtime
