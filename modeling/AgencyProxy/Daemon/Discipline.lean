import AgencyProxy.Daemon

/-!
# Requests and responses

What one connection has written, whatever the others and its own forwarders do: a response
to each frame it has read, in order, with the frame's request id and at most the last one
missing; nothing that touches shared state before the hello is answered; and each
attachment's `Run` response, then all of its replay, then what its forwarder hands over.
-/

namespace AgencyProxy

open AgencyProxy.Runtime Std Lts

/-! ## Reading a connection's log -/

/-- The request id of a response frame. -/
def ServerFrame.answers : ServerFrame → Option Nat
  | .response requestId _ => some requestId
  | .event _ _ _ => none

def ServerResponse.isHello : ServerResponse → Bool
  | .hello _ _ _ => true
  | _ => false

def ServerResponse.isRun : ServerResponse → Bool
  | .run _ => true
  | _ => false

/-- A hello of the daemon's major version. -/
def ClientMessage.greets : ClientMessage → Bool
  | .hello _ version => version.major = protocolVersion.major
  | _ => false

def Written.answered : Written → Option ClientFrame
  | .response request _ => some request
  | _ => none

/-- The request that the entry answers with a `Run`. -/
def Written.attaching : Written → Option ClientFrame
  | .response request answer => if answer.isRun then some request else none
  | _ => none

def Written.replayOf (n : Nat) : Written → Option SequencedEvent
  | .replayed m event => if m = n then some event else none
  | _ => none

/-- The requests answered, in order. -/
def answered (log : List Written) : List ClientFrame := log.filterMap Written.answered

/-- The requests answered with a `Run`; the `n`-th made attachment `n`. -/
def attaching (log : List Written) : List ClientFrame := log.filterMap Written.attaching

/-- What was written of the replay of attachment `n`. -/
def replayed (n : Nat) (log : List Written) : List SequencedEvent :=
  log.filterMap (Written.replayOf n)

/-- The frame read last, while it has no response. -/
def Pc.pending : Pc → List (Option ClientFrame)
  | .handling request | .locked request | .starting request _ | .cancelling request _
  | .answering request _ _ _ => [some request]
  | .returned .undecodable => [none]
  | .returned (.writeFailed (some request)) => [some request]
  | _ => []

/-- In the loop, and not writing an answer. -/
def Pc.inLoop : Pc → Bool
  | .opening | .answering _ _ _ _ | .returned _ => false
  | _ => true

namespace Conn

/-- What the client receives. -/
def wire (conn : Conn) : List ServerFrame := conn.written.map Written.frame

/-- The hello was answered. -/
def greeted (conn : Conn) : Bool :=
  conn.written.any fun
    | .response _ response => response.isHello
    | _ => false

/-- The whole replay of attachment `n` is in the log. -/
def Replayed (attached : List Attached) (n : Nat) (log : List Written) : Prop :=
  ∃ att, attached[n]? = some att ∧ replayed n log = att.replay

/-- Where an entry of the log may stand: an event of a replay after the `Run` response, an
event from a forwarder after the replay. -/
def InOrder (attached : List Attached) (log : List Written) : Written → Prop
  | .response _ _ => True
  | .replayed n _ => n < (attaching log).length
  | .live n _ => Replayed attached n log

/-! ## The log -/

section Log

variable {log : List Written} {attached : List Attached} {n m : Nat} {event : SequencedEvent}
  {request : ClientFrame} {response : ServerResponse}

theorem answered_snoc {w : Written} :
    answered (log ++ [w]) = answered log ++ w.answered.toList := by
  cases h : w.answered <;> simp [answered, h]

@[simp] theorem attaching_snoc {w : Written} :
    attaching (log ++ [w]) = attaching log ++ w.attaching.toList := by
  cases h : w.attaching <;> simp [attaching, h]

@[simp] theorem replayed_snoc {w : Written} :
    replayed n (log ++ [w]) = replayed n log ++ (w.replayOf n).toList := by
  cases h : w.replayOf n <;> simp [replayed, h]

theorem Replayed.attach (h : Replayed attached n log) (att : Attached) :
    Replayed (attached ++ [att]) n log := by
  obtain ⟨a, ha, hr⟩ := h
  exact ⟨a, List.getElem?_append_left (List.getElem?_eq_some_iff.1 ha).1 ▸ ha, hr⟩

theorem InOrder.attach {w : Written} (att : Attached) (h : InOrder attached log w) :
    InOrder (attached ++ [att]) log w := by
  cases w with
  | response request response => trivial
  | replayed n event => exact h
  | live n event => exact Replayed.attach h att

/-- A log, together with the attachments that its `Run` responses made. -/
structure History (log : List Written) (attached : List Attached) : Prop where
  greets : ∀ request response, .response request response ∈ log →
    response.isHello = true → request.message.greets = true
  numbered : (attaching log).map ClientFrame.message =
    attached.map fun att => .attachRun att.id att.after
  fresh : ∀ n, attached[n]? = none → replayed n log = []
  replays : ∀ n att, attached[n]? = some att → replayed n log <+: att.replay
  ordered : Each (InOrder attached) log

theorem History.nil : History [] [] :=
  ⟨by simp, rfl, fun _ _ => rfl, by simp, each_nil⟩

theorem History.greets_snoc (h : History log attached)
    (hg : response.isHello = true → request.message.greets = true) :
    ∀ q r, .response q r ∈ log ++ [.response request response] →
      r.isHello = true → q.message.greets = true := by
  intro q r hm hr
  rcases List.mem_append.1 hm with hm | hm
  · exact h.greets q r hm hr
  · simp only [List.mem_singleton, Written.response.injEq] at hm
    obtain ⟨rfl, rfl⟩ := hm
    exact hg hr

theorem History.respond (h : History log attached) (hr : response.isRun = false)
    (hg : response.isHello = true → request.message.greets = true) :
    History (log ++ [.response request response]) attached where
  greets := h.greets_snoc hg
  numbered := by simpa [Written.attaching, hr] using h.numbered
  fresh n hn := by simpa [Written.replayOf] using h.fresh n hn
  replays n att hn := by simpa [Written.replayOf] using h.replays n att hn
  ordered := each_snoc.2 ⟨h.ordered, trivial⟩

/-- The `Run` response makes the next attachment. -/
theorem History.attach {att : Attached} (h : History log attached) (hr : response.isRun = true)
    (hh : response.isHello = false) (hm : request.message = .attachRun att.id att.after) :
    History (log ++ [.response request response]) (attached ++ [att]) where
  greets := h.greets_snoc (by simp [hh])
  numbered := by simp [Written.attaching, hr, h.numbered, hm]
  fresh n hn := by
    simp only [replayed_snoc, Written.replayOf, Option.toList_none, List.append_nil]
    refine h.fresh n ?_
    simp only [List.getElem?_eq_none_iff, List.length_append] at hn ⊢
    omega
  replays n a hn := by
    simp only [replayed_snoc, Written.replayOf, Option.toList_none, List.append_nil]
    by_cases hl : n < attached.length
    · rw [List.getElem?_append_left hl] at hn
      exact h.replays n a hn
    · rw [h.fresh n (by simpa using hl)]
      exact List.nil_prefix
  ordered := each_snoc.2 ⟨h.ordered.imp fun _ _ hi => hi.attach att, trivial⟩

/-- One more event of the replay is written. -/
theorem History.replay {att : Attached} {rest : List SequencedEvent} (h : History log attached)
    (hn : attached[n]? = some att) (hr : replayed n log ++ event :: rest = att.replay) :
    History (log ++ [.replayed n event]) attached where
  greets q r hm hr := h.greets q r (by simpa using hm) hr
  numbered := by simpa [Written.attaching] using h.numbered
  fresh m hm := by
    have hne : n ≠ m := by rintro rfl; cases hn.symm.trans hm
    simpa [Written.replayOf, hne] using h.fresh m hm
  replays m a hm := by
    by_cases he : n = m
    · subst he
      cases hn.symm.trans hm
      exact ⟨rest, by simpa [Written.replayOf] using hr⟩
    · simpa [Written.replayOf, he] using h.replays m a hm
  ordered := by
    refine each_snoc.2 ⟨h.ordered, ?_⟩
    have hlen := congrArg List.length h.numbered
    simp only [List.length_map] at hlen
    show n < (attaching log).length
    rw [hlen]
    exact (List.getElem?_eq_some_iff.1 hn).1

theorem History.live (h : History log attached) (hn : Replayed attached n log) :
    History (log ++ [.live n event]) attached where
  greets q r hm hr := h.greets q r (by simpa using hm) hr
  numbered := by simpa [Written.attaching] using h.numbered
  fresh m hm := by simpa [Written.replayOf] using h.fresh m hm
  replays m a hm := by simpa [Written.replayOf] using h.replays m a hm
  ordered := each_snoc.2 ⟨h.ordered, hn⟩

/-- A replay that is whole stays so: no entry but the next of an unfinished one adds to it. -/
theorem Replayed.snoc {w : Written} (h : Replayed attached m log)
    (hw : w.replayOf m = none) : Replayed attached m (log ++ [w]) := by
  obtain ⟨att, ha, hr⟩ := h
  exact ⟨att, ha, by simpa [hw] using hr⟩

theorem Replayed.replay {att : Attached} {rest : List SequencedEvent}
    (h : Replayed attached m log) (hn : attached[n]? = some att)
    (hr : replayed n log ++ event :: rest = att.replay) :
    Replayed attached m (log ++ [.replayed n event]) := by
  refine h.snoc ?_
  obtain ⟨a, ha, hm⟩ := h
  have hne : n ≠ m := by
    rintro rfl
    cases hn.symm.trans ha
    rw [hm] at hr
    simpa using congrArg List.length hr
  simp [Written.replayOf, hne]

end Log

/-! ## The connection -/

/-- What follows an answer to the first frame. -/
def NextEarly (response : ServerResponse) : Next → Prop
  | .loop => response.isHello = true
  | .exit => True
  | _ => False

/-- Before the hello is answered: no forwarder, and nothing under way but that answer. -/
def Early (conn : Conn) : Prop :=
  conn.forwards = ∅ ∧
    match conn.pc with
    | .opening | .returned _ => True
    | .answering _ response next locked => locked = false ∧ NextEarly response next
    | _ => False

/-- What the place a connection has reached says about its log. -/
def LogOk (conn : Conn) : Prop :=
  match conn.pc with
  | .relaying n _ => Replayed conn.attached n conn.written
  | .answering request response next _ =>
    (response.isHello = true → request.message.greets = true) ∧
    match next with
    | .replay id after _ =>
      request.message = .attachRun id after ∧ response.isRun = true ∧ response.isHello = false
    | _ => response.isRun = false
  | .replaying n id rest _ =>
    ∃ att, conn.attached[n]? = some att ∧ att.id = id ∧ replayed n conn.written ++ rest = att.replay
  | _ => True

structure Disciplined (conn : Conn) : Prop where
  history : History conn.written conn.attached
  paired : conn.consumed = (answered conn.written).map some ++ conn.pc.pending
  greeting : conn.greeted = true ∨ conn.Early
  pc : conn.LogOk
  forwards : ∀ (n : Nat) (task : Forward), conn.forwards[n]? = some task →
    Replayed conn.attached n conn.written
  outbound : ∀ (n : Nat) (event : SequencedEvent), (n, event) ∈ conn.outbound →
    Replayed conn.attached n conn.written

variable {s s' : Shared} {c : Nat} {conn conn' : Conn}

theorem disciplined_init : Disciplined .init :=
  ⟨History.nil, rfl, .inr ⟨rfl, trivial⟩, trivial, by simp [init], by simp [init]⟩

/-- Past the greeting, the hello was answered. -/
theorem Disciplined.past (h : conn.Disciplined) (hp : conn.pc.inLoop = true) :
    conn.greeted = true := by
  refine h.greeting.resolve_right fun he => ?_
  obtain ⟨-, he⟩ := he
  split at he
  · rename_i hpc; rw [hpc] at hp; cases hp
  · rename_i hpc; rw [hpc] at hp; cases hp
  · rename_i hpc; rw [hpc] at hp; cases hp
  · exact he

/-- A connection moves on, with what it has written and its tasks as they were. -/
theorem Disciplined.goto (h : conn.Disciplined) {pc : Pc} {consumed : List (Option ClientFrame)}
    (hp : consumed = (answered conn.written).map some ++ pc.pending)
    (hg : conn.greeted = true ∨ ({ conn with pc, consumed } : Conn).Early)
    (hpc : ({ conn with pc, consumed } : Conn).LogOk) :
    ({ conn with pc, consumed } : Conn).Disciplined :=
  ⟨h.history, hp, hg, hpc, h.forwards, h.outbound⟩

/-- The request in hand stays in hand. -/
theorem Disciplined.process (h : conn.Disciplined) {pc : Pc} (hl : conn.pc.inLoop = true)
    (hp : pc.pending = conn.pc.pending) (hpc : ({ conn with pc } : Conn).LogOk) :
    ({ conn with pc } : Conn).Disciplined :=
  h.goto (by rw [hp]; exact h.paired) (.inl (h.past hl)) hpc

/-- The first frame gets the hello's answer, and the loop, or an error, and the end. -/
theorem greet_cases (frame : ClientFrame) :
    ∃ (response : ServerResponse) (next : Next),
      greet frame = .answering frame response next false ∧ response.isRun = false ∧
      ((next = .loop ∧ response.isHello = true ∧ frame.message.greets = true) ∨
        (next = .exit ∧ response.isHello = false)) := by
  unfold greet
  split
  · rename_i name version hm
    split
    · rename_i v hv
      refine ⟨_, _, rfl, rfl, .inl ⟨rfl, rfl, ?_⟩⟩
      simp [ClientMessage.greets, hm, (ProtocolVersion.negotiate_eq_some hv).1]
    · exact ⟨_, _, rfl, rfl, .inr ⟨rfl, rfl⟩⟩
  · exact ⟨_, _, rfl, rfl, .inr ⟨rfl, rfl⟩⟩

theorem greeted_snoc (conn : Conn) {w : Written} (h : conn.greeted = true) :
    ({ conn with written := conn.written ++ [w] } : Conn).greeted = true := by
  simp only [greeted, List.any_append, Bool.or_eq_true]
  exact .inl h

/-- A response that is not a `Run` is written. -/
theorem Disciplined.respond {request : ClientFrame} {response : ServerResponse} {next : Next}
    {locked : Bool} (h : conn.Disciplined) {pc : Pc}
    (hpc : conn.pc = .answering request response next locked) (hr : response.isRun = false)
    (hp : pc.pending = []) (hok : ∀ written, ({ conn with pc, written } : Conn).LogOk)
    (hg : conn.greeted = true ∨ response.isHello = true ∨
      (conn.Early ∧ ∃ exit, pc = .returned exit)) :
    ({ conn with pc, written := conn.written ++ [.response request response] } :
      Conn).Disciplined := by
  have hlog := h.pc
  have hpaired := h.paired
  simp only [LogOk, hpc] at hlog
  refine ⟨h.history.respond hr hlog.1, ?_, ?_, hok _, fun n task hf => ?_, fun n event he => ?_⟩
  · rw [hp]
    simp [hpaired, hpc, Pc.pending, answered_snoc, Written.answered]
  · rcases hg with hg | hg | ⟨⟨hf, -⟩, exit, rfl⟩
    · exact .inl (greeted_snoc { conn with pc } hg)
    · exact .inl (by simp [greeted, hg])
    · exact .inr ⟨hf, trivial⟩
  · exact (h.forwards n task hf).snoc rfl
  · exact (h.outbound n event he).snoc rfl

/-- The answer of an accepted `AttachRun` is written. -/
theorem Disciplined.attach {request : ClientFrame} {response : ServerResponse} {locked : Bool}
    {id : RunId} {after : Nat} {attachment : Attachment} (h : conn.Disciplined)
    (hpc : conn.pc = .answering request response (.replay id after attachment) locked) :
    ({ conn with
      written := conn.written ++ [.response request response]
      attached := conn.attached ++ [⟨id, after, attachment.replay⟩]
      pc := .replaying conn.attached.length id attachment.replay
        (Forwarder.start attachment after) } : Conn).Disciplined := by
  have hlog := h.pc
  have hpaired := h.paired
  simp only [LogOk, hpc] at hlog
  obtain ⟨-, hm, hr, hh⟩ := hlog
  have hpast := h.greeting.resolve_right fun he => by simp [Early, hpc, NextEarly] at he
  refine ⟨h.history.attach hr hh hm, ?_, .inl (greeted_snoc conn hpast), ?_, fun n task hf => ?_,
    fun n event he => ?_⟩
  · simp [hpaired, hpc, Pc.pending, answered_snoc, Written.answered]
  · refine ⟨⟨id, after, attachment.replay⟩, by simp, rfl, ?_⟩
    simp only [replayed_snoc, Written.replayOf, Option.toList_none, List.append_nil]
    rw [h.history.fresh _ (by simp), List.nil_append]
  · exact ((h.forwards n task hf).snoc rfl).attach _
  · exact ((h.outbound n event he).snoc rfl).attach _

theorem plain_fields {response : ServerResponse} (h : response.plain = true) :
    response.isHello = false ∧ response.isRun = false := by
  cases response <;> first | exact ⟨rfl, rfl⟩ | cases h

/-- The answer to the request in hand is ready. -/
theorem Disciplined.answer (h : conn.Disciplined) {request : ClientFrame} {locked : Bool}
    {next : Next} {response : ServerResponse} (hl : conn.pc.inLoop = true)
    (hp : conn.pc.pending = [some request]) (hplain : response.plain = true)
    (hn : ∀ id after attachment, next ≠ .replay id after attachment) :
    ({ conn with pc := .answering request response next locked } : Conn).Disciplined := by
  obtain ⟨hh, hr⟩ := plain_fields hplain
  refine h.process hl hp.symm ⟨fun ht => (by rw [hh] at ht; cases ht), ?_⟩
  cases next with
  | replay id after attachment => exact absurd rfl (hn id after attachment)
  | _ => exact hr

/-- A step of a forwarder task: it pushes at most frames of its own attachment. -/
theorem Disciplined.task (h : conn.Disciplined) {n : Nat} {task task' : Forward}
    {outbound : List (Nat × SequencedEvent)} (hf : conn.forwards[n]? = some task)
    (ho : ∀ m event, (m, event) ∈ outbound → (m, event) ∈ conn.outbound ∨ m = n) :
    ({ conn with forwards := conn.forwards.insert n task', outbound } : Conn).Disciplined := by
  have hready := h.forwards n task hf
  refine ⟨h.history, h.paired, .inl (h.greeting.resolve_right fun he => ?_), h.pc,
    fun m task₁ hm => ?_, fun m event hm => ?_⟩
  · rw [he.1] at hf
    simp at hf
  · rcases ExtTreeMap.getElem?_insert_some.1 hm with ⟨rfl, -⟩ | ⟨-, hm⟩
    · exact hready
    · exact h.forwards m task₁ hm
  · rcases ho m event hm with hm | rfl
    · exact h.outbound m event hm
    · exact hready

theorem Disciplined.abort (h : conn.Disciplined) (id : RunId) (hg : conn.greeted = true) :
    (conn.abort id).Disciplined := by
  refine ⟨by simpa using h.history, by simpa [abort_consumed] using h.paired,
    .inl (by simpa [greeted] using hg), ?_, fun n task hf => ?_, by simpa using h.outbound⟩
  · simpa [LogOk] using h.pc
  · obtain ⟨task₀, hf, -⟩ := abort_forwards hf
    simpa using h.forwards n task₀ hf

/-- **Step lemma**: each thing a connection can do keeps the discipline. -/
theorem Disciplined.moves {a : Act} (h : conn.Disciplined) (hm : Moves s c conn a s' conn') :
    conn'.Disciplined := by
  have hpaired := h.paired
  have hlog := h.pc
  have hreturn : ∀ (exit : Exit), conn.greeted = true ∨
      ({ conn with pc := .returned exit } : Conn).Early := fun exit =>
    h.greeting.imp_right fun he => ⟨he.1, trivial⟩
  cases hm with
  | first frame hpc =>
    obtain ⟨response, next, hg, hr, hnext⟩ := greet_cases frame
    rw [hg]
    refine h.goto (by simp [hpaired, hpc, Pc.pending]) ?_ ?_
    · refine h.greeting.imp_right fun he => ⟨he.1, rfl, ?_⟩
      rcases hnext with ⟨rfl, hh, -⟩ | ⟨rfl, -⟩
      · exact hh
      · trivial
    · rcases hnext with ⟨rfl, -, hgr⟩ | ⟨rfl, hh⟩
      · exact ⟨fun _ => hgr, hr⟩
      · exact ⟨fun ht => (by rw [hh] at ht; cases ht), hr⟩
  | request frame hpc =>
    exact h.goto (by simp [hpaired, hpc, Pc.pending])
      (.inl (h.past (by rw [hpc]; rfl))) trivial
  | hangUp hpc => exact h.goto (by simp [hpaired, hpc, Pc.pending]) (hreturn _) trivial
  | close hpc =>
    refine ⟨h.history, by simp [abortAll, hpaired, hpc, Pc.pending], ?_, trivial,
      fun n task hf => ?_, h.outbound⟩
    · exact .inl (h.past (by rw [hpc]; rfl))
    · obtain ⟨task₀, hf, -⟩ := abortAll_forwards hf
      exact h.forwards n task₀ hf
  | undecodable hpc =>
    refine h.goto ?_ (hreturn .undecodable) trivial
    rcases hpc with hpc | hpc <;> simp [hpaired, hpc, Pc.pending]
  | unreadable hpc =>
    refine h.goto ?_ (hreturn .unreadable) trivial
    rcases hpc with hpc | hpc <;> simp [hpaired, hpc, Pc.pending]
  | relay n event rest hpc hq =>
    refine ⟨h.history, by simp [hpaired, hpc, Pc.pending],
      .inl (h.past (by rw [hpc]; rfl)),
      h.outbound n event (by simp [hq]), h.forwards, fun m e hm => ?_⟩
    exact h.outbound m e (by rw [hq]; exact List.mem_cons_of_mem _ hm)
  | answer reply request response called hpc _ hplain =>
    exact h.answer (by rw [hpc]; rfl) (by rw [hpc]; rfl)
      hplain (by simp)
  | acknowledge request id through store hpc =>
    exact h.answer (by rw [hpc]; rfl) (by rw [hpc]; rfl)
      rfl (by simp)
  | lock request hpc =>
    exact h.process (by rw [hpc]; rfl) (by rw [hpc]; rfl)
      trivial
  | attach request id after attachment store hpc hmsg =>
    exact h.process (by rw [hpc]; rfl) (by rw [hpc]; rfl)
      ⟨fun ht => (by cases ht), hmsg, rfl, rfl⟩
  | detach request id hpc =>
    have hg := h.past (by rw [hpc]; rfl)
    exact (h.abort id hg).answer (by rw [abort_pc, hpc]; rfl) (by rw [abort_pc, hpc]; rfl) rfl
      (by simp)
  | cancel request id key k registry hpc =>
    exact h.process (by rw [hpc]; rfl) (by rw [hpc]; rfl)
      trivial
  | refuse k request message hpc =>
    exact h.answer (by rw [hpc]; rfl) (by rw [hpc]; rfl)
      rfl (by simp)
  | idle k request hpc =>
    exact h.answer (by rw [hpc]; rfl) (by rw [hpc]; rfl)
      rfl (by simp)
  | stop k request mode hpc =>
    exact h.answer (by rw [hpc]; rfl) (by rw [hpc]; rfl)
      rfl (by simp)
  | launch k request id spec key registry hpc =>
    exact h.process (by rw [hpc]; rfl) (by rw [hpc]; rfl)
      trivial
  | started request k id result hpc =>
    exact h.answer (by rw [hpc]; rfl) (by rw [hpc]; rfl)
      (accepted_plain result) (by simp)
  | canceled request k id result hpc =>
    exact h.answer (by rw [hpc]; rfl) (by rw [hpc]; rfl)
      (accepted_plain result) (by simp)
  | wrote request response next locked hpc =>
    simp only [LogOk, hpc] at hlog
    have hearly : conn.greeted = true ∨ (conn.Early ∧ NextEarly response next) :=
      h.greeting.imp_right fun he => ⟨he, by have hn := he.2; rw [hpc] at hn; exact hn.2⟩
    cases next with
    | loop =>
      exact h.respond hpc hlog.2 rfl (fun _ => trivial) (hearly.imp_right fun he => .inl he.2)
    | exit =>
      exact h.respond hpc hlog.2 rfl (fun _ => trivial)
        (hearly.imp_right fun he => .inr ⟨he.1, _, rfl⟩)
    | replay id after attachment => exact h.attach hpc
    | setShutdown =>
      exact h.respond hpc hlog.2 rfl (fun _ => trivial) (hearly.imp_right fun he => he.2.elim)
    | drain mode =>
      exact h.respond hpc hlog.2 rfl (fun _ => trivial) (hearly.imp_right fun he => he.2.elim)
  | unanswered request response next locked store hpc =>
    exact h.goto (by simp [hpaired, hpc, Pc.pending]) (hreturn _) trivial
  | relayed n event hpc =>
    simp only [LogOk, hpc] at hlog
    have hg := h.past (by rw [hpc]; rfl)
    refine ⟨h.history.live hlog,
      by simp [hpaired, hpc, Pc.pending, answered_snoc, Written.answered],
      .inl (greeted_snoc conn hg), trivial, fun m task hf => (h.forwards m task hf).snoc rfl,
      fun m e he => (h.outbound m e he).snoc rfl⟩
  | unrelayed n event hpc => exact h.goto (by simp [hpaired, hpc, Pc.pending]) (hreturn _) trivial
  | replayed n id event rest forwarder hpc =>
    simp only [LogOk, hpc] at hlog
    obtain ⟨att, hatt, hid, hrest⟩ := hlog
    have hg := h.past (by rw [hpc]; rfl)
    refine ⟨h.history.replay hatt hrest,
      by simp [hpaired, hpc, Pc.pending, answered_snoc, Written.answered],
      .inl (greeted_snoc conn hg), ⟨att, hatt, hid, ?_⟩,
      fun m task hf => (h.forwards m task hf).replay hatt hrest,
      fun m e he => (h.outbound m e he).replay hatt hrest⟩
    simpa [Written.replayOf] using hrest
  | unreplayed n id event rest forwarder hpc =>
    exact h.goto (by simp [hpaired, hpc, Pc.pending]) (hreturn _) trivial
  | spawn n id forwarder hpc =>
    simp only [LogOk, hpc] at hlog
    obtain ⟨att, hatt, hid, hrest⟩ := hlog
    have hg := h.past (by rw [hpc]; rfl)
    have ha := h.abort id hg
    refine ⟨ha.history, by simp [abort_consumed, hpaired, hpc, Pc.pending],
      ha.greeting.imp_right ?_, trivial, fun m task hf => ?_, ha.outbound⟩
    · intro he; simp [Early, hpc] at he
    · rcases ExtTreeMap.getElem?_insert_some.1 hf with ⟨rfl, -⟩ | ⟨-, hf⟩
      · exact ⟨att, by simpa using hatt, by simpa using hrest⟩
      · exact ha.forwards m task hf
  | setShutdown hpc => exact h.goto (by simp [hpaired, hpc, Pc.pending]) (hreturn _) trivial
  | wake n task hf => exact h.task hf fun m event hm => .inl hm
  | forward n task stepped hf =>
    refine h.task hf fun m event hm => ?_
    split at hm
    · rcases List.mem_append.1 hm with hm | hm
      · exact .inl hm
      · refine .inr ?_
        simp only [Option.mem_toList, Option.map_eq_some_iff, Prod.mk.injEq] at hm
        obtain ⟨e, -, rfl, -⟩ := hm
        rfl
    · exact .inl hm
  | suspend n task hf => exact h.task hf fun m event hm => .inl hm
  | reap n task hf => exact h.task hf fun m event hm => .inl hm

/-- Before the hello is answered, a connection leaves the shared state alone. -/
theorem Disciplined.untouched {a : Act} (h : conn.Disciplined) (hg : conn.greeted = false)
    (hm : Moves s c conn a s' conn') : s' = s := by
  have hearly : conn.Early := h.greeting.resolve_left (by rw [hg]; simp)
  have hloop : conn.pc.inLoop = true → s' = s := fun hl => by
    rw [h.past hl] at hg; cases hg
  have htask : ∀ (n : Nat) (task : Forward), conn.forwards[n]? = some task → s' = s :=
    fun n task hf => by rw [hearly.1] at hf; simp at hf
  cases hm with
  | wrote request response next locked hpc =>
    have he := hearly.2
    rw [hpc] at he
    obtain ⟨rfl, hn⟩ := he
    cases next with
    | loop => rfl
    | exit => rfl
    | _ => exact hn.elim
  | unanswered request response next locked store hpc hd =>
    have he := hearly.2
    rw [hpc] at he
    obtain ⟨rfl, hn⟩ := he
    rcases hd with rfl | ⟨id, after, attachment, rfl, -⟩
    · rfl
    · exact hn.elim
  | answer reply request response called hpc => exact hloop (by rw [hpc]; rfl)
  | acknowledge request id through store hpc => exact hloop (by rw [hpc]; rfl)
  | lock request hpc => exact hloop (by rw [hpc]; rfl)
  | attach request id after attachment store hpc => exact hloop (by rw [hpc]; rfl)
  | cancel request id key k registry hpc => exact hloop (by rw [hpc]; rfl)
  | idle k request hpc => exact hloop (by rw [hpc]; rfl)
  | stop k request mode hpc => exact hloop (by rw [hpc]; rfl)
  | launch k request id spec key registry hpc => exact hloop (by rw [hpc]; rfl)
  | unreplayed n id event rest forwarder hpc => exact hloop (by rw [hpc]; rfl)
  | setShutdown hpc => exact hloop (by rw [hpc]; rfl)
  | forward n task stepped hf => exact htask n task hf
  | reap n task hf => exact htask n task hf
  | _ => rfl

/-- The response frames answer the requests read, in order. -/
theorem wire_answers (log : List Written) :
    (log.map Written.frame).filterMap ServerFrame.answers =
      (answered log).map ClientFrame.requestId := by
  induction log with
  | nil => rfl
  | cons w log ih =>
    simp only [answered] at ih ⊢
    cases w with
    | response request response =>
      simp [Written.frame, ServerFrame.answers, Written.answered, ih]
    | replayed n event => exact ih
    | live n event => exact ih

end Conn

namespace Daemon

variable {P : Type} {toValue : P → Except String Value} {d : Daemon}

theorem disciplined_exec {acts : List (Act P)} (h : exec (step toValue) init acts = some d)
    {c : Nat} {conn : Conn} (hc : d.conns[c]? = some conn) : conn.Disciplined :=
  conns_exec (G := fun _ => True) (fun _ _ _ => trivial) Conn.disciplined_init
    (fun _ _ _ _ _ _ _ hd hm => hd.moves hm) h hc

/-- **Discipline of a connection**, in every reachable state. The response frames it has
written answer, in order and with their request ids, the frames it has read, but for the last
one while that is `pending`. Until the hello is answered none of its steps touches the shared
state, and only a hello of the same major version is answered so. The `n`-th `Run` response
makes attachment `n`; what is written of its replay is a prefix of that replay and stands
after that response, and everything from its forwarder stands after the whole of it. -/
theorem responses_disciplined (toValue : P → Except String Value) (acts : List (Act P))
    (d : Daemon) (h : exec (step toValue) init acts = some d) (c : Nat) (conn : Conn)
    (hc : d.conns[c]? = some conn) :
    (∃ frames : List ClientFrame, conn.consumed = frames.map some ++ conn.pc.pending ∧
      conn.wire.filterMap ServerFrame.answers = frames.map ClientFrame.requestId) ∧
    (conn.greeted = false →
      ∀ (a : Conn.Act) (d' : Daemon), d.step toValue (.conn c a) = some d' →
        d'.shared = d.shared) ∧
    (∀ (request : ClientFrame) (response : ServerResponse),
      .response request response ∈ conn.written → response.isHello = true →
        request.message.greets = true) ∧
    ((attaching conn.written).map ClientFrame.message =
        conn.attached.map fun att => .attachRun att.id att.after) ∧
    (∀ (n : Nat) (att : Attached), conn.attached[n]? = some att →
      replayed n conn.written <+: att.replay) ∧
    (∀ (pre post : List Written) (n : Nat) (event : SequencedEvent),
      conn.written = pre ++ .replayed n event :: post → n < (attaching pre).length) ∧
    (∀ (pre post : List Written) (n : Nat) (event : SequencedEvent),
      conn.written = pre ++ .live n event :: post →
        ∃ att, conn.attached[n]? = some att ∧ replayed n pre = att.replay) := by
  have hd := disciplined_exec h hc
  refine ⟨⟨answered conn.written, hd.paired, Conn.wire_answers conn.written⟩, fun hg a d' hs => ?_,
    hd.history.greets, hd.history.numbered, hd.history.replays,
    fun pre post n event he => hd.history.ordered pre _ post he,
    fun pre post n event he => hd.history.ordered pre _ post he⟩
  obtain ⟨conn₀, shared, conn', hc₀, hstep, rfl⟩ := conn_cases hs
  cases hc.symm.trans hc₀
  exact hd.untouched hg (Conn.step_moves hstep)

/-- A client starts a run, publishes nothing itself, and watches it: the first event reaches it
in the replay, the second from the forwarder; a further request is in hand. -/
def watchedRun : List (Act Unit) :=
  [.accept 0, .conn 0 (.receive (.frame ⟨1, .hello "watcher" ⟨0, 4⟩⟩)), .conn 0 (.write true),
   .conn 0 (.receive (.frame ⟨2, .startRun ⟨"r"⟩ plainRequest "key"⟩)), .conn 0 (.handle .nothing),
   .conn 0 (.check 0), .registry (.startCheck 0), .registry (.startLaunch 0 (.ok ())),
   .registry (.startInsert 0), .registry (.startCount 0), .registry (.startSpawn 0),
   .conn 0 .started, .conn 0 (.write true),
   .registry (.recv ⟨"r"⟩ (some (.text "one"))), .registry (.publish ⟨"r"⟩),
   .conn 0 (.receive (.frame ⟨3, .attachRun ⟨"r"⟩ 0⟩)), .conn 0 (.handle .nothing),
   .conn 0 (.write true), .conn 0 (.write true), .conn 0 .spawn, .conn 0 (.wake 0),
   .registry (.recv ⟨"r"⟩ (some (.text "two"))), .registry (.publish ⟨"r"⟩),
   .conn 0 (.forward 0), .conn 0 .relay, .conn 0 (.write true),
   .conn 0 (.receive (.frame ⟨4, .listRuns⟩))]

theorem responses_disciplined_watchedRun :
    ∃ (d : Daemon) (conn : Conn), exec (step fun _ => .ok .null) init watchedRun = some d ∧
      d.conns[0]? = some conn ∧ conn.wire.filterMap ServerFrame.answers = [1, 2, 3] ∧
      conn.wire.length = 5 ∧ conn.consumed.length = 4 ∧
      ∃ frames : List ClientFrame, conn.consumed = frames.map some ++ conn.pc.pending ∧
        conn.wire.filterMap ServerFrame.answers = frames.map ClientFrame.requestId := by
  have h : ((exec (step fun _ => .ok .null) init watchedRun).bind fun d =>
      d.conns[0]?.map fun conn =>
        (conn.wire.filterMap ServerFrame.answers, conn.wire.length, conn.consumed.length)) =
      some ([1, 2, 3], 5, 4) := by decide +kernel
  obtain ⟨d, hd, h⟩ := Option.bind_eq_some_iff.1 h
  obtain ⟨conn, hc, h⟩ := Option.map_eq_some_iff.1 h
  simp only [Prod.mk.injEq] at h
  exact ⟨d, conn, hd, hc, h.1, h.2.1, h.2.2,
    (responses_disciplined _ watchedRun d hd 0 conn hc).1⟩

end Daemon

end AgencyProxy
