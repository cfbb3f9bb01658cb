import AgencyProxy.Delivery

/-!
# The two forwarders agree

`unixForward` and `forwardRunEvents` differ in one place: the WebSocket copy checks each event of
a replay against `last_sequence` again before it hands it on. On an attachment's feed the check
never skips (`Feed.last_lt`), so from an accepted attach on the two copies take the same steps.
-/

namespace AgencyProxy

open AgencyProxy.Runtime AgencyProxy.Broadcast Lts Std

/-- In a sound view both copies take the same step. -/
theorem View.Ok.forward_agree {store : Store} {run : LiveRun} {v : View} {f : Forwarder}
    (h : v.Ok store run) (hv : v.stage = .forwarding f) (act : Forwarder.Act) :
    unixForward store v.id f act = forwardRunEvents store v.id f act := by
  cases act with
  | recv accepts => rfl
  | reattach => rfl
  | replay accepts =>
    cases hp : f.phase with
    | receiving => simp only [unixForward, forwardRunEvents, hp]
    | lagged => simp only [unixForward, forwardRunEvents, hp]
    | ended => simp only [unixForward, forwardRunEvents, hp]
    | replaying rest events =>
      cases rest with
      | nil => simp only [unixForward, forwardRunEvents, hp]
      | cons event rest =>
        cases h with
        | writing => cases hv
        | closed => cases hv
        | forwarding attached =>
          cases hv
          obtain ⟨hlt, -⟩ := attached.replay accepts hp
          simp only [unixForward, forwardRunEvents, hp]
          rw [if_neg (by omega)]

/-- An attachment that both transports go on with: sound, and there. -/
structure Delivery.Attached (s : Delivery) : Prop where
  inv : s.Inv
  view : ∃ v, s.view = some v

namespace Delivery

theorem view_step {t : Transport} {s s' : Delivery} {a : Act} (hview : ∃ v, s.view = some v)
    (h : s.step t a = some s') : ∃ v, s'.view = some v := by
  obtain ⟨v, hv⟩ := hview
  cases a with
  | other op =>
    simp only [step] at h
    split at h
    · cases h
      exact ⟨v, hv⟩
    · cases h
  | attach id after => simp [step, hv] at h
  | write succeeds =>
    simp only [step, hv] at h
    split at h
    · split at h <;> (cases h; exact ⟨_, rfl⟩)
    · cases h
  | spawn =>
    simp only [step, hv] at h
    split at h
    · cases h
      exact ⟨_, rfl⟩
    · cases h
  | forward act =>
    simp only [step, hv] at h
    split at h
    · split at h
      · cases h
        exact ⟨_, rfl⟩
      · cases h
    · cases h
  | abort =>
    simp only [step, hv] at h
    split at h
    · cases h
      exact ⟨_, rfl⟩
    · cases h

theorem Attached.step {t : Transport} {s s' : Delivery} {a : Act} (h : s.Attached)
    (hs : s.step t a = some s') : s'.Attached :=
  ⟨h.inv.step hs, view_step h.view hs⟩

theorem Attached.step_agree {s : Delivery} (h : s.Attached) (a : Act) :
    s.step .unix a = s.step .webSocket a := by
  obtain ⟨v, hv⟩ := h.view
  cases a with
  | other op => rfl
  | attach id after => simp only [Delivery.step, hv]
  | write succeeds => rfl
  | spawn => rfl
  | abort => rfl
  | forward act =>
    obtain ⟨run, hok⟩ := h.inv.view v hv
    simp only [Delivery.step, hv]
    cases hst : v.stage with
    | writing rest f => rfl
    | closed => rfl
    | forwarding f => simp only [Transport.forward, hok.forward_agree hst act]

/-- A Unix connection that writes a whole replay. -/
theorem exec_writes (store : Store) (id : RunId) (after : Nat) (f : Forwarder)
    (rest emitted : List SequencedEvent) :
    exec (Delivery.step .unix) ⟨store, some ⟨id, after, .writing rest f, emitted, none⟩⟩
        (List.replicate rest.length (.write true)) =
      some ⟨store, some ⟨id, after, .writing [] f, emitted ++ rest, none⟩⟩ := by
  induction rest generalizing emitted with
  | nil => simp
  | cons event rest ih =>
    rw [List.length_cons, List.replicate_succ, exec_cons_some]
    refine ⟨_, rfl, ?_⟩
    rw [ih, List.append_assoc, List.singleton_append]

/-- Both transports start the forwarder after the replay, from the same `last_sequence`. -/
theorem attach_agree {s : Delivery} (hview : s.view = none) (id : RunId) (after : Nat) :
    ∃ n, exec (Delivery.step .unix) s
        (.attach id after :: (List.replicate n (.write true) ++ [.spawn])) =
      exec (Delivery.step .webSocket) s [.attach id after] := by
  cases hatt : s.store.attach id after with
  | error e => exact ⟨0, by simp [exec, Delivery.step, hview, hatt]⟩
  | ok p =>
    obtain ⟨attachment, store⟩ := p
    refine ⟨attachment.replay.length, ?_⟩
    have hweb : exec (Delivery.step .webSocket) s [.attach id after] = some
        ⟨store, some ⟨id, after, .forwarding (.start attachment after), attachment.replay,
          none⟩⟩ := by
      simp [exec, Delivery.step, hview, hatt]
    rw [hweb, exec_cons_some]
    refine ⟨⟨store, some ⟨id, after, .writing attachment.replay (.start attachment after), [],
      none⟩⟩, by simp [Delivery.step, hview, hatt], ?_⟩
    rw [exec_append_some]
    exact ⟨_, exec_writes store id after _ attachment.replay [], rfl⟩

end Delivery

/-- **The two forwarders agree.** In every state that an attachment over either transport can
reach, whatever others go on to do and whatever the sinks answer, the two copies run in
lockstep: the same steps are possible, and every one leaves the same emitted events, the same
`last_sequence` and the same place in the loop, its end included. They also start alike: a Unix
attachment that has written its replay is where the WebSocket one is at once. -/
theorem forwarders_agree (t : Transport) (acts : List Delivery.Act) (s : Delivery)
    (h : exec (Delivery.step t) .init acts = some s) :
    (∀ v, s.view = some v → ∀ later : List Delivery.Act,
      exec (Delivery.step .unix) s later = exec (Delivery.step .webSocket) s later) ∧
    (s.view = none → ∀ (id : RunId) (after : Nat), ∃ n,
      exec (Delivery.step .unix) s
          (.attach id after :: (List.replicate n (.write true) ++ [.spawn])) =
        exec (Delivery.step .webSocket) s [.attach id after]) := by
  constructor
  · intro v hv later
    have hattached : s.Attached := ⟨Delivery.inv_exec h, v, hv⟩
    exact exec_congr (fun _ _ _ hi hs => hi.step hs) (fun _ a hi => hi.step_agree a) hattached later
  · intro hview id after
    exact Delivery.attach_agree hview id after

/-- An attachment from the start of a run whose one event was acknowledged. -/
def ackedAttachment : List Delivery.Act :=
  [.other (.insert ⟨"r"⟩ plainRequest),
   .other (.publish ⟨"r"⟩ (.text "1") (some .running) none),
   .other (.acknowledge ⟨"r"⟩ 1), .attach ⟨"r"⟩ 0]

theorem forwarders_agree_ackedAttachment :
    ∃ s v, exec (Delivery.step .webSocket) .init ackedAttachment = some s ∧ s.view = some v ∧
      exec (Delivery.step .unix) s
          [.other (.publish ⟨"r"⟩ (.text "2") none none), .forward (.recv true)] =
        exec (Delivery.step .webSocket) s
          [.other (.publish ⟨"r"⟩ (.text "2") none none), .forward (.recv true)] :=
  ⟨_, _, rfl, rfl, (forwarders_agree .webSocket ackedAttachment _ rfl).1 _ rfl _⟩

end AgencyProxy
