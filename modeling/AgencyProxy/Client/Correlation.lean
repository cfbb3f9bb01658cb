import AgencyProxy.Client

/-!
# Requests and their completion

Where each call of `Client::request` is: in the queue, being sent, waiting under a request
id, or completed; `tally` counts the places, and is one for every call made. Ids come round
after `2^64 - 1` requests, so that two outstanding requests share an id only if that many
were issued in between.
-/

namespace AgencyProxy.Client.Drive

open Std Lts

/-! ## Every call is in one place -/

/-- The call whose request is being sent. -/
def inSend (s : Drive) (k : Nat) : Nat :=
  match s.phase with
  | .sending _ call => if call = k then 1 else 0
  | _ => 0

def completed (s : Drive) : List Nat := s.completions.map Prod.fst

/-- How often call `k` is queued, being sent, waiting and completed. -/
def tally (s : Drive) (k : Nat) : Nat :=
  (s.requests.map PendingRequest.response).count k + s.inSend k + s.pending.count (· == k) +
    s.completed.count k

structure Accounted (s : Drive) : Prop where
  once : ∀ k, s.tally k = if k < s.calls then 1 else 0
  left : s.phase = .returned → s.requests = [] ∧ s.pending = ∅

variable {s s' : Drive}

theorem accounted_init : Accounted init :=
  ⟨fun k => by simp [tally, inSend, completed, init], fun h => by cases h⟩

/-- One more call made. -/
theorem below_succ (k n : Nat) :
    (if k < n + 1 then 1 else 0) = (if k < n then 1 else 0) + if n = k then 1 else 0 := by
  by_cases hn : n = k
  · simp [hn]
  · have : k < n + 1 ↔ k < n := by omega
    simp [hn, this]

theorem toNat_beq (call k : Nat) : (call == k).toNat = if call = k then 1 else 0 := by
  by_cases hc : call = k <;> simp [hc]

theorem Accounted.moves {a : Act} (h : s.Accounted) (hm : Moves s a s') : s'.Accounted := by
  have honce := h.once
  cases hm with
  | quiet _ clients events => exact ⟨honce, h.left⟩
  | queued message running =>
    refine ⟨fun k => ?_, fun hp => absurd hp running⟩
    rw [below_succ, ← honce k]
    simp only [tally, inSend, completed, List.map_append, List.map_cons, List.map_nil,
      List.count_append, List.count_singleton, beq_iff_eq]
    omega
  | refused message hp =>
    refine ⟨fun k => ?_, fun _ => h.left hp⟩
    rw [below_succ, ← honce k]
    simp only [tally, inSend, completed, complete, List.map_append, List.map_cons, List.map_nil,
      List.count_append, List.count_singleton, beq_iff_eq]
    omega
  | unencodable request rest error hp hq =>
    refine ⟨fun k => ?_, fun he => by cases hp.symm.trans he⟩
    have hk := honce k
    simp only [tally, inSend, completed, complete, hp, hq, List.map_append, List.map_cons,
      List.map_nil, List.count_append, List.count_cons, List.count_nil] at hk ⊢
    omega
  | taken request rest hp hq =>
    refine ⟨fun k => ?_, fun he => by cases he⟩
    have hk := honce k
    simp only [tally, inSend, completed, hp, hq, List.map_cons, List.count_cons, beq_iff_eq]
      at hk ⊢
    omega
  | stop _ detail hp =>
    refine ⟨fun k => ?_, fun he => by cases he⟩
    have hk := honce k
    simp only [tally, inSend, completed, hp] at hk ⊢
    exact hk
  | sent frame call hp =>
    refine ⟨fun k => ?_, fun he => by cases he⟩
    have hk := honce k
    simp only [tally, inSend, completed, hp] at hk ⊢
    cases hw : s.pending[frame.requestId]? with
    | none =>
      rw [ExtTreeMap.count_insert_new hw, toNat_beq]
      simp only [Option.map_none, Option.toList_none, List.append_nil]
      omega
    | some old =>
      have hcount := ExtTreeMap.count_insert_old (v := call) (p := (· == k)) hw
      rw [toNat_beq, toNat_beq] at hcount
      simp only [Option.map_some, Option.toList_some, List.map_append, List.map_cons,
        List.map_nil, List.count_append, List.count_singleton, beq_iff_eq]
      omega
  | unsent frame call detail hp =>
    refine ⟨fun k => ?_, fun he => by cases he⟩
    have hk := honce k
    simp only [tally, inSend, completed, complete, hp, List.map_append, List.map_cons,
      List.map_nil, List.count_append, List.count_singleton, beq_iff_eq] at hk ⊢
    omega
  | answered id call response hp hw =>
    refine ⟨fun k => ?_, fun he => by cases hp.symm.trans he⟩
    have hk := honce k
    have hcount := ExtTreeMap.count_erase (p := (· == k)) hw
    rw [toNat_beq] at hcount
    simp only [tally, inSend, completed, hp, List.map_append, List.map_cons,
      List.map_nil, List.count_append, List.count_singleton, beq_iff_eq] at hk ⊢
    omega
  | unknown id response hp => exact ⟨honce, h.left⟩
  | notify id call detail hp hw =>
    refine ⟨fun k => ?_, fun he => by cases hp.symm.trans he⟩
    have hk := honce k
    have hcount := ExtTreeMap.count_erase (p := (· == k)) hw
    rw [toNat_beq] at hcount
    simp only [tally, inSend, completed, complete, hp, List.map_append, List.map_cons,
      List.map_nil, List.count_append, List.count_singleton, beq_iff_eq] at hk ⊢
    omega
  | finish detail hp he =>
    refine ⟨fun k => ?_, fun _ => ⟨rfl, he⟩⟩
    have hk := honce k
    have hdropped : (s.requests.map fun r =>
        (r.response, (.error .closed : Except ClientError ServerResponse))).map Prod.fst =
        s.requests.map PendingRequest.response := by rw [List.map_map]; rfl
    simp only [tally, inSend, completed, hp, List.map_append, hdropped, List.count_append,
      List.map_nil, List.count_nil] at hk ⊢
    omega

theorem accounted_exec {acts : List Act} (h : exec step init acts = some s) : s.Accounted :=
  exec_inv' (fun _ _ _ hi hs => hi.moves (step_moves hs)) accounted_init h

/-- A call completes at most once. -/
theorem Accounted.nodup (h : s.Accounted) : s.completed.Nodup := by
  refine List.nodup_iff_count_le_one.2 fun k => ?_
  have hk := h.once k
  unfold tally at hk
  split at hk <;> omega

/-- Once `drive` has returned, every call made is completed. -/
theorem Accounted.all (h : s.Accounted) (hp : s.phase = .returned) {k : Nat} (hk : k < s.calls) :
    k ∈ s.completed := by
  obtain ⟨hr, he⟩ := h.left hp
  have hone := h.once k
  rw [if_pos hk] at hone
  simp only [tally, inSend, hp, hr, he, List.map_nil, List.count_nil,
    ExtTreeMap.count_empty] at hone
  exact List.count_pos_iff.1 (by omega)

/-! ## Request ids -/

/-- The ids go from 1 to this and round again. -/
def maxIds : Nat := 2 ^ 64 - 1

/-- The call has an id and no result yet. -/
def Outstanding (s : Drive) (call requestId : Nat) : Prop :=
  (call, requestId) ∈ s.numbered ∧ call ∉ s.completed

/-- Fewer than `maxIds` requests have been numbered since any that is outstanding, with the one
to be numbered now. -/
def Uncrowded (s : Drive) : Act → Prop
  | .take _ => ∀ (i call requestId : Nat), s.numbered[i]? = some (call, requestId) →
      call ∉ s.completed → s.numbered.length - i < maxIds
  | _ => True

structure Numbering (s : Drive) : Prop where
  next : s.nextRequestId = s.numbered.length % maxIds + 1
  ids : ∀ (i call requestId : Nat), s.numbered[i]? = some (call, requestId) →
    requestId = i % maxIds + 1
  once : ∀ k, (s.requests.map PendingRequest.response).count k +
    (s.numbered.map Prod.fst).count k ≤ if k < s.calls then 1 else 0
  sending : ∀ frame call, s.phase = .sending frame call → (call, frame.requestId) ∈ s.numbered
  waiting : ∀ id call : Nat, s.pending[id]? = some call → (call, id) ∈ s.numbered

theorem numbering_init : Numbering init :=
  ⟨rfl, by simp [init], by simp [init], by simp [init], by simp [init]⟩

theorem getElem?_snoc {α : Type*} {l : List α} {x y : α} {i : Nat}
    (h : (l ++ [x])[i]? = some y) : l[i]? = some y ∨ (i = l.length ∧ x = y) := by
  rcases Nat.lt_trichotomy i l.length with hi | rfl | hi
  · exact .inl (by rwa [List.getElem?_append_left hi] at h)
  · exact .inr ⟨rfl, by simpa using h⟩
  · rw [List.getElem?_eq_none (by simp; omega)] at h
    cases h

theorem wrappingNext_id (n : Nat) : wrappingNext (n % maxIds + 1) = (n + 1) % maxIds + 1 := by
  unfold wrappingNext maxIds
  omega

/-- A request is taken from the queue and gets the next id. -/
theorem Numbering.number (h : s.Numbering) {request : PendingRequest}
    {rest : List PendingRequest} (phase : Phase) (hq : s.requests = request :: rest)
    (hs : ∀ frame call, phase = .sending frame call →
      frame.requestId = s.nextRequestId ∧ call = request.response) :
    ({ s with
      requests := rest
      nextRequestId := wrappingNext s.nextRequestId
      numbered := s.numbered ++ [(request.response, s.nextRequestId)]
      phase } : Drive).Numbering where
  next := by
    rw [h.next, wrappingNext_id, List.length_append, List.length_singleton]
  ids i call id hi := by
    rcases getElem?_snoc hi with hi | ⟨rfl, he⟩
    · exact h.ids i call id hi
    · rw [← (Prod.mk.inj he).2, h.next]
  once k := by
    have hk := h.once k
    simp only [hq, List.map_cons, List.count_cons, beq_iff_eq, List.map_append, List.map_nil,
      List.count_append, List.count_nil] at hk ⊢
    omega
  sending frame call hp := by
    obtain ⟨hid, rfl⟩ := hs frame call hp
    simp [hid]
  waiting id call hw := List.mem_append_left _ (h.waiting id call hw)

theorem Numbering.moves {a : Act} (h : s.Numbering) (hm : Moves s a s') : s'.Numbering := by
  have hmore : ∀ k, (if k < s.calls then 1 else 0) ≤ if k < s.calls + 1 then 1 else 0 :=
    fun k => by rw [below_succ]; omega
  cases hm with
  | quiet _ clients events => exact ⟨h.next, h.ids, h.once, h.sending, h.waiting⟩
  | queued message running =>
    refine ⟨h.next, h.ids, fun k => ?_, h.sending, h.waiting⟩
    have hk := h.once k
    rw [below_succ]
    simp only [List.map_append, List.map_cons, List.map_nil, List.count_append,
      List.count_singleton, beq_iff_eq]
    omega
  | refused message hp =>
    exact ⟨h.next, h.ids, fun k => (h.once k).trans (hmore k), h.sending, h.waiting⟩
  | unencodable request rest error hp hq =>
    have hn := h.number .selecting hq (by simp)
    exact ⟨hn.next, hn.ids, hn.once, fun frame call he => (by cases hp.symm.trans he), hn.waiting⟩
  | taken request rest hp hq => exact h.number _ hq (by simp +contextual)
  | stop _ detail hp => exact ⟨h.next, h.ids, h.once, by simp, h.waiting⟩
  | sent frame call hp =>
    refine ⟨h.next, h.ids, h.once, by simp, fun id k hw => ?_⟩
    rcases ExtTreeMap.getElem?_insert_some.1 hw with ⟨rfl, rfl⟩ | ⟨-, hw⟩
    · exact h.sending frame call hp
    · exact h.waiting id k hw
  | unsent frame call detail hp => exact ⟨h.next, h.ids, h.once, by simp, h.waiting⟩
  | answered id call response hp hw =>
    exact ⟨h.next, h.ids, h.once, h.sending,
      fun id' k hk => h.waiting id' k (ExtTreeMap.getElem?_erase_some.1 hk).2⟩
  | unknown id response hp => exact ⟨h.next, h.ids, h.once, h.sending, h.waiting⟩
  | notify id call detail hp hw =>
    exact ⟨h.next, h.ids, h.once, h.sending,
      fun id' k hk => h.waiting id' k (ExtTreeMap.getElem?_erase_some.1 hk).2⟩
  | finish detail hp he =>
    refine ⟨h.next, h.ids, fun k => ?_, by simp, h.waiting⟩
    have hk := h.once k
    simp only [List.map_nil, List.count_nil]
    omega

theorem numbering_exec {acts : List Act} (h : exec step init acts = some s) : s.Numbering :=
  exec_inv' (fun _ _ _ hi hs => hi.moves (step_moves hs)) numbering_init h

/-- A call gets one id at most. -/
theorem Numbering.nodup (h : s.Numbering) : (s.numbered.map Prod.fst).Nodup := by
  refine List.nodup_iff_count_le_one.2 fun k => ?_
  have hk := h.once k
  split at hk <;> omega

/-- A call that completed stays so, and what is numbered stays numbered. -/
theorem moves_history {a : Act} (hm : Moves s a s') :
    (∃ more, s'.completions = s.completions ++ more) ∧
      (s'.numbered = s.numbered ∨
        ∃ encoded call, a = .take encoded ∧
          s'.numbered = s.numbered ++ [(call, s.nextRequestId)]) := by
  cases hm with
  | unencodable request rest error => exact ⟨⟨_, rfl⟩, .inr ⟨_, _, rfl, rfl⟩⟩
  | taken request rest => exact ⟨⟨[], by simp⟩, .inr ⟨_, _, rfl, rfl⟩⟩
  | refused message => exact ⟨⟨_, rfl⟩, .inl rfl⟩
  | sent frame call => exact ⟨⟨_, rfl⟩, .inl rfl⟩
  | unsent frame call detail => exact ⟨⟨_, rfl⟩, .inl rfl⟩
  | answered id call response => exact ⟨⟨_, rfl⟩, .inl rfl⟩
  | notify id call detail => exact ⟨⟨_, rfl⟩, .inl rfl⟩
  | finish detail => exact ⟨⟨_, rfl⟩, .inl rfl⟩
  | _ => exact ⟨⟨[], by simp⟩, .inl rfl⟩

/-- No more than an id's whole cycle lies between an outstanding request and a later one. -/
def Spaced (s : Drive) : Prop :=
  ∀ i j call requestId, s.numbered[i]? = some (call, requestId) → call ∉ s.completed →
    i < j → j < s.numbered.length → j - i < maxIds

theorem Spaced.moves {a : Act} (h : s.Spaced) (hc : s.Uncrowded a) (hm : Moves s a s') :
    s'.Spaced := by
  obtain ⟨⟨more, hmore⟩, hn⟩ := moves_history hm
  have hkeep : ∀ call, call ∉ s'.completed → call ∉ s.completed := fun call hnot hin => by
    refine hnot ?_
    simp only [completed, hmore, List.map_append]
    exact List.mem_append_left _ hin
  rcases hn with hn | ⟨encoded, call', rfl, hn⟩
  · intro i j call id hi hnot hlt hj
    rw [hn] at hi hj
    exact h i j call id hi (hkeep call hnot) hlt hj
  · intro i j call id hi hnot hlt hj
    rw [hn] at hi hj
    rw [List.length_append, List.length_singleton] at hj
    rcases getElem?_snoc hi with hi | ⟨rfl, -⟩
    · rcases Nat.lt_succ_iff_lt_or_eq.1 hj with hj | rfl
      · exact h i j call id hi (hkeep call hnot) hlt hj
      · exact hc i call id hi (hkeep call hnot)
    · omega

/-- **Ids of outstanding requests are distinct.** -/
theorem Spaced.injective (h : s.Spaced) (hn : s.Numbering) {k k' id : Nat}
    (hk : s.Outstanding k id) (hk' : s.Outstanding k' id) : k = k' := by
  obtain ⟨i, hi⟩ := List.mem_iff_getElem?.1 hk.1
  obtain ⟨j, hj⟩ := List.mem_iff_getElem?.1 hk'.1
  have hii := hn.ids i k id hi
  have hjj := hn.ids j k' id hj
  have hli := (List.getElem?_eq_some_iff.1 hi).1
  have hlj := (List.getElem?_eq_some_iff.1 hj).1
  have hmod : i % maxIds = j % maxIds := by omega
  rcases Nat.lt_trichotomy i j with hlt | rfl | hlt
  · have hd := h i j k id hi hk.2 hlt hlj
    unfold maxIds at hmod hd
    omega
  · cases hi.symm.trans hj; rfl
  · have hd := h j i k' id hj hk'.2 hlt hli
    unfold maxIds at hmod hd
    omega

/-! ## Responses -/

/-- No response frame with the id. -/
def Unanswered (requestId : Nat) (log : List Entry) : Prop :=
  ∀ response, .response requestId response ∉ log

/-- The response is that of the first response frame with the id since the call's request was
sent under it. -/
def FirstAnswer (log : List Entry) (call requestId : Nat) (response : ServerResponse) : Prop :=
  ∃ pre mid post,
    log = pre ++ .sent call requestId :: (mid ++ .response requestId response :: post) ∧
    Unanswered requestId mid

theorem Unanswered.snoc {requestId : Nat} {log : List Entry} {entry : Entry}
    (h : Unanswered requestId log) (he : ∀ response, entry ≠ .response requestId response) :
    Unanswered requestId (log ++ [entry]) := by
  intro response hm
  rcases List.mem_append.1 hm with hm | hm
  · exact h response hm
  · exact he response (List.mem_singleton.1 hm).symm

theorem FirstAnswer.snoc {log : List Entry} {call requestId : Nat} {response : ServerResponse}
    (h : FirstAnswer log call requestId response) (entry : Entry) :
    FirstAnswer (log ++ [entry]) call requestId response := by
  obtain ⟨pre, mid, post, rfl, hmid⟩ := h
  exact ⟨pre, mid, post ++ [entry], by simp, hmid⟩

structure Traced (s : Drive) : Prop where
  sent : ∀ call requestId, .sent call requestId ∈ s.log → (call, requestId) ∈ s.numbered
  waiting : ∀ id call : Nat, s.pending[id]? = some call →
    ∃ pre mid, s.log = pre ++ .sent call id :: mid ∧ Unanswered id mid
  answered : ∀ call response, (call, .ok response) ∈ s.completions →
    ∃ requestId, (call, requestId) ∈ s.numbered ∧ FirstAnswer s.log call requestId response

theorem traced_init : Traced init := ⟨by simp [init], by simp [init], by simp [init]⟩

/-- A call completes with an error, or none does. -/
theorem Traced.fail (h : s.Traced) {numbered : List (Nat × Nat)}
    {completions : List (Nat × Except ClientError ServerResponse)} {pending : ExtTreeMap Nat Nat}
    (hl : s'.log = s.log) (hn : s'.numbered = s.numbered ++ numbered)
    (hc : s'.completions = s.completions ++ completions)
    (he : ∀ call response, (call, .ok response) ∉ completions) (hp : s'.pending = pending)
    (hw : ∀ id call : Nat, pending[id]? = some call → s.pending[id]? = some call) :
    s'.Traced where
  sent call id hm := by
    rw [hn]; exact List.mem_append_left _ (h.sent call id (hl ▸ hm))
  waiting id call hi := by
    rw [hl]; exact h.waiting id call (hw id call (hp ▸ hi))
  answered call response hm := by
    rw [hc] at hm
    obtain ⟨id, hid, hf⟩ :=
      h.answered call response ((List.mem_append.1 hm).resolve_right (he call response))
    exact ⟨id, by rw [hn]; exact List.mem_append_left _ hid, by rw [hl]; exact hf⟩

theorem Traced.moves {a : Act} (h : s.Traced) (hn : s.Numbering) (hm : Moves s a s') :
    s'.Traced := by
  have hnil : s.numbered = s.numbered ++ [] := (List.append_nil _).symm
  have hnone : s.completions = s.completions ++ [] := (List.append_nil _).symm
  cases hm with
  | sent frame call hp =>
    refine ⟨fun k id hm => ?_, fun id k hw => ?_, fun k response hm => ?_⟩
    · rcases List.mem_append.1 hm with hm | hm
      · exact h.sent k id hm
      · cases List.mem_singleton.1 hm
        exact hn.sending frame call hp
    · rcases ExtTreeMap.getElem?_insert_some.1 hw with ⟨rfl, rfl⟩ | ⟨-, hw⟩
      · exact ⟨s.log, [], rfl, by simp [Unanswered]⟩
      · obtain ⟨pre, mid, hl, hmid⟩ := h.waiting id k hw
        exact ⟨pre, mid ++ [.sent call frame.requestId], by simp [hl], hmid.snoc (by simp)⟩
    · rcases List.mem_append.1 hm with hm | hm
      · obtain ⟨id, hid, hf⟩ := h.answered k response hm
        exact ⟨id, hid, hf.snoc _⟩
      · simp at hm
  | answered id call response hp hw =>
    refine ⟨fun k id' hm => ?_, fun id' k hk => ?_, fun k r hm => ?_⟩
    · rcases List.mem_append.1 hm with hm | hm
      · exact h.sent k id' hm
      · cases List.mem_singleton.1 hm
    · obtain ⟨hne, hk⟩ := ExtTreeMap.getElem?_erase_some.1 hk
      obtain ⟨pre, mid, hl, hmid⟩ := h.waiting id' k hk
      refine ⟨pre, mid ++ [.response id response], by simp [hl], hmid.snoc fun r he => ?_⟩
      cases he
      exact hne rfl
    · rcases List.mem_append.1 hm with hm | hm
      · obtain ⟨id', hid, hf⟩ := h.answered k r hm
        exact ⟨id', hid, hf.snoc _⟩
      · cases List.mem_singleton.1 hm
        obtain ⟨pre, mid, hl, hmid⟩ := h.waiting id call hw
        exact ⟨id, hn.waiting id call hw, pre, mid, [], by simp [hl], hmid⟩
  | unknown id response hp hw =>
    refine ⟨fun k id' hm => ?_, fun id' k hk => ?_, fun k r hm => ?_⟩
    · rcases List.mem_append.1 hm with hm | hm
      · exact h.sent k id' hm
      · cases List.mem_singleton.1 hm
    · obtain ⟨pre, mid, hl, hmid⟩ := h.waiting id' k hk
      refine ⟨pre, mid ++ [.response id response], by simp [hl], hmid.snoc fun r he => ?_⟩
      cases he
      cases hw.symm.trans hk
    · obtain ⟨id', hid, hf⟩ := h.answered k r hm
      exact ⟨id', hid, hf.snoc _⟩
  | unencodable request rest error =>
    exact h.fail rfl rfl rfl (by simp) rfl fun _ _ hi => hi
  | taken request rest => exact h.fail rfl rfl hnone (by simp) rfl fun _ _ hi => hi
  | refused message => exact h.fail rfl hnil rfl (by simp) rfl fun _ _ hi => hi
  | unsent frame call detail => exact h.fail rfl hnil rfl (by simp) rfl fun _ _ hi => hi
  | notify id call detail =>
    exact h.fail rfl hnil rfl (by simp) rfl fun _ _ hi => (ExtTreeMap.getElem?_erase_some.1 hi).2
  | finish detail => exact h.fail rfl hnil rfl (by simp) rfl fun _ _ hi => hi
  | _ => exact h.fail rfl hnil hnone (by simp) rfl fun _ _ hi => hi

theorem traced_exec {acts : List Act} (h : exec step init acts = some s) : s.Traced :=
  (exec_inv' (I := fun s => s.Traced ∧ s.Numbering)
    (fun _ _ _ hi hs => ⟨hi.1.moves hi.2 (step_moves hs), hi.2.moves (step_moves hs)⟩)
    ⟨traced_init, numbering_init⟩ h).1

/-! ## The end -/

/-- `drive` is out of its loop. -/
def isOver (s : Drive) : Bool :=
  match s.phase with
  | .stopped _ | .returned => true
  | _ => false

/-- Calls complete with errors only. -/
def OnlyFails (s s' : Drive) : Prop :=
  s.isOver = true → s'.isOver = true ∧
    ∃ more, s'.completions = s.completions ++ more ∧ ∀ p ∈ more, ∃ error, p.2 = .error error

theorem OnlyFails.trans {m : Drive} (h : s.OnlyFails m) (h' : m.OnlyFails s') :
    s.OnlyFails s' := by
  intro hs
  obtain ⟨hm, more, hc, he⟩ := h hs
  obtain ⟨hs', more', hc', he'⟩ := h' hm
  refine ⟨hs', more ++ more', by rw [hc', hc, List.append_assoc], fun p hp => ?_⟩
  rcases List.mem_append.1 hp with hp | hp
  · exact he p hp
  · exact he' p hp

theorem moves_onlyFails {a : Act} (hm : Moves s a s') : s.OnlyFails s' := by
  intro hover
  have hselect : s.phase ≠ .selecting := fun hp => by simp [isOver, hp] at hover
  have hsend : ∀ frame call, s.phase ≠ .sending frame call := fun frame call hp => by
    simp [isOver, hp] at hover
  cases hm with
  | quiet _ clients events => exact ⟨hover, [], by simp, by simp⟩
  | queued message => exact ⟨hover, [], by simp, by simp⟩
  | refused message => exact ⟨hover, _, rfl, by simp⟩
  | notify id call detail => exact ⟨hover, _, rfl, by simp⟩
  | finish detail => exact ⟨rfl, _, rfl, by simp⟩
  | unencodable request rest error hp => exact absurd hp hselect
  | taken request rest hp => exact absurd hp hselect
  | stop _ detail hp => exact absurd hp hselect
  | sent frame call hp => exact absurd hp (hsend frame call)
  | unsent frame call detail hp => exact absurd hp (hsend frame call)
  | answered id call response hp => exact absurd hp hselect
  | unknown id response hp => exact absurd hp hselect

theorem onlyFails_exec {acts : List Act} (h : exec step s acts = some s') : s.OnlyFails s' :=
  exec_mono (I := fun _ => True) (C := fun _ _ => True) (R := OnlyFails)
    (fun _ hs => ⟨hs, [], by simp, by simp⟩) (fun _ _ _ h h' => h.trans h')
    (fun _ _ _ _ _ _ => trivial) (fun _ _ _ _ _ hs => moves_onlyFails (step_moves hs)) trivial
    (along_of_forall (fun _ _ => trivial) _ _) h

/-- **Every request completes once, with its own answer or an error.** In every run in which
fewer than `2^64 - 1` requests are numbered while one is outstanding: no call completes twice,
and none gets two ids; a request that cannot be encoded or sent completes with an error; an
`Ok` is the first response frame with the call's id since its request was sent under that id;
calls that are outstanding together have different ids, none of them zero; and when `drive`
has returned, every call that was not completed when it left its loop, queued ones and later
ones too, is completed with an error. -/
theorem requests_complete (acts ls rest : List Act) (m s : Drive) (he : acts = ls ++ rest)
    (hm : exec step init ls = some m) (h : exec step init acts = some s)
    (hc : Along step Uncrowded init acts) :
    (s.completed.Nodup ∧ (s.numbered.map Prod.fst).Nodup) ∧
    (∀ (request : PendingRequest) (queued : List PendingRequest) (error : String) (s' : Drive),
      s.requests = request :: queued → s.step (.take (.error error)) = some s' →
        (request.response, .error (.protocol error)) ∈ s'.completions) ∧
    (∀ (frame : ClientFrame) (call : Nat) (detail : String) (s' : Drive),
      s.phase = .sending frame call → s.step (.sent (.error detail)) = some s' →
        (call, .error (.transport detail)) ∈ s'.completions) ∧
    (∀ (call : Nat) (response : ServerResponse), (call, .ok response) ∈ s.completions →
      ∃ requestId, (call, requestId) ∈ s.numbered ∧
        FirstAnswer s.log call requestId response) ∧
    (∀ k k' requestId : Nat, s.Outstanding k requestId → s.Outstanding k' requestId → k = k') ∧
    (∀ k requestId : Nat, s.Outstanding k requestId → requestId ≠ 0) ∧
    (m.isOver = true → s.phase = .returned → ∀ k < s.calls, k ∉ m.completed →
      ∃ error, (k, .error error) ∈ s.completions) := by
  have hacc := accounted_exec h
  have hnum := numbering_exec h
  have hspaced : s.Spaced := exec_inv (I := Spaced)
    (fun _ _ _ hi hu hs => hi.moves hu (step_moves hs))
    (fun i j call id hi => by simp [init] at hi) hc h
  refine ⟨⟨hacc.nodup, hnum.nodup⟩, fun request queued error s' hq hs => ?_,
    fun frame call detail s' hp hs => ?_, (traced_exec h).answered,
    fun k k' id hk hk' => hspaced.injective hnum hk hk', fun k id hk => ?_,
    fun hover hret k hk hnot => ?_⟩
  · simp only [step, take, hq] at hs
    split at hs
    · rename_i he; cases he; cases hs; simp [complete]
    · rename_i he; cases he
    · cases hs
  · simp only [step, sent, hp] at hs
    cases hs
    simp [complete]
  · obtain ⟨i, hi⟩ := List.mem_iff_getElem?.1 hk.1
    rw [hnum.ids i k id hi]
    omega
  · obtain ⟨m', hm', hrest⟩ := exec_append_some.1 (he ▸ h)
    cases hm.symm.trans hm'
    obtain ⟨-, more, hmore, herr⟩ := onlyFails_exec hrest hover
    obtain ⟨⟨k', result⟩, hp, rfl⟩ := List.mem_map.1 (hacc.all hret hk)
    have hin : (k', result) ∈ more := by
      rw [hmore] at hp
      exact (List.mem_append.1 hp).resolve_left fun hp => hnot (List.mem_map.2 ⟨_, hp, rfl⟩)
    obtain ⟨error, rfl⟩ : ∃ error, result = .error error := herr _ hin
    exact ⟨error, hp⟩

/-- A run that is short of a whole cycle of ids is never crowded. -/
theorem along_uncrowded {acts : List Act} (h : s.numbered.length + acts.length < maxIds) :
    Along step Uncrowded s acts := by
  induction acts generalizing s with
  | nil => trivial
  | cons a acts ih =>
    rw [List.length_cons] at h
    refine ⟨?_, fun s' hs => ih ?_⟩
    · cases a with
      | take encoded => exact fun i call id _ _ => by omega
      | _ => trivial
    · obtain ⟨-, hn | ⟨encoded, call, -, hn⟩⟩ := moves_history (step_moves hs)
      · rw [hn]; omega
      · rw [hn, List.length_append, List.length_singleton]; omega

/-- Three calls: the second is answered before the first, the third cannot be encoded; then the
proxy closes the connection on the first, and a fourth call comes too late. -/
def closedOnFirst : List Act :=
  [.request .listRuns, .request .probeProviders, .request .readAccountUsage,
   .take (.ok ()), .sent (.ok ()), .take (.ok ()), .sent (.ok ()), .take (.error "not a string"),
   .receive (.frame (.response 2 .accepted)), .receive (.frame (.response 2 .accepted)),
   .receive .notText, .receive .close, .request .listRuns, .notify 1, .finish]

theorem requests_complete_closedOnFirst :
    ∃ m s : Drive, exec step init (closedOnFirst.take 12) = some m ∧
      exec step init closedOnFirst = some s ∧ s.phase = .returned ∧ s.calls = 4 ∧
      ∀ k < s.calls, k ∉ m.completed → ∃ error, (k, .error error) ∈ s.completions := by
  have hm : (exec step init (closedOnFirst.take 12)).map isOver = some true := by decide +kernel
  have h : (exec step init closedOnFirst).map calls = some 4 := by decide +kernel
  obtain ⟨m, hm, hover⟩ := Option.map_eq_some_iff.1 hm
  obtain ⟨s, hs, hcalls⟩ := Option.map_eq_some_iff.1 h
  have hret : s.phase = .returned := by
    obtain ⟨n, -, hlast⟩ :=
      exec_append_some.1 (show exec step init (closedOnFirst.take 14 ++ [.finish]) = some s from hs)
    exact finish_phase (exec_single.1 hlast)
  exact ⟨m, s, hm, hs, hret, hcalls, (requests_complete closedOnFirst (closedOnFirst.take 12)
    (closedOnFirst.drop 12) m s rfl hm hs (along_uncrowded (by decide))).2.2.2.2.2.2 hover hret⟩

end AgencyProxy.Client.Drive
