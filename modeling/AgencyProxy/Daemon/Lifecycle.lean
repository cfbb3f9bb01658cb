import AgencyProxy.Daemon

/-!
# The lifecycle lock

Who holds the lifecycle lock is read off the connections' program points. While a connection
holds it, `stopping` is its to change, and a `start` call runs only under it; so once
`stopping` is set no `start` call is in flight, and none begins.
-/

namespace AgencyProxy

open AgencyProxy.Runtime Std Lts

/-- The connection holds the lifecycle lock. -/
def Pc.holdsLock : Pc → Bool
  | .locked _ | .starting _ _ | .stopping => true
  | .answering _ _ _ held => held
  | _ => false

/-- A request that stops the daemon when it is accepted. -/
def ClientFrame.shutsDown (frame : ClientFrame) : Bool :=
  match frame.message with
  | .shutdownIfIdle | .shutdown _ => true
  | _ => false

/-- The response announces a shutdown that is still to be carried out. -/
def Next.shuts : Next → Bool
  | .setShutdown | .drain _ => true
  | _ => false

namespace Daemon

/-- What a program point says about the lifecycle. -/
def PcOk (stopping : Bool) : Pc → Prop
  | .starting request _ => stopping = false ∧ request.shutsDown = false
  | .cancelling request _ => request.shutsDown = false
  | .answering request response next locked =>
    if next.shuts then locked = true ∧ stopping = true
    else request.shutsDown = true → response ≠ .accepted
  | .stopping => stopping = true
  | _ => True

structure Lifecycle (d : Daemon) : Prop where
  holder : ∀ (c : Nat) (conn : Conn), d.conns[c]? = some conn →
    (conn.pc.holdsLock = true ↔ d.shared.holder = some c)
  known : ∀ c : Nat, d.shared.holder = some c → d.conns[c]? ≠ none
  flights : ∀ (k : Nat) (call : StartCall), d.shared.registry.starts[k]? = some call →
    call.settled = false → ∃ (c : Nat) (conn : Conn) (request : ClientFrame),
      d.conns[c]? = some conn ∧ conn.pc = .starting request k
  pcs : ∀ (c : Nat) (conn : Conn), d.conns[c]? = some conn → PcOk d.shared.stopping conn.pc
  drains : ∀ (c : Nat) (drain : Drain), d.shared.drains[c]? = some drain →
    d.shared.stopping = true
  flag : d.shared.shutdown = true → d.shared.stopping = true
  answered : ∀ (c : Nat) (conn : Conn) (request : ClientFrame), d.conns[c]? = some conn →
    .response request .accepted ∈ conn.written → request.shutsDown = true →
      d.shared.stopping = true

theorem lifecycle_init : init.Lifecycle where
  holder c conn h := by simp [init] at h
  known c h := by simp [init, Shared.init] at h
  flights k call h := by simp [init, Shared.init, Registry.init] at h
  pcs c conn h := by simp [init] at h
  drains c drain h := by simp [init, Shared.init] at h
  flag h := by simp [init, Shared.init] at h
  answered c conn request h := by simp [init] at h

variable {P : Type} {toValue : P → Except String Value} {d d' : Daemon} {c : Nat}
  {conn conn' : Conn} {shared : Shared}

theorem PcOk.mono {stopping stopping' : Bool} {pc : Pc} (h : PcOk stopping pc)
    (hs : stopping = true → stopping' = true)
    (hstart : ∀ request k, pc = .starting request k → stopping' = stopping) :
    PcOk stopping' pc := by
  cases pc with
  | starting request k => exact ⟨(hstart request k rfl).trans h.1, h.2⟩
  | answering request response next locked =>
    by_cases hn : next.shuts = true
    · simp only [PcOk, hn, if_true] at h ⊢
      exact ⟨h.1, hs h.2⟩
    · simp only [PcOk, hn] at h ⊢
      exact h
  | stopping => exact hs h
  | _ => exact h

/-- A connection moves on; `shared` is what it leaves. -/
theorem Lifecycle.move (h : d.Lifecycle) (hc : d.conns[c]? = some conn)
    (hholder : conn'.pc.holdsLock = true ↔ shared.holder = some c)
    (hothers : ∀ c', c ≠ c' → (shared.holder = some c' ↔ d.shared.holder = some c'))
    (hflights : ∀ (k : Nat) (call : StartCall), shared.registry.starts[k]? = some call →
      call.settled = false → (∃ request, conn'.pc = .starting request k) ∨
        (∃ call', d.shared.registry.starts[k]? = some call' ∧ call'.settled = false ∧
          ∀ request, conn.pc ≠ .starting request k))
    (hpc : PcOk shared.stopping conn'.pc)
    (hstop : d.shared.stopping = true → shared.stopping = true)
    (hlocked : shared.stopping ≠ d.shared.stopping → conn.pc.holdsLock = true)
    (hdrains : ∀ (c' : Nat) (drain : Drain), shared.drains[c']? = some drain →
      shared.stopping = true ∨ d.shared.drains[c']? = some drain)
    (hflag : shared.shutdown = true → shared.stopping = true ∨ d.shared.shutdown = true)
    (hwritten : ∀ request, .response request .accepted ∈ conn'.written →
      request.shutsDown = true → shared.stopping = true ∨
        .response request .accepted ∈ conn.written) :
    ({ d with shared, conns := d.conns.insert c conn' } : Daemon).Lifecycle := by
  refine ⟨fun c' conn₀ h₀ => ?_, fun c' hh => ?_, fun k call hk hu => ?_, fun c' conn₀ h₀ => ?_,
    fun c' drain hd => ?_, fun hf => ?_, fun c' conn₀ request h₀ hw hr => ?_⟩
  · rcases ExtTreeMap.getElem?_insert_some.1 h₀ with ⟨rfl, rfl⟩ | ⟨hne, h₀⟩
    · exact hholder
    · rw [hothers c' hne]; exact h.holder c' conn₀ h₀
  · by_cases he : c = c'
    · subst he; simp
    · rw [ExtTreeMap.getElem?_insert_of_ne he]
      exact h.known c' ((hothers c' he).1 hh)
  · rcases hflights k call hk hu with ⟨request, hr⟩ | ⟨call', hk', hu', hne⟩
    · exact ⟨c, conn', request, ExtTreeMap.getElem?_insert_self, hr⟩
    · obtain ⟨c', conn₀, request, h₀, hr⟩ := h.flights k call' hk' hu'
      have he : c ≠ c' := by
        rintro rfl
        cases hc.symm.trans h₀
        exact hne request hr
      exact ⟨c', conn₀, request, by rw [ExtTreeMap.getElem?_insert_of_ne he]; exact h₀, hr⟩
  · rcases ExtTreeMap.getElem?_insert_some.1 h₀ with ⟨rfl, rfl⟩ | ⟨hne, h₀⟩
    · exact hpc
    · refine (h.pcs c' conn₀ h₀).mono hstop fun request k hs => ?_
      -- Another connection that is starting a run holds the lock, so `stopping` is not ours.
      by_contra hch
      have hh : d.shared.holder = some c := (h.holder c conn hc).1 (hlocked hch)
      have hh' : d.shared.holder = some c' := (h.holder c' conn₀ h₀).1 (by rw [hs]; rfl)
      cases hh.symm.trans hh'
      exact hne rfl
  · rcases hdrains c' drain hd with hs | hd
    · exact hs
    · exact hstop (h.drains c' drain hd)
  · rcases hflag hf with hs | hf
    · exact hs
    · exact hstop (h.flag hf)
  · rcases ExtTreeMap.getElem?_insert_some.1 h₀ with ⟨rfl, rfl⟩ | ⟨-, h₀⟩
    · rcases hwritten request hw hr with hs | hw
      · exact hs
      · exact hstop (h.answered c conn request hc hw hr)
    · exact hstop (h.answered c' conn₀ request h₀ hw hr)

/-- A connection moves on without touching the lifecycle or the calls of `start`. -/
theorem Lifecycle.calm (h : d.Lifecycle) (hc : d.conns[c]? = some conn)
    (hs : shared.holder = d.shared.holder ∧ shared.stopping = d.shared.stopping ∧
      shared.shutdown = d.shared.shutdown ∧ shared.drains = d.shared.drains ∧
      shared.registry.starts = d.shared.registry.starts)
    (hlock : conn'.pc.holdsLock = conn.pc.holdsLock)
    (hstart : ∀ request k, conn.pc = .starting request k → conn'.pc = .starting request k)
    (hpc : PcOk d.shared.stopping conn'.pc)
    (hwritten : ∀ request, .response request .accepted ∈ conn'.written →
      request.shutsDown = true → .response request .accepted ∈ conn.written) :
    ({ d with shared, conns := d.conns.insert c conn' } : Daemon).Lifecycle := by
  obtain ⟨h1, h2, h3, h4, h5⟩ := hs
  refine h.move hc ?_ (fun c' _ => by rw [h1]) (fun k call hk hu => ?_) (by rw [h2]; exact hpc)
    (fun hst => by rw [h2]; exact hst) (fun hne => absurd h2 hne)
    (fun c' drain hd => .inr (by rw [← h4]; exact hd)) (fun hf => .inr (by rw [← h3]; exact hf))
    (fun request hw hr => .inr (hwritten request hw hr))
  · rw [hlock, h1]; exact h.holder c conn hc
  · rw [h5] at hk
    by_cases hex : ∃ request, conn.pc = .starting request k
    · obtain ⟨request, hr⟩ := hex
      exact .inl ⟨request, hstart request k hr⟩
    · exact .inr ⟨call, hk, hu, fun request hr => hex ⟨request, hr⟩⟩

/-- A connection is done with a response, written or not, and drops the guard it may have. -/
theorem Lifecycle.leave {request : ClientFrame} {response : ServerResponse} {next : Next}
    {locked : Bool} (h : d.Lifecycle) (hc : d.conns[c]? = some conn)
    (hpc : conn.pc = .answering request response next locked)
    (hs : shared.holder = (d.shared.release locked).holder ∧
      shared.stopping = d.shared.stopping ∧ shared.shutdown = d.shared.shutdown ∧
      shared.registry.starts = d.shared.registry.starts)
    (hdrains : ∀ (c' : Nat) (drain : Drain), shared.drains[c']? = some drain →
      d.shared.stopping = true ∨ d.shared.drains[c']? = some drain)
    (hfree : conn'.pc.holdsLock = false) (hok : ∀ stopping, PcOk stopping conn'.pc)
    (hwritten : ∀ q, .response q .accepted ∈ conn'.written → q.shutsDown = true →
      d.shared.stopping = true ∨ .response q .accepted ∈ conn.written) :
    ({ d with shared, conns := d.conns.insert c conn' } : Daemon).Lifecycle := by
  obtain ⟨h1, h2, h3, h4⟩ := hs
  have hheld := h.holder c conn hc
  rw [hpc] at hheld
  have hrel : shared.holder ≠ some c ∧
      ∀ c', c ≠ c' → (shared.holder = some c' ↔ d.shared.holder = some c') := by
    rw [h1]
    cases locked with
    | false => exact ⟨fun hh => by simpa [Pc.holdsLock] using hheld.2 hh, fun _ _ => Iff.rfl⟩
    | true =>
      have hh : d.shared.holder = some c := hheld.1 rfl
      refine ⟨by simp [Shared.release], fun c' hne => ?_⟩
      simp [Shared.release, hh, hne]
  refine h.move hc (by simp [hfree, hrel.1]) hrel.2 (fun k call hk hu => ?_) (hok _)
    (fun hst => by rw [h2]; exact hst) (fun hne => absurd h2 hne)
    (fun c' drain hd => by rw [h2]; exact hdrains c' drain hd)
    (fun hf => .inr (by rw [← h3]; exact hf))
    (fun q hw hq => by rw [h2]; exact hwritten q hw hq)
  rw [h4] at hk
  exact .inr ⟨call, hk, hu, fun request => by rw [hpc]; simp⟩

theorem release_fields (s : Shared) (locked : Bool) :
    (s.release locked).stopping = s.stopping ∧ (s.release locked).shutdown = s.shutdown ∧
      (s.release locked).drains = s.drains := by
  unfold Shared.release; split <;> exact ⟨rfl, rfl, rfl⟩

theorem greet_ok (frame : ClientFrame) (stopping : Bool) :
    (Conn.greet frame).holdsLock = false ∧ PcOk stopping (Conn.greet frame) := by
  unfold Conn.greet
  split
  · split
    · exact ⟨rfl, by simp [PcOk, Next.shuts]⟩
    · exact ⟨rfl, by simp [PcOk, Next.shuts]⟩
  · exact ⟨rfl, by simp [PcOk, Next.shuts]⟩

theorem not_shutsDown {request : ClientFrame} (h : request.message.locks = false) :
    request.shutsDown = false := by
  unfold ClientFrame.shutsDown
  split
  · rename_i hm; rw [hm] at h; cases h
  · rename_i hm; rw [hm] at h; cases h
  · rfl

/-- A response is written, and the connection goes on with what comes after it. -/
theorem Lifecycle.wrote {request : ClientFrame} {response : ServerResponse} {next : Next}
    {locked : Bool} (h : d.Lifecycle) (hc : d.conns[c]? = some conn)
    (hpc : conn.pc = .answering request response next locked) :
    ({ d with
      shared := (Conn.proceed d.shared c
        { conn with written := conn.written ++ [.response request response] } locked next).1
      conns := d.conns.insert c (Conn.proceed d.shared c
        { conn with written := conn.written ++ [.response request response] } locked next).2 } :
      Daemon).Lifecycle := by
  have hok := h.pcs c conn hc
  have hheld := h.holder c conn hc
  obtain ⟨hr1, hr2, hr3⟩ := release_fields d.shared locked
  rw [hpc] at hok hheld
  have hlast : ∀ q, .response q .accepted ∈ conn.written ++ [.response request response] →
      q.shutsDown = true → next.shuts = true ∨ .response q .accepted ∈ conn.written := by
    intro q hw hq
    rcases List.mem_append.1 hw with hw | hw
    · exact .inr hw
    · simp only [List.mem_singleton, Written.response.injEq] at hw
      obtain ⟨rfl, rfl⟩ := hw
      by_cases hn : next.shuts = true
      · exact .inl hn
      · simp only [PcOk, hn] at hok
        exact absurd rfl (hok hq)
  cases next with
  | setShutdown =>
    simp only [PcOk, Next.shuts, if_true] at hok
    refine h.move hc ?_ (fun c' _ => Iff.rfl)
      (fun k call hk hu => .inr ⟨call, hk, hu, by simp [hpc]⟩) hok.2 (fun hst => hst)
      (fun hne => absurd rfl hne) (fun _ _ hd => .inr hd) (fun hf => .inr hf)
      (fun _ _ _ => .inl hok.2)
    simp only [Conn.proceed]
    rw [← hheld]
    simp [Pc.holdsLock, hok.1]
  | drain mode =>
    simp only [PcOk, Next.shuts, if_true] at hok
    exact h.leave hc hpc ⟨rfl, hr1, hr2, by simp [Conn.proceed, release_registry]⟩
      (fun _ _ _ => .inl hok.2) rfl (fun _ => trivial) (fun _ _ _ => .inl hok.2)
  | loop =>
    exact h.leave hc hpc ⟨rfl, hr1, hr2, by simp [Conn.proceed, release_registry]⟩
      (fun _ _ hd => .inr (by rw [← hr3]; exact hd)) rfl (fun _ => trivial)
      (fun q hw hq => .inr ((hlast q hw hq).resolve_left (by simp [Next.shuts])))
  | exit =>
    exact h.leave hc hpc ⟨rfl, hr1, hr2, by simp [Conn.proceed, release_registry]⟩
      (fun _ _ hd => .inr (by rw [← hr3]; exact hd)) rfl (fun _ => trivial)
      (fun q hw hq => .inr ((hlast q hw hq).resolve_left (by simp [Next.shuts])))
  | replay id after attachment =>
    exact h.leave hc hpc ⟨rfl, hr1, hr2, by simp [Conn.proceed, release_registry]⟩
      (fun _ _ hd => .inr (by rw [← hr3]; exact hd)) rfl (fun _ => trivial)
      (fun q hw hq => .inr ((hlast q hw hq).resolve_left (by simp [Next.shuts])))

theorem Lifecycle.moves {a : Conn.Act} (h : d.Lifecycle) (hc : d.conns[c]? = some conn)
    (hm : Conn.Moves d.shared c conn a shared conn') :
    ({ d with shared, conns := d.conns.insert c conn' } : Daemon).Lifecycle := by
  have hok := h.pcs c conn hc
  have hheld := h.holder c conn hc
  cases hm with
  | first frame hpc =>
    exact h.calm hc ⟨rfl, rfl, rfl, rfl, rfl⟩ (by rw [hpc]; exact (greet_ok frame true).1)
      (by simp [hpc]) (greet_ok frame _).2 (fun _ hw _ => hw)
  | request frame hpc =>
    exact h.calm hc ⟨rfl, rfl, rfl, rfl, rfl⟩ (by rw [hpc]; rfl) (by simp [hpc]) trivial
      (fun _ hw _ => hw)
  | hangUp hpc =>
    exact h.calm hc ⟨rfl, rfl, rfl, rfl, rfl⟩ (by rw [hpc]; rfl) (by simp [hpc]) trivial
      (fun _ hw _ => hw)
  | close hpc =>
    exact h.calm hc ⟨rfl, rfl, rfl, rfl, rfl⟩ (by rw [hpc]; rfl) (by simp [hpc]) trivial
      (fun _ hw _ => hw)
  | undecodable hpc =>
    exact h.calm hc ⟨rfl, rfl, rfl, rfl, rfl⟩ (by rcases hpc with hpc | hpc <;> rw [hpc] <;> rfl)
      (by rcases hpc with hpc | hpc <;> simp [hpc]) trivial (fun _ hw _ => hw)
  | unreadable hpc =>
    exact h.calm hc ⟨rfl, rfl, rfl, rfl, rfl⟩ (by rcases hpc with hpc | hpc <;> rw [hpc] <;> rfl)
      (by rcases hpc with hpc | hpc <;> simp [hpc]) trivial (fun _ hw _ => hw)
  | relay n event rest hpc =>
    exact h.calm hc ⟨rfl, rfl, rfl, rfl, rfl⟩ (by rw [hpc]; rfl) (by simp [hpc]) trivial
      (fun _ hw _ => hw)
  | answer reply request response called hpc hl =>
    exact h.calm hc ⟨rfl, rfl, rfl, rfl, rfl⟩ (by rw [hpc]; rfl) (by simp [hpc])
      (by simp [PcOk, Next.shuts, Conn.answer, not_shutsDown hl]) (fun _ hw _ => hw)
  | acknowledge request id through store hpc hmsg =>
    exact h.calm hc ⟨rfl, rfl, rfl, rfl, rfl⟩ (by rw [hpc]; rfl) (by simp [hpc])
      (by simp [PcOk, Next.shuts, Conn.answer, ClientFrame.shutsDown, hmsg]) (fun _ hw _ => hw)
  | attach request id after attachment store hpc hmsg =>
    exact h.calm hc ⟨rfl, rfl, rfl, rfl, rfl⟩ (by rw [hpc]; rfl) (by simp [hpc])
      (by simp [PcOk, Next.shuts]) (fun _ hw _ => hw)
  | detach request id hpc hmsg =>
    refine h.calm hc ⟨rfl, rfl, rfl, rfl, rfl⟩ (by rw [hpc]; rfl) (by simp [hpc])
      (by simp [PcOk, Next.shuts, Conn.answer, ClientFrame.shutsDown, hmsg]) (fun q hw _ => ?_)
    rw [← Conn.abort_written conn id]
    exact hw
  | cancel request id key k registry hpc hmsg hcall =>
    obtain ⟨-, rfl⟩ := Registry.cancelCall_cases hcall
    exact h.calm hc ⟨rfl, rfl, rfl, rfl, rfl⟩ (by rw [hpc]; rfl) (by simp [hpc])
      (by simp [PcOk, ClientFrame.shutsDown, hmsg]) (fun _ hw _ => hw)
  | refuse k request message hpc =>
    exact h.calm hc ⟨rfl, rfl, rfl, rfl, rfl⟩ (by rw [hpc]; rfl) (by simp [hpc])
      (by simp [PcOk, Next.shuts]) (fun _ hw _ => hw)
  | canceled request k id result hpc =>
    rw [hpc] at hok
    exact h.calm hc ⟨rfl, rfl, rfl, rfl, rfl⟩ (by rw [hpc]; rfl) (by simp [hpc])
      (by simp [PcOk, Next.shuts, Conn.answer, show request.shutsDown = false from hok])
      (fun _ hw _ => hw)
  | relayed n event hpc =>
    exact h.calm hc ⟨rfl, rfl, rfl, rfl, rfl⟩ (by rw [hpc]; rfl) (by simp [hpc]) trivial
      (fun _ hw _ => by simpa using hw)
  | unrelayed n event hpc =>
    exact h.calm hc ⟨rfl, rfl, rfl, rfl, rfl⟩ (by rw [hpc]; rfl) (by simp [hpc]) trivial
      (fun _ hw _ => hw)
  | replayed n id event rest forwarder hpc =>
    exact h.calm hc ⟨rfl, rfl, rfl, rfl, rfl⟩ (by rw [hpc]; rfl) (by simp [hpc]) trivial
      (fun _ hw _ => by simpa using hw)
  | unreplayed n id event rest forwarder hpc =>
    exact h.calm hc ⟨rfl, rfl, rfl, rfl, rfl⟩ (by rw [hpc]; rfl) (by simp [hpc]) trivial
      (fun _ hw _ => hw)
  | spawn n id forwarder hpc =>
    refine h.calm hc ⟨rfl, rfl, rfl, rfl, rfl⟩ (by rw [hpc]; rfl) (by simp [hpc]) trivial
      (fun q hw _ => ?_)
    rw [← Conn.abort_written conn id]
    exact hw
  | wake n task =>
    exact h.calm hc ⟨rfl, rfl, rfl, rfl, rfl⟩ rfl (fun _ _ hpc => hpc) hok (fun _ hw _ => hw)
  | forward n task stepped =>
    exact h.calm hc ⟨rfl, rfl, rfl, rfl, rfl⟩ rfl (fun _ _ hpc => hpc) hok (fun _ hw _ => hw)
  | suspend n task =>
    exact h.calm hc ⟨rfl, rfl, rfl, rfl, rfl⟩ rfl (fun _ _ hpc => hpc) hok (fun _ hw _ => hw)
  | reap n task =>
    exact h.calm hc ⟨rfl, rfl, rfl, rfl, rfl⟩ rfl (fun _ _ hpc => hpc) hok (fun _ hw _ => hw)
  | lock request hpc hl hfree =>
    exact h.move hc (by simp [Pc.holdsLock]) (fun c' hne => by simp [hfree, hne])
      (fun k call hk hu => .inr ⟨call, hk, hu, by simp [hpc]⟩) trivial (fun hs => hs)
      (fun hne => absurd rfl hne) (fun _ _ hd => .inr hd) (fun hf => .inr hf)
      (fun _ hw _ => .inr hw)
  | idle k request hpc hmsg hn =>
    rw [hpc] at hheld
    exact h.move hc (by simpa [Pc.holdsLock] using hheld) (fun c' _ => Iff.rfl)
      (fun k call hk hu => .inr ⟨call, hk, hu, by simp [hpc]⟩) (by simp [PcOk, Next.shuts])
      (fun _ => rfl) (fun _ => by rw [hpc]; rfl) (fun _ _ hd => .inr hd) (fun hf => .inr hf)
      (fun _ hw _ => .inr hw)
  | stop k request mode hpc hmsg hs =>
    rw [hpc] at hheld
    exact h.move hc (by simpa [Pc.holdsLock] using hheld) (fun c' _ => Iff.rfl)
      (fun k call hk hu => .inr ⟨call, hk, hu, by simp [hpc]⟩) (by simp [PcOk, Next.shuts])
      (fun _ => rfl) (fun _ => by rw [hpc]; rfl) (fun _ _ hd => .inr hd) (fun hf => .inr hf)
      (fun _ hw _ => .inr hw)
  | launch k request id spec key registry hpc hmsg hs hcall =>
    rw [hpc] at hheld
    obtain ⟨-, rfl⟩ := Registry.startCall_cases hcall
    refine h.move hc (by simpa [Pc.holdsLock] using hheld) (fun c' _ => Iff.rfl)
      (fun k' call hk hu => ?_) ⟨hs, by simp [ClientFrame.shutsDown, hmsg]⟩ (fun hst => hst)
      (fun hne => absurd rfl hne) (fun _ _ hd => .inr hd) (fun hf => .inr hf)
      (fun _ hw _ => .inr hw)
    rcases ExtTreeMap.getElem?_insert_some.1 hk with ⟨rfl, -⟩ | ⟨-, hk⟩
    · exact .inl ⟨request, rfl⟩
    · exact .inr ⟨call, hk, hu, by simp [hpc]⟩
  | started request k id result hpc hcall =>
    rw [hpc] at hheld hok
    refine h.move hc (by simpa [Pc.holdsLock] using hheld) (fun c' _ => Iff.rfl)
      (fun k' call hk hu => .inr ⟨call, hk, hu, fun q hq => ?_⟩)
      (by simp [PcOk, Next.shuts, hok.2]) (fun hst => hst) (fun hne => absurd rfl hne)
      (fun _ _ hd => .inr hd) (fun hf => .inr hf) (fun _ hw _ => .inr hw)
    -- The call that was awaited has returned, so it is not the one in flight.
    rw [hpc] at hq
    cases hq
    cases hcall.symm.trans hk
    cases hu
  | wrote request response next locked hpc => exact h.wrote hc hpc
  | unanswered request response next locked store hpc hd =>
    obtain ⟨hr1, hr2, hr3⟩ := release_fields d.shared locked
    exact h.leave hc hpc ⟨rfl, hr1, hr2, by simp [Shared.withStore, release_registry]⟩
      (fun _ _ hd => .inr (by rw [← hr3]; exact hd)) rfl (fun _ => trivial)
      (fun q hw _ => .inr hw)
  | setShutdown hpc =>
    rw [hpc] at hok hheld
    have hh : d.shared.holder = some c := hheld.1 rfl
    exact h.move hc (by simp [Pc.holdsLock]) (fun c' hne => by simp [hh, hne])
      (fun k call hk hu => .inr ⟨call, hk, hu, by simp [hpc]⟩) trivial (fun hst => hst)
      (fun hne => absurd rfl hne) (fun _ _ hd => .inr hd) (fun _ => .inl hok)
      (fun _ hw _ => .inr hw)

/-- A step of the registry or of a drain task: the calls in flight stay in flight. -/
theorem Lifecycle.background (h : d.Lifecycle) (hh : shared.holder = d.shared.holder)
    (hs : shared.stopping = d.shared.stopping)
    (hflag : shared.shutdown = true → d.shared.stopping = true)
    (hdrains : ∀ (c : Nat) (drain : Drain), shared.drains[c]? = some drain →
      d.shared.stopping = true)
    (hstarts : ∀ (k : Nat) (call : StartCall), shared.registry.starts[k]? = some call →
      call.settled = false →
        ∃ call', d.shared.registry.starts[k]? = some call' ∧ call'.settled = false) :
    ({ d with shared } : Daemon).Lifecycle := by
  refine ⟨fun c conn hc => by rw [hh]; exact h.holder c conn hc,
    fun c hc => h.known c (hh ▸ hc), fun k call hk hu => ?_,
    fun c conn hc => by rw [hs]; exact h.pcs c conn hc,
    fun c drain hd => by rw [hs]; exact hdrains c drain hd, fun hf => by rw [hs]; exact hflag hf,
    fun c conn request hc hw hr => by rw [hs]; exact h.answered c conn request hc hw hr⟩
  obtain ⟨call', hk', hu'⟩ := hstarts k call hk hu
  exact h.flights k call' hk' hu'

theorem Lifecycle.step {a : Act P} (h : d.Lifecycle) (hs : d.step toValue a = some d') :
    d'.Lifecycle := by
  cases a with
  | accept c =>
    obtain ⟨hn, rfl⟩ := accept_cases hs
    have hnew : ∀ (c' : Nat) (conn : Conn), (d.conns.insert c .init)[c']? = some conn →
        (c = c' ∧ conn = .init) ∨ d.conns[c']? = some conn := fun c' conn hc => by
      rcases ExtTreeMap.getElem?_insert_some.1 hc with ⟨he, hi⟩ | ⟨-, hc⟩
      · exact .inl ⟨he, hi.symm⟩
      · exact .inr hc
    refine ⟨fun c' conn hc => ?_, fun c' hh => ?_, fun k call hk hu => ?_, fun c' conn hc => ?_,
      h.drains, h.flag, fun c' conn request hc hw hr => ?_⟩
    · rcases hnew c' conn hc with ⟨rfl, rfl⟩ | hc
      · simp only [Conn.init, Pc.holdsLock, Bool.false_eq_true, false_iff]
        exact fun hh => h.known c hh hn
      · exact h.holder c' conn hc
    · by_cases he : c = c'
      · subst he; simp
      · rw [ExtTreeMap.getElem?_insert_of_ne he]; exact h.known c' hh
    · obtain ⟨c', conn, request, hc, hr⟩ := h.flights k call hk hu
      have he : c ≠ c' := by rintro rfl; cases hn.symm.trans hc
      exact ⟨c', conn, request, by rw [ExtTreeMap.getElem?_insert_of_ne he]; exact hc, hr⟩
    · rcases hnew c' conn hc with ⟨rfl, rfl⟩ | hc
      · trivial
      · exact h.pcs c' conn hc
    · rcases hnew c' conn hc with ⟨rfl, rfl⟩ | hc
      · simp [Conn.init] at hw
      · exact h.answered c' conn request hc hw hr
  | conn c a =>
    obtain ⟨conn, shared, conn', hc, hstep, rfl⟩ := conn_cases hs
    exact h.moves hc (Conn.step_moves hstep)
  | registry a =>
    obtain ⟨hg, registry, hstep, rfl⟩ := registry_cases hs
    refine h.background rfl rfl h.flag h.drains fun k call hk hu => ?_
    refine Registry.step_starts hstep (fun k' id spec he => ?_) hk hu
    rw [he] at hg
    cases hg
  | drain c =>
    obtain ⟨registry, hd, hr, rfl⟩ | ⟨hd, -, rfl⟩ | ⟨hd, rfl⟩ := drain_cases hs
    · obtain ⟨-, rfl⟩ := Registry.cancelAll_cases hr
      exact h.background rfl rfl h.flag (fun _ _ _ => h.drains c _ hd)
        (fun k call hk hu => ⟨call, hk, hu⟩)
    · exact h.background rfl rfl h.flag (fun _ _ _ => h.drains c _ hd)
        (fun k call hk hu => ⟨call, hk, hu⟩)
    · exact h.background rfl rfl (fun _ => h.drains c _ hd) (fun _ _ _ => h.drains c _ hd)
        (fun k call hk hu => ⟨call, hk, hu⟩)
  | stop result =>
    obtain ⟨-, rfl⟩ := stop_cases hs
    exact ⟨h.holder, h.known, h.flights, h.pcs, h.drains, h.flag, h.answered⟩

theorem lifecycle_exec {acts : List (Act P)} (h : exec (step toValue) init acts = some d) :
    d.Lifecycle :=
  exec_inv' (fun _ _ _ hi hs => hi.step hs) lifecycle_init h

/-- Once the daemon is stopping, no `start` call is in flight. -/
theorem Lifecycle.settled (h : d.Lifecycle) (hs : d.shared.stopping = true) {k : Nat}
    {call : StartCall} (hk : d.shared.registry.starts[k]? = some call) :
    call.settled = true := by
  cases hu : call.settled with
  | true => rfl
  | false =>
    obtain ⟨c, conn, request, hc, hpc⟩ := h.flights k call hk hu
    have hok := h.pcs c conn hc
    rw [hpc] at hok
    rw [hok.1] at hs
    cases hs

end Daemon

end AgencyProxy
