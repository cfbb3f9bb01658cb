import AgencyProxy.Lts
import AgencyProxy.Maps

/-!
# The socket path

Any number of daemons that bind a `ProxyServer` to one path and drop it, each by its own
file-system steps: `prepare_socket_path`, the bind and the mode of `bind_with_registry`, and
`Drop`. There is no lock. A socket file is known by its inode, which no other file ever has;
a step that the system may refuse carries the system's answer.

`Exclusive` is what the daemons are meant to ensure. The removal of `prepare_socket_path` goes
by the path, and takes whatever file is there when it runs; and any error of the probe counts
as a stale socket. `Settled` is what has to hold of a step so that neither does harm.
-/

namespace AgencyProxy.SocketPath

open Std Lts

/-- What is at the path. -/
inductive File where
  | socket (inode : Nat)
  | other
  deriving DecidableEq, Repr

/-- The variants of `Error` that binding returns. -/
inductive Error where
  | io
  | alreadyRunning
  | unsafeSocketPath
  deriving DecidableEq, Repr

/-- Where a daemon stands. -/
inductive Daemon where
  /-- Before the directory is made and given its mode. -/
  | preparing
  /-- Before `symlink_metadata`. -/
  | looking
  /-- Has found a socket, before the connect. -/
  | probing
  /-- The connect failed, before `remove_file`. History: the file that it was made to. -/
  | removing (probed : Option File)
  | binding
  /-- Has bound the socket, before its mode is set. -/
  | bound (inode : Nat)
  | running (inode : Nat)
  /-- `Drop` has removed the file; the listener is about to be closed. -/
  | closing (inode : Nat)
  | ended
  | failed (error : Error)
  deriving DecidableEq, Repr

/-- The socket that the daemon has bound and goes on with. -/
def Daemon.holds : Daemon → Option Nat
  | .bound inode | .running inode => some inode
  | _ => none

/-- The socket that it has bound and not closed; a client that connects may still be refused. -/
def Daemon.listener : Daemon → Option Nat
  | .bound inode | .running inode | .closing inode => some inode
  | _ => none

structure Host where
  file : Option File
  /-- Inodes from here on were never used. -/
  nextInode : Nat
  daemons : ExtTreeMap Nat Daemon
  /-- History: who removed the file of a daemon that went on with it, and whose. -/
  evicted : List (Nat × Nat)

/-- What the first daemon finds; a live socket is that of a daemon that runs already. -/
inductive Found where
  | absent
  | stale
  | live (d : Nat)
  | other

namespace Host

def init : Found → Host
  | .absent => ⟨none, 0, ∅, []⟩
  | .stale => ⟨some (.socket 0), 1, ∅, []⟩
  | .live d => ⟨some (.socket 0), 1, (∅ : ExtTreeMap Nat Daemon).insert d (.running 0), []⟩
  | .other => ⟨some .other, 0, ∅, []⟩

inductive Act where
  | launch (d : Nat)
  /-- The parent directory; the path may have none. -/
  | makeDirectory (d : Nat) (made : Except Error Unit)
  | look (d : Nat) (succeeds : Bool)
  | probe (d : Nat) (connects : Bool)
  | remove (d : Nat) (succeeds : Bool)
  | bind (d : Nat) (succeeds : Bool)
  | setPermissions (d : Nat) (succeeds : Bool)
  /-- `Drop for ProxyServer`, then that of its listener. -/
  | drop (d : Nat) (succeeds : Bool)
  | close (d : Nat)
  /-- The process ends without `Drop`. -/
  | kill (d : Nat)

def goto (host : Host) (d : Nat) (daemon : Daemon) : Host :=
  { host with daemons := host.daemons.insert d daemon }

/-- Some daemon has bound the socket and not closed it. -/
def live (host : Host) : Option File → Bool
  | some (.socket inode) => 0 < host.daemons.count fun daemon => daemon.listener = some inode
  | _ => false

/-- The daemons other than `d` that go on with the file at the path. -/
def owners (host : Host) (d : Nat) : List Nat :=
  (host.daemons.toList.filter fun p =>
    p.1 ≠ d && p.2.holds.any fun inode => host.file = some (.socket inode)).map (·.1)

/-- `remove_file`, by `d`. -/
def unlink (host : Host) (d : Nat) : Host :=
  { host with file := none, evicted := host.evicted ++ (host.owners d).map (d, ·) }

def step (host : Host) : Act → Option Host
  | .launch d => if d ∈ host.daemons then none else some (host.goto d .preparing)
  | .makeDirectory d made =>
    match host.daemons[d]? with
    | some .preparing =>
      match made with
      | .ok () => some (host.goto d .looking)
      | .error e => some (host.goto d (.failed e))
    | _ => none
  | .look d succeeds =>
    match host.daemons[d]? with
    | some .looking =>
      if succeeds then
        match host.file with
        | none => some (host.goto d .binding)
        | some .other => some (host.goto d (.failed .unsafeSocketPath))
        | some (.socket _) => some (host.goto d .probing)
      else some (host.goto d (.failed .io))
    | _ => none
  | .probe d connects =>
    match host.daemons[d]? with
    | some .probing =>
      if connects then
        if host.live host.file then some (host.goto d (.failed .alreadyRunning)) else none
      else some (host.goto d (.removing host.file))
    | _ => none
  | .remove d succeeds =>
    match host.daemons[d]? with
    | some (.removing _) =>
      if succeeds && host.file.isSome then some ((host.unlink d).goto d .binding)
      else some (host.goto d (.failed .io))
    | _ => none
  | .bind d succeeds =>
    match host.daemons[d]? with
    | some .binding =>
      if succeeds && host.file.isNone then
        some ({ host with
          file := some (.socket host.nextInode)
          nextInode := host.nextInode + 1 }.goto d (.bound host.nextInode))
      else some (host.goto d (.failed .io))
    | _ => none
  | .setPermissions d succeeds =>
    match host.daemons[d]? with
    | some (.bound inode) =>
      -- On an error the listener is dropped, and the file stays.
      if succeeds && host.file.isSome then some (host.goto d (.running inode))
      else some (host.goto d (.failed .io))
    | _ => none
  | .drop d succeeds =>
    match host.daemons[d]? with
    | some (.running inode) =>
      -- The result of `remove_file` is ignored.
      if succeeds && host.file.isSome then some ((host.unlink d).goto d (.closing inode))
      else some (host.goto d (.closing inode))
    | _ => none
  | .close d =>
    match host.daemons[d]? with
    | some (.closing _) => some (host.goto d .ended)
    | _ => none
  | .kill d => if d ∈ host.daemons then some (host.goto d .ended) else none

/-- No daemon has removed the file of another that went on with it; at most one goes on, and
its file is the one at the path. -/
structure Exclusive (host : Host) : Prop where
  spared : host.evicted = []
  alone : ∀ (d d' inode inode' : Nat), host.daemons[d]?.bind Daemon.holds = some inode →
    host.daemons[d']?.bind Daemon.holds = some inode' → d = d'
  there : ∀ (d inode : Nat), host.daemons[d]?.bind Daemon.holds = some inode →
    host.file = some (.socket inode)

/-- A probe fails only where no daemon has bound the socket, and what `prepare_socket_path` removes
is the file that it has probed. -/
def settled (host : Host) : Act → Bool
  | .probe _ false => !host.live host.file
  | .remove d true =>
    match host.daemons[d]? with
    | some (.removing probed) => host.file = none || host.file = probed
    | _ => true
  | _ => true

/-! ## The invariant -/

/-- The daemon goes on with the socket. -/
def Holds (host : Host) (d inode : Nat) : Prop :=
  host.daemons[d]?.bind Daemon.holds = some inode

/-- `Exclusive`, and what it rests on: nobody goes on with a socket that a daemon has probed in
vain, and nobody will, because inodes are new. -/
structure Inv (host : Host) : Prop extends Exclusive host where
  file : ∀ inode, host.file = some (.socket inode) → inode < host.nextInode
  vain : ∀ (d inode : Nat), host.daemons[d]? = some (.removing (some (.socket inode))) →
    inode < host.nextInode ∧ ∀ d', ¬ host.Holds d' inode

variable {host host' : Host} {d d' inode : Nat} {daemon : Daemon}

theorem holds_goto : (host.goto d daemon).Holds d' inode ↔
    (d = d' ∧ daemon.holds = some inode) ∨ (d ≠ d' ∧ host.Holds d' inode) := by
  by_cases he : d = d'
  · subst he
    simp [Holds, goto]
  · simp [Holds, goto, he, ExtTreeMap.getElem?_insert_of_ne he]

/-- No daemon goes on with a socket that none has bound. -/
theorem not_holds_of_live (h : host.live (some (.socket inode)) = false) (d : Nat) :
    ¬ host.Holds d inode := by
  intro hd
  obtain ⟨daemon, hdaemon, hholds⟩ := Option.bind_eq_some_iff.1 hd
  have hz : host.daemons.count (fun daemon => daemon.listener = some inode) = 0 := by
    simpa [live] using h
  have hl := ExtTreeMap.count_eq_zero hz hdaemon
  cases daemon <;> simp_all [Daemon.holds, Daemon.listener]

/-- A daemon goes on with the socket that it had, or with none. -/
theorem Inv.goto (h : host.Inv) (hh : ∀ i, daemon.holds = some i → host.Holds d i)
    (hr : ∀ i, daemon = .removing (some (.socket i)) →
      i < host.nextInode ∧ ∀ d', ¬ host.Holds d' i) : (host.goto d daemon).Inv := by
  have hold : ∀ d' i, (host.goto d daemon).Holds d' i → host.Holds d' i := fun d' i hd => by
    rcases holds_goto.1 hd with ⟨rfl, hi⟩ | ⟨-, hd⟩
    · exact hh i hi
    · exact hd
  exact
    { spared := h.spared
      alone := fun d₁ d₂ i₁ i₂ h₁ h₂ => h.alone d₁ d₂ i₁ i₂ (hold d₁ i₁ h₁) (hold d₂ i₂ h₂)
      there := fun d₁ i₁ h₁ => h.there d₁ i₁ (hold d₁ i₁ h₁)
      file := h.file
      vain := fun d₁ i₁ h₁ => by
        rcases ExtTreeMap.getElem?_insert_some.1 h₁ with ⟨-, he⟩ | ⟨-, h₁⟩
        · obtain ⟨hlt, hno⟩ := hr i₁ he
          exact ⟨hlt, fun d₂ h₂ => hno d₂ (hold d₂ i₁ h₂)⟩
        · obtain ⟨hlt, hno⟩ := h.vain d₁ i₁ h₁
          exact ⟨hlt, fun d₂ h₂ => hno d₂ (hold d₂ i₁ h₂)⟩ }

/-- A daemon that goes on with no socket from here. -/
theorem Inv.leave (h : host.Inv) (hh : daemon.holds = none)
    (hr : ∀ i, daemon ≠ .removing (some (.socket i))) : (host.goto d daemon).Inv :=
  h.goto (fun i hi => by rw [hh] at hi; cases hi) fun i he => absurd he (hr i)

/-- The removal of a file that no other daemon goes on with. -/
theorem Inv.unlink (h : host.Inv) (hno : ∀ d' i, host.Holds d' i → d' = d)
    (hh : daemon.holds = none) (hr : ∀ i, daemon ≠ .removing (some (.socket i))) :
    ((host.unlink d).goto d daemon).Inv := by
  have hown : host.owners d = [] := by
    rw [owners, List.map_eq_nil_iff, List.filter_eq_nil_iff]
    rintro ⟨d', daemon'⟩ hmem hp
    simp only [Bool.and_eq_true, decide_eq_true_eq, Option.any_eq_true] at hp
    obtain ⟨hne, inode, hholds, -⟩ := hp
    have hd' : host.daemons[d']? = some daemon' := ExtTreeMap.mem_toList_iff_getElem?_eq_some.1 hmem
    exact hne (hno d' inode (by rw [Holds, hd']; exact hholds))
  have hold : ∀ d' i, ¬ ((host.unlink d).goto d daemon).Holds d' i := fun d' i hd => by
    rcases holds_goto.1 hd with ⟨-, hd⟩ | ⟨hne, hd⟩
    · rw [hh] at hd; cases hd
    · exact hne (hno d' i hd).symm
  exact
    { spared := by simp [Host.goto, Host.unlink, hown, h.spared]
      alone := fun d₁ d₂ i₁ i₂ h₁ _ => absurd h₁ (hold d₁ i₁)
      there := fun d₁ i₁ h₁ => absurd h₁ (hold d₁ i₁)
      file := fun i hi => by cases hi
      vain := fun d₁ i₁ h₁ => by
        rcases ExtTreeMap.getElem?_insert_some.1 h₁ with ⟨-, he⟩ | ⟨-, h₁⟩
        · exact absurd he (hr i₁)
        · exact ⟨(h.vain d₁ i₁ h₁).1, fun d₂ => hold d₂ i₁⟩ }

/-- The bind of a new file, where there was none. -/
theorem Inv.bind (h : host.Inv) (hf : host.file = none) :
    ({ host with
      file := some (.socket host.nextInode), nextInode := host.nextInode + 1 }.goto d
        (.bound host.nextInode)).Inv := by
  have hno : ∀ d' i, ¬ host.Holds d' i := fun d' i hd => by
    have := h.there d' i hd
    rw [hf] at this
    cases this
  have hold : ∀ d' i, ({ host with
      file := some (.socket host.nextInode), nextInode := host.nextInode + 1 }.goto d
        (.bound host.nextInode)).Holds d' i → d = d' ∧ i = host.nextInode := fun d' i hd => by
    rcases holds_goto.1 hd with ⟨he, hi⟩ | ⟨-, hd⟩
    · cases hi; exact ⟨he, rfl⟩
    · exact absurd hd (hno d' i)
  exact
    { spared := h.spared
      alone := fun d₁ d₂ i₁ i₂ h₁ h₂ => (hold d₁ i₁ h₁).1.symm.trans (hold d₂ i₂ h₂).1
      there := fun d₁ i₁ h₁ => by rw [(hold d₁ i₁ h₁).2]; rfl
      file := fun i hi => by cases hi; exact Nat.lt_succ_self _
      vain := fun d₁ i₁ h₁ => by
        rcases ExtTreeMap.getElem?_insert_some.1 h₁ with ⟨-, he⟩ | ⟨-, h₁⟩
        · cases he
        · have hlt := (h.vain d₁ i₁ h₁).1
          refine ⟨Nat.lt_succ_of_lt hlt, fun d₂ h₂ => ?_⟩
          have := (hold d₂ i₁ h₂).2
          omega }

theorem inv_init (found : Found) : (init found).Inv := by
  have hnone : ∀ (d i : Nat), ¬ (∅ : ExtTreeMap Nat Daemon)[d]?.bind Daemon.holds = some i := by
    simp
  cases found with
  | absent => exact ⟨⟨rfl, by simp [init], by simp [init]⟩, by simp [init], by simp [init]⟩
  | stale => exact ⟨⟨rfl, by simp [init], by simp [init]⟩, by simp [init], by simp [init]⟩
  | other => exact ⟨⟨rfl, by simp [init], by simp [init]⟩, by simp [init], by simp [init]⟩
  | live d =>
    have hold : ∀ d' i, (init (.live d)).Holds d' i → d = d' ∧ i = 0 := fun d' i hd => by
      have hd : ((init .stale).goto d (.running 0)).Holds d' i := hd
      rcases holds_goto.1 hd with ⟨he, hi⟩ | ⟨-, hd⟩
      · cases hi; exact ⟨he, rfl⟩
      · exact absurd hd (hnone d' i)
    exact
      { spared := rfl
        alone := fun d₁ d₂ i₁ i₂ h₁ h₂ => (hold d₁ i₁ h₁).1.symm.trans (hold d₂ i₂ h₂).1
        there := fun d₁ i₁ h₁ => by rw [(hold d₁ i₁ h₁).2]; rfl
        file := fun i hi => by cases hi; exact Nat.zero_lt_one
        vain := fun d₁ i₁ h₁ => by
          rcases ExtTreeMap.getElem?_insert_some.1 h₁ with ⟨-, he⟩ | ⟨-, h₁⟩
          · cases he
          · simp at h₁ }

/-- **Step lemma**: a settled step leaves the path to the daemon that goes on with it. -/
theorem Inv.step {a : Act} (h : host.Inv) (hc : host.settled a = true)
    (hs : host.step a = some host') : host'.Inv := by
  cases a with
  | launch d =>
    simp only [Host.step] at hs
    split at hs
    · cases hs
    · cases hs; exact h.leave rfl (by simp)
  | makeDirectory d made =>
    simp only [Host.step] at hs
    split at hs
    · split at hs <;> (cases hs; exact h.leave rfl (by simp))
    · cases hs
  | look d succeeds =>
    simp only [Host.step] at hs
    split at hs
    · split at hs
      · split at hs <;> (cases hs; exact h.leave rfl (by simp))
      · cases hs; exact h.leave rfl (by simp)
    · cases hs
  | probe d connects =>
    simp only [Host.step] at hs
    split at hs
    · split at hs
      · split at hs
        · cases hs; exact h.leave rfl (by simp)
        · cases hs
      · rename_i hfails
        cases hs
        have hfails : connects = false := by simpa using hfails
        subst hfails
        refine h.goto (fun i hi => by cases hi) fun i he => ?_
        have hfile : host.file = some (.socket i) := by simpa using he
        simp only [settled, hfile, Bool.not_eq_true'] at hc
        exact ⟨h.file i hfile, not_holds_of_live hc⟩
    · cases hs
  | remove d succeeds =>
    simp only [Host.step] at hs
    split at hs
    · rename_i probed hd
      split at hs
      · rename_i hg
        simp only [Bool.and_eq_true] at hg
        obtain ⟨rfl, hsome⟩ := hg
        cases hs
        obtain ⟨file, hfile⟩ := Option.isSome_iff_exists.1 hsome
        simp only [settled, hd, hfile, reduceCtorEq, decide_false, Bool.false_or,
          decide_eq_true_eq] at hc
        -- Whoever went on with a socket would hold the one that was probed in vain.
        refine h.unlink (fun d' i hi => ?_) rfl (by simp)
        have hat := h.there d' i hi
        rw [hfile, hc] at hat
        exact absurd hi ((h.vain d i (hat ▸ hd)).2 d')
      · cases hs; exact h.leave rfl (by simp)
    · cases hs
  | bind d succeeds =>
    simp only [Host.step] at hs
    split at hs
    · split at hs
      · rename_i hg
        simp only [Bool.and_eq_true, Option.isNone_iff_eq_none] at hg
        cases hs
        exact h.bind hg.2
      · cases hs; exact h.leave rfl (by simp)
    · cases hs
  | setPermissions d succeeds =>
    simp only [Host.step] at hs
    split at hs
    · rename_i inode hd
      split at hs
      · cases hs
        refine h.goto (fun i hi => ?_) (by simp)
        cases hi
        simp [Holds, hd, Daemon.holds]
      · cases hs; exact h.leave rfl (by simp)
    · cases hs
  | drop d succeeds =>
    simp only [Host.step] at hs
    split at hs
    · rename_i inode hd
      split at hs
      · cases hs
        refine h.unlink (fun d' i hi => ?_) rfl (by simp)
        exact h.alone d' d i inode hi (by simp [hd, Daemon.holds])
      · cases hs; exact h.leave rfl (by simp)
    · cases hs
  | close d =>
    simp only [Host.step] at hs
    split at hs
    · cases hs; exact h.leave rfl (by simp)
    · cases hs
  | kill d =>
    simp only [Host.step] at hs
    split at hs
    · cases hs; exact h.leave rfl (by simp)
    · cases hs

/-- **One daemon at the path**, in every run whose steps are all settled, whatever is at the path
to begin with. -/
theorem exclusive (found : Found) (acts : List Act) (host : Host)
    (h : exec step (init found) acts = some host)
    (hc : Along step (fun host a => host.settled a = true) (init found) acts) :
    host.Exclusive :=
  (exec_inv (I := Inv) (fun _ _ _ hi ha hs => hi.step ha hs) (inv_init found) hc h).toExclusive

/-- A daemon up to its probe, and from there to its server. -/
def probesStale (d : Nat) : List Act :=
  [.launch d, .makeDirectory d (.ok ()), .look d true, .probe d false]

def takesOver (d : Nat) : List Act := [.remove d true, .bind d true, .setPermissions d true]

/-- A daemon replaces a stale socket; the next finds it running, until it is dropped. -/
def oneAfterTheOther : List Act :=
  probesStale 1 ++ takesOver 1 ++
    [.launch 2, .makeDirectory 2 (.ok ()), .look 2 true, .probe 2 true, .drop 1 true, .close 1,
     .launch 3, .makeDirectory 3 (.ok ()), .look 3 true, .bind 3 true, .setPermissions 3 true]

theorem exclusive_oneAfterTheOther :
    ∃ host, exec step (init .stale) oneAfterTheOther = some host ∧
      host.daemons.toList.map (·.2) = [.ended, .failed .alreadyRunning, .running 2] ∧
      host.Exclusive := by
  have h : (exec step (init .stale) oneAfterTheOther).map (fun host =>
      host.daemons.toList.map (·.2)) =
      some [.ended, .failed .alreadyRunning, .running 2] := by decide +kernel
  obtain ⟨host, hs, h⟩ := Option.map_eq_some_iff.1 h
  exact ⟨host, hs, h, exclusive _ _ host hs (by decide +kernel)⟩

/-- Two daemons find the stale socket before either removes it. -/
def bothProbe : List Act := probesStale 1 ++ probesStale 2 ++ takesOver 1 ++ takesOver 2

/-- The second then removes the file of the first, and both run. -/
theorem not_exclusive_bothProbe :
    ∃ host, exec step (init .stale) bothProbe = some host ∧ ¬ host.Exclusive := by
  have h : (exec step (init .stale) bothProbe).map (fun host => host.evicted) =
      some [(2, 1)] := by decide +kernel
  obtain ⟨host, hs, h⟩ := Option.map_eq_some_iff.1 h
  refine ⟨host, hs, fun he => ?_⟩
  rw [he.spared] at h
  cases h

end Host

end AgencyProxy.SocketPath
