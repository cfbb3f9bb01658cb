import Mathlib.Tactic

/-!
# Labelled transition systems

A system is a partial step function `step : σ → ℓ → Option σ`. The label carries
every choice of the scheduler and of the environment, so a run is a list of
labels and `exec` replays it. `Along step C s ls` says that each step of the run
meets the condition `C`; it is how a result about well-behaved environments is
stated.

`exec_inv` is the invariant rule, `exec_mono` its two-state form ("once, then
from then on") and `exec_variant` the rule that bounds a run. `exec_simulates`
carries a run of one system over to a run of another along a relation, and
`exec_project` a run of a composed system down to one of its components.
`along_iff_always` makes a condition on steps exact: it is met along a run if and
only if an invariant holds all the way.
-/

namespace Lts

variable {σ τ ℓ κ : Type*} {step : σ → ℓ → Option σ}

/-- Replay the labels in order; `none` when one of them is not enabled. -/
def exec (step : σ → ℓ → Option σ) : σ → List ℓ → Option σ
  | s, [] => some s
  | s, l :: ls => (step s l).bind (exec step · ls)

/-- Every step of the run from `s` over `ls` meets `C`. -/
def Along (step : σ → ℓ → Option σ) (C : σ → ℓ → Prop) : σ → List ℓ → Prop
  | _, [] => True
  | s, l :: ls => C s l ∧ ∀ s', step s l = some s' → Along step C s' ls

instance decidableAlong (C : σ → ℓ → Prop) [∀ s l, Decidable (C s l)] :
    ∀ (s : σ) (ls : List ℓ), Decidable (Along step C s ls)
  | _, [] => isTrue trivial
  | s, l :: ls =>
    match h : step s l with
    | none => decidable_of_iff (C s l) (by simp [Along, h])
    | some s' =>
      have := decidableAlong C s' ls
      decidable_of_iff (C s l ∧ Along step C s' ls) (by simp [Along, h])

@[simp] theorem exec_nil (s : σ) : exec step s [] = some s := rfl

theorem exec_cons_some {s s' : σ} {l : ℓ} {ls : List ℓ} :
    exec step s (l :: ls) = some s' ↔ ∃ m, step s l = some m ∧ exec step m ls = some s' := by
  simp [exec, Option.bind_eq_some_iff]

theorem exec_append_some {s s' : σ} {ls ms : List ℓ} :
    exec step s (ls ++ ms) = some s' ↔
      ∃ m, exec step s ls = some m ∧ exec step m ms = some s' := by
  induction ls generalizing s with
  | nil => simp
  | cons l ls ih =>
    simp only [List.cons_append, exec_cons_some, ih]
    constructor
    · rintro ⟨m, hm, n, hn, h⟩; exact ⟨n, ⟨m, hm, hn⟩, h⟩
    · rintro ⟨n, ⟨m, hm, hn⟩, h⟩; exact ⟨m, hm, n, hn, h⟩

theorem exec_single {s s' : σ} {l : ℓ} : exec step s [l] = some s' ↔ step s l = some s' := by
  simp [exec_cons_some]

theorem along_append {C : σ → ℓ → Prop} {s m : σ} {ls ms : List ℓ}
    (hm : exec step s ls = some m) :
    Along step C s (ls ++ ms) ↔ Along step C s ls ∧ Along step C m ms := by
  induction ls generalizing s with
  | nil => cases hm; simp [Along]
  | cons l ls ih =>
    obtain ⟨n, hn, h⟩ := exec_cons_some.1 hm
    simp only [List.cons_append, Along, hn, Option.some.injEq, forall_eq', ih h, and_assoc]

/-- The condition at each step of a run that can be taken. -/
theorem along_iff {C : σ → ℓ → Prop} {s : σ} {ls : List ℓ} :
    Along step C s ls ↔
      ∀ ms l rest m, ls = ms ++ l :: rest → exec step s ms = some m → C m l := by
  induction ls generalizing s with
  | nil => simp [Along]
  | cons l ls ih =>
    simp only [Along, ih]
    constructor
    · rintro ⟨hl, h⟩ ms l' rest m he hm
      cases ms with
      | nil => cases hm; cases he; exact hl
      | cons l₁ ms =>
        cases he
        obtain ⟨n, hn, hm⟩ := exec_cons_some.1 hm
        exact h n hn ms l' rest m rfl hm
    · intro h
      refine ⟨h [] l ls s rfl rfl, fun n hn ms l' rest m he hm => ?_⟩
      exact h (l :: ms) l' rest m (by rw [he]; rfl) (exec_cons_some.2 ⟨n, hn, hm⟩)

/-- A condition that every step meets holds along every run. -/
theorem along_of_forall {C : σ → ℓ → Prop} (h : ∀ s l, C s l) (s : σ) (ls : List ℓ) :
    Along step C s ls := by
  induction ls generalizing s with
  | nil => trivial
  | cons l ls ih => exact ⟨h s l, fun s' _ => ih s'⟩

/-- A condition on the labels alone. -/
theorem along_of_mem {C : ℓ → Prop} {ls : List ℓ} (h : ∀ l ∈ ls, C l) (s : σ) :
    Along step (fun _ l => C l) s ls := by
  induction ls generalizing s with
  | nil => trivial
  | cons l ls ih =>
    exact ⟨h l List.mem_cons_self,
      fun s' _ => ih (fun l' hl => h l' (List.mem_cons_of_mem _ hl)) s'⟩

theorem mem_of_along {C : ℓ → Prop} {s s' : σ} {ls : List ℓ}
    (h : Along step (fun _ l => C l) s ls) (hs : exec step s ls = some s') : ∀ l ∈ ls, C l := by
  induction ls generalizing s with
  | nil => simp
  | cons l ls ih =>
    obtain ⟨m, hm, hs⟩ := exec_cons_some.1 hs
    exact List.forall_mem_cons.2 ⟨h.1, ih (h.2 m hm) hs⟩

/-- **Invariant rule**, for runs whose steps all meet `C`. -/
theorem exec_inv {I : σ → Prop} {C : σ → ℓ → Prop}
    (keep : ∀ s l s', I s → C s l → step s l = some s' → I s') {s s' : σ} {ls : List ℓ}
    (hs : I s) (hC : Along step C s ls) (h : exec step s ls = some s') : I s' := by
  induction ls generalizing s with
  | nil => cases h; exact hs
  | cons l ls ih =>
    obtain ⟨m, hm, h⟩ := exec_cons_some.1 h
    exact ih (keep s l m hs hC.1 hm) (hC.2 m hm) h

/-- **Invariant rule**, unconditional form. -/
theorem exec_inv' {I : σ → Prop} (keep : ∀ s l s', I s → step s l = some s' → I s')
    {s s' : σ} {ls : List ℓ} (hs : I s) (h : exec step s ls = some s') : I s' :=
  exec_inv (C := fun _ _ => True) (fun s l s' hi _ => keep s l s' hi) hs
    (along_of_forall (fun _ _ => trivial) s ls) h

/-- **Variant rule**: a run of steps that each lower `m` is no longer than `m` was at its start. -/
theorem exec_variant {m : σ → Nat} {I : σ → Prop} {C : σ → ℓ → Prop}
    (keep : ∀ s l s', I s → C s l → step s l = some s' → I s')
    (lower : ∀ s l s', I s → C s l → step s l = some s' → m s' < m s) {s s' : σ} {ls : List ℓ}
    (hs : I s) (hC : Along step C s ls) (h : exec step s ls = some s') :
    ls.length + m s' ≤ m s := by
  induction ls generalizing s with
  | nil => cases h; exact (Nat.zero_add _).le
  | cons l ls ih =>
    obtain ⟨t, ht, h⟩ := exec_cons_some.1 h
    have hlow := lower s l t hs hC.1 ht
    have hrest := ih (keep s l t hs hC.1 ht) (hC.2 t ht) h
    rw [List.length_cons]
    omega

/-- Where such steps lower `m`, some run of them cannot be continued. -/
theorem exists_exec_end {m : σ → Nat} {I : σ → Prop} {C : σ → ℓ → Prop}
    (keep : ∀ s l s', I s → C s l → step s l = some s' → I s')
    (lower : ∀ s l s', I s → C s l → step s l = some s' → m s' < m s) {s : σ} (hs : I s) :
    ∃ ls s', exec step s ls = some s' ∧ Along step C s ls ∧ I s' ∧
      ∀ l, C s' l → step s' l = none := by
  induction hn : m s using Nat.strong_induction_on generalizing s with
  | _ n ih =>
    by_cases hend : ∀ l, C s l → step s l = none
    · exact ⟨[], s, rfl, trivial, hs, hend⟩
    · push Not at hend
      obtain ⟨l, hl, hne⟩ := hend
      obtain ⟨t, ht⟩ := Option.ne_none_iff_exists'.1 hne
      obtain ⟨ls, s', hls, hall, hi, hend⟩ :=
        ih (m t) (hn ▸ lower s l t hs hl ht) (keep s l t hs hl ht) rfl
      refine ⟨l :: ls, s', exec_cons_some.2 ⟨t, ht, hls⟩, ⟨hl, fun t' ht' => ?_⟩, hi, hend⟩
      cases ht.symm.trans ht'
      exact hall

/-- **Invariant rule**, where a step may use that it starts in a reachable state. -/
theorem exec_inv_reachable {I : σ → Prop} {C : σ → ℓ → Prop} {s₀ : σ}
    (keep : ∀ ms s l s', exec step s₀ ms = some s → I s → C s l → step s l = some s' → I s')
    {s : σ} {ls : List ℓ} (hs : I s₀) (hC : Along step C s₀ ls) (h : exec step s₀ ls = some s) :
    I s := by
  induction ls using List.reverseRecOn generalizing s with
  | nil => cases h; exact hs
  | append_singleton ls l ih =>
    obtain ⟨m, hm, h⟩ := exec_append_some.1 h
    obtain ⟨hC, hl, -⟩ := (along_append hm).1 hC
    exact keep ls m l s hm (ih hC hm) hl (exec_single.1 h)

/-- A relation that every step from an `I`-state respects holds between the ends of a run. -/
theorem exec_mono {I : σ → Prop} {C : σ → ℓ → Prop} {R : σ → σ → Prop}
    (refl : ∀ s, R s s) (trans : ∀ a b c, R a b → R b c → R a c)
    (keep : ∀ s l s', I s → C s l → step s l = some s' → I s')
    (mono : ∀ s l s', I s → C s l → step s l = some s' → R s s') {s s' : σ} {ls : List ℓ}
    (hs : I s) (hC : Along step C s ls) (h : exec step s ls = some s') : R s s' := by
  induction ls generalizing s with
  | nil => cases h; exact refl _
  | cons l ls ih =>
    obtain ⟨m, hm, h⟩ := exec_cons_some.1 h
    exact trans s m s' (mono s l m hs hC.1 hm) (ih (keep s l m hs hC.1 hm) (hC.2 m hm) h)

/-- **Simulation rule**: when every step from a state that `R` relates to one of the second system
is matched by a run of that system, so is every run. -/
theorem exec_simulates {step₂ : τ → κ → Option τ} {R : σ → τ → Prop}
    (sim : ∀ s l s' t, R s t → step s l = some s' → ∃ ks t', exec step₂ t ks = some t' ∧ R s' t')
    {s s' : σ} {t : τ} {ls : List ℓ} (hR : R s t) (h : exec step s ls = some s') :
    ∃ ks t', exec step₂ t ks = some t' ∧ R s' t' := by
  induction ls generalizing s t with
  | nil => cases h; exact ⟨[], t, rfl, hR⟩
  | cons l ls ih =>
    obtain ⟨m, hm, h⟩ := exec_cons_some.1 h
    obtain ⟨ks, u, hk, hR⟩ := sim s l m t hR hm
    obtain ⟨ks', t', hk', hR⟩ := ih hR h
    exact ⟨ks ++ ks', t', exec_append_some.2 ⟨u, hk, hk'⟩, hR⟩

/-- **Projection rule**: when every step of the composed system is a run of the component,
so is every run of the composed system. -/
theorem exec_project {step₂ : τ → κ → Option τ} (π : σ → τ)
    (sim : ∀ s l s', step s l = some s' → ∃ ks, exec step₂ (π s) ks = some (π s'))
    {s s' : σ} {ls : List ℓ} (h : exec step s ls = some s') :
    ∃ ks, exec step₂ (π s) ks = some (π s') := by
  obtain ⟨ks, t', hk, rfl⟩ := exec_simulates (R := fun s t => t = π s)
    (fun s l s' t hR hs => by
      obtain ⟨ks, hk⟩ := sim s l s' hs
      exact ⟨ks, π s', hR ▸ hk, rfl⟩) rfl h
  exact ⟨ks, hk⟩

/-- **Projection rule**, where the steps of the composed system meet a condition, and the
component's steps meet theirs for it. -/
theorem exec_project_along {step₂ : τ → κ → Option τ} {C : σ → ℓ → Prop} {C₂ : τ → κ → Prop}
    (π : σ → τ)
    (sim : ∀ s l s', C s l → step s l = some s' →
      ∃ ks, exec step₂ (π s) ks = some (π s') ∧ Along step₂ C₂ (π s) ks)
    {s s' : σ} {ls : List ℓ} (hC : Along step C s ls) (h : exec step s ls = some s') :
    ∃ ks, exec step₂ (π s) ks = some (π s') ∧ Along step₂ C₂ (π s) ks := by
  induction ls generalizing s with
  | nil => cases h; exact ⟨[], rfl, trivial⟩
  | cons l ls ih =>
    obtain ⟨m, hm, h⟩ := exec_cons_some.1 h
    obtain ⟨ks, hk, hkC⟩ := sim s l m hC.1 hm
    obtain ⟨ks', hk', hkC'⟩ := ih (hC.2 m hm) h
    exact ⟨ks ++ ks', exec_append_some.2 ⟨π m, hk, hk'⟩, (along_append hk).2 ⟨hkC, hkC'⟩⟩

/-- `P` holds in every state of the run from `s` over `ls`, the last one included. -/
def Always (step : σ → ℓ → Option σ) (P : σ → Prop) (s : σ) (ls : List ℓ) : Prop :=
  ∀ ms rest m, ls = ms ++ rest → exec step s ms = some m → P m

/-- **Exactness rule**: a condition on steps without which a step breaks `P`, and under which every
step keeps it, is met along exactly the runs on which `P` always holds. -/
theorem along_iff_always {P : σ → Prop} {C : σ → ℓ → Prop} {s₀ s : σ} {ls : List ℓ} (init : P s₀)
    (keep : ∀ ms s l s', exec step s₀ ms = some s → P s → C s l → step s l = some s' → P s')
    (breaks : ∀ ms s l s', exec step s₀ ms = some s → ¬ C s l → step s l = some s' → ¬ P s')
    (h : exec step s₀ ls = some s) :
    Along step C s₀ ls ↔ Always step P s₀ ls := by
  constructor
  · intro hC ms rest m hls hm
    have hpre : Along step C s₀ ms := ((along_append hm).1 (hls ▸ hC)).1
    exact exec_inv_reachable keep init hpre hm
  · intro hP
    rw [along_iff]
    intro ms l rest m hls hm
    by_contra hC
    rw [hls] at h
    obtain ⟨m', hm', h⟩ := exec_append_some.1 h
    cases hm.symm.trans hm'
    obtain ⟨m₁, hl, -⟩ := exec_cons_some.1 h
    refine breaks ms m l m₁ hm hC hl ?_
    exact hP (ms ++ [l]) rest m₁ (by simp [hls])
      (exec_append_some.2 ⟨m, hm, exec_single.2 hl⟩)

/-- Two systems whose steps agree in every state of an invariant have the same runs from it. -/
theorem exec_congr {step' : σ → ℓ → Option σ} {I : σ → Prop}
    (keep : ∀ s l s', I s → step s l = some s' → I s')
    (agree : ∀ s l, I s → step s l = step' s l) {s : σ} (hs : I s) (ls : List ℓ) :
    exec step s ls = exec step' s ls := by
  induction ls generalizing s with
  | nil => rfl
  | cons l ls ih =>
    simp only [exec, ← agree s l hs]
    cases hstep : step s l with
    | none => rfl
    | some m => exact ih (keep s l m hs hstep)

/-! ## Logs -/

section Each

variable {α : Type*} {Q R : List α → α → Prop} {l : List α} {e : α}

/-- Each entry of the log meets `Q` together with what was logged before it. -/
def Each (Q : List α → α → Prop) (l : List α) : Prop :=
  ∀ pre e post, l = pre ++ e :: post → Q pre e

theorem each_nil : Each Q [] := fun pre e post h => by cases pre <;> cases h

theorem each_snoc : Each Q (l ++ [e]) ↔ Each Q l ∧ Q l e := by
  constructor
  · intro h
    exact ⟨fun pre x post hl => h pre x (post ++ [e]) (by simp [hl]), h l e [] rfl⟩
  · rintro ⟨h, he⟩ pre x post hl
    rcases List.eq_nil_or_concat post with rfl | ⟨init, y, rfl⟩
    · obtain ⟨rfl, hx⟩ := List.append_inj' hl rfl
      cases hx
      exact he
    · rw [List.concat_eq_append, ← List.cons_append, ← List.append_assoc] at hl
      exact h pre x init (List.append_inj' hl rfl).1

theorem Each.imp (hqr : ∀ pre e, Q pre e → R pre e) (h : Each Q l) : Each R l :=
  fun pre e post hl => hqr pre e (h pre e post hl)

end Each

end Lts
