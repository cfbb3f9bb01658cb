import Mathlib.Tactic

/-!
# Consecutively numbered lists

`Numbered key base l` says that the keys of `l` are `base + 1, base + 2, …`: an
append-only log, or what is left of one after its front was trimmed. On such a list
filtering by key, dropping while the key is small and dropping by index are the same
operation.
-/

variable {α : Type*} {key : α → Nat} {base : Nat} {l : List α}

def Numbered (key : α → Nat) (base : Nat) (l : List α) : Prop :=
  l.map key = List.range' (base + 1) l.length

namespace Numbered

@[simp] theorem nil : Numbered key base [] := rfl

@[simp] theorem cons_iff {x : α} :
    Numbered key base (x :: l) ↔ key x = base + 1 ∧ Numbered key (base + 1) l := by
  simp [Numbered, List.range'_succ]

theorem append_iff {l' : List α} :
    Numbered key base (l ++ l') ↔ Numbered key base l ∧ Numbered key (base + l.length) l' := by
  induction l generalizing base with
  | nil => simp
  | cons x l ih =>
    simp only [List.cons_append, cons_iff, ih, List.length_cons, and_assoc]
    rw [show base + 1 + l.length = base + (l.length + 1) by omega]

theorem drop (h : Numbered key base l) {k : Nat} (hk : k ≤ l.length) :
    Numbered key (base + k) (l.drop k) := by
  rw [← List.take_append_drop k l, append_iff, List.length_take, Nat.min_eq_left hk] at h
  exact h.2

/-- The key of an element says where it stands. -/
theorem getElem?_of_mem (h : Numbered key base l) {x : α} (hx : x ∈ l) :
    base < key x ∧ key x ≤ base + l.length ∧ l[key x - base - 1]? = some x := by
  induction l generalizing base with
  | nil => simp at hx
  | cons y l ih =>
    obtain ⟨hy, hl⟩ := cons_iff.1 h
    rcases List.mem_cons.1 hx with rfl | hx
    · simp [hy]
    · obtain ⟨h1, h2, h3⟩ := ih hl hx
      refine ⟨by omega, by simp only [List.length_cons]; omega, ?_⟩
      rwa [show key x - base - 1 = (key x - (base + 1) - 1) + 1 by omega, List.getElem?_cons_succ]

/-- Every number in range is somebody's key. -/
theorem exists_key (h : Numbered key base l) {n : Nat} (hb : base < n)
    (hn : n ≤ base + l.length) : ∃ x ∈ l, key x = n := by
  have hm : n ∈ l.map key := by
    rw [h, List.mem_range'_1]
    omega
  exact List.mem_map.1 hm

theorem bounds (h : Numbered key base l) {x : α} (hx : x ∈ l) :
    base < key x ∧ key x ≤ base + l.length :=
  ⟨(h.getElem?_of_mem hx).1, (h.getElem?_of_mem hx).2.1⟩

theorem pairwise (h : Numbered key base l) : l.Pairwise (fun x y => key x < key y) := by
  rw [← List.pairwise_map (f := key) (R := (· < ·)), h]
  exact List.pairwise_lt_range'

theorem mem_drop_iff (h : Numbered key base l) {x : α} (hx : x ∈ l) {k : Nat} :
    x ∈ l.drop k ↔ base + k < key x := by
  induction l generalizing base k with
  | nil => simp at hx
  | cons y l ih =>
    obtain ⟨hy, hl⟩ := cons_iff.1 h
    cases k with
    | zero => simpa [hx] using (h.bounds hx).1
    | succ k =>
      rw [List.drop_succ_cons]
      rcases List.mem_cons.1 hx with rfl | hx'
      · constructor
        · intro hm
          have := (hl.bounds (List.mem_of_mem_drop hm)).1
          omega
        · omega
      · rw [ih hl hx']; omega

theorem dropWhile_le (h : Numbered key base l) (n : Nat) :
    l.dropWhile (fun x => key x ≤ n) = l.drop (n - base) := by
  induction l generalizing base with
  | nil => simp
  | cons y l ih =>
    obtain ⟨hy, hl⟩ := cons_iff.1 h
    by_cases hn : key y ≤ n
    · rw [List.dropWhile_cons_of_pos (by simpa using hn), ih hl,
        show n - base = n - (base + 1) + 1 by omega, List.drop_succ_cons]
    · rw [List.dropWhile_cons_of_neg (by simpa using hn), show n - base = 0 by omega,
        List.drop_zero]

theorem filter_gt (h : Numbered key base l) (n : Nat) :
    l.filter (fun x => n < key x) = l.drop (n - base) := by
  induction l generalizing base with
  | nil => simp
  | cons y l ih =>
    obtain ⟨hy, hl⟩ := cons_iff.1 h
    by_cases hn : n < key y
    · rw [List.filter_cons_of_pos (by simpa using hn), ih hl, show n - base = 0 by omega,
        show n - (base + 1) = 0 by omega]
      simp
    · rw [List.filter_cons_of_neg (by simpa using hn), ih hl,
        show n - base = n - (base + 1) + 1 by omega, List.drop_succ_cons]

end Numbered
