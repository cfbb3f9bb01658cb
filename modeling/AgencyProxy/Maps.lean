import Mathlib.Tactic

/-!
# Counting in tree maps

Lookup lemmas for `Std.ExtTreeMap` over a lawful order, in the form "same key or another
key"; `count p m`, the number of values that satisfy `p`, and `sum f m`, what the values add
up to, with how each changes when one entry is added or replaced.
-/

namespace Std.ExtTreeMap

variable {α β : Type*} {cmp : α → α → Ordering} [TransCmp cmp]
  {m : ExtTreeMap α β cmp} {k k' : α} {v w : β} {p : β → Bool}

theorem mem_of_getElem? (h : m[k]? = some v) : k ∈ m := by
  rw [mem_iff_isSome_getElem?, h]; rfl

/-- There is always a key that is not used yet. -/
theorem exists_notMem [Infinite α] (m : ExtTreeMap α β cmp) [LawfulEqCmp cmp] : ∃ k, k ∉ m := by
  classical
  obtain ⟨k, hk⟩ := Infinite.exists_notMem_finset m.keys.toFinset
  exact ⟨k, fun hm => hk (List.mem_toFinset.2 (mem_keys.2 hm))⟩

/-- How many values satisfy `p`. -/
def count (p : β → Bool) (m : ExtTreeMap α β cmp) : Nat := (m.filter fun _ v => p v).size

theorem contains_filter_val :
    (m.filter fun _ v => p v).contains k = (m[k]?.filter p).isSome := by
  rw [contains_eq_isSome_getElem?]; simp

theorem count_pos_of_getElem? (h : m[k]? = some v) (hv : p v = true) : 0 < m.count p := by
  unfold count
  rw [Nat.pos_iff_ne_zero, Ne, ← eq_empty_iff_size_eq_zero]
  intro he
  have : (m.filter fun _ v => p v)[k]? = none := by rw [he]; simp
  simp [h, hv] at this

theorem count_eq_zero (h : m.count p = 0) (hk : m[k]? = some v) : p v = false := by
  cases hv : p v with
  | false => rfl
  | true => have := count_pos_of_getElem? hk hv; omega

theorem count_eq_zero_of_forall [LawfulEqCmp cmp]
    (h : ∀ (k : α) (v : β), m[k]? = some v → p v = false) : m.count p = 0 := by
  rw [count, ← eq_empty_iff_size_eq_zero]
  apply ext_getElem?
  intro k
  cases hk : m[k]? with
  | none => simp [hk]
  | some v => simp [hk, h k v hk]

/-- The count only reads whether each value satisfies `p`. -/
theorem count_congr {m' : ExtTreeMap α β cmp} [LawfulEqCmp cmp]
    (h : ∀ k : α, m'[k]?.map p = m[k]?.map p) : m'.count p = m.count p := by
  have he : (m'.filter fun _ v => p v).map (fun _ _ => ()) =
      (m.filter fun _ v => p v).map (fun _ _ => ()) := by
    apply ext_getElem?
    intro k
    have hk := h k
    rw [getElem?_map, getElem?_map, getElem?_filter', getElem?_filter']
    cases h' : m'[k]? with
    | none => cases h0 : m[k]? <;> simp_all
    | some v =>
      cases h0 : m[k]? with
      | none => simp [h', h0] at hk
      | some w =>
        rw [h', h0, Option.map_some, Option.map_some, Option.some.injEq] at hk
        cases hw : p w <;> simp [Option.filter, hk, hw]
  have := congrArg size he
  simpa [count] using this

variable [LawfulEqCmp cmp]

theorem getElem?_insert_of_ne (h : k ≠ k') : (m.insert k v)[k']? = m[k']? := by
  rw [getElem?_insert, if_neg (by simpa using h)]

theorem getElem?_erase_of_ne (h : k ≠ k') : (m.erase k)[k']? = m[k']? := by
  rw [getElem?_erase, if_neg (by simpa using h)]

theorem getElem?_insert_some :
    (m.insert k v)[k']? = some w ↔ (k = k' ∧ v = w) ∨ (k ≠ k' ∧ m[k']? = some w) := by
  by_cases h : k = k'
  · subst h; simp
  · simp [getElem?_insert_of_ne h, h]

/-- What holds of each entry, and of a new one, holds of each entry with the new one. -/
theorem forall_insert {Q : α → β → Prop} (h : ∀ (k : α) (v : β), m[k]? = some v → Q k v)
    (hv : Q k v) (k' : α) (w : β) (hw : (m.insert k v)[k']? = some w) : Q k' w := by
  rcases getElem?_insert_some.1 hw with ⟨rfl, rfl⟩ | ⟨-, hw⟩
  · exact hv
  · exact h k' w hw

theorem getElem?_erase_some :
    (m.erase k)[k']? = some w ↔ k ≠ k' ∧ m[k']? = some w := by
  by_cases h : k = k'
  · subst h; simp
  · simp [getElem?_erase_of_ne h, h]

/-- Replacing a value by one that `f` does not tell apart. -/
theorem map_getElem?_insert {γ : Type*} {f : β → γ} (h : m[k]? = some w) (hf : f v = f w)
    (k' : α) : (m.insert k v)[k']?.map f = m[k']?.map f := by
  by_cases he : k = k'
  · subst he; simp [h, hf]
  · rw [getElem?_insert_of_ne he]

@[simp] theorem count_empty : count p (∅ : ExtTreeMap α β cmp) = 0 := by
  rw [count, ← eq_empty_iff_size_eq_zero]
  apply ext_getElem?
  simp

theorem filter_insert_pos (h : p v = true) :
    (m.insert k v).filter (fun _ v => p v) = (m.filter fun _ v => p v).insert k v := by
  apply ext_getElem?
  intro a
  by_cases ha : k = a
  · subst ha; simp [h]
  · simp [getElem?_insert_of_ne ha]

theorem filter_insert_neg (h : p v = false) :
    (m.insert k v).filter (fun _ v => p v) = (m.filter fun _ v => p v).erase k := by
  apply ext_getElem?
  intro a
  by_cases ha : k = a
  · subst ha; simp [h]
  · simp [getElem?_insert_of_ne ha, getElem?_erase_of_ne ha]

/-- Adding an entry under a new key. -/
theorem count_insert_new (h : m[k]? = none) :
    (m.insert k v).count p = m.count p + (p v).toNat := by
  have hc : (m.filter fun _ v => p v).contains k = false := by
    rw [contains_filter_val, h]; rfl
  unfold count
  cases hv : p v with
  | true => rw [filter_insert_pos hv, size_insert, hc]; rfl
  | false => rw [filter_insert_neg hv, size_erase, hc]; rfl

/-- Replacing the value under a key. -/
theorem count_insert_old (h : m[k]? = some w) :
    (m.insert k v).count p + (p w).toNat = m.count p + (p v).toNat := by
  have hc : (m.filter fun _ v => p v).contains k = p w := by
    rw [contains_filter_val, h]; cases hw : p w <;> simp [hw]
  have hpos : p w = true → 0 < (m.filter fun _ v => p v).size := count_pos_of_getElem? h
  unfold count
  cases hv : p v with
  | true =>
    rw [filter_insert_pos hv, size_insert, hc]
    cases hw : p w <;> simp
  | false =>
    rw [filter_insert_neg hv, size_erase, hc]
    cases hw : p w with
    | false => simp
    | true => have := hpos hw; simp; omega

/-- Removing an entry. -/
theorem count_erase (h : m[k]? = some w) :
    (m.erase k).count p + (p w).toNat = m.count p := by
  have hc : (m.filter fun _ v => p v).contains k = p w := by
    rw [contains_filter_val, h]; cases hw : p w <;> simp [hw]
  have hpos : p w = true → 0 < (m.filter fun _ v => p v).size := count_pos_of_getElem? h
  have he : (m.erase k).filter (fun _ v => p v) = (m.filter fun _ v => p v).erase k := by
    apply ext_getElem?
    intro a
    by_cases ha : k = a
    · subst ha; simp
    · simp [getElem?_erase_of_ne ha]
  unfold count
  rw [he, size_erase, hc]
  cases hw : p w with
  | false => simp
  | true => have := hpos hw; simp; omega

/-! ## Sums -/

section Sum

variable {m' : ExtTreeMap α β cmp} {f : β → Nat}

/-- What `f` of the values adds up to. -/
def sum (f : β → Nat) (m : ExtTreeMap α β cmp) : Nat := (m.toList.map fun p => f p.2).sum

theorem sum_congr (h : ∀ k : α, m'[k]?.map f = m[k]?.map f) : m'.sum f = m.sum f := by
  have he : (m'.map fun _ v => f v) = m.map fun _ v => f v := by
    apply ext_getElem?
    intro k
    rw [getElem?_map, getElem?_map]
    exact h k
  have hl := congrArg (fun m => m.toList.map Prod.snd) he
  simp only [toList_map, List.map_map] at hl
  exact congrArg List.sum hl

theorem toList_insert_perm (h : m[k]? = none) :
    (m.insert k v).toList.Perm ((k, v) :: m.toList) := by
  have hnodup : ∀ m : ExtTreeMap α β cmp, m.toList.Nodup := fun m => by
    refine distinct_keys_toList.imp ?_
    rintro a b hne rfl
    exact hne ReflCmp.compare_self
  have hmem : (k, v) ∉ m.toList := fun hm => by
    cases h.symm.trans (mem_toList_iff_getElem?_eq_some.1 hm)
  refine (List.perm_ext_iff_of_nodup (hnodup _) (List.nodup_cons.2 ⟨hmem, hnodup m⟩)).2 ?_
  rintro ⟨k', w⟩
  rw [mem_toList_iff_getElem?_eq_some, List.mem_cons, mem_toList_iff_getElem?_eq_some,
    getElem?_insert_some, Prod.mk.injEq, eq_comm (a := k'), eq_comm (a := w)]
  refine or_congr_right ⟨And.right, fun hw => ⟨?_, hw⟩⟩
  rintro rfl
  cases h.symm.trans hw

omit [LawfulEqCmp cmp] in
theorem sum_empty : (∅ : ExtTreeMap α β cmp).sum f = 0 := by
  rw [sum, toList_eq_nil_iff.2 rfl]
  rfl

/-- Adding an entry under a new key. -/
theorem sum_insert_new (h : m[k]? = none) : (m.insert k v).sum f = m.sum f + f v := by
  have hp := ((toList_insert_perm (v := v) h).map fun p => f p.2).sum_eq
  rw [List.map_cons, List.sum_cons] at hp
  rw [sum, hp, Nat.add_comm, sum]

theorem insert_erase_self (h : m[k]? = some w) : (m.erase k).insert k w = m := by
  apply ext_getElem?
  intro a
  by_cases ha : k = a
  · subst ha; simp [h]
  · simp [getElem?_insert_of_ne ha, getElem?_erase_of_ne ha]

theorem insert_erase : (m.erase k).insert k v = m.insert k v := by
  apply ext_getElem?
  intro a
  by_cases ha : k = a
  · subst ha; simp
  · simp [getElem?_insert_of_ne ha, getElem?_erase_of_ne ha]

/-- Storing what is stored already. -/
theorem insert_same (h : m[k]? = some w) : m.insert k w = m := by
  apply ext_getElem?
  intro a
  by_cases ha : k = a
  · subst ha; simp [h]
  · simp [getElem?_insert_of_ne ha]

theorem insert_insert : (m.insert k v).insert k w = m.insert k w := by
  apply ext_getElem?
  intro a
  by_cases ha : k = a
  · subst ha; simp
  · simp [getElem?_insert_of_ne ha]

theorem sum_erase (h : m[k]? = some w) : (m.erase k).sum f + f w = m.sum f := by
  rw [← sum_insert_new (by simp : (m.erase k)[k]? = none), insert_erase_self h]

/-- Replacing the value under a key. -/
theorem sum_insert_old (h : m[k]? = some w) :
    (m.insert k v).sum f + f w = m.sum f + f v := by
  have he := sum_erase (f := f) h
  have hi := sum_insert_new (f := f) (v := v) (by simp : (m.erase k)[k]? = none)
  rw [insert_erase] at hi
  omega

theorem sum_insert_le : (m.insert k v).sum f ≤ m.sum f + f v := by
  cases h : m[k]? with
  | none => exact (sum_insert_new h).le
  | some w => have := sum_insert_old (f := f) (v := v) h; omega

/-- Each value is part of the sum. -/
theorem le_sum (h : m[k]? = some v) : f v ≤ m.sum f := by
  have := sum_erase (f := f) h
  omega

end Sum

end Std.ExtTreeMap
