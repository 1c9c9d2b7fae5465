import Mathlib

/-!
# Lookup by the first match

Entries of a list are filed under keys and looked up by the first that has the key; some are marked. In an
`Unshadowed` list the lookup finds a marked entry wherever there is one. `unshadowed_raise` and `unshadowed_lower`
say when marking an entry, or unmarking or removing one, keeps the list so; `found_removed_iff` goes by the entry that
is the next under the key.
-/

namespace FirstMatch

variable {ι α : Type*} [DecidableEq α] {key : ι → α} {on on' : ι → Bool} {list list' : List ι} {a : α} {i j : ι}

def first (key : ι → α) (list : List ι) (a : α) : Option ι := list.find? fun i => key i = a

/-- `i` is filed under `a`, and nothing before it is. -/
def IsFirst (key : ι → α) (list : List ι) (a : α) (i : ι) : Prop :=
  ∃ before after, list = before ++ i :: after ∧ key i = a ∧ ∀ j ∈ before, key j ≠ a

theorem first_eq_some_iff_isFirst : first key list a = some i ↔ IsFirst key list a i := by
  rw [first, List.find?_eq_some_iff_append, IsFirst]
  constructor
  · rintro ⟨hkey, before, after, hlist, hbefore⟩
    exact ⟨before, after, hlist, by simpa using hkey, fun j hj => by simpa using hbefore j hj⟩
  · rintro ⟨before, after, hlist, hkey, hbefore⟩
    exact ⟨by simpa using hkey, before, after, hlist, fun j hj => by simpa using hbefore j hj⟩

theorem mem_of_first (h : first key list a = some i) : i ∈ list := List.mem_of_find?_eq_some h

theorem key_of_first (h : first key list a = some i) : key i = a := by simpa using List.find?_some h

theorem exists_first (hi : i ∈ list) : ∃ j, first key list (key i) = some j := by
  cases hf : first key list (key i) with
  | some j => exact ⟨j, rfl⟩
  | none => exact absurd (decide_eq_true rfl) (List.find?_eq_none.1 hf i hi)

theorem first_append_singleton :
    first key (list ++ [i]) a = (first key list a).or (if key i = a then some i else none) := by
  rw [first, List.find?_append]
  by_cases h : key i = a <;> simp [first, h]

/-- Where no two entries have the same key the lookup finds any entry under its key. -/
theorem first_eq_some_iff (hinj : ∀ i ∈ list, ∀ j ∈ list, key i = key j → i = j) :
    first key list a = some i ↔ i ∈ list ∧ key i = a := by
  constructor
  · intro h
    exact ⟨mem_of_first h, key_of_first h⟩
  · rintro ⟨hi, rfl⟩
    obtain ⟨j, hj⟩ : ∃ j, first key list (key i) = some j := exists_first hi
    rw [hj, hinj j (mem_of_first hj) i hi (key_of_first hj)]

/-- What was found first still is after `i` has been filed last. -/
theorem first_filed (hlist : list' = list ∨ list' = list ++ [i]) (h : first key list a = some j) :
    first key list' a = some j := by
  rcases hlist with rfl | rfl
  · exact h
  · rw [first_append_singleton, h, Option.some_or]

theorem mem_of_mem_filed (hlist : list' = list ∨ list' = list ++ [i]) (hj : j ∈ list') (hji : j ≠ i) : j ∈ list := by
  rcases hlist with rfl | rfl
  · exact hj
  · exact (List.mem_append.1 hj).resolve_right fun hs => hji (List.mem_singleton.1 hs)

/-! ### Marked entries -/

/-- Wherever a marked entry is filed the first entry is marked. -/
def Unshadowed (key : ι → α) (on : ι → Bool) (list : List ι) : Prop :=
  ∀ a, (∃ i ∈ list, on i = true ∧ key i = a) → ∃ i, first key list a = some i ∧ on i = true

/-- `i` is filed last or left where it is, and perhaps marked. -/
theorem unshadowed_raise (h : Unshadowed key on list) (hle : on i = true → on' i = true)
    (hsame : ∀ j, j ≠ i → on' j = on j) (hlist : list' = list ∨ list' = list ++ [i]) :
    Unshadowed key on' list' ↔
      (i ∈ list' → on' i = true → ∀ j, first key list (key i) = some j → j = i ∨ on j = true) := by
  have hmono : ∀ j, on j = true → on' j = true := by
    intro j hj
    by_cases hji : j = i
    · subst hji; exact hle hj
    · rw [hsame j hji]; exact hj
  constructor
  · intro h' hi hon j hj
    obtain ⟨k, hk, honk⟩ := h' (key i) ⟨i, hi, hon, rfl⟩
    rw [first_filed hlist hj, Option.some.injEq] at hk
    subst hk
    by_cases hji : j = i
    · exact .inl hji
    · exact .inr ((hsame j hji).symm.trans honk)
  · rintro hcond a ⟨k, hk, honk, rfl⟩
    by_cases hki : k = i
    · subst hki
      cases hf : first key list (key k) with
      | some j =>
        refine ⟨j, first_filed hlist hf, ?_⟩
        rcases hcond hk honk j hf with rfl | hj
        · exact honk
        · exact hmono j hj
      | none =>
        -- nothing was filed under the key, so `k` has been filed now
        rcases hlist with rfl | rfl
        · obtain ⟨j, hj⟩ : ∃ j, first key list' (key k) = some j := exists_first hk
          rw [hf] at hj; cases hj
        · exact ⟨k, by rw [first_append_singleton, hf]; simp, honk⟩
    · obtain ⟨j, hj, honj⟩ := h (key k) ⟨k, mem_of_mem_filed hlist hk hki, (hsame k hki).symm.trans honk, rfl⟩
      exact ⟨j, first_filed hlist hj, hmono j honj⟩

/-- `i` is unmarked, or copies of it are removed, which matters only where it was the first. -/
theorem unshadowed_lower (h : Unshadowed key on list) (hle : on' i = true → on i = true)
    (hsame : ∀ j, j ≠ i → on' j = on j) (hmem : ∀ j ∈ list', j ∈ list)
    (hfirst : ∀ a, first key list a ≠ some i → first key list' a = first key list a) :
    Unshadowed key on' list' ↔ (first key list (key i) = some i → ∀ j, first key list' (key i) = some j →
      on' j = true ∨ ∀ k ∈ list', key k = key i → on' k = false) := by
  constructor
  · intro h' _ j hj
    by_cases hex : ∃ k ∈ list', on' k = true ∧ key k = key i
    · obtain ⟨j', hj', honj'⟩ := h' (key i) hex
      rw [hj, Option.some.injEq] at hj'
      exact .inl (hj' ▸ honj')
    · refine .inr fun k hk hkey => Bool.eq_false_iff.2 fun honk => ?_
      exact hex ⟨k, hk, honk, hkey⟩
  · rintro hcond a ⟨k, hk, honk, rfl⟩
    by_cases hf : first key list (key k) = some i
    · have hkey : key i = key k := key_of_first hf
      obtain ⟨j, hj⟩ : ∃ j, first key list' (key k) = some j := exists_first hk
      rcases hcond (hkey ▸ hf) j (hkey ▸ hj) with honj | hnone
      · exact ⟨j, hj, honj⟩
      · rw [hnone k hk hkey.symm] at honk; cases honk
    · have honk' : on k = true := by
        by_cases hki : k = i
        · subst hki; exact hle honk
        · exact (hsame k hki).symm.trans honk
      obtain ⟨j, hj, honj⟩ := h (key k) ⟨k, hmem k hk, honk', rfl⟩
      have hji : j ≠ i := fun he => hf (he ▸ hj)
      exact ⟨j, (hfirst _ hf).trans hj, (hsame j hji).trans honj⟩

/-- No entry under the key of `i` but `i` itself is marked. -/
def OthersUnmarked (key : ι → α) (on : ι → Bool) (list : List ι) (i : ι) : Prop :=
  ∀ j ∈ list, j ≠ i → key j = key i → on j = false

/-- With the copies of `i` in `before` the first entries under its key, and `r` the next. -/
theorem first_append_cons {before : List ι} (after : List ι) {r : ι} (hr : key r = key i)
    (hbefore : ∀ j ∈ before, key j = key i → j = i) :
    (i ∈ before → first key (before ++ r :: after) (key i) = some i) ∧
      (i ∉ before → first key (before ++ r :: after) (key i) = some r) := by
  rw [first, List.find?_append]
  constructor
  · intro hi
    obtain ⟨j, hj⟩ : ∃ j, first key before (key i) = some j := exists_first hi
    rw [show before.find? _ = some j from hj, hbefore j (mem_of_first hj) (key_of_first hj)]
    rfl
  · intro hi
    have hnone : before.find? (fun j => key j = key i) = none := by
      refine List.find?_eq_none.2 fun j hj hkey => hi ?_
      rwa [← hbefore j hj (of_decide_eq_true hkey)]
    rw [hnone, Option.none_or]
    exact List.find?_cons_of_pos (decide_eq_true hr)

/-- Copies of `i`, which was the first, have been removed; `r` is the next entry under the key, and what is left in
front of it is `before'`. -/
theorem found_removed_iff {before' after' : List ι} {r : ι} (hne : r ≠ i) (hr : key r = key i)
    (hlist' : list' = before' ++ r :: after') (hbefore : ∀ j ∈ before', key j = key i → j = i)
    (hmem : ∀ j, j ≠ i → (j ∈ list' ↔ j ∈ list)) (hsame : ∀ j, j ≠ i → on' j = on j) :
    (∀ j, first key list' (key i) = some j → on' j = true ∨ ∀ k ∈ list', key k = key i → on' k = false) ↔
      (on' i = true → i ∈ before' ∨ on r = true ∨ OthersUnmarked key on list i ∧ i ∉ list') ∧
      (on' i = false → OthersUnmarked key on list i ∨ on r = true ∧ i ∉ before') := by
  have hnone : (∀ k ∈ list', key k = key i → on' k = false) ↔
      OthersUnmarked key on list i ∧ (i ∈ list' → on' i = false) := by
    constructor
    · intro h
      refine ⟨fun j hj hji hkey => ?_, fun hi => h i hi rfl⟩
      rw [← hsame j hji]
      exact h j ((hmem j hji).2 hj) hkey
    · rintro ⟨hothers, hself⟩ k hk hkey
      by_cases hki : k = i
      · subst hki
        exact hself hk
      · rw [hsame k hki]
        exact hothers k ((hmem k hki).1 hk) hki hkey
  rcases first_append_cons after' hr hbefore with ⟨hself, hnext⟩
  rw [← hlist'] at hself hnext
  by_cases hi : i ∈ before'
  · -- a copy is still found
    simp only [hself hi, Option.some.injEq, forall_eq', hnone, hi, not_true_eq_false, true_or, and_false, or_false,
      imp_true_iff, true_and]
    cases on' i <;> simp
  · simp only [hnext hi, Option.some.injEq, forall_eq', hnone, hi, not_false_eq_true, false_or, and_true,
      hsame r hne]
    cases on' i <;> simp [or_comm]

/-- Where `i` alone is filed under its key it shadows nothing. -/
theorem found_alone (hsub : ∀ j ∈ list', j ∈ list) (halone : ∀ j ∈ list, key j = key i → j = i) :
    ∀ j, first key list' (key i) = some j → on' j = true ∨ ∀ k ∈ list', key k = key i → on' k = false := by
  intro j hj
  have hji := halone j (hsub j (mem_of_first hj)) (key_of_first hj)
  subst hji
  cases hon : on' j with
  | true => exact .inl rfl
  | false => exact .inr fun k hk hkey => by rwa [halone k (hsub k hk) hkey]

end FirstMatch
