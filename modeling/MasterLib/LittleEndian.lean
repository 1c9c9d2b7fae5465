import Mathlib

/-!
# Words of a byte memory

A memory is a function on byte offsets. `load mem p w` is the `w`-bit word at offset `p`, low byte first, and
`store mem p v` is `mem` with the bytes of `v` from `p` on. The lemmas say which bytes a store changes, that a word is
loaded as it was stored, and how two words in a row make a longer one; an array of words is read back as it was
written.
-/

namespace LittleEndian

abbrev Memory := Nat → BitVec 8

def load (mem : Memory) (p w : Nat) : BitVec w := BitVec.ofFnLE fun i => (mem (p + i / 8)).getLsbD (i % 8)

def store (mem : Memory) (p : Nat) {w : Nat} (v : BitVec w) : Memory := fun q =>
  if p ≤ q ∧ q < p + w / 8 then v.extractLsb' (8 * (q - p)) 8 else mem q

variable {mem mem' : Memory} {p q i m n w : Nat} {v : BitVec w}

theorem getLsbD_load :
    (load mem p w).getLsbD i = (decide (i < w) && (mem (p + i / 8)).getLsbD (i % 8)) := by
  rw [load, BitVec.getLsbD_ofFnLE]
  by_cases h : i < w
  · simp [h]
  · simp [h]

theorem store_inside (h₁ : p ≤ q) (h₂ : q < p + w / 8) : store mem p v q = v.extractLsb' (8 * (q - p)) 8 :=
  if_pos ⟨h₁, h₂⟩

theorem store_outside (h : q < p ∨ p + w / 8 ≤ q) : store mem p v q = mem q :=
  if_neg (by omega)

theorem store_congr_at (h : ¬(p ≤ q ∧ q < p + w / 8) → mem q = mem' q) : store mem p v q = store mem' p v q := by
  by_cases hq : p ≤ q ∧ q < p + w / 8
  · rw [store_inside hq.1 hq.2, store_inside hq.1 hq.2]
  · rw [store, store, if_neg hq, if_neg hq, h hq]

theorem load_store (hw : 8 ∣ w) : load (store mem p v) p w = v := by
  refine BitVec.eq_of_getLsbD_eq fun i hi => ?_
  have hbyte : i / 8 < w / 8 := Nat.div_lt_div_of_lt_of_dvd hw hi
  rw [getLsbD_load, store_inside (by omega) (by omega), BitVec.getLsbD_extractLsb', Nat.add_sub_cancel_left,
    Nat.div_add_mod]
  simp [hi, Nat.mod_lt]

theorem load_congr_add (h : ∀ i, 8 * i < w → mem (p + i) = mem' (q + i)) : load mem p w = load mem' q w := by
  refine BitVec.eq_of_getLsbD_eq fun i hi => ?_
  rw [getLsbD_load, getLsbD_load, h (i / 8) (by omega)]

theorem load_congr (h : ∀ q, p ≤ q → 8 * (q - p) < w → mem q = mem' q) : load mem p w = load mem' p w :=
  load_congr_add fun i hi => h (p + i) (by omega) (by omega)

theorem load_store_of_disjoint {n : Nat} {val : BitVec n} (hn : 8 ∣ n) (hw : 8 ∣ w)
    (h : p + w / 8 ≤ q ∨ q + n / 8 ≤ p) : load (store mem q val) p w = load mem p w := by
  refine load_congr fun r hr hlt => store_outside ?_
  rcases hn with ⟨j, rfl⟩
  rcases hw with ⟨k, rfl⟩
  omega

theorem extractLsb'_load {k : Nat} (h : 8 * k + 8 ≤ w) : (load mem p w).extractLsb' (8 * k) 8 = mem (p + k) := by
  refine BitVec.eq_of_getLsbD_eq fun i hi => ?_
  have hdiv : (8 * k + i) / 8 = k := by omega
  have hmod : (8 * k + i) % 8 = i := by omega
  rw [BitVec.getLsbD_extractLsb', getLsbD_load, hdiv, hmod, decide_eq_true hi, decide_eq_true (by omega)]
  simp

/-! ### A load of another width than the store -/

variable {val : BitVec n}

theorem getLsbD_load_store (hn : 8 ∣ n) : (load (store mem p val) p w).getLsbD i =
    (decide (i < w) && if i < n then val.getLsbD i else (load mem p w).getLsbD i) := by
  rcases hn with ⟨k, rfl⟩
  by_cases hw : i < w
  · by_cases hi : i < 8 * k
    · rw [getLsbD_load, store_inside (by omega) (by omega), BitVec.getLsbD_extractLsb', Nat.add_sub_cancel_left,
        Nat.div_add_mod, if_pos hi]
      simp [Nat.mod_lt]
    · rw [getLsbD_load, store_outside (by omega), if_neg hi, getLsbD_load]
      simp
  · rw [decide_eq_false hw, getLsbD_load, decide_eq_false hw]
    simp

/-- A value that fits is loaded as it was stored if the bits behind a narrower store were zero. -/
theorem toNat_load_store_iff (hn : 8 ∣ n) (hfit : val.toNat < 2 ^ w) :
    (load (store mem p val) p w).toNat = val.toNat ↔ (load mem p w).toNat < 2 ^ n := by
  constructor
  · intro h
    refine Nat.lt_pow_two_of_testBit _ fun i hi => ?_
    have hbit := congrArg (Nat.testBit · i) h
    simp only [BitVec.testBit_toNat, getLsbD_load_store hn, if_neg (Nat.not_lt.2 hi)] at hbit
    rw [BitVec.getLsbD_of_ge val i hi] at hbit
    rw [BitVec.testBit_toNat]
    by_cases hw : i < w
    · simpa [hw] using hbit
    · exact BitVec.getLsbD_of_ge _ i (Nat.not_lt.1 hw)
  · intro h
    refine Nat.eq_of_testBit_eq fun i => ?_
    rw [BitVec.testBit_toNat, BitVec.testBit_toNat, getLsbD_load_store hn]
    by_cases hi : i < n
    · rw [if_pos hi]
      by_cases hw : i < w
      · simp [hw]
      · have hval : val.getLsbD i = false := by
          rw [← BitVec.testBit_toNat]
          exact Nat.testBit_lt_two_pow (hfit.trans_le (Nat.pow_le_pow_right (by decide) (Nat.not_lt.1 hw)))
        simp [hval]
    · have hold : (load mem p w).getLsbD i = false := by
        rw [← BitVec.testBit_toNat]
        exact Nat.testBit_lt_two_pow (h.trans_le (Nat.pow_le_pow_right (by decide) (Nat.not_lt.1 hi)))
      rw [if_neg hi, hold, BitVec.getLsbD_of_ge val i (Nat.not_lt.1 hi), Bool.and_false]

theorem extractLsb'_of_fits {k : Nat} (hfit : val.toNat < 2 ^ w) (hk : w ≤ 8 * k) :
    val.extractLsb' (8 * k) 8 = 0 := by
  refine BitVec.eq_of_getLsbD_eq fun i hi => ?_
  rw [BitVec.getLsbD_extractLsb', ← BitVec.testBit_toNat,
    Nat.testBit_lt_two_pow (hfit.trans_le (Nat.pow_le_pow_right (by decide) (by omega)))]
  simp

theorem load_append (hn : 8 ∣ n) : load mem (p + n / 8) m ++ load mem p n = load mem p (m + n) := by
  refine BitVec.eq_of_getLsbD_eq fun i hi => ?_
  rcases hn with ⟨k, rfl⟩
  rw [BitVec.getLsbD_append, Nat.mul_div_cancel_left _ (by omega)]
  by_cases h : i < 8 * k
  · rw [if_pos h, getLsbD_load, getLsbD_load, decide_eq_true h, decide_eq_true hi]
  · have hdiv : p + k + (i - 8 * k) / 8 = p + i / 8 := by omega
    have hmod : (i - 8 * k) % 8 = i % 8 := by omega
    have hlt : i - 8 * k < m := by omega
    rw [if_neg h, getLsbD_load, getLsbD_load, hdiv, hmod, decide_eq_true hlt, decide_eq_true hi]

/-! ### Arrays of words -/

def storeWords (mem : Memory) (p : Nat) {w : Nat} : List (BitVec w) → Memory
  | [] => mem
  | v :: vs => storeWords (store mem p v) (p + w / 8) vs

def loadWords (mem : Memory) (p w n : Nat) : List (BitVec w) :=
  (List.range n).map fun i => load mem (p + w / 8 * i) w

variable {vs : List (BitVec w)}

@[simp] theorem length_loadWords : (loadWords mem p w n).length = n := by simp [loadWords]

@[simp] theorem loadWords_zero : loadWords mem p w 0 = [] := rfl

theorem loadWords_succ : loadWords mem p w (n + 1) = load mem p w :: loadWords mem (p + w / 8) w n := by
  rw [loadWords, List.range_succ_eq_map, List.map_cons, List.map_map, Nat.mul_zero, Nat.add_zero]
  refine congrArg (load mem p w :: ·) (List.map_congr_left fun i _ => ?_)
  rw [Function.comp_apply, Nat.mul_succ, Nat.add_comm (w / 8 * i), Nat.add_assoc]

theorem storeWords_outside (h : q < p ∨ p + w / 8 * vs.length ≤ q) : storeWords mem p vs q = mem q := by
  induction vs generalizing mem p with
  | nil => rfl
  | cons v vs ih =>
    rw [List.length_cons, Nat.mul_succ] at h
    rw [storeWords, ih (by omega), store_outside (by omega)]

theorem storeWords_congr_at (h : ¬(p ≤ q ∧ q < p + w / 8 * vs.length) → mem q = mem' q) :
    storeWords mem p vs q = storeWords mem' p vs q := by
  induction vs generalizing mem mem' p with
  | nil => exact h (by simp)
  | cons v vs ih =>
    rw [List.length_cons, Nat.mul_succ] at h
    exact ih fun hq => store_congr_at fun hq' => h (by omega)

theorem load_storeWords_of_disjoint (hn : 8 ∣ n)
    (h : q + n / 8 ≤ p ∨ p + w / 8 * vs.length ≤ q) : load (storeWords mem p vs) q n = load mem q n := by
  refine load_congr fun r hr hlt => storeWords_outside ?_
  rcases hn with ⟨k, rfl⟩
  omega

theorem loadWords_congr_add (hw : 8 ∣ w) (h : ∀ i < w / 8 * n, mem (p + i) = mem' (q + i)) :
    loadWords mem p w n = loadWords mem' q w n := by
  refine List.map_congr_left fun i hi => load_congr_add fun j hj => ?_
  have hle : w / 8 * (i + 1) ≤ w / 8 * n := Nat.mul_le_mul_left _ (List.mem_range.1 hi)
  rw [Nat.mul_succ] at hle
  rcases hw with ⟨k, rfl⟩
  rw [Nat.add_assoc, Nat.add_assoc]
  exact h _ (by omega)

theorem loadWords_congr (hw : 8 ∣ w) (h : ∀ q, p ≤ q → q < p + w / 8 * n → mem q = mem' q) :
    loadWords mem p w n = loadWords mem' p w n :=
  loadWords_congr_add hw fun i hi => h (p + i) (by omega) (by omega)

theorem loadWords_store_of_disjoint {m : Nat} {val : BitVec m} (hw : 8 ∣ w)
    (h : p + w / 8 * n ≤ q ∨ q + m / 8 ≤ p) : loadWords (store mem q val) p w n = loadWords mem p w n :=
  loadWords_congr hw fun r _ _ => store_outside (by omega)

/-- An array is read back as it was written. -/
theorem loadWords_storeWords (hw : 8 ∣ w) : loadWords (storeWords mem p vs) p w vs.length = vs := by
  induction vs generalizing mem p with
  | nil => rfl
  | cons v vs ih =>
    rw [List.length_cons, loadWords_succ, storeWords, ih, load_storeWords_of_disjoint hw (Or.inl (Nat.le_refl _)),
      load_store hw]

end LittleEndian
