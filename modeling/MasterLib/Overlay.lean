import Mathlib

/-!
# Byte ranges of a memory

A memory is a function on `w`-bit addresses. `overlay m a bs` is `m` with the values `bs` written from
address `a` on, and `readBytes m a n` lists the `n` values from `a` on; both count addresses modulo
`2 ^ w`. The lemmas say how reads and overlays of equal, nested and disjoint ranges compose.
-/

namespace Overlay

variable {w : Nat} {α : Type*}

abbrev InRange (a : BitVec w) (n : Nat) (x : BitVec w) : Prop := (x - a).toNat < n

def overlay (m : BitVec w → α) (a : BitVec w) (bs : List α) : BitVec w → α :=
  fun x => bs.getD (x - a).toNat (m x)

def readBytes (m : BitVec w → α) (a : BitVec w) (n : Nat) : List α :=
  (List.range n).map fun i => m (a + BitVec.ofNat w i)

variable {m m' : BitVec w → α} {a c x : BitVec w} {xs ys : List α} {n i : Nat} {v : α}

/-! ### Offsets -/

theorem add_ofNat_sub_self (a x : BitVec w) : a + BitVec.ofNat w (x - a).toNat = x := by
  have h : BitVec.ofNat w (x - a).toNat = x - a := BitVec.eq_of_toNat_eq (by simp)
  rw [h, BitVec.add_comm, BitVec.sub_add_cancel]

theorem toNat_add_ofNat_sub (a : BitVec w) (i : Nat) :
    (a + BitVec.ofNat w i - a).toNat = i % 2 ^ w := by
  rw [BitVec.add_comm, BitVec.add_sub_cancel, BitVec.toNat_ofNat]

theorem inRange_add (h : i < n) : InRange a n (a + BitVec.ofNat w i) := by
  have := Nat.mod_le i (2 ^ w)
  rw [InRange, toNat_add_ofNat_sub]; omega

theorem InRange.exists_offset (h : InRange a n x) : ∃ i < n, x = a + BitVec.ofNat w i :=
  ⟨(x - a).toNat, h, (add_ofNat_sub_self a x).symm⟩

theorem InRange.mono {k : Nat} (h : InRange a n x) (hk : n ≤ k) : InRange a k x :=
  Nat.lt_of_lt_of_le h hk

theorem not_inRange_zero : ¬ InRange a 0 x := Nat.not_lt_zero _

/-! ### Overlays -/

theorem overlay_eq_getElem (h : InRange a xs.length x) :
    overlay m a xs x = xs[(x - a).toNat] := by
  simp only [overlay, List.getD_eq_getElem?_getD, List.getElem?_eq_getElem h, Option.getD_some]

theorem overlay_of_not_inRange (h : ¬ InRange a xs.length x) : overlay m a xs x = m x := by
  simp only [overlay, List.getD_eq_getElem?_getD, List.getElem?_eq_none (Nat.le_of_not_lt h),
    Option.getD_none]

theorem overlay_inRange_congr (h : InRange a xs.length x) : overlay m a xs x = overlay m' a xs x := by
  rw [overlay_eq_getElem h, overlay_eq_getElem h]

@[simp] theorem overlay_nil : overlay m a [] = m := by
  funext x; exact overlay_of_not_inRange not_inRange_zero

/-- A second write to the same place that is at least as long replaces the first. -/
theorem overlay_overlay (h : xs.length ≤ ys.length) :
    overlay (overlay m a xs) a ys = overlay m a ys := by
  funext x
  by_cases hy : InRange a ys.length x
  · exact overlay_inRange_congr hy
  · rw [overlay_of_not_inRange hy, overlay_of_not_inRange hy,
      overlay_of_not_inRange fun hx => hy (hx.mono h)]

theorem overlay_eq_self_iff :
    overlay m a xs = m ↔ ∀ x (_ : InRange a xs.length x), xs[(x - a).toNat] = m x := by
  constructor
  · intro h x hx; rw [← overlay_eq_getElem (m := m) hx, h]
  · intro h; funext x
    by_cases hx : InRange a xs.length x
    · rw [overlay_eq_getElem hx, h x hx]
    · exact overlay_of_not_inRange hx

theorem overlay_replicate_eq_self_iff :
    overlay m a (List.replicate n v) = m ↔ ∀ i < n, m (a + BitVec.ofNat w i) = v := by
  rw [overlay_eq_self_iff]
  constructor
  · intro h i hi
    have := h _ (by rw [List.length_replicate]; exact inRange_add hi)
    rw [List.getElem_replicate] at this; exact this.symm
  · intro h x hx
    rw [List.length_replicate] at hx
    obtain ⟨i, hi, rfl⟩ := hx.exists_offset
    rw [List.getElem_replicate, h i hi]

/-- Of a list longer than the address space only the first `2 ^ w` values count. -/
theorem overlay_eq_self_iff_getElem :
    overlay m a xs = m ↔ ∀ i (_ : i < xs.length), i < 2 ^ w → xs[i] = m (a + BitVec.ofNat w i) := by
  rw [overlay_eq_self_iff]
  constructor
  · intro h i hi hw
    have := h _ (inRange_add hi)
    simpa only [toNat_add_ofNat_sub, Nat.mod_eq_of_lt hw] using this
  · intro h x hx
    have := h _ hx (x - a).isLt
    rwa [add_ofNat_sub_self] at this

/-- A write of the first `k` values does what a write of all does exactly when the others are there already. -/
theorem overlay_take_eq_overlay_iff {k : Nat} : overlay m a (xs.take k) = overlay m a xs ↔
    ∀ i (_ : i < xs.length), k ≤ i → i < 2 ^ w → xs[i] = m (a + BitVec.ofNat w i) := by
  constructor
  · intro h i hi hk hw
    have hx := congrFun h (a + BitVec.ofNat w i)
    have hoff : (a + BitVec.ofNat w i - a).toNat = i := by rw [toNat_add_ofNat_sub, Nat.mod_eq_of_lt hw]
    simp only [overlay, hoff, List.getD_eq_getElem?_getD, List.getElem?_take, if_neg (Nat.not_lt.2 hk),
      List.getElem?_eq_getElem hi, Option.getD_some, Option.getD_none] at hx
    exact hx.symm
  · intro h; funext x
    simp only [overlay, List.getD_eq_getElem?_getD, List.getElem?_take]
    split
    · rfl
    · rename_i hk
      by_cases hx : InRange a xs.length x
      · rw [List.getElem?_eq_getElem hx, Option.getD_none, Option.getD_some, h _ hx (Nat.le_of_not_lt hk) (x - a).isLt,
          add_ofNat_sub_self]
      · rw [List.getElem?_eq_none (Nat.le_of_not_lt hx)]

theorem overlay_take_eq_self_iff {k : Nat} : overlay m a (xs.take k) = m ↔
    ∀ i (_ : i < xs.length), i < k → i < 2 ^ w → xs[i] = m (a + BitVec.ofNat w i) := by
  rw [overlay_eq_self_iff_getElem]
  constructor
  · intro h i hi hk hw
    have := h i (by rw [List.length_take]; omega) hw
    rwa [List.getElem_take] at this
  · intro h i hi hw
    rw [List.length_take] at hi
    rw [List.getElem_take]
    exact h i (by omega) (by omega) hw

/-! ### Reads -/

@[simp] theorem length_readBytes : (readBytes m a n).length = n := by simp [readBytes]

theorem getElem_readBytes (h : i < (readBytes m a n).length) :
    (readBytes m a n)[i] = m (a + BitVec.ofNat w i) := by simp [readBytes]

theorem readBytes_congr (h : ∀ x, InRange a n x → m x = m' x) : readBytes m a n = readBytes m' a n :=
  List.map_congr_left fun _ hi => h _ (inRange_add (List.mem_range.1 hi))

theorem readBytes_one : readBytes m a 1 = [m a] := by
  simp [readBytes]

theorem overlay_readBytes : overlay m a (readBytes m a n) = m := by
  refine overlay_eq_self_iff.2 fun x hx => ?_
  rw [getElem_readBytes, add_ofNat_sub_self]

theorem readBytes_overlay (h : xs.length ≤ 2 ^ w) : readBytes (overlay m a xs) a xs.length = xs := by
  refine List.ext_getElem length_readBytes fun i hi hi' => ?_
  have hr : InRange a xs.length (a + BitVec.ofNat w i) := inRange_add hi'
  rw [getElem_readBytes, overlay_eq_getElem hr]
  congr 1
  rw [toNat_add_ofNat_sub, Nat.mod_eq_of_lt (by omega)]

/-- A write changes nothing exactly when its bytes are there already. -/
theorem overlay_eq_self_iff_readBytes (h : xs.length ≤ 2 ^ w) :
    overlay m a xs = m ↔ readBytes m a xs.length = xs := by
  constructor
  · intro he; rw [← he]; exact readBytes_overlay h
  · intro he; rw [← he]; exact overlay_readBytes

/-! ### Patches -/

section
variable {ι : Type*} {addr : ι → BitVec w} {bytes : ι → List α} {S S' : ι → Prop} {m₀ : BitVec w → α} {i : ι}

structure Patched (addr : ι → BitVec w) (bytes : ι → List α) (S : ι → Prop) (m₀ m : BitVec w → α) : Prop where
  inside : ∀ i, S i → ∀ x, InRange (addr i) (bytes i).length x → m x = overlay m₀ (addr i) (bytes i) x
  outside : ∀ x, (∀ i, S i → ¬ InRange (addr i) (bytes i).length x) → m x = m₀ x

/-- The patches other than `i` in `S` do not meet the range of `i`. -/
def ApartFrom (addr : ι → BitVec w) (bytes : ι → List α) (S : ι → Prop) (i : ι) : Prop :=
  ∀ j, S j → j ≠ i → ∀ x, InRange (addr i) (bytes i).length x → ¬ InRange (addr j) (bytes j).length x

namespace Patched

theorem congr (h : Patched addr bytes S m₀ m) (hS : ∀ i, S' i ↔ S i) : Patched addr bytes S' m₀ m := by
  rwa [show S' = S from funext fun i => propext (hS i)]

theorem empty (hS : ∀ i, ¬ S i) : Patched addr bytes S m₀ m₀ :=
  ⟨fun i hi => absurd hi (hS i), fun _ _ => rfl⟩

theorem read (h : Patched addr bytes S m₀ m) (hi : ¬ S i) (hd : ApartFrom addr bytes S i) :
    readBytes m (addr i) (bytes i).length = readBytes m₀ (addr i) (bytes i).length := by
  refine readBytes_congr fun x hx => h.outside x fun j hj => ?_
  exact hd j hj (fun hji => hi (hji ▸ hj)) x hx

theorem insert (h : Patched addr bytes S m₀ m) (hd : ApartFrom addr bytes S i) :
    Patched addr bytes (fun j => j = i ∨ S j) m₀ (overlay m (addr i) (bytes i)) := by
  refine ⟨fun j hj x hx => ?_, fun x hx => ?_⟩
  · by_cases hji : j = i
    · subst hji; exact overlay_inRange_congr hx
    · have hSj := hj.resolve_left hji
      rw [overlay_of_not_inRange fun hxi => hd j hSj hji x hxi hx]
      exact h.inside j hSj x hx
  · rw [overlay_of_not_inRange (hx i (.inl rfl))]
    exact h.outside x fun j hj => hx j (.inr hj)

/-- Writing the original bytes back removes a patch; where there was none it changes nothing. -/
theorem remove (h : Patched addr bytes S m₀ m) (hd : ApartFrom addr bytes S i) :
    Patched addr bytes (fun j => j ≠ i ∧ S j) m₀
      (overlay m (addr i) (readBytes m₀ (addr i) (bytes i).length)) := by
  refine ⟨fun j hj x hx => ?_, fun x hx => ?_⟩
  · rw [overlay_of_not_inRange]
    · exact h.inside j hj.2 x hx
    · rw [length_readBytes]; exact fun hxi => hd j hj.2 hj.1 x hxi hx
  · by_cases hxi : InRange (addr i) (bytes i).length x
    · have hx' : InRange (addr i) (readBytes m₀ (addr i) (bytes i).length).length x := by
        rwa [length_readBytes]
      calc overlay m (addr i) (readBytes m₀ (addr i) (bytes i).length) x
        _ = overlay m₀ (addr i) (readBytes m₀ (addr i) (bytes i).length) x := overlay_inRange_congr hx'
        _ = m₀ x := by rw [overlay_readBytes]
    · rw [overlay_of_not_inRange (by rwa [length_readBytes])]
      refine h.outside x fun j hj => ?_
      by_cases hji : j = i
      · rwa [hji]
      · exact hx j ⟨hji, hj⟩

end Patched
end

end Overlay
