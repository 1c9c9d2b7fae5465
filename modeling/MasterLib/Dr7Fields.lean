import MasterLib.DebugSlots

/-!
# The fields of DR7

What an edit through `dr7_ctx` does to the 64 bits of the register. Its bit-fields cover the lower half, so a bit
that no assigned field covers comes back as it was (`toInt_ofInt`, `getLsbD_toInt_setFlags`). The upper half comes
from the conversion of `int` to `uint64_t`, which fills it with bit 31, the top bit of LEN3.
-/

namespace MasterLib

variable {b : Build}

namespace Dr7Ctx
variable {c : Dr7Ctx} {k : Fin 4} {i pos n : Nat}

theorem getLsbD_put_extract (v : BitVec 32) (hi : i < 32) :
    (put pos (v.extractLsb' pos n)).getLsbD i = (decide (pos ≤ i ∧ i < pos + n) && v.getLsbD i) := by
  rw [getLsbD_put, BitVec.getLsbD_extractLsb']
  by_cases hp : pos ≤ i
  · rw [Nat.add_sub_cancel' hp]
    have hlt : i - pos < n ↔ i < pos + n := by omega
    simp [hi, hp, hlt]
  · simp [hp]

/-- The bit-fields cover the struct. -/
theorem toInt_ofInt (v : BitVec 32) : (ofInt v).toInt = v := by
  refine BitVec.eq_of_getLsbD_eq fun i hi => ?_
  simp only [toInt, ofInt, BitVec.getLsbD_or, Fin.isValue, Fin.coe_ofNat_eq_mod, Nat.reduceMod, Nat.reduceMul,
    Nat.reduceAdd, getLsbD_put_extract v hi]
  cases v.getLsbD i with
  | false => simp only [Bool.and_false, Bool.or_false]
  | true =>
    simp only [Bool.and_true, Bool.or_eq_true, decide_eq_true_eq]
    omega

def setFlags (c : Dr7Ctx) (k : Fin 4) (f : BitVec 2) : Dr7Ctx := { c with flags := Function.update c.flags k f }

/-- Bit `i` is L or G of slot `k`. -/
abbrev InFlags (k : Fin 4) (i : Nat) : Prop := 2 * (k : Nat) ≤ i ∧ i ≤ 2 * k + 1

/-- Bit `i` is in RW or LEN of slot `k`. -/
abbrev InControl (k : Fin 4) (i : Nat) : Prop := 16 + 4 * (k : Nat) ≤ i ∧ i ≤ 19 + 4 * k

theorem getLsbD_toInt_setFlags (f : BitVec 2) (h : ¬ InFlags k i) :
    (c.setFlags k f).toInt.getLsbD i = c.toInt.getLsbD i := by
  have hput : ∀ f : BitVec 2, (put (2 * k) f).getLsbD i = false := by
    intro f
    rw [getLsbD_put]
    by_cases hp : 2 * (k : Nat) ≤ i
    · rw [BitVec.getLsbD_of_ge f _ (by omega), Bool.and_false]
    · simp [hp]
  fin_cases k <;> simp_all [toInt, setFlags, BitVec.getLsbD_or]

end Dr7Ctx

open Dr7Ctx

variable {a : VmAddress b} {d : Bank} {k : Fin 4} {i : Nat}

theorem word64_seven_armSlot :
    (armSlot a k d).word64 7 = (d.dr7.setFlags k (d.dr7.flags k ||| 1)).toInt.signExtend 64 := by
  rw [armSlot_eq, Bank.setDr7, Bank.word64_setWord64]
  rfl

theorem word64_seven_clearSlot : (clearSlot k d).word64 7 = (d.dr7.setFlags k 0).toInt.signExtend 64 :=
  Bank.word64_setWord64

/-- The store keeps the bits of the lower half that it does not assign. -/
theorem getLsbD_setFlags_of_lt (f : BitVec 2) (hi : i < 32) (h : ¬ InFlags k i) :
    ((d.dr7.setFlags k f).toInt.signExtend 64).getLsbD i = (d.word64 7).getLsbD i := by
  rw [BitVec.getLsbD_signExtend, if_pos hi, getLsbD_toInt_setFlags f h, Bank.dr7, toInt_ofInt,
    BitVec.getLsbD_setWidth]
  simp [hi, show i < 64 by omega]

/-- It fills the upper half with bit 31. -/
theorem getLsbD_setFlags_of_le (f : BitVec 2) (hi : 32 ≤ i) (hi' : i < 64) :
    ((d.dr7.setFlags k f).toInt.signExtend 64).getLsbD i = (d.word64 7).getLsbD 31 := by
  have h31 : ¬ InFlags k 31 := by omega
  have hlow := getLsbD_setFlags_of_lt (d := d) f (by decide : 31 < 32) h31
  rw [BitVec.getLsbD_signExtend, if_pos (by decide)] at hlow
  rw [BitVec.getLsbD_signExtend, if_neg (by omega), ← hlow, BitVec.msb_eq_getLsbD_last]
  simp [hi']

/-! ### Edits of one slot -/

/-- The DR7 that `Apply` stores back when it arms slot `k` differs at most in the slot's L, G, RW and LEN, and the
one that `Reset` stores back when it clears it at most in L and G. -/
structure EditsOwnFields (a : VmAddress b) (k : Fin 4) (d : Bank) : Prop where
  apply : ∀ i, ¬ InFlags k i → ¬ InControl k i → ((armSlot a k d).word64 7).getLsbD i = (d.word64 7).getLsbD i
  reset : ∀ i, ¬ InFlags k i → ((clearSlot k d).word64 7).getLsbD i = (d.word64 7).getLsbD i

theorem setFlags_sameElsewhere_iff (f : BitVec 2) (hzero : ∀ i, 32 ≤ i → (d.word64 7).getLsbD i = false) :
    (∀ i, ¬ InFlags k i → ((d.dr7.setFlags k f).toInt.signExtend 64).getLsbD i = (d.word64 7).getLsbD i) ↔
      (d.word64 7).getLsbD 31 = false := by
  constructor
  · intro h
    rw [← hzero 32 (Nat.le_refl _), ← h 32 (by omega), getLsbD_setFlags_of_le f (Nat.le_refl _) (by decide)]
  · intro h31 i hi
    by_cases hlt : i < 32
    · exact getLsbD_setFlags_of_lt f hlt hi
    · rw [hzero i (by omega)]
      by_cases h64 : i < 64
      · rw [getLsbD_setFlags_of_le f (by omega) h64, h31]
      · exact BitVec.getLsbD_of_ge _ _ (by omega)

/-- With the reserved upper half zero an edit of DR7 touches only the fields of its slot exactly when bit 31 is
clear. -/
theorem editsOwnFields_iff (hzero : ∀ i, 32 ≤ i → (d.word64 7).getLsbD i = false) :
    EditsOwnFields a k d ↔ (d.word64 7).getLsbD 31 = false := by
  constructor
  · intro h
    have hreset := h.reset
    rw [word64_seven_clearSlot] at hreset
    exact (setFlags_sameElsewhere_iff 0 hzero).1 hreset
  · intro h31
    refine ⟨fun i hi _ => ?_, ?_⟩
    · rw [word64_seven_armSlot]
      exact (setFlags_sameElsewhere_iff _ hzero).2 h31 i hi
    · rw [word64_seven_clearSlot]
      exact (setFlags_sameElsewhere_iff 0 hzero).2 h31

/-- A debug bank with the lower half of DR7 as given and everything else zero. -/
def dr7Bank (v : BitVec 32) : Bank := Bank.setWord64 (fun _ => 0) 7 (v.setWidth 64)

theorem upper_dr7Bank (v : BitVec 32) (hi : 32 ≤ i) : ((dr7Bank v).word64 7).getLsbD i = false := by
  rw [dr7Bank, Bank.word64_setWord64, BitVec.getLsbD_setWidth, BitVec.getLsbD_of_ge v i hi, Bool.and_false]

theorem editsOwnFields_enabled : EditsOwnFields (b := .x86_64) 0x1000 2 (dr7Bank 0x00330405) :=
  (editsOwnFields_iff fun _ => upper_dr7Bank _).2 (by decide)

/-- With a write watchpoint of 4 bytes in slot 3 an edit of slot 0 sets the upper half. -/
theorem not_editsOwnFields_len3 : (∀ i, 32 ≤ i → ((dr7Bank 0xD0000000).word64 7).getLsbD i = false) ∧
    ¬ EditsOwnFields (b := .x86_64) 0x1000 0 (dr7Bank 0xD0000000) := by
  refine ⟨fun _ => upper_dr7Bank _, fun h => ?_⟩
  have h32 := h.reset 32 (by decide)
  revert h32; decide

/-! ### The slot that `Apply` arms -/

/-- Slot `k` is a local one-byte breakpoint on the execution of the byte at `a`. -/
structure Thread.BreaksAt (th : Thread) (a : VmAddress b) (k : Fin 4) : Prop where
  enabled : th.LocalEnabled k
  trigger : th.dr7.trigger k = 0
  size : th.dr7.size k = 0
  address : th.dr k = a.setWidth 64

theorem Thread.BreaksAt.congr {th th' : Thread} (hdebug : th'.debug = th.debug) (h : th.BreaksAt a k) :
    th'.BreaksAt a k where
  enabled := by
    rw [Thread.LocalEnabled, Thread.dr7, hdebug]
    exact h.enabled
  trigger := by
    rw [Thread.dr7, hdebug]
    exact h.trigger
  size := by
    rw [Thread.dr7, hdebug]
    exact h.size
  address := by
    rw [Thread.dr, hdebug]
    exact h.address

/-- Armed in the debug registers `d`, which need not be the thread's own. -/
theorem Thread.breaksAt_armSlot {th : Thread} (h : th.debug = armSlot a k d) :
    th.BreaksAt a k ↔ d.dr7.trigger k = 0 ∧ d.dr7.size k = 0 := by
  have hflags : th.dr7.flags = Function.update d.dr7.flags k (d.dr7.flags k ||| 1) := by
    rw [Thread.dr7, h, dr7_armSlot]
  have htrigger : th.dr7.trigger = d.dr7.trigger := by rw [Thread.dr7, h, dr7_armSlot]
  have hsize : th.dr7.size = d.dr7.size := by rw [Thread.dr7, h, dr7_armSlot]
  constructor
  · intro hbreaks
    rw [← htrigger, ← hsize]
    exact ⟨hbreaks.trigger, hbreaks.size⟩
  · rintro ⟨htr, hsz⟩
    refine ⟨?_, by rw [htrigger, htr], by rw [hsize, hsz], by rw [Thread.dr, h, word64_armSlot, if_pos rfl]⟩
    rw [Thread.LocalEnabled, hflags, Function.update_self]
    simp

namespace X86_64HardwareBreakpoint
variable {env : Env} {bp : X86_64HardwareBreakpoint b} {t : Task b} {th th' : Thread} {j : Nat}

/-- The slot that `Apply` uses on its `j`th thread, if it gets there. -/
def chosenSlot (bp : X86_64HardwareBreakpoint b) (j : Nat) : Option (Fin 4) :=
  if 0 ≤ bp.inUse then slotOf (bp.inUse + j) else none

/-- After `Apply` the slot of its `j`th thread is a one-byte execution breakpoint exactly in these cases. If the call
that stores the debug registers succeeds, RW and LEN of the slot were clear in what `Load` had left in the object: the
debug registers of the thread, or, where they could not be read, what the allocation found. If it fails, the slot was
one before. -/
theorem breaksAt_apply_iff (hslot : bp.chosenSlot j = some k)
    (hth : (t.threadsExcept env.self)[j]? = some th)
    (hth' : ((bp.apply env t).2.2.threadsExcept env.self)[j]? = some th') :
    th'.BreaksAt bp.address k ↔
      if env.kr (t.calls + 4 * j + 3) = kernSuccess then
        (th.loadedDebug env (t.calls + 4 * j)).dr7.trigger k = 0 ∧ (th.loadedDebug env (t.calls + 4 * j)).dr7.size k = 0
      else th.BreaksAt bp.address k := by
  unfold chosenSlot at hslot
  split at hslot
  swap
  · cases hslot
  rename_i hin
  rw [threadsExcept_apply, getElem?_applyLoop bp hin, hslot, hth, Option.map_some, Option.some.injEq,
    Option.elim_some] at hth'
  have hdebug : (armThread env bp.address k (t.calls + 4 * j) th).debug = _ := debug_armThread
  rw [hth'] at hdebug
  by_cases hstored : env.kr (t.calls + 4 * j + 3) = kernSuccess
  · rw [if_pos hstored] at hdebug ⊢
    exact Thread.breaksAt_armSlot hdebug
  · rw [if_neg hstored] at hdebug ⊢
    exact ⟨.congr hdebug.symm, .congr hdebug⟩

/-- A target with one thread, DR7 of it as given. -/
def oneThread (v : BitVec 32) : Task .x86_64 :=
  (Session.start (fun _ => .x86_64Hardware atThousand) (fun _ => 0) [⟨1, 0, fun _ => dr7Bank v⟩]).task

/-- The slots after the first may hold anything. -/
theorem breaksAt_apply_others :
    ∃ th', ((atThousand.apply (.failAt []) (oneThread 0x33D00000)).2.2.threadsExcept 0)[0]? = some th' ∧
      th'.BreaksAt atThousand.address 0 := by
  have harmed : ∀ th', ((atThousand.apply (.failAt []) (oneThread 0x33D00000)).2.2.threadsExcept 0)[0]? = some th' →
      th'.BreaksAt atThousand.address 0 := by
    intro th' hth'
    exact (breaksAt_apply_iff rfl rfl hth').2 ⟨by decide, by decide⟩
  exact ⟨_, rfl, harmed _ rfl⟩

/-- Armed over what was a write watchpoint of 4 bytes the slot stays one, on the new address. -/
theorem not_breaksAt_watchpoint : atThousand.chosenSlot 0 = some 0 ∧
    ∃ th', ((atThousand.apply (.failAt []) (oneThread 0x000D0000)).2.2.threadsExcept 0)[0]? = some th' ∧
      ¬ th'.BreaksAt atThousand.address 0 := by
  refine ⟨rfl, _, rfl, fun h => ?_⟩
  have htrigger := h.trigger
  revert htrigger; decide

end X86_64HardwareBreakpoint

end MasterLib
