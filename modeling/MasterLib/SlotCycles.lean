import MasterLib.DebugSlots

/-!
# Applying and resetting a hardware breakpoint over and over

`Apply` counts `in_use_` up and nothing counts it down, so the `k`th cycle on one thread arms slot `k`. `Reset`
goes by the address registers, and those of the earlier cycles still hold `address_`; it clears the last of them,
which is the slot just armed as long as no later one held `address_` from the start (`SlotInv`).
-/

namespace MasterLib

variable {b : Build} {env : Env} {a : VmAddress b} {d : Bank} {j k : Fin 4}

theorem dr7_clearSlot : (clearSlot k d).dr7 = { d.dr7 with flags := Function.update d.dr7.flags k 0 } :=
  Bank.dr7_setDr7

/-- `Reset` picks the last slot that holds the address. -/
theorem slotHolding_eq_some_iff :
    slotHolding a d = some k ↔ d.word64 k = a.setWidth 64 ∧ ∀ j, k < j → d.word64 j ≠ a.setWidth 64 := by
  unfold slotHolding
  fin_cases k <;> simp only [Fin.forall_fin_succ, Fin.forall_fin_zero] <;> split_ifs <;> simp_all

theorem exists_slotHolding (h : d.word64 k = a.setWidth 64) : ∃ m, slotHolding a d = some m := by
  cases hs : slotHolding a d with
  | some m => exact ⟨m, rfl⟩
  | none =>
    unfold slotHolding at hs
    fin_cases k <;> split_ifs at hs

namespace Thread
variable {th : Thread}

theorem dr_clearSlot : (th.setDebug (clearSlot k th.debug)).dr j = th.dr j := by
  rw [dr, debug_setDebug, word64_clearSlot]; rfl

theorem flags_clearSlot : (th.setDebug (clearSlot k th.debug)).dr7.flags =
    Function.update th.dr7.flags k 0 := by
  rw [dr7, debug_setDebug, dr7_clearSlot]; rfl

end Thread

namespace X86_64HardwareBreakpoint
variable {bp : X86_64HardwareBreakpoint b} {t : Task b} {th₀ : Thread} {n i : Nat}

/-- The breakpoint and the target after `n` calls of `Apply`, each followed by one of `Reset`. -/
def cycles (env : Env) (bp : X86_64HardwareBreakpoint b) (t : Task b) : Nat → X86_64HardwareBreakpoint b × Task b
  | 0 => (bp, t)
  | n + 1 =>
    let (bp, t) := cycles env bp t n
    let (_, bp, t) := bp.apply env t
    (bp.reset env t).2

/-- In each of the first `n` cycles the `Apply` arms the address and the `Reset` leaves every slot disabled. -/
def CyclesClean (env : Env) (bp : X86_64HardwareBreakpoint b) (t : Task b) (n : Nat) : Prop :=
  ∀ k < n, (bp.cycles env t k).1.ArmsEveryThread env (bp.cycles env t k).2 ∧
    ∀ th ∈ (bp.cycles env t (k + 1)).2.threadsExcept env.self, ∀ j, ¬ th.Enabled j

/-- After `i` clean cycles on the thread `th₀`: the slots before `i` hold the address, all are disabled. -/
structure SlotInv (env : Env) (a : VmAddress b) (th₀ : Thread) (i : Nat)
    (s : X86_64HardwareBreakpoint b × Task b) : Prop where
  inUse : s.1.inUse = i
  address : s.1.address = a
  thread : ∃ th, s.2.threadsExcept env.self = [th] ∧
    (∀ j : Fin 4, th.dr j = if (j : Nat) < i then a.setWidth 64 else th₀.dr j) ∧ ∀ j, ¬ th.Enabled j

theorem slotOf_natCast (k : Fin 4) : slotOf (k : Nat) = some k := by fin_cases k <;> rfl

/-- Between the `Apply` and the `Reset` of the cycle that arms slot `k`. -/
structure SlotArmed (env : Env) (a : VmAddress b) (th₀ : Thread) (k : Fin 4)
    (s : X86_64HardwareBreakpoint b × Task b) : Prop where
  inUse : s.1.inUse = (k : Nat) + 1
  address : s.1.address = a
  thread : ∃ th, s.2.threadsExcept env.self = [th] ∧
    (∀ j, th.dr j = if j ≤ k then a.setWidth 64 else th₀.dr j) ∧ ∀ j, th.dr7.flags j = if j = k then 1 else 0

theorem SlotInv.apply (hk : env.AllSucceed) {k : Fin 4} {s : X86_64HardwareBreakpoint b × Task b}
    (h : SlotInv env a th₀ k s) : s.1.ArmsEveryThread env s.2 ∧ SlotArmed env a th₀ k (s.1.apply env s.2).2 := by
  obtain ⟨hin, rfl, th, hths, hdr, hdis⟩ := h
  have hleft : 1 ≤ slotsLeft s.1.inUse := by rw [hin, slotsLeft]; split <;> omega
  have hobj : (s.1.apply env s.2).2.1 = s.1.countedUp 1 := by
    rw [apply_obj, hths]; rfl
  have harmed : (s.1.apply env s.2).2.2.threadsExcept env.self = [th.setDebug (armSlot s.1.address k th.debug)] := by
    refine List.ext_getElem? fun j => ?_
    rw [getElem?_apply hk (by omega), hths, hin]
    cases j with
    | zero => simp [arm, slotOf_natCast]
    | succ j => rfl
  refine ⟨⟨?_, ?_⟩, ?_, by rw [hobj]; rfl, _, harmed, fun j => ?_, fun j => ?_⟩
  · rw [apply_fst, hths]
    exact decide_eq_true hleft
  · rw [harmed, List.forall_mem_singleton]
    exact Thread.triggers_armSlot
  · rw [hobj]
    show s.1.inUse + (min 1 (slotsLeft s.1.inUse) : Nat) = _
    rw [Nat.min_eq_left hleft, hin]; rfl
  · rw [Thread.dr_armSlot, hdr]
    rcases lt_trichotomy j k with hlt | rfl | hgt
    · rw [if_neg hlt.ne, if_pos (Fin.lt_def.1 hlt), if_pos hlt.le]
    · rw [if_pos rfl, if_pos le_rfl]
    · rw [if_neg hgt.ne', if_neg (Nat.not_lt.2 hgt.le), if_neg (not_le.2 hgt)]
  · have hflags : ∀ j, th.dr7.flags j = 0 := fun j => not_not.1 (hdis j)
    rw [Thread.flags_armSlot]
    by_cases hj : j = k
    · subst hj; rw [Function.update_self, if_pos rfl, hflags]; rfl
    · rw [Function.update_of_ne hj, if_neg hj, hflags]

/-- The `Reset` clears slot `k` unless a later one holds the address. -/
theorem SlotArmed.reset (hk : env.AllSucceed) {s : X86_64HardwareBreakpoint b × Task b}
    (h : SlotArmed env a th₀ k s) :
    ((∀ th ∈ (s.1.reset env s.2).2.2.threadsExcept env.self, ∀ j, ¬ th.Enabled j) ↔
        ∀ j, k < j → th₀.dr j ≠ a.setWidth 64) ∧
      ((∀ j, k < j → th₀.dr j ≠ a.setWidth 64) → SlotInv env a th₀ (k + 1) (s.1.reset env s.2).2) := by
  obtain ⟨hin, rfl, th, hths, hdr, hflags⟩ := h
  have hself : th.debug.word64 k = s.1.address.setWidth 64 := (hdr k).trans (if_pos le_rfl)
  obtain ⟨m, hm⟩ : ∃ m, slotHolding s.1.address th.debug = some m :=
    exists_slotHolding hself
  have hmk : m = k ↔ ∀ j, k < j → th₀.dr j ≠ s.1.address.setWidth 64 := by
    have hlater : ∀ j, k < j → th.debug.word64 j = th₀.dr j := fun j hj => (hdr j).trans (if_neg (not_le.2 hj))
    have hkey : slotHolding s.1.address th.debug = some k ↔ _ := slotHolding_eq_some_iff
    rw [hm, Option.some.injEq, and_iff_right hself] at hkey
    exact hkey.trans (forall₂_congr fun j hj => by rw [hlater j hj])
  have hcleared : (s.1.reset env s.2).2.2.threadsExcept env.self = [th.setDebug (clearSlot m th.debug)] := by
    rw [threadsExcept_reset hk, hths, List.map_singleton, clear, hm]
  have hclean : (∀ j, ¬ (th.setDebug (clearSlot m th.debug)).Enabled j) ↔ m = k := by
    have hflags' : ∀ j, (th.setDebug (clearSlot m th.debug)).dr7.flags j =
        if j = m then 0 else if j = k then 1 else 0 := by
      intro j
      rw [Thread.flags_clearSlot, ← hflags]
      by_cases hj : j = m
      · subst hj; rw [Function.update_self, if_pos rfl]
      · rw [Function.update_of_ne hj, if_neg hj]
    constructor
    · intro h
      by_contra hne
      refine h k fun h0 => ?_
      rw [hflags', if_neg (Ne.symm hne), if_pos rfl] at h0
      exact absurd h0 (by decide)
    · rintro rfl j
      rw [Thread.Enabled, hflags']
      split <;> simp
  refine ⟨?_, fun hfree => ⟨?_, ?_, _, hcleared, fun j => ?_, hclean.2 (hmk.2 hfree)⟩⟩
  · rw [hcleared, List.forall_mem_singleton, hclean, hmk]
  · rw [reset_obj hk]; exact hin
  · rw [reset_obj hk]; rfl
  · rw [Thread.dr_clearSlot, hdr]
    by_cases hj : j ≤ k
    · rw [if_pos hj, if_pos (Nat.lt_succ_of_le hj)]
    · rw [if_neg hj, if_neg fun hlt => hj (Nat.le_of_lt_succ hlt)]

theorem slotInv_cycles (hk : env.AllSucceed) (hinit : SlotInv env a th₀ 0 (bp, t))
    (hfree : ∀ j : Fin 4, 0 < j → th₀.dr j ≠ a.setWidth 64) (hi : i ≤ 4) :
    SlotInv env a th₀ i (bp.cycles env t i) := by
  induction i with
  | zero => exact hinit
  | succ i ih =>
    have harmed := ((ih (by omega)).apply hk (k := ⟨i, by omega⟩)).2
    exact (harmed.reset hk).2 fun j hj => hfree j (Nat.zero_lt_of_lt hj)

/-- After four cycles there is no slot number left. -/
theorem SlotInv.apply_four {s : X86_64HardwareBreakpoint b × Task b} (h : SlotInv env a th₀ 4 s) :
    (s.1.apply env s.2).1 = false := by
  obtain ⟨hin, -, th, hths, -⟩ := h
  rw [apply_fst, hin, hths]; rfl

/-- On one thread with all slots disabled `n` cycles of a new breakpoint are clean exactly when there are at most
four, and none of the slots after the first held the address already. -/
theorem cyclesClean_iff (hk : env.AllSucceed) (hin : bp.inUse = 0) (hths : t.threadsExcept env.self = [th₀])
    (hdis : ∀ j, ¬ th₀.Enabled j) (n : Nat) : bp.CyclesClean env t n ↔
      n = 0 ∨ n ≤ 4 ∧ ∀ j : Fin 4, 0 < j → th₀.dr j ≠ bp.address.setWidth 64 := by
  have hinit : SlotInv env bp.address th₀ 0 (bp, t) := ⟨hin, rfl, th₀, hths, fun _ => rfl, hdis⟩
  constructor
  · intro h
    rcases Nat.eq_zero_or_pos n with rfl | hpos
    · exact .inl rfl
    · have hfree := ((hinit.apply hk (k := 0)).2.reset hk).1.1 (h 0 hpos).2
      refine .inr ⟨?_, hfree⟩
      by_contra hn
      have hret := (h 4 (by omega)).1.1
      rw [(slotInv_cycles hk hinit hfree (Nat.le_refl 4)).apply_four] at hret
      cases hret
  · rintro (rfl | ⟨hn, hfree⟩) i hi
    · exact absurd hi (Nat.not_lt_zero i)
    · obtain ⟨harms, harmed⟩ := (slotInv_cycles hk hinit hfree (by omega : i ≤ 4)).apply hk (k := ⟨i, by omega⟩)
      exact ⟨harms, (harmed.reset hk).1.2 fun j hj => hfree j (Nat.zero_lt_of_lt hj)⟩

theorem zeroThreads_disabled : ∀ j, ¬ (⟨1, 0, fun _ _ => 0⟩ : Thread).Enabled j := by
  unfold Thread.Enabled; decide

theorem cyclesClean_four : atThousand.CyclesClean (.failAt []) (zeroThreads 1) 4 :=
  (cyclesClean_iff Env.allSucceed_failAt_nil rfl rfl zeroThreads_disabled 4).2 (.inr ⟨Nat.le_refl 4, by decide⟩)

/-- In the fifth cycle there is no slot number left, although all four slots are disabled. -/
theorem not_cyclesClean_five :
    (∀ th ∈ (zeroThreads 1).threadsExcept 0, ∀ j, ¬ th.Enabled j) ∧
      ¬ atThousand.CyclesClean (.failAt []) (zeroThreads 1) 5 := by
  have hths : (zeroThreads 1).threadsExcept 0 = [⟨1, 0, fun _ _ => 0⟩] := rfl
  refine ⟨?_, fun h => ?_⟩
  · rw [hths, List.forall_mem_singleton]; exact zeroThreads_disabled
  · have hinit : SlotInv (.failAt []) atThousand.address ⟨1, 0, fun _ _ => 0⟩ 0 (atThousand, zeroThreads 1) :=
      ⟨rfl, rfl, _, hths, fun _ => rfl, zeroThreads_disabled⟩
    have hret := (h 4 (by decide)).1.1
    rw [(slotInv_cycles Env.allSucceed_failAt_nil hinit (by decide) (Nat.le_refl 4)).apply_four] at hret
    cases hret

end X86_64HardwareBreakpoint

end MasterLib
