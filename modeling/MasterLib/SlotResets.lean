import MasterLib.Dr7Fields
import MasterLib.SlotCycles

/-!
# What `Reset` does to slots

On a thread `Reset` clears the flags of the last slot that holds `address_` and of no other. That undoes an `Apply`
over slots that did not hold the address (`forall₂_undone`), and two `Reset`s commute; but where several slots hold
the address those before the last stay enabled.
-/

namespace MasterLib

variable {b : Build} {env : Env} {a c : VmAddress b} {d : Bank} {th : Thread} {j k : Fin 4}

theorem clearSlot_comm : clearSlot j (clearSlot k d) = clearSlot k (clearSlot j d) := by
  have hset : ∀ v v', Bank.setWord64 (d.setWord64 7 v) 7 v' = d.setWord64 7 v' := by
    intro v v'
    funext i
    simp only [Bank.setWord64]
    split
    · rfl
    · split <;> rfl
  have hflags : ∀ f : Fin 4 → BitVec 2, Function.update (Function.update f k 0) j 0 =
      Function.update (Function.update f j 0) k 0 := by
    intro f
    by_cases hjk : j = k
    · rw [hjk]
    · exact Function.update_comm (Ne.symm hjk) ..
  unfold clearSlot
  simp only [Bank.dr7_setDr7]
  rw [hflags]
  simp only [Bank.setDr7, hset]

namespace X86_64HardwareBreakpoint
variable {bp bq : X86_64HardwareBreakpoint b} {t : Task b}

/-! ### One thread -/

theorem regs_setDebug {f : Flavor} (hf : f ≠ .x86DebugState64) (th : Thread) (d : Bank) :
    (th.setDebug d).regs f = th.regs f := by
  show Function.update th.regs _ _ f = _
  exact Function.update_of_ne hf ..

theorem dr_ne_of_slotHolding (h : slotHolding a th.debug = none) (k : Fin 4) : th.dr k ≠ a.setWidth 64 := by
  intro hk
  obtain ⟨m, hm⟩ : ∃ m, slotHolding a th.debug = some m := exists_slotHolding hk
  rw [h] at hm; cases hm

theorem dr_clear : (clear a th).dr k = th.dr k := by
  unfold clear
  split
  · rfl
  · exact Thread.dr_clearSlot

theorem flags_clear_of_ne (h : th.dr k ≠ a.setWidth 64) : (clear a th).dr7.flags k = th.dr7.flags k := by
  unfold clear
  split
  · rfl
  · rename_i m hm
    have hkm : k ≠ m := fun he => h (he ▸ (slotHolding_eq_some_iff.1 hm).1)
    rw [Thread.flags_clearSlot, Function.update_of_ne hkm]

theorem clear_comm : clear a (clear c th) = clear c (clear a th) := by
  have hsame : ∀ (a c : VmAddress b), slotHolding a (clear c th).debug = slotHolding a th.debug := by
    intro a c
    exact slotHolding_congr fun _ => dr_clear
  have hset : ∀ d d', (th.setDebug d).setDebug d' = th.setDebug d' := by
    intro d d'
    simp only [Thread.setDebug, Function.update_idem]
  rw [clear, hsame, clear.eq_def c (clear a th), hsame]
  cases ha : slotHolding a th.debug with
  | none => simp only [clear, ha]
  | some m =>
    cases hc : slotHolding c th.debug with
    | none => simp only [clear, ha, hc]
    | some n => simp only [clear, ha, hc, Thread.debug_setDebug, hset, clearSlot_comm]

/-! ### Two `Reset`s -/

theorem threads_reset (hk : env.AllSucceed) : (bp.reset env t).2.2.threads =
    t.threads.map fun th => if (threadClass t).isSome ∧ th.port ≠ env.self then clear bp.address th else th := by
  have hloop : (resetLoop env bp (t.threadsExcept env.self) t.calls).2.2.1 =
      (t.threadsExcept env.self).map (clear bp.address) := resetLoop_threads hk _ _ _
  show (t.putThreads env.self (resetLoop env bp (t.threadsExcept env.self) t.calls).2.2.1).threads = _
  rw [hloop]
  unfold Task.putThreads Task.threadsExcept
  by_cases hcls : (threadClass t).isSome
  · simp only [hcls, ↓reduceIte, true_and, putThreads_filter_map, ne_eq, ite_not]
  · simp [hcls]

theorem threadClass_reset : threadClass (bp.reset env t).2.2 = threadClass t := by
  refine threadClass_congr ?_
  show (t.putThreads env.self _).kinfo = t.kinfo
  unfold Task.putThreads
  split <;> rfl

/-- From `th` to `th'` nothing of a slot has changed but the flags of slots that hold `a`. -/
structure ClearedOnly (a : VmAddress b) (th th' : Thread) : Prop where
  dr : ∀ k, th'.dr k = th.dr k
  flags : ∀ k, th.dr k ≠ a.setWidth 64 → th'.dr7.flags k = th.dr7.flags k

theorem clearedOnly_ite {p : Prop} [Decidable p] : ClearedOnly a th (if p then clear a th else th) := by
  split
  · exact ⟨fun _ => dr_clear, fun _ => flags_clear_of_ne⟩
  · exact ⟨fun _ => rfl, fun _ _ => rfl⟩

/-- `Reset`s of two breakpoints commute, and each changes nothing of the slots but the flags of slots that hold its
own address. -/
theorem reset_comm (hk : env.AllSucceed) (bp bq : X86_64HardwareBreakpoint b) (t : Task b) :
    (bq.reset env (bp.reset env t).2.2).2.2.threads = (bp.reset env (bq.reset env t).2.2).2.2.threads ∧
      List.Forall₂ (ClearedOnly bp.address) t.threads (bp.reset env t).2.2.threads := by
  constructor
  · rw [threads_reset hk, threads_reset hk, threads_reset hk, threads_reset hk, threadClass_reset,
      threadClass_reset, List.map_map, List.map_map]
    refine List.map_congr_left fun th _ => ?_
    simp only [Function.comp_apply]
    by_cases hth : (threadClass t).isSome ∧ th.port ≠ env.self
    · simp only [if_pos hth, port_clear, clear_comm]
    · simp only [if_neg hth]
  · rw [threads_reset hk, List.forall₂_map_right_iff, List.forall₂_same]
    exact fun _ _ => clearedOnly_ite

/-! ### Several slots with the address -/

/-- `Reset` leaves no slot enabled that holds the address. -/
def Disarms (env : Env) (bp : X86_64HardwareBreakpoint b) (t : Task b) : Prop :=
  ∀ th ∈ (bp.reset env t).2.2.threadsExcept env.self, ∀ k, th.dr k = bp.address.setWidth 64 → ¬ th.Enabled k

theorem disarmed_clear_iff : (∀ k, (clear a th).dr k = a.setWidth 64 → ¬ (clear a th).Enabled k) ↔
    ∀ k j, k < j → th.dr k = a.setWidth 64 → th.dr j = a.setWidth 64 → ¬ th.Enabled k := by
  cases hs : slotHolding a th.debug with
  | none =>
    refine iff_of_true (fun k hdr => ?_) fun k _ _ hdr => absurd hdr (dr_ne_of_slotHolding hs k)
    rw [dr_clear] at hdr
    exact absurd hdr (dr_ne_of_slotHolding hs k)
  | some m =>
    obtain ⟨hm, hlast⟩ : th.dr m = a.setWidth 64 ∧ ∀ j, m < j → th.dr j ≠ a.setWidth 64 := slotHolding_eq_some_iff.1 hs
    have hflags : (clear a th).dr7.flags = Function.update th.dr7.flags m 0 := by
      simp only [clear, hs, Thread.flags_clearSlot]
    constructor
    · intro h k j hkj hk hj
      have hkm : k ≠ m := fun he => hlast j (he ▸ hkj) hj
      have hoff := h k (dr_clear.trans hk)
      rwa [Thread.Enabled, hflags, Function.update_of_ne hkm] at hoff
    · intro h k hk
      rw [dr_clear] at hk
      rw [Thread.Enabled, hflags]
      rcases lt_trichotomy k m with hlt | rfl | hgt
      · rw [Function.update_of_ne hlt.ne]
        exact h k m hlt hk hm
      · rw [Function.update_self]; exact not_not_intro rfl
      · exact absurd hk (hlast k hgt)

/-- That is so exactly if, on every thread, of the slots that hold the address at most the last was enabled. -/
theorem disarms_iff (hk : env.AllSucceed) : bp.Disarms env t ↔ ∀ th ∈ t.threadsExcept env.self, ∀ k j, k < j →
    th.dr k = bp.address.setWidth 64 → th.dr j = bp.address.setWidth 64 → ¬ th.Enabled k := by
  rw [Disarms, threadsExcept_reset hk, List.forall_mem_map]
  exact forall₂_congr fun _ _ => disarmed_clear_iff

/-- A target with one thread whose slots 0 and 1 hold 0x1000, DR7 as given. -/
def twiceHeld (v : BitVec 32) : Task .x86_64 :=
  (Session.start (fun _ => .x86_64Hardware atThousand) (fun _ => 0)
    [⟨1, 0, fun _ => ((dr7Bank v).setWord64 0 0x1000).setWord64 1 0x1000⟩]).task

theorem disarms_stale : atThousand.Disarms (.failAt []) (twiceHeld 4) := by
  refine (disarms_iff Env.allSucceed_failAt_nil).2 fun th hth => ?_
  obtain rfl := List.mem_singleton.1 hth
  unfold Thread.Enabled
  decide

/-- With both slots enabled only the second is cleared. -/
theorem not_disarms_both : ¬ atThousand.Disarms (.failAt []) (twiceHeld 5) := by
  intro h
  have hoff := h _ (List.mem_singleton.2 rfl) 0 (by decide)
  unfold Thread.Enabled at hoff
  revert hoff; decide

/-! ### `Reset` after `Apply` -/

/-- `th'` has all slots disabled, and of the registers of `th` only address registers may have changed: DR7 is the same
in its lower half, and the general registers are. -/
structure Undone (th th' : Thread) : Prop where
  disabled : ∀ k, ¬ th'.Enabled k
  dr7 : (th'.debug.word64 7).setWidth 32 = (th.debug.word64 7).setWidth 32
  general : th'.regs .x86ThreadState64 = th.regs .x86ThreadState64

theorem undone_clear_arm {i : Int} (hdis : ∀ k, ¬ th.Enabled k) (hfree : ∀ k, th.dr k ≠ a.setWidth 64) :
    Undone th (clear a (arm a i th)) := by
  have hflags : ∀ k, th.dr7.flags k = 0 := fun k => not_not.1 (hdis k)
  have hnone : slotHolding a th.debug = none := by
    cases hs : slotHolding a th.debug with
    | none => rfl
    | some m => exact absurd (slotHolding_eq_some_iff.1 hs).1 (hfree m)
  cases hi : slotOf i with
  | none =>
    have hsame : clear a (arm a i th) = th := by simp only [arm, hi, clear, hnone]
    rw [hsame]
    exact ⟨hdis, rfl, rfl⟩
  | some k =>
    let th₁ := th.setDebug (armSlot a k th.debug)
    have hdr₁ : ∀ j, th₁.dr j = if j = k then a.setWidth 64 else th.dr j := fun _ => Thread.dr_armSlot
    have hs : slotHolding a th₁.debug = some k := by
      refine slotHolding_eq_some_iff.2 ⟨(hdr₁ k).trans (if_pos rfl), fun j hj => ?_⟩
      exact ((hdr₁ j).trans (if_neg hj.ne')).trans_ne (hfree j)
    have hclear : clear a (arm a i th) = th₁.setDebug (clearSlot k th₁.debug) := by
      simp only [arm, hi, clear]
      rw [hs]
    -- the flags that `Apply` had set are the ones that are cleared
    have hdr7 : th₁.dr7.setFlags k 0 = th.dr7 := by
      have harmed : th₁.dr7 = { th.dr7 with flags := Function.update th.dr7.flags k (th.dr7.flags k ||| 1) } := by
        rw [Thread.dr7, Thread.debug_setDebug, dr7_armSlot]; rfl
      rw [harmed, Dr7Ctx.setFlags]
      simp only [Function.update_idem, ← hflags k, Function.update_eq_self]
    rw [hclear]
    refine ⟨fun j => ?_, ?_, ?_⟩
    · rw [Thread.Enabled, Thread.flags_clearSlot]
      show ¬ (th₁.dr7.setFlags k 0).flags j ≠ 0
      rw [hdr7]
      exact hdis j
    · rw [Thread.debug_setDebug, word64_seven_clearSlot, Bank.setWidth_signExtend]
      show (th₁.dr7.setFlags k 0).toInt = _
      rw [hdr7, Thread.dr7, Bank.dr7, Dr7Ctx.toInt_ofInt]
    · rw [regs_setDebug (by decide)]
      exact regs_setDebug (by decide) _ _

/-- On threads with all slots disabled and none holding the address, `Reset` after the `Apply` of a new breakpoint
undoes it, also where `Apply` has given up. -/
theorem forall₂_undone (hk : env.AllSucceed) (hin : bp.inUse = 0)
    (hdis : ∀ th ∈ t.threadsExcept env.self, ∀ k, ¬ th.Enabled k)
    (hfree : ∀ th ∈ t.threadsExcept env.self, ∀ k, th.dr k ≠ bp.address.setWidth 64) :
    let r := bp.apply env t
    List.Forall₂ Undone (t.threadsExcept env.self) ((r.2.1.reset env r.2.2).2.2.threadsExcept env.self) := by
  intro r
  have haddr : r.2.1.address = bp.address := by
    show (bp.apply env t).2.1.address = _
    rw [apply_obj]; rfl
  have hths : (r.2.1.reset env r.2.2).2.2.threadsExcept env.self =
      (r.2.2.threadsExcept env.self).map (clear bp.address) := by
    rw [threadsExcept_reset hk, haddr]
  have hlen : (r.2.2.threadsExcept env.self).length = (t.threadsExcept env.self).length := by
    have hports : (applyLoop env bp _ _).2.2.1.map Thread.port = _ :=
      applyLoop_ports bp (t.threadsExcept env.self) t.calls
    rw [← threadsExcept_apply] at hports
    simpa using congrArg List.length hports
  rw [hths, List.forall₂_map_right_iff, List.forall₂_iff_get]
  refine ⟨hlen.symm, fun j hj hj' => ?_⟩
  have harm := getElem?_apply hk (by omega : 0 ≤ bp.inUse) j (t := t)
  rw [List.getElem?_eq_getElem hj', List.getElem?_eq_getElem hj, Option.map_some, Option.some.injEq] at harm
  have hmem : (t.threadsExcept env.self)[j] ∈ t.threadsExcept env.self := List.getElem_mem hj
  rw [List.get_eq_getElem, List.get_eq_getElem]
  show Undone _ (clear _ (r.2.2.threadsExcept env.self)[j])
  rw [harm]
  exact undone_clear_arm (hdis _ hmem) (hfree _ hmem)

/-- Five threads, so that `Apply` gives up at the last. -/
theorem undone_five : let r := atThousand.apply (.failAt []) (zeroThreads 5)
    List.Forall₂ Undone ((zeroThreads 5).threadsExcept 0) ((r.2.1.reset (.failAt []) r.2.2).2.2.threadsExcept 0) := by
  have hzero : ∀ th ∈ (zeroThreads 5).threadsExcept 0, th.regs = fun _ _ => 0 := by
    intro th hth
    obtain ⟨i, -, rfl⟩ := List.mem_map.1 (List.mem_filter.1 hth).1
    rfl
  refine forall₂_undone Env.allSucceed_failAt_nil rfl (fun th hth k => ?_) fun th hth k => ?_
  · rw [Thread.Enabled, Thread.dr7, Thread.debug, hzero th hth]
    revert k; decide
  · rw [Thread.dr, Thread.debug, hzero th hth]
    revert k; decide

theorem reset_comm_two : let bq : X86_64HardwareBreakpoint .x86_64 := { atThousand with address := 0x2000 }
    let t := twiceHeld 5
    (bq.reset (.failAt []) (atThousand.reset (.failAt []) t).2.2).2.2.threads =
        (atThousand.reset (.failAt []) (bq.reset (.failAt []) t).2.2).2.2.threads ∧
      List.Forall₂ (ClearedOnly atThousand.address) t.threads (atThousand.reset (.failAt []) t).2.2.threads :=
  reset_comm Env.allSucceed_failAt_nil _ _ _

end X86_64HardwareBreakpoint

end MasterLib
