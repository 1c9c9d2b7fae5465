import MasterLib.BreakpointHandler
import MasterLib.HardwareLoops
import MasterLib.Runs

/-!
# Debug slots of hardware breakpoints

An `Apply` takes for its `j`th thread the slot numbered `in_use_ + j`, whatever that thread's slots hold. So
a breakpoint cannot be armed on a fifth thread, and it takes over slots that other breakpoints have armed.
-/

namespace MasterLib
open Runs

variable {b : Build} {env : Env}

namespace Thread

def LocalEnabled (th : Thread) (k : Fin 4) : Prop := (th.dr7.flags k).getLsbD 0 = true

/-- Slot `k` is enabled, locally or globally. -/
def Enabled (th : Thread) (k : Fin 4) : Prop := th.dr7.flags k ≠ 0

def Triggers (th : Thread) (a : VmAddress b) : Prop := ∃ k, th.dr k = a.setWidth 64 ∧ th.LocalEnabled k

structure SlotSame (k : Fin 4) (th th' : Thread) : Prop where
  dr : th'.dr k = th.dr k
  flags : th'.dr7.flags k = th.dr7.flags k
  trigger : th'.dr7.trigger k = th.dr7.trigger k
  size : th'.dr7.size k = th.dr7.size k

variable {th : Thread} {a : VmAddress b} {j k : Fin 4}

theorem dr_armSlot : (th.setDebug (armSlot a k th.debug)).dr j = if j = k then a.setWidth 64 else th.dr j := by
  rw [dr, debug_setDebug, word64_armSlot]; rfl

theorem flags_armSlot : (th.setDebug (armSlot a k th.debug)).dr7.flags =
    Function.update th.dr7.flags k (th.dr7.flags k ||| 1) := by
  rw [dr7, debug_setDebug, dr7_armSlot]; rfl

theorem triggers_armSlot : (th.setDebug (armSlot a k th.debug)).Triggers a := by
  refine ⟨k, by rw [dr_armSlot, if_pos rfl], ?_⟩
  rw [LocalEnabled, flags_armSlot, Function.update_self]
  simp

theorem slotSame_armSlot (h : j ≠ k) : SlotSame j th (th.setDebug (armSlot a k th.debug)) := by
  refine ⟨by rw [dr_armSlot, if_neg h], ?_, ?_, ?_⟩
  · rw [flags_armSlot, Function.update_of_ne h]
  · rw [dr7, debug_setDebug, dr7_armSlot]; rfl
  · rw [dr7, debug_setDebug, dr7_armSlot]; rfl

end Thread

/-! ### Arming every thread -/

namespace X86_64HardwareBreakpoint
variable {bp : X86_64HardwareBreakpoint b} {t : Task b}

def ArmsEveryThread (env : Env) (bp : X86_64HardwareBreakpoint b) (t : Task b) : Prop :=
  (bp.apply env t).1 = true ∧ ∀ th ∈ (bp.apply env t).2.2.threadsExcept env.self, th.Triggers bp.address

theorem exists_slotOf {i : Int} (h : 0 < slotsLeft i) : ∃ k, slotOf i = some k := by
  rcases slotOf_cases i with ⟨-, h0⟩ | ⟨k, hs, -⟩
  · omega
  · exact ⟨k, hs⟩

/-- A new breakpoint is armed on every thread exactly when there are at most four. -/
theorem armsEveryThread_iff (hk : env.AllSucceed) (hin : bp.inUse = 0) :
    bp.ArmsEveryThread env t ↔ (t.threadsExcept env.self).length ≤ 4 := by
  have hleft : slotsLeft bp.inUse = 4 := by rw [hin]; rfl
  rw [ArmsEveryThread, apply_fst, hleft, decide_eq_true_iff]
  refine and_iff_left_of_imp fun hlen th hth => ?_
  obtain ⟨j, hj⟩ := List.mem_iff_getElem?.1 hth
  rw [getElem?_apply hk (by omega)] at hj
  obtain ⟨th₀, hth₀, rfl⟩ := Option.map_eq_some_iff.1 hj
  have hlt : j < (t.threadsExcept env.self).length := (List.getElem?_eq_some_iff.1 hth₀).1
  obtain ⟨k, hslot⟩ : ∃ k, slotOf (bp.inUse + j) = some k :=
    exists_slotOf (by rw [hin, slotsLeft]; split <;> omega)
  rw [arm, hslot]
  exact Thread.triggers_armSlot

def atThousand : X86_64HardwareBreakpoint .x86_64 := ⟨⟨false, 0x1000, none⟩, 0⟩

def zeroThreads (n : Nat) : Task .x86_64 :=
  (Session.start (fun _ => .x86_64Hardware atThousand) (fun _ => 0)
    ((List.range n).map fun i => ⟨i + 1, 0, fun _ _ => 0⟩)).task

theorem armsEveryThread_two : atThousand.ArmsEveryThread (.failAt []) (zeroThreads 2) :=
  (armsEveryThread_iff Env.allSucceed_failAt_nil rfl).2 (by decide)

/-- With five threads, all their slots disabled, there is no slot number for the last. -/
theorem not_armsEveryThread_five :
    (∀ th ∈ (zeroThreads 5).threadsExcept 0, ∀ k, ¬ th.Enabled k) ∧
      ¬ atThousand.ArmsEveryThread (.failAt []) (zeroThreads 5) := by
  refine ⟨?_, fun h => ?_⟩
  · intro th hth k
    obtain ⟨i, -, rfl⟩ := List.mem_map.1 (List.mem_filter.1 hth).1
    have hzero : ∀ k, (Bank.dr7 fun _ => 0).flags k = 0 := by decide
    exact fun hen => hen (hzero k)
  · have h₁ := h.1
    rw [apply_fst] at h₁
    revert h₁; decide

end X86_64HardwareBreakpoint

/-! ### Slots of other breakpoints -/

inductive HardwareOp
  | apply (p : BpPtr)
  | reset (p : BpPtr)
deriving DecidableEq, Repr

def HardwareOp.ptr : HardwareOp → BpPtr
  | .apply p | .reset p => p

namespace Session

def runHardwareOp (env : Env) (s : Session b) : HardwareOp → Session b
  | .apply p => (s.callApply env p).2
  | .reset p => (s.callReset env p).2

/-- Slot `k` of `th` is enabled and holds the address of an applied object of `P` other than `p`. -/
def OwnedByOther (P : Finset BpPtr) (s : Session b) (p : BpPtr) (th : Thread) (k : Fin 4) : Prop :=
  ∃ q ∈ P, q ≠ p ∧ applied q s.log = true ∧ th.Enabled k ∧ th.dr k = (s.heap q).address.setWidth 64

/-- If the operation is an `Apply`, it leaves the slots that other breakpoints own as they are. -/
def NoSteal (env : Env) (P : Finset BpPtr) (s : Session b) : HardwareOp → Prop
  | .apply p => ∀ (j : Nat) th th', (s.task.threadsExcept env.self)[j]? = some th →
      ((s.callApply env p).2.task.threadsExcept env.self)[j]? = some th' →
      ∀ k, OwnedByOther P s p th k → Thread.SlotSame k th th'
  | .reset _ => True

/-- If the operation is an `Apply`, the slot whose number it reaches at the `j`th thread, `in_use_ + j`, is not
one that another breakpoint owns. -/
def SlotsFree (env : Env) (P : Finset BpPtr) (s : Session b) : HardwareOp → Prop
  | .apply p => ∀ bp, s.heap p = .x86_64Hardware bp → ∀ (j : Nat) th k, (s.task.threadsExcept env.self)[j]? = some th →
      slotOf (bp.inUse + j) = some k → ¬ OwnedByOther P s p th k
  | .reset _ => True

end Session

/-- The objects `P` of `s` are hardware breakpoints with distinct addresses and `in_use_` counting from 0. -/
structure HardwareInv (P : Finset BpPtr) (s : Session b) : Prop where
  obj : ∀ p ∈ P, ∃ bp, s.heap p = .x86_64Hardware bp ∧ 0 ≤ bp.inUse
  distinct : ∀ p ∈ P, ∀ q ∈ P, q ≠ p → (s.heap q).address ≠ (s.heap p).address

structure FreshHardware (P : Finset BpPtr) (s : Session b) : Prop where
  obj : ∀ p ∈ P, ∃ bp, s.heap p = .x86_64Hardware bp ∧ bp.inUse = 0
  distinct : ∀ p ∈ P, ∀ q ∈ P, q ≠ p → (s.heap q).address ≠ (s.heap p).address

theorem FreshHardware.inv {P : Finset BpPtr} {s : Session b} (h : FreshHardware P s) : HardwareInv P s := by
  refine ⟨fun p hp => ?_, h.distinct⟩
  obtain ⟨bp, hbp, hin⟩ := h.obj p hp
  exact ⟨bp, hbp, by omega⟩

theorem setWidth_address_inj {a a' : VmAddress b} (h : a.setWidth 64 = a'.setWidth 64) : a = a' := by
  have hlt : ∀ a : VmAddress b, a.toNat < 2 ^ 64 := fun a =>
    Nat.lt_of_lt_of_le a.isLt (Nat.pow_le_pow_right (by omega) b.addrBits_le)
  have ht := congrArg BitVec.toNat h
  rw [BitVec.toNat_setWidth, BitVec.toNat_setWidth, Nat.mod_eq_of_lt (hlt a), Nat.mod_eq_of_lt (hlt a')] at ht
  exact BitVec.eq_of_toNat_eq ht

namespace HardwareInv
variable {P : Finset BpPtr} {s : Session b} {p : BpPtr} {op : HardwareOp}
open Session X86_64HardwareBreakpoint

theorem update {s' : Session b} {bp : X86_64HardwareBreakpoint b} (h : HardwareInv P s)
    (bp' : X86_64HardwareBreakpoint b) (hbp : s.heap p = .x86_64Hardware bp)
    (hs' : s'.heap = Function.update s.heap p (.x86_64Hardware bp'))
    (haddr : bp'.address = bp.address) (hin : 0 ≤ bp'.inUse) : HardwareInv P s' := by
  have hsame : ∀ q, (s'.heap q).address = (s.heap q).address := by
    intro q
    by_cases hqp : q = p
    · subst hqp; rw [hs', Function.update_self, hbp]; exact haddr
    · rw [hs', Function.update_of_ne hqp]
  refine ⟨fun q hq => ?_, fun q hq r hr hrq => ?_⟩
  · by_cases hqp : q = p
    · subst hqp; exact ⟨bp', by rw [hs', Function.update_self], hin⟩
    · rw [hs', Function.update_of_ne hqp]; exact h.obj q hq
  · rw [hsame, hsame]; exact h.distinct q hq r hr hrq

theorem runHardwareOp (hk : env.AllSucceed) (hp : op.ptr ∈ P) (h : HardwareInv P s) :
    HardwareInv P (s.runHardwareOp env op) := by
  obtain ⟨bp, hbp, hin⟩ := h.obj _ hp
  cases op with
  | apply p =>
    have hbp' : s.heap p = .x86_64Hardware bp := hbp
    refine h.update (bp.apply env s.task).2.1 hbp' ?_ ?_ ?_
    · rw [Session.runHardwareOp, callApply_hardware hbp']
    · rw [apply_obj]; rfl
    · rw [apply_obj]; exact Int.add_nonneg hin (Int.natCast_nonneg _)
  | reset p =>
    have hbp' : s.heap p = .x86_64Hardware bp := hbp
    refine h.update (bp.reset env s.task).2.1 hbp' ?_ ?_ ?_
    · rw [Session.runHardwareOp, callReset_hardware hbp']
    · rw [reset_obj hk]; rfl
    · rw [reset_obj hk]; exact hin

theorem noSteal_iff (hk : env.AllSucceed) (hp : op.ptr ∈ P) (h : HardwareInv P s) :
    s.NoSteal env P op ↔ s.SlotsFree env P op := by
  cases op with
  | reset p => exact Iff.rfl
  | apply p =>
    obtain ⟨bp, hbp, hin⟩ := h.obj p hp
    have haddr : (s.heap p).address = bp.address := by rw [hbp]; rfl
    have hthreads : ∀ j : Nat, ((s.callApply env p).2.task.threadsExcept env.self)[j]? =
        (s.task.threadsExcept env.self)[j]?.map (arm bp.address (bp.inUse + j)) := by
      intro j
      rw [← getElem?_apply hk hin, callApply_hardware hbp]
    constructor
    · rintro hsame bp' hbp' j th k hth hslot ⟨q, hq, hqp, happ, hen, hdr⟩
      obtain rfl : bp' = bp := by rw [hbp] at hbp'; cases hbp'; rfl
      have hth' := hthreads j
      rw [hth, Option.map_some] at hth'
      have hdr' := (hsame j th _ hth hth' k ⟨q, hq, hqp, happ, hen, hdr⟩).dr
      -- the slot now holds the address of `p`
      rw [arm, hslot] at hdr'
      rw [show (th.setDebug (armSlot bp'.address k th.debug)).dr k = _ from Thread.dr_armSlot, if_pos rfl,
        hdr] at hdr'
      exact h.distinct p hp q hq hqp ((setWidth_address_inj hdr').symm.trans haddr.symm)
    · intro hfree j th th' hth hth' k hown
      rw [hthreads, hth, Option.map_some, Option.some.injEq] at hth'
      subst hth'
      cases hslot : slotOf (bp.inUse + j) with
      | none => rw [arm, hslot]; exact ⟨rfl, rfl, rfl, rfl⟩
      | some k' =>
        rw [arm, hslot]
        refine Thread.slotSame_armSlot ?_
        rintro rfl
        exact hfree bp hbp j th k hth hslot hown

end HardwareInv

namespace Session
variable {P : Finset BpPtr} {s : Session b}

/-- In a run on new hardware breakpoints no `Apply` takes over a slot of another breakpoint exactly when each
finds the slots whose numbers it reaches free of them. -/
theorem noSteal_iff_slotsFree (hk : env.AllSucceed) (h : FreshHardware P s) (ops : List HardwareOp)
    (hops : ∀ op ∈ ops, op.ptr ∈ P) :
    AtEach (runHardwareOp env) (NoSteal env P) s ops ↔ AtEach (runHardwareOp env) (SlotsFree env P) s ops :=
  atEach_congr (fun _ _ hp hinv => hinv.noSteal_iff hk hp) (fun _ _ hp hinv _ => hinv.runHardwareOp hk hp)
    hops h.inv

def hardwarePair : Session .x86_64 :=
  start (fun p => .x86_64Hardware ⟨⟨false, if p = 0 then 0x1000 else 0x2000, none⟩, 0⟩) (fun _ => 0)
    [⟨1, 0, fun _ _ => 0⟩]

theorem freshHardware_hardwarePair : FreshHardware {0, 1} hardwarePair := by
  refine ⟨fun p _ => ⟨_, rfl, rfl⟩, ?_⟩
  show ∀ p ∈ ({0, 1} : Finset BpPtr), ∀ q ∈ ({0, 1} : Finset BpPtr), q ≠ p →
    (if q = 0 then 0x1000 else 0x2000 : BitVec 64) ≠ if p = 0 then 0x1000 else 0x2000
  decide

theorem slotsFree_of_applied {p : BpPtr} (h : ∀ q ∈ P, q ≠ p → applied q s.log = false) :
    s.SlotsFree env P (.apply p) := by
  rintro bp - j th k - - ⟨q, hq, hqp, happ, -⟩
  rw [h q hq hqp] at happ; cases happ

/-- Once the first breakpoint is disabled the second may have its slot. -/
theorem noSteal_sequential :
    AtEach (runHardwareOp (.failAt [])) (NoSteal (.failAt []) {0, 1}) hardwarePair
      [.apply 0, .reset 0, .apply 1] := by
  refine (noSteal_iff_slotsFree Env.allSucceed_failAt_nil freshHardware_hardwarePair _ (by decide)).2 ?_
  refine atEach_cons.2 ⟨?_, atEach_cons.2 ⟨trivial, atEach_cons.2 ⟨?_, atEach_nil⟩⟩⟩
  · exact slotsFree_of_applied (by decide)
  · exact slotsFree_of_applied (by decide)

/-- Both objects count from slot 0, so the second takes the slot of the first. -/
theorem not_noSteal_pair :
    ¬ AtEach (runHardwareOp (.failAt [])) (NoSteal (.failAt []) {0, 1}) hardwarePair [.apply 0, .apply 1] := by
  intro h
  have hdr := (h [.apply 0] (.apply 1) [] rfl 0 _ _ rfl rfl 0
    ⟨0, by decide, by decide, by decide, by unfold Thread.Enabled; decide, by decide⟩).dr
  revert hdr; decide

end Session

end MasterLib
