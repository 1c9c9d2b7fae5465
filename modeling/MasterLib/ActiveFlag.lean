import MasterLib.Uninstall
import MasterLib.HardwareLoops
import MasterLib.Runs

/-!
# The flag `active_`

`FlagOk`: `active()` of an object is what the history of its `Apply` and `Reset` calls says. The x86_64 software
breakpoint keeps it. The ARM and THUMB ones never write the flag. The hardware breakpoint writes it for each
thread it changes, so not at all over a list without such threads, and also where it then gives up.
-/

namespace MasterLib
open Runs

variable {b : Build} {env : Env} {p : BpPtr} {s : Session b}

inductive FlagOp
  | install (immActive : Bool)
  | enable
  | disable
  | uninstall
deriving DecidableEq, Repr

namespace Session

def runFlagOp (env : Env) (p : BpPtr) (s : Session b) : FlagOp → Session b
  | .install immActive => (s.installBreakpoint env (some p) immActive).2
  | .enable => (s.enableBreakpoint env p).2
  | .disable => (s.disableBreakpoint env p).2
  | .uninstall => (s.uninstallBreakpoint env p).2

/-- An operation on the target as it is by then: between two operations it runs, and its threads come and go. -/
def runFlagStep (env : Env) (p : BpPtr) (s : Session b) (step : Task b × FlagOp) : Session b :=
  { s with task := step.1 }.runFlagOp env p step.2

def FlagOk (p : BpPtr) (s : Session b) : Prop := (s.heap p).active = applied p s.log

/-- An `Apply` sets the flag, or it is set. -/
def SetsFlag (env : Env) (p : BpPtr) (s : Session b) : Prop :=
  match s.heap p with
  | .software bp => bp.kind = .x86_64 ∨ bp.active = true
  | .x86_64Hardware bp =>
    let len := (s.task.threadsExcept env.self).length
    bp.active = true ∨ len ≠ 0 ∧ (len ≤ slotsLeft bp.inUse ∨ slotsLeft bp.inUse = 0)
  | .armv7Hardware _ => True

/-- A `Reset` clears the flag, or it is clear. -/
def ClearsFlag (env : Env) (p : BpPtr) (s : Session b) : Prop :=
  match s.heap p with
  | .software bp => bp.kind = .x86_64 ∨ bp.active = false
  | .x86_64Hardware bp =>
    bp.active = false ∨ ∃ th ∈ s.task.threadsExcept env.self, X86_64HardwareBreakpoint.Holds bp.address th
  | .armv7Hardware _ => True

def FlagKept (env : Env) (p : BpPtr) (s : Session b) : FlagOp → Prop
  | .install immActive => immActive = true → SetsFlag env p s
  | .enable => SetsFlag env p s
  | .disable => ClearsFlag env p s
  | .uninstall => p ∈ s.breakpoints → ClearsFlag env p s

end Session

open Session

/-! ### One call -/

theorem applied_apply_self (ok : Bool) (log : List Event) :
    applied p (.apply p ok :: log) = (ok || applied p log) := by
  rw [applied_apply]; cases ok <;> simp

theorem applied_reset_self (ok : Bool) (log : List Event) :
    applied p (.reset p ok :: log) = (!ok && applied p log) := by
  rw [applied_reset]; cases ok <;> simp

theorem flagOk_callApply_iff (env : Env) (p : BpPtr) (s : Session b) : FlagOk p (s.callApply env p).2 ↔
    ((s.heap p).apply env s.task).2.1.active = (((s.heap p).apply env s.task).1 || applied p s.log) := by
  rw [FlagOk, heap_callApply_self, ← applied_apply_self]; rfl

theorem flagOk_callApply (hk : env.AllSucceed) (h : FlagOk p s) :
    FlagOk p (s.callApply env p).2 ↔ SetsFlag env p s := by
  rw [FlagOk] at h
  rw [flagOk_callApply_iff, SetsFlag, ← h]
  cases hp : s.heap p with
  | software bp =>
    show (bp.apply env s.task).2.1.active = ((bp.apply env s.task).1 || bp.active) ↔ _
    rw [SoftwareBreakpoint.apply_ok hk]
    show bp.kind.flag true bp.active = true ↔ bp.kind = .x86_64 ∨ bp.active = true
    cases bp.kind <;> simp [SoftwareKind.flag]
  | x86_64Hardware bp =>
    show (bp.apply env s.task).2.1.active = ((bp.apply env s.task).1 || bp.active) ↔ _
    rw [X86_64HardwareBreakpoint.apply_obj, X86_64HardwareBreakpoint.apply_fst]
    simp only [X86_64HardwareBreakpoint.countedUp]
    cases bp.active with
    | true => simp
    | false =>
      simp only [Bool.false_or, Bool.or_false, Bool.false_eq_true, false_or]
      rw [decide_eq_decide]
      omega
  | armv7Hardware bp => exact iff_of_true rfl trivial

/-! ### Resets in a row -/

theorem resetTimes_hardware (hk : env.AllSucceed) {bp : X86_64HardwareBreakpoint b} {k : Nat}
    (hp : s.heap p = .x86_64Hardware bp) (hpos : 0 < k) :
    (resetTimes env p k s).2.heap p = .x86_64Hardware (bp.clearedOver (s.task.threadsExcept env.self)) ∧
      ∃ log, (resetTimes env p k s).2.log = .reset p true :: log := by
  induction k generalizing s bp with
  | zero => exact absurd hpos (Nat.lt_irrefl 0)
  | succ k ih =>
    have hret : (s.callReset env p).1 = true := by
      rw [callReset_hardware hp]; exact X86_64HardwareBreakpoint.reset_fst
    have hp' : (s.callReset env p).2.heap p = .x86_64Hardware (bp.clearedOver (s.task.threadsExcept env.self)) := by
      rw [heap_callReset_self, hp]
      exact congrArg Breakpoint.x86_64Hardware (X86_64HardwareBreakpoint.reset_obj hk)
    have hlog : (s.callReset env p).2.log = .reset p true :: s.log := by rw [← hret]; rfl
    have htask : (s.callReset env p).2.task = (bp.reset env s.task).2.2 := by rw [callReset_hardware hp]
    rw [resetTimes, if_pos hret]
    rcases Nat.eq_zero_or_pos k with rfl | hk'
    · exact ⟨hp', _, hlog⟩
    · obtain ⟨hobj, hlog'⟩ := ih hp' hk'
      exact ⟨by rw [hobj, htask, X86_64HardwareBreakpoint.clearedOver_reset hk], hlog'⟩

theorem resetTimes_armv7Hardware (env : Env) {bp : BreakpointBase b} {k : Nat} (hp : s.heap p = .armv7Hardware bp)
    (hpos : 0 < k) : (resetTimes env p k s).2.heap p = .armv7Hardware bp ∧
      (resetTimes env p k s).2.log = .reset p false :: s.log := by
  obtain ⟨k, rfl⟩ : ∃ k', k = k' + 1 := ⟨k - 1, by omega⟩
  have hr : (s.callReset env p).1 = false := by
    simp only [callReset, hp, Breakpoint.reset, ARMv7HardwareBreakpoint.reset]
  rw [resetTimes, if_neg (by simp [hr]), heap_callReset_self, hp]
  refine ⟨rfl, ?_⟩
  rw [← hr]; rfl

theorem flagOk_resetTimes (hk : env.AllSucceed) {k : Nat} (hpos : 0 < k) (h : FlagOk p s) :
    FlagOk p (resetTimes env p k s).2 ↔ ClearsFlag env p s := by
  rw [FlagOk] at h
  rw [FlagOk, ClearsFlag]
  cases hp : s.heap p with
  | software bp =>
    obtain ⟨hobj, log, hlog⟩ := (resetTimes_none hp (Env.firstFailure_ok hk _ (3 * k))).2 hpos
    rw [hobj, hlog, applied_reset_self]
    show bp.kind.flag false bp.active = false ↔ bp.kind = .x86_64 ∨ bp.active = false
    cases bp.kind <;> simp [SoftwareKind.flag]
  | x86_64Hardware bp =>
    obtain ⟨hobj, log, hlog⟩ := resetTimes_hardware hk hp hpos
    rw [hobj, hlog, applied_reset_self]
    show (bp.active && decide _) = false ↔ _
    simp only [Bool.and_eq_false_iff, decide_eq_false_iff_not, not_forall, not_not, exists_prop]
  | armv7Hardware bp =>
    rcases resetTimes_armv7Hardware env hp hpos with ⟨hobj, hlog⟩
    rw [hobj, hlog, applied_reset_self, ← h, hp]
    exact iff_of_true rfl trivial

/-! ### Runs -/

theorem flagOk_runFlagOp (hk : env.AllSucceed) (h : FlagOk p s) (op : FlagOp) :
    FlagOk p (s.runFlagOp env p op) ↔ FlagKept env p s op := by
  cases op with
  | install immActive =>
    cases immActive with
    | false => exact iff_of_true h (fun h => nomatch h)
    | true =>
      rw [runFlagOp, installBreakpoint_true, FlagKept]
      exact (flagOk_callApply hk h).trans ⟨fun h _ => h, fun h => h rfl⟩
  | enable => exact flagOk_callApply hk h
  | disable =>
    rw [runFlagOp, disableBreakpoint, ← resetTimes_one]
    exact flagOk_resetTimes hk Nat.one_pos h
  | uninstall =>
    obtain ⟨exit, list, hrun, -⟩ := uninstallBreakpoint_spec env p s
    rw [runFlagOp, hrun, FlagKept]
    by_cases hreg : p ∈ s.breakpoints
    · exact (flagOk_resetTimes hk (visits_pos_iff.2 hreg) h).trans ⟨fun h _ => h, fun h => h hreg⟩
    · rw [visits_of_not_mem hreg]
      exact iff_of_true h fun hr => absurd hr hreg

/-- In a run on one breakpoint the flag is right after every operation exactly when each `Apply` sets it or
finds it set and each `Reset` clears it or finds it clear. -/
theorem flagOk_iff_flagKept (hk : env.AllSucceed) (h : FlagOk p s) (ops : List (Task b × FlagOp)) :
    AtEach (runFlagStep env p) (fun s op => FlagOk p (s.runFlagStep env p op)) s ops ↔
      AtEach (runFlagStep env p) (fun s op => FlagKept env p { s with task := op.1 } op.2) s ops :=
  have hstep : ∀ (s : Session b) (op : Task b × FlagOp), True → FlagOk p s →
      (FlagOk p (s.runFlagStep env p op) ↔ FlagKept env p { s with task := op.1 } op.2) :=
    fun s op _ hs => flagOk_runFlagOp (s := { s with task := op.1 }) hk hs op.2
  atEach_congr hstep (fun _ _ _ _ hs => hs) (fun _ _ => trivial) h

def newTrap (b : Build) (kind : SoftwareKind) : Session b :=
  start (fun _ => .software (.new kind false (BitVec.ofNat _ 0x1000))) (fun _ => 0x90) []

theorem flagOk_x86_64 :
    let t := (newTrap .x86_64 .x86_64).task
    AtEach (runFlagStep (.failAt []) 0) (fun s op => FlagOk 0 (s.runFlagStep (.failAt []) 0 op))
      (newTrap .x86_64 .x86_64) [(t, .install true), (t, .disable), (t, .uninstall)] := by
  intro t
  have hstart : FlagOk 0 (newTrap .x86_64 .x86_64) := rfl
  refine (flagOk_iff_flagKept Env.allSucceed_failAt_nil hstart _).2 ?_
  refine atEach_cons.2 ⟨fun _ => .inl rfl, atEach_cons.2 ⟨.inl rfl, atEach_cons.2 ⟨fun _ => .inl rfl, atEach_nil⟩⟩⟩

/-- Enabling an ARM breakpoint leaves its flag clear. -/
theorem not_flagOk_armv7 :
    let t := (newTrap .arm .armv7).task
    FlagOk 0 (newTrap .arm .armv7) ∧
      ¬ AtEach (runFlagStep (.failAt []) 0) (fun s op => FlagOk 0 (s.runFlagStep (.failAt []) 0 op))
        (newTrap .arm .armv7) [(t, .enable)] := by
  intro t
  refine ⟨rfl, fun h => ?_⟩
  have hflag : (((newTrap .arm .armv7).runFlagStep (.failAt []) 0 (t, .enable)).heap 0).active =
      applied 0 ((newTrap .arm .armv7).runFlagStep (.failAt []) 0 (t, .enable)).log := h [] _ [] rfl
  revert hflag; decide

end MasterLib
