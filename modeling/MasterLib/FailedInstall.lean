import MasterLib.BreakpointHandler
import MasterLib.HardwareLoops

/-!
# Installs that fail

`InstallBreakpoint` takes the pointer off its list again when `Apply` fails and undoes nothing else. So what is
left behind is what the failed `Apply` had done: for a software breakpoint the saved bytes and, from the
second kernel call of the write on, protections and memory; for a hardware breakpoint the threads that were
armed before the slot numbers ran out.
-/

namespace MasterLib
open Overlay

variable {b : Build} {env : Env}

namespace Session

structure Untouched (p : BpPtr) (s s' : Session b) : Prop where
  breakpoints : s'.breakpoints = s.breakpoints
  object : s'.heap p = s.heap p
  mem : s'.task.mem = s.task.mem
  prot : s'.task.prot = s.task.prot
  debug : s'.task.threads.map Thread.debug = s.task.threads.map Thread.debug

def AtomicInstall (env : Env) (p : BpPtr) (s : Session b) : Prop :=
  (s.installBreakpoint env (some p) true).1 = false → Untouched p s (s.installBreakpoint env (some p) true).2

/-- Nothing is left behind. For a software breakpoint `i` is the kernel call of the write that fails: the
object must have saved the bytes read already, the pages be writable already and the opcode be in place. For
a hardware breakpoint there must be a slot number for every thread, or for none. -/
def NothingLeftBehind (env : Env) (p : BpPtr) (s : Session b) : Prop :=
  match s.heap p with
  | .software bp => ∀ i, env.firstFailure (s.task.calls + 1) 3 = some i →
      (bp.kind ≠ .x86_64 ∧ bp.originalOpcode = bytesRead env s.task bp.address bp.size) ∧
      (0 < i → ∀ pg, Touches bp.address bp.size pg → s.task.prot pg = protRWX) ∧
      (1 < i → readBytes s.task.mem bp.address bp.size = bp.kind.opcode)
  | .x86_64Hardware bp =>
      (s.task.threadsExcept env.self).length ≤ slotsLeft bp.inUse ∨ slotsLeft bp.inUse = 0
  | .armv7Hardware _ => True

end Session

theorem SoftwareBreakpoint.afterApply_eq_self_iff {bp : SoftwareBreakpoint b} {read : List Byte} (h : read ≠ []) :
    bp.afterApply read = bp ↔ bp.kind ≠ .x86_64 ∧ bp.originalOpcode = read := by
  obtain ⟨⟨act, a, cb⟩, k, sv⟩ := bp
  cases k with
  | x86_64 => simp [afterApply, SoftwareKind.saved, h]
  | armv7 | thumbv7 => simp [afterApply, SoftwareKind.saved, SoftwareKind.flag, eq_comm]

namespace Session
variable {s : Session b} {p : BpPtr}

theorem atomicInstall_iff_of_software {bp : SoftwareBreakpoint b} (hp : s.heap p = .software bp) :
    s.AtomicInstall env p ↔ s.NothingLeftBehind env p := by
  have hread : bytesRead env s.task bp.address bp.size ≠ [] := by
    intro h
    have hlen := length_bytesRead env s.task bp.address bp.size
    rw [h] at hlen
    exact absurd hlen (Nat.ne_of_lt bp.kind.opcode_length_pos)
  have hpages : protect s.task.prot bp.address bp.kind.opcode.length protRWX = s.task.prot ↔
      ∀ pg, Touches bp.address bp.size pg → s.task.prot pg = protRWX := protect_eq_self_iff
  have hbytes := overlay_eq_self_iff_readBytes (m := s.task.mem) (a := bp.address)
    (bp.kind.opcode_length_le_pow b)
  rw [AtomicInstall, NothingLeftBehind, hp, installBreakpoint_true, callApply_software hp]
  cases hf : env.firstFailure (s.task.calls + 1) 3 with
  | none =>
    rw [writeMemory_none hf]
    constructor
    · rintro - _ ⟨⟩
    · rintro - ⟨⟩
  | some i =>
    rw [writeMemory_some hf, SoftwareKind.sent_opcode]
    constructor
    · rintro h _ ⟨⟩
      obtain ⟨-, hobj, hmem, hprot, -⟩ := h rfl
      simp only [Function.update_self, hp, Breakpoint.software.injEq] at hobj
      refine ⟨(SoftwareBreakpoint.afterApply_eq_self_iff hread).1 hobj, fun hi => ?_, fun hi => ?_⟩
      · exact hpages.1 ((if_pos hi).symm.trans hprot)
      · exact hbytes.1 ((if_pos hi).symm.trans hmem)
    · intro h _
      obtain ⟨hobj, hprot, hmem⟩ := h i rfl
      refine ⟨rfl, ?_, ?_, ?_, rfl⟩
      · simp only [Function.update_self, hp, Breakpoint.software.injEq]
        exact (SoftwareBreakpoint.afterApply_eq_self_iff hread).2 hobj
      · by_cases hi : 1 < i
        · exact (if_pos hi).trans (hbytes.2 (hmem hi))
        · exact if_neg hi
      · by_cases hi : 0 < i
        · exact (if_pos hi).trans (hpages.2 (hprot hi))
        · exact if_neg hi

theorem atomicInstall_iff_of_hardware {bp : X86_64HardwareBreakpoint b} (hp : s.heap p = .x86_64Hardware bp) :
    s.AtomicInstall env p ↔ s.NothingLeftBehind env p := by
  rw [AtomicInstall, NothingLeftBehind, hp, installBreakpoint_true, callApply_hardware hp]
  simp only [X86_64HardwareBreakpoint.apply_fst, decide_eq_false_iff_not, Nat.not_le]
  constructor
  · intro h
    by_cases hlen : (s.task.threadsExcept env.self).length ≤ slotsLeft bp.inUse
    · exact .inl hlen
    · have hobj := (h (by omega)).object
      simp only [Function.update_self, hp, Breakpoint.x86_64Hardware.injEq,
        X86_64HardwareBreakpoint.apply_obj, X86_64HardwareBreakpoint.countedUp_eq_self_iff] at hobj
      exact .inr (by omega)
  · intro h hlen
    have hstuck : slotsLeft bp.inUse = 0 := by omega
    obtain ⟨n, htask⟩ := X86_64HardwareBreakpoint.task_apply_stuck env s.task hstuck
    have hret : ¬ (s.task.threadsExcept env.self).length ≤ slotsLeft bp.inUse := by omega
    refine ⟨?_, ?_, ?_, ?_, ?_⟩
    · simp [hret]
    · simp only [Function.update_self, hp, Breakpoint.x86_64Hardware.injEq,
        X86_64HardwareBreakpoint.apply_obj]
      exact X86_64HardwareBreakpoint.countedUp_eq_self_iff.2 (.inr hstuck)
    all_goals simp only [htask]

/-- An install that fails changes nothing exactly when its `Apply` had left nothing behind. -/
theorem atomicInstall_iff (env : Env) (p : BpPtr) (s : Session b) :
    s.AtomicInstall env p ↔ s.NothingLeftBehind env p := by
  cases hp : s.heap p with
  | software bp => exact atomicInstall_iff_of_software hp
  | x86_64Hardware bp => exact atomicInstall_iff_of_hardware hp
  | armv7Hardware bp =>
    rw [NothingLeftBehind, hp]
    refine iff_true_intro fun _ => ?_
    rw [installBreakpoint_true]
    simp only [callApply, hp, Breakpoint.apply, ARMv7HardwareBreakpoint.apply]
    exact ⟨rfl, by simp only [Function.update_self, hp], rfl, rfl, rfl⟩

/-- The last call of the write fails: the trap stays in the target, and nothing is registered for it. -/
theorem not_atomicInstall_lastProtect :
    ¬ AtomicInstall (.failAt [3]) 0
      (start (fun _ => .software (.new .x86_64 false 0x1000)) (fun _ => 0x90) [] : Session .x86_64) := by
  intro h
  have hmem := congrFun (h (by decide)).mem 0x1000
  revert hmem; decide

end Session

end MasterLib
