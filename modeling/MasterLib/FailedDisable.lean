import MasterLib.Uninstall

/-!
# Disables that fail

`DisableBreakpoint` and `UninstallBreakpoint` on a software breakpoint whose `Reset` fails. Each `Reset` is three
kernel calls, so the number of the call that fails says how far the write had got; on x86_64 `active_` is
cleared before any of them.
-/

namespace MasterLib
open Overlay

variable {b : Build} {env : Env}

/-- `SoftwareBreakpoint.wasReset` is a change on x86_64 only, and only of a set flag. -/
theorem SoftwareBreakpoint.wasReset_eq_self_iff {bp : SoftwareBreakpoint b} :
    bp.wasReset = bp ↔ (bp.kind = .x86_64 → bp.active = false) := by
  obtain ⟨⟨act, a, cb⟩, k, sv⟩ := bp
  cases k with
  | x86_64 => simp [wasReset, SoftwareKind.flag, eq_comm]
  | armv7 | thumbv7 => simp [wasReset, SoftwareKind.flag]

inductive DisableOp
  | disable | uninstall
deriving DecidableEq, Repr

namespace Session
variable {s : Session b} {p : BpPtr} {bp : SoftwareBreakpoint b} {op : DisableOp}

def runDisableOp (env : Env) (p : BpPtr) (s : Session b) : DisableOp → LoopExit × Session b
  | .disable => let (ok, s) := s.disableBreakpoint env p; (.returned ok, s)
  | .uninstall => s.uninstallBreakpoint env p

def resets (p : BpPtr) (s : Session b) : DisableOp → Nat
  | .disable => 1
  | .uninstall => visits p s.breakpoints

/-- The object `p` is registered in `s'`, and it and the target are as in `s`. -/
structure StillInstalled (p : BpPtr) (s s' : Session b) : Prop where
  registered : p ∈ s'.breakpoints
  object : s'.heap p = s.heap p
  mem : s'.task.mem = s.task.mem
  prot : s'.task.prot = s.task.prot

/-- If the operation returns `false` and the last thing it did was a `Reset` that failed, the breakpoint is
installed as before. -/
def AtomicDisable (env : Env) (p : BpPtr) (s : Session b) (op : DisableOp) : Prop :=
  (s.runDisableOp env p op).1 = .returned false →
    (∃ log, (s.runDisableOp env p op).2.log = .reset p false :: log) →
    StillInstalled p s (s.runDisableOp env p op).2

/-- If kernel call `i` of the operation is the first to fail, what was done before it is no change: no flag to
clear, the pages protected like that already, the saved bytes in place already. -/
def NothingUndone (env : Env) (bp : SoftwareBreakpoint b) (t : Task b) (resets : Nat) : Prop :=
  ∀ i, env.firstFailure t.calls (3 * resets) = some i →
    (bp.kind = .x86_64 → bp.active = false) ∧
    (0 < i → ∀ pg, Touches bp.address bp.originalOpcode.length pg →
      t.prot pg = if i % 3 = 0 then protRX else protRWX) ∧
    (1 < i → overlay t.mem bp.address (sent bp.originalOpcode) = t.mem)

theorem runDisableOp_spec (env : Env) (p : BpPtr) (s : Session b) (hreg : p ∈ s.breakpoints) (op : DisableOp) :
    0 < s.resets p op ∧ ∃ exit list, s.runDisableOp env p op =
        (exit, { (resetTimes env p (s.resets p op) s).2 with breakpoints := list }) ∧
      ((resetTimes env p (s.resets p op) s).1 = false → exit = .returned false ∧ p ∈ list) := by
  cases op with
  | disable =>
    refine ⟨Nat.one_pos, .returned (s.callReset env p).1, s.breakpoints, ?_, ?_⟩
    · simp only [runDisableOp, disableBreakpoint, resets, resetTimes_one]; rfl
    · show (resetTimes env p 1 s).1 = false → _
      rw [resetTimes_one]
      exact fun h => ⟨by rw [h], hreg⟩
  | uninstall =>
    obtain ⟨exit, list, h₁, h₂⟩ := uninstallBreakpoint_spec env p s
    exact ⟨visits_pos_iff.2 hreg, exit, list, h₁, h₂⟩

/-- A disable or uninstall that fails changes nothing exactly when the calls before the failing one had
nothing to change. -/
theorem atomicDisable_iff (hp : s.heap p = .software bp) (hreg : p ∈ s.breakpoints) (op : DisableOp) :
    s.AtomicDisable env p op ↔ NothingUndone env bp s.task (s.resets p op) := by
  obtain ⟨hpos, exit, list, hrun, hfail⟩ := runDisableOp_spec env p s hreg op
  rw [AtomicDisable, hrun, NothingUndone]
  cases hf : env.firstFailure s.task.calls (3 * s.resets p op) with
  | none =>
    obtain ⟨-, log, hlog⟩ := (resetTimes_none hp hf).2 hpos
    constructor
    · rintro - i ⟨⟩
    · rintro - - ⟨log', hlog'⟩
      rw [show _ = _ from hlog] at hlog'; cases hlog'
  | some i =>
    obtain ⟨hret, hat⟩ := resetTimes_some hp hf
    obtain ⟨rfl, hmem⟩ := hfail hret
    have hobject : (resetTimes env p (s.resets p op) s).2.heap p = s.heap p ↔
        (bp.kind = .x86_64 → bp.active = false) := by
      rw [hat.object, hp, Breakpoint.software.injEq, SoftwareBreakpoint.wasReset_eq_self_iff]
    constructor
    · rintro h _ ⟨⟩
      obtain ⟨-, hobj, hm, hpr⟩ := h rfl hat.log
      refine ⟨hobject.1 hobj, fun hi => protect_eq_self_iff.1 ?_, fun hi => ?_⟩
      · exact (if_pos hi).symm.trans (hat.prot.symm.trans hpr)
      · exact (if_pos hi).symm.trans (hat.mem.symm.trans hm)
    · rintro h - -
      obtain ⟨hobj, hpr, hm⟩ := h i rfl
      refine ⟨hmem, hobject.2 hobj, ?_, ?_⟩
      · refine hat.mem.trans ?_
        split
        · exact hm ‹_›
        · rfl
      · refine hat.prot.trans ?_
        split
        · exact protect_eq_self_iff.2 (hpr ‹_›)
        · rfl

def installed (env : Env) (kind : SoftwareKind) : Session .x86_64 :=
  ((start (fun _ => .software (.new kind false 0x1000)) (fun _ => 0x90) []).installBreakpoint env (some 0) true).2

theorem atomicDisable_arm : (installed (.failAt [4]) .armv7).AtomicDisable (.failAt [4]) 0 .uninstall := by
  refine (atomicDisable_iff rfl (by decide) .uninstall).2 fun i hi => ?_
  obtain rfl : 0 = i := Option.some.inj hi
  refine ⟨fun h => ?_, fun h => ?_, fun h => ?_⟩
  · revert h; decide
  · exact absurd h (Nat.lt_irrefl 0)
  · exact absurd h (by decide)

/-- On x86_64 the flag is cleared although the trap is still in place. -/
theorem not_atomicDisable_x86_64 :
    applied 0 (installed (.failAt [4]) .x86_64).log = true ∧ 0 ∈ (installed (.failAt [4]) .x86_64).breakpoints ∧
      ¬ (installed (.failAt [4]) .x86_64).AtomicDisable (.failAt [4]) 0 .disable := by
  refine ⟨by decide, by decide, fun h => ?_⟩
  have hobj := congrArg Breakpoint.active (h (by decide) ⟨_, rfl⟩).object
  revert hobj; decide

end Session

end MasterLib
