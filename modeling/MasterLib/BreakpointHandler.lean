import MasterLib.HardwareBreakpoint

/-!
# `BreakpointHandler`

A `Session` is the shared handler's list of breakpoint pointers, the objects they point to and the
target. `log` is not in the source: it records which `Apply`, `Reset` and callback calls were made and what
they returned, newest first, so that "currently applied" can be read off the history (`applied`).
-/

namespace MasterLib
open Overlay

variable {b : Build} {env : Env}

inductive Breakpoint (b : Build)
  | software (bp : SoftwareBreakpoint b)
  | x86_64Hardware (bp : X86_64HardwareBreakpoint b)
  | armv7Hardware (bp : BreakpointBase b)

namespace Breakpoint

def base : Breakpoint b → BreakpointBase b
  | .software bp => bp.toBreakpointBase
  | .x86_64Hardware bp => bp.toBreakpointBase
  | .armv7Hardware bp => bp

def active (bp : Breakpoint b) : Bool := bp.base.active

def address (bp : Breakpoint b) : VmAddress b := bp.base.address

def callback (bp : Breakpoint b) : Option Callback := bp.base.callback

def apply (env : Env) (t : Task b) : Breakpoint b → Bool × Breakpoint b × Task b
  | .software bp => let (ok, bp, t) := bp.apply env t; (ok, .software bp, t)
  | .x86_64Hardware bp => let (ok, bp, t) := bp.apply env t; (ok, .x86_64Hardware bp, t)
  | .armv7Hardware bp => let (ok, bp, t) := ARMv7HardwareBreakpoint.apply bp t; (ok, .armv7Hardware bp, t)

def reset (env : Env) (t : Task b) : Breakpoint b → Bool × Breakpoint b × Task b
  | .software bp => let (ok, bp, t) := bp.reset env t; (ok, .software bp, t)
  | .x86_64Hardware bp => let (ok, bp, t) := bp.reset env t; (ok, .x86_64Hardware bp, t)
  | .armv7Hardware bp => let (ok, bp, t) := ARMv7HardwareBreakpoint.reset bp t; (ok, .armv7Hardware bp, t)

end Breakpoint

def Build.isX86 : Build → Bool
  | .i386 | .x86_64 => true
  | .arm | .arm64 => false

/-- The class is one that the build has: the others are left out by `#if`. -/
def Breakpoint.Native : Breakpoint b → Prop
  | .software bp => bp.kind = .x86_64 ↔ b.isX86 = true
  | .x86_64Hardware _ => b.isX86 = true
  | .armv7Hardware _ => b.isX86 = false

/-- A non-null `Breakpoint *`. -/
abbrev BpPtr := Nat

inductive Event
  | apply (p : BpPtr) (ok : Bool)
  | reset (p : BpPtr) (ok : Bool)
  | callback (p : BpPtr)
deriving DecidableEq, Repr

def Event.ok : Event → Bool
  | .apply _ ok | .reset _ ok => ok
  | .callback _ => true

/-- Whether the last call for `p` was one of `Apply`, whatever it returned. -/
def lastCall (p : BpPtr) : List Event → Option Bool
  | [] => none
  | .apply q _ :: log => if q = p then some true else lastCall p log
  | .reset q _ :: log => if q = p then some false else lastCall p log
  | .callback _ :: log => lastCall p log

/-- The last `Apply` or `Reset` of `p` that returned `true` was an `Apply`. -/
def applied (p : BpPtr) (log : List Event) : Bool := lastCall p (log.filter Event.ok) == some true

/-- `others` are the live threads of other tasks. An exception that leaves a callback is caught nowhere:
`std::terminate` has ended the program, not the target, once `terminated`. -/
structure Session (b : Build) where
  heap : BpPtr → Breakpoint b
  breakpoints : List BpPtr
  task : Task b
  log : List Event
  others : List Thread := []
  terminated : Bool := false

namespace Session

/-- Breakpoint objects `heap`, none registered, over a target with memory `mem` and threads `threads`. -/
def start (heap : BpPtr → Breakpoint b) (mem : VmAddress b → Byte) (threads : List Thread) : Session b where
  heap := heap
  breakpoints := []
  task := { mem := mem, prot := fun _ => protRX, threads := threads, kinfo := some true, calls := 0 }
  log := []

def callApply (env : Env) (p : BpPtr) (s : Session b) : Bool × Session b :=
  let (ok, bp, t) := (s.heap p).apply env s.task
  (ok, { s with heap := Function.update s.heap p bp, task := t, log := .apply p ok :: s.log })

def callReset (env : Env) (p : BpPtr) (s : Session b) : Bool × Session b :=
  let (ok, bp, t) := (s.heap p).reset env s.task
  (ok, { s with heap := Function.update s.heap p bp, task := t, log := .reset p ok :: s.log })

/-- `InstallBreakpoint`; a null pointer is accepted and ignored. -/
def installBreakpoint (env : Env) (bp : Option BpPtr) (immActive : Bool) (s : Session b) :
    Bool × Session b :=
  match bp with
  | none => (true, s)
  | some p =>
    let s := { s with breakpoints := s.breakpoints ++ [p] }
    if immActive then
      let (success, s) := s.callApply env p
      if !success then (false, { s with breakpoints := s.breakpoints.dropLast }) else (true, s)
    else (true, s)

/-- How the loop of `UninstallBreakpoint` ends: by a `return`, or with its iterator past `end()`, where
C++ gives the loop test no meaning and the model stops. -/
inductive LoopExit
  | returned (result : Bool)
  | pastEnd
deriving DecidableEq, Repr

/-- The loop of `UninstallBreakpoint` with the iterator at the head of `rest`, the vector being
`done ++ rest`. -/
def uninstallLoop (env : Env) (p : BpPtr) :
    List BpPtr → List BpPtr → Session b → LoopExit × Session b
  | _, [], s => (.returned false, s)
  | done, q :: rest, s =>
    if q = p then
      let (success, s) := s.callReset env q
      if !success then (.returned false, s)
      else
        -- `erase(it)` leaves the iterator at the head of `rest`; `++it` then skips that element
        let s := { s with breakpoints := done ++ rest }
        match rest with
        | [] => (.pastEnd, s)
        | q' :: rest => uninstallLoop env p (done ++ [q']) rest s
    else uninstallLoop env p (done ++ [q]) rest s

def uninstallBreakpoint (env : Env) (p : BpPtr) (s : Session b) : LoopExit × Session b :=
  uninstallLoop env p [] s.breakpoints s

def enableBreakpoint (env : Env) (p : BpPtr) (s : Session b) : Bool × Session b := s.callApply env p

def disableBreakpoint (env : Env) (p : BpPtr) (s : Session b) : Bool × Session b := s.callReset env p

def breakpointAtAddress (address : VmAddress b) (s : Session b) : Option BpPtr :=
  s.breakpoints.find? fun p => (s.heap p).address = address

end Session

/-! ### Frames -/

section
variable {s : Session b} {p q : BpPtr}

theorem heap_callApply_self : (s.callApply env p).2.heap p = ((s.heap p).apply env s.task).2.1 :=
  Function.update_self ..

theorem heap_callReset_self : (s.callReset env p).2.heap p = ((s.heap p).reset env s.task).2.1 :=
  Function.update_self ..

theorem heap_callReset_of_ne (h : q ≠ p) : (s.callReset env p).2.heap q = s.heap q :=
  Function.update_of_ne h ..

/-- An install with `immActive` is an `Apply` with the pointer registered when it succeeds. -/
theorem installBreakpoint_true : s.installBreakpoint env (some p) true =
    let r := s.callApply env p
    (r.1, { r.2 with breakpoints := if r.1 then s.breakpoints ++ [p] else s.breakpoints }) := by
  cases h : ((s.heap p).apply env s.task).1 <;>
    simp [Session.installBreakpoint, Session.callApply, h]

theorem lastCall_apply (ok : Bool) (log : List Event) :
    lastCall q (.apply p ok :: log) = if p = q then some true else lastCall q log := rfl

theorem lastCall_reset (ok : Bool) (log : List Event) :
    lastCall q (.reset p ok :: log) = if p = q then some false else lastCall q log := rfl

theorem applied_apply (ok : Bool) (log : List Event) :
    applied q (.apply p ok :: log) = if p = q ∧ ok then true else applied q log := by
  cases ok with
  | false =>
    rw [applied, List.filter_cons_of_neg Bool.false_ne_true]
    simp [applied]
  | true =>
    rw [applied, List.filter_cons_of_pos rfl, lastCall_apply]
    by_cases hpq : p = q <;> simp [applied, hpq]

theorem applied_reset (ok : Bool) (log : List Event) :
    applied q (.reset p ok :: log) = if p = q ∧ ok then false else applied q log := by
  cases ok with
  | false =>
    rw [applied, List.filter_cons_of_neg Bool.false_ne_true]
    simp [applied]
  | true =>
    rw [applied, List.filter_cons_of_pos rfl, lastCall_reset]
    by_cases hpq : p = q <;> simp [applied, hpq]

end

/-! ### Calls on each class -/

section
variable {s : Session b} {p : BpPtr}

theorem callApply_software {bp : SoftwareBreakpoint b} (hp : s.heap p = .software bp) : s.callApply env p =
    let w := writeMemory env bp.address bp.kind.opcode true s.task.tick
    (w.1, { s with
      heap := Function.update s.heap p (.software (bp.afterApply (bytesRead env s.task bp.address bp.size)))
      task := w.2
      log := .apply p w.1 :: s.log }) := by
  simp only [Session.callApply, hp, Breakpoint.apply, SoftwareBreakpoint.apply_eq]

theorem callReset_software {bp : SoftwareBreakpoint b} (hp : s.heap p = .software bp) : s.callReset env p =
    let w := writeMemory env bp.address bp.originalOpcode true s.task
    (w.1, { s with
      heap := Function.update s.heap p (.software bp.wasReset)
      task := w.2
      log := .reset p w.1 :: s.log }) := by
  simp only [Session.callReset, hp, Breakpoint.reset, SoftwareBreakpoint.reset_eq]

theorem heap_callReset_software {bp : SoftwareBreakpoint b} (hp : s.heap p = .software bp) :
    (s.callReset env p).2.heap p = .software bp.wasReset := by
  rw [callReset_software hp]
  exact Function.update_self ..

theorem callReset_none {bp : SoftwareBreakpoint b} (hp : s.heap p = .software bp)
    (h : env.firstFailure s.task.calls 3 = none) : s.callReset env p =
      (true, { s with
        heap := Function.update s.heap p (.software bp.wasReset)
        task := { s.task with
          mem := overlay s.task.mem bp.address (sent bp.originalOpcode)
          prot := protect s.task.prot bp.address bp.originalOpcode.length protRX
          calls := s.task.calls + 3 }
        log := .reset p true :: s.log }) := by
  rw [callReset_software hp, writeMemory_none h]

theorem callApply_hardware {bp : X86_64HardwareBreakpoint b} (hp : s.heap p = .x86_64Hardware bp) :
    s.callApply env p =
      let r := bp.apply env s.task
      (r.1, { s with
        heap := Function.update s.heap p (.x86_64Hardware r.2.1), task := r.2.2, log := .apply p r.1 :: s.log }) := by
  simp only [Session.callApply, hp, Breakpoint.apply]

theorem callReset_hardware {bp : X86_64HardwareBreakpoint b} (hp : s.heap p = .x86_64Hardware bp) :
    s.callReset env p =
      let r := bp.reset env s.task
      (r.1, { s with
        heap := Function.update s.heap p (.x86_64Hardware r.2.1), task := r.2.2, log := .reset p r.1 :: s.log }) := by
  simp only [Session.callReset, hp, Breakpoint.reset]

theorem callApply_armv7Hardware {bp : BreakpointBase b} (hp : s.heap p = .armv7Hardware bp) : s.callApply env p =
    (false, { s with
      heap := Function.update s.heap p (.armv7Hardware bp), task := s.task, log := .apply p false :: s.log }) := by
  simp only [Session.callApply, hp, Breakpoint.apply, ARMv7HardwareBreakpoint.apply]

theorem callReset_armv7Hardware {bp : BreakpointBase b} (hp : s.heap p = .armv7Hardware bp) : s.callReset env p =
    (false, { s with
      heap := Function.update s.heap p (.armv7Hardware bp), task := s.task, log := .reset p false :: s.log }) := by
  simp only [Session.callReset, hp, Breakpoint.reset, ARMv7HardwareBreakpoint.reset]

end

/-! ### Software breakpoints under a kernel that never fails -/

section
variable {s : Session b} {p : BpPtr} {bp : SoftwareBreakpoint b}

theorem callApply_ok (hk : env.AllSucceed) (hp : s.heap p = .software bp) : s.callApply env p =
    (true, { s with
      heap := Function.update s.heap p (.software (bp.afterApply (readBytes s.task.mem bp.address bp.size)))
      task := { s.task with
        mem := overlay s.task.mem bp.address bp.kind.opcode
        prot := protect s.task.prot bp.address bp.size protRX
        calls := s.task.calls + 4 }
      log := .apply p true :: s.log }) := by
  rw [callApply_software hp, writeMemory_ok hk, bytesRead_ok hk, SoftwareKind.sent_opcode]; rfl

theorem callReset_ok (hk : env.AllSucceed) (hp : s.heap p = .software bp) : s.callReset env p =
    (true, { s with
      heap := Function.update s.heap p (.software bp.wasReset)
      task := { s.task with
        mem := overlay s.task.mem bp.address (sent bp.originalOpcode)
        prot := protect s.task.prot bp.address bp.originalOpcode.length protRX
        calls := s.task.calls + 3 }
      log := .reset p true :: s.log }) := callReset_none hp (Env.firstFailure_ok hk _ _)

end

end MasterLib
