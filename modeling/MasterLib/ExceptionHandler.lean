import MasterLib.BreakpointHandler
import MasterLib.FirstMatch

/-!
# `ExceptionHandler`

`ExceptionCallback` suspends the faulting thread, wraps it in a thread state, looks the breakpoint up by the
current address of that state and runs and disables it if it is active. The wrapper is made on an ARM build
only, and its registers are never loaded: the address looked up is what the allocation found.
-/

namespace MasterLib
open Overlay

variable {b : Build} {env : Env}

def excBreakpoint : Int := 6

structure Exception where
  thread : MachPort
  task : MachPort
  type : Int
deriving DecidableEq, Repr

structure ExceptionHandler where
  exceptionHistory : List Exception

/-- What `pid_for_task` returns, and whether `GetProcess` finds the process. -/
structure Lookup where
  pidForTask : KernReturn
  processFound : Bool

def Lookup.Succeeds (lookup : Lookup) : Prop := lookup.pidForTask = kernSuccess ∧ lookup.processFound = true

/-- The class `Process::ThreadState` wraps a thread in. The ARM cases are under `#ifdef __arm__`, and the one of
x86_64 is commented out. -/
def Build.wrapperClass : Build → Platform → Option ThreadStateClass
  | .arm, .ARMv7 => some .armv7
  | .arm, .AArch64 => some .aarch64
  | _, _ => none

/-- `Process::ThreadState::ThreadState(proc, thread)`: the `state` it ends up with, never loaded. -/
def Task.wrapThread (env : Env) (thread : MachPort) (t : Task b) : Option ThreadState :=
  (b.wrapperClass (runningPlatform t)).map fun cls => .new cls thread (env.heap t.calls)

def Exception.exceptionThreadState (env : Env) (lookup : Lookup) (exception : Exception) (t : Task b) :
    Option ThreadState :=
  if lookup.pidForTask ≠ kernSuccess then none
  else if lookup.processFound then t.wrapThread env exception.thread
  else none

namespace Session

def liveThreads (s : Session b) : List Thread := s.task.threads ++ s.others

/-- A call for the thread `port`, of whichever task it is. -/
def onThread (port : MachPort) (f : Thread → Thread) (s : Session b) : Session b :=
  let atPort := fun th => if th.port = port then f th else th
  { s with task := { s.task with threads := s.task.threads.map atPort }, others := s.others.map atPort }

/-- What the callback, if there is one, leaves of the state. -/
def outcome (callback : Option Callback) (state : ThreadState) : Option ThreadState :=
  match callback with
  | none => some state
  | some cb => cb.run state

/-- `if (cb) cb(*state)`. -/
def callCallback (p : BpPtr) (state : ThreadState) (s : Session b) : Option ThreadState × Session b :=
  match (s.heap p).callback with
  | none => (some state, s)
  | some cb => (cb.run state, { s with log := .callback p :: s.log })

def saveState (env : Env) (state : ThreadState) (s : Session b) : Session b :=
  let s' := s.onThread state.thread fun th => (state.save env s.task.calls th).2
  { s' with task := { s'.task with calls := s.task.calls + state.transferCalls } }

def suspend (thread : MachPort) (s : Session b) : Session b := s.onThread thread threadSuspend

def resume (thread : MachPort) (s : Session b) : Session b := s.onThread thread threadResume

/-- The breakpoint the callback acts on, if any: `bkpt && bkpt->active()`. -/
def activeAtState (state : ThreadState) (s : Session b) : Option BpPtr :=
  (s.breakpointAtAddress (state.currentAddress b)).filter fun bkpt => (s.heap bkpt).active

/-- Nothing is returned if the callback throws. -/
def exceptionCallback (env : Env) (lookup : Lookup) (handler : ExceptionHandler) (exception : Exception)
    (s : Session b) : Option KernReturn × ExceptionHandler × Session b :=
  let s := s.suspend exception.thread
  let handler := { handler with exceptionHistory := handler.exceptionHistory ++ [exception] }
  if exception.type ≠ excBreakpoint then (some kernFailure, handler, s)
  else
    match exception.exceptionThreadState env lookup s.task with
    | none => (some kernFailure, handler, s.resume exception.thread)
    | some state =>
      match s.activeAtState state with
      | none => (some kernFailure, handler, s.resume exception.thread)
      | some bkpt =>
        match s.callCallback bkpt state with
        | (none, s) => (none, handler, { s with terminated := true })
        | (some state, s) =>
          let s := s.saveState env state
          let (_, s) := s.disableBreakpoint env bkpt
          (some kernSuccess, handler, s.resume exception.thread)

/-- The breakpoint that is run for an exception, and the state it is run on. -/
def caught (env : Env) (lookup : Lookup) (exception : Exception) (s : Session b) : Option (BpPtr × ThreadState) :=
  if exception.type ≠ excBreakpoint then none
  else (exception.exceptionThreadState env lookup s.task).bind fun state =>
    (s.activeAtState state).map fun bkpt => (bkpt, state)

/-- The callback of `p`, if there is one, has been called. -/
def called (p : BpPtr) (s : Session b) : Session b :=
  { s with log := (if (s.heap p).callback.isSome then [.callback p] else []) ++ s.log }

/-- The session after `Save`, of what the callback has left, and `DisableBreakpoint`. -/
def serve (env : Env) (p : BpPtr) (state : ThreadState) (s : Session b) : Session b :=
  ((s.saveState env state).disableBreakpoint env p).2

/-! ### What the callback does -/

variable {s s' : Session b} {p : BpPtr} {pc : VmAddress b} {lookup : Lookup} {handler : ExceptionHandler}
  {exception : Exception} {state left : ThreadState}

theorem callCallback_eq : s.callCallback p state = (outcome (s.heap p).callback state, s.called p) := by
  unfold callCallback outcome called
  cases (s.heap p).callback <;> rfl

theorem outcome_keeps {callback : Option Callback} (h : outcome callback state = some left) :
    left.cls = state.cls ∧ left.thread = state.thread := by
  cases callback with
  | none =>
    obtain rfl := Option.some.inj h
    exact ⟨rfl, rfl⟩
  | some cb => exact cb.keeps h

theorem exceptionCallback_foreign (htype : exception.type ≠ excBreakpoint) :
    s.exceptionCallback env lookup handler exception =
      (some kernFailure, ⟨handler.exceptionHistory ++ [exception]⟩, s.suspend exception.thread) := by
  rw [exceptionCallback, if_pos htype]

/-- Suspending a thread changes nothing that the lookup reads. -/
theorem exceptionCallback_eq (htype : exception.type = excBreakpoint) :
    s.exceptionCallback env lookup handler exception =
      match s.caught env lookup exception with
      | none =>
        (some kernFailure, ⟨handler.exceptionHistory ++ [exception]⟩,
          (s.suspend exception.thread).resume exception.thread)
      | some (p, state) =>
        match outcome (s.heap p).callback state with
        | none =>
          (none, ⟨handler.exceptionHistory ++ [exception]⟩,
            { (s.suspend exception.thread).called p with terminated := true })
        | some left =>
          (some kernSuccess, ⟨handler.exceptionHistory ++ [exception]⟩,
            (((s.suspend exception.thread).called p).serve env p left).resume exception.thread) := by
  have hstate : exception.exceptionThreadState env lookup (s.suspend exception.thread).task =
      exception.exceptionThreadState env lookup s.task := rfl
  rw [exceptionCallback, if_neg (not_not_intro htype), caught, if_neg (not_not_intro htype), hstate]
  cases exception.exceptionThreadState env lookup s.task with
  | none => rfl
  | some state =>
    have hactive : (s.suspend exception.thread).activeAtState state = s.activeAtState state := rfl
    simp only [hactive, Option.bind_some]
    cases s.activeAtState state with
    | none => rfl
    | some p =>
      have hobject : (s.suspend exception.thread).heap p = s.heap p := rfl
      simp only [Option.map_some, callCallback_eq, hobject]
      cases outcome (s.heap p).callback state <;> rfl

theorem caught_type (hc : s.caught env lookup exception = some (p, state)) : exception.type = excBreakpoint := by
  by_contra htype
  rw [caught, if_pos htype] at hc; cases hc

theorem exceptionCallback_uncaught (htype : exception.type = excBreakpoint)
    (hc : s.caught env lookup exception = none) : s.exceptionCallback env lookup handler exception =
      (some kernFailure, ⟨handler.exceptionHistory ++ [exception]⟩,
        (s.suspend exception.thread).resume exception.thread) := by
  rw [exceptionCallback_eq htype, hc]

theorem exceptionCallback_thrown (hc : s.caught env lookup exception = some (p, state))
    (hthrown : outcome (s.heap p).callback state = none) : s.exceptionCallback env lookup handler exception =
      (none, ⟨handler.exceptionHistory ++ [exception]⟩,
        { (s.suspend exception.thread).called p with terminated := true }) := by
  rw [exceptionCallback_eq (caught_type hc), hc]
  simp only [hthrown]

theorem exceptionCallback_served (hc : s.caught env lookup exception = some (p, state))
    (hleft : outcome (s.heap p).callback state = some left) : s.exceptionCallback env lookup handler exception =
      (some kernSuccess, ⟨handler.exceptionHistory ++ [exception]⟩,
        (((s.suspend exception.thread).called p).serve env p left).resume exception.thread) := by
  rw [exceptionCallback_eq (caught_type hc), hc]
  simp only [hleft]

/-- The exception is of another type, or no breakpoint is found for it; or the callback of the one found throws, or it
leaves a state. -/
theorem exceptionCallback_cases (env : Env) (lookup : Lookup) (exception : Exception) (s : Session b) :
    exception.type ≠ excBreakpoint ∨
      exception.type = excBreakpoint ∧ s.caught env lookup exception = none ∨
      ∃ p state, s.caught env lookup exception = some (p, state) ∧
        (outcome (s.heap p).callback state = none ∨ ∃ left, outcome (s.heap p).callback state = some left) := by
  by_cases htype : exception.type = excBreakpoint
  swap
  · exact .inl htype
  cases hc : s.caught env lookup exception with
  | none => exact .inr (.inl ⟨htype, rfl⟩)
  | some hit =>
    refine .inr (.inr ⟨hit.1, hit.2, rfl, ?_⟩)
    cases outcome (s.heap hit.1).callback hit.2 with
    | none => exact .inl rfl
    | some left => exact .inr ⟨left, rfl⟩

theorem exceptionCallback_fst :
    (s.exceptionCallback env lookup handler exception).1 = some kernSuccess ↔
      ∃ p state left, s.caught env lookup exception = some (p, state) ∧
        outcome (s.heap p).callback state = some left := by
  have hfailure : some kernFailure ≠ some kernSuccess := by decide
  rcases exceptionCallback_cases env lookup exception s with
    htype | ⟨htype, hc⟩ | ⟨p, state, hc, hthrown | ⟨left, hleft⟩⟩
  · rw [exceptionCallback_foreign htype, caught, if_pos htype]
    exact iff_of_false hfailure (by rintro ⟨_, _, _, ⟨⟩, -⟩)
  · rw [exceptionCallback_uncaught htype hc, hc]
    exact iff_of_false hfailure (by rintro ⟨_, _, _, ⟨⟩, -⟩)
  · rw [exceptionCallback_thrown hc hthrown, hc]
    refine iff_of_false nofun ?_
    rintro ⟨_, _, left, heq, hleft⟩
    obtain ⟨rfl, rfl⟩ := Prod.mk.inj (Option.some.inj heq)
    rw [hthrown] at hleft; cases hleft
  · rw [exceptionCallback_served hc hleft]
    exact iff_of_true rfl ⟨p, state, left, hc, hleft⟩

def ActiveAt (s : Session b) (a : VmAddress b) : Prop :=
  ∃ p ∈ s.breakpoints, (s.heap p).active = true ∧ (s.heap p).address = a

def DistinctAddresses (s : Session b) : Prop :=
  s.breakpoints.Pairwise fun p q => (s.heap p).address ≠ (s.heap q).address

/-- From `s` to `s'` breakpoint `p` was taken out of the target: the bytes it had saved are back. A hardware breakpoint,
which an ARM build does not implement, is at least not active any more. -/
def Disabled (p : BpPtr) (s s' : Session b) : Prop :=
  match s.heap p with
  | .software bp =>
    s'.heap p = .software bp.wasReset ∧
      s'.task.mem = overlay s.task.mem bp.address (sent bp.originalOpcode) ∧
      s'.task.prot = protect s.task.prot bp.address bp.originalOpcode.length protRX
  | .x86_64Hardware _ | .armv7Hardware _ =>
    (s'.heap p).active = false ∧ s'.task.mem = s.task.mem ∧ s'.task.prot = s.task.prot

/-- From `s` to `s'` the callback of `p` was run once, if it has one, and `p` and nothing else was disabled. -/
structure Handled (p : BpPtr) (s s' : Session b) : Prop where
  log : s'.log = .reset p true :: ((if (s.heap p).callback.isSome then [.callback p] else []) ++ s.log)
  breakpoints : s'.breakpoints = s.breakpoints
  others : ∀ q, q ≠ p → s'.heap q = s.heap q
  disabled : Disabled p s s'

/-- From `s` to `s'` no callback was run and no breakpoint and no memory was changed. -/
structure Ignored (s s' : Session b) : Prop where
  log : s'.log = s.log
  breakpoints : s'.breakpoints = s.breakpoints
  heap : s'.heap = s.heap
  mem : s'.task.mem = s.task.mem
  prot : s'.task.prot = s.task.prot

theorem DistinctAddresses.address_inj (hd : s.DistinctAddresses) {q : BpPtr} (hp : p ∈ s.breakpoints)
    (hq : q ∈ s.breakpoints) (he : (s.heap p).address = (s.heap q).address) : p = q := by
  have hsymm : Std.Symm fun p q : BpPtr => (s.heap p).address ≠ (s.heap q).address := ⟨fun _ _ h => h.symm⟩
  by_contra hne
  exact hd.forall hp hq hne he

theorem breakpointAtAddress_eq_some_iff (hd : s.DistinctAddresses) :
    s.breakpointAtAddress pc = some p ↔ p ∈ s.breakpoints ∧ (s.heap p).address = pc :=
  FirstMatch.first_eq_some_iff fun _ hp _ hq => hd.address_inj hp hq

theorem activeAtState_eq_some_iff (hd : s.DistinctAddresses) {state : ThreadState} :
    s.activeAtState state = some p ↔
      p ∈ s.breakpoints ∧ (s.heap p).active = true ∧ (s.heap p).address = state.currentAddress b := by
  rw [activeAtState, Option.filter_eq_some_iff, breakpointAtAddress_eq_some_iff hd]
  tauto

theorem activeAtState_eq_none_iff (hd : s.DistinctAddresses) {state : ThreadState} :
    s.activeAtState state = none ↔ ¬ s.ActiveAt (state.currentAddress b) := by
  rw [Option.eq_none_iff_forall_ne_some]
  simp only [ne_eq, activeAtState_eq_some_iff hd, ActiveAt, not_exists]

theorem exceptionCallback_otherType (handler : ExceptionHandler) (h : exception.type ≠ excBreakpoint) :
    (s.exceptionCallback env lookup handler exception).1 = some kernFailure ∧
      Ignored s (s.exceptionCallback env lookup handler exception).2.2 := by
  rw [exceptionCallback_foreign h]
  exact ⟨rfl, rfl, rfl, rfl, rfl, rfl⟩

theorem caught_eq_none (hd : s.DistinctAddresses)
    (h : ∀ state, exception.exceptionThreadState env lookup s.task = some state →
      ¬ s.ActiveAt (state.currentAddress b)) : s.caught env lookup exception = none := by
  rw [caught]
  split
  · rfl
  · cases hs : exception.exceptionThreadState env lookup s.task with
    | none => rfl
    | some state => rw [Option.bind_some, (activeAtState_eq_none_iff hd).2 (h state hs), Option.map_none]

theorem caught_eq_some (hd : s.DistinctAddresses) (htype : exception.type = excBreakpoint)
    (hstate : exception.exceptionThreadState env lookup s.task = some state)
    (hp : p ∈ s.breakpoints) (hact : (s.heap p).active = true)
    (haddr : (s.heap p).address = state.currentAddress b) :
    s.caught env lookup exception = some (p, state) := by
  have hactive : s.activeAtState state = some p := (activeAtState_eq_some_iff hd).2 ⟨hp, hact, haddr⟩
  rw [caught, if_neg (not_not_intro htype), hstate, Option.bind_some, hactive, Option.map_some]

theorem exceptionCallback_noneActive (handler : ExceptionHandler) (hd : s.DistinctAddresses)
    (h : ∀ state, exception.exceptionThreadState env lookup s.task = some state →
      ¬ s.ActiveAt (state.currentAddress b)) :
    (s.exceptionCallback env lookup handler exception).1 = some kernFailure ∧
      Ignored s (s.exceptionCallback env lookup handler exception).2.2 := by
  by_cases htype : exception.type = excBreakpoint
  · rw [exceptionCallback_uncaught htype (caught_eq_none hd h)]
    exact ⟨rfl, rfl, rfl, rfl, rfl, rfl⟩
  · exact exceptionCallback_otherType handler htype

/-- `DisableBreakpoint` finds breakpoints and memory as the exception has found them. -/
theorem exists_callReset (env : Env) (thread : MachPort) (p : BpPtr) (left : ThreadState) (s : Session b) :
    ∃ s₁ : Session b, (((s.suspend thread).called p).serve env p left).resume thread =
        (s₁.callReset env p).2.resume thread ∧
      s₁.heap = s.heap ∧ s₁.breakpoints = s.breakpoints ∧
      s₁.log = (if (s.heap p).callback.isSome then [.callback p] else []) ++ s.log ∧
      s₁.task.mem = s.task.mem ∧ s₁.task.prot = s.task.prot ∧
      s₁.task.calls = s.task.calls + left.transferCalls :=
  ⟨((s.suspend thread).called p).saveState env left, rfl, rfl, rfl, rfl, rfl, rfl, rfl⟩

/-- `DisableBreakpoint` does its work: it is called for a class that implements it, and of the three calls it makes once
the callback has left `left` and `Save` has made its own, none fails. -/
def Resets (env : Env) (p : BpPtr) (left : ThreadState) (s : Session b) : Prop :=
  (∃ bp, s.heap p = .software bp) ∧ env.firstFailure (s.task.calls + left.transferCalls) 3 = none

theorem handled_iff (harm : b.isX86 = false) (hnative : (s.heap p).Native) (thread : MachPort) :
    Handled p s ((((s.suspend thread).called p).serve env p left).resume thread) ↔ Resets env p left s := by
  rcases exists_callReset env thread p left s with ⟨s₁, heq, hheap, hbps, hlog, hmem, hprot, hcalls⟩
  rw [heq, Resets]
  cases hp : s.heap p with
  | software bp =>
    have hp₁ : s₁.heap p = .software bp := by rw [hheap, hp]
    rw [and_iff_right ⟨bp, rfl⟩, ← hcalls]
    constructor
    · intro h
      have hreset := h.log
      rw [callReset_software hp₁] at hreset
      exact (fst_writeMemory bp.address bp.originalOpcode s₁.task).1 (Event.reset.inj (List.cons.inj hreset).1).2
    · intro hnone
      rw [callReset_none hp₁ hnone]
      refine ⟨?_, hbps, fun q hq => ?_, ?_⟩
      · show _ :: s₁.log = _
        rw [hlog, hp]
      · exact (Function.update_of_ne hq ..).trans (congrFun hheap q)
      · rw [Disabled, hp]
        refine ⟨Function.update_self .., ?_, ?_⟩
        · show overlay s₁.task.mem _ _ = _
          rw [hmem]
        · show protect s₁.task.prot _ _ _ = _
          rw [hprot]
  | x86_64Hardware bp =>
    rw [hp] at hnative
    rw [show b.isX86 = true from hnative] at harm; cases harm
  | armv7Hardware bp =>
    have hp₁ : s₁.heap p = .armv7Hardware bp := by rw [hheap, hp]
    refine iff_of_false (fun h => ?_) (by rintro ⟨⟨_, ⟨⟩⟩, -⟩)
    have hreset := h.log
    rw [callReset_armv7Hardware hp₁] at hreset
    cases (Event.reset.inj (List.cons.inj hreset).1).2

/-- What is logged tells which breakpoint was reset. -/
theorem Handled.eq {q : BpPtr} {thread : MachPort}
    (h : Handled q s ((((s.suspend thread).called p).serve env p left).resume thread)) : p = q := by
  rcases exists_callReset env thread p left s with ⟨s₁, heq, -⟩
  have hlog := h.log
  rw [heq] at hlog
  exact (Event.reset.inj (List.cons.inj hlog).1).1

/-! ### The real program counter -/

end Session

/-- The class of the threads of a platform that has a software breakpoint class. -/
def Platform.threadClass : Platform → Option ThreadStateClass
  | .x86_64 => some .x64
  | .ARMv7 => some .armv7
  | _ => none

/-- What `CurrentAddress` reads from the registers of `th`. -/
def Thread.currentAddress (b : Build) (cls : ThreadStateClass) (th : Thread) : VmAddress b :=
  ThreadState.currentAddress b { cls := cls, thread := th.port, banks := th.regs, registers := [] }

theorem wrapperClass_of_threadClass {t : Task b} {cls : ThreadStateClass}
    (h : (runningPlatform t).threadClass = some cls) :
    b.wrapperClass (runningPlatform t) = if b = .arm then some .armv7 else none := by
  unfold runningPlatform at *
  generalize t.kinfo = kinfo at *
  cases kinfo with
  | none => cases h
  | some lp64 => cases b <;> cases lp64 <;> first | rfl | cases h

namespace Session
variable {s : Session b} {lookup : Lookup} {exception : Exception} {pc : VmAddress b}

/-- The real program counter of the faulting thread, on a platform that has a software breakpoint class. -/
def programCounter (exception : Exception) (s : Session b) : Option (VmAddress b) :=
  match (runningPlatform s.task).threadClass, s.liveThreads.find? (·.port = exception.thread) with
  | some cls, some th => some (th.currentAddress b cls)
  | _, _ => none

/-- A hit of an active breakpoint at `pc` is handled, everything else is ignored. -/
def HandlesHits (env : Env) (lookup : Lookup) (handler : ExceptionHandler) (exception : Exception)
    (pc : VmAddress b) (s : Session b) : Prop :=
  let r := s.exceptionCallback env lookup handler exception
  (∀ p, exception.type = excBreakpoint → p ∈ s.breakpoints → (s.heap p).active = true →
      (s.heap p).address = pc → r.1 = some kernSuccess ∧ Handled p s r.2.2) ∧
    (¬ (exception.type = excBreakpoint ∧ s.ActiveAt pc) → r.1 = some kernFailure ∧ Ignored s r.2.2)

/-- The thread state that an ARM build allocates for the exception. -/
def foundState (env : Env) (exception : Exception) (s : Session b) : ThreadState :=
  .new .armv7 exception.thread (env.heap s.task.calls)

/-- The address that it has in its program counter. -/
def foundAddress (env : Env) (exception : Exception) (s : Session b) : VmAddress b :=
  (s.foundState env exception).currentAddress b

/-- The callback of `p` returns from what the allocation has found, and `p` is then reset. -/
def RunsAndResets (env : Env) (p : BpPtr) (exception : Exception) (s : Session b) : Prop :=
  ∃ left, outcome (s.heap p).callback (s.foundState env exception) = some left ∧ Resets env p left s

/-- A general bank with `R0` and `PC` as given and nothing else in it; the other banks are zero. -/
def regsAt (r0 pc : BitVec 32) : Banks := fun f i =>
  if f = .armThreadState then (if i = 0 then r0 else if i = 15 then pc else 0) else 0

/-- A thread with registers `regs`, and an active breakpoint at `0x1000` with a callback that only reads. -/
def trapped (regs : Banks) : Session .arm where
  heap _ := .software ⟨⟨true, 0x1000, some .reading⟩, .armv7, [0x1E, 0xFF, 0x2F, 0xE1]⟩
  breakpoints := [0]
  task := { mem := fun _ => 0, prot := fun _ => protRX, threads := [⟨1, 0, regs⟩], kinfo := some false, calls := 0 }
  log := []

/-- Every allocation finds an object that was at `0x1000`. -/
def staleObjects : Env := { Env.failAt [] with heap := fun _ => regsAt 0 0x1000 }

theorem distinctAddresses_trapped (regs : Banks) : (trapped regs).DistinctAddresses := List.pairwise_singleton _ _

def stoppedThread : Session .x86_64 :=
  ((start (fun _ => .software (.new .x86_64 false 0x1000)) (fun _ => 0x90)
    [⟨1, 0, fun _ => Bank.setWord64 (fun _ => 0) 16 0x1000⟩]).installBreakpoint (.failAt []) (some 0) true).2

end Session

end MasterLib
