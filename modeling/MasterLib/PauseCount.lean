import MasterLib.Mach
import MasterLib.Runs

/-!
# `Process::Pause` and `Process::Resume`

`paused_` is a copy of whether the kernel's suspend count of the task is positive, written before the kernel
call is made and whatever it returns. So the copy is right after a `Pause` if the task is suspended by then, and
after a `Resume` if that took the count to 0 or found it there.
-/

namespace MasterLib
open Runs

/-- `paused_`, and of the task the suspend count; `calls` counts the kernel calls made. -/
structure Process where
  paused : Bool
  suspendCount : Nat
  calls : Nat

inductive PauseOp
  | pause | resume
deriving DecidableEq, Repr

namespace Process

def new : Process := ⟨false, 0, 0⟩

def taskSuspend (env : Env) (p : Process) : KernReturn × Process :=
  let status := env.kr p.calls
  if status = kernSuccess then (status, { p with suspendCount := p.suspendCount + 1, calls := p.calls + 1 })
  else (status, { p with calls := p.calls + 1 })

/-- Fails on a task that is not suspended. -/
def taskResume (env : Env) (p : Process) : KernReturn × Process :=
  let status := if p.suspendCount = 0 then kernFailure else env.kr p.calls
  if status = kernSuccess then (status, { p with suspendCount := p.suspendCount - 1, calls := p.calls + 1 })
  else (status, { p with calls := p.calls + 1 })

def pause (env : Env) (p : Process) : Bool × Process :=
  let p := { p with paused := true }
  let (status, p) := p.taskSuspend env
  (decide (status = kernSuccess), p)

def resume (env : Env) (p : Process) : Bool × Process :=
  let p := { p with paused := false }
  let (status, p) := p.taskResume env
  (decide (status = kernSuccess), p)

def runPauseOp (env : Env) (p : Process) : PauseOp → Process
  | .pause => (p.pause env).2
  | .resume => (p.resume env).2

def InStep (p : Process) : Prop := p.paused = true ↔ 0 < p.suspendCount

/-- A `Pause` suspends the task or finds it suspended; a `Resume` undoes the last suspend or finds it undone. -/
def StaysInStep (env : Env) (p : Process) : PauseOp → Prop
  | .pause => env.kr p.calls = kernSuccess ∨ 0 < p.suspendCount
  | .resume => p.suspendCount = 0 ∨ p.suspendCount = 1 ∧ env.kr p.calls = kernSuccess

variable {env : Env} {p : Process}

theorem paused_pause : (p.pause env).2.paused = true := by
  unfold pause taskSuspend
  dsimp only
  split <;> rfl

theorem paused_resume : (p.resume env).2.paused = false := by
  unfold resume taskResume
  dsimp only
  split
  · rfl
  · split <;> rfl

theorem suspendCount_pause : (p.pause env).2.suspendCount =
    if env.kr p.calls = kernSuccess then p.suspendCount + 1 else p.suspendCount := by
  unfold pause taskSuspend
  dsimp only
  split <;> rfl

theorem suspendCount_resume : (p.resume env).2.suspendCount =
    if env.kr p.calls = kernSuccess then p.suspendCount - 1 else p.suspendCount := by
  unfold resume taskResume
  dsimp only
  by_cases h : p.suspendCount = 0
  · rw [if_pos h, if_neg (by decide), h]; simp
  · rw [if_neg h]
    split <;> rfl

theorem inStep_runPauseOp (env : Env) (p : Process) (op : PauseOp) :
    (p.runPauseOp env op).InStep ↔ p.StaysInStep env op := by
  unfold InStep StaysInStep
  cases op with
  | pause =>
    show ((p.pause env).2.paused = true ↔ 0 < (p.pause env).2.suspendCount) ↔ _
    rw [paused_pause, suspendCount_pause]
    by_cases h : env.kr p.calls = kernSuccess <;> simp [h]
  | resume =>
    show ((p.resume env).2.paused = true ↔ 0 < (p.resume env).2.suspendCount) ↔ _
    rw [paused_resume, suspendCount_resume]
    by_cases h : env.kr p.calls = kernSuccess
    · simp only [h, ↓reduceIte, Bool.false_eq_true, false_iff, and_true]
      omega
    · simp only [h, ↓reduceIte, Bool.false_eq_true, false_iff, and_false, or_false]
      omega

/-- In a run of `Pause` and `Resume` the flag is right after every call exactly when each `Pause` leaves the task
suspended and each `Resume` leaves it not suspended. -/
theorem inStep_iff_staysInStep (env : Env) (p : Process) (ops : List PauseOp) :
    AtEach (runPauseOp env) (fun p op => (p.runPauseOp env op).InStep) p ops ↔
      AtEach (runPauseOp env) (StaysInStep env) p ops :=
  atEach_congr_of_iff (inStep_runPauseOp env)

/-- The first of two `Resume`s clears the flag while the task is still suspended once. -/
theorem not_inStep_nested :
    ¬ AtEach (runPauseOp (.failAt [])) (fun p op => (p.runPauseOp (.failAt []) op).InStep) new
      [.pause, .pause, .resume] := by
  intro h
  have hstep := (h [.pause, .pause] .resume [] rfl).2 (by decide)
  revert hstep; decide

end Process

end MasterLib
