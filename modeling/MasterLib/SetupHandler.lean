import MasterLib.Mach
import MasterLib.Runs

/-!
# `ExceptionHandler::SetupHandler`

Five calls acquire something one after the other: a receive right, a send right, a send right to the handler
registered so far, a server thread, a registration. Each has an exit of its own for when it fails, and no exit
gives back what the calls before it acquired. `server_thread` does not return, so a thread once made keeps running.
-/

namespace MasterLib
open Runs

inductive PortRight
  | receive | send
deriving DecidableEq, Repr

/-- What is registered for one exception. -/
structure ExceptionPort where
  port : MachPort
  behavior : BitVec 32
  flavor : BitVec 32
deriving DecidableEq

/-- What a call of `SetupHandler` can change of its own task: the port rights with their references, the running
server threads, and the registration of each exception. -/
structure Held where
  rights : Multiset (MachPort × PortRight)
  serverThreads : Finset Nat
  exceptionPorts : Nat → ExceptionPort

/-- A new port or thread gets a name that is not in use. -/
structure Names where
  fresh : Finset Nat → Nat
  fresh_notMem (used : Finset Nat) : fresh used ∉ used

def Names.next : Names where
  fresh used := used.sup id + 1
  fresh_notMem used h := by
    have hle : used.sup id + 1 ≤ used.sup id := Finset.le_sup (f := id) h
    omega

def machPortNull : MachPort := 0

def excBadAccess : Nat := 1

def excMaskBreakpoint : BitVec 32 := 1 <<< 6

def exceptionDefault : BitVec 32 := 1
def machExceptionCodes : BitVec 32 := 0x80000000

namespace Held

def ports (held : Held) : Finset MachPort := (held.rights.map Prod.fst).toFinset

def addRight (held : Held) (name : MachPort) (right : PortRight) : Held :=
  { held with rights := (name, right) ::ₘ held.rights }

/-! ### The calls, each at its number in the attempt -/

def machPortAllocate (names : Names) (env : Env) (n : Nat) (held : Held) : KernReturn × MachPort × Held :=
  let status := env.kr n
  if status = kernSuccess then
    let name := names.fresh held.ports
    (status, name, held.addRight name .receive)
  else (status, machPortNull, held)

/-- `MACH_MSG_TYPE_MAKE_SEND`. -/
def machPortInsertRight (env : Env) (n : Nat) (name : MachPort) (held : Held) : KernReturn × Held :=
  let status := env.kr n
  if status = kernSuccess then (status, held.addRight name .send) else (status, held)

/-- There is room for one entry, so `EXC_MASK_ALL` is answered with its first exception. The caller gets a send
right to the handler. -/
def taskGetExceptionPorts (env : Env) (n : Nat) (held : Held) : KernReturn × BitVec 32 × Held :=
  let status := env.kr n
  if status = kernSuccess then
    let found := held.exceptionPorts excBadAccess
    (status, found.flavor, if found.port = machPortNull then held else held.addRight found.port .send)
  else (status, 0, held)

def pthreadCreate (names : Names) (env : Env) (n : Nat) (held : Held) : Int × Held :=
  let err := env.kr n
  if err = 0 then (err, { held with serverThreads := insert (names.fresh held.serverThreads) held.serverThreads })
  else (err, held)

def taskSetExceptionPorts (env : Env) (n : Nat) (mask : BitVec 32) (new : ExceptionPort) (held : Held) :
    KernReturn × Held :=
  let status := env.kr n
  if status = kernSuccess then
    (status, { held with exceptionPorts := fun exc => if mask.getLsbD exc then new else held.exceptionPorts exc })
  else (status, held)

/-- `pthread_detach` is left out: it changes nothing here. -/
def setupHandler (names : Names) (env : Env) (held : Held) : Bool × Held :=
  let (kr, excPort, held) := held.machPortAllocate names env 0
  if kr ≠ kernSuccess then (false, held)
  else
    let (kr, held) := held.machPortInsertRight env 1 excPort
    if kr ≠ kernSuccess then (false, held)
    else
      let (kr, flavor, held) := held.taskGetExceptionPorts env 2
      if kr ≠ kernSuccess then (false, held)
      else
        let (err, held) := held.pthreadCreate names env 3
        if err ≠ 0 then (false, held)
        else
          let (kr, held) := held.taskSetExceptionPorts env 4 excMaskBreakpoint
            ⟨excPort, exceptionDefault ||| machExceptionCodes, flavor⟩
          if kr ≠ kernSuccess then (false, held) else (true, held)

/-- An attempt that fails leaves what the task holds as it was. -/
def AllOrNothing (names : Names) (held : Held) (env : Env) : Prop :=
  (held.setupHandler names env).1 = false →
    (held.setupHandler names env).2.ports = held.ports ∧
    (held.setupHandler names env).2.serverThreads = held.serverThreads ∧
    (held.setupHandler names env).2.exceptionPorts = held.exceptionPorts

variable {names : Names} {env : Env} {held : Held} {n : Nat} {name : MachPort}

theorem ports_addRight {right : PortRight} : (held.addRight name right).ports = insert name held.ports := by
  simp [ports, addRight]

theorem ports_subset_machPortInsertRight (env : Env) (n : Nat) (name : MachPort) (held : Held) :
    held.ports ⊆ (held.machPortInsertRight env n name).2.ports := by
  unfold machPortInsertRight
  dsimp only
  split
  · rw [ports_addRight]
    exact Finset.subset_insert ..
  · rfl

theorem ports_subset_taskGetExceptionPorts (env : Env) (n : Nat) (held : Held) :
    held.ports ⊆ (held.taskGetExceptionPorts env n).2.2.ports := by
  unfold taskGetExceptionPorts
  dsimp only
  split
  · dsimp only
    split
    · rfl
    · rw [ports_addRight]
      exact Finset.subset_insert ..
  · rfl

theorem ports_pthreadCreate (names : Names) (env : Env) (n : Nat) (held : Held) :
    (held.pthreadCreate names env n).2.ports = held.ports := by
  unfold pthreadCreate
  dsimp only
  split <;> rfl

theorem ports_taskSetExceptionPorts {mask : BitVec 32} {new : ExceptionPort} :
    (held.taskSetExceptionPorts env n mask new).2.ports = held.ports := by
  unfold taskSetExceptionPorts
  dsimp only
  split <;> rfl

/-- The port is never given back. -/
theorem fresh_mem_ports_setupHandler (names : Names) (held : Held) (h : env.kr 0 = kernSuccess) :
    names.fresh held.ports ∈ (held.setupHandler names env).2.ports := by
  have hport : names.fresh held.ports ∈ (held.machPortAllocate names env 0).2.2.ports := by
    rw [machPortAllocate, if_pos h, ports_addRight]
    exact Finset.mem_insert_self ..
  have hinsert := ports_subset_machPortInsertRight env 1 (held.machPortAllocate names env 0).2.1 _ hport
  have hget := ports_subset_taskGetExceptionPorts env 2 _ hinsert
  have hcreate := hget
  rw [← ports_pthreadCreate names env 3] at hcreate
  unfold setupHandler
  dsimp only
  split
  · exact hport
  · split
    · exact hinsert
    · split
      · exact hget
      · split
        · exact hcreate
        · split <;> exact ports_taskSetExceptionPorts.symm ▸ hcreate

theorem setupHandler_of_allocate_fails (h : env.kr 0 ≠ kernSuccess) :
    held.setupHandler names env = (false, held) := by
  have hfail : held.machPortAllocate names env 0 = (env.kr 0, machPortNull, held) := if_neg h
  rw [setupHandler, hfail]
  exact if_pos h

/-! ### What an attempt returns -/

@[simp] theorem machPortAllocate_fst : (held.machPortAllocate names env n).1 = env.kr n := by
  unfold machPortAllocate
  dsimp only
  split <;> rfl

@[simp] theorem machPortInsertRight_fst : (held.machPortInsertRight env n name).1 = env.kr n := by
  unfold machPortInsertRight
  dsimp only
  split <;> rfl

@[simp] theorem taskGetExceptionPorts_fst : (held.taskGetExceptionPorts env n).1 = env.kr n := by
  unfold taskGetExceptionPorts
  dsimp only
  split <;> rfl

@[simp] theorem pthreadCreate_fst : (held.pthreadCreate names env n).1 = env.kr n := by
  unfold pthreadCreate
  dsimp only
  split <;> rfl

@[simp] theorem taskSetExceptionPorts_fst {mask : BitVec 32} {new : ExceptionPort} :
    (held.taskSetExceptionPorts env n mask new).1 = env.kr n := by
  unfold taskSetExceptionPorts
  dsimp only
  split <;> rfl

theorem setupHandler_fst (names : Names) (env : Env) (held : Held) :
    (held.setupHandler names env).1 = true ↔ env.firstFailure 0 5 = none := by
  unfold setupHandler
  dsimp only [Env.firstFailure]
  simp only [machPortAllocate_fst, machPortInsertRight_fst, taskGetExceptionPorts_fst, pthreadCreate_fst,
    taskSetExceptionPorts_fst]
  have hzero : kernSuccess = 0 := rfl
  rw [hzero]
  by_cases h₀ : env.kr 0 = 0
  · by_cases h₁ : env.kr 1 = 0
    · by_cases h₂ : env.kr 2 = 0
      · by_cases h₃ : env.kr 3 = 0
        · by_cases h₄ : env.kr 4 = 0 <;> simp [h₀, h₁, h₂, h₃, h₄]
        · simp [h₀, h₁, h₂, h₃]
      · simp [h₀, h₁, h₂]
    · simp [h₀, h₁]
  · simp [h₀]

/-- Once the port is allocated an attempt has to come to the end. -/
theorem allOrNothing_iff : AllOrNothing names held env ↔
    env.firstFailure 0 5 = none ∨ env.firstFailure 0 5 = some 0 := by
  by_cases h₀ : env.kr 0 = kernSuccess
  · have hsome : env.firstFailure 0 5 ≠ some 0 := by
      rw [Env.firstFailure, if_neg (not_not_intro h₀)]
      simp
    rw [or_iff_left hsome, ← setupHandler_fst names env held]
    constructor
    · intro h
      by_contra hfalse
      have hports := (h (Bool.eq_false_iff.2 hfalse)).1
      have hmem := fresh_mem_ports_setupHandler names held h₀
      rw [hports] at hmem
      exact names.fresh_notMem held.ports hmem
    · intro htrue hfalse
      exact absurd (htrue.symm.trans hfalse) (by decide)
  · have hsome : env.firstFailure 0 5 = some 0 := if_pos h₀
    refine iff_of_true ?_ (.inr hsome)
    intro _
    rw [setupHandler_of_allocate_fails h₀]
    exact ⟨rfl, rfl, rfl⟩

/-- However often it is retried. -/
theorem allOrNothing_iff_firstFailure (names : Names) (held : Held) (attempts : List Env) :
    AtEach (fun held env => (setupHandler names env held).2) (AllOrNothing names) held attempts ↔
      ∀ env ∈ attempts, env.firstFailure 0 5 = none ∨ env.firstFailure 0 5 = some 0 := by
  rw [← atEach_const (fun held env => (setupHandler names env held).2) held]
  exact atEach_congr_of_iff fun _ _ => allOrNothing_iff

/-- The registration fails: the port and the server thread stay. -/
theorem not_allOrNothing_retry :
    ¬AtEach (fun held env => (setupHandler .next env held).2) (AllOrNothing .next) ⟨0, ∅, fun _ => ⟨0, 0, 0⟩⟩
      [.failAt [4], .failAt [4]] := by
  intro h
  have hthreads := (h [.failAt [4]] (.failAt [4]) [] rfl (by decide)).2.1
  revert hthreads; decide

end Held

end MasterLib
