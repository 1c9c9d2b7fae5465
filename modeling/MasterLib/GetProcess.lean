import MasterLib.ProcessLookup

/-!
# `Process::GetProcess`

The existence check, the name lookup and `task_for_pid` each look at the processes of their own time, and only the
first can make `GetProcess` give up: a name that is no longer found and a port that was not obtained go into the
`Process` as they are.
-/

namespace MasterLib
open FirstMatch

/-- The arguments of `std::make_shared<Process>(pid, name, task)`. -/
structure ProcessArgs where
  pid : Int
  name : Option String
  task : MachPort
deriving DecidableEq

/-- The two overloads by their argument. -/
inductive ProcessQuery
  | pid (pid : Int)
  | name (name : Option String)

namespace ProcEnv

def getProcessByName (env : ProcEnv) (n : Nat) : Option String → Option ProcessArgs
  | none => none
  | some name =>
    let pid := env.pidForName n name
    if pid ≤ 0 then none
    else
      let (_, task) := env.taskForPid pid
      some ⟨pid, some name, task⟩

def getProcessByPid (env : ProcEnv) (n : Nat) (pid : Int) : Option ProcessArgs :=
  if !env.processExists n pid then none
  else
    let name := env.nameForPid (n + 2) pid
    let (_, task) := env.taskForPid pid
    some ⟨pid, name, task⟩

def getProcess (env : ProcEnv) (n : Nat) : ProcessQuery → Option ProcessArgs
  | .pid pid => env.getProcessByPid n pid
  | .name name => env.getProcessByName n name

/-- A `Process` of the pid asked for, with a name and with the port `task_for_pid` returned for its pid. -/
structure Obtained (env : ProcEnv) (query : ProcessQuery) (proc : ProcessArgs) : Prop where
  asked : ∀ pid, query = .pid pid → proc.pid = pid
  named : proc.name ≠ none
  status : (env.taskForPid proc.pid).1 = kernSuccess
  task : proc.task = (env.taskForPid proc.pid).2

/-- A pid that is scanned by the check is scanned by the name lookup too and its port is obtained; of a name it is
the first scanned pid with that name whose port is. -/
def Obtainable (env : ProcEnv) (n : Nat) : ProcessQuery → Prop
  | .pid pid => pid ∈ env.scannedPids n → pid ∈ env.scannedPids (n + 2) ∧ (env.taskForPid pid).1 = kernSuccess
  | .name none => True
  | .name (some name) => ∀ pid, env.firstNamed name ((env.scannedPids n).zipIdx (n + 2)) = some pid →
      pid ≤ 0 ∨ (env.taskForPid pid).1 = kernSuccess

variable {env : ProcEnv} {n : Nat} {pid : Int} {name : String} {proc : ProcessArgs}

theorem getProcessByPid_eq_some_iff : env.getProcessByPid n pid = some proc ↔
    pid ∈ env.scannedPids n ∧ proc = ⟨pid, env.nameForPid (n + 2) pid, (env.taskForPid pid).2⟩ := by
  rw [← processExists_iff, getProcessByPid]
  cases env.processExists n pid <;> simp [eq_comm]

theorem getProcessByName_eq_some_iff : env.getProcessByName n (some name) = some proc ↔
    0 < env.pidForName n name ∧
      proc = ⟨env.pidForName n name, some name, (env.taskForPid (env.pidForName n name)).2⟩ := by
  rw [getProcessByName]
  by_cases h : env.pidForName n name ≤ 0
  · simp [h]
  · have hpos : 0 < env.pidForName n name := not_le.1 h
    simp [h, hpos, eq_comm]

theorem obtainable_name_iff : env.Obtainable n (.name (some name)) ↔
    (0 < env.pidForName n name → (env.taskForPid (env.pidForName n name)).1 = kernSuccess) := by
  rw [Obtainable, pidForName_eq]
  cases env.firstNamed name ((env.scannedPids n).zipIdx (n + 2)) with
  | none => simp
  | some pid =>
    simp only [Option.some.injEq, Option.getD_some, forall_eq']
    rw [or_iff_not_imp_left, not_le]

theorem obtained_iff_obtainable (env : ProcEnv) (n : Nat) (query : ProcessQuery) :
    (∀ proc, env.getProcess n query = some proc → Obtained env query proc) ↔ env.Obtainable n query := by
  match query with
  | .pid pid =>
    constructor
    · intro h hscan
      have hproc := h _ (getProcessByPid_eq_some_iff.2 ⟨hscan, rfl⟩)
      exact ⟨isSome_nameForPid.1 (Option.isSome_iff_ne_none.2 hproc.named), hproc.status⟩
    · intro h proc hproc
      obtain ⟨hscan, rfl⟩ := getProcessByPid_eq_some_iff.1 hproc
      obtain ⟨hname, hstatus⟩ := h hscan
      refine ⟨fun _ hpid => ProcessQuery.pid.inj hpid, ?_, hstatus, rfl⟩
      exact Option.isSome_iff_ne_none.1 (isSome_nameForPid.2 hname)
  | .name none => exact iff_of_true (fun _ hproc => absurd hproc (by simp [getProcess, getProcessByName])) trivial
  | .name (some name) =>
    rw [obtainable_name_iff]
    constructor
    · intro h hpos
      exact (h _ (getProcessByName_eq_some_iff.2 ⟨hpos, rfl⟩)).status
    · intro h proc hproc
      obtain ⟨hpos, rfl⟩ := getProcessByName_eq_some_iff.1 hproc
      have hasked : ∀ pid, ProcessQuery.name (some name) = .pid pid → env.pidForName n name = pid :=
        fun _ hpid => ProcessQuery.noConfusion hpid
      exact ⟨hasked, Option.some_ne_none _, h hpos, rfl⟩

/-- Without the entitlement: `task` is whatever was on the stack. -/
theorem not_obtained_unentitled :
    ¬∀ proc, getProcess { oneProcess 0 "" with taskForPid := fun _ => (kernFailure, 7) } 0 (.pid 1) = some proc →
      Obtained { oneProcess 0 "" with taskForPid := fun _ => (kernFailure, 7) } (.pid 1) proc := by
  intro h
  have hstatus := (h ⟨1, some "launchd", 7⟩ (by decide)).status
  revert hstatus; decide

end ProcEnv

end MasterLib
