import MasterLib.Mach
import MasterLib.FirstMatch

/-!
# `ProcessExists`, `NameForPID` and `PIDForName`

`proc_listpids` answers in bytes. The lookups take its answer for a number of pids, so what they scan is the table
and after it whatever the rest of the buffer held (`scannedPids_of_still`). A word from there counts as a process
all the same, and `proc_name` leaves a buffer alone for a pid it does not know.
-/

namespace MasterLib
open FirstMatch

def pidSize : Nat := 4

/-- The processes at one time, with the names `proc_name` gives, and the bound `proc_listpids` returns for no
buffer. -/
structure ProcTable where
  processes : List (Int × String)
  nodup : (processes.map Prod.fst).Nodup
  nonneg : ∀ p ∈ processes, 0 ≤ p.1
  bytesNeeded : Nat
  enough : pidSize * processes.length ≤ bytesNeeded

namespace ProcTable

def pids (t : ProcTable) : List Int := t.processes.map Prod.fst

def nameOf (t : ProcTable) (pid : Int) : Option String := (first Prod.fst t.processes pid).map Prod.snd

/-- `proc_listpids` into a buffer writes as many entries as fit, and nothing else. -/
def listPids (t : ProcTable) (buffer : List Int) : List Int :=
  t.pids.take buffer.length ++ buffer.drop t.pids.length

variable {t : ProcTable} {pid : Int} {name : String}

theorem nameOf_eq_some_iff : t.nameOf pid = some name ↔ (pid, name) ∈ t.processes := by
  have hinj : ∀ p ∈ t.processes, ∀ q ∈ t.processes, p.1 = q.1 → p = q := by
    intro p hp q hq h
    exact List.inj_on_of_nodup_map t.nodup hp hq h
  constructor
  · intro h
    obtain ⟨p, hp, rfl⟩ := Option.map_eq_some_iff.1 h
    obtain ⟨hmem, rfl⟩ := (first_eq_some_iff hinj).1 hp
    exact hmem
  · intro h
    rw [nameOf, (first_eq_some_iff hinj).2 ⟨h, rfl⟩, Option.map_some]

theorem nameOf_eq_none_iff : t.nameOf pid = none ↔ pid ∉ t.pids := by
  rw [nameOf, Option.map_eq_none_iff, first, List.find?_eq_none, pids, List.mem_map]
  simp only [decide_eq_true_eq, not_exists, not_and]

end ProcTable

/-- `table n` is the process table at libproc call `n`; `heap n` are the words of a buffer allocated then, and
`nameBuffer n` the string in a `new char[64]` of then. `taskForPid` is what `task_for_pid` returns, and what `task`
holds after it. -/
structure ProcEnv where
  table : Nat → ProcTable
  heap : Nat → Nat → Int
  nameBuffer : Nat → String
  taskForPid : Int → KernReturn × MachPort

namespace ProcEnv

/-- `char *name = new char[64]; proc_name(pid, name, 64);` -/
def procName (env : ProcEnv) (n : Nat) (pid : Int) : String :=
  ((env.table n).nameOf pid).getD (env.nameBuffer n)

/-- The words the loops go over: `numberOfProcesses` of them, as many as the buffer has. -/
def scannedPids (env : ProcEnv) (n : Nat) : List Int :=
  let numberOfProcesses := (env.table n).bytesNeeded
  let pids := (List.range numberOfProcesses).map (env.heap n)
  (env.table (n + 1)).listPids pids

def nameForPid (env : ProcEnv) (n : Nat) (pid : Int) : Option String :=
  ((env.scannedPids n).find? (· = pid)).map (env.procName (n + 2))

def pidForNameLoop (env : ProcEnv) (name : String) : List Int → Nat → Int
  | [], _ => -1
  | pid :: pids, n => if env.procName n pid = name then pid else env.pidForNameLoop name pids (n + 1)

def pidForName (env : ProcEnv) (n : Nat) (name : String) : Int :=
  env.pidForNameLoop name (env.scannedPids n) (n + 2)

def processExists (env : ProcEnv) (n : Nat) (pid : Int) : Bool := (env.scannedPids n).any (· = pid)

variable {env : ProcEnv} {n : Nat} {pid : Int} {name : String} {t : ProcTable}

theorem processExists_iff : env.processExists n pid = true ↔ pid ∈ env.scannedPids n := by
  simp [processExists]

theorem isSome_nameForPid : (env.nameForPid n pid).isSome ↔ pid ∈ env.scannedPids n := by
  simp [nameForPid]

/-- What the buffer of a scanned word reads, given with it the number of the call that fills it. -/
def nameAt (env : ProcEnv) (w : Int × Nat) : String := env.procName w.2 w.1

def firstNamed (env : ProcEnv) (name : String) (words : List (Int × Nat)) : Option Int :=
  (first env.nameAt words name).map Prod.fst

theorem pidForNameLoop_eq (pids : List Int) :
    env.pidForNameLoop name pids n = (env.firstNamed name (pids.zipIdx n)).getD (-1) := by
  induction pids generalizing n with
  | nil => rfl
  | cons pid pids ih =>
    rw [pidForNameLoop, ih, firstNamed, firstNamed, first, first, List.zipIdx_cons, List.find?_cons]
    by_cases h : env.procName n pid = name
    · simp [nameAt, h]
    · simp [nameAt, h]

theorem pidForName_eq : env.pidForName n name =
    (env.firstNamed name ((env.scannedPids n).zipIdx (n + 2))).getD (-1) := pidForNameLoop_eq _

/-! ### A table that does not change -/

/-- The words of the buffer behind the entries of the table. -/
def leftovers (env : ProcEnv) (n : Nat) : List Int :=
  ((List.range (env.table n).bytesNeeded).map (env.heap n)).drop (env.table (n + 1)).pids.length

theorem scannedPids_of_still (hstill : ∀ n, env.table n = t) : env.scannedPids n = t.pids ++ env.leftovers n := by
  have hlen : t.pids.length ≤ t.bytesNeeded := by
    have := t.enough
    simp only [ProcTable.pids, List.length_map, pidSize] at this ⊢
    omega
  simp only [scannedPids, leftovers, ProcTable.listPids, hstill, List.length_map, List.length_range]
  rw [List.take_of_length_le hlen]

/-- The lookups answer from the table. -/
structure AnswersFromTable (env : ProcEnv) (t : ProcTable) (n : Nat) (pid : Int) (name : String) : Prop where
  exists_iff : env.processExists n pid = true ↔ pid ∈ t.pids
  name_iff : (env.nameForPid n pid).isSome ↔ pid ∈ t.pids
  named : env.pidForName n name ≠ -1 → (env.pidForName n name, name) ∈ t.processes
  unnamed_iff : env.pidForName n name = -1 ↔ ∀ p ∈ t.processes, p.2 ≠ name

/-- The leftover words that are no pids, each with the number of the call that would fill its name buffer. -/
def strangers (env : ProcEnv) (t : ProcTable) (n : Nat) : List (Int × Nat) :=
  ((env.leftovers n).zipIdx (n + 2 + t.pids.length)).filter fun w => w.1 ∉ t.pids

/-- The first of them whose name buffer happens to hold `name`. -/
def firstStranger (env : ProcEnv) (t : ProcTable) (n : Nat) (name : String) : Option Int :=
  (first (fun w => env.nameBuffer w.2) (env.strangers t n) name).map Prod.fst

theorem procName_of_mem (hstill : ∀ n, env.table n = t) (h : (pid, name) ∈ t.processes) :
    env.procName n pid = name := by
  rw [procName, hstill, ProcTable.nameOf_eq_some_iff.2 h, Option.getD_some]

theorem mem_of_procName (hstill : ∀ n, env.table n = t) (hpid : pid ∈ t.pids) (h : env.procName n pid = name) :
    (pid, name) ∈ t.processes := by
  obtain ⟨p, hp, rfl⟩ := List.mem_map.1 hpid
  rw [procName_of_mem hstill hp] at h
  rwa [← h]

theorem procName_of_not_mem (hstill : ∀ n, env.table n = t) (h : pid ∉ t.pids) :
    env.procName n pid = env.nameBuffer n := by
  rw [procName, hstill, ProcTable.nameOf_eq_none_iff.2 h, Option.getD_none]

theorem firstNamed_of_still (hstill : ∀ n, env.table n = t) :
    env.firstNamed name ((env.scannedPids n).zipIdx (n + 2)) = (env.firstNamed name (t.pids.zipIdx (n + 2))).or
      (env.firstNamed name ((env.leftovers n).zipIdx (n + 2 + t.pids.length))) := by
  rw [scannedPids_of_still hstill, List.zipIdx_append, firstNamed, first, List.find?_append, Option.map_or]
  rfl

/-- A name of the table is found before the scan gets to the leftovers. -/
theorem pidForName_of_named (hstill : ∀ n, env.table n = t) (h : ∃ p ∈ t.processes, p.2 = name) :
    (env.pidForName n name, name) ∈ t.processes := by
  obtain ⟨⟨pid, name⟩, hp, rfl⟩ := h
  obtain ⟨k, hk⟩ : ∃ k, (pid, k) ∈ t.pids.zipIdx (n + 2) := by
    have hpid : pid ∈ (t.pids.zipIdx (n + 2)).map Prod.fst := by
      rw [List.zipIdx_map_fst]
      exact List.mem_map_of_mem hp
    obtain ⟨⟨_, k⟩, hk, rfl⟩ := List.mem_map.1 hpid
    exact ⟨k, hk⟩
  obtain ⟨w, hw⟩ : ∃ w, first env.nameAt (t.pids.zipIdx (n + 2)) (env.nameAt (pid, k)) = some w := exists_first hk
  have hname : env.nameAt (pid, k) = name := procName_of_mem hstill hp
  rw [hname] at hw
  have hpids : w.1 ∈ t.pids := List.fst_mem_of_mem_zipIdx (mem_of_first hw)
  have hfound : env.nameAt w = name := key_of_first hw
  rw [pidForName_eq, firstNamed_of_still hstill, firstNamed, hw, Option.map_some, Option.some_or, Option.getD_some]
  exact mem_of_procName hstill hpids hfound

theorem pidForName_of_unnamed (hstill : ∀ n, env.table n = t) (h : ∀ p ∈ t.processes, p.2 ≠ name) :
    env.pidForName n name = (env.firstStranger t n name).getD (-1) := by
  have hknown : ∀ k, ∀ pid ∈ t.pids, env.procName k pid ≠ name := fun k pid hpid he =>
    h _ (mem_of_procName hstill hpid he) rfl
  have hpids : env.firstNamed name (t.pids.zipIdx (n + 2)) = none := by
    rw [firstNamed, Option.map_eq_none_iff, first, List.find?_eq_none]
    intro w hw
    rw [decide_eq_true_eq]
    exact hknown w.2 w.1 (List.fst_mem_of_mem_zipIdx hw)
  have hkey : ∀ w, env.nameAt w = name ↔ w.1 ∉ t.pids ∧ env.nameBuffer w.2 = name := by
    intro w
    by_cases hw : w.1 ∈ t.pids
    · simp [nameAt, hw, hknown w.2 w.1 hw]
    · simp [nameAt, hw, procName_of_not_mem hstill hw]
  rw [pidForName_eq, firstNamed_of_still hstill, hpids, Option.none_or, firstNamed, firstStranger, first, first,
    strangers, List.find?_filter]
  simp only [hkey, Bool.decide_and, decide_eq_true_eq]

/-- What lies behind the table must not match. -/
theorem answersFromTable_iff (hstill : ∀ n, env.table n = t) : AnswersFromTable env t n pid name ↔
    (pid ∈ t.pids ∨ pid ∉ env.leftovers n) ∧
    ((∃ p ∈ t.processes, p.2 = name) ∨ ∀ w, env.firstStranger t n name = some w → w = -1) := by
  have hpid : pid ∈ env.scannedPids n ↔ pid ∈ t.pids ∨ pid ∈ env.leftovers n := by
    rw [scannedPids_of_still hstill, List.mem_append]
  have hfound : (pid ∈ env.scannedPids n ↔ pid ∈ t.pids) ↔ pid ∈ t.pids ∨ pid ∉ env.leftovers n := by
    rw [hpid]
    tauto
  rw [← hfound]
  by_cases hname : ∃ p ∈ t.processes, p.2 = name
  · have hmem := pidForName_of_named (n := n) hstill hname
    have hne : env.pidForName n name ≠ -1 := by
      have := t.nonneg _ hmem
      omega
    constructor
    · intro h
      exact ⟨processExists_iff.symm.trans h.exists_iff, .inl hname⟩
    · rintro ⟨hscan, -⟩
      refine ⟨processExists_iff.trans hscan, isSome_nameForPid.trans hscan, fun _ => hmem, ?_⟩
      refine iff_of_false hne fun hnone => ?_
      obtain ⟨p, hp, he⟩ := hname
      exact hnone p hp he
  · have hnone : ∀ p ∈ t.processes, p.2 ≠ name := fun p hp he => hname ⟨p, hp, he⟩
    have hres : env.pidForName n name = -1 ↔ ∀ w, env.firstStranger t n name = some w → w = -1 := by
      rw [pidForName_of_unnamed hstill hnone]
      cases env.firstStranger t n name <;> simp
    rw [or_iff_right hname, ← hres]
    constructor
    · intro h
      exact ⟨processExists_iff.symm.trans h.exists_iff, h.unnamed_iff.2 hnone⟩
    · rintro ⟨hscan, hneg⟩
      exact ⟨processExists_iff.trans hscan, isSome_nameForPid.trans hscan, fun h => absurd hneg h,
        iff_of_true hneg hnone⟩

/-- One process, a buffer of four words. -/
def oneProcess (word : Int) (buffer : String) : ProcEnv where
  table _ := ⟨[(1, "launchd")], by decide, by decide, 4, by decide⟩
  heap _ _ := word
  nameBuffer _ := buffer
  taskForPid _ := (kernSuccess, 1)

theorem answersFromTable_oneProcess :
    AnswersFromTable (oneProcess 0 "") ((oneProcess 0 "").table 0) 0 1 "launchd" :=
  (answersFromTable_iff fun _ => rfl).2 ⟨by decide, .inl (by decide)⟩

/-- A freed buffer held 7. -/
theorem not_answersFromTable_leftover :
    ¬AnswersFromTable (oneProcess 7 "") ((oneProcess 7 "").table 0) 0 7 "launchd" := by
  intro h
  have hexists := h.exists_iff.1 (by decide)
  revert hexists; decide

end ProcEnv

end MasterLib
