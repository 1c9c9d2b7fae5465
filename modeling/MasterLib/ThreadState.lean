import MasterLib.Mach

/-!
# Thread states

The four `ThreadState` classes. An object holds its own copy of the register banks, uninitialised until
`Load` and independent of the thread until `Save`, and a table of names and places of registers that
every `Load` extends. Each class fixes the banks it transfers, its table, and the register that
`CurrentAddress` reads.
-/

namespace MasterLib

inductive ThreadStateClass
  | x64 | x86 | armv7 | aarch64
deriving DecidableEq, Repr

/-- A table entry: the 32-bit word of the bank that `value_` points to. -/
structure Register where
  name : String
  bank : Flavor
  word : Nat
deriving DecidableEq, Repr

structure ThreadState where
  cls : ThreadStateClass
  thread : MachPort
  banks : Banks
  registers : List Register

namespace ThreadStateClass

def flavors : ThreadStateClass → List Flavor
  | .x64 => [.x86ThreadState64, .x86DebugState64]
  | .x86 => [.x86ThreadState32, .x86DebugState32]
  | .armv7 => [.armThreadState, .armVfpState, .armNeonState, .armExceptionState, .armDebugState]
  | .aarch64 => [.armThreadState64, .armNeonState64, .armExceptionState64, .armDebugState64]

/-- The registers at consecutive `stride`-word places from the start of a bank. -/
def table (bank : Flavor) (stride : Nat) (names : List String) : List Register :=
  names.mapIdx fun i name => ⟨name, bank, stride * i⟩

/-- The entries one `Load` appends to `registers_`. -/
def registers : ThreadStateClass → List Register
  | .x64 => table .x86ThreadState64 2
      ["RAX", "RBX", "RCX", "RDX", "RDI", "RSI", "RBP", "RSP", "R8", "R9", "R10", "R11", "R12", "R13",
        "R14", "R15", "RIP", "RFLAGS", "CS", "FS", "GS"]
  | .x86 => table .x86ThreadState32 1
      ["EAX", "EBX", "ECX", "EDX", "EDI", "ESI", "EBP", "ESP", "SS", "EFLAGS", "EIP", "CS", "DS", "ES",
        "FS", "GS"]
  | .armv7 => table .armThreadState 1
      ["R0", "R1", "R2", "R3", "R4", "R5", "R6", "R7", "R8", "R9", "R10", "R11", "R12", "SP", "LR",
        "PC", "CPSR"]
  | .aarch64 => table .armThreadState64 2
      ["X0", "X1", "X2", "X3", "X4", "X5", "X6", "X7", "X8", "X9", "X10", "X11", "X12", "X13", "X14",
        "X15", "X16", "X17", "X18", "X19", "X20", "X21", "X22", "X23", "X24", "X25", "X26", "X27",
        "X28", "X29", "X30", "FP", "LR", "SP", "PC"] ++
      -- 32-bit fields, pointed to by name and not by index
      [⟨"CPSR", .armThreadState64, 66⟩, ⟨"PAD", .armThreadState64, 67⟩]

end ThreadStateClass

/-- `thread_get_state` of each flavor, from kernel call `n` on, every status ignored. -/
def getStates (env : Env) (th : Thread) : List Flavor → Nat → Banks → Banks
  | [], _, dst => dst
  | f :: fs, n, dst => getStates env th fs (n + 1) (threadGetState env n th f dst)

/-- `thread_set_state` of each flavor, from kernel call `n` on, every status ignored. -/
def setStates (env : Env) (src : Banks) : List Flavor → Nat → Thread → Thread
  | [], _, th => th
  | f :: fs, n, th => setStates env src fs (n + 1) (threadSetState env n f src th)

namespace ThreadState

/-- `new …ThreadState(thread)`, its banks holding what the allocation found. -/
def new (cls : ThreadStateClass) (thread : MachPort) (found : Banks) : ThreadState :=
  ⟨cls, thread, found, []⟩

def transferCalls (st : ThreadState) : Nat := st.cls.flavors.length

def load (env : Env) (th : Thread) (n : Nat) (st : ThreadState) : Bool × ThreadState :=
  (true, { st with
    banks := getStates env th st.cls.flavors n st.banks
    registers := st.registers ++ st.cls.registers })

def save (env : Env) (st : ThreadState) (n : Nat) (th : Thread) : Bool × Thread :=
  (true, setStates env st.banks st.cls.flavors n th)

/-- `__rip`, `__eip`, `__pc & ~1` or `__pc`. -/
def currentAddress (b : Build) (st : ThreadState) : VmAddress b :=
  match st.cls with
  | .x64 => ((st.banks .x86ThreadState64).word64 16).setWidth _
  | .x86 => (st.banks .x86ThreadState32 10).setWidth _
  | .armv7 => (st.banks .armThreadState 15 &&& ~~~1).setWidth _
  | .aarch64 => ((st.banks .armThreadState64).word64 32).setWidth _

end ThreadState

/-! ### Transfers -/

section
variable {env : Env} {th : Thread} {dst src : Banks}

theorem threadGetState_ok (hk : env.AllSucceed) (n : Nat) (f : Flavor) :
    threadGetState env n th f dst = Function.update dst f (th.regs f) := if_pos (hk n)

theorem getStates_ok (hk : env.AllSucceed) (fs : List Flavor) (n : Nat) (f : Flavor) :
    getStates env th fs n dst f = if f ∈ fs then th.regs f else dst f := by
  induction fs generalizing n dst with
  | nil => simp [getStates]
  | cons g fs ih =>
    rw [getStates, ih, threadGetState_ok hk]
    by_cases hg : f = g
    · subst hg; simp
    · simp [hg]

theorem getStates_of_not_mem {f : Flavor} {fs : List Flavor} (hf : f ∉ fs) (n : Nat) :
    getStates env th fs n dst f = dst f := by
  induction fs generalizing n dst with
  | nil => rfl
  | cons g fs ih =>
    obtain ⟨hfg, hfs⟩ := List.ne_and_not_mem_of_not_mem_cons hf
    rw [getStates, ih hfs, threadGetState_of_ne hfg]

/-- Of the banks of a class the first is loaded if that call succeeds, whatever the later ones do. -/
theorem getStates_cons_self {f : Flavor} {fs : List Flavor} {n : Nat} (hf : f ∉ fs) (hk : env.kr n = kernSuccess) :
    getStates env th (f :: fs) n dst f = th.regs f := by
  rw [getStates, getStates_of_not_mem hf, threadGetState_self, if_pos hk]

theorem setStates_of_succeed {fs : List Flavor} {n : Nat} (hk : ∀ i < fs.length, env.kr (n + i) = kernSuccess) :
    setStates env src fs n th = { th with regs := fun f => if f ∈ fs then src f else th.regs f } := by
  induction fs generalizing n th with
  | nil => simp [setStates]
  | cons g fs ih =>
    have hfirst : env.kr n = kernSuccess := hk 0 (Nat.zero_lt_succ _)
    have hrest : ∀ i < fs.length, env.kr (n + 1 + i) = kernSuccess := by
      intro i hi
      rw [Nat.add_assoc, Nat.add_comm 1 i]
      exact hk (i + 1) (Nat.succ_lt_succ hi)
    rw [setStates, ih hrest, threadSetState, if_pos hfirst]
    congr 1; funext f
    by_cases hg : f = g
    · subst hg; simp
    · simp [hg]

theorem setStates_ok (hk : env.AllSucceed) (fs : List Flavor) (n : Nat) :
    setStates env src fs n th = { th with regs := fun f => if f ∈ fs then src f else th.regs f } :=
  setStates_of_succeed fun _ _ => hk _

/-- From `th` to `th'` at most the banks `fs` have changed. -/
structure ChangedIn (fs : List Flavor) (th th' : Thread) : Prop where
  port : th'.port = th.port
  suspendCount : th'.suspendCount = th.suspendCount
  regs : ∀ f, f ∉ fs → th'.regs f = th.regs f

theorem ChangedIn.refl (fs : List Flavor) (th : Thread) : ChangedIn fs th th := ⟨rfl, rfl, fun _ _ => rfl⟩

theorem ChangedIn.trans {fs : List Flavor} {th th' th'' : Thread} (h : ChangedIn fs th th')
    (h' : ChangedIn fs th' th'') : ChangedIn fs th th'' :=
  ⟨h'.port.trans h.port, h'.suspendCount.trans h.suspendCount, fun f hf => (h'.regs f hf).trans (h.regs f hf)⟩

theorem changedIn_threadSetState {fs : List Flavor} {f : Flavor} (hf : f ∈ fs) (n : Nat) :
    ChangedIn fs th (threadSetState env n f src th) := by
  unfold threadSetState
  split
  · refine ⟨rfl, rfl, fun g hg => ?_⟩
    exact Function.update_of_ne (fun h : g = f => hg (h ▸ hf)) ..
  · exact .refl fs th

theorem changedIn_setStates {fs gs : List Flavor} (h : gs ⊆ fs) (n : Nat) :
    ChangedIn fs th (setStates env src gs n th) := by
  induction gs generalizing n th with
  | nil => exact .refl fs th
  | cons g gs ih =>
    rcases List.cons_subset.1 h with ⟨hg, hgs⟩
    exact (changedIn_threadSetState hg n).trans (ih hgs (n + 1))

@[simp] theorem port_setStates (fs : List Flavor) (n : Nat) : (setStates env src fs n th).port = th.port :=
  (changedIn_setStates (List.Subset.refl fs) n).port

end

end MasterLib
