import MasterLib.RegisterTable

/-!
# `state[key]`

`Load` copies the banks of the thread over the object and appends the table once more, so a name is found in the
first copy of the table, whose pointers are those of every other copy. On x86 and ARMv7 the `i`th name is the `i`th
word of `thread_state_`, on x64 the `i`th pair of words, which are the fields of the struct in their order.
-/

namespace MasterLib
open LittleEndian

/-- The banks of an object do not overlap. -/
structure ObjectLayout (cls : ThreadStateClass) extends Layout cls where
  apart : ∀ f ∈ cls.flavors, ∀ g ∈ cls.flavors, f ≠ g →
    start f + 4 * count f ≤ start g ∨ start g + 4 * count g ≤ start f

/-- A bank as it lies in memory. -/
def Bank.bytes (bank : Bank) : Memory := fun p => (bank (p / 4)).extractLsb' (8 * (p % 4)) 8

/-- An object of a thread-state class: its banks as bytes, and `registers_`. -/
structure ThreadObject where
  mem : Memory
  registers : List Register

namespace ThreadStateClass

/-- The integer type of the registers of the table; on AArch64 `CPSR` and `PAD` are narrower. -/
def own : ThreadStateClass → IntType
  | .x64 | .aarch64 => .u64
  | .x86 | .armv7 => .u32

/-- The fields of the Mach struct in their order. -/
def fields : ThreadStateClass → List String
  | .x64 => ["RAX", "RBX", "RCX", "RDX", "RDI", "RSI", "RBP", "RSP", "R8", "R9", "R10", "R11", "R12", "R13", "R14",
      "R15", "RIP", "RFLAGS", "CS", "FS", "GS"]
  | .x86 => ["EAX", "EBX", "ECX", "EDX", "EDI", "ESI", "EBP", "ESP", "SS", "EFLAGS", "EIP", "CS", "DS", "ES", "FS",
      "GS"]
  | .armv7 => ["R0", "R1", "R2", "R3", "R4", "R5", "R6", "R7", "R8", "R9", "R10", "R11", "R12", "SP", "LR", "PC",
      "CPSR"]
  | .aarch64 => ["X0", "X1", "X2", "X3", "X4", "X5", "X6", "X7", "X8", "X9", "X10", "X11", "X12", "X13", "X14", "X15",
      "X16", "X17", "X18", "X19", "X20", "X21", "X22", "X23", "X24", "X25", "X26", "X27", "X28", "FP", "LR", "SP",
      "PC", "CPSR", "PAD"]

/-- Where the struct has a field, in bytes. -/
def offset (cls : ThreadStateClass) (name : String) : Nat := cls.own.bits / 8 * cls.fields.idxOf name

def instructionPointer : ThreadStateClass → String
  | .x64 => "RIP"
  | .x86 => "EIP"
  | .armv7 | .aarch64 => "PC"

/-- What `CurrentAddress` makes of the instruction pointer. -/
def addressOf (cls : ThreadStateClass) (v : BitVec cls.own.bits) : BitVec cls.own.bits :=
  if cls = .armv7 then v &&& ~~~1 else v

end ThreadStateClass

variable {cls : ThreadStateClass}

/-- The register of a thread that the struct has under `name`. -/
def Thread.register (th : Thread) (cls : ThreadStateClass) (name : String) : BitVec cls.own.bits :=
  load (th.regs cls.general).bytes (cls.offset name) cls.own.bits

/-- Kernel call `n`: the bank of flavor `f` of `th` over the bytes the object has for it. -/
def Layout.threadGetState (L : Layout cls) (env : Env) (n : Nat) (th : Thread) (f : Flavor) (mem : Memory) : Memory :=
  if env.kr n = kernSuccess then fun p =>
    if L.start f ≤ p ∧ p < L.start f + 4 * L.count f then (th.regs f).bytes (p - L.start f) else mem p
  else mem

def Layout.getStates (L : Layout cls) (env : Env) (th : Thread) : List Flavor → Nat → Memory → Memory
  | [], _, mem => mem
  | f :: fs, n, mem => L.getStates env th fs (n + 1) (L.threadGetState env n th f mem)

namespace ThreadObject

/-- `new …ThreadState(thread)`. -/
def new (found : Memory) : ThreadObject := ⟨found, []⟩

/-- `Load`, from kernel call `n` on. -/
def load (L : Layout cls) (env : Env) (th : Thread) (n : Nat) (o : ThreadObject) : ThreadObject :=
  ⟨L.getStates env th cls.flavors n o.mem, o.registers ++ cls.registers⟩

def loads (L : Layout cls) (env : Env) (th : Thread) : Nat → Nat → ThreadObject → ThreadObject
  | 0, _, o => o
  | k + 1, n, o => (o.load L env th n).loads L env th k (n + cls.flavors.length)

/-- `Save`, from kernel call `n` on. -/
def save (L : Layout cls) (env : Env) (th : Thread) (n : Nat) (o : ThreadObject) : Thread :=
  ((L.threadState th.port o.registers o.mem).save env n th).2

/-- `state[key] = v`, where `reg` is what `state[key]` is. -/
def assign (L : Layout cls) (reg : Register) (v : BitVec cls.own.bits) (o : ThreadObject) : ThreadObject :=
  { o with mem := reg.assign L cls.own v o.mem }

end ThreadObject

/-! ### Banks in memory -/

variable {L : ObjectLayout cls} {mem : Memory} {env : Env} {th : Thread} {f : Flavor} {fs : List Flavor} {n k p : Nat}

theorem bytes_banks (L : Layout cls) : (L.banks mem f).bytes p = mem (L.start f + p) := by
  have hplace : L.start f + 4 * (p / 4) + p % 4 = L.start f + p := by omega
  rw [Bank.bytes, Layout.banks, extractLsb'_load (by omega), hplace]

theorem load_bytes (bank : Bank) : load bank.bytes (4 * k) 32 = bank k := by
  refine BitVec.eq_of_getLsbD_eq fun i hi => ?_
  have hdiv : (4 * k + i / 8) / 4 = k := by omega
  have hmod : (4 * k + i / 8) % 4 = i / 8 := by omega
  rw [getLsbD_load, Bank.bytes, hdiv, hmod, BitVec.getLsbD_extractLsb', Nat.div_add_mod]
  simp [hi, Nat.mod_lt]

/-- One transfer does the same to the banks that lie in memory. -/
theorem banks_threadGetState {g : Flavor} (hf : f ∈ cls.flavors) (hg : g ∈ cls.flavors) (hk : k < L.count f) :
    L.banks (L.threadGetState env n th g mem) f k = threadGetState env n th g (L.banks mem) f k := by
  rw [Layout.threadGetState, threadGetState]
  split
  · by_cases hfg : f = g
    · subst hfg
      rw [Function.update_self, Layout.banks, ← load_bytes (th.regs f)]
      refine load_congr_add fun i hi => ?_
      have hplace : L.start f + 4 * k + i - L.start f = 4 * k + i := by omega
      rw [if_pos (by omega), hplace]
    · rw [Function.update_of_ne hfg, Layout.banks, Layout.banks]
      refine load_congr fun q hq hlt => if_neg ?_
      have := L.apart f hf g hg hfg
      omega
  · rfl

/-- `Load` does to the banks in memory what it does to banks, whichever of its calls fail. -/
theorem banks_getStates (env : Env) (th : Thread) (n : Nat) {dst : Banks} (hfs : ∀ g ∈ fs, g ∈ cls.flavors)
    (h : ∀ f ∈ cls.flavors, ∀ k < L.count f, L.banks mem f k = dst f k) :
    ∀ f ∈ cls.flavors, ∀ k < L.count f,
      L.banks (L.getStates env th fs n mem) f k = getStates env th fs n dst f k := by
  induction fs generalizing n mem dst with
  | nil => exact h
  | cons g fs ih =>
    have hg : g ∈ cls.flavors := hfs g (List.mem_cons_self ..)
    refine ih _ (fun f hf => hfs f (List.mem_cons_of_mem _ hf)) fun f hf k hk => ?_
    rw [banks_threadGetState hf hg hk]
    by_cases hfg : f = g
    · subst hfg
      rw [threadGetState_self, threadGetState_self]
      split
      · rfl
      · exact h f hf k hk
    · rw [threadGetState_of_ne hfg, threadGetState_of_ne hfg, h f hf k hk]

namespace ThreadObject
variable {o : ThreadObject}

theorem holds_load (hok : env.AllSucceed) : L.Holds th (o.load L.toLayout env th n).mem := by
  intro f hf k hk
  have hbank : L.banks (o.load L.toLayout env th n).mem f k =
      getStates env th cls.flavors n (L.banks o.mem) f k :=
    banks_getStates env th n (fun _ hg => hg) (fun _ _ _ _ => rfl) f hf k hk
  rw [getStates_ok hok, if_pos hf] at hbank
  exact hbank.symm

theorem holds_loads (hok : env.AllSucceed) (hk : 1 ≤ k) : L.Holds th (o.loads L.toLayout env th k n).mem := by
  induction k generalizing n o with
  | zero => omega
  | succ k ih =>
    rcases k with _ | k
    · exact holds_load hok
    · exact ih (Nat.le_add_left ..)

theorem registers_loads (L : Layout cls) :
    (o.loads L env th k n).registers = o.registers ++ (List.replicate k cls.registers).flatten := by
  induction k generalizing n o with
  | zero => simp [loads]
  | succ k ih =>
    rw [loads, ih, load, List.append_assoc, List.replicate_succ, List.flatten_cons]

/-- The copies of the table that later `Load`s append are not reached. -/
theorem subscript_loads (L : Layout cls) (hk : 1 ≤ k) (found : Memory) (key : String) :
    subscript ((new found).loads L env th k n).registers key = subscript cls.registers key := by
  obtain ⟨k, rfl⟩ : ∃ j, k = j + 1 := ⟨k - 1, by omega⟩
  rw [registers_loads, new, List.nil_append, List.replicate_succ, List.flatten_cons, subscript, subscript,
    List.find?_append]
  cases hfirst : cls.registers.find? fun reg => reg.name = upperCase key with
  | some reg => rfl
  | none =>
    rw [Option.none_or, List.find?_eq_none]
    intro reg hreg
    obtain ⟨table, htable, hreg⟩ := List.mem_flatten.1 hreg
    obtain rfl := List.eq_of_mem_replicate htable
    exact List.find?_eq_none.1 hfirst reg hreg

end ThreadObject

/-! ### The table and the struct -/

namespace ThreadStateClass

theorem registers_eq_table (hcls : cls ≠ .aarch64) :
    cls.registers = table cls.general (cls.own.bits / 32) cls.fields := by
  cases cls with
  | x64 | x86 | armv7 => rfl
  | aarch64 => contradiction

theorem nodup_fields (cls : ThreadStateClass) : cls.fields.Nodup := by
  cases cls <;> decide

theorem general_mem_flavors (cls : ThreadStateClass) : cls.general ∈ cls.flavors := by
  cases cls <;> decide

theorem four_mul_word (cls : ThreadStateClass) (i : Nat) : 4 * (cls.own.bits / 32 * i) = cls.own.bits / 8 * i := by
  cases cls with
  | x64 | aarch64 =>
    show 4 * (2 * i) = 8 * i
    omega
  | x86 | armv7 =>
    show 4 * (1 * i) = 4 * i
    omega

theorem length_fields_le (hcls : cls ≠ .aarch64) : cls.own.bits / 8 * cls.fields.length ≤ 4 * cls.generalCount := by
  cases cls with
  | x64 | x86 | armv7 => decide
  | aarch64 => contradiction

theorem offset_add_le (hcls : cls ≠ .aarch64) {name : String} (hname : name ∈ cls.fields) :
    cls.offset name + cls.own.bits / 8 ≤ 4 * cls.generalCount := by
  have hlt : cls.fields.idxOf name + 1 ≤ cls.fields.length := List.idxOf_lt_length_of_mem hname
  calc cls.offset name + cls.own.bits / 8 = cls.own.bits / 8 * (cls.fields.idxOf name + 1) := by rw [offset]; ring
    _ ≤ cls.own.bits / 8 * cls.fields.length := Nat.mul_le_mul_left _ hlt
    _ ≤ 4 * cls.generalCount := length_fields_le hcls

theorem offset_apart {name name' : String} (hname : name ∈ cls.fields) (hne : name ≠ name') :
    cls.offset name + cls.own.bits / 8 ≤ cls.offset name' ∨ cls.offset name' + cls.own.bits / 8 ≤ cls.offset name := by
  have hidx : cls.fields.idxOf name ≠ cls.fields.idxOf name' := fun he => hne ((List.idxOf_inj hname).1 he)
  have hstep : ∀ i j, i < j → cls.own.bits / 8 * i + cls.own.bits / 8 ≤ cls.own.bits / 8 * j := by
    intro i j hij
    rw [← Nat.mul_succ]
    exact Nat.mul_le_mul_left _ hij
  rcases Nat.lt_or_gt_of_ne hidx with hlt | hgt
  · exact .inl (hstep _ _ hlt)
  · exact .inr (hstep _ _ hgt)

end ThreadStateClass

theorem subscript_eq_none_iff (hcls : cls ≠ .aarch64) (key : String) :
    subscript cls.registers key = none ↔ upperCase key ∉ cls.fields := by
  have hnames : cls.registers.map Register.name = cls.fields := by
    cases cls with
    | x64 | x86 | armv7 => rfl
    | aarch64 => contradiction
  rw [subscript, List.find?_eq_none, ← hnames, List.mem_map]
  simp only [decide_eq_true_eq, not_exists, not_and]

/-- A name of the table is one of the struct, and points to its field. -/
theorem pointer_of_subscript (hcls : cls ≠ .aarch64) (L : Layout cls) {key : String} {reg : Register}
    (h : subscript cls.registers key = some reg) :
    upperCase key ∈ cls.fields ∧ reg.pointer L = cls.offset (upperCase key) := by
  have hname : reg.name = upperCase key := by simpa using List.find?_some h
  have hmem := List.mem_of_find?_eq_some h
  rw [ThreadStateClass.registers_eq_table hcls, ThreadStateClass.table, List.mem_mapIdx] at hmem
  obtain ⟨i, hi, rfl⟩ := hmem
  have hkey : cls.fields[i] = upperCase key := hname
  have hidx : cls.fields.idxOf (upperCase key) = i := hkey ▸ cls.nodup_fields.idxOf_getElem i hi
  refine ⟨hkey ▸ List.getElem_mem hi, ?_⟩
  rw [Register.pointer, L.start_general, Nat.zero_add, ThreadStateClass.four_mul_word, ThreadStateClass.offset, hidx]

/-! ### The round trip -/

section
variable {reg reg' : Register} {key other : String} {v : BitVec cls.own.bits}

theorem load_register (hcls : cls ≠ .aarch64) (hth : L.Holds th mem) (hkey : key ∈ cls.fields) :
    load mem (cls.offset key) cls.own.bits = th.register cls key := by
  have hend := ThreadStateClass.offset_add_le hcls hkey
  rcases eight_dvd_bits cls.own with ⟨m, hm⟩
  refine load_congr_add fun i hi => ?_
  have hplace : mem (cls.offset key + i) = (L.banks mem cls.general).bytes (cls.offset key + i) := by
    rw [bytes_banks, L.start_general, Nat.zero_add]
  have hword : (cls.offset key + i) / 4 < L.count cls.general := by
    rw [L.count_general]
    omega
  rw [hplace, Bank.bytes, Bank.bytes, hth cls.general cls.general_mem_flavors _ hword]

theorem currentAddress_threadState (hcls : cls ≠ .aarch64) (L : Layout cls) (b : Build) (thread : MachPort)
    (registers : List Register) (mem : Memory) : (L.threadState thread registers mem).currentAddress b =
      (cls.addressOf (load mem (cls.offset cls.instructionPointer) cls.own.bits)).setWidth b.addrBits := by
  have hstart := L.start_general
  cases cls with
  | x64 =>
    show ((L.banks mem .x86ThreadState64).word64 16).setWidth _ = (load mem (8 * 16) 64).setWidth _
    rw [L.word64_banks, show L.start .x86ThreadState64 = 0 from hstart, Nat.zero_add]
  | x86 =>
    show (load mem (L.start .x86ThreadState32 + 4 * 10) 32).setWidth _ = (load mem (4 * 10) 32).setWidth _
    rw [show L.start .x86ThreadState32 = 0 from hstart, Nat.zero_add]
  | armv7 =>
    show (load mem (L.start .armThreadState + 4 * 15) 32 &&& ~~~1).setWidth _ =
      (load mem (4 * 15) 32 &&& ~~~1).setWidth _
    rw [show L.start .armThreadState = 0 from hstart, Nat.zero_add]
  | aarch64 => contradiction

theorem value_of_subscript (hcls : cls ≠ .aarch64) (hth : L.Holds th mem)
    (hreg : subscript cls.registers key = some reg) :
    reg.value L.toLayout cls.own mem = th.register cls (upperCase key) := by
  obtain ⟨hkey, hpointer⟩ := pointer_of_subscript hcls L.toLayout hreg
  rw [Register.value, hpointer, load_register hcls hth hkey]

theorem value_assign_self (L : Layout cls) : reg.value L cls.own (reg.assign L cls.own v mem) = v :=
  load_store (eight_dvd_bits _)

theorem value_assign_of_ne (hcls : cls ≠ .aarch64) (L : Layout cls) (hreg : subscript cls.registers key = some reg)
    (hreg' : subscript cls.registers other = some reg') (hne : upperCase other ≠ upperCase key) :
    reg'.value L cls.own (reg.assign L cls.own v mem) = reg'.value L cls.own mem := by
  obtain ⟨-, hpointer⟩ := pointer_of_subscript hcls L hreg
  obtain ⟨hother, hpointer'⟩ := pointer_of_subscript hcls L hreg'
  refine load_store_of_disjoint (eight_dvd_bits _) (eight_dvd_bits _) ?_
  rw [hpointer, hpointer']
  exact ThreadStateClass.offset_apart hother hne

end

/-- `state[key]` throws for anything but a register name, and otherwise is the register of that name: as `Load` found
it, then as assigned, of the object and, after `Save`, of the thread, and no other register is touched. -/
structure RoundTrips (L : ObjectLayout cls) (env : Env) (th : Thread) (key : String) (v : BitVec cls.own.bits)
    (o : ThreadObject) : Prop where
  throws_iff : subscript o.registers key = none ↔ upperCase key ∉ cls.fields
  loaded : ∀ reg, subscript o.registers key = some reg →
    reg.value L.toLayout cls.own o.mem = th.register cls (upperCase key)
  assigned : ∀ reg, subscript o.registers key = some reg →
    reg.value L.toLayout cls.own (o.assign L.toLayout reg v).mem = v
  others : ∀ reg, subscript o.registers key = some reg → ∀ other reg', subscript o.registers other = some reg' →
    upperCase other ≠ upperCase key →
    reg'.value L.toLayout cls.own (o.assign L.toLayout reg v).mem = reg'.value L.toLayout cls.own o.mem
  address : ∀ reg, subscript o.registers key = some reg → upperCase key = cls.instructionPointer → ∀ b : Build,
    (L.threadState th.port o.registers (o.assign L.toLayout reg v).mem).currentAddress b =
      (cls.addressOf v).setWidth b.addrBits
  saved : ∀ reg, subscript o.registers key = some reg → ∀ n m found,
    let th' := (o.assign L.toLayout reg v).save L.toLayout env th n
    let fresh := (ThreadObject.new found).load L.toLayout env th' m
    ∀ other, subscript fresh.registers other = subscript o.registers other ∧
      ∀ reg', subscript fresh.registers other = some reg' → reg'.value L.toLayout cls.own fresh.mem =
        if upperCase other = upperCase key then v else reg'.value L.toLayout cls.own o.mem

/-- The debug registers right behind `thread_state_`. -/
def packedX86 : ObjectLayout .x86 where
  start
    | .x86ThreadState32 => 0
    | _ => 64
  count
    | .x86ThreadState32 => 16
    | _ => 8
  start_general := rfl
  count_general := rfl
  le_start := by decide
  apart := by decide

end MasterLib
