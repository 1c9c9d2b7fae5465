import MasterLib.ThreadState
import MasterLib.LittleEndian

/-!
# The register table of AArch64

`Load` files names under pointers into `thread_state_`, counted out in 64-bit words and not taken from the fields.
`X29` and `X30` have the places of `__fp` and `__lr`; the names after them are counted on from there, so that `FP`,
`LR`, `SP` and `PC` point two words too far, `PC` behind the struct. An object is its bytes from `thread_state_` on.
-/

namespace MasterLib
open LittleEndian

/-! ### Objects as memory -/

/-- The `U` of `operator U` and `operator=(U)`. -/
inductive IntType
  | u8 | u16 | u32 | u64
deriving DecidableEq, Repr

def IntType.bits : IntType → Nat
  | .u8 => 8
  | .u16 => 16
  | .u32 => 32
  | .u64 => 64

namespace ThreadStateClass

/-- The flavor of `thread_state_`, which is the first bank of an object. -/
def general : ThreadStateClass → Flavor
  | .x64 => .x86ThreadState64
  | .x86 => .x86ThreadState32
  | .armv7 => .armThreadState
  | .aarch64 => .armThreadState64

/-- How many 32-bit words `thread_state_` has. -/
def generalCount : ThreadStateClass → Nat
  | .x64 => 42
  | .x86 => 16
  | .armv7 => 17
  | .aarch64 => 68

end ThreadStateClass

/-- Where the banks of an object are, in bytes from `thread_state_` on, and how many words each has. -/
structure Layout (cls : ThreadStateClass) where
  start : Flavor → Nat
  count : Flavor → Nat
  start_general : start cls.general = 0
  count_general : count cls.general = cls.generalCount
  le_start : ∀ f ∈ cls.flavors, f ≠ cls.general → 4 * cls.generalCount ≤ start f

variable {cls : ThreadStateClass} {mem : Memory}

def Layout.banks (L : Layout cls) (mem : Memory) : Banks := fun f i => load mem (L.start f + 4 * i) 32

/-- The object in `mem`. -/
def Layout.threadState (L : Layout cls) (thread : MachPort) (registers : List Register) (mem : Memory) : ThreadState :=
  ⟨cls, thread, L.banks mem, registers⟩

/-- The banks of `th` are those of the object in `mem`. -/
def Layout.Holds (L : Layout cls) (th : Thread) (mem : Memory) : Prop :=
  ∀ f ∈ cls.flavors, ∀ i < L.count f, th.regs f i = L.banks mem f i

namespace Register

/-- `value_`. -/
def pointer (L : Layout cls) (reg : Register) : Nat := L.start reg.bank + 4 * reg.word

/-- `Value<U>`, and `operator U`. -/
def value (L : Layout cls) (U : IntType) (reg : Register) (mem : Memory) : BitVec U.bits :=
  load mem (reg.pointer L) U.bits

/-- `operator=(U)`. -/
def assign (L : Layout cls) (U : IntType) (reg : Register) (val : BitVec U.bits) (mem : Memory) : Memory :=
  store mem (reg.pointer L) val

end Register

/-- `for (auto &c : key) c = toupper(c)`, in the C locale. -/
def upperCase (key : String) : String := String.ofList (key.toList.map Char.toUpper)

/-- `operator[]`; `none` where it throws. -/
def subscript (registers : List Register) (key : String) : Option Register :=
  registers.find? fun reg => reg.name = upperCase key

theorem registers_load_new (env : Env) (th : Thread) (n : Nat) (found : Banks) :
    ((ThreadState.new cls th.port found).load env th n).2.registers = cls.registers := rfl

theorem Layout.holds_save {env : Env} (hk : env.AllSucceed) (L : Layout cls) (registers : List Register)
    (mem : Memory) (n : Nat) (th : Thread) : L.Holds ((L.threadState th.port registers mem).save env n th).2 mem := by
  intro f hf i _
  rw [ThreadState.save, setStates_ok hk]
  exact congrFun (if_pos hf) i

/-! ### The struct -/

/-- The fields of `arm_thread_state64_t`. -/
inductive ArmField64
  | x (i : Fin 29) | fp | lr | sp | pc | cpsr | pad
deriving DecidableEq

namespace ArmField64

/-- In bytes. -/
def offset : ArmField64 → Nat
  | .x i => 8 * i
  | .fp => 232
  | .lr => 240
  | .sp => 248
  | .pc => 256
  | .cpsr => 264
  | .pad => 268

def type : ArmField64 → IntType
  | .cpsr | .pad => .u32
  | _ => .u64

def value (field : ArmField64) (mem : Memory) : BitVec field.type.bits := load mem field.offset field.type.bits

def Covers (field : ArmField64) (p : Nat) : Prop := field.offset ≤ p ∧ p < field.offset + field.type.bits / 8

/-- The field that a register name stands for. -/
def named (name : String) : Option ArmField64 :=
  let general := ["X0", "X1", "X2", "X3", "X4", "X5", "X6", "X7", "X8", "X9", "X10", "X11", "X12", "X13", "X14",
    "X15", "X16", "X17", "X18", "X19", "X20", "X21", "X22", "X23", "X24", "X25", "X26", "X27", "X28"]
  let table := general.zip ((List.finRange 29).map .x) ++
    [("X29", .fp), ("FP", .fp), ("X30", .lr), ("LR", .lr), ("SP", .sp), ("PC", .pc), ("CPSR", .cpsr), ("PAD", .pad)]
  (table.find? (·.1 = name)).map (·.2)

theorem offset_add_le (field : ArmField64) : field.offset + field.type.bits / 8 ≤ 272 := by
  cases field with
  | x i =>
    have hoffset : (x i).offset = 8 * i := rfl
    have hsize : (x i).type.bits / 8 = 8 := by simp [type, IntType.bits]
    omega
  | fp | lr | sp | pc | cpsr | pad => decide

end ArmField64

/-! ### Access by name -/

/-- Through `reg`, as a `U`, `field` is read and written and nothing else of the object is: the register points into
`thread_state_`, has the value of the field, and assigning to it changes no byte of a bank but the field's. `Save`
then writes this change back to a thread that had the registers of the object, and no other. -/
structure IsField (L : Layout .aarch64) (U : IntType) (reg : Register) (field : ArmField64) : Prop where
  inside : reg.pointer L + U.bits / 8 ≤ 4 * L.count .armThreadState64
  reads : ∀ mem, (reg.value L U mem).setWidth 64 = (field.value mem).setWidth 64
  writes : ∀ val mem, (field.value (reg.assign L U val mem)).setWidth 64 = val.setWidth 64
  frame : ∀ val mem, ∀ f ∈ ThreadStateClass.aarch64.flavors, ∀ i < 4 * L.count f,
    (f = .armThreadState64 → ¬field.Covers i) → reg.assign L U val mem (L.start f + i) = mem (L.start f + i)
  saved : ∀ val mem env n th, Env.AllSucceed env → L.Holds th mem →
    let st := L.threadState th.port ThreadStateClass.aarch64.registers (reg.assign L U val mem)
    L.Holds (st.save env n th).2 (reg.assign L U val mem) ∧
      ∀ f ∈ ThreadStateClass.aarch64.flavors, ∀ i < L.count f,
        (f = .armThreadState64 → ∀ k < 4, ¬field.Covers (4 * i + k)) → (st.save env n th).2.regs f i = th.regs f i

/-- `state[key]`, used as a `U`, is the field that `key` names. -/
def NamesField (L : Layout .aarch64) (key : String) (U : IntType) : Prop :=
  ∃ reg field, subscript ThreadStateClass.aarch64.registers key = some reg ∧
    ArmField64.named (upperCase key) = some field ∧ IsField L U reg field

theorem eight_dvd_bits (U : IntType) : 8 ∣ U.bits := by cases U <;> decide

variable {L : Layout .aarch64} {U : IntType} {reg : Register} {field : ArmField64}

/-- No bank but the first has a byte of a field. -/
theorem not_covers (L : Layout .aarch64) {f : Flavor} (hf : f ∈ ThreadStateClass.aarch64.flavors) {i : Nat}
    (hout : f = .armThreadState64 → ¬field.Covers i) : ¬field.Covers (L.start f + i) := by
  by_cases hgeneral : f = .armThreadState64
  · subst hgeneral
    rw [show L.start .armThreadState64 = 0 from L.start_general, Nat.zero_add]
    exact hout rfl
  · have hstart : 272 ≤ L.start f := L.le_start f hf hgeneral
    have hend := field.offset_add_le
    rintro ⟨-, hlt⟩
    omega

theorem IsField.covers (h : IsField L U reg field) {p : Nat} (hp : reg.pointer L ≤ p)
    (hlt : p < reg.pointer L + U.bits / 8) : field.Covers p := by
  by_contra hout
  have hstart : L.start .armThreadState64 = 0 := L.start_general
  have hmem : Flavor.armThreadState64 ∈ ThreadStateClass.aarch64.flavors := by decide
  have hframe := h.frame (BitVec.allOnes U.bits) (fun _ => 0) .armThreadState64 hmem p
    (by have := h.inside; omega) fun _ => hout
  rw [hstart, Nat.zero_add] at hframe
  have hbyte := congrArg (BitVec.getLsbD · 0) ((store_inside hp hlt).symm.trans hframe)
  rcases eight_dvd_bits U with ⟨k, hk⟩
  have hbit : 8 * (p - reg.pointer L) < U.bits := by omega
  simp [hbit] at hbyte

theorem IsField.covered (h : IsField L U reg field) {p : Nat} (hp : field.Covers p) :
    reg.pointer L ≤ p ∧ p < reg.pointer L + U.bits / 8 := by
  by_contra hout
  have hkept : reg.assign L U 0 (fun _ => BitVec.allOnes 8) p = BitVec.allOnes 8 := store_outside (by omega)
  have hbits : field.type.bits ≤ 64 := by cases field.type <;> decide
  rcases eight_dvd_bits field.type with ⟨k, hk⟩
  rcases hp with ⟨hle, hlt⟩
  have hbyte : field.offset + 8 * (p - field.offset) / 8 = p := by omega
  -- the lowest bit of the byte at `p`
  have hone : (field.value (reg.assign L U 0 fun _ => BitVec.allOnes 8)).getLsbD (8 * (p - field.offset)) = true := by
    rw [ArmField64.value, getLsbD_load, hbyte, hkept, Nat.mul_mod_right, decide_eq_true (by omega)]
    rfl
  have hzero : ((field.value (reg.assign L U 0 fun _ => BitVec.allOnes 8)).setWidth 64).getLsbD
      (8 * (p - field.offset)) = false := by
    rw [h.writes]; simp
  rw [BitVec.getLsbD_setWidth, hone, decide_eq_true (by omega)] at hzero
  cases hzero

theorem isField_iff : IsField L U reg field ↔ reg.pointer L = field.offset ∧ U = field.type := by
  constructor
  · intro h
    have hn : 0 < U.bits / 8 := by cases U <;> decide
    have hm : 0 < field.type.bits / 8 := by cases field.type <;> decide
    have hfirst := h.covers (Nat.le_refl _) (by omega)
    have hlast := h.covers (p := reg.pointer L + U.bits / 8 - 1) (by omega) (by omega)
    have hfirst' := h.covered (p := field.offset) ⟨Nat.le_refl _, by omega⟩
    have hlast' := h.covered (p := field.offset + field.type.bits / 8 - 1) ⟨by omega, by omega⟩
    unfold ArmField64.Covers at hfirst hlast
    have hpointer : reg.pointer L = field.offset := by omega
    have hsize : U.bits / 8 = field.type.bits / 8 := by omega
    refine ⟨hpointer, ?_⟩
    revert hsize
    cases U <;> cases field.type <;> decide
  · rintro ⟨hpointer, rfl⟩
    have hframe : ∀ (val : BitVec field.type.bits) mem p, ¬field.Covers p →
        reg.assign L field.type val mem p = mem p := by
      intro val mem p hout
      rw [Register.assign, hpointer]
      exact store_outside (by unfold ArmField64.Covers at hout; omega)
    refine ⟨?_, fun mem => ?_, fun val mem => ?_, ?_, ?_⟩
    · rw [hpointer, show L.count .armThreadState64 = 68 from L.count_general]
      exact field.offset_add_le
    · rw [Register.value, hpointer]; rfl
    · rw [Register.assign, hpointer, ArmField64.value, load_store (eight_dvd_bits _)]
    · intro val mem f hf i _ hout
      exact hframe val mem _ (not_covers L hf hout)
    · intro val mem env n th hk hth
      refine ⟨L.holds_save hk _ _ n th, fun f hf i hi hout => ?_⟩
      rw [L.holds_save hk _ _ n th f hf i hi, hth f hf i hi]
      refine load_congr fun p hp hlt => hframe val mem p ?_
      obtain ⟨k, hk4, rfl⟩ : ∃ k < 4, p = L.start f + (4 * i + k) := ⟨p - (L.start f + 4 * i), by omega, by omega⟩
      exact not_covers L hf fun hgeneral => hout hgeneral k hk4

theorem Layout.word64_banks {cls : ThreadStateClass} (L : Layout cls) (mem : Memory) (f : Flavor) (k : Nat) :
    (L.banks mem f).word64 k = load mem (L.start f + 8 * k) 64 := by
  have hlow : L.start f + 4 * (2 * k) = L.start f + 8 * k := by omega
  have hhigh : L.start f + 4 * (2 * k + 1) = L.start f + 8 * k + 32 / 8 := by omega
  rw [Bank.word64, Layout.banks, Layout.banks, hlow, hhigh]
  exact load_append (by decide)

/-- `__pc` is what `CurrentAddress` returns. -/
theorem value_pc (L : Layout .aarch64) (thread : MachPort) (registers : List Register) (mem : Memory) :
    ArmField64.pc.value mem = (L.threadState thread registers mem).currentAddress .arm64 := by
  have hstart : L.start .armThreadState64 = 0 := L.start_general
  show load mem 256 64 = ((L.banks mem .armThreadState64).word64 32).setWidth 64
  rw [L.word64_banks, hstart, BitVec.setWidth_eq]

/-! ### The names -/

def generalNames : List String :=
  ["X0", "X1", "X2", "X3", "X4", "X5", "X6", "X7", "X8", "X9", "X10", "X11", "X12", "X13", "X14", "X15", "X16", "X17",
    "X18", "X19", "X20", "X21", "X22", "X23", "X24", "X25", "X26", "X27", "X28", "X29", "X30"]

/-- The table is right about `X0` to `X30` as 64-bit registers and about `CPSR` and `PAD` as 32-bit ones, and about
nothing else. -/
theorem namesField_iff (L : Layout .aarch64) (key : String) (U : IntType) :
    NamesField L key U ↔
      upperCase key ∈ generalNames ∧ U = .u64 ∨ upperCase key ∈ ["CPSR", "PAD"] ∧ U = .u32 := by
  have hstart : L.start .armThreadState64 = 0 := L.start_general
  simp only [NamesField, isField_iff, subscript]
  generalize upperCase key = name
  constructor
  · rintro ⟨reg, field, hreg, hfield, hpointer, rfl⟩
    have hname : reg.name = name := by simpa using List.find?_some hreg
    subst hname
    have htable : ∀ reg ∈ ThreadStateClass.aarch64.registers, reg.bank = .armThreadState64 ∧
        ∀ field ∈ ArmField64.named reg.name, 4 * reg.word = field.offset →
          reg.name ∈ generalNames ∧ field.type = .u64 ∨ reg.name ∈ ["CPSR", "PAD"] ∧ field.type = .u32 := by
      decide
    rcases htable reg (List.mem_of_find?_eq_some hreg) with ⟨hbank, hplace⟩
    refine hplace field hfield ?_
    rw [← hpointer, Register.pointer, hbank, hstart, Nat.zero_add]
  · intro h
    have htable : ∀ e ∈ (generalNames.map fun name => (name, IntType.u64)) ++ [("CPSR", .u32), ("PAD", .u32)],
        ∃ reg ∈ ThreadStateClass.aarch64.registers.find? fun reg => reg.name = e.1,
          ∃ field ∈ ArmField64.named e.1,
            reg.bank = .armThreadState64 ∧ 4 * reg.word = field.offset ∧ e.2 = field.type := by
      decide
    have hmem : (name, U) ∈ (generalNames.map fun name => (name, IntType.u64)) ++ [("CPSR", .u32), ("PAD", .u32)] := by
      rcases h with ⟨hname, rfl⟩ | ⟨hname, rfl⟩
      · exact List.mem_append_left _ (List.mem_map_of_mem hname)
      · refine List.mem_append_right _ ?_
        simpa using hname
    rcases htable _ hmem with ⟨reg, hreg, field, hfield, hbank, hplace, htype⟩
    refine ⟨reg, field, hreg, hfield, ?_, htype⟩
    rw [Register.pointer, hbank, hstart, Nat.zero_add, hplace]

/-- An object that has the other banks behind `thread_state_`, 1024 bytes apart. -/
def sampleLayout : Layout .aarch64 where
  start
    | .armThreadState64 => 0
    | .armNeonState64 => 1024
    | .armExceptionState64 => 2048
    | _ => 3072
  count
    | .armThreadState64 => 68
    | .armNeonState64 => 130
    | .armExceptionState64 => 4
    | _ => 130
  start_general := rfl
  count_general := rfl
  le_start := by decide

/-- `PC` points behind `thread_state_`: with `0x1000` in `__pc` and zero everywhere else it reads zero. -/
theorem not_namesField_pc : ¬NamesField sampleLayout "PC" .u64 := by
  rintro ⟨reg, field, hreg, hfield, h⟩
  have hpc : subscript ThreadStateClass.aarch64.registers "PC" = some ⟨"PC", .armThreadState64, 68⟩ := by decide
  have hnamed : ArmField64.named (upperCase "PC") = some .pc := by decide
  obtain rfl := Option.some.inj (hpc.symm.trans hreg)
  obtain rfl := Option.some.inj (hnamed.symm.trans hfield)
  have hreads := h.reads fun p => if p = 257 then 0x10 else 0
  revert hreads; decide +kernel

end MasterLib
