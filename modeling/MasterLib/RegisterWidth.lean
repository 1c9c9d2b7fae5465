import MasterLib.RegisterAccess

/-!
# `state[key] = v` for a `v` of another width

`operator=(U)` writes as many bytes as `U` has. A narrower write leaves the upper bytes of the register, a wider one
clears what lies behind it. On AArch64 `SP`, `CPSR` and `PAD` share their bytes, and `PC` lies behind `thread_state_`.
-/

namespace MasterLib
open LittleEndian

variable {cls : ThreadStateClass} {reg reg' : Register} {U : IntType} {v : BitVec U.bits} {mem : Memory} {p : Nat}
  {key : String}

namespace Register

/-- The type of the register, as `Description` reads it. -/
def type (cls : ThreadStateClass) (reg : Register) : IntType :=
  if cls = .aarch64 ∧ reg.name ∈ ["CPSR", "PAD"] then .u32 else cls.own

/-- Byte `p` of the object is one of the register. -/
def Covers (L : Layout cls) (reg : Register) (p : Nat) : Prop :=
  reg.pointer L ≤ p ∧ p < reg.pointer L + (reg.type cls).bits / 8

/-- The registers of AArch64 that are not alone at their place. -/
def Misplaced (cls : ThreadStateClass) (reg : Register) : Prop :=
  cls = .aarch64 ∧ reg.name ∈ ["SP", "PC", "CPSR", "PAD"]

instance : Decidable (reg.Misplaced cls) := inferInstanceAs (Decidable (_ ∧ _))

end Register

/-- Byte `p` of the object is one of bank `f`. -/
def Layout.InBank (L : Layout cls) (f : Flavor) (p : Nat) : Prop := L.start f ≤ p ∧ p < L.start f + 4 * L.count f

/-- The register becomes `v`, and no other register or bank changes. -/
structure RespectsWidth (L : Layout cls) (reg : Register) (U : IntType) (v : BitVec U.bits) (mem : Memory) : Prop where
  whole : (reg.value L (reg.type cls) (reg.assign L U v mem)).toNat = v.toNat
  registers : ∀ reg' ∈ cls.registers, reg'.name ≠ reg.name →
    reg'.value L (reg'.type cls) (reg.assign L U v mem) = reg'.value L (reg'.type cls) mem
  banks : ∀ f ∈ cls.flavors, ∀ p, L.InBank f p → (f = reg.bank → ¬reg.Covers L p) → reg.assign L U v mem p = mem p

/-- Byte `p` belongs to a bank or to a register. -/
def Layout.Occupied (L : Layout cls) (p : Nat) : Prop :=
  (∃ f ∈ cls.flavors, L.InBank f p) ∨ ∃ reg ∈ cls.registers, reg.Covers L p

/-- Byte `p` belongs to another bank or register than `reg`. -/
def Layout.Foreign (L : Layout cls) (reg : Register) (p : Nat) : Prop :=
  (∃ f ∈ cls.flavors, f ≠ reg.bank ∧ L.InBank f p) ∨
    ∃ reg' ∈ cls.registers, reg'.name ≠ reg.name ∧ reg'.Covers L p

/-- What the register held fits `U`, what a wider `U` reaches behind it is zero, and what a register shares with
others is as assigned. -/
structure WidthFits (L : Layout cls) (reg : Register) (U : IntType) (v : BitVec U.bits) (mem : Memory) : Prop where
  narrow : (reg.value L (reg.type cls) mem).toNat < 2 ^ U.bits
  behind : ∀ p, reg.pointer L + (reg.type cls).bits / 8 ≤ p → p < reg.pointer L + U.bits / 8 → L.Occupied p → mem p = 0
  shared : reg.Misplaced cls → ∀ p, reg.Covers L p → p < reg.pointer L + U.bits / 8 → L.Foreign reg p →
    mem p = v.extractLsb' (8 * (p - reg.pointer L)) 8

/-! ### The places of the table -/

theorem bank_of_mem_registers (hreg : reg ∈ cls.registers) : reg.bank = cls.general := by
  have htable : ∀ reg ∈ cls.registers, reg.bank = cls.general := by cases cls <;> decide
  exact htable reg hreg

theorem eq_of_name_eq (hreg : reg ∈ cls.registers) (hreg' : reg' ∈ cls.registers) (h : reg'.name = reg.name) :
    reg' = reg := by
  have hnames : (cls.registers.map Register.name).Nodup := by cases cls <;> decide
  exact List.inj_on_of_nodup_map hnames hreg' hreg h

theorem word_add_le (hreg : reg ∈ cls.registers) (hplace : ¬reg.Misplaced cls) :
    4 * reg.word + (reg.type cls).bits / 8 ≤ 4 * cls.generalCount := by
  have htable : ∀ reg ∈ cls.registers, ¬reg.Misplaced cls →
      4 * reg.word + (reg.type cls).bits / 8 ≤ 4 * cls.generalCount := by
    cases cls <;> decide
  exact htable reg hreg hplace

theorem word_apart (hreg : reg ∈ cls.registers) (hreg' : reg' ∈ cls.registers) (hplace : ¬reg.Misplaced cls)
    (hne : reg'.name ≠ reg.name) : 4 * reg.word + (reg.type cls).bits / 8 ≤ 4 * reg'.word ∨
      4 * reg'.word + (reg'.type cls).bits / 8 ≤ 4 * reg.word := by
  have htable : ∀ reg ∈ cls.registers, ∀ reg' ∈ cls.registers, ¬reg.Misplaced cls → reg'.name ≠ reg.name →
      4 * reg.word + (reg.type cls).bits / 8 ≤ 4 * reg'.word ∨
        4 * reg'.word + (reg'.type cls).bits / 8 ≤ 4 * reg.word := by
    cases cls <;> decide +kernel
  exact htable reg hreg reg' hreg' hplace hne

/-- Nothing else is where a register that is alone at its place is. -/
theorem not_foreign (L : Layout cls) (hreg : reg ∈ cls.registers) (hplace : ¬reg.Misplaced cls) (hp : reg.Covers L p) :
    ¬L.Foreign reg p := by
  have hbank := bank_of_mem_registers hreg
  have hend := word_add_le hreg hplace
  rw [Register.Covers, Register.pointer, hbank, L.start_general] at hp
  rintro (⟨f, hf, hne, hin⟩ | ⟨reg', hreg', hne, hp'⟩)
  · have hstart := L.le_start f hf (hbank ▸ hne)
    rw [Layout.InBank] at hin
    omega
  · have hapart := word_apart hreg hreg' hplace hne
    rw [Register.Covers, Register.pointer, bank_of_mem_registers hreg', L.start_general] at hp'
    omega

/-! ### What an assignment changes -/

theorem value_eq_iff {L : Layout cls} {mem' : Memory} :
    reg.value L (reg.type cls) mem' = reg.value L (reg.type cls) mem ↔ ∀ p, reg.Covers L p → mem' p = mem p := by
  rcases eight_dvd_bits (reg.type cls) with ⟨m, hm⟩
  constructor
  · rintro h p ⟨hle, hlt⟩
    obtain ⟨k, rfl⟩ : ∃ k, p = reg.pointer L + k := ⟨p - reg.pointer L, by omega⟩
    have hbyte := congrArg (BitVec.extractLsb' (8 * k) 8) h
    rw [Register.value, Register.value, extractLsb'_load (by omega), extractLsb'_load (by omega)] at hbyte
    exact hbyte
  · intro h
    refine load_congr fun p hle hlt => h p ⟨hle, ?_⟩
    omega

theorem assign_inside {L : Layout cls} (hle : reg.pointer L ≤ p) (hlt : p < reg.pointer L + U.bits / 8) :
    reg.assign L U v mem p = v.extractLsb' (8 * (p - reg.pointer L)) 8 := store_inside hle hlt

theorem assign_outside {L : Layout cls} (h : p < reg.pointer L ∨ reg.pointer L + U.bits / 8 ≤ p) :
    reg.assign L U v mem p = mem p := store_outside h

theorem assign_behind {L : Layout cls} (hfit : v.toNat < 2 ^ (reg.type cls).bits)
    (hle : reg.pointer L + (reg.type cls).bits / 8 ≤ p) (hlt : p < reg.pointer L + U.bits / 8) :
    reg.assign L U v mem p = 0 := by
  rcases eight_dvd_bits (reg.type cls) with ⟨m, hm⟩
  rw [assign_inside (by omega) hlt, extractLsb'_of_fits hfit (by omega)]

/-- All that is not the register keeps its bytes. -/
theorem respectsWidth_iff_forall {L : Layout cls} (hreg : reg ∈ cls.registers)
    (hfit : v.toNat < 2 ^ (reg.type cls).bits) : RespectsWidth L reg U v mem ↔
      (reg.value L (reg.type cls) mem).toNat < 2 ^ U.bits ∧
      ∀ p, (L.Foreign reg p ∨ L.Occupied p ∧ ¬reg.Covers L p) → reg.assign L U v mem p = mem p := by
  have hwhole : (reg.value L (reg.type cls) (reg.assign L U v mem)).toNat = v.toNat ↔
      (reg.value L (reg.type cls) mem).toNat < 2 ^ U.bits := toNat_load_store_iff (eight_dvd_bits U) hfit
  constructor
  · intro h
    refine ⟨hwhole.1 h.whole, ?_⟩
    rintro p ((⟨f, hf, hne, hin⟩ | ⟨reg', hreg', hne, hp⟩) | ⟨⟨f, hf, hin⟩ | ⟨reg', hreg', hp⟩, hout⟩)
    · exact h.banks f hf p hin fun he => absurd he hne
    · exact value_eq_iff.1 (h.registers reg' hreg' hne) p hp
    · exact h.banks f hf p hin fun _ => hout
    · by_cases hname : reg'.name = reg.name
      · obtain rfl := eq_of_name_eq hreg hreg' hname
        exact absurd hp hout
      · exact value_eq_iff.1 (h.registers reg' hreg' hname) p hp
  · rintro ⟨hold, hkept⟩
    refine ⟨hwhole.2 hold, fun reg' hreg' hne => ?_, fun f hf p hin hout => ?_⟩
    · exact value_eq_iff.2 fun p hp => hkept p (.inl (.inr ⟨reg', hreg', hne, hp⟩))
    · by_cases hf' : f = reg.bank
      · exact hkept p (.inr ⟨.inl ⟨f, hf, hin⟩, hout hf'⟩)
      · exact hkept p (.inl (.inl ⟨f, hf, hf', hin⟩))

/-- An assignment of the register's own type always does, on x64, x86 and ARMv7. -/
theorem widthFits_own (L : Layout cls) (hcls : cls ≠ .aarch64) (reg : Register) (v : BitVec (reg.type cls).bits)
    (mem : Memory) : WidthFits L reg (reg.type cls) v mem where
  narrow := (reg.value L (reg.type cls) mem).isLt
  behind _ hle hlt := absurd hlt (Nat.not_lt.2 hle)
  shared hplace := absurd hplace.1 hcls

end MasterLib
