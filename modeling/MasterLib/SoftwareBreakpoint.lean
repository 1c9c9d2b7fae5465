import MasterLib.Process

/-!
# Software breakpoints

`Apply` saves the bytes at `address_` and writes the trap opcode over them, `Reset` writes the saved
bytes back. The three classes have the same fields and differ in the opcode, in how they keep the saved
bytes (`push_back` on x86_64, `assign` on ARMv7 and THUMB) and in whether they maintain `active_`
(x86_64 only). `apply_eq` and `reset_eq` say this once for all three.
-/

namespace MasterLib
open Overlay

/-- What a callback leaves of the thread state it is called with; nothing if it throws. It cannot reach `thread_`, which
is protected, nor can it change the class of the object. -/
structure Callback where
  run : ThreadState → Option ThreadState
  keeps : ∀ {st st'}, run st = some st' → st'.cls = st.cls ∧ st'.thread = st.thread

/-- A callback that only reads. -/
def Callback.reading : Callback where
  run := some
  keeps h := by obtain rfl := Option.some.inj h; exact ⟨rfl, rfl⟩

/-- `class Breakpoint`. The constructor leaves `active_` uninitialised. -/
structure BreakpointBase (b : Build) where
  active : Bool
  address : VmAddress b
  callback : Option Callback

inductive SoftwareKind
  | x86_64 | armv7 | thumbv7
deriving DecidableEq, Repr

structure SoftwareBreakpoint (b : Build) extends BreakpointBase b where
  kind : SoftwareKind
  originalOpcode : List Byte

variable {b : Build} {env : Env}

/-- The constructors: nothing saved, `active_` as the allocation found it. -/
def SoftwareBreakpoint.new (kind : SoftwareKind) (found : Bool) (address : VmAddress b) :
    SoftwareBreakpoint b :=
  ⟨⟨found, address, none⟩, kind, []⟩

namespace X86_64SoftwareBreakpoint

def opcode : List Byte := [0xCC]

def apply (env : Env) (bp : SoftwareBreakpoint b) (t : Task b) :
    Bool × SoftwareBreakpoint b × Task b :=
  let bp := { bp with active := true }
  let (failed, original, t) := readMemory env bp.address 1 t
  if failed then (false, bp, t)
  else
    let bp := { bp with originalOpcode := bp.originalOpcode ++ [original.headD 0] }
    let (ok, t) := writeMemory env bp.address opcode true t
    (ok, bp, t)

def reset (env : Env) (bp : SoftwareBreakpoint b) (t : Task b) :
    Bool × SoftwareBreakpoint b × Task b :=
  let bp := { bp with active := false }
  let (ok, t) := writeMemory env bp.address bp.originalOpcode true t
  (ok, bp, t)

end X86_64SoftwareBreakpoint

/-- The common body of `ARMv7SoftwareBreakpoint::Apply` and `THUMBv7SoftwareBreakpoint::Apply`. -/
def applyAssign (opcode : List Byte) (env : Env) (bp : SoftwareBreakpoint b) (t : Task b) :
    Bool × SoftwareBreakpoint b × Task b :=
  let (failed, original, t) := readMemory env bp.address opcode.length t
  if failed then (false, bp, t)
  else
    let bp := { bp with originalOpcode := original }
    let (ok, t) := writeMemory env bp.address opcode true t
    (ok, bp, t)

namespace ARMv7SoftwareBreakpoint

def opcode : List Byte := [0x70, 0x00, 0x20, 0xE1]

def apply (env : Env) : SoftwareBreakpoint b → Task b → Bool × SoftwareBreakpoint b × Task b :=
  applyAssign opcode env

def reset (env : Env) (bp : SoftwareBreakpoint b) (t : Task b) :
    Bool × SoftwareBreakpoint b × Task b :=
  let (ok, t) := writeMemory env bp.address bp.originalOpcode true t
  (ok, bp, t)

end ARMv7SoftwareBreakpoint

namespace THUMBv7SoftwareBreakpoint

def opcode : List Byte := [0x00, 0xBE]

def apply (env : Env) : SoftwareBreakpoint b → Task b → Bool × SoftwareBreakpoint b × Task b :=
  applyAssign opcode env

def reset (env : Env) : SoftwareBreakpoint b → Task b → Bool × SoftwareBreakpoint b × Task b :=
  ARMv7SoftwareBreakpoint.reset env

end THUMBv7SoftwareBreakpoint

namespace SoftwareBreakpoint

def apply (env : Env) (bp : SoftwareBreakpoint b) (t : Task b) :
    Bool × SoftwareBreakpoint b × Task b :=
  match bp.kind with
  | .x86_64 => X86_64SoftwareBreakpoint.apply env bp t
  | .armv7 => ARMv7SoftwareBreakpoint.apply env bp t
  | .thumbv7 => THUMBv7SoftwareBreakpoint.apply env bp t

def reset (env : Env) (bp : SoftwareBreakpoint b) (t : Task b) :
    Bool × SoftwareBreakpoint b × Task b :=
  match bp.kind with
  | .x86_64 => X86_64SoftwareBreakpoint.reset env bp t
  | .armv7 => ARMv7SoftwareBreakpoint.reset env bp t
  | .thumbv7 => THUMBv7SoftwareBreakpoint.reset env bp t

end SoftwareBreakpoint

/-! ### What the three classes do -/

namespace SoftwareKind

def opcode : SoftwareKind → List Byte
  | .x86_64 => X86_64SoftwareBreakpoint.opcode
  | .armv7 => ARMv7SoftwareBreakpoint.opcode
  | .thumbv7 => THUMBv7SoftwareBreakpoint.opcode

/-- `original_opcode_` after an `Apply` that read `read`. -/
def saved : SoftwareKind → List Byte → List Byte → List Byte
  | .x86_64, old, read => old ++ read
  | _, _, read => read

/-- `active_` after a call that would set it to `new`. -/
def flag : SoftwareKind → Bool → Bool → Bool
  | .x86_64, new, _ => new
  | _, _, old => old

theorem opcode_length_le (k : SoftwareKind) : k.opcode.length ≤ 4 := by cases k <;> decide

theorem sent_of_length {k : SoftwareKind} {data : List Byte} (h : data.length ≤ k.opcode.length) :
    sent data = data := by
  have hlen := k.opcode_length_le
  exact sent_of_lt (by omega)

@[simp] theorem sent_opcode (k : SoftwareKind) : sent k.opcode = k.opcode := sent_of_length (Nat.le_refl _)

theorem opcode_length_le_pow (k : SoftwareKind) (b : Build) : k.opcode.length ≤ 2 ^ b.addrBits :=
  calc k.opcode.length ≤ 4 := k.opcode_length_le
    _ ≤ 2 ^ 32 := by decide
    _ ≤ 2 ^ b.addrBits := Nat.pow_le_pow_right (by omega) b.le_addrBits

theorem saved_nil (k : SoftwareKind) (read : List Byte) : k.saved [] read = read := by cases k <;> rfl

theorem opcode_length_pos (k : SoftwareKind) : 0 < k.opcode.length := by cases k <;> decide

end SoftwareKind

namespace SoftwareBreakpoint
variable {bp : SoftwareBreakpoint b} {t : Task b}

def size (bp : SoftwareBreakpoint b) : Nat := bp.kind.opcode.length

@[simp] theorem sent_readBytes (bp : SoftwareBreakpoint b) (m : VmAddress b → Byte) (a : VmAddress b) :
    sent (readBytes m a bp.size) = readBytes m a bp.size :=
  SoftwareKind.sent_of_length (k := bp.kind) length_readBytes.le

/-- The object after an `Apply` that read `read`, whatever its writes did. -/
def afterApply (bp : SoftwareBreakpoint b) (read : List Byte) : SoftwareBreakpoint b :=
  { bp with
    active := bp.kind.flag true bp.active
    originalOpcode := bp.kind.saved bp.originalOpcode read }

def wasReset (bp : SoftwareBreakpoint b) : SoftwareBreakpoint b :=
  { bp with active := bp.kind.flag false bp.active }

@[simp] theorem address_afterApply (read : List Byte) : (bp.afterApply read).address = bp.address := rfl

@[simp] theorem originalOpcode_afterApply (read : List Byte) :
    (bp.afterApply read).originalOpcode = bp.kind.saved bp.originalOpcode read := rfl

@[simp] theorem address_wasReset : bp.wasReset.address = bp.address := rfl

@[simp] theorem originalOpcode_wasReset : bp.wasReset.originalOpcode = bp.originalOpcode := rfl

theorem singleton_headD_bytesRead (a : VmAddress b) : [(bytesRead env t a 1).headD 0] = bytesRead env t a 1 := by
  have h := length_bytesRead env t a 1
  match hl : bytesRead env t a 1 with
  | [x] => rfl
  | [] => rw [hl] at h; simp at h
  | _ :: _ :: _ => rw [hl] at h; simp at h

/-- `Apply` saves what its read left in the buffer and then makes one forced write. -/
theorem apply_eq : bp.apply env t =
    let w := writeMemory env bp.address bp.kind.opcode true t.tick
    (w.1, bp.afterApply (bytesRead env t bp.address bp.size), w.2) := by
  obtain ⟨⟨act, a, cb⟩, k, sv⟩ := bp
  cases k with
  | x86_64 =>
    simp only [apply, X86_64SoftwareBreakpoint.apply, readMemory_eq, Bool.false_eq_true, ↓reduceIte,
      singleton_headD_bytesRead]
    rfl
  | armv7 | thumbv7 =>
    simp only [apply, ARMv7SoftwareBreakpoint.apply, THUMBv7SoftwareBreakpoint.apply, applyAssign,
      readMemory_eq, Bool.false_eq_true, ↓reduceIte]
    rfl

theorem reset_eq : bp.reset env t =
    let w := writeMemory env bp.address bp.originalOpcode true t
    (w.1, bp.wasReset, w.2) := by
  obtain ⟨⟨act, a, cb⟩, k, sv⟩ := bp
  cases k <;> rfl

theorem apply_ok (hk : env.AllSucceed) : bp.apply env t =
    (true, bp.afterApply (readBytes t.mem bp.address bp.size), { t with
      mem := overlay t.mem bp.address bp.kind.opcode
      prot := protect t.prot bp.address bp.size protRX
      calls := t.calls + 4 }) := by
  rw [apply_eq, writeMemory_ok hk, bytesRead_ok hk, SoftwareKind.sent_opcode]; rfl

end SoftwareBreakpoint

end MasterLib
