import MasterLib.Overlay

/-!
# The kernel side of a debugging session

`Task` is what the kernel holds of the debugged process: memory, page protections, threads with their
register banks. A kernel call either succeeds and has its documented effect or fails and has none;
which of the two, and what uninitialised memory holds, is read off an `Env` at the number of kernel
calls made so far, so a theorem over every `Env` is one over every pattern of failures.
-/

namespace MasterLib
open Overlay

abbrev Byte := BitVec 8

/-- The architecture the library is compiled for (`__i386__`, `__x86_64__`, `__arm__`, `__arm64__`). -/
inductive Build
  | i386 | x86_64 | arm | arm64
deriving DecidableEq, Repr

namespace Build

abbrev addrBits : Build → Nat
  | .i386 | .arm => 32
  | .x86_64 | .arm64 => 64

def pageSize : Build → Nat
  | .i386 | .x86_64 | .arm => 4096
  | .arm64 => 16384

theorem addrBits_le (b : Build) : b.addrBits ≤ 64 := by cases b <;> decide

theorem le_addrBits (b : Build) : 32 ≤ b.addrBits := by cases b <;> decide

end Build

abbrev VmAddress (b : Build) := BitVec b.addrBits

/-- `int`; zero is success. -/
abbrev KernReturn := Int

def kernSuccess : KernReturn := 0
def kernInvalidAddress : KernReturn := 1
def kernFailure : KernReturn := 5

abbrev VmProt := BitVec 32

def vmProtRead : VmProt := 0x01
def vmProtWrite : VmProt := 0x02
def vmProtExecute : VmProt := 0x04
def vmProtCopy : VmProt := 0x10

abbrev MachPort := Nat

/-! ### Threads -/

/-- The `thread_state_flavor_t`s the thread-state classes ask for. -/
inductive Flavor
  | x86ThreadState64 | x86DebugState64
  | x86ThreadState32 | x86DebugState32
  | armThreadState | armVfpState | armNeonState | armExceptionState | armDebugState
  | armThreadState64 | armNeonState64 | armExceptionState64 | armDebugState64
deriving DecidableEq, Repr

/-- A register bank as `thread_state_t` passes it: consecutive 32-bit words (`natural_t`). -/
abbrev Bank := Nat → BitVec 32

abbrev Banks := Flavor → Bank

namespace Bank

/-- The `k`th 64-bit field of a bank, low word first. -/
def word64 (bank : Bank) (k : Nat) : BitVec 64 := bank (2 * k + 1) ++ bank (2 * k)

def setWord64 (bank : Bank) (k : Nat) (v : BitVec 64) : Bank := fun i =>
  if i = 2 * k then v.extractLsb' 0 32 else if i = 2 * k + 1 then v.extractLsb' 32 32 else bank i

variable {bank : Bank} {j k : Nat} {v : BitVec 64}

@[simp] theorem word64_setWord64 : (bank.setWord64 k v).word64 k = v := by
  have h : 2 * k + 1 ≠ 2 * k := by omega
  simp only [word64, setWord64, h, ↓reduceIte]
  exact BitVec.extractLsb'_append_extractLsb'

theorem word64_setWord64_of_ne (h : j ≠ k) : (bank.setWord64 k v).word64 j = bank.word64 j := by
  have h₁ : 2 * j ≠ 2 * k := by omega
  have h₂ : 2 * j ≠ 2 * k + 1 := by omega
  have h₃ : 2 * j + 1 ≠ 2 * k := by omega
  have h₄ : 2 * j + 1 ≠ 2 * k + 1 := by omega
  simp only [word64, setWord64, h₁, h₂, h₃, h₄, ↓reduceIte]

end Bank

/-- A thread of the task; only the banks of the machine's own architecture mean anything. -/
structure Thread where
  port : MachPort
  suspendCount : Nat
  regs : Banks

/-! ### The task -/

/-- The debugged task. `kinfo` is what `sysctl(KERN_PROC_PID)` answers: nothing on an error, else
whether `P_LP64` is set. `calls` counts the kernel calls made. -/
structure Task (b : Build) where
  mem : VmAddress b → Byte
  prot : Nat → VmProt
  threads : List Thread
  kinfo : Option Bool
  calls : Nat

/-- `kr n` is the status of kernel call `n`, `stack n` what an uninitialised local buffer holds at that
time, `heap n` the register banks of an object allocated then. `self` is `mach_thread_self()`. -/
structure Env where
  kr : Nat → KernReturn
  stack : Nat → Nat → Byte
  heap : Nat → Banks
  self : MachPort

def Env.AllSucceed (env : Env) : Prop := ∀ n, env.kr n = kernSuccess

/-- The first of the `n` kernel calls from `c` on to fail, counted from `c`. -/
def Env.firstFailure (env : Env) (c : Nat) : Nat → Option Nat
  | 0 => none
  | n + 1 =>
    if env.kr c ≠ kernSuccess then some 0 else (env.firstFailure (c + 1) n).map (· + 1)

theorem Env.firstFailure_ok {env : Env} (hk : env.AllSucceed) (c n : Nat) : env.firstFailure c n = none := by
  induction n generalizing c with
  | zero => rfl
  | succ n ih => rw [firstFailure, if_neg (by simp [hk c]), ih, Option.map_none]

theorem Env.firstFailure_lt {env : Env} {c n i : Nat} (h : env.firstFailure c n = some i) : i < n := by
  induction n generalizing c i with
  | zero => cases h
  | succ n ih =>
    rw [firstFailure] at h
    split at h
    · cases h; omega
    · obtain ⟨j, hj, rfl⟩ := Option.map_eq_some_iff.1 h
      exact Nat.succ_lt_succ (ih hj)

theorem Env.firstFailure_add (env : Env) (c m n : Nat) : env.firstFailure c (m + n) =
    (env.firstFailure c m).or ((env.firstFailure (c + m) n).map (· + m)) := by
  induction m generalizing c with
  | zero => simp [firstFailure]
  | succ m ih =>
    rw [Nat.add_right_comm, firstFailure, firstFailure, ih, Nat.add_right_comm c 1 m]
    split
    · rfl
    · cases env.firstFailure (c + 1) m with
      | some i => rfl
      | none =>
        cases env.firstFailure (c + m + 1) n with
        | none => rfl
        | some i => simp [Nat.add_assoc]

/-- The kernel calls numbered in `failing` fail, everything uninitialised holds zero. -/
def Env.failAt (failing : List Nat) : Env where
  kr n := if n ∈ failing then kernFailure else kernSuccess
  stack _ _ := 0
  heap _ _ _ := 0
  self := 0

theorem Env.allSucceed_failAt_nil : (Env.failAt []).AllSucceed := fun _ => rfl

variable {b : Build}

/-- Page `pg` meets the `size` bytes from `a` on. -/
abbrev Touches (a : VmAddress b) (size pg : Nat) : Prop :=
  size ≠ 0 ∧ a.toNat / b.pageSize ≤ pg ∧ pg * b.pageSize < a.toNat + size

def protect (prot : Nat → VmProt) (a : VmAddress b) (size : Nat) (p : VmProt) : Nat → VmProt :=
  fun pg => if Touches a size pg then p else prot pg

theorem protect_protect (prot : Nat → VmProt) (a : VmAddress b) (size : Nat) (p q : VmProt) :
    protect (protect prot a size p) a size q = protect prot a size q := by
  funext pg; simp only [protect]; split <;> rfl

theorem protect_eq_self_iff {prot : Nat → VmProt} {a : VmAddress b} {size : Nat} {p : VmProt} :
    protect prot a size p = prot ↔ ∀ pg, Touches a size pg → prot pg = p := by
  constructor
  · intro h pg hpg
    have := congrFun h pg
    rw [protect, if_pos hpg] at this; exact this.symm
  · intro h; funext pg
    by_cases hpg : Touches a size pg
    · rw [protect, if_pos hpg, h pg hpg]
    · rw [protect, if_neg hpg]

/-! ### Kernel calls -/

def Task.tick (t : Task b) : Task b := { t with calls := t.calls + 1 }

/-- On failure the buffer keeps what the stack held. -/
def vmReadOverwrite (env : Env) (address : VmAddress b) (size : Nat) (t : Task b) :
    KernReturn × List Byte × Task b :=
  let status := env.kr t.calls
  if status = kernSuccess then (status, readBytes t.mem address size, t.tick)
  else (status, (List.range size).map (env.stack t.calls), t.tick)

/-- The bytes of `data` that `vm_write` is told to copy: its `dataCnt` is a `mach_msg_type_number_t` of 32 bits. -/
def sent (data : List Byte) : List Byte := data.take (data.length % 2 ^ 32)

def vmWrite (env : Env) (address : VmAddress b) (data : List Byte) (t : Task b) :
    KernReturn × Task b :=
  let status := env.kr t.calls
  if status = kernSuccess then (status, { t.tick with mem := overlay t.mem address (sent data) })
  else (status, t.tick)

theorem sent_of_lt {data : List Byte} (h : data.length < 2 ^ 32) : sent data = data := by
  rw [sent, Nat.mod_eq_of_lt h, List.take_length]

@[simp] theorem sent_nil : sent [] = [] := rfl

@[simp] theorem length_sent (data : List Byte) : (sent data).length = data.length % 2 ^ 32 :=
  List.length_take_of_le (Nat.mod_le ..)

theorem length_sent_le (data : List Byte) : (sent data).length ≤ data.length := by
  rw [length_sent]
  exact Nat.mod_le ..

theorem length_sent_lt (data : List Byte) : (sent data).length < 2 ^ b.addrBits :=
  calc (sent data).length = data.length % 2 ^ 32 := length_sent data
    _ < 2 ^ 32 := Nat.mod_lt _ (by decide)
    _ ≤ 2 ^ b.addrBits := Nat.pow_le_pow_right (by omega) b.le_addrBits

/-- `VM_PROT_COPY` asks for a copy-on-write entry and is not stored. -/
def vmProtect (env : Env) (address : VmAddress b) (size : Nat) (newProt : VmProt) (t : Task b) :
    KernReturn × Task b :=
  let status := env.kr t.calls
  if status = kernSuccess then
    (status, { t.tick with prot := protect t.prot address size (newProt &&& ~~~vmProtCopy) })
  else (status, t.tick)

/-- Kernel call `n`: the bank of flavor `f` of `th` into the banks `dst` of an object. -/
def threadGetState (env : Env) (n : Nat) (th : Thread) (f : Flavor) (dst : Banks) : Banks :=
  if env.kr n = kernSuccess then Function.update dst f (th.regs f) else dst

theorem threadGetState_self {env : Env} {n : Nat} {th : Thread} {f : Flavor} {dst : Banks} :
    threadGetState env n th f dst f = if env.kr n = kernSuccess then th.regs f else dst f := by
  unfold threadGetState
  split
  · exact Function.update_self ..
  · rfl

theorem threadGetState_of_ne {env : Env} {n : Nat} {th : Thread} {f g : Flavor} {dst : Banks} (h : g ≠ f) :
    threadGetState env n th f dst g = dst g := by
  unfold threadGetState
  split
  · exact Function.update_of_ne h ..
  · rfl

/-- Kernel call `n`: the bank of flavor `f` of an object into the registers of `th`. -/
def threadSetState (env : Env) (n : Nat) (f : Flavor) (src : Banks) (th : Thread) : Thread :=
  if env.kr n = kernSuccess then { th with regs := Function.update th.regs f (src f) } else th

def threadSuspend (th : Thread) : Thread := { th with suspendCount := th.suspendCount + 1 }

def threadResume (th : Thread) : Thread := { th with suspendCount := th.suspendCount - 1 }

end MasterLib
