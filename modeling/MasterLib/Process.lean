import MasterLib.ThreadState

/-!
# `Process`

Reading and writing the target's memory, the platform of the target, and the thread states of its
threads.
-/

namespace MasterLib
open Overlay

variable {b : Build} {env : Env}

/-! ### Memory -/

/-- `krncall(call); k`. -/
def krncall (call : Task b → KernReturn × Task b) (k : Task b → Bool × Task b) (t : Task b) :
    Bool × Task b :=
  let (status, t) := call t
  if status ≠ kernSuccess then (false, t) else k t

/-- `Process::ReadMemory`: `KERN_SUCCESS`, converted to `bool`, is what a success returns. -/
def readMemory (env : Env) (address : VmAddress b) (size : Nat) (t : Task b) :
    Bool × List Byte × Task b :=
  let (status, output, t) := vmReadOverwrite env address size t
  if status ≠ kernSuccess then (false, output, t)
  else (decide (kernSuccess ≠ 0), output, t)

def writeMemory (env : Env) (address : VmAddress b) (input : List Byte) (force : Bool) (t : Task b) :
    Bool × Task b :=
  if force then
    krncall (vmProtect env address input.length
        (vmProtRead ||| vmProtWrite ||| vmProtExecute ||| vmProtCopy))
      (krncall (vmWrite env address input)
        (krncall (vmProtect env address input.length (vmProtRead ||| vmProtExecute))
          (fun t => (true, t)))) t
  else krncall (vmWrite env address input) (fun t => (true, t)) t

def protRWX : VmProt := vmProtRead ||| vmProtWrite ||| vmProtExecute

def protRX : VmProt := vmProtRead ||| vmProtExecute

/-- What the buffer of a read at kernel call `t.calls` holds. -/
def bytesRead (env : Env) (t : Task b) (address : VmAddress b) (size : Nat) : List Byte :=
  if env.kr t.calls = kernSuccess then readBytes t.mem address size
  else (List.range size).map (env.stack t.calls)

@[simp] theorem length_bytesRead (env : Env) (t : Task b) (a : VmAddress b) (n : Nat) :
    (bytesRead env t a n).length = n := by
  unfold bytesRead; split <;> simp

theorem bytesRead_ok (hk : env.AllSucceed) (t : Task b) (a : VmAddress b) (n : Nat) :
    bytesRead env t a n = readBytes t.mem a n := if_pos (hk _)

/-- Both paths of `ReadMemory` return `false`. -/
theorem readMemory_eq (a : VmAddress b) (n : Nat) (t : Task b) :
    readMemory env a n t = (false, bytesRead env t a n, t.tick) := by
  unfold readMemory vmReadOverwrite bytesRead
  by_cases h : env.kr t.calls = kernSuccess
  · simp [h, kernSuccess]
  · simp [h]

/-- A forced write stops at the first of its three calls that fails, with the earlier ones in effect. -/
theorem writeMemory_eq (a : VmAddress b) (bs : List Byte) (t : Task b) :
    writeMemory env a bs true t =
      match env.firstFailure t.calls 3 with
      | none => (true, { t with
          mem := overlay t.mem a (sent bs)
          prot := protect t.prot a bs.length protRX
          calls := t.calls + 3 })
      | some i => (false, { t with
          mem := if 1 < i then overlay t.mem a (sent bs) else t.mem
          prot := if 0 < i then protect t.prot a bs.length protRWX else t.prot
          calls := t.calls + i + 1 }) := by
  have h₁ : (vmProtRead ||| vmProtWrite ||| vmProtExecute ||| vmProtCopy) &&& ~~~vmProtCopy =
      protRWX := by decide
  have h₂ : (vmProtRead ||| vmProtExecute) &&& ~~~vmProtCopy = protRX := by decide
  simp only [writeMemory, ↓reduceIte, krncall, vmProtect, vmWrite, h₁, h₂, Env.firstFailure]
  by_cases k₀ : env.kr t.calls = kernSuccess
  · by_cases k₁ : env.kr (t.calls + 1) = kernSuccess
    · by_cases k₂ : env.kr (t.calls + 2) = kernSuccess
      · simp [k₀, k₁, k₂, Task.tick, protect_protect]
      · simp [k₀, k₁, k₂, Task.tick]
    · simp [k₀, k₁, Task.tick]
  · simp [k₀, Task.tick]

theorem writeMemory_some {a : VmAddress b} {bs : List Byte} {t : Task b} {i : Nat}
    (h : env.firstFailure t.calls 3 = some i) : writeMemory env a bs true t = (false, { t with
      mem := if 1 < i then overlay t.mem a (sent bs) else t.mem
      prot := if 0 < i then protect t.prot a bs.length protRWX else t.prot
      calls := t.calls + i + 1 }) := by
  simp only [writeMemory_eq, h]

theorem writeMemory_none {a : VmAddress b} {bs : List Byte} {t : Task b}
    (h : env.firstFailure t.calls 3 = none) : writeMemory env a bs true t = (true, { t with
      mem := overlay t.mem a (sent bs)
      prot := protect t.prot a bs.length protRX
      calls := t.calls + 3 }) := by
  simp only [writeMemory_eq, h]

theorem writeMemory_ok (hk : env.AllSucceed) (a : VmAddress b) (bs : List Byte) (t : Task b) :
    writeMemory env a bs true t = (true, { t with
      mem := overlay t.mem a (sent bs)
      prot := protect t.prot a bs.length protRX
      calls := t.calls + 3 }) := writeMemory_none (Env.firstFailure_ok hk _ _)

/-- The two calls of a forced write at kernel call `c` that bring the bytes into the target succeed. -/
def Env.WriteLands (env : Env) (c : Nat) : Prop := env.kr c = kernSuccess ∧ env.kr (c + 1) = kernSuccess

instance (env : Env) (c : Nat) : Decidable (env.WriteLands c) := inferInstanceAs (Decidable (_ ∧ _))

theorem mem_writeMemory (a : VmAddress b) (bs : List Byte) (t : Task b) :
    (writeMemory env a bs true t).2.mem = if env.WriteLands t.calls then overlay t.mem a (sent bs) else t.mem := by
  rw [writeMemory_eq]
  unfold Env.WriteLands
  by_cases k₀ : env.kr t.calls = kernSuccess
  · by_cases k₁ : env.kr (t.calls + 1) = kernSuccess
    · by_cases k₂ : env.kr (t.calls + 2) = kernSuccess
      · simp [Env.firstFailure, k₀, k₁, k₂]
      · simp [Env.firstFailure, k₀, k₁, k₂]
    · simp [Env.firstFailure, k₀, k₁]
  · simp [Env.firstFailure, k₀]

theorem fst_writeMemory (a : VmAddress b) (bs : List Byte) (t : Task b) :
    (writeMemory env a bs true t).1 = true ↔ env.firstFailure t.calls 3 = none := by
  rw [writeMemory_eq]
  cases env.firstFailure t.calls 3 <;> simp

/-- A forced write returns `true` when its last call, too, succeeds. -/
theorem firstFailure_three_eq_none_iff (c : Nat) :
    env.firstFailure c 3 = none ↔ env.WriteLands c ∧ env.kr (c + 2) = kernSuccess := by
  unfold Env.WriteLands
  by_cases k₀ : env.kr c = kernSuccess
  · by_cases k₁ : env.kr (c + 1) = kernSuccess
    · simp [Env.firstFailure, k₀, k₁]
    · simp [Env.firstFailure, k₀, k₁]
  · simp [Env.firstFailure, k₀]

/-! ### Platform and threads -/

inductive Platform
  | x86 | x86_64 | ARMv7 | AArch64 | UNKNOWN
deriving DecidableEq, Repr

/-- What `RunningPlatform` returns for a process with `P_LP64` as given. -/
def Build.platform : Build → Bool → Platform
  | .arm, lp64 | .arm64, lp64 => if lp64 then .AArch64 else .ARMv7
  | .i386, lp64 | .x86_64, lp64 => if lp64 then .x86_64 else .x86

def runningPlatform (t : Task b) : Platform :=
  match t.kinfo with
  | none => .UNKNOWN
  | some lp64 => b.platform lp64

/-- The class `Process::Threads` wraps a thread in; the ARM cases are under `#ifdef __arm__`. -/
def Build.threadClass : Build → Platform → Option ThreadStateClass
  | _, .x86_64 => some .x64
  | .arm, .ARMv7 => some .armv7
  | .arm, .AArch64 => some .aarch64
  | _, _ => none

def threadClass (t : Task b) : Option ThreadStateClass := b.threadClass (runningPlatform t)

theorem threadClass_congr {t t' : Task b} (h : t'.kinfo = t.kinfo) : threadClass t' = threadClass t := by
  rw [threadClass, threadClass, runningPlatform, runningPlatform, h]

/-- `Process::Threads(ignore)`: the threads it makes a state object for. -/
def Task.threadsExcept (t : Task b) (ignore : MachPort) : List Thread :=
  if (threadClass t).isSome then t.threads.filter (·.port ≠ ignore) else []

/-- `old` with the threads other than `ignore` replaced by `new` in order. -/
def putThreads (ignore : MachPort) : List Thread → List Thread → List Thread
  | [], _ => []
  | th :: ths, new =>
    if th.port = ignore then th :: putThreads ignore ths new
    else match new with
      | [] => th :: ths
      | th' :: new => th' :: putThreads ignore ths new

def Task.putThreads (t : Task b) (ignore : MachPort) (new : List Thread) : Task b :=
  if (threadClass t).isSome then { t with threads := MasterLib.putThreads ignore t.threads new } else t

theorem filter_putThreads {ignore : MachPort} {ths new : List Thread}
    (h : new.map Thread.port = (ths.filter (·.port ≠ ignore)).map Thread.port) :
    (putThreads ignore ths new).filter (·.port ≠ ignore) = new := by
  induction ths generalizing new with
  | nil => exact (List.map_eq_nil_iff.1 h).symm
  | cons th ths ih =>
    by_cases hth : th.port = ignore
    · rw [List.filter_cons_of_neg (by simp [hth])] at h
      simp only [putThreads, if_pos hth]
      rw [List.filter_cons_of_neg (by simp [hth])]
      exact ih h
    · rw [List.filter_cons_of_pos (by simp [hth])] at h
      match new with
      | [] => cases h
      | th' :: new =>
        obtain ⟨hport, hrest⟩ := List.cons.inj h
        simp only [putThreads, if_neg hth]
        rw [List.filter_cons_of_pos (by simp [hport, hth])]
        exact congrArg _ (ih hrest)

/-- Threads that keep their ports are found again where they were put. -/
theorem threadsExcept_putThreads {t : Task b} {ignore : MachPort} {new : List Thread}
    (h : new.map Thread.port = (t.threadsExcept ignore).map Thread.port) :
    (t.putThreads ignore new).threadsExcept ignore = new := by
  rw [Task.threadsExcept] at h
  by_cases hc : (threadClass t).isSome
  · rw [if_pos hc] at h
    rw [Task.putThreads, if_pos hc, Task.threadsExcept, if_pos (by rwa [threadClass_congr rfl])]
    exact filter_putThreads h
  · rw [if_neg hc] at h
    rw [Task.putThreads, if_neg hc, Task.threadsExcept, if_neg hc]
    exact (List.map_eq_nil_iff.1 h).symm

theorem putThreads_filter_map (ignore : MachPort) (f : Thread → Thread) (ths : List Thread) :
    putThreads ignore ths ((ths.filter (·.port ≠ ignore)).map f) =
      ths.map fun th => if th.port = ignore then th else f th := by
  induction ths with
  | nil => rfl
  | cons th ths ih =>
    by_cases hth : th.port = ignore
    · rw [List.filter_cons_of_neg (by simp [hth])]
      simp only [putThreads, if_pos hth, ih, List.map_cons]
    · rw [List.filter_cons_of_pos (by simp [hth])]
      simp only [putThreads, if_neg hth, ih, List.map_cons]

theorem putThreads_filter (ignore : MachPort) (ths : List Thread) :
    putThreads ignore ths (ths.filter (·.port ≠ ignore)) = ths := by
  simpa using putThreads_filter_map ignore id ths

theorem putThreads_threadsExcept (t : Task b) (ignore : MachPort) :
    t.putThreads ignore (t.threadsExcept ignore) = t := by
  unfold Task.putThreads Task.threadsExcept
  split
  · rw [putThreads_filter]
  · rfl

end MasterLib
