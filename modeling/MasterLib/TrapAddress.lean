import MasterLib.ArmOverlay
import MasterLib.ExceptionHandler

/-!
# The address a trap reports

A breakpoint is filed under the address its opcode is written to and looked up by `CurrentAddress` of the thread
that has run into it. BKPT leaves the program counter at itself, and `CurrentAddress` drops the THUMB bit. INT3
leaves it at the next byte, which `CurrentAddress` returns as it is: there the lookup finds the breakpoint filed
at the next byte, if there is one.
-/

namespace MasterLib
open Overlay

variable {b : Build} {env : Env}

theorem getLsbD_not_one (i : Nat) : (~~~1#32).getLsbD i = (decide (i < 32) && !decide (i = 0)) := by
  rw [BitVec.getLsbD_not, BitVec.getLsbD_one]
  cases i <;> simp

theorem evenAddress_and (a : BitVec 32) (h : a.getLsbD 0 = false) : a &&& ~~~1#32 = a := by
  refine BitVec.eq_of_getLsbD_eq fun i hi => ?_
  rw [BitVec.getLsbD_and, getLsbD_not_one]
  cases i with
  | zero => rw [h, Bool.false_and]
  | succ i => simp [hi]

theorem evenAddress_or_and (a : BitVec 32) (h : a.getLsbD 0 = false) : (a ||| 1#32) &&& ~~~1#32 = a := by
  refine BitVec.eq_of_getLsbD_eq fun i hi => ?_
  rw [BitVec.getLsbD_and, BitVec.getLsbD_or, BitVec.getLsbD_one, getLsbD_not_one]
  cases i with
  | zero => rw [h]; simp
  | succ i => simp [hi]

theorem setWidth_succ (a : VmAddress b) : (a.setWidth 64 + 1).setWidth b.addrBits = a + 1 := by
  rw [BitVec.setWidth_add _ _ b.addrBits_le, BitVec.setWidth_setWidth_of_le _ b.addrBits_le, BitVec.setWidth_eq]
  exact congrArg (a + ·) (BitVec.setWidth_ofNat_of_le b.addrBits_le 1)

theorem succ_ne_self (a : VmAddress b) : a + 1 ≠ a := by
  cases b <;> simp

theorem Build.threadClass_eq_armv7 {plt : Platform} (h : b.threadClass plt = some .armv7) : b = .arm := by
  cases b <;> cases plt <;> first | rfl | cases h

/-! ### The trap and the lookup -/

/-- The class `Load` is called on for a thread of the platform the breakpoint class is for. -/
def SoftwareKind.stateClass : SoftwareKind → ThreadStateClass
  | .x86_64 => .x64
  | .armv7 | .thumbv7 => .armv7

/-- What the CPU leaves in the program counter of a thread that has just executed the opcode of `bp`: after
INT3 the address of the next byte, after BKPT its own address, in THUMB mode perhaps with bit 0 set. -/
def SoftwareBreakpoint.Trapped (bp : SoftwareBreakpoint b) (th : Thread) : Prop :=
  match bp.kind with
  | .x86_64 => (th.regs .x86ThreadState64).word64 16 = bp.address.setWidth 64 + 1
  | .armv7 => th.regs .armThreadState 15 = bp.address.setWidth 32
  | .thumbv7 => th.regs .armThreadState 15 = bp.address.setWidth 32 ∨
      th.regs .armThreadState 15 = bp.address.setWidth 32 ||| 1

namespace Session
variable {s : Session b} {p q : BpPtr} {bp : SoftwareBreakpoint b} {cls : ThreadStateClass} {th : Thread} {n : Nat}

/-- The registered breakpoints are software breakpoints for the target's platform, whose threads `Threads` wraps
in `cls`, with disjoint patch ranges, on ARM at even addresses. -/
structure OnPlatform (cls : ThreadStateClass) (s : Session b) : Prop where
  platform : threadClass s.task = some cls
  obj : ∀ p ∈ s.breakpoints, ∃ bp, s.heap p = .software bp ∧ bp.kind.stateClass = cls ∧
    (cls = .armv7 → bp.address.getLsbD 0 = false)
  disjoint : ∀ p ∈ s.breakpoints, ∀ q ∈ s.breakpoints, q ≠ p → ∀ bp bq, s.heap p = .software bp →
    s.heap q = .software bq → ∀ x, InRange bp.address bp.size x → ¬ InRange bq.address bq.size x

/-- `CurrentAddress()` on the state of `th` loaded from kernel call `n` on. -/
def loadedAddress (env : Env) (b : Build) (cls : ThreadStateClass) (th : Thread) (n : Nat) : VmAddress b :=
  ((ThreadState.new cls th.port (env.heap n)).load env th n).2.currentAddress b

/-- Disjoint ranges start at different addresses. -/
theorem OnPlatform.address_inj (h : s.OnPlatform cls) (hp : p ∈ s.breakpoints) (hq : q ∈ s.breakpoints)
    (he : (s.heap q).address = (s.heap p).address) : q = p := by
  by_contra hqp
  obtain ⟨bp, hbp, -⟩ := h.obj p hp
  obtain ⟨bq, hbq, -⟩ := h.obj q hq
  have haddr : bq.address = bp.address := by
    rw [hbp, hbq] at he; exact he
  have hself : ∀ bp : SoftwareBreakpoint b, InRange bp.address bp.size bp.address := by
    intro bp
    rw [InRange, BitVec.sub_self]
    exact bp.kind.opcode_length_pos
  refine h.disjoint p hp q hq hqp bp bq hbp hbq bp.address (hself bp) ?_
  rw [← haddr]; exact hself bq

theorem OnPlatform.breakpointAtAddress_eq_some_iff (h : s.OnPlatform cls) {a : VmAddress b} :
    s.breakpointAtAddress a = some p ↔ p ∈ s.breakpoints ∧ (s.heap p).address = a :=
  FirstMatch.first_eq_some_iff fun _ hp _ hq => h.address_inj hq hp

/-- What is looked up after INT3. -/
theorem loadedAddress_x64 (hbp : bp.kind = .x86_64) (htrap : bp.Trapped th) (hload : env.kr n = kernSuccess) :
    loadedAddress env b .x64 th n = bp.address + 1 := by
  have hbank : getStates env th ThreadStateClass.x64.flavors n (env.heap n) .x86ThreadState64 =
      th.regs .x86ThreadState64 := getStates_cons_self (by decide) hload
  unfold SoftwareBreakpoint.Trapped at htrap
  rw [hbp] at htrap
  show ((getStates env th ThreadStateClass.x64.flavors n (env.heap n) .x86ThreadState64).word64 16).setWidth _ = _
  rw [hbank, htrap, setWidth_succ]

/-- What is looked up after BKPT. -/
theorem loadedAddress_armv7 {bp : SoftwareBreakpoint .arm} (hkind : bp.kind.stateClass = .armv7)
    (heven : bp.address.getLsbD 0 = false) (htrap : bp.Trapped th) (hload : env.kr n = kernSuccess) :
    loadedAddress env .arm .armv7 th n = bp.address := by
  have hbank : getStates env th ThreadStateClass.armv7.flavors n (env.heap n) .armThreadState =
      th.regs .armThreadState := getStates_cons_self (by decide) hload
  have hself : bp.address.setWidth 32 = bp.address := BitVec.setWidth_eq _
  show (getStates env th ThreadStateClass.armv7.flavors n (env.heap n) .armThreadState 15 &&& ~~~1).setWidth 32 = _
  rw [hbank, BitVec.setWidth_eq]
  unfold SoftwareBreakpoint.Trapped at htrap
  cases hk : bp.kind with
  | x86_64 => rw [hk] at hkind; cases hkind
  | armv7 =>
    rw [hk] at htrap
    rw [htrap, hself]; exact evenAddress_and _ heven
  | thumbv7 =>
    rw [hk] at htrap
    rcases htrap with htrap | htrap
    · rw [htrap, hself]; exact evenAddress_and _ heven
    · rw [htrap, hself]; exact evenAddress_or_and _ heven

/-- The lookup at the reported address finds the breakpoint that was hit exactly on the ARM platform. -/
theorem findsTrap_iff (h : s.OnPlatform cls) (hp : p ∈ s.breakpoints) (hbp : s.heap p = .software bp)
    (htrap : bp.Trapped th) (hload : env.kr n = kernSuccess) :
    s.breakpointAtAddress (loadedAddress env b cls th n) = some p ↔ cls = .armv7 := by
  have haddr : (s.heap p).address = bp.address := by rw [hbp]; rfl
  obtain ⟨bp', hbp', hcls, heven⟩ := h.obj p hp
  obtain rfl : bp = bp' := by rw [hbp] at hbp'; exact Breakpoint.software.inj hbp'
  rw [h.breakpointAtAddress_eq_some_iff, and_iff_right hp, haddr]
  cases hk : bp.kind with
  | x86_64 =>
    rw [hk] at hcls
    subst hcls
    rw [show SoftwareKind.x86_64.stateClass = .x64 from rfl, loadedAddress_x64 hk htrap hload]
    exact iff_of_false (Ne.symm (succ_ne_self _)) (by decide)
  | armv7 | thumbv7 =>
    obtain rfl : cls = .armv7 := by rw [← hcls, hk]; rfl
    obtain rfl : b = .arm := Build.threadClass_eq_armv7 h.platform
    exact iff_of_true (loadedAddress_armv7 hcls (heven rfl) htrap hload).symm rfl

def armv7Target : Session .arm :=
  let s := start (fun p => .software (armPair p)) (fun _ => 0) []
  let s := { s with task := { s.task with kinfo := some false } }
  ((s.installBreakpoint (.failAt []) (some 0) false).2.installBreakpoint (.failAt []) (some 1) false).2

theorem onPlatform_armv7Target : armv7Target.OnPlatform .armv7 := by
  refine ⟨rfl, ?_, ?_⟩
  · show ∀ p ∈ [0, 1], _
    intro p hp
    refine ⟨armPair p, rfl, ?_⟩
    rcases List.mem_pair.1 hp with rfl | rfl
    · exact ⟨rfl, fun _ => by decide⟩
    · exact ⟨rfl, fun _ => by decide⟩
  · show ∀ p ∈ [0, 1], ∀ q ∈ [0, 1], _
    rintro p hp q hq hqp _ _ ⟨⟩ ⟨⟩
    exact disjointRanges_armPair p (by simpa using hp) q (by simpa using hq) hqp

/-- A thread that has run into the THUMB breakpoint, with bit 0 of its program counter set. -/
theorem findsTrap_thumb : armv7Target.breakpointAtAddress
    (loadedAddress (.failAt []) .arm .armv7 ⟨1, 0, fun _ _ => 0x2001⟩ 0) = some 1 :=
  (findsTrap_iff onPlatform_armv7Target (p := 1) (by decide) rfl (.inr rfl) rfl).2 rfl

def int3Thread : Thread := ⟨1, 0, fun _ => Bank.setWord64 (fun _ => 0) 16 0x1001⟩

def int3Target : Session .x86_64 :=
  ((start (fun _ => .software (.new .x86_64 false 0x1000)) (fun _ => 0x90) [int3Thread]).installBreakpoint
    (.failAt []) (some 0) true).2

theorem onPlatform_int3Target : int3Target.OnPlatform .x64 := by
  refine ⟨rfl, fun p hp => ?_, fun p hp q hq hqp => ?_⟩
  · obtain rfl : p = 0 := List.mem_singleton.1 hp
    exact ⟨_, rfl, rfl, fun h => nomatch h⟩
  · obtain rfl : p = 0 := List.mem_singleton.1 hp
    exact absurd (List.mem_singleton.1 hq) hqp

/-- The thread has run into the only trap there is, and the lookup finds none. -/
theorem not_findsTrap_x86_64 : int3Target.OnPlatform .x64 ∧ 0 ∈ int3Target.breakpoints ∧
    applied 0 int3Target.log = true ∧ (∃ bp, int3Target.heap 0 = .software bp ∧ bp.Trapped int3Thread) ∧
    int3Target.breakpointAtAddress (loadedAddress (.failAt []) .x86_64 .x64 int3Thread 0) = none := by
  refine ⟨onPlatform_int3Target, by decide, by decide, ⟨_, rfl, ?_⟩, ?_⟩
  · show Bank.word64 _ 16 = 0x1000 + 1
    decide
  · decide

/-- After INT3 the lookup finds the breakpoint at the next byte. -/
theorem breakpointAtAddress_afterInt3 (h : s.OnPlatform .x64) (hbp : bp.kind = .x86_64) (htrap : bp.Trapped th)
    (hload : env.kr n = kernSuccess) :
    s.breakpointAtAddress (loadedAddress env b .x64 th n) = some q ↔
      q ∈ s.breakpoints ∧ (s.heap q).address = bp.address + 1 := by
  rw [h.breakpointAtAddress_eq_some_iff, loadedAddress_x64 hbp htrap hload]

end Session

end MasterLib
