import MasterLib.SoftwareBreakpoint

/-!
# Hardware breakpoints

`x86_64HardwareBreakpoint` walks over the threads of the target. `Apply` arms, on each thread in turn, the
debug slot numbered `in_use_` and counts `in_use_` up; it gives up at the first thread for which no slot
number is left. `Reset` clears, on each thread, the flags of the last slot whose register holds `address_`.
DR7 is edited through the bit-field struct `dr7_ctx`.
-/

namespace MasterLib

variable {b : Build} {env : Env}

/-! ### DR7 -/

/-- `dr7_ctx`: the fields of slot `k` are `flags_drk`, `trigger_drk`, `size_drk`. -/
structure Dr7Ctx where
  flags : Fin 4 → BitVec 2
  unused : BitVec 8
  trigger : Fin 4 → BitVec 2
  size : Fin 4 → BitVec 2

namespace Dr7Ctx

/-- `dr7_ctx(int)`. -/
def ofInt (v : BitVec 32) : Dr7Ctx where
  flags k := v.extractLsb' (2 * k) 2
  unused := v.extractLsb' 8 8
  trigger k := v.extractLsb' (16 + 4 * k) 2
  size k := v.extractLsb' (18 + 4 * k) 2

/-- A bit-field at bit `pos` of the 32-bit struct. -/
def put {n : Nat} (pos : Nat) (field : BitVec n) : BitVec 32 := field.setWidth 32 <<< pos

/-- `operator int`. -/
def toInt (c : Dr7Ctx) : BitVec 32 :=
  put 0 (c.flags 0) ||| put 2 (c.flags 1) ||| put 4 (c.flags 2) ||| put 6 (c.flags 3) ||| put 8 c.unused |||
    put 16 (c.trigger 0) ||| put 18 (c.size 0) ||| put 20 (c.trigger 1) ||| put 22 (c.size 1) |||
    put 24 (c.trigger 2) ||| put 26 (c.size 2) ||| put 28 (c.trigger 3) ||| put 30 (c.size 3)

theorem getLsbD_put {n i : Nat} (pos : Nat) (field : BitVec n) :
    (put pos field).getLsbD i = (decide (i < 32) && decide (pos ≤ i) && field.getLsbD (i - pos)) := by
  rw [put, BitVec.getLsbD_shiftLeft, BitVec.getLsbD_setWidth]
  by_cases hp : pos ≤ i
  · by_cases h32 : i < 32
    · have h' : i - pos < 32 := by omega
      simp [hp, h32, h', Nat.not_lt.2 hp]
    · simp [h32]
  · simp [hp, Nat.lt_of_not_le hp]

variable {n m pos start : Nat} {field : BitVec n}

theorem extract_put_self (h : pos + n ≤ 32) : (put pos field).extractLsb' pos n = field := by
  refine BitVec.eq_of_getLsbD_eq fun i hi => ?_
  rw [BitVec.getLsbD_extractLsb', getLsbD_put, Nat.add_sub_cancel_left]
  simp [hi, show pos + i < 32 by omega]

theorem extract_put_disjoint (h : pos + n ≤ start ∨ start + m ≤ pos) :
    (put pos field).extractLsb' start m = 0#m := by
  refine BitVec.eq_of_getLsbD_eq fun i hi => ?_
  rw [BitVec.getLsbD_extractLsb', getLsbD_put, BitVec.getLsbD_zero]
  rcases h with h | h
  · rw [BitVec.getLsbD_of_ge field _ (by omega)]; simp
  · simp [show ¬ pos ≤ start + i by omega]

theorem ofInt_toInt (c : Dr7Ctx) : ofInt c.toInt = c := by
  obtain ⟨f, u, tr, sz⟩ := c
  simp only [ofInt, toInt, mk.injEq]
  refine ⟨funext fun k => ?_, ?_, funext fun k => ?_, funext fun k => ?_⟩
  · fin_cases k <;> simp (disch := omega) [BitVec.extractLsb'_or, extract_put_self, extract_put_disjoint]
  · simp (disch := omega) [BitVec.extractLsb'_or, extract_put_self, extract_put_disjoint]
  · fin_cases k <;> simp (disch := omega) [BitVec.extractLsb'_or, extract_put_self, extract_put_disjoint]
  · fin_cases k <;> simp (disch := omega) [BitVec.extractLsb'_or, extract_put_self, extract_put_disjoint]

end Dr7Ctx

/-! ### The debug bank -/

namespace Bank

def dr7 (debug : Bank) : Dr7Ctx := .ofInt ((debug.word64 7).setWidth 32)

/-- `debug.__dr7 = dr7`: `int` to `uint64_t`. -/
def setDr7 (debug : Bank) (c : Dr7Ctx) : Bank := debug.setWord64 7 (c.toInt.signExtend 64)

variable {debug : Bank} {c : Dr7Ctx} {k : Nat}

/-- The sign extension of the store is dropped again by the next load. -/
theorem setWidth_signExtend (v : BitVec 32) : (v.signExtend 64).setWidth 32 = v := by
  refine BitVec.eq_of_getLsbD_eq fun i hi => ?_
  rw [BitVec.getLsbD_setWidth, BitVec.getLsbD_signExtend]
  simp [hi, show i < 64 by omega]

@[simp] theorem dr7_setDr7 : (debug.setDr7 c).dr7 = c := by
  rw [dr7, setDr7, word64_setWord64, setWidth_signExtend, Dr7Ctx.ofInt_toInt]

theorem word64_setDr7 (h : k ≠ 7) : (debug.setDr7 c).word64 k = debug.word64 k :=
  word64_setWord64_of_ne h

end Bank

/-! ### The class -/

/-- `in_use_` has no initialiser either. -/
structure X86_64HardwareBreakpoint (b : Build) extends BreakpointBase b where
  inUse : Int

/-- `case k` of the switch in `Apply`, and the store of DR7 after it. -/
def armSlot (address : VmAddress b) (k : Fin 4) (debug : Bank) : Bank :=
  let dr7 := debug.dr7
  let dr7 := { dr7 with
    flags := Function.update dr7.flags k (dr7.flags k ||| 0x1)
    size := Function.update dr7.size k (dr7.size k ||| 0x0)
    trigger := Function.update dr7.trigger k (dr7.trigger k ||| 0x0) }
  (debug.setWord64 k (address.setWidth 64)).setDr7 dr7

/-- `case k` of the switch in `Reset`, and the store of DR7 after it. -/
def clearSlot (k : Fin 4) (debug : Bank) : Bank :=
  let dr7 := debug.dr7
  debug.setDr7 { dr7 with flags := Function.update dr7.flags k 0 }

/-- The case `switch (in_use_)` takes; `none` is `default`. -/
def slotOf : Int → Option (Fin 4)
  | 0 => some 0
  | 1 => some 1
  | 2 => some 2
  | 3 => some 3
  | _ => none

/-- The `index` that `Reset` ends up with; `none` is `-1`. -/
def slotHolding (address : VmAddress b) (debug : Bank) : Option (Fin 4) :=
  let index := none
  let index := if debug.word64 0 = address.setWidth 64 then some 0 else index
  let index := if debug.word64 1 = address.setWidth 64 then some 1 else index
  let index := if debug.word64 2 = address.setWidth 64 then some 2 else index
  let index := if debug.word64 3 = address.setWidth 64 then some 3 else index
  index

def ThreadState.debugState (st : ThreadState) : Bank := st.banks .x86DebugState64

def ThreadState.setDebugState (st : ThreadState) (debug : Bank) : ThreadState :=
  { st with banks := Function.update st.banks .x86DebugState64 debug }

namespace X86_64HardwareBreakpoint

/-- The loop of `Apply`, from kernel call `n` on; the last component counts the calls. -/
def applyLoop (env : Env) : X86_64HardwareBreakpoint b → List Thread → Nat →
    Bool × X86_64HardwareBreakpoint b × List Thread × Nat
  | bp, [], n => (true, bp, [], n)
  | bp, th :: ths, n =>
    let state := ThreadState.new .x64 th.port (env.heap n)
    let (_, state) := state.load env th n
    match slotOf bp.inUse with
    | none => (false, bp, th :: ths, n + state.transferCalls)
    | some k =>
      let state := state.setDebugState (armSlot bp.address k state.debugState)
      let bp := { bp with inUse := bp.inUse + 1, active := true }
      let (_, th) := state.save env (n + state.transferCalls) th
      let (ok, bp, ths, n) := applyLoop env bp ths (n + 2 * state.transferCalls)
      (ok, bp, th :: ths, n)

def resetLoop (env : Env) : X86_64HardwareBreakpoint b → List Thread → Nat →
    Bool × X86_64HardwareBreakpoint b × List Thread × Nat
  | bp, [], n => (true, bp, [], n)
  | bp, th :: ths, n =>
    let state := ThreadState.new .x64 th.port (env.heap n)
    let (_, state) := state.load env th n
    match slotHolding bp.address state.debugState with
    | none =>
      let (ok, bp, ths, n) := resetLoop env bp ths (n + state.transferCalls)
      (ok, bp, th :: ths, n)
    | some k =>
      let state := state.setDebugState (clearSlot k state.debugState)
      let bp := { bp with active := false }
      let (_, th) := state.save env (n + state.transferCalls) th
      let (ok, bp, ths, n) := resetLoop env bp ths (n + 2 * state.transferCalls)
      (ok, bp, th :: ths, n)

def apply (env : Env) (bp : X86_64HardwareBreakpoint b) (t : Task b) :
    Bool × X86_64HardwareBreakpoint b × Task b :=
  let (ok, bp, ths, n) := applyLoop env bp (t.threadsExcept env.self) t.calls
  (ok, bp, { t.putThreads env.self ths with calls := n })

def reset (env : Env) (bp : X86_64HardwareBreakpoint b) (t : Task b) :
    Bool × X86_64HardwareBreakpoint b × Task b :=
  let (ok, bp, ths, n) := resetLoop env bp (t.threadsExcept env.self) t.calls
  (ok, bp, { t.putThreads env.self ths with calls := n })

end X86_64HardwareBreakpoint

namespace ARMv7HardwareBreakpoint

/-- Not implemented: both return `false`. -/
def apply (bp : BreakpointBase b) (t : Task b) : Bool × BreakpointBase b × Task b := (false, bp, t)

def reset (bp : BreakpointBase b) (t : Task b) : Bool × BreakpointBase b × Task b := (false, bp, t)

end ARMv7HardwareBreakpoint

end MasterLib
