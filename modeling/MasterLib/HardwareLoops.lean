import MasterLib.HardwareBreakpoint

/-!
# The per-thread loops of the hardware breakpoint

Which threads the loops change, and how. `Apply` consumes one slot number a thread, so how far it gets depends
on `in_use_` alone (`slotsLeft`) and not on what the kernel answers. Where the kernel fails to read the debug registers
of a thread, both work on what the allocation of the object found (`Thread.loadedDebug`).
-/

namespace MasterLib

variable {b : Build} {env : Env}

/-! ### Slots of a thread -/

namespace Thread

def debug (th : Thread) : Bank := th.regs .x86DebugState64

def dr (th : Thread) (k : Fin 4) : BitVec 64 := th.debug.word64 k

def dr7 (th : Thread) : Dr7Ctx := th.debug.dr7

def setDebug (th : Thread) (d : Bank) : Thread :=
  { th with regs := Function.update th.regs .x86DebugState64 d }

@[simp] theorem debug_setDebug (th : Thread) (d : Bank) : (th.setDebug d).debug = d := by
  simp only [debug, setDebug, Function.update_self]

/-- The debug bank of a new object for `th` after a `Load`, whose kernel calls are `n` and `n + 1`. -/
def loadedDebug (env : Env) (n : Nat) (th : Thread) : Bank :=
  if env.kr (n + 1) = kernSuccess then th.debug else env.heap n .x86DebugState64

theorem debugState_load (th : Thread) (n : Nat) :
    ((ThreadState.new .x64 th.port (env.heap n)).load env th n).2.debugState = th.loadedDebug env n := by
  show getStates env th ThreadStateClass.x64.flavors n (env.heap n) .x86DebugState64 = _
  rw [ThreadStateClass.flavors, getStates, getStates, getStates, threadGetState_self,
    threadGetState_of_ne (by decide : Flavor.x86DebugState64 ≠ .x86ThreadState64)]
  rfl

theorem loadedDebug_ok (hk : env.AllSucceed) (th : Thread) (n : Nat) : th.loadedDebug env n = th.debug := if_pos (hk _)

/-- Of the two calls of a `Save` the second writes the debug bank. -/
theorem debug_save {state : ThreadState} {th : Thread} (hcls : state.cls = .x64) (n : Nat) :
    (state.save env n th).2.debug = if env.kr (n + 1) = kernSuccess then state.debugState else th.debug := by
  rw [ThreadState.save, hcls]
  show (threadSetState env (n + 1) .x86DebugState64 state.banks (threadSetState env n _ state.banks th)).debug = _
  have hgeneral : (threadSetState env n .x86ThreadState64 state.banks th).debug = th.debug := by
    have hne : Flavor.x86DebugState64 ≠ .x86ThreadState64 := by decide
    unfold threadSetState
    split
    · simp only [debug, Function.update_of_ne hne]
    · rfl
  rw [← hgeneral, threadSetState, ThreadState.debugState]
  split
  · simp only [debug, Function.update_self]
  · rfl

end Thread

@[simp] theorem ThreadState.debugState_setDebugState (state : ThreadState) (d : Bank) :
    (state.setDebugState d).debugState = d := by
  simp only [setDebugState, debugState, Function.update_self]

variable {a : VmAddress b} {d : Bank} {j k : Fin 4}

theorem word64_armSlot : (armSlot a k d).word64 j = if j = k then a.setWidth 64 else d.word64 j := by
  have h7 : (j : Nat) ≠ 7 := by omega
  rw [armSlot, Bank.word64_setDr7 h7]
  split
  · rename_i h; rw [h, Bank.word64_setWord64]
  · rename_i h; exact Bank.word64_setWord64_of_ne fun hjk => h (Fin.ext hjk)

/-- `|= 0x0` leaves the size and the trigger as they were. -/
theorem armSlot_eq : armSlot a k d = (d.setWord64 k (a.setWidth 64)).setDr7
    { d.dr7 with flags := Function.update d.dr7.flags k (d.dr7.flags k ||| 1) } := by
  have h0 : ∀ f : Fin 4 → BitVec 2, Function.update f k (f k ||| 0x0) = f := by
    intro f; rw [show f k ||| 0x0 = f k by simp, Function.update_eq_self]
  rw [armSlot, h0, h0]

theorem dr7_armSlot : (armSlot a k d).dr7 =
    { d.dr7 with flags := Function.update d.dr7.flags k (d.dr7.flags k ||| 1) } := by
  rw [armSlot_eq, Bank.dr7_setDr7]

theorem word64_clearSlot : (clearSlot k d).word64 j = d.word64 j :=
  Bank.word64_setDr7 (by omega)

theorem slotHolding_congr {d' : Bank} (h : ∀ j : Fin 4, d'.word64 j = d.word64 j) :
    slotHolding a d' = slotHolding a d := by
  have h0 : d'.word64 0 = d.word64 0 := h 0
  have h1 : d'.word64 1 = d.word64 1 := h 1
  have h2 : d'.word64 2 = d.word64 2 := h 2
  have h3 : d'.word64 3 = d.word64 3 := h 3
  rw [slotHolding, slotHolding, h0, h1, h2, h3]

theorem slotHolding_clearSlot : slotHolding a (clearSlot k d) = slotHolding a d :=
  slotHolding_congr fun _ => word64_clearSlot

/-! ### Slot numbers -/

/-- How many more threads `Apply` arms before it gives up. -/
def slotsLeft (inUse : Int) : Nat := if 0 ≤ inUse then (4 - inUse).toNat else 0

theorem slotOf_cases (i : Int) :
    slotOf i = none ∧ slotsLeft i = 0 ∨
      ∃ k : Fin 4, slotOf i = some k ∧ i = k ∧ slotsLeft i = slotsLeft (i + 1) + 1 := by
  by_cases h : 0 ≤ i ∧ i < 4
  · obtain rfl | rfl | rfl | rfl : i = 0 ∨ i = 1 ∨ i = 2 ∨ i = 3 := by omega
    exacts [.inr ⟨0, rfl, rfl, rfl⟩, .inr ⟨1, rfl, rfl, rfl⟩, .inr ⟨2, rfl, rfl, rfl⟩,
      .inr ⟨3, rfl, rfl, rfl⟩]
  · refine .inl ⟨?_, ?_⟩
    · unfold slotOf; split <;> first | rfl | omega
    · unfold slotsLeft; split <;> omega

theorem slotOf_add_none {i : Int} (h : 0 ≤ i) (hs : slotOf i = none) (j : Nat) : slotOf (i + j) = none := by
  rcases slotOf_cases (i + j) with ⟨hn, -⟩ | ⟨k, -, hk, -⟩
  · exact hn
  · rcases slotOf_cases i with ⟨-, h0⟩ | ⟨k', hs', -, -⟩
    · rw [slotsLeft, if_pos h] at h0; omega
    · rw [hs] at hs'; cases hs'

namespace X86_64HardwareBreakpoint
variable {bp : X86_64HardwareBreakpoint b} {th : Thread} {ths : List Thread} {n : Nat}

/-! ### `Apply` -/

/-- One pass of the loop of `Apply` over `th`, arming slot `k`. -/
def armThread (env : Env) (a : VmAddress b) (k : Fin 4) (n : Nat) (th : Thread) : Thread :=
  let state := ((ThreadState.new .x64 th.port (env.heap n)).load env th n).2
  ((state.setDebugState (armSlot a k state.debugState)).save env (n + 2) th).2

theorem applyLoop_none (h : slotOf bp.inUse = none) :
    applyLoop env bp (th :: ths) n = (false, bp, th :: ths, n + 2) := by
  rw [applyLoop]; simp only [h]; rfl

theorem applyLoop_some (h : slotOf bp.inUse = some k) :
    applyLoop env bp (th :: ths) n =
      let r := applyLoop env { bp with inUse := bp.inUse + 1, active := true } ths (n + 4)
      (r.1, r.2.1, armThread env bp.address k n th :: r.2.2.1, r.2.2.2) := by
  rw [applyLoop]; simp only [h]; rfl

def countedUp (bp : X86_64HardwareBreakpoint b) (len : Nat) : X86_64HardwareBreakpoint b :=
  { bp with
    inUse := bp.inUse + (min len (slotsLeft bp.inUse) : Nat)
    active := bp.active || decide (0 < min len (slotsLeft bp.inUse)) }

/-- The loop returns `true` exactly when there is a slot number for every thread, and counts up. -/
theorem applyLoop_obj (bp : X86_64HardwareBreakpoint b) (ths : List Thread) (n : Nat) :
    (applyLoop env bp ths n).1 = decide (ths.length ≤ slotsLeft bp.inUse) ∧
    (applyLoop env bp ths n).2.1 = bp.countedUp ths.length := by
  induction ths generalizing bp n with
  | nil => simp [applyLoop, countedUp]
  | cons th ths ih =>
    rcases slotOf_cases bp.inUse with ⟨hs, h0⟩ | ⟨k, hs, -, hsucc⟩
    · rw [applyLoop_none hs, countedUp, h0]; simp
    · obtain ⟨h₁, h₂⟩ := ih { bp with inUse := bp.inUse + 1, active := true } (n + 4)
      rw [applyLoop_some hs]
      refine ⟨?_, ?_⟩
      · show (applyLoop env _ ths (n + 4)).1 = _
        rw [h₁, hsucc]; simp
      · show (applyLoop env _ ths (n + 4)).2.1 = _
        rw [h₂, countedUp, countedUp, hsucc]
        simp only [List.length_cons, Nat.add_min_add_right, Nat.cast_add, Nat.cast_one, Bool.true_or]
        congr 1
        · simp
        · omega

theorem debug_armThread : (armThread env a k n th).debug =
    if env.kr (n + 3) = kernSuccess then armSlot a k (th.loadedDebug env n) else th.debug := by
  rw [← Thread.debugState_load]
  exact (Thread.debug_save rfl (n + 2)).trans (by rw [ThreadState.debugState_setDebugState])

/-- Each thread before the `j`th has taken four kernel calls, unless there was no slot for it. Then there is none for the
`j`th. -/
theorem getElem?_applyLoop (bp : X86_64HardwareBreakpoint b) (hin : 0 ≤ bp.inUse) (ths : List Thread) (n j : Nat) :
    (applyLoop env bp ths n).2.2.1[j]? = ths[j]?.map fun th =>
      (slotOf (bp.inUse + j)).elim th fun k => armThread env bp.address k (n + 4 * j) th := by
  induction ths generalizing bp n j with
  | nil => rfl
  | cons th ths ih =>
    rcases slotOf_cases bp.inUse with ⟨hs, -⟩ | ⟨k, hs, -, -⟩
    · rw [applyLoop_none hs, slotOf_add_none hin hs j]
      exact Option.map_id'.symm
    · rw [applyLoop_some hs]
      cases j with
      | zero => simp [hs]
      | succ j =>
        have hj : bp.inUse + ((j + 1 : Nat) : Int) = bp.inUse + 1 + j := by push_cast; ring
        have hcalls : n + 4 * (j + 1) = n + 4 + 4 * j := by ring
        rw [hj, hcalls]
        exact ih { bp with inUse := bp.inUse + 1, active := true } (by show 0 ≤ bp.inUse + 1; omega) _ j

@[simp] theorem port_armThread : (armThread env a k n th).port = th.port := port_setStates _ _

theorem applyLoop_ports (bp : X86_64HardwareBreakpoint b) (ths : List Thread) (n : Nat) :
    (applyLoop env bp ths n).2.2.1.map Thread.port = ths.map Thread.port := by
  induction ths generalizing bp n with
  | nil => rfl
  | cons th ths ih =>
    rcases slotOf_cases bp.inUse with ⟨hs, -⟩ | ⟨k, hs, -⟩
    · rw [applyLoop_none hs]
    · rw [applyLoop_some hs]
      simp only [List.map_cons, port_armThread, ih]

theorem applyLoop_stuck (h : slotsLeft bp.inUse = 0) : (applyLoop env bp ths n).2.2.1 = ths := by
  cases ths with
  | nil => rfl
  | cons th ths =>
    rcases slotOf_cases bp.inUse with ⟨hs, -⟩ | ⟨k, -, -, hsucc⟩
    · rw [applyLoop_none hs]
    · omega

/-! ### Both loops under a kernel that never fails -/

/-- `Load`, a change to the debug bank, `Save`: no other bank of the thread changes. -/
theorem load_save_ok (hk : env.AllSucceed) (f : Bank → Bank) (n m : Nat) :
    let state := ((ThreadState.new .x64 th.port (env.heap n)).load env th n).2
    ((state.setDebugState (f state.debugState)).save env m th).2 = th.setDebug (f th.debug) := by
  intro state
  have hmem : Flavor.x86DebugState64 ∈ ThreadStateClass.x64.flavors := by decide
  have hdebug : state.debugState = th.debug := (Thread.debugState_load th n).trans (Thread.loadedDebug_ok hk th n)
  have hbanks : ∀ g ∈ ThreadStateClass.x64.flavors, state.banks g = th.regs g := by
    intro g hg
    exact (getStates_ok hk _ n g).trans (if_pos hg)
  rw [hdebug]
  simp only [ThreadState.save, setStates_ok hk]
  show { th with regs := _ } = ({ th with regs := _ } : Thread)
  congr 1; funext g
  show (if g ∈ ThreadStateClass.x64.flavors then Function.update state.banks _ _ g else _) = _
  by_cases hg : g = .x86DebugState64
  · subst hg; rw [if_pos hmem, Function.update_self, Function.update_self]
  · rw [Function.update_of_ne hg, Function.update_of_ne hg]
    split
    · exact hbanks g ‹_›
    · rfl

theorem armThread_ok (hk : env.AllSucceed) :
    armThread env a k n th = th.setDebug (armSlot a k th.debug) :=
  load_save_ok hk (armSlot a k) _ _

/-- What the loop of `Apply` does to the thread at which `in_use_` is `i`. -/
def arm (a : VmAddress b) (i : Int) (th : Thread) : Thread :=
  match slotOf i with
  | none => th
  | some k => th.setDebug (armSlot a k th.debug)

/-! ### `Reset` -/

def clear (a : VmAddress b) (th : Thread) : Thread :=
  match slotHolding a th.debug with
  | none => th
  | some k => th.setDebug (clearSlot k th.debug)

/-- Some debug address register of `th` is `address_`, whether its slot is enabled or not. -/
def Holds (a : VmAddress b) (th : Thread) : Prop := slotHolding a th.debug ≠ none

instance (a : VmAddress b) (th : Thread) : Decidable (Holds a th) := inferInstanceAs (Decidable (_ ≠ _))

theorem port_clear : (clear a th).port = th.port := by
  unfold clear; split <;> rfl

/-- `Reset` leaves the address registers alone, so it leaves their holding `address_` alone. -/
theorem holds_clear : Holds a (clear a th) ↔ Holds a th := by
  unfold clear Holds
  split
  · rfl
  · rw [Thread.debug_setDebug, slotHolding_clearSlot]

def clearedOver (bp : X86_64HardwareBreakpoint b) (ths : List Thread) : X86_64HardwareBreakpoint b :=
  { bp with active := bp.active && decide (∀ th ∈ ths, ¬ Holds bp.address th) }

/-- The loop of `Reset`, from kernel call `n` on, comes to a thread in whose object it finds `address_`. Until then it
makes two calls for each thread. -/
def Finds (env : Env) (a : VmAddress b) (n : Nat) (ths : List Thread) : Prop :=
  ∃ i, ∃ h : i < ths.length, slotHolding a (ths[i].loadedDebug env (n + 2 * i)) ≠ none

theorem finds_cons : Finds env a n (th :: ths) ↔
    slotHolding a (th.loadedDebug env n) ≠ none ∨ Finds env a (n + 2) ths := by
  constructor
  · rintro ⟨i, hi, hfound⟩
    cases i with
    | zero => exact .inl hfound
    | succ i =>
      refine .inr ⟨i, Nat.lt_of_succ_lt_succ hi, ?_⟩
      rw [Nat.add_right_comm, Nat.add_assoc, ← Nat.mul_succ]
      exact hfound
  · rintro (hfound | ⟨i, hi, hfound⟩)
    · exact ⟨0, Nat.succ_pos _, hfound⟩
    · refine ⟨i + 1, Nat.succ_lt_succ hi, ?_⟩
      rw [Nat.mul_succ, ← Nat.add_assoc, Nat.add_right_comm]
      exact hfound

theorem resetLoop_cons : resetLoop env bp (th :: ths) n =
    match slotHolding bp.address (th.loadedDebug env n) with
    | none =>
      let r := resetLoop env bp ths (n + 2)
      (r.1, r.2.1, th :: r.2.2.1, r.2.2.2)
    | some k =>
      let state := ((ThreadState.new .x64 th.port (env.heap n)).load env th n).2
      let r := resetLoop env { bp with active := false } ths (n + 4)
      (r.1, r.2.1, ((state.setDebugState (clearSlot k state.debugState)).save env (n + 2) th).2 :: r.2.2.1,
        r.2.2.2) := by
  rw [resetLoop, ← Thread.debugState_load]
  rfl

/-- The loop always gets to its end, and of the object it writes the flag at most. -/
theorem resetLoop_obj (env : Env) (bp : X86_64HardwareBreakpoint b) (ths : List Thread) (n : Nat) :
    (resetLoop env bp ths n).1 = true ∧
      ∃ active, (resetLoop env bp ths n).2.1 = { bp with active := active } ∧
        (active = true ↔ bp.active = true ∧ ¬Finds env bp.address n ths) := by
  induction ths generalizing bp n with
  | nil =>
    refine ⟨rfl, bp.active, rfl, (and_iff_left ?_).symm⟩
    rintro ⟨i, hi, -⟩
    exact absurd hi (Nat.not_lt_zero i)
  | cons th ths ih =>
    rw [resetLoop_cons, finds_cons]
    cases hs : slotHolding bp.address (th.loadedDebug env n) with
    | none =>
      simp only [ne_eq, not_true_eq_false, false_or]
      exact ih bp (n + 2)
    | some k =>
      rcases ih { bp with active := false } (n + 4) with ⟨hret, active, hobj, hactive⟩
      exact ⟨hret, active, hobj, by simp [hactive]⟩

/-- Where it does not find the address it has changed nothing. -/
theorem resetLoop_of_not_finds (h : ¬Finds env bp.address n ths) :
    resetLoop env bp ths n = (true, bp, ths, n + 2 * ths.length) := by
  induction ths generalizing n with
  | nil => rfl
  | cons th ths ih =>
    rw [finds_cons, not_or, not_not] at h
    rw [resetLoop_cons, h.1]
    simp only [ih h.2, List.length_cons]
    ring_nf

/-- The loop under a kernel that never fails finds `address_` where a thread has it. -/
theorem finds_ok (hk : env.AllSucceed) (n : Nat) : Finds env a n ths ↔ ∃ th ∈ ths, Holds a th := by
  simp only [Finds, Thread.loadedDebug_ok hk, Holds, List.exists_mem_iff_getElem]

theorem resetLoop_threads (hk : env.AllSucceed) (bp : X86_64HardwareBreakpoint b) (ths : List Thread) (n : Nat) :
    (resetLoop env bp ths n).2.2.1 = ths.map (clear bp.address) := by
  induction ths generalizing bp n with
  | nil => rfl
  | cons th ths ih =>
    rw [resetLoop_cons, Thread.loadedDebug_ok hk, List.map_cons, clear]
    cases hs : slotHolding bp.address th.debug with
    | none => simp only [ih]
    | some k => simp only [ih, load_save_ok hk (clearSlot k)]

/-! ### `Apply` and `Reset` of a target -/

variable {t : Task b}

theorem apply_fst : (bp.apply env t).1 =
    decide ((t.threadsExcept env.self).length ≤ slotsLeft bp.inUse) := (applyLoop_obj bp _ _).1

theorem apply_obj : (bp.apply env t).2.1 = bp.countedUp (t.threadsExcept env.self).length :=
  (applyLoop_obj bp _ _).2

theorem countedUp_eq_self_iff {len : Nat} : bp.countedUp len = bp ↔ len = 0 ∨ slotsLeft bp.inUse = 0 := by
  constructor
  · intro h
    have hin : bp.inUse + (min len (slotsLeft bp.inUse) : Nat) = bp.inUse := congrArg inUse h
    omega
  · intro h
    have hmin : min len (slotsLeft bp.inUse) = 0 := by omega
    simp [countedUp, hmin]

theorem task_apply_stuck (env : Env) (t : Task b) (h : slotsLeft bp.inUse = 0) :
    ∃ n, (bp.apply env t).2.2 = { t with calls := n } := by
  let r := applyLoop env bp (t.threadsExcept env.self) t.calls
  have hput : t.putThreads env.self r.2.2.1 = t := by
    rw [applyLoop_stuck h, putThreads_threadsExcept]
  exact ⟨r.2.2.2, congrArg (fun t' : Task b => { t' with calls := r.2.2.2 }) hput⟩

theorem threadsExcept_apply : (bp.apply env t).2.2.threadsExcept env.self =
    (applyLoop env bp (t.threadsExcept env.self) t.calls).2.2.1 :=
  threadsExcept_putThreads (applyLoop_ports _ _ _)

theorem getElem?_apply (hk : env.AllSucceed) (hin : 0 ≤ bp.inUse) (j : Nat) :
    ((bp.apply env t).2.2.threadsExcept env.self)[j]? =
      (t.threadsExcept env.self)[j]?.map (arm bp.address (bp.inUse + j)) := by
  rw [threadsExcept_apply, getElem?_applyLoop bp hin]
  congr 1
  funext th
  simp only [arm, armThread_ok hk]
  cases slotOf (bp.inUse + j) <;> rfl

theorem reset_fst : (bp.reset env t).1 = true := (resetLoop_obj ..).1

theorem reset_obj (hk : env.AllSucceed) : (bp.reset env t).2.1 = bp.clearedOver (t.threadsExcept env.self) := by
  rcases resetLoop_obj env bp (t.threadsExcept env.self) t.calls with ⟨-, active, hobj, hactive⟩
  rw [finds_ok hk] at hactive
  have hflag : active = (bp.active && decide (∀ th ∈ t.threadsExcept env.self, ¬Holds bp.address th)) := by
    rw [Bool.eq_iff_iff, hactive]
    simp
  rw [clearedOver, ← hflag]
  exact hobj

theorem threadsExcept_reset (hk : env.AllSucceed) : (bp.reset env t).2.2.threadsExcept env.self =
    (t.threadsExcept env.self).map (clear bp.address) := by
  have h := resetLoop_threads hk bp (t.threadsExcept env.self) t.calls
  refine (threadsExcept_putThreads ?_).trans h
  rw [h, List.map_map]
  exact List.map_congr_left fun th _ => port_clear

theorem clearedOver_reset (hk : env.AllSucceed) : (bp.clearedOver (t.threadsExcept env.self)).clearedOver
    ((bp.reset env t).2.2.threadsExcept env.self) = bp.clearedOver (t.threadsExcept env.self) := by
  rw [threadsExcept_reset hk]
  simp only [clearedOver, List.forall_mem_map, holds_clear, Bool.and_assoc, Bool.and_self]

end X86_64HardwareBreakpoint

end MasterLib
