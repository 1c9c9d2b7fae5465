import MasterLib.HardwareLoops
import MasterLib.Runs

/-!
# Hardware breakpoints on a target that runs

`Apply` and `Reset` of the hardware breakpoint as what they are to the kernel: for each thread two
`thread_get_state` calls and then, unless the thread is left alone, two `thread_set_state` calls, with the threads
free to run between any two of them (`Walk`). The general registers go through the state object as well, so the
third call of a thread sets them to what the first had read. With no step of the target in between the walk
computes what `applyLoop` and `resetLoop` do (`reaches_loop`).
-/

namespace MasterLib
open Runs

variable {b : Build} {env : Env}

def Thread.general (th : Thread) : Bank := th.regs .x86ThreadState64

def Thread.setGeneral (th : Thread) (general : Bank) : Thread :=
  { th with regs := Function.update th.regs .x86ThreadState64 general }

/-! ### The two functions -/

inductive HardwareFunction
  | apply | reset
deriving DecidableEq, Repr

/-- What the body of the loop makes of a loaded state. -/
inductive Edit (b : Build)
  | giveUp
  | skip
  | save (bp : X86_64HardwareBreakpoint b) (state : ThreadState)

namespace HardwareFunction

/-- The body of the loop between `Load` and `Save`. -/
def edit (bp : X86_64HardwareBreakpoint b) (state : ThreadState) : HardwareFunction → Edit b
  | .apply =>
    match slotOf bp.inUse with
    | none => .giveUp
    | some k => .save { bp with inUse := bp.inUse + 1, active := true }
        (state.setDebugState (armSlot bp.address k state.debugState))
  | .reset =>
    match slotHolding bp.address state.debugState with
    | none => .skip
    | some k => .save { bp with active := false } (state.setDebugState (clearSlot k state.debugState))

def loop (env : Env) : HardwareFunction → X86_64HardwareBreakpoint b → List Thread → Nat →
    Bool × X86_64HardwareBreakpoint b × List Thread × Nat
  | .apply => X86_64HardwareBreakpoint.applyLoop env
  | .reset => X86_64HardwareBreakpoint.resetLoop env

/-- What `Load` from kernel call `n` on makes of a new state object for `th`. -/
def loaded (env : Env) (th : Thread) (n : Nat) : ThreadState :=
  ((ThreadState.new .x64 th.port (env.heap n)).load env th n).2

theorem loop_cons (fn : HardwareFunction) (bp : X86_64HardwareBreakpoint b) (th : Thread) (ths : List Thread)
    (n : Nat) : fn.loop env bp (th :: ths) n =
      match fn.edit bp (loaded env th n) with
      | .giveUp => (false, bp, th :: ths, n + 2)
      | .skip => let r := fn.loop env bp ths (n + 2); (r.1, r.2.1, th :: r.2.2.1, r.2.2.2)
      | .save bp state =>
        let r := fn.loop env bp ths (n + 4)
        (r.1, r.2.1, (state.save env (n + 2) th).2 :: r.2.2.1, r.2.2.2) := by
  cases fn with
  | apply =>
    simp only [loop, edit]
    rw [X86_64HardwareBreakpoint.applyLoop]
    cases slotOf bp.inUse <;> rfl
  | reset =>
    simp only [loop, edit]
    rw [X86_64HardwareBreakpoint.resetLoop]
    show (match slotHolding bp.address (loaded env th n).debugState with | none => _ | some k => _) = _
    cases slotHolding bp.address (loaded env th n).debugState <;> rfl

/-- What is saved differs from what was loaded in the debug bank only. -/
theorem exists_setDebugState {fn : HardwareFunction} {bp bp' : X86_64HardwareBreakpoint b} {state state' : ThreadState}
    (h : fn.edit bp state = .save bp' state') : ∃ d, state' = state.setDebugState d := by
  cases fn with
  | apply =>
    rw [edit] at h
    cases hs : slotOf bp.inUse with
    | none => rw [hs] at h; cases h
    | some k => rw [hs] at h; cases h; exact ⟨_, rfl⟩
  | reset =>
    rw [edit] at h
    cases hs : slotHolding bp.address state.debugState with
    | none => rw [hs] at h; cases h
    | some k => rw [hs] at h; cases h; exact ⟨_, rfl⟩

theorem general_setDebugState (state : ThreadState) (d : Bank) :
    (state.setDebugState d).banks .x86ThreadState64 = state.banks .x86ThreadState64 := by
  show Function.update state.banks .x86DebugState64 d .x86ThreadState64 = _
  exact Function.update_of_ne (by decide) ..

end HardwareFunction

/-! ### The walk over the threads -/

/-- The kernel call that comes next for the thread at `index`. -/
inductive Phase
  | getThread
  | getDebug (state : ThreadState)
  | setThread (state : ThreadState)
  | setDebug (state : ThreadState)
  | returned (result : Bool)

/-- `seen` is not in the source: it records what the last `Load` found of the general registers. -/
structure Walk (b : Build) where
  bp : X86_64HardwareBreakpoint b
  threads : List Thread
  index : Nat
  phase : Phase
  calls : Nat
  seen : Bank

/-- A kernel call of the debugger, or a step of thread `j` of the target. -/
inductive Move
  | call
  | target (j : Nat) (general : Bank)

namespace Walk

def start (bp : X86_64HardwareBreakpoint b) (threads : List Thread) (calls : Nat) : Walk b :=
  ⟨bp, threads, 0, .getThread, calls, fun _ => 0⟩

/-- The next kernel call and what the function does before the one after it. -/
def call (env : Env) (fn : HardwareFunction) (w : Walk b) : Walk b :=
  match w.phase, w.threads[w.index]? with
  | .returned _, _ => w
  | _, none => { w with phase := .returned true }
  | .getThread, some th =>
    let state := ThreadState.new .x64 th.port (env.heap w.calls)
    let state := { state with banks := threadGetState env w.calls th .x86ThreadState64 state.banks }
    { w with
      phase := .getDebug state
      calls := w.calls + 1
      seen := if env.kr w.calls = kernSuccess then th.general else env.heap w.calls .x86ThreadState64 }
  | .getDebug state, some th =>
    let state := { state with
      banks := threadGetState env w.calls th .x86DebugState64 state.banks
      registers := state.registers ++ state.cls.registers }
    match fn.edit w.bp state with
    | .giveUp => { w with phase := .returned false, calls := w.calls + 1 }
    | .skip => { w with index := w.index + 1, phase := .getThread, calls := w.calls + 1 }
    | .save bp state => { w with bp := bp, phase := .setThread state, calls := w.calls + 1 }
  | .setThread state, some th =>
    { w with
      threads := w.threads.set w.index (threadSetState env w.calls .x86ThreadState64 state.banks th)
      phase := .setDebug state
      calls := w.calls + 1 }
  | .setDebug state, some th =>
    { w with
      threads := w.threads.set w.index (threadSetState env w.calls .x86DebugState64 state.banks th)
      index := w.index + 1
      phase := .getThread
      calls := w.calls + 1 }

def step (env : Env) (fn : HardwareFunction) (w : Walk b) : Move → Walk b
  | .call => w.call env fn
  | .target j general => { w with threads := w.threads.modify j (·.setGeneral general) }

/-- A kernel call leaves the general registers of every thread as they are. -/
def KeepsProgress (env : Env) (fn : HardwareFunction) (w : Walk b) : Move → Prop
  | .call => (w.call env fn).threads.map Thread.general = w.threads.map Thread.general
  | .target .. => True

/-- If the call sets the general registers of a thread, they are by then what `Load` found. -/
def Unmoved (env : Env) (w : Walk b) : Move → Prop
  | .call =>
    match w.phase with
    | .setThread _ => env.kr w.calls = kernSuccess → ∀ th, w.threads[w.index]? = some th → th.general = w.seen
    | _ => True
  | .target .. => True

/-- The state object holds the general registers that `Load` found. -/
def WindowInv (w : Walk b) : Prop :=
  match w.phase with
  | .getDebug state | .setThread state => state.banks .x86ThreadState64 = w.seen
  | _ => True

variable {w : Walk b} {fn : HardwareFunction} {mv : Move}

theorem WindowInv.start (bp : X86_64HardwareBreakpoint b) (threads : List Thread) (calls : Nat) :
    (start bp threads calls).WindowInv := trivial

theorem WindowInv.call (h : w.WindowInv) : (w.call env fn).WindowInv := by
  obtain ⟨bp, threads, index, phase, calls, seen⟩ := w
  unfold Walk.call
  cases hth : threads[index]? with
  | none => cases phase <;> trivial
  | some th =>
    cases phase with
    | getThread =>
      show threadGetState env calls th .x86ThreadState64 _ .x86ThreadState64 = _
      exact threadGetState_self
    | getDebug state =>
      have hbank : ∀ banks, threadGetState env calls th .x86DebugState64 banks .x86ThreadState64 =
          banks .x86ThreadState64 := fun _ => threadGetState_of_ne (by decide)
      dsimp only
      split
      · trivial
      · trivial
      · rename_i hedit
        obtain ⟨d, rfl⟩ := HardwareFunction.exists_setDebugState hedit
        exact (HardwareFunction.general_setDebugState ..).trans ((hbank _).trans h)
    | setThread state => trivial
    | setDebug state => trivial
    | returned result => trivial

theorem WindowInv.step (h : w.WindowInv) (mv : Move) : (w.step env fn mv).WindowInv := by
  cases mv with
  | call => exact h.call
  | target j general => exact h

theorem map_set_eq_iff {α β : Type*} {f : α → β} {list : List α} {i : Nat} {x y : α} (h : list[i]? = some x) :
    (list.set i y).map f = list.map f ↔ f y = f x := by
  obtain ⟨hi, rfl⟩ := List.getElem?_eq_some_iff.1 h
  constructor
  · intro he
    have hget := congrArg (·[i]?) he
    simpa [hi] using hget
  · intro he
    rw [List.map_set, he, ← List.getElem_map f (h := by simpa using hi), List.set_getElem_self]

theorem general_setDebugState (n : Nat) (src : Banks) (th : Thread) :
    (threadSetState env n .x86DebugState64 src th).general = th.general := by
  unfold threadSetState
  split
  · show Function.update th.regs .x86DebugState64 (src .x86DebugState64) .x86ThreadState64 = _
    exact Function.update_of_ne (by decide) ..
  · rfl

theorem general_setThreadState (n : Nat) (src : Banks) (th : Thread) :
    (threadSetState env n .x86ThreadState64 src th).general =
      if env.kr n = kernSuccess then src .x86ThreadState64 else th.general := by
  unfold threadSetState
  split
  · show Function.update th.regs .x86ThreadState64 (src .x86ThreadState64) .x86ThreadState64 = _
    exact Function.update_self ..
  · rfl

theorem keepsProgress_iff_unmoved (h : w.WindowInv) (mv : Move) : w.KeepsProgress env fn mv ↔ w.Unmoved env mv := by
  cases mv with
  | target j general => exact Iff.rfl
  | call =>
    obtain ⟨bp, threads, index, phase, calls, seen⟩ := w
    unfold KeepsProgress Unmoved Walk.call
    cases hth : threads[index]? with
    | none =>
      cases phase with
      | setThread state =>
        refine iff_of_true rfl ?_
        rintro - th ⟨⟩
      | getThread | getDebug | setDebug | returned => exact iff_of_true rfl trivial
    | some th =>
      cases phase with
      | getThread => exact iff_of_true rfl trivial
      | getDebug state =>
        refine iff_of_true ?_ trivial
        dsimp only
        split <;> rfl
      | setThread state =>
        show (threads.set index _).map Thread.general = threads.map Thread.general ↔ _
        have hseen : state.banks .x86ThreadState64 = seen := h
        rw [map_set_eq_iff hth, general_setThreadState, hseen]
        constructor
        · rintro he hk th' ⟨⟩
          rw [if_pos hk] at he; exact he.symm
        · intro he
          split
          · exact (he ‹_› th rfl).symm
          · rfl
      | setDebug state =>
        refine iff_of_true ?_ trivial
        exact (map_set_eq_iff hth).2 (general_setDebugState ..)
      | returned result => exact iff_of_true rfl trivial

/-- In an interleaving of the calls with steps of the threads no call changes a general register exactly when each
call that sets those of a thread finds them as `Load` had found them. -/
theorem keepsProgress_iff (env : Env) (fn : HardwareFunction) (bp : X86_64HardwareBreakpoint b)
    (threads : List Thread) (calls : Nat) (moves : List Move) :
    AtEach (step env fn) (KeepsProgress env fn) (start bp threads calls) moves ↔
      AtEach (step env fn) (Unmoved env) (start bp threads calls) moves :=
  have hstep : ∀ (w : Walk b) (mv : Move), True → w.WindowInv → (w.KeepsProgress env fn mv ↔ w.Unmoved env mv) :=
    fun _ mv _ hw => keepsProgress_iff_unmoved hw mv
  atEach_congr hstep (fun _ mv _ hw _ => hw.step mv) (fun _ _ => trivial) (.start bp threads calls)

/-- The thread has moved on between the call that reads its registers and the one that sets them. -/
theorem not_keepsProgress_window :
    ¬ AtEach (step (.failAt []) .apply) (KeepsProgress (.failAt []) .apply)
      (start (⟨⟨false, 0x1000, none⟩, 0⟩ : X86_64HardwareBreakpoint .x86_64) [⟨1, 0, fun _ _ => 0⟩] 0)
      [.call, .call, .target 0 (fun _ => 7), .call] := by
  intro h
  have hregs := h [.call, .call, .target 0 (fun _ => 7)] .call [] rfl
  have hword := congrArg (List.map fun bank : Bank => bank 32) hregs
  revert hword; decide

/-! ### A walk with no steps in between -/

/-- The walk at the head of `ths`, with the threads `done` behind it. -/
def headOf (bp : X86_64HardwareBreakpoint b) (done ths : List Thread) (calls : Nat) (seen : Bank) : Walk b :=
  ⟨bp, done ++ ths, done.length, .getThread, calls, seen⟩

/-- The walk has returned what a loop returns that leaves the threads `done` behind it. -/
structure Returned (done : List Thread) (r : Bool × X86_64HardwareBreakpoint b × List Thread × Nat) (w : Walk b) :
    Prop where
  phase : w.phase = .returned r.1
  bp : w.bp = r.2.1
  threads : w.threads = done ++ r.2.2.1
  calls : w.calls = r.2.2.2

/-- The state object after the first of the two calls of `Load`. -/
def halfLoaded (env : Env) (th : Thread) (n : Nat) : ThreadState :=
  let state := ThreadState.new .x64 th.port (env.heap n)
  { state with banks := threadGetState env n th .x86ThreadState64 state.banks }

section
variable {done ths : List Thread} {th : Thread} {state : ThreadState}

theorem getElem?_head : (done ++ th :: ths)[done.length]? = some th := by simp

theorem set_head (th' : Thread) : (done ++ th :: ths).set done.length th' = done ++ th' :: ths := by simp

variable (env fn) (bp : X86_64HardwareBreakpoint b) (done ths th) (n : Nat) (seen : Bank)

theorem call_getThread : ∃ seen', call env fn (headOf bp done (th :: ths) n seen) =
    ⟨bp, done ++ th :: ths, done.length, .getDebug (halfLoaded env th n), n + 1, seen'⟩ := by
  unfold call headOf
  simp only [getElem?_head]
  exact ⟨_, rfl⟩

theorem call_getDebug :
    call env fn ⟨bp, done ++ th :: ths, done.length, .getDebug (halfLoaded env th n), n + 1, seen⟩ =
      match fn.edit bp (HardwareFunction.loaded env th n) with
      | .giveUp => ⟨bp, done ++ th :: ths, done.length, .returned false, n + 2, seen⟩
      | .skip => headOf bp (done ++ [th]) ths (n + 2) seen
      | .save bp state => ⟨bp, done ++ th :: ths, done.length, .setThread state, n + 2, seen⟩ := by
  have hnext : headOf bp (done ++ [th]) ths (n + 2) seen =
      ⟨bp, done ++ th :: ths, done.length + 1, .getThread, n + 2, seen⟩ := by
    simp [headOf]
  rw [hnext]
  unfold call
  simp only [getElem?_head]
  rfl

theorem call_setThread_setDebug (hcls : state.cls = .x64) :
    call env fn (call env fn ⟨bp, done ++ th :: ths, done.length, .setThread state, n + 2, seen⟩) =
      headOf bp (done ++ [(state.save env (n + 2) th).2]) ths (n + 4) seen := by
  unfold call
  simp only [getElem?_head, set_head]
  unfold headOf
  simp only [ThreadState.save, hcls, List.append_assoc, List.singleton_append, List.length_append,
    List.length_singleton]
  rfl

end

theorem Returned.behind {done : List Thread} {th : Thread}
    {r : Bool × X86_64HardwareBreakpoint b × List Thread × Nat} (h : Returned (done ++ [th]) r w) :
    Returned done (r.1, r.2.1, th :: r.2.2.1, r.2.2.2) w :=
  ⟨h.phase, h.bp, by rw [h.threads, List.append_assoc]; rfl, h.calls⟩

/-- The walk does call by call what the loop does. -/
theorem reaches_loop (fn : HardwareFunction) (bp : X86_64HardwareBreakpoint b) (done ths : List Thread) (n : Nat)
    (seen : Bank) : ∃ k, Returned done (fn.loop env bp ths n) ((call env fn)^[k] (headOf bp done ths n seen)) := by
  induction ths generalizing bp done n seen with
  | nil =>
    have hnone : (done ++ [])[done.length]? = none := by simp
    have hcall : call env fn (headOf bp done [] n seen) = ⟨bp, done ++ [], done.length, .returned true, n, seen⟩ := by
      unfold call headOf
      simp only [hnone]
    refine ⟨1, ?_⟩
    rw [Function.iterate_one, hcall]
    cases fn <;> exact ⟨rfl, rfl, rfl, rfl⟩
  | cons th ths ih =>
    obtain ⟨seen₁, h₁⟩ := call_getThread env fn done ths th bp n seen
    have h₂ := call_getDebug env fn done ths th bp n seen₁
    rw [HardwareFunction.loop_cons]
    cases hedit : fn.edit bp (HardwareFunction.loaded env th n) with
    | giveUp =>
      rw [hedit] at h₂
      refine ⟨2, ?_⟩
      rw [Function.iterate_succ_apply, Function.iterate_one, h₁, h₂]
      exact ⟨rfl, rfl, rfl, rfl⟩
    | skip =>
      rw [hedit] at h₂
      obtain ⟨k, hk⟩ := ih bp (done ++ [th]) (n + 2) seen₁
      refine ⟨k + 2, ?_⟩
      rw [Function.iterate_succ_apply, Function.iterate_succ_apply, h₁, h₂]
      exact hk.behind
    | save bp' state =>
      rw [hedit] at h₂
      have hcls : state.cls = .x64 := by
        obtain ⟨d, rfl⟩ := HardwareFunction.exists_setDebugState hedit
        rfl
      have h₃ := call_setThread_setDebug env fn done ths th bp' n seen₁ hcls
      obtain ⟨k, hk⟩ := ih bp' (done ++ [(state.save env (n + 2) th).2]) (n + 4) seen₁
      refine ⟨k + 4, ?_⟩
      rw [Function.iterate_succ_apply, Function.iterate_succ_apply, Function.iterate_succ_apply,
        Function.iterate_succ_apply, h₁, h₂, h₃]
      exact hk.behind

end Walk

end MasterLib
