import MasterLib.ExceptionHandler
import MasterLib.HardwareLoops
import MasterLib.Runs

/-!
# The faulting thread

What `ExceptionCallback` leaves of the thread it suspends: its suspend count, and its registers. The `Reset` it ends
with changes x86 banks only (`forall₂_reset`), so the ARM banks are what `Save` has put there, out of an object
that no `Load` has filled in.
-/

namespace MasterLib
open Runs

variable {b : Build} {env : Env}

/-! ### `Reset` leaves everything but the x86 banks -/

theorem forall₂_putThreads {R : Thread → Thread → Prop} (hrefl : ∀ th, R th th) {ignore : MachPort}
    {ths new : List Thread} (h : List.Forall₂ R (ths.filter (·.port ≠ ignore)) new) :
    List.Forall₂ R ths (putThreads ignore ths new) := by
  induction ths generalizing new with
  | nil => exact .nil
  | cons th ths ih =>
    by_cases hth : th.port = ignore
    · rw [List.filter_cons_of_neg (by simp [hth])] at h
      simp only [putThreads, if_pos hth]
      exact .cons (hrefl th) (ih h)
    · rw [List.filter_cons_of_pos (by simp [hth])] at h
      cases h with
      | cons hhead htail =>
        simp only [putThreads, if_neg hth]
        exact .cons hhead (ih htail)

theorem threads_writeMemory (a : VmAddress b) (bytes : List Byte) (t : Task b) :
    (writeMemory env a bytes true t).2.threads = t.threads := by
  rw [writeMemory_eq]
  split <;> rfl

namespace X86_64HardwareBreakpoint
variable {bp : X86_64HardwareBreakpoint b}

theorem forall₂_resetLoop (env : Env) (bp : X86_64HardwareBreakpoint b) (ths : List Thread) (n : Nat) :
    List.Forall₂ (ChangedIn ThreadStateClass.x64.flavors) ths (resetLoop env bp ths n).2.2.1 := by
  induction ths generalizing bp n with
  | nil => exact .nil
  | cons th ths ih =>
    rw [resetLoop]
    cases hs : slotHolding bp.address ((ThreadState.new .x64 th.port (env.heap n)).load env th n).2.debugState with
    | none =>
      simp only [hs]
      exact .cons (.refl _ th) (ih ..)
    | some k =>
      simp only [hs]
      exact .cons (changedIn_setStates (List.Subset.refl _) _) (ih ..)

theorem forall₂_reset (t : Task b) :
    List.Forall₂ (ChangedIn ThreadStateClass.x64.flavors) t.threads (bp.reset env t).2.2.threads := by
  have hloop := forall₂_resetLoop env bp (t.threadsExcept env.self) t.calls
  show List.Forall₂ _ _ (t.putThreads env.self (resetLoop env bp (t.threadsExcept env.self) t.calls).2.2.1).threads
  unfold Task.threadsExcept Task.putThreads at *
  by_cases hcls : (threadClass t).isSome
  · simp only [if_pos hcls] at hloop ⊢
    exact forall₂_putThreads (.refl _) hloop
  · simp only [if_neg hcls]
    exact List.forall₂_same.2 fun th _ => .refl _ th

end X86_64HardwareBreakpoint

theorem Breakpoint.forall₂_reset (bp : Breakpoint b) (t : Task b) :
    List.Forall₂ (ChangedIn ThreadStateClass.x64.flavors) t.threads (bp.reset env t).2.2.threads := by
  have hsame : List.Forall₂ (ChangedIn ThreadStateClass.x64.flavors) t.threads t.threads :=
    List.forall₂_same.2 fun th _ => .refl _ th
  cases bp with
  | software bp =>
    have hthreads : (bp.reset env t).2.2.threads = t.threads := by
      rw [SoftwareBreakpoint.reset_eq]
      exact threads_writeMemory _ _ _
    show List.Forall₂ _ _ (bp.reset env t).2.2.threads
    rw [hthreads]; exact hsame
  | x86_64Hardware bp => exact X86_64HardwareBreakpoint.forall₂_reset t
  | armv7Hardware bp => exact hsame

namespace Session
variable {s : Session b} {lookup : Lookup} {handler : ExceptionHandler} {exception : Exception} {p : BpPtr}
  {state : ThreadState} {port : MachPort}

/-! ### What is caught -/

/-- The object is an ARM thread state for the faulting thread, and holds what its allocation found. -/
theorem caught_spec (hc : s.caught env lookup exception = some (p, state)) :
    state.thread = exception.thread ∧ state.banks = env.heap s.task.calls ∧
      state.cls.flavors.length ≤ 5 ∧ ∀ f ∈ state.cls.flavors, f ∉ ThreadStateClass.x64.flavors := by
  unfold caught Exception.exceptionThreadState Task.wrapThread at hc
  obtain ⟨cls, hcls, rfl⟩ : ∃ cls, b.wrapperClass (runningPlatform s.task) = some cls ∧
      state = .new cls exception.thread (env.heap s.task.calls) := by
    cases hcls : b.wrapperClass (runningPlatform s.task) with
    | none => simp [hcls] at hc
    | some cls =>
      refine ⟨cls, rfl, ?_⟩
      simp only [hcls] at hc
      split at hc
      · cases hc
      · split at hc
        · cases hc
        · split at hc
          · rcases Option.map_eq_some_iff.1 hc with ⟨_, -, heq⟩
            exact (Prod.mk.inj heq).2.symm
          · cases hc
  refine ⟨rfl, rfl, ?_⟩
  show cls.flavors.length ≤ 5 ∧ ∀ f ∈ cls.flavors, _
  unfold Build.wrapperClass at hcls
  split at hcls
  · cases hcls; decide
  · cases hcls; decide
  · cases hcls

/-! ### Suspend counts -/

def suspendCounts (s : Session b) : List (MachPort × Nat) := s.liveThreads.map fun th => (th.port, th.suspendCount)

def HasThread (port : MachPort) (s : Session b) : Prop := ∃ th ∈ s.liveThreads, th.port = port

theorem liveThreads_onThread (f : Thread → Thread) : (s.onThread port f).liveThreads =
    s.liveThreads.map fun th => if th.port = port then f th else th := (List.map_append ..).symm

theorem suspendCounts_resume : (s.resume port).suspendCounts =
    s.suspendCounts.map fun c => if c.1 = port then (c.1, c.2 - 1) else c := by
  unfold suspendCounts resume
  rw [liveThreads_onThread, List.map_map, List.map_map]
  refine List.map_congr_left fun th _ => ?_
  by_cases h : th.port = port <;> simp [threadResume, h]

theorem suspendCounts_resume_suspend : ((s.suspend port).resume port).suspendCounts = s.suspendCounts := by
  unfold suspendCounts resume suspend
  rw [liveThreads_onThread, liveThreads_onThread, List.map_map, List.map_map]
  refine List.map_congr_left fun th _ => ?_
  by_cases h : th.port = port <;> simp [threadSuspend, threadResume, h]

theorem suspendCounts_suspend_eq_self_iff : (s.suspend port).suspendCounts = s.suspendCounts ↔ ¬s.HasThread port := by
  unfold suspendCounts suspend
  rw [liveThreads_onThread, List.map_map, List.map_inj_left]
  constructor
  · rintro h ⟨th, hth, hport⟩
    have hcount := congrArg Prod.snd (h th hth)
    simp only [Function.comp_apply, if_pos hport] at hcount
    exact Nat.succ_ne_self _ hcount
  · intro h th hth
    simp only [Function.comp_apply, if_neg fun hport => h ⟨th, hth, hport⟩]

/-- After `Save` comes a `Reset`, which has to do with threads of the target only. -/
theorem forall₂_serve (env : Env) (p : BpPtr) (state : ThreadState) (s : Session b) :
    List.Forall₂ (ChangedIn ThreadStateClass.x64.flavors) (s.saveState env state).liveThreads
      (s.serve env p state).liveThreads :=
  List.rel_append (Breakpoint.forall₂_reset _ _) (List.forall₂_same.2 fun th _ => .refl _ th)

theorem liveThreads_saveState : (s.saveState env state).liveThreads =
    s.liveThreads.map fun th => if th.port = state.thread then (state.save env s.task.calls th).2 else th :=
  liveThreads_onThread _

theorem suspendCounts_saveState : (s.saveState env state).suspendCounts = s.suspendCounts := by
  unfold suspendCounts
  rw [liveThreads_saveState, List.map_map]
  refine List.map_congr_left fun th _ => ?_
  show (Thread.port (ite _ _ _), Thread.suspendCount (ite _ _ _)) = _
  split
  · have hsaved : ChangedIn state.cls.flavors th (setStates env state.banks state.cls.flavors s.task.calls th) :=
      changedIn_setStates (List.Subset.refl _) _
    exact Prod.ext hsaved.port hsaved.suspendCount
  · rfl

theorem suspendCounts_serve : (s.serve env p state).suspendCounts = s.suspendCounts := by
  have hreset : List.Forall₂ (· = ·) (s.saveState env state).suspendCounts (s.serve env p state).suspendCounts := by
    unfold suspendCounts
    rw [List.forall₂_map_left_iff, List.forall₂_map_right_iff]
    exact (forall₂_serve env p state s).imp fun th th' h => by rw [h.port, h.suspendCount]
  rw [List.forall₂_eq_eq_eq] at hreset
  rw [← hreset, suspendCounts_saveState]

/-- The callback that is run for the exception throws. -/
def Throws (env : Env) (lookup : Lookup) (exception : Exception) (s : Session b) : Prop :=
  ∃ p state, s.caught env lookup exception = some (p, state) ∧ outcome (s.heap p).callback state = none

theorem throws_iff : s.Throws env lookup exception ↔
    ∃ c ∈ s.caught env lookup exception, outcome (s.heap c.1).callback c.2 = none := by
  simp [Throws]

instance : Decidable (s.Throws env lookup exception) := decidable_of_iff _ throws_iff.symm

theorem not_throws {left : ThreadState} (hc : s.caught env lookup exception = some (p, state))
    (hleft : outcome (s.heap p).callback state = some left) : ¬s.Throws env lookup exception := by
  rintro ⟨p', state', hc', hthrown⟩
  obtain ⟨rfl, rfl⟩ := Prod.mk.inj (Option.some.inj (hc.symm.trans hc'))
  rw [hleft] at hthrown; cases hthrown

/-- The exit for exceptions of another type does not resume the thread, and what a callback throws leaves
`ExceptionCallback` before it is resumed. -/
theorem suspendCounts_exceptionCallback (env : Env) (lookup : Lookup) (handler : ExceptionHandler)
    (exception : Exception) (s : Session b) :
    (exception.type = excBreakpoint ∧ ¬s.Throws env lookup exception →
      (s.exceptionCallback env lookup handler exception).2.2.suspendCounts = s.suspendCounts) ∧
    (¬(exception.type = excBreakpoint ∧ ¬s.Throws env lookup exception) →
      (s.exceptionCallback env lookup handler exception).2.2.suspendCounts =
        (s.suspend exception.thread).suspendCounts) := by
  rcases exceptionCallback_cases env lookup exception s with
    htype | ⟨htype, hc⟩ | ⟨p, state, hc, hthrown | ⟨left, hleft⟩⟩
  · rw [exceptionCallback_foreign htype]
    exact ⟨fun h => absurd h.1 htype, fun _ => rfl⟩
  · have hreturns : ¬s.Throws env lookup exception := by
      rintro ⟨p, state, hc', -⟩
      rw [hc] at hc'; cases hc'
    rw [exceptionCallback_uncaught htype hc]
    exact ⟨fun _ => suspendCounts_resume_suspend, fun h => absurd ⟨htype, hreturns⟩ h⟩
  · rw [exceptionCallback_thrown hc hthrown]
    exact ⟨fun h => absurd ⟨p, state, hc, hthrown⟩ h.2, fun _ => rfl⟩
  · rw [exceptionCallback_served hc hleft]
    refine ⟨fun _ => ?_, fun h => absurd ⟨caught_type hc, not_throws hc hleft⟩ h⟩
    rw [suspendCounts_resume, suspendCounts_serve]
    exact suspendCounts_resume.symm.trans suspendCounts_resume_suspend

/-- An exception, and what has happened since the one before it: anything that leaves the suspend counts alone. -/
structure Delivery (b : Build) where
  before : Session b → Session b
  suspendCounts_before : ∀ s, (before s).suspendCounts = s.suspendCounts
  lookup : Lookup
  exception : Exception

/-- Once an exception has left a callback there is nobody to deliver to. -/
def deliver (env : Env) (c : ExceptionHandler × Session b) (d : Delivery b) : ExceptionHandler × Session b :=
  let s := d.before c.2
  if s.terminated then (c.1, s) else (s.exceptionCallback env d.lookup c.1 d.exception).2

/-- However many of the exceptions have been delivered, every thread is suspended as often as before the first. -/
def KeepsSuspendCounts (env : Env) (handler : ExceptionHandler) (s : Session b) (ds : List (Delivery b)) : Prop :=
  ∀ done, done <+: ds → (done.foldl (deliver env) (handler, s)).2.suspendCounts = s.suspendCounts

/-- In the session it finds, the exception is a breakpoint's whose callback, if one is run, does not throw; or its
thread is none that lives; or nobody is there to handle it. -/
def Resumes (env : Env) (c : ExceptionHandler × Session b) (d : Delivery b) : Prop :=
  let s := d.before c.2
  d.exception.type = excBreakpoint ∧ ¬s.Throws env d.lookup d.exception ∨ ¬s.HasThread d.exception.thread ∨
    s.terminated = true

theorem suspendCounts_deliver {c : ExceptionHandler × Session b} {d : Delivery b} :
    (deliver env c d).2.suspendCounts = c.2.suspendCounts ↔ Resumes env c d := by
  have hbefore := d.suspendCounts_before c.2
  unfold deliver Resumes
  by_cases hgone : (d.before c.2).terminated = true
  · simp only [if_pos hgone]
    exact iff_of_true hbefore (.inr (.inr hgone))
  simp only [if_neg hgone, or_iff_left hgone, ← hbefore]
  rcases suspendCounts_exceptionCallback env d.lookup c.1 d.exception (d.before c.2) with ⟨hkept, hstuck⟩
  by_cases hreturns : d.exception.type = excBreakpoint ∧ ¬(d.before c.2).Throws env d.lookup d.exception
  · exact iff_of_true (hkept hreturns) (.inl hreturns)
  · rw [hstuck hreturns, suspendCounts_suspend_eq_self_iff]
    exact (or_iff_right hreturns).symm

/-- The counts stay as they are exactly if every exception that somebody is there to handle is a breakpoint's whose
callback returns, or one of a thread that lives no more. -/
theorem keepsSuspendCounts_iff (env : Env) (handler : ExceptionHandler) (s : Session b) (ds : List (Delivery b)) :
    KeepsSuspendCounts env handler s ds ↔ AtEach (deliver env) (Resumes env) (handler, s) ds := by
  constructor
  · rintro h done d rest rfl
    have hdone := h done ⟨d :: rest, rfl⟩
    have hthen := h (done ++ [d]) ⟨rest, by rw [List.append_assoc]; rfl⟩
    rw [List.foldl_append, ← hdone] at hthen
    exact suspendCounts_deliver.1 hthen
  · rintro h done hdone
    induction done using List.reverseRecOn with
    | nil => rfl
    | append_singleton done d ih =>
      rcases hdone with ⟨rest, rfl⟩
      have hresumes := h done d rest (by rw [List.append_assoc]; rfl)
      rw [List.foldl_append, ← ih ⟨d :: rest, by rw [List.append_assoc]; rfl⟩]
      exact suspendCounts_deliver.2 hresumes

/-- A bad access of a thread of the target leaves it suspended. -/
theorem not_keepsSuspendCounts_badAccess : ¬KeepsSuspendCounts (.failAt []) ⟨[]⟩ stoppedThread
    [⟨id, fun _ => rfl, ⟨kernSuccess, true⟩, ⟨1, 0, 1⟩⟩] := by
  intro h
  have hcounts := h _ (List.prefix_refl _)
  revert hcounts; decide

/-! ### Registers -/

/-- The object after a `Load` that has read every bank of `th`. -/
def holding (th : Thread) (state : ThreadState) : ThreadState :=
  { state with
    banks := fun f => if f ∈ state.cls.flavors then th.regs f else state.banks f
    registers := state.registers ++ state.cls.registers }

theorem load_eq_holding (hk : env.AllSucceed) (th : Thread) (n : Nat) : (state.load env th n).2 = holding th state := by
  have hbanks : getStates env th state.cls.flavors n state.banks =
      fun f => if f ∈ state.cls.flavors then th.regs f else state.banks f := funext (getStates_ok hk _ n)
  rw [ThreadState.load, holding, hbanks]

/-- The callback, if there is one, was given the registers of `th`, and those of `th'` are what it makes of an object
that is loaded with them. -/
structure Transparent (callback : Option Callback) (state : ThreadState) (th th' : Thread) : Prop where
  given : callback.isSome = true → ∀ f ∈ state.cls.flavors, state.banks f = th.regs f
  after : ∃ left, outcome callback (holding th state) = some left ∧ ∀ f ∈ state.cls.flavors, th'.regs f = left.banks f

/-- If the exception is reported as handled, handling it was transparent to its thread. -/
def HandlesTransparently (env : Env) (lookup : Lookup) (handler : ExceptionHandler) (exception : Exception)
    (s : Session b) : Prop :=
  (s.exceptionCallback env lookup handler exception).1 = some kernSuccess →
    ∃ p state, s.caught env lookup exception = some (p, state) ∧
      List.Forall₂ (fun th th' => th.port = exception.thread → Transparent (s.heap p).callback state th th')
        s.liveThreads (s.exceptionCallback env lookup handler exception).2.2.liveThreads

/-- What the allocation of the object found is the registers of `th`, and the callback, which finds no register by its
name in it, leaves in its banks what it leaves in those of an object that is loaded. -/
structure StandsIn (env : Env) (s : Session b) (callback : Option Callback) (state : ThreadState) (th : Thread) :
    Prop where
  found : ∀ f ∈ state.cls.flavors, env.heap s.task.calls f = th.regs f
  same : ∀ left, outcome callback state = some left → ∃ left', outcome callback (holding th state) = some left' ∧
    ∀ f ∈ state.cls.flavors, left.banks f = left'.banks f

/-- `Save` writes the object into the faulting thread, and nothing after it touches an ARM bank. -/
theorem forall₂_exceptionCallback (handler : ExceptionHandler) {left : ThreadState}
    (hsave : ∀ i < 5, env.kr (s.task.calls + i) = kernSuccess)
    (hc : s.caught env lookup exception = some (p, state)) (hleft : outcome (s.heap p).callback state = some left) :
    List.Forall₂ (fun th th' => th.port = exception.thread → ∀ f ∈ state.cls.flavors, th'.regs f = left.banks f)
      s.liveThreads (s.exceptionCallback env lookup handler exception).2.2.liveThreads := by
  rcases caught_spec hc with ⟨hthread, -, hlen, harm⟩
  rcases outcome_keeps hleft with ⟨hcls, hport⟩
  rw [exceptionCallback_served hc hleft]
  show List.Forall₂ _ _ (resume _ _).liveThreads
  rw [resume, liveThreads_onThread, List.forall₂_map_right_iff]
  have hserve := forall₂_serve env p left ((s.suspend exception.thread).called p)
  have hsuspend : ((s.suspend exception.thread).called p).liveThreads =
      s.liveThreads.map fun th => if th.port = exception.thread then threadSuspend th else th :=
    liveThreads_onThread _
  rw [liveThreads_saveState, hsuspend, List.map_map, List.forall₂_map_left_iff] at hserve
  refine hserve.imp fun th th' hchanged hth f hf => ?_
  have hresumed : (if th'.port = exception.thread then threadResume th' else th').regs f = th'.regs f := by
    split <;> rfl
  have hsuspended : (threadSuspend th).port = left.thread := hth.trans (hport.trans hthread).symm
  have hcalls : ∀ i < left.cls.flavors.length, env.kr (s.task.calls + i) = kernSuccess := by
    intro i hi
    rw [hcls] at hi
    exact hsave i (by omega)
  have hsaved : (left.save env s.task.calls (threadSuspend th)).2.regs f = left.banks f := by
    rw [ThreadState.save, setStates_of_succeed hcalls, hcls]
    exact if_pos hf
  rw [hresumed, hchanged.regs f (harm f hf), Function.comp_apply, if_pos hth, if_pos hsuspended]
  exact hsaved

/-- Handling is transparent exactly where the callback throws, and nothing is returned, or the object, on which `Load`
is never called, happens to hold the registers of the thread already and the callback does not tell the difference. -/
theorem handlesTransparently_iff (handler : ExceptionHandler)
    (hsave : ∀ i < 5, env.kr (s.task.calls + i) = kernSuccess) :
    HandlesTransparently env lookup handler exception s ↔
      ∀ p state, s.caught env lookup exception = some (p, state) → outcome (s.heap p).callback state ≠ none →
        ∀ th ∈ s.liveThreads, th.port = exception.thread → StandsIn env s (s.heap p).callback state th := by
  constructor
  · intro h p state hc hreturns
    obtain ⟨left, hleft⟩ := Option.ne_none_iff_exists'.1 hreturns
    rcases h (exceptionCallback_fst.2 ⟨p, state, left, hc, hleft⟩) with ⟨p', state', hc', htransparent⟩
    obtain ⟨rfl, rfl⟩ := Prod.mk.inj (Option.some.inj (hc.symm.trans hc'))
    have hbanks : state.banks = env.heap s.task.calls := (caught_spec hc).2.1
    have hafter := forall₂_exceptionCallback handler hsave hc hleft
    have hstands : List.Forall₂ (fun th _ =>
          (th.port = exception.thread → StandsIn env s (s.heap p).callback state th) ∧ True)
        s.liveThreads (s.exceptionCallback env lookup handler exception).2.2.liveThreads := by
      refine List.Forall₂.mp (fun th th' htr hobject => ⟨fun hth => ?_, trivial⟩) htransparent hafter
      obtain ⟨left', hleft', hregs⟩ := (htr hth).after
      have hsame : ∀ f ∈ state.cls.flavors, left.banks f = left'.banks f := fun f hf =>
        (hobject hth f hf).symm.trans (hregs f hf)
      refine ⟨fun f hf => ?_, fun left₁ hleft₁ => ?_⟩
      · rw [← hbanks]
        by_cases hsome : (s.heap p).callback.isSome = true
        · exact (htr hth).given hsome f hf
        · -- without a callback what is saved is what was found
          have hnone : (s.heap p).callback = none := by simpa using hsome
          rw [hnone] at hleft hleft'
          obtain rfl := Option.some.inj hleft
          obtain rfl := Option.some.inj hleft'
          exact (hsame f hf).trans (if_pos hf)
      · obtain rfl := Option.some.inj (hleft₁.symm.trans hleft)
        exact ⟨left', hleft', hsame⟩
    exact ((List.forall₂_and_left ..).1 hstands).1
  · intro h hret
    rcases exceptionCallback_fst.1 hret with ⟨p, state, left, hc, hleft⟩
    have hbanks : state.banks = env.heap s.task.calls := (caught_spec hc).2.1
    have hafter := forall₂_exceptionCallback handler hsave hc hleft
    have hreturns : outcome (s.heap p).callback state ≠ none := by rw [hleft]; exact Option.some_ne_none _
    refine ⟨p, state, hc, ((List.forall₂_and_left ..).2 ⟨h p state hc hreturns, hafter⟩).imp ?_⟩
    rintro th th' ⟨hstands, hobject⟩ hth
    obtain ⟨left', hleft', hsame⟩ := (hstands hth).same left hleft
    refine ⟨fun _ f hf => ?_, left', hleft', fun f hf => (hobject hth f hf).trans (hsame f hf)⟩
    rw [hbanks]
    exact (hstands hth).found f hf

theorem handlesTransparently_sameRegs :
    HandlesTransparently staleObjects ⟨kernSuccess, true⟩ ⟨[]⟩ ⟨1, 0, excBreakpoint⟩ (trapped (regsAt 0 0x1000)) := by
  refine (handlesTransparently_iff ⟨[]⟩ fun _ _ => rfl).2 ?_
  rintro p state hc - th hth -
  obtain rfl := List.mem_singleton.1 hth
  have hbanks : state.banks = regsAt 0 0x1000 := (caught_spec hc).2.1
  refine ⟨fun _ _ => rfl, fun left hleft => ⟨_, rfl, fun f hf => ?_⟩⟩
  obtain rfl := Option.some.inj hleft
  exact (congrFun hbanks f).trans (if_pos hf).symm

/-- The callback only reads, and the thread has lost its `R0`. -/
theorem not_handlesTransparently_stale :
    ¬HandlesTransparently staleObjects ⟨kernSuccess, true⟩ ⟨[]⟩ ⟨1, 0, excBreakpoint⟩
      (trapped (regsAt 7 0x1000)) := by
  intro h
  rcases h rfl with ⟨p, state, hc, hall⟩
  obtain ⟨rfl, rfl⟩ := Prod.mk.inj (Option.some.inj hc)
  cases hall with
  | cons hthread _ =>
    have hr0 := congrFun ((hthread rfl).given rfl .armThreadState (by decide)) 0
    revert hr0; decide

end Session

end MasterLib
