import MasterLib.BreakpointHandler

/-!
# The loop of `UninstallBreakpoint`

Whatever the list, the loop calls `Reset` on the pointer a number of times that the list alone fixes
(`visits`), unless one of the calls fails and ends it. What it does to the object and to the target is therefore
what that many calls in a row do (`resetTimes`).
-/

namespace MasterLib
open Overlay

variable {b : Build} {env : Env} {p : BpPtr} {s : Session b}

namespace Session

/-- How many elements equal to `p` the loop stops at: after each it skips one. -/
def visits (p : BpPtr) : List BpPtr → Nat
  | [] => 0
  | [q] => if q = p then 1 else 0
  | q :: q' :: rest => if q = p then visits p rest + 1 else visits p (q' :: rest)

/-- `k` calls of `p->Reset()`, ended by the first that fails. -/
def resetTimes (env : Env) (p : BpPtr) : Nat → Session b → Bool × Session b
  | 0, s => (true, s)
  | k + 1, s => if (s.callReset env p).1 then resetTimes env p k (s.callReset env p).2 else s.callReset env p

theorem resetTimes_one : resetTimes env p 1 s = s.callReset env p := by
  cases hr : (s.callReset env p).1 with
  | true => rw [resetTimes, if_pos hr]; exact Prod.ext hr.symm rfl
  | false => rw [resetTimes, if_neg (by simp [hr])]

theorem visits_pos_iff {list : List BpPtr} : 0 < visits p list ↔ p ∈ list := by
  induction list using visits.induct p with
  | case1 => simp [visits]
  | case2 => simp [visits]
  | case3 q h => simp [visits, h, Ne.symm h]
  | case4 q' rest => simp [visits]
  | case5 q q' rest h ih => rw [visits, if_neg h, ih]; simp [Ne.symm h]

theorem visits_of_not_mem {list : List BpPtr} (h : p ∉ list) : visits p list = 0 :=
  Nat.eq_zero_of_not_pos fun hpos => h (visits_pos_iff.1 hpos)

theorem callReset_setBreakpoints (s : Session b) (list : List BpPtr) : { s with breakpoints := list }.callReset env p =
    ((s.callReset env p).1, { (s.callReset env p).2 with breakpoints := list }) := rfl

theorem resetTimes_setBreakpoints (k : Nat) (s : Session b) (list : List BpPtr) :
    resetTimes env p k { s with breakpoints := list } =
      ((resetTimes env p k s).1, { (resetTimes env p k s).2 with breakpoints := list }) := by
  induction k generalizing s with
  | zero => rfl
  | succ k ih =>
    rw [resetTimes, resetTimes, callReset_setBreakpoints]
    split
    · exact ih _
    · rfl

theorem uninstallLoop_failed {done rest : List BpPtr} (hr : (s.callReset env p).1 = false) :
    uninstallLoop env p done (p :: rest) s = (.returned false, (s.callReset env p).2) := by
  rw [uninstallLoop.eq_def]
  simp [hr]

/-- The loop does to everything but the list what `visits` calls of `Reset` do; when one fails it returns `false`
with the pointer still in the list. -/
theorem uninstallLoop_spec (done rest : List BpPtr) (s : Session b) (hs : s.breakpoints = done ++ rest) :
    ∃ exit list, uninstallLoop env p done rest s =
        (exit, { (resetTimes env p (visits p rest) s).2 with breakpoints := list }) ∧
      ((resetTimes env p (visits p rest) s).1 = false → exit = .returned false ∧ p ∈ list) := by
  induction rest using visits.induct p generalizing done s with
  | case1 => exact ⟨_, _, rfl, fun h => nomatch h⟩
  | case2 =>
    rw [uninstallLoop, visits, if_pos rfl, if_pos rfl, resetTimes]
    cases hr : (s.callReset env p).1 with
    | true => exact ⟨.pastEnd, done ++ [], by simp [hr, resetTimes], by simp [resetTimes]⟩
    | false => exact ⟨.returned false, s.breakpoints, by simp [hr]; rfl, fun _ => ⟨rfl, by simp [hs]⟩⟩
  | case3 q h =>
    rw [uninstallLoop, visits, if_neg h, if_neg h]
    exact ⟨_, _, rfl, fun h => nomatch h⟩
  | case4 q' rest ih =>
    rw [uninstallLoop, visits, if_pos rfl, if_pos rfl, resetTimes]
    cases hr : (s.callReset env p).1 with
    | true =>
      obtain ⟨exit, list, hloop, hfail⟩ :=
        ih (done ++ [q']) { (s.callReset env p).2 with breakpoints := done ++ q' :: rest } (by simp)
      rw [resetTimes_setBreakpoints] at hloop hfail
      exact ⟨exit, list, by simpa [hr] using hloop, by simpa using hfail⟩
    | false => exact ⟨.returned false, s.breakpoints, by simp [hr]; rfl, fun _ => ⟨rfl, by simp [hs]⟩⟩
  | case5 q q' rest h ih =>
    rw [uninstallLoop, visits, if_neg h, if_neg h]
    exact ih (done ++ [q]) s (by simp [hs])

theorem uninstallBreakpoint_spec (env : Env) (p : BpPtr) (s : Session b) :
    ∃ exit list, s.uninstallBreakpoint env p =
        (exit, { (resetTimes env p (visits p s.breakpoints) s).2 with breakpoints := list }) ∧
      ((resetTimes env p (visits p s.breakpoints) s).1 = false → exit = .returned false ∧ p ∈ list) :=
  uninstallLoop_spec [] s.breakpoints s rfl

end Session

theorem SoftwareBreakpoint.wasReset_wasReset (bp : SoftwareBreakpoint b) : bp.wasReset.wasReset = bp.wasReset := by
  obtain ⟨⟨act, a, cb⟩, k, sv⟩ := bp
  cases k <;> rfl

namespace Session
variable {bp : SoftwareBreakpoint b} {i k : Nat}

/-! ### Resets of a software breakpoint -/

theorem resetTimes_none (hp : s.heap p = .software bp) (h : env.firstFailure s.task.calls (3 * k) = none) :
    (resetTimes env p k s).1 = true ∧
      (0 < k → (resetTimes env p k s).2.heap p = .software bp.wasReset ∧
        ∃ log, (resetTimes env p k s).2.log = .reset p true :: log) := by
  induction k generalizing s bp with
  | zero => exact ⟨rfl, fun h => absurd h (by omega)⟩
  | succ k ih =>
    rw [Nat.mul_succ, Nat.add_comm, Env.firstFailure_add, Option.or_eq_none_iff, Option.map_eq_none_iff] at h
    have hr : s.callReset env p = _ := callReset_none hp h.1
    have hp' : (s.callReset env p).2.heap p = .software bp.wasReset := heap_callReset_software hp
    have hcalls : (s.callReset env p).2.task.calls = s.task.calls + 3 := by rw [hr]
    have hlog : (s.callReset env p).2.log = .reset p true :: s.log := by rw [hr]
    obtain ⟨h₁, h₂⟩ := ih hp' (by rw [hcalls]; exact h.2)
    rw [resetTimes, if_pos (by rw [hr])]
    refine ⟨h₁, fun _ => ?_⟩
    cases k with
    | zero => exact ⟨hp', _, hlog⟩
    | succ k =>
      obtain ⟨hobj, hlog'⟩ := h₂ (by omega)
      exact ⟨by rw [hobj, SoftwareBreakpoint.wasReset_wasReset], hlog'⟩

/-- What the calls before the failing one, number `i`, have left behind. -/
structure ResetFailedAt (p : BpPtr) (bp : SoftwareBreakpoint b) (i : Nat) (s s' : Session b) : Prop where
  object : s'.heap p = .software bp.wasReset
  mem : s'.task.mem = if 1 < i then overlay s.task.mem bp.address (sent bp.originalOpcode) else s.task.mem
  prot : s'.task.prot =
    if 0 < i then
      protect s.task.prot bp.address bp.originalOpcode.length (if i % 3 = 0 then protRX else protRWX)
    else s.task.prot
  log : ∃ log, s'.log = .reset p false :: log

theorem resetTimes_some (hp : s.heap p = .software bp) (h : env.firstFailure s.task.calls (3 * k) = some i) :
    (resetTimes env p k s).1 = false ∧ ResetFailedAt p bp i s (resetTimes env p k s).2 := by
  induction k generalizing s bp i with
  | zero => cases h
  | succ k ih =>
    rw [Nat.mul_succ, Nat.add_comm, Env.firstFailure_add] at h
    cases hf : env.firstFailure s.task.calls 3 with
    | some j =>
      rw [hf, Option.some_or, Option.some.injEq] at h
      subst h
      have hj := Env.firstFailure_lt hf
      rw [resetTimes, callReset_software hp, writeMemory_some hf, if_neg (by simp)]
      refine ⟨rfl, Function.update_self .., rfl, ?_, ⟨_, rfl⟩⟩
      show (if 0 < j then _ else _) = _
      split
      · rw [if_neg (by omega)]
      · rfl
    | none =>
      rw [hf, Option.none_or] at h
      obtain ⟨j, hj, rfl⟩ := Option.map_eq_some_iff.1 h
      have hr : s.callReset env p = _ := callReset_none hp hf
      have hp' : (s.callReset env p).2.heap p = .software bp.wasReset := heap_callReset_software hp
      have hcalls : (s.callReset env p).2.task.calls = s.task.calls + 3 := by rw [hr]
      have hmem₁ : (s.callReset env p).2.task.mem = overlay s.task.mem bp.address (sent bp.originalOpcode) := by
        rw [hr]
      have hprot₁ : (s.callReset env p).2.task.prot =
          protect s.task.prot bp.address bp.originalOpcode.length protRX := by rw [hr]
      obtain ⟨h₁, hobj, hmem, hprot, hlog⟩ := ih hp' (by rw [hcalls]; exact hj)
      rw [resetTimes, if_pos (by rw [hr])]
      refine ⟨h₁, by rw [hobj, SoftwareBreakpoint.wasReset_wasReset], ?_, ?_, hlog⟩
      · -- the saved bytes are written a second time
        rw [hmem, hmem₁, SoftwareBreakpoint.address_wasReset, SoftwareBreakpoint.originalOpcode_wasReset,
          overlay_overlay (Nat.le_refl _), ite_self, if_pos (by omega)]
      · rw [hprot, hprot₁, if_pos (show 0 < j + 3 by omega), Nat.add_mod_right,
          SoftwareBreakpoint.address_wasReset, SoftwareBreakpoint.originalOpcode_wasReset, protect_protect]
        split
        · rfl
        · rw [show j = 0 by omega]; rfl

end Session

end MasterLib
