import MasterLib.ActiveFlag
import MasterLib.ExceptionHandler
import MasterLib.FirstMatch
import MasterLib.StaleReset
import MasterLib.UninstallLoop

/-!
# Breakpoints that shadow others

`BreakpointAtAddress` returns the first breakpoint registered at an address and `ExceptionCallback` acts on it only
if it is active. So an inactive breakpoint hides an active one registered later at the same address. What an
operation can do about it is to raise the flag of its object or register it (`unshadowed_raise`), or to lower it or
take the object off the list (`unshadowed_lower`). Which of these it does is told by the class of the object, the
threads and what the kernel answers, before anything is called (`BecomesActive`, `StaysActive`, `resetsThatSucceed`).
-/

namespace MasterLib
open Runs X86_64HardwareBreakpoint

variable {b : Build} {env : Env} {p q : BpPtr}

/-! ### What the calls leave of an object -/

namespace Breakpoint
variable {t : Task b}

theorem address_apply (bp : Breakpoint b) : (bp.apply env t).2.1.address = bp.address := by
  cases bp with
  | software bp =>
    show (bp.apply env t).2.1.address = bp.address
    rw [SoftwareBreakpoint.apply_eq]; rfl
  | x86_64Hardware bp =>
    show (bp.apply env t).2.1.address = bp.address
    rw [X86_64HardwareBreakpoint.apply_obj]; rfl
  | armv7Hardware bp => rfl

theorem address_reset (bp : Breakpoint b) : (bp.reset env t).2.1.address = bp.address := by
  cases bp with
  | software bp =>
    show (bp.reset env t).2.1.address = bp.address
    rw [SoftwareBreakpoint.reset_eq]; rfl
  | x86_64Hardware bp =>
    rcases resetLoop_obj env bp (t.threadsExcept env.self) t.calls with ⟨-, active, hobj, -⟩
    exact congrArg (fun bp => bp.address) hobj
  | armv7Hardware bp => rfl

/-- `Reset` never sets it. -/
theorem active_of_reset {bp : Breakpoint b} (h : (bp.reset env t).2.1.active = true) : bp.active = true := by
  cases bp with
  | software bp =>
    change (bp.reset env t).2.1.active = true at h
    rw [SoftwareBreakpoint.reset_eq] at h
    change bp.kind.flag false bp.active = true at h
    show bp.active = true
    cases hk : bp.kind with
    | x86_64 => rw [hk] at h; cases h
    | armv7 | thumbv7 => rw [hk] at h; exact h
  | x86_64Hardware bp =>
    rcases resetLoop_obj env bp (t.threadsExcept env.self) t.calls with ⟨-, active, hobj, hactive⟩
    exact (hactive.1 ((congrArg (fun bp => bp.active) hobj).symm.trans h)).1
  | armv7Hardware bp => exact h

end Breakpoint

/-! ### Keys and flags of a session -/

namespace Session
variable {s s' : Session b}

def addressOf (s : Session b) (p : BpPtr) : VmAddress b := (s.heap p).address

def activeOf (s : Session b) (p : BpPtr) : Bool := (s.heap p).active

/-- Wherever a registered breakpoint is active the lookup finds an active one. -/
def Unshadowed (s : Session b) : Prop :=
  ∀ a, s.ActiveAt a → ∃ p, s.breakpointAtAddress a = some p ∧ s.activeOf p = true

theorem unshadowed_iff_firstMatch :
    s.Unshadowed ↔ FirstMatch.Unshadowed s.addressOf s.activeOf s.breakpoints := Iff.rfl

/-- From `s` to `s'` no address has changed, and no flag but that of `p`. -/
structure OnlyFlag (p : BpPtr) (s s' : Session b) : Prop where
  address : s'.addressOf = s.addressOf
  others : ∀ q, q ≠ p → s'.activeOf q = s.activeOf q

theorem OnlyFlag.refl : OnlyFlag p s s := ⟨rfl, fun _ _ => rfl⟩

theorem OnlyFlag.trans {s'' : Session b} (h : OnlyFlag p s s') (h' : OnlyFlag p s' s'') : OnlyFlag p s s'' :=
  ⟨h'.address.trans h.address, fun q hq => (h'.others q hq).trans (h.others q hq)⟩

theorem onlyFlag_update {bp : Breakpoint b} (hs' : s'.heap = Function.update s.heap p bp)
    (haddr : bp.address = (s.heap p).address) : OnlyFlag p s s' := by
  refine ⟨funext fun q => ?_, fun q hq => ?_⟩
  · unfold addressOf
    by_cases hqp : q = p
    · subst hqp; rw [hs', Function.update_self, haddr]
    · rw [hs', Function.update_of_ne hqp]
  · unfold activeOf
    rw [hs', Function.update_of_ne hq]

theorem onlyFlag_callApply : OnlyFlag p s (s.callApply env p).2 :=
  onlyFlag_update rfl (Breakpoint.address_apply (s.heap p))

theorem onlyFlag_callReset : OnlyFlag p s (s.callReset env p).2 :=
  onlyFlag_update rfl (Breakpoint.address_reset (s.heap p))

/-- `active()` after an `Apply`: ARM and THUMB breakpoints leave the flag, and a hardware breakpoint sets it for the
first thread that it has a slot for. -/
def BecomesActive (env : Env) (p : BpPtr) (s : Session b) : Prop :=
  match s.heap p with
  | .software bp => bp.kind = .x86_64 ∨ bp.active = true
  | .x86_64Hardware bp => bp.active = true ∨ s.task.threadsExcept env.self ≠ [] ∧ slotsLeft bp.inUse ≠ 0
  | .armv7Hardware bp => bp.active = true

/-- What `Apply` returns: the three calls of a forced write come after the one that reads. -/
def ApplySucceeds (env : Env) (p : BpPtr) (s : Session b) : Prop :=
  match s.heap p with
  | .software _ => env.firstFailure (s.task.calls + 1) 3 = none
  | .x86_64Hardware bp => (s.task.threadsExcept env.self).length ≤ slotsLeft bp.inUse
  | .armv7Hardware _ => False

/-- `active()` after `k` calls of `Reset`, the first that fails being the last. On x86_64 any of them clears the flag of
a software breakpoint. That of a hardware breakpoint is cleared where the address is found, in whichever round, and up
to there each round makes two calls for a thread. -/
def StaysActive (env : Env) (p : BpPtr) (k : Nat) (s : Session b) : Prop :=
  match s.heap p with
  | .software bp => bp.kind ≠ .x86_64 ∧ bp.active = true
  | .x86_64Hardware bp =>
    let ths := s.task.threadsExcept env.self
    bp.active = true ∧ ∀ j < k, ¬Finds env bp.address (s.task.calls + 2 * ths.length * j) ths
  | .armv7Hardware bp => bp.active = true

/-- How many of them succeed. -/
def resetsThatSucceed (env : Env) (p : BpPtr) (k : Nat) (s : Session b) : Nat :=
  match s.heap p with
  | .software _ => (env.firstFailure s.task.calls (3 * k)).elim k (· / 3)
  | .x86_64Hardware _ => k
  | .armv7Hardware _ => 0

theorem activeOf_callApply : (s.callApply env p).2.activeOf p = true ↔ BecomesActive env p s := by
  rw [activeOf, heap_callApply_self, BecomesActive]
  cases s.heap p with
  | software bp =>
    show (bp.apply env s.task).2.1.active = true ↔ _
    rw [SoftwareBreakpoint.apply_eq]
    show bp.kind.flag true bp.active = true ↔ bp.kind = .x86_64 ∨ bp.active = true
    cases bp.kind <;> simp [SoftwareKind.flag]
  | x86_64Hardware bp =>
    show (bp.apply env s.task).2.1.active = true ↔ _
    rw [apply_obj, countedUp]
    show (bp.active || decide _) = true ↔ bp.active = true ∨ _
    rw [Bool.or_eq_true, decide_eq_true_iff, lt_min_iff, List.length_pos_iff, Nat.pos_iff_ne_zero]
  | armv7Hardware bp => exact Iff.rfl

theorem activeOf_callApply_of_activeOf (h : s.activeOf p = true) : (s.callApply env p).2.activeOf p = true := by
  rw [activeOf_callApply, BecomesActive]
  unfold activeOf at h
  cases hp : s.heap p with
  | software bp => rw [hp] at h; exact .inr h
  | x86_64Hardware bp => rw [hp] at h; exact .inl h
  | armv7Hardware bp => rw [hp] at h; exact h

theorem fst_callApply : (s.callApply env p).1 = true ↔ ApplySucceeds env p s := by
  rw [ApplySucceeds]
  cases hp : s.heap p with
  | software bp =>
    rw [callApply_software hp]
    exact fst_writeMemory ..
  | x86_64Hardware bp =>
    rw [callApply_hardware hp, apply_fst]
    exact decide_eq_true_iff
  | armv7Hardware bp =>
    rw [callApply_armv7Hardware hp]
    exact iff_of_false Bool.false_ne_true not_false

theorem activeOf_of_callReset (h : (s.callReset env p).2.activeOf p = true) : s.activeOf p = true := by
  unfold activeOf at h
  rw [heap_callReset_self] at h
  exact Breakpoint.active_of_reset h

theorem onlyFlag_resetTimes (k : Nat) : OnlyFlag p s (resetTimes env p k s).2 ∧
    ((resetTimes env p k s).2.activeOf p = true → s.activeOf p = true) := by
  induction k generalizing s with
  | zero => exact ⟨.refl, id⟩
  | succ k ih =>
    rw [resetTimes]
    split
    · exact ⟨onlyFlag_callReset.trans ih.1, fun h => activeOf_of_callReset (ih.2 h)⟩
    · exact ⟨onlyFlag_callReset, activeOf_of_callReset⟩

/-- A round that does not find the address changes nothing but the number of the next kernel call. -/
theorem reset_of_not_finds {bp : X86_64HardwareBreakpoint b} {t : Task b}
    (h : ¬Finds env bp.address t.calls (t.threadsExcept env.self)) : bp.reset env t =
      (true, bp, { t with calls := t.calls + 2 * (t.threadsExcept env.self).length }) := by
  rw [X86_64HardwareBreakpoint.reset, resetLoop_of_not_finds h]
  simp only [putThreads_threadsExcept]

theorem activeOf_resetTimes_hardware {bp : X86_64HardwareBreakpoint b} (hp : s.heap p = .x86_64Hardware bp) (k : Nat) :
    (resetTimes env p k s).2.activeOf p = true ↔ StaysActive env p k s := by
  rw [StaysActive, hp]
  induction k generalizing s with
  | zero =>
    rw [resetTimes, activeOf, hp]
    exact (and_iff_left fun j hj => absurd hj (Nat.not_lt_zero j)).symm
  | succ k ih =>
    have hcall : s.callReset env p = _ := callReset_hardware hp
    have hret : (s.callReset env p).1 = true := by
      rw [hcall]
      exact (resetLoop_obj ..).1
    rw [resetTimes, if_pos hret]
    by_cases hfinds : Finds env bp.address s.task.calls (s.task.threadsExcept env.self)
    · -- cleared in this round, and no `Reset` sets it again
      have hcleared : (s.callReset env p).2.activeOf p ≠ true := by
        rcases resetLoop_obj env bp (s.task.threadsExcept env.self) s.task.calls with ⟨-, active, hobj, hactive⟩
        rw [activeOf, heap_callReset_self, hp]
        intro h
        exact (hactive.1 ((congrArg (fun bp => bp.active) hobj).symm.trans h)).2 hfinds
      refine iff_of_false (fun h => hcleared ((onlyFlag_resetTimes k).2 h)) fun h => h.2 0 k.succ_pos ?_
      exact hfinds
    · have hp' : (s.callReset env p).2.heap p = .x86_64Hardware bp := by
        rw [heap_callReset_self, hp]
        exact congrArg (fun r => Breakpoint.x86_64Hardware r.2.1) (reset_of_not_finds hfinds)
      have htask : (s.callReset env p).2.task =
          { s.task with calls := s.task.calls + 2 * (s.task.threadsExcept env.self).length } := by
        rw [hcall]
        exact congrArg (fun r => r.2.2) (reset_of_not_finds hfinds)
      rw [ih hp', htask]
      refine and_congr_right fun _ => ?_
      constructor
      · intro h j hj
        cases j with
        | zero => exact hfinds
        | succ j =>
          have hround := h j (Nat.lt_of_succ_lt_succ hj)
          rwa [Nat.mul_succ, Nat.add_comm _ (2 * _), ← Nat.add_assoc]
      · intro h j hj
        have hround := h (j + 1) (Nat.succ_lt_succ hj)
        rwa [Nat.mul_succ, Nat.add_comm _ (2 * _), ← Nat.add_assoc] at hround

theorem activeOf_resetTimes {k : Nat} (hpos : 0 < k) :
    (resetTimes env p k s).2.activeOf p = true ↔ StaysActive env p k s := by
  cases hp : s.heap p with
  | software bp =>
    have hobj : (resetTimes env p k s).2.heap p = .software bp.wasReset := by
      cases hf : env.firstFailure s.task.calls (3 * k) with
      | none => exact ((resetTimes_none hp hf).2 hpos).1
      | some i => exact (resetTimes_some hp hf).2.object
    rw [activeOf, hobj, StaysActive, hp]
    show bp.kind.flag false bp.active = true ↔ bp.kind ≠ .x86_64 ∧ bp.active = true
    cases bp.kind <;> simp [SoftwareKind.flag]
  | x86_64Hardware bp => exact activeOf_resetTimes_hardware hp k
  | armv7Hardware bp =>
    rw [activeOf, (resetTimes_armv7Hardware env hp hpos).1, StaysActive, hp]
    exact Iff.rfl

theorem resetsDone_eq (env : Env) (p : BpPtr) (k : Nat) (s : Session b) :
    resetsDone env p k s = resetsThatSucceed env p k s := by
  rw [resetsThatSucceed]
  induction k generalizing s with
  | zero => cases s.heap p <;> rfl
  | succ k ih =>
    rw [resetsDone]
    cases hp : s.heap p with
    | software bp =>
      have hret : (s.callReset env p).1 = true ↔ env.firstFailure s.task.calls 3 = none := by
        rw [callReset_software hp]
        exact fst_writeMemory ..
      rw [Nat.mul_succ, Nat.add_comm (3 * k), Env.firstFailure_add]
      cases hf : env.firstFailure s.task.calls 3 with
      | some i =>
        have hi := Env.firstFailure_lt hf
        rw [if_neg (by rw [hret, hf]; exact Option.some_ne_none i)]
        exact (Nat.div_eq_of_lt hi).symm
      | none =>
        have hcalls : (s.callReset env p).2.task.calls = s.task.calls + 3 := by rw [callReset_none hp hf]
        rw [if_pos (hret.2 hf), ih, heap_callReset_software hp, hcalls]
        show Option.elim (env.firstFailure (s.task.calls + 3) (3 * k)) k (· / 3) + 1 =
          Option.elim (Option.or none _) (k + 1) (· / 3)
        cases env.firstFailure (s.task.calls + 3) (3 * k) with
        | none => rfl
        | some i => exact (Nat.add_div_right i (by decide)).symm
    | x86_64Hardware bp =>
      have hret : (s.callReset env p).1 = true := by
        rw [callReset_hardware hp]
        exact (resetLoop_obj ..).1
      have hp' : ∃ bp', (s.callReset env p).2.heap p = .x86_64Hardware bp' := by
        rw [heap_callReset_self, hp]
        exact ⟨_, rfl⟩
      rcases hp' with ⟨bp', hp'⟩
      rw [if_pos hret, ih, hp']
    | armv7Hardware bp =>
      rw [callReset_armv7Hardware hp]
      rfl

/-! ### What the loop of `UninstallBreakpoint` leaves to be found -/

theorem filter_erased (k : Nat) (list : List BpPtr) : (erased p k list).filter (· ≠ p) = list.filter (· ≠ p) := by
  induction list using visits.induct p generalizing k with
  | case1 => cases k <;> rfl
  | case2 =>
    cases k with
    | zero => rfl
    | succ k => simp [erased]
  | case3 r hr => rw [erased_cons hr]; cases k <;> rfl
  | case4 r rest ih =>
    cases k with
    | zero => rfl
    | succ k =>
      have hself : (p :: r :: rest).filter (· ≠ p) = (r :: rest).filter (· ≠ p) := List.filter_cons_of_neg (by simp)
      rw [hself, erased, if_pos rfl, List.filter_cons, List.filter_cons, ih]
  | case5 r r' rest hr ih => rw [erased_cons hr, List.filter_cons, List.filter_cons, ih]

theorem mem_erased_iff (hq : q ≠ p) {k : Nat} {list : List BpPtr} : q ∈ erased p k list ↔ q ∈ list := by
  have hmem : q ∈ (erased p k list).filter (· ≠ p) ↔ q ∈ list.filter (· ≠ p) := by rw [filter_erased]
  simpa [hq] using hmem

/-- One copy goes with each `Reset` that succeeds. -/
theorem count_erased {k : Nat} {list : List BpPtr} (h : k ≤ visits p list) :
    (erased p k list).count p + k = list.count p := by
  have hcount : ∀ l : List BpPtr, l.length = l.count p + (l.filter (· ≠ p)).length := by
    intro l
    rw [List.count, List.length_eq_countP_add_countP (· == p), ← List.countP_eq_length_filter]
    simp
  have hlen := length_erased h
  rw [hcount (erased p k list), hcount list, filter_erased] at hlen
  omega

/-- Of the copies in `before` the loop leaves one: of two next to each other it skips the second, and it erases no more
than it has `Reset`s that succeed. -/
def CopyLeft (p : BpPtr) (n : Nat) (before : List BpPtr) : Prop := [p, p] <:+: before ∨ n < before.count p

theorem erased_append_cons {r : BpPtr} (hr : r ≠ p) (k : Nat) (before after : List BpPtr) :
    ∃ before' after', erased p k (before ++ r :: after) = before' ++ r :: after' ∧
      (p ∈ before' ↔ CopyLeft p k before) ∧ ∀ q ∈ before', q ∈ before := by
  induction before using visits.induct p generalizing k with
  | case1 =>
    refine ⟨[], erased p k after, erased_cons hr k after, ?_, fun q hq => hq⟩
    simp [CopyLeft]
  | case2 =>
    cases k with
    | zero => exact ⟨[p], after, rfl, by simp [CopyLeft], fun q hq => hq⟩
    | succ k =>
      refine ⟨[], erased p k after, by simp [erased], ?_, fun q hq => absurd hq List.not_mem_nil⟩
      simp [CopyLeft, List.infix_cons_iff]
  | case3 q hq =>
    refine ⟨[q], erased p k after, ?_, ?_, fun x hx => hx⟩
    · rw [List.singleton_append, erased_cons hq, erased_cons hr]
      rfl
    · simp [CopyLeft, Ne.symm hq, hq, List.infix_cons_iff]
  | case4 q' rest ih =>
    cases k with
    | zero => exact ⟨p :: q' :: rest, after, rfl, by simp [CopyLeft], fun q hq => hq⟩
    | succ k =>
      obtain ⟨before', after', heq, hleft, hsub⟩ := ih k
      refine ⟨q' :: before', after', ?_, ?_, ?_⟩
      · simp [erased, heq]
      · rw [List.mem_cons, hleft]
        by_cases hq : q' = p
        · subst hq
          simp [CopyLeft, List.infix_cons_iff]
        · simp [CopyLeft, List.infix_cons_iff, hq, Ne.symm hq]
      · intro q hq
        rcases List.mem_cons.1 hq with rfl | hq
        · simp
        · simp [hsub q hq]
  | case5 q q' rest hq ih =>
    obtain ⟨before', after', heq, hleft, hsub⟩ := ih k
    refine ⟨q :: before', after', ?_, ?_, ?_⟩
    · rw [List.cons_append, erased_cons hq, heq]
      rfl
    · rw [List.mem_cons, hleft]
      simp [CopyLeft, List.infix_cons_iff, hq, Ne.symm hq]
    · intro x hx
      rcases List.mem_cons.1 hx with rfl | hx
      · simp
      · exact List.mem_cons_of_mem _ (hsub x hx)

theorem mem_of_mem_erased {k : Nat} {list : List BpPtr} (h : q ∈ erased p k list) : q ∈ list := by
  induction list using visits.induct p generalizing k with
  | case1 => cases k <;> exact h
  | case2 =>
    cases k with
    | zero => exact h
    | succ k => simp [erased] at h
  | case3 r hr => rw [erased_cons hr] at h; cases k <;> exact h
  | case4 r rest ih =>
    cases k with
    | zero => exact h
    | succ k =>
      simp only [erased, ↓reduceIte] at h
      rcases List.mem_cons.1 h with rfl | h
      · simp
      · simp [ih h]
  | case5 r r' rest hr ih =>
    rw [erased_cons hr] at h
    rcases List.mem_cons.1 h with rfl | h
    · simp
    · exact List.mem_cons_of_mem _ (ih h)

/-- Another breakpoint that was found first still is. -/
theorem find?_erased {f : BpPtr → Bool} {k : Nat} {list : List BpPtr} (h : list.find? f ≠ some p) :
    (erased p k list).find? f = list.find? f := by
  induction list using visits.induct p generalizing k with
  | case1 => cases k <;> rfl
  | case2 =>
    cases k with
    | zero => rfl
    | succ k =>
      have hp : f p = false := Bool.eq_false_iff.2 fun hp => h (List.find?_cons_of_pos hp)
      simp [erased, hp]
  | case3 r hr => rw [erased_cons hr]; cases k <;> rfl
  | case4 r rest ih =>
    cases k with
    | zero => rfl
    | succ k =>
      have hp : f p = false := Bool.eq_false_iff.2 fun hp => h (List.find?_cons_of_pos hp)
      rw [List.find?_cons_of_neg (by simp [hp])] at h
      simp only [erased, ↓reduceIte, List.find?_cons, hp]
      cases hr : f r with
      | true => rfl
      | false => exact ih (by rwa [List.find?_cons_of_neg (by simp [hr])] at h)
  | case5 r r' rest hr ih =>
    rw [erased_cons hr, List.find?_cons, List.find?_cons]
    cases hfr : f r with
    | true => rfl
    | false => exact ih (by rwa [List.find?_cons_of_neg (by simp [hfr])] at h)

/-! ### One step -/

/-- `q` is the first of `list` at the address `a`. -/
abbrev FirstAt (s : Session b) (list : List BpPtr) (a : VmAddress b) (q : BpPtr) : Prop :=
  FirstMatch.IsFirst s.addressOf list a q

/-- The first breakpoint registered at the address of `p` is `p` or active. -/
def InFront (p : BpPtr) (s : Session b) : Prop :=
  ∀ q, s.FirstAt s.breakpoints (s.addressOf p) q → q = p ∨ s.activeOf q = true

/-- `r` is the first other breakpoint at the address of `p`, and `before` is in front of it. -/
def NextAt (p : BpPtr) (before : List BpPtr) (r : BpPtr) (s : Session b) : Prop :=
  r ≠ p ∧ s.addressOf r = s.addressOf p ∧ (∀ q ∈ before, s.addressOf q = s.addressOf p → q = p) ∧
    ∃ after, s.breakpoints = before ++ r :: after

/-- No other breakpoint registered at the address of `p` is active. -/
def OthersInactive (p : BpPtr) (s : Session b) : Prop :=
  ∀ q ∈ s.breakpoints, q ≠ p → s.addressOf q = s.addressOf p → s.activeOf q = false

theorem exists_nextAt (hq : q ∈ s.breakpoints) (hne : q ≠ p) (haddr : s.addressOf q = s.addressOf p) :
    ∃ before r, s.NextAt p before r := by
  let f : BpPtr → Bool := fun r => r ≠ p ∧ s.addressOf r = s.addressOf p
  obtain ⟨r, hr⟩ : ∃ r, s.breakpoints.find? f = some r := by
    cases hf : s.breakpoints.find? f with
    | some r => exact ⟨r, rfl⟩
    | none => exact absurd (decide_eq_true ⟨hne, haddr⟩) (List.find?_eq_none.1 hf q hq)
  obtain ⟨hr, before, after, hlist, hbefore⟩ := List.find?_eq_some_iff_append.1 hr
  rcases of_decide_eq_true hr with ⟨hrp, hraddr⟩
  refine ⟨before, r, hrp, hraddr, fun x hx hxaddr => ?_, after, hlist⟩
  by_contra hxp
  have hnot := hbefore x hx
  rw [show f x = true from decide_eq_true ⟨hxp, hxaddr⟩] at hnot
  cases hnot

theorem OnlyFlag.unshadowed_raise (hs : OnlyFlag p s s') (h : s.Unshadowed)
    (hle : s.activeOf p = true → s'.activeOf p = true)
    (hlist : s'.breakpoints = s.breakpoints ∨ s'.breakpoints = s.breakpoints ++ [p]) :
    s'.Unshadowed ↔ (p ∈ s'.breakpoints → s'.activeOf p = true → s.InFront p) := by
  rw [unshadowed_iff_firstMatch, hs.address,
    FirstMatch.unshadowed_raise (unshadowed_iff_firstMatch.1 h) hle hs.others hlist]
  simp only [FirstMatch.first_eq_some_iff_isFirst]
  exact Iff.rfl

/-- The flag is lowered and the list stays. -/
theorem OnlyFlag.unshadowed_lower (hs : OnlyFlag p s s') (h : s.Unshadowed)
    (hle : s'.activeOf p = true → s.activeOf p = true) (hlist : s'.breakpoints = s.breakpoints) :
    s'.Unshadowed ↔
      (s.FirstAt s.breakpoints (s.addressOf p) p → s'.activeOf p = true ∨ s.OthersInactive p) := by
  rw [unshadowed_iff_firstMatch, hs.address, hlist, FirstMatch.unshadowed_lower (unshadowed_iff_firstMatch.1 h) hle
    hs.others (fun _ hq => hq) (fun _ _ => rfl), FirstMatch.first_eq_some_iff_isFirst]
  refine forall_congr' fun hfirst => ?_
  simp only [FirstMatch.first_eq_some_iff_isFirst.2 hfirst, Option.some.injEq, forall_eq']
  cases hact : s'.activeOf p with
  | true => simp
  | false =>
    simp only [Bool.false_eq_true, false_or]
    constructor
    · intro hnone q hq hqp haddr
      rw [← hs.others q hqp]
      exact hnone q hq haddr
    · intro hnone q hq haddr
      by_cases hqp : q = p
      · rwa [hqp]
      · rw [hs.others q hqp]
        exact hnone q hq hqp haddr

/-- Copies of `p` are erased as well. What is found then is one that is left in front of the next breakpoint at the
address, or that one. -/
theorem OnlyFlag.found_erased_iff (hs : OnlyFlag p s s') {n : Nat} (hn : n ≤ visits p s.breakpoints)
    (hlist : s'.breakpoints = erased p n s.breakpoints) {before : List BpPtr} {r : BpPtr}
    (hnext : s.NextAt p before r) :
    (∀ q, FirstMatch.first s.addressOf s'.breakpoints (s.addressOf p) = some q → s'.activeOf q = true ∨
        ∀ q ∈ s'.breakpoints, s.addressOf q = s.addressOf p → s'.activeOf q = false) ↔
      (s'.activeOf p = true →
        CopyLeft p n before ∨ s.activeOf r = true ∨ s.OthersInactive p ∧ s.breakpoints.count p ≤ n) ∧
      (s'.activeOf p = false → s.OthersInactive p ∨ s.activeOf r = true ∧ ¬CopyLeft p n before) := by
  have hnotMem : p ∉ s'.breakpoints ↔ s.breakpoints.count p ≤ n := by
    have hcount := count_erased hn
    rw [hlist, ← List.count_eq_zero]
    omega
  rcases hnext with ⟨hrp, hraddr, hbefore, after, hsplit⟩
  obtain ⟨before', after', heq, hleft, hsub⟩ := erased_append_cons hrp n before after
  rw [← hsplit, ← hlist] at heq
  rw [← hleft, ← hnotMem]
  exact FirstMatch.found_removed_iff hrp hraddr heq (fun q hq => hbefore q (hsub q hq))
    (fun q hq => by rw [hlist]; exact mem_erased_iff hq) hs.others

theorem OnlyFlag.unshadowed_erased (hs : OnlyFlag p s s') (h : s.Unshadowed)
    (hle : s'.activeOf p = true → s.activeOf p = true) {n : Nat} (hn : n ≤ visits p s.breakpoints)
    (hlist : s'.breakpoints = erased p n s.breakpoints) :
    s'.Unshadowed ↔ (s.FirstAt s.breakpoints (s.addressOf p) p → ∀ before r, s.NextAt p before r →
      (s'.activeOf p = true →
        CopyLeft p n before ∨ s.activeOf r = true ∨ s.OthersInactive p ∧ s.breakpoints.count p ≤ n) ∧
      (s'.activeOf p = false → s.OthersInactive p ∨ s.activeOf r = true ∧ ¬CopyLeft p n before)) := by
  rw [unshadowed_iff_firstMatch, hs.address, FirstMatch.unshadowed_lower (unshadowed_iff_firstMatch.1 h) hle hs.others
    (fun q hq => mem_of_mem_erased (hlist ▸ hq)) (fun a ha => by rw [hlist]; exact find?_erased ha),
    FirstMatch.first_eq_some_iff_isFirst]
  refine forall_congr' fun _ => ?_
  constructor
  · exact fun hall before r hnext => (hs.found_erased_iff hn hlist hnext).1 hall
  · intro hall
    by_cases halone : ∀ q ∈ s.breakpoints, s.addressOf q = s.addressOf p → q = p
    · exact FirstMatch.found_alone (fun q hq => mem_of_mem_erased (hlist ▸ hq)) halone
    · push Not at halone
      obtain ⟨q, hq, haddr, hqp⟩ := halone
      obtain ⟨before, r, hnext⟩ := exists_nextAt hq hqp haddr
      exact (hs.found_erased_iff hn hlist hnext).2 (hall before r hnext)

/-- A breakpoint that an install or enable makes active has nothing inactive in front of it. One that was the first at
its address and is made inactive has no active one behind it; and an uninstall leaves in front of the next breakpoint
there a copy of it that is active, or leaves no copy in front and that one is active, or leaves nothing active there. -/
def KeepsUnshadowed (env : Env) (s : Session b) : ClientOp b → Prop
  | .install p false => s.activeOf p = true → s.InFront p
  | .install p true => ApplySucceeds env p s ∨ p ∈ s.breakpoints → BecomesActive env p s → s.InFront p
  | .enable p => p ∈ s.breakpoints → BecomesActive env p s → s.InFront p
  | .disable p => s.FirstAt s.breakpoints (s.addressOf p) p → StaysActive env p 1 s ∨ s.OthersInactive p
  | .uninstall p => s.FirstAt s.breakpoints (s.addressOf p) p → ∀ before r, s.NextAt p before r →
      let k := visits p s.breakpoints
      let n := resetsThatSucceed env p k s
      (StaysActive env p k s →
        CopyLeft p n before ∨ s.activeOf r = true ∨ s.OthersInactive p ∧ s.breakpoints.count p ≤ n) ∧
      (¬StaysActive env p k s → s.OthersInactive p ∨ s.activeOf r = true ∧ ¬CopyLeft p n before)
  | .write .. => True

theorem unshadowed_runClientOp (h : s.Unshadowed) (op : ClientOp b) :
    (s.runClientOp env op).Unshadowed ↔ s.KeepsUnshadowed env op := by
  cases op with
  | install p immActive =>
    cases immActive with
    | false =>
      have hs : OnlyFlag p s { s with breakpoints := s.breakpoints ++ [p] } := ⟨rfl, fun _ _ => rfl⟩
      refine (hs.unshadowed_raise h id (.inr rfl)).trans ?_
      exact ⟨fun hc => hc (by simp), fun hc _ => hc⟩
    | true =>
      have hcall : OnlyFlag p s (s.callApply env p).2 := onlyFlag_callApply
      have hs : OnlyFlag p s (s.runClientOp env (.install p true)) := by
        rw [runClientOp, installBreakpoint_true]
        exact ⟨hcall.address, hcall.others⟩
      have hact : (s.runClientOp env (.install p true)).activeOf = (s.callApply env p).2.activeOf := by
        rw [runClientOp, installBreakpoint_true]; rfl
      have hlist : (s.runClientOp env (.install p true)).breakpoints =
          if (s.callApply env p).1 then s.breakpoints ++ [p] else s.breakpoints := by
        rw [runClientOp, installBreakpoint_true]
      rw [hs.unshadowed_raise h (by rw [hact]; exact activeOf_callApply_of_activeOf) (by rw [hlist]; split <;> simp),
        hact, hlist, activeOf_callApply, KeepsUnshadowed, ← fst_callApply]
      refine imp_congr ?_ Iff.rfl
      cases (s.callApply env p).1 <;> simp
  | enable p =>
    rw [KeepsUnshadowed, ← activeOf_callApply]
    exact onlyFlag_callApply.unshadowed_raise h activeOf_callApply_of_activeOf (.inl rfl)
  | disable p =>
    rw [KeepsUnshadowed, ← activeOf_resetTimes Nat.one_pos, resetTimes_one]
    exact onlyFlag_callReset.unshadowed_lower h activeOf_of_callReset rfl
  | uninstall p =>
    obtain ⟨exit, list, hrun, -⟩ := uninstallBreakpoint_spec env p s
    have hlist := breakpoints_uninstallBreakpoint env p s
    rw [hrun] at hlist
    obtain ⟨honly, hle⟩ : OnlyFlag p s (resetTimes env p (visits p s.breakpoints) s).2 ∧ _ := onlyFlag_resetTimes _
    have hs : OnlyFlag p s { (resetTimes env p (visits p s.breakpoints) s).2 with breakpoints := list } :=
      ⟨honly.address, honly.others⟩
    rw [runClientOp, hrun, hs.unshadowed_erased h hle (resetsDone_le ..) hlist, KeepsUnshadowed]
    refine forall_congr' fun hfirst => ?_
    have hreg : p ∈ s.breakpoints := FirstMatch.mem_of_first (FirstMatch.first_eq_some_iff_isFirst.2 hfirst)
    have hact : (resetTimes env p (visits p s.breakpoints) s).2.activeOf p = true ↔ _ :=
      activeOf_resetTimes (visits_pos_iff.2 hreg)
    dsimp only
    rw [← hact, ← resetsDone_eq, Bool.not_eq_true]
    exact Iff.rfl
  | write => exact iff_of_true h trivial

/-! ### Runs -/

/-- An operation on the target as it is by then. -/
def runClientStep (env : Env) (s : Session b) (step : Task b × ClientOp b) : Session b :=
  { s with task := step.1 }.runClientOp env step.2

/-- The lookup finds an active breakpoint wherever there is one, after each step of a run, exactly when each step
leaves it so. -/
theorem unshadowed_iff (env : Env) (heap : BpPtr → Breakpoint b) (mem : VmAddress b → Byte) (threads : List Thread)
    (steps : List (Task b × ClientOp b)) :
    AtEach (runClientStep env) (fun s step => (s.runClientStep env step).Unshadowed) (start heap mem threads) steps ↔
      AtEach (runClientStep env) (fun s step => { s with task := step.1 }.KeepsUnshadowed env step.2)
        (start heap mem threads) steps := by
  have hstart : (start heap mem threads).Unshadowed := by
    rintro a ⟨p, hp, -⟩
    exact absurd hp List.not_mem_nil
  have hstep : ∀ (s : Session b) (step : Task b × ClientOp b), True → s.Unshadowed →
      ((s.runClientStep env step).Unshadowed ↔ { s with task := step.1 }.KeepsUnshadowed env step.2) :=
    fun s step _ hs => unshadowed_runClientOp (s := { s with task := step.1 }) hs step.2
  exact atEach_congr hstep (fun _ _ _ _ h => h) (fun _ _ => trivial) hstart

def sharedAddress : Session .x86_64 :=
  start (fun _ => .software (.new .x86_64 false 0x1000)) (fun _ => 0x90) []

/-- The first is installed without `immActive`; the trap of the second is then in the target and not handled. -/
theorem not_unshadowed_inactive : ¬ AtEach (runClientStep (.failAt []))
    (fun s step => (s.runClientStep (.failAt []) step).Unshadowed) sharedAddress
    [(sharedAddress.task, .install 0 false), (sharedAddress.task, .install 1 true)] := by
  intro h
  obtain ⟨p, hp, hactive⟩ := h [(sharedAddress.task, .install 0 false)] (sharedAddress.task, .install 1 true) [] rfl
    0x1000 ⟨1, by decide, by decide, by decide⟩
  obtain rfl : 0 = p := Option.some.inj hp
  revert hactive; decide

end Session

end MasterLib
