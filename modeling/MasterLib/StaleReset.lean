import MasterLib.Uninstall
import MasterLib.Runs

/-!
# Resets of traps that are not in the target

`Reset` writes the saved bytes whether the trap is in the target or not, and nothing empties them, so a disable or
an uninstall after the last one writes them once more. That is no change only as long as nobody has written other
bytes there meanwhile.
-/

namespace MasterLib
open Overlay Runs

variable {b : Build} {env : Env}

/-- The calls of a client: those of the handler and `WriteMemory`. -/
inductive ClientOp (b : Build)
  | install (p : BpPtr) (immActive : Bool)
  | enable (p : BpPtr)
  | disable (p : BpPtr)
  | uninstall (p : BpPtr)
  | write (address : VmAddress b) (input : List Byte) (force : Bool)

def Session.runClientOp (env : Env) (s : Session b) : ClientOp b → Session b
  | .install p immActive => (s.installBreakpoint env (some p) immActive).2
  | .enable p => (s.enableBreakpoint env p).2
  | .disable p => (s.disableBreakpoint env p).2
  | .uninstall p => (s.uninstallBreakpoint env p).2
  | .write address input force => { s with task := (writeMemory env address input force s.task).2 }

/-- A session and, not in the source, for which breakpoints the last `Apply` or `Reset` whose bytes reached the
target was an `Apply`. -/
structure Watched (b : Build) where
  session : Session b
  planted : BpPtr → Bool

namespace Watched

/-- An `Apply` reads before it writes, so its write starts one kernel call later than that of a `Reset`. -/
def plantedAfter (env : Env) (w : Watched b) : ClientOp b → BpPtr → Bool
  | .install p immActive =>
    if immActive = true ∧ env.WriteLands (w.session.task.calls + 1) then Function.update w.planted p true else w.planted
  | .enable p =>
    if env.WriteLands (w.session.task.calls + 1) then Function.update w.planted p true else w.planted
  | .disable p =>
    if env.WriteLands w.session.task.calls then Function.update w.planted p false else w.planted
  | .uninstall p =>
    if p ∈ w.session.breakpoints ∧ env.WriteLands w.session.task.calls then Function.update w.planted p false
    else w.planted
  | .write .. => w.planted

def runClientOp (env : Env) (w : Watched b) (op : ClientOp b) : Watched b :=
  ⟨w.session.runClientOp env op, w.plantedAfter env op⟩

/-- If the operation disables or uninstalls a breakpoint whose trap is not in the target, the memory stays. -/
def LeavesMemory (env : Env) (w : Watched b) (op : ClientOp b) : Prop :=
  match op with
  | .disable p | .uninstall p =>
    w.planted p = false → (w.session.runClientOp env op).task.mem = w.session.task.mem
  | _ => True

/-- The bytes saved by `p` that a `Reset` writes are those in the target. -/
def SavedInPlace (p : BpPtr) (s : Session b) : Prop :=
  ∀ bp, s.heap p = .software bp → ∀ i (_ : i < (sent bp.originalOpcode).length),
    (sent bp.originalOpcode)[i] = s.task.mem (bp.address + BitVec.ofNat _ i)

/-- If the operation resets a breakpoint whose trap is not in the target, its write fails or the bytes it writes are
in place. -/
def HarmlessReset (env : Env) (w : Watched b) : ClientOp b → Prop
  | .disable p => w.planted p = false → env.WriteLands w.session.task.calls → SavedInPlace p w.session
  | .uninstall p => w.planted p = false → p ∈ w.session.breakpoints → env.WriteLands w.session.task.calls →
      SavedInPlace p w.session
  | _ => True

end Watched

namespace Session
variable {s : Session b} {p : BpPtr} {bp : SoftwareBreakpoint b} {k : Nat}

/-! ### The memory after resets -/

theorem mem_callReset (hp : s.heap p = .software bp) : (s.callReset env p).2.task.mem =
    if env.WriteLands s.task.calls then overlay s.task.mem bp.address (sent bp.originalOpcode) else s.task.mem := by
  rw [callReset_software hp]
  exact mem_writeMemory ..

/-- If the first of them reaches the target the others write the same bytes. -/
theorem mem_resetTimes (hp : s.heap p = .software bp) (hpos : 0 < k) : (resetTimes env p k s).2.task.mem =
    if env.WriteLands s.task.calls then overlay s.task.mem bp.address (sent bp.originalOpcode) else s.task.mem := by
  induction k generalizing s bp with
  | zero => exact absurd hpos (Nat.lt_irrefl 0)
  | succ k ih =>
    have hmem : (s.callReset env p).2.task.mem = _ := mem_callReset hp
    rw [resetTimes]
    split
    · rename_i hok
      have hlands : env.WriteLands s.task.calls := by
        rw [callReset_software hp] at hok
        exact ((firstFailure_three_eq_none_iff _).1 ((fst_writeMemory ..).1 hok)).1
      rw [if_pos hlands] at hmem ⊢
      rcases Nat.eq_zero_or_pos k with rfl | hk
      · exact hmem
      · rw [ih (heap_callReset_software hp) hk, hmem, SoftwareBreakpoint.address_wasReset,
          SoftwareBreakpoint.originalOpcode_wasReset, overlay_overlay (Nat.le_refl _), ite_self]
    · exact hmem

/-! ### The objects stay software breakpoints -/

def AllSoftware (s : Session b) : Prop := ∀ p, ∃ bp, s.heap p = .software bp

theorem AllSoftware.update {s' : Session b} (h : s.AllSoftware)
    (hs' : s'.heap = Function.update s.heap p (.software bp)) : s'.AllSoftware := by
  intro q
  rw [hs']
  by_cases hqp : q = p
  · subst hqp; exact ⟨bp, Function.update_self ..⟩
  · rw [Function.update_of_ne hqp]; exact h q

theorem AllSoftware.callApply (h : s.AllSoftware) : (s.callApply env p).2.AllSoftware := by
  obtain ⟨bp, hp⟩ := h p
  exact h.update (by rw [callApply_software hp])

theorem AllSoftware.callReset (h : s.AllSoftware) : (s.callReset env p).2.AllSoftware := by
  obtain ⟨bp, hp⟩ := h p
  exact h.update (by rw [callReset_software hp])

theorem AllSoftware.resetTimes (h : s.AllSoftware) : (resetTimes env p k s).2.AllSoftware := by
  induction k generalizing s with
  | zero => exact h
  | succ k ih =>
    rw [Session.resetTimes]
    split
    · exact ih h.callReset
    · exact h.callReset

theorem AllSoftware.runClientOp (h : s.AllSoftware) (op : ClientOp b) : (s.runClientOp env op).AllSoftware := by
  cases op with
  | install p immActive =>
    cases immActive with
    | false => exact h
    | true =>
      rw [Session.runClientOp, installBreakpoint_true]
      exact h.callApply
  | enable p => exact h.callApply
  | disable p => exact h.callReset
  | uninstall p =>
    obtain ⟨exit, list, hrun, -⟩ := uninstallBreakpoint_spec env p s
    rw [Session.runClientOp, hrun]
    exact h.resetTimes
  | write => exact h

end Session

namespace Watched
open Session
variable {w : Watched b} {p : BpPtr}

theorem savedInPlace_iff {s : Session b} {bp : SoftwareBreakpoint b} (hp : s.heap p = .software bp) :
    SavedInPlace p s ↔ overlay s.task.mem bp.address (sent bp.originalOpcode) = s.task.mem := by
  rw [overlay_eq_self_iff_getElem, SavedInPlace]
  constructor
  · exact fun h i hi _ => h bp hp i hi
  · intro h bp' hp' i hi
    obtain rfl : bp = bp' := by rw [hp] at hp'; exact Breakpoint.software.inj hp'
    exact h i hi (hi.trans (length_sent_lt _))

theorem leavesMemory_iff_harmlessReset (h : w.session.AllSoftware) (op : ClientOp b) :
    w.LeavesMemory env op ↔ w.HarmlessReset env op := by
  cases op with
  | install | enable | write => exact Iff.rfl
  | disable p =>
    obtain ⟨bp, hp⟩ := h p
    refine imp_congr_right fun _ => ?_
    rw [savedInPlace_iff hp]
    show (w.session.callReset env p).2.task.mem = _ ↔ _
    rw [mem_callReset hp]
    by_cases hlands : env.WriteLands w.session.task.calls <;> simp [hlands]
  | uninstall p =>
    obtain ⟨bp, hp⟩ := h p
    refine imp_congr_right fun _ => ?_
    rw [savedInPlace_iff hp]
    obtain ⟨exit, list, hrun, -⟩ := uninstallBreakpoint_spec env p w.session
    show (w.session.uninstallBreakpoint env p).2.task.mem = _ ↔ _
    rw [hrun]
    show (resetTimes env p (visits p w.session.breakpoints) w.session).2.task.mem = _ ↔ _
    by_cases hreg : p ∈ w.session.breakpoints
    · rw [mem_resetTimes hp (visits_pos_iff.2 hreg)]
      by_cases hlands : env.WriteLands w.session.task.calls <;> simp [hlands, hreg]
    · rw [visits_of_not_mem hreg]
      exact iff_of_true rfl fun hr => absurd hr hreg

/-- In a run no disable or uninstall of a trap that is not in the target changes the memory exactly when each of
them finds the bytes it writes in place, or does not get to write them. -/
theorem leavesMemory_iff (h : w.session.AllSoftware) (ops : List (ClientOp b)) :
    AtEach (runClientOp env) (LeavesMemory env) w ops ↔ AtEach (runClientOp env) (HarmlessReset env) w ops :=
  have hstep : ∀ (w : Watched b) (op : ClientOp b), True → w.session.AllSoftware →
      (w.LeavesMemory env op ↔ w.HarmlessReset env op) := fun _ op _ hw => leavesMemory_iff_harmlessReset hw op
  atEach_congr hstep (fun _ op _ hw _ => hw.runClientOp op) (fun _ _ => trivial) h

def oneWatched : Watched .x86_64 :=
  ⟨start (fun _ => .software (.new .x86_64 false 0x1000)) (fun _ => 0x90) [], fun _ => false⟩

theorem allSoftware_oneWatched : oneWatched.session.AllSoftware := fun _ => ⟨_, rfl⟩

/-- Disabled and then uninstalled with no write in between. -/
theorem leavesMemory_undisturbed : AtEach (runClientOp (.failAt [])) (LeavesMemory (.failAt [])) oneWatched
    [.install 0 true, .disable 0, .uninstall 0] := by
  refine (leavesMemory_iff allSoftware_oneWatched _).2 ?_
  refine atEach_cons.2 ⟨trivial, atEach_cons.2 ⟨?_, atEach_cons.2 ⟨?_, atEach_nil⟩⟩⟩
  · rintro h
    exact absurd h (by decide)
  · rintro - - - _ ⟨⟩ i hi
    obtain rfl : i = 0 := Nat.lt_one_iff.1 hi
    rfl

/-- The uninstall writes the byte saved before over the one the client has written since. -/
theorem not_leavesMemory_written : ¬ AtEach (runClientOp (.failAt [])) (LeavesMemory (.failAt [])) oneWatched
    [.install 0 true, .disable 0, .write 0x1000 [0x55] true, .uninstall 0] := by
  intro h
  have hmem := congrFun (h [.install 0 true, .disable 0, .write 0x1000 [0x55] true] (.uninstall 0) [] rfl
    (by decide)) 0x1000
  revert hmem; decide

end Watched

end MasterLib
