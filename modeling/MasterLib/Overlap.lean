import MasterLib.ArmOverlay
import MasterLib.BlockOrder

/-!
# Overlapping software breakpoints

Each object is enabled once and disabled once, in any order, and the patch ranges may overlap. Seen from one
address the objects covering it are the owners of a cell (`BlockOrder`): `CellRel` relates the session to the
cell, step by step. So the memory is restored exactly when, at every address, no enable is followed by blocks
only and has left another byte than the initial one.
-/

namespace MasterLib
open Overlay BlockOrder

variable {b : Build} {env : Env}

inductive TrapOp
  | install (p : BpPtr)
  | enable (p : BpPtr)
  | disable (p : BpPtr)
deriving DecidableEq, Repr

def TrapOp.use : TrapOp → Use BpPtr
  | .install p | .enable p => .opens p
  | .disable p => .closes p

def Session.runOp (env : Env) (s : Session b) : TrapOp → Session b
  | .install p => (s.installBreakpoint env (some p) true).2
  | .enable p => (s.enableBreakpoint env p).2
  | .disable p => (s.disableBreakpoint env p).2

def Session.runOps (env : Env) (s : Session b) (ops : List TrapOp) : Session b := ops.foldl (runOp env) s

/-- Each object of `P` is installed or enabled once and later disabled once, and no other is. -/
structure OnceEach (P : Finset BpPtr) (ops : List TrapOp) : Prop where
  nodup : (ops.map TrapOp.use).Nodup
  owner : ∀ u ∈ ops.map TrapOp.use, u.owner ∈ P
  each : ∀ p ∈ P, ∃ l₁ l₂ l₃, ops.map TrapOp.use = l₁ ++ .opens p :: (l₂ ++ .closes p :: l₃)

theorem OnceEach.paired {P : Finset BpPtr} {ops : List TrapOp} (h : OnceEach P ops) :
    Paired (ops.map TrapOp.use) := by
  refine ⟨h.nodup, fun k₁ p k₂ he => ?_⟩
  have hp : p ∈ P := h.owner (.closes p) (by rw [he]; simp)
  obtain ⟨l₁, l₂, l₃, hl⟩ := h.each p hp
  have hnd := h.nodup
  rw [he] at hnd
  have hk₁ : Use.closes p ∉ k₁ := fun hm => (List.nodup_append.1 hnd).2.2 _ hm _ (List.mem_cons_self ..) rfl
  have hk₂ : Use.closes p ∉ k₂ := (List.nodup_cons.1 (List.nodup_append.1 hnd).2.1).1
  rw [he, ← List.cons_append, ← List.append_assoc] at hl
  have := (List.append_cons_inj_of_notMem hk₁ hk₂).1 hl
  rw [this.1]; simp

def usesAt (bps : BpPtr → SoftwareBreakpoint b) (x : VmAddress b) (ops : List TrapOp) : List (Use BpPtr) :=
  (ops.map TrapOp.use).filter fun u => decide (InRange (bps u.owner).address (bps u.owner).size x)

def opcodeAt (bps : BpPtr → SoftwareBreakpoint b) (x : VmAddress b) (p : BpPtr) : Byte :=
  (bps p).kind.opcode.getD (x - (bps p).address).toNat 0

/-- The cell `c` at `x` and the session `s` agree, and the objects still to be enabled in `rest` have saved
nothing. -/
structure CellRel (P : Finset BpPtr) (bps : BpPtr → SoftwareBreakpoint b) (x : VmAddress b)
    (rest : List TrapOp) (s : Session b) (c : Cell BpPtr Byte) : Prop where
  value : s.task.mem x = c.value
  obj : ∀ p ∈ P, ∃ bp, s.heap p = .software bp ∧ bp.kind = (bps p).kind ∧ bp.address = (bps p).address ∧
    bp.originalOpcode.length ≤ (bps p).size ∧
    (.opens p ∈ rest.map TrapOp.use → bp.originalOpcode = []) ∧
    (InRange (bps p).address (bps p).size x →
      bp.originalOpcode[(x - (bps p).address).toNat]? = c.saved p)

theorem getElem?_readBytes {w n : Nat} {m : BitVec w → Byte} {a x : BitVec w} (h : InRange a n x) :
    (readBytes m a n)[(x - a).toNat]? = some (m x) := by
  rw [List.getElem?_eq_getElem (by rwa [length_readBytes]), getElem_readBytes, add_ofNat_sub_self]

namespace CellRel
variable {P : Finset BpPtr} {bps : BpPtr → SoftwareBreakpoint b} {x : VmAddress b} {rest : List TrapOp}
  {s : Session b} {c : Cell BpPtr Byte} {p : BpPtr} {op : TrapOp}

theorem apply (hk : env.AllSucceed) (hp : p ∈ P) (hop : op.use = .opens p)
    (hnd : Use.opens p ∉ rest.map TrapOp.use) (h : CellRel P bps x (op :: rest) s c) :
    CellRel P bps x rest (s.callApply env p).2
      (if InRange (bps p).address (bps p).size x then c.step (opcodeAt bps x) (.opens p) else c) := by
  obtain ⟨bp, hbp, hkind, haddr, -, hunsaved, -⟩ := h.obj p hp
  have hsize : bp.size = (bps p).size := by rw [SoftwareBreakpoint.size, hkind]; rfl
  have hsv : bp.kind.saved bp.originalOpcode (readBytes s.task.mem bp.address bp.size) =
      readBytes s.task.mem (bps p).address (bps p).size := by
    rw [hunsaved (by simp [hop]), haddr, hsize]
    cases bp.kind <;> rfl
  rw [callApply_ok hk hbp]
  refine ⟨?_, fun q hq => ?_⟩
  · split
    · rename_i hx
      have hx' : InRange (bps p).address (bps p).kind.opcode.length x := hx
      show overlay _ bp.address bp.kind.opcode x = opcodeAt bps x p
      rw [haddr, hkind, overlay_eq_getElem hx', opcodeAt, List.getD_eq_getElem _ _ hx']
    · rename_i hx
      show overlay _ bp.address bp.kind.opcode x = c.value
      rw [haddr, hkind, overlay_of_not_inRange hx, h.value]
  · by_cases hqp : q = p
    · subst hqp
      refine ⟨_, Function.update_self .., hkind, haddr, ?_, fun hm => absurd hm hnd, fun hx => ?_⟩
      · rw [SoftwareBreakpoint.originalOpcode_afterApply, hsv, length_readBytes]
      · rw [SoftwareBreakpoint.originalOpcode_afterApply, hsv, getElem?_readBytes hx, if_pos hx, h.value]
        show some c.value = Function.update c.saved q (some c.value) q
        rw [Function.update_self]
    · obtain ⟨bq, hbq, h₁, h₂, h₃, h₄, h₅⟩ := h.obj q hq
      refine ⟨bq, (Function.update_of_ne hqp ..).trans hbq, h₁, h₂, h₃, fun hm => h₄ (by simp [hm]),
        fun hx => (h₅ hx).trans ?_⟩
      split
      · exact (Function.update_of_ne hqp ..).symm
      · rfl

theorem reset (hk : env.AllSucceed) (hp : p ∈ P) (h : CellRel P bps x (op :: rest) s c) :
    CellRel P bps x rest (s.callReset env p).2
      (if InRange (bps p).address (bps p).size x then c.step (opcodeAt bps x) (.closes p) else c) := by
  obtain ⟨bp, hbp, hkind, haddr, hlen, -, hsaved⟩ := h.obj p hp
  have hsavedEq : ∀ q, (if InRange (bps p).address (bps p).size x then
      c.step (opcodeAt bps x) (.closes p) else c).saved q = c.saved q := by
    intro q; split <;> rfl
  rw [callReset_ok hk hbp]
  refine ⟨?_, fun q hq => ?_⟩
  · show overlay _ bp.address (sent bp.originalOpcode) x = _
    rw [haddr, SoftwareKind.sent_of_length (k := (bps p).kind) hlen]
    split
    · rename_i hx
      show _ = (c.saved p).getD c.value
      rw [overlay, List.getD_eq_getElem?_getD, hsaved hx, h.value]
    · rename_i hx
      rw [overlay_of_not_inRange fun hx' => hx (hx'.mono hlen), h.value]
  · simp only [hsavedEq]
    by_cases hqp : q = p
    · subst hqp
      obtain ⟨bq, hbq, h₁, h₂, h₃, h₄, h₅⟩ := h.obj q hq
      obtain rfl : bp = bq := by rw [hbp] at hbq; exact Breakpoint.software.inj hbq
      exact ⟨_, Function.update_self .., h₁, h₂, h₃, fun hm => h₄ (by simp [hm]), h₅⟩
    · obtain ⟨bq, hbq, h₁, h₂, h₃, h₄, h₅⟩ := h.obj q hq
      exact ⟨bq, (Function.update_of_ne hqp ..).trans hbq, h₁, h₂, h₃, fun hm => h₄ (by simp [hm]), h₅⟩

theorem install (h : CellRel P bps x rest (s.callApply env p).2 c) :
    CellRel P bps x rest (s.installBreakpoint env (some p) true).2 c := by
  rw [installBreakpoint_true]; exact ⟨h.value, h.obj⟩

theorem init (h : FreshSoftware P bps s) (ops : List TrapOp) :
    CellRel P bps x ops s ⟨s.task.mem x, fun _ => none⟩ := by
  refine ⟨rfl, fun p hp => ⟨bps p, h.heap p hp, rfl, rfl, ?_, fun _ => h.fresh p hp, fun _ => ?_⟩⟩
  · rw [h.fresh p hp]; simp
  · rw [h.fresh p hp]; rfl

/-- A run of operations is a run of the cell over the uses that cover it. -/
theorem run (hk : env.AllSucceed) {ops : List TrapOp} (hnd : (ops.map TrapOp.use).Nodup)
    (howner : ∀ u ∈ ops.map TrapOp.use, u.owner ∈ P) (h : CellRel P bps x ops s c) :
    CellRel P bps x [] (s.runOps env ops) (c.run (opcodeAt bps x) (usesAt bps x ops)) := by
  induction ops generalizing s c with
  | nil => exact h
  | cons op ops ih =>
    obtain ⟨hop, hnd'⟩ := List.nodup_cons.1 hnd
    have hp := howner op.use (by simp)
    have ih' := fun {s c} (h : CellRel P bps x ops s c) =>
      ih hnd' (fun u hu => howner u (List.mem_cons_of_mem _ hu)) h
    have hcell : ∀ c : Cell BpPtr Byte, c.run (opcodeAt bps x) (usesAt bps x (op :: ops)) =
        (if InRange (bps op.use.owner).address (bps op.use.owner).size x then
          c.step (opcodeAt bps x) op.use else c).run (opcodeAt bps x) (usesAt bps x ops) := by
      intro c
      rw [usesAt, List.map_cons, List.filter_cons]
      split
      · rename_i hx; rw [if_pos (of_decide_eq_true hx)]; rfl
      · rename_i hx; rw [if_neg fun hx' => hx (decide_eq_true hx')]; rfl
    rw [hcell]
    cases op with
    | install p => exact ih' (.install (h.apply hk hp rfl hop))
    | enable p => exact ih' (h.apply hk hp rfl hop)
    | disable p => exact ih' (h.reset hk hp)

end CellRel

/-- Once every object was enabled and disabled, the memory is restored exactly when at every address `x` no
enable that is followed by blocks only left a byte that was not there initially. -/
theorem runOps_restores_iff (hk : env.AllSucceed) {P : Finset BpPtr} {bps : BpPtr → SoftwareBreakpoint b}
    {s : Session b} (h₀ : FreshSoftware P bps s) {ops : List TrapOp} (hops : OnceEach P ops) :
    (s.runOps env ops).task.mem = s.task.mem ↔
      ∀ x Q p R, usesAt bps x ops = Q ++ .opens p :: R → Blocks R → opcodeAt bps x p = s.task.mem x := by
  have hcell : ∀ x, ((s.runOps env ops).task.mem x = s.task.mem x ↔
      ∀ Q p R, usesAt bps x ops = Q ++ .opens p :: R → Blocks R → opcodeAt bps x p = s.task.mem x) := by
    intro x
    have hrel := (CellRel.init (x := x) h₀ ops).run hk hops.nodup hops.owner
    rw [hrel.value]
    exact (hops.paired.filter fun p => decide (InRange (bps p).address (bps p).size x)).value_run_eq_iff
      ⟨s.task.mem x, fun _ => none⟩
  rw [funext_iff]
  exact forall_congr' hcell

def twins : Session .x86_64 := .start (fun _ => .software (.new .x86_64 false 0x1000)) (fun _ => 0x55) []

theorem freshSoftware_twins : FreshSoftware {0, 1} (fun _ => .new .x86_64 false 0x1000) twins :=
  ⟨fun _ _ => rfl, fun _ _ => rfl⟩

theorem onceEach_nested : OnceEach {0, 1} [.install 0, .enable 1, .disable 1, .disable 0] := by
  refine ⟨by decide, by decide, fun p hp => ?_⟩
  simp only [Finset.mem_insert, Finset.mem_singleton] at hp
  rcases hp with rfl | rfl
  · exact ⟨[], [.opens 1, .closes 1], [], rfl⟩
  · exact ⟨[.opens 0], [], [.closes 0], rfl⟩

theorem onceEach_crossing : OnceEach {0, 1} [.install 0, .enable 1, .disable 0, .disable 1] := by
  refine ⟨by decide, by decide, fun p hp => ?_⟩
  simp only [Finset.mem_insert, Finset.mem_singleton] at hp
  rcases hp with rfl | rfl
  · exact ⟨[], [.opens 1], [.closes 1], rfl⟩
  · exact ⟨[.opens 0], [.closes 0], [], rfl⟩

theorem runOps_restores_iff_nested :
    (twins.runOps (.failAt []) [.install 0, .enable 1, .disable 1, .disable 0]).task.mem = twins.task.mem ↔
      ∀ x Q p R, usesAt (fun _ => .new .x86_64 false 0x1000) x
          [.install 0, .enable 1, .disable 1, .disable 0] = Q ++ .opens p :: R → Blocks R →
        opcodeAt (fun _ => .new .x86_64 false 0x1000) x p = twins.task.mem x :=
  runOps_restores_iff Env.allSucceed_failAt_nil freshSoftware_twins onceEach_nested

/-- Disabled in the order they were enabled, the second puts the first one's trap back. -/
theorem not_restored_crossing :
    OnceEach {0, 1} [.install 0, .enable 1, .disable 0, .disable 1] ∧
    FreshSoftware {0, 1} (fun _ => .new .x86_64 false 0x1000) twins ∧
    (twins.runOps (.failAt []) [.install 0, .enable 1, .disable 0, .disable 1]).task.mem ≠ twins.task.mem := by
  refine ⟨onceEach_crossing, freshSoftware_twins, fun h => ?_⟩
  have h₁ := congrFun h 0x1000
  revert h₁; decide

end MasterLib
