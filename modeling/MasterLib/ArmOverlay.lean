import MasterLib.BreakpointHandler

/-!
# Disjoint ARM and THUMB breakpoints

Any number of ARMv7 and THUMB breakpoints with disjoint patch ranges, enabled and disabled in any order. The
invariant `ArmInv` ties what each object has saved to the pristine memory `m₀`: nothing, or exactly the bytes
of `m₀` in its range. Then an enable adds a patch, and a disable removes one or, being stale, rewrites bytes
that are already there.
-/

namespace MasterLib
open Overlay

variable {b : Build} {env : Env}

/-- The objects `P` of `s` are the freshly constructed software breakpoints `bps`. -/
structure FreshSoftware (P : Finset BpPtr) (bps : BpPtr → SoftwareBreakpoint b) (s : Session b) : Prop where
  heap : ∀ p ∈ P, s.heap p = .software (bps p)
  fresh : ∀ p ∈ P, (bps p).originalOpcode = []

def DisjointRanges (P : Finset BpPtr) (bps : BpPtr → SoftwareBreakpoint b) : Prop :=
  ∀ p ∈ P, ∀ q ∈ P, q ≠ p → ∀ x, InRange (bps p).address (bps p).size x → ¬ InRange (bps q).address (bps q).size x

/-- The sessions reached from `s₀` by enabling objects of `P` of which the last call was not an `Apply`, and
disabling any. -/
inductive EnableRun (env : Env) (P : Finset BpPtr) (s₀ : Session b) : Session b → Prop
  | start : EnableRun env P s₀ s₀
  | enable {s : Session b} {p : BpPtr} : EnableRun env P s₀ s → p ∈ P → lastCall p s.log ≠ some true →
      EnableRun env P s₀ (s.enableBreakpoint env p).2
  | disable {s : Session b} {p : BpPtr} : EnableRun env P s₀ s → p ∈ P →
      EnableRun env P s₀ (s.disableBreakpoint env p).2

/-- `m` is `m₀` with the opcodes of those objects of `P` over it whose last call was an `Apply`. -/
def OpcodesOver (P : Finset BpPtr) (bps : BpPtr → SoftwareBreakpoint b) (log : List Event)
    (m₀ m : VmAddress b → Byte) : Prop :=
  Patched (fun p => (bps p).address) (fun p => (bps p).kind.opcode) (fun p => p ∈ P ∧ lastCall p log = some true) m₀ m

/-- Every call made since the log was `log₀` returned `true`. -/
def CallsOk (log₀ log : List Event) : Prop := ∃ made, log = made ++ log₀ ∧ ∀ e ∈ made, e.ok = true

theorem CallsOk.cons {log₀ log : List Event} {e : Event} (h : CallsOk log₀ log) (he : e.ok = true) :
    CallsOk log₀ (e :: log) := by
  rcases h with ⟨made, rfl, hmade⟩
  exact ⟨e :: made, rfl, List.forall_mem_cons.2 ⟨he, hmade⟩⟩

structure ArmInv (P : Finset BpPtr) (bps : BpPtr → SoftwareBreakpoint b) (m₀ : VmAddress b → Byte)
    (log₀ : List Event) (s : Session b) : Prop where
  obj : ∀ p ∈ P, ∃ bp, s.heap p = .software bp ∧ bp.kind = (bps p).kind ∧ bp.address = (bps p).address ∧
    (bp.originalOpcode = [] ∧ lastCall p s.log ≠ some true ∨
      bp.originalOpcode = readBytes m₀ (bps p).address (bps p).size)
  mem : OpcodesOver P bps s.log m₀ s.task.mem
  calls : CallsOk log₀ s.log

namespace ArmInv
variable {P : Finset BpPtr} {bps : BpPtr → SoftwareBreakpoint b} {m₀ : VmAddress b → Byte} {log₀ : List Event}
  {s : Session b} {p : BpPtr}

theorem init (h : FreshSoftware P bps s) (hlog : ∀ p ∈ P, lastCall p s.log = none) :
    ArmInv P bps s.task.mem s.log s := by
  have hidle : ∀ p ∈ P, lastCall p s.log ≠ some true := fun p hp => by rw [hlog p hp]; nofun
  refine ⟨fun p hp => ⟨bps p, h.heap p hp, rfl, rfl, .inl ⟨h.fresh p hp, hidle p hp⟩⟩, ?_, [], rfl, nofun⟩
  exact .empty fun p ⟨hp, ha⟩ => hidle p hp ha

theorem apart (hd : DisjointRanges P bps) (hp : p ∈ P) (log : List Event) :
    ApartFrom (fun p => (bps p).address) (fun p => (bps p).kind.opcode)
      (fun p => p ∈ P ∧ lastCall p log = some true) p :=
  fun q ⟨hq, _⟩ hqp x hx => hd p hp q hq hqp x hx

theorem enable (hk : env.AllSucceed) (hd : DisjointRanges P bps) (harm : ∀ p ∈ P, (bps p).kind ≠ .x86_64)
    (hp : p ∈ P) (ha : lastCall p s.log ≠ some true) (h : ArmInv P bps m₀ log₀ s) :
    ArmInv P bps m₀ log₀ (s.enableBreakpoint env p).2 := by
  obtain ⟨bp, hbp, hkind, haddr, -⟩ := h.obj p hp
  have hsize : bp.size = (bps p).size := by rw [SoftwareBreakpoint.size, hkind]; rfl
  have hread : readBytes s.task.mem (bps p).address (bps p).size =
      readBytes m₀ (bps p).address (bps p).size := h.mem.read (fun hap => ha hap.2) (apart hd hp s.log)
  rw [Session.enableBreakpoint, callApply_ok hk hbp]
  refine ⟨fun q hq => ?_, ?_, h.calls.cons rfl⟩
  · by_cases hqp : q = p
    · subst hqp
      refine ⟨_, Function.update_self .., hkind, haddr, .inr ?_⟩
      -- `assign` drops whatever an earlier cycle had saved
      have hsv : ∀ old read, bp.kind.saved old read = read := by
        intro old read
        rw [hkind]
        cases hk' : (bps q).kind with
        | x86_64 => exact absurd hk' (harm q hp)
        | armv7 | thumbv7 => rfl
      rw [SoftwareBreakpoint.originalOpcode_afterApply, hsv, haddr, hsize, hread]
    · obtain ⟨bq, hbq, h₁, h₂, h₃⟩ := h.obj q hq
      refine ⟨bq, (Function.update_of_ne hqp ..).trans hbq, h₁, h₂, ?_⟩
      simpa [lastCall_apply, Ne.symm hqp] using h₃
  · rw [haddr, hkind]
    refine (h.mem.insert (apart hd hp s.log)).congr fun q => ?_
    rw [lastCall_apply]
    by_cases hqp : p = q
    · subst hqp; simp [hp]
    · simp [hqp, Ne.symm hqp]

theorem disable (hk : env.AllSucceed) (hd : DisjointRanges P bps) (hp : p ∈ P) (h : ArmInv P bps m₀ log₀ s) :
    ArmInv P bps m₀ log₀ (s.disableBreakpoint env p).2 := by
  obtain ⟨bp, hbp, hkind, haddr, hsaved⟩ := h.obj p hp
  rw [Session.disableBreakpoint, callReset_ok hk hbp]
  refine ⟨fun q hq => ?_, ?_, h.calls.cons rfl⟩
  · by_cases hqp : q = p
    · subst hqp
      refine ⟨_, Function.update_self .., hkind, haddr, ?_⟩
      rcases hsaved with ⟨h₁, -⟩ | h₁
      · exact .inl ⟨h₁, by simp [lastCall_reset]⟩
      · exact .inr h₁
    · obtain ⟨bq, hbq, h₁, h₂, h₃⟩ := h.obj q hq
      refine ⟨bq, (Function.update_of_ne hqp ..).trans hbq, h₁, h₂, ?_⟩
      simpa [lastCall_reset, Ne.symm hqp] using h₃
  · have hlog : ∀ q, (q ∈ P ∧ lastCall q (.reset p true :: s.log) = some true) ↔
        (q ≠ p ∧ q ∈ P ∧ lastCall q s.log = some true) := by
      intro q; rw [lastCall_reset]
      by_cases hqp : p = q
      · subst hqp; simp
      · simp [hqp, Ne.symm hqp]
    rcases hsaved with ⟨h₁, h₂⟩ | h₁
    · -- never applied: nothing saved, nothing written
      rw [h₁, sent_nil, overlay_nil]
      refine h.mem.congr fun q => (hlog q).trans (and_iff_right_of_imp ?_)
      rintro ⟨-, hq⟩ rfl; exact h₂ hq
    · rw [h₁, haddr, SoftwareBreakpoint.sent_readBytes]
      exact (h.mem.remove (apart hd hp s.log)).congr hlog

end ArmInv

/-- At every point of a run every call has returned `true`, and the memory is the initial one with the opcodes of
exactly those breakpoints over it whose last call was an `Apply`. -/
theorem enableRun_opcodesOver (hk : env.AllSucceed) {P : Finset BpPtr} {bps : BpPtr → SoftwareBreakpoint b}
    {s₀ s : Session b} (h₀ : FreshSoftware P bps s₀) (hlog : ∀ p ∈ P, lastCall p s₀.log = none)
    (harm : ∀ p ∈ P, (bps p).kind ≠ .x86_64) (hd : DisjointRanges P bps) (hrun : EnableRun env P s₀ s) :
    OpcodesOver P bps s.log s₀.task.mem s.task.mem ∧ CallsOk s₀.log s.log := by
  have hinv : ArmInv P bps s₀.task.mem s₀.log s := by
    induction hrun with
    | start => exact .init h₀ hlog
    | enable _ hp ha ih => exact ih.enable hk hd harm hp ha
    | disable _ hp ih => exact ih.disable hk hd hp
  exact ⟨hinv.mem, hinv.calls⟩

def armPair (p : BpPtr) : SoftwareBreakpoint .arm :=
  if p = 0 then .new .armv7 false 0x1000 else .new .thumbv7 false 0x2000

theorem disjointRanges_armPair : DisjointRanges {0, 1} armPair := by
  have h : ∀ x, InRange (armPair 0).address (armPair 0).size x →
      ¬ InRange (armPair 1).address (armPair 1).size x := by
    intro (x : BitVec 32) h₀ h₁
    change (x - (0x1000 : BitVec 32)).toNat < 4 at h₀
    change (x - (0x2000 : BitVec 32)).toNat < 2 at h₁
    bv_omega
  intro p hp q hq hqp x hx hx'
  simp only [Finset.mem_insert, Finset.mem_singleton] at hp hq
  rcases hp with rfl | rfl <;> rcases hq with rfl | rfl
  · exact hqp rfl
  · exact h x hx hx'
  · exact h x hx' hx
  · exact hqp rfl

theorem enableRun_armPair :
    let s₀ : Session .arm := .start (fun p => .software (armPair p)) (fun x => x.setWidth 8) []
    let s₂ := ((s₀.enableBreakpoint (.failAt []) 0).2.enableBreakpoint (.failAt []) 1).2
    let s₄ := ((s₂.disableBreakpoint (.failAt []) 0).2.disableBreakpoint (.failAt []) 0).2
    OpcodesOver {0, 1} armPair s₄.log s₀.task.mem s₄.task.mem ∧ CallsOk s₀.log s₄.log := by
  intro s₀ s₂ s₄
  have hrun : EnableRun (.failAt []) {0, 1} s₀ s₄ :=
    (((EnableRun.start.enable (by decide) (by decide)).enable (by decide) (by decide)).disable
      (by decide)).disable (by decide)
  refine enableRun_opcodesOver Env.allSucceed_failAt_nil ⟨fun _ _ => rfl, fun p _ => ?_⟩ (fun _ _ => rfl)
    (fun p _ => ?_) disjointRanges_armPair hrun
  · unfold armPair; split <;> rfl
  · unfold armPair; split <;> simp [SoftwareBreakpoint.new]

end MasterLib
