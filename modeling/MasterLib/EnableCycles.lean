import MasterLib.BreakpointHandler

/-!
# Enabling and disabling an x86_64 software breakpoint over and over

`x86_64SoftwareBreakpoint::Apply` appends the byte it saves to `original_opcode_` and nothing ever empties
that vector, so the `k`th `Reset` writes `k` bytes. As long as the memory has been restored so far they are
`k` copies of the byte at `address_` (`CycleInv`), and writing them changes nothing exactly when the `k`
bytes from `address_` on are all equal. In cycle `2 ^ 32` the size no longer fits `vm_write`'s count, and none is
written.
-/

namespace MasterLib
open Overlay

variable {b : Build} {env : Env}

namespace Session

/-- `s` after `n` calls of `EnableBreakpoint`, each followed by one of `DisableBreakpoint`. -/
def cycles (env : Env) (p : BpPtr) : Nat → Session b → Session b
  | 0, s => s
  | n + 1, s => ((s.cycles env p n).enableBreakpoint env p).2.disableBreakpoint env p |>.2

/-- In each of the first `n` cycles the enable changes only the byte at `a`, to the opcode, and the disable
gives back the initial memory. -/
def CyclesRestore (env : Env) (p : BpPtr) (a : VmAddress b) (n : Nat) (s : Session b) : Prop :=
  ∀ k < n,
    ((s.cycles env p k).enableBreakpoint env p).2.task.mem = overlay s.task.mem a [0xCC] ∧
    (s.cycles env p (k + 1)).task.mem = s.task.mem

/-- After `k` cycles that restored the memory `m`: `k` copies of the byte at `a` are saved. -/
structure CycleInv (p : BpPtr) (a : VmAddress b) (m : VmAddress b → Byte) (k : Nat) (s : Session b) :
    Prop where
  obj : ∃ bp, s.heap p = .software bp ∧ bp.kind = .x86_64 ∧ bp.address = a ∧
    bp.originalOpcode = List.replicate k (m a)
  mem : s.task.mem = m

variable {p : BpPtr} {a : VmAddress b} {m : VmAddress b → Byte} {k n : Nat} {s : Session b}

theorem sent_replicate (k : Nat) (v : Byte) : sent (List.replicate k v) = List.replicate (k % 2 ^ 32) v := by
  rw [sent, List.length_replicate, List.take_replicate, Nat.min_eq_left (Nat.mod_le ..)]

/-- `k` saved copies of the byte at `a` restore the memory under the trap if they are what is there, and none if the
trap is. -/
theorem overlay_saved_eq_self_iff : overlay (overlay m a [0xCC]) a (sent (List.replicate k (m a))) = m ↔
    (∀ i < k % 2 ^ 32, m (a + BitVec.ofNat _ i) = m a) ∧ (k % 2 ^ 32 = 0 → m a = 0xCC) := by
  rw [sent_replicate]
  rcases Nat.eq_zero_or_pos (k % 2 ^ 32) with h0 | hpos
  · have hone : overlay m a [0xCC] = m ↔ ∀ i < 1, m (a + BitVec.ofNat _ i) = 0xCC :=
      overlay_replicate_eq_self_iff (n := 1)
    rw [h0, List.replicate_zero, overlay_nil, hone]
    simp
  · have hlen : [(0xCC : Byte)].length ≤ (List.replicate (k % 2 ^ 32) (m a)).length := by
      rw [List.length_replicate]; exact hpos
    rw [overlay_overlay hlen, overlay_replicate_eq_self_iff]
    exact (and_iff_left fun h0 => absurd h0 hpos.ne').symm

/-- One cycle: the trap byte goes in, then as many of `k + 1` copies of the byte at `a` as `vm_write` copies. -/
theorem CycleInv.cycle (hk : env.AllSucceed) (h : CycleInv p a m k s) :
    (s.enableBreakpoint env p).2.task.mem = overlay m a [0xCC] ∧
    (((s.enableBreakpoint env p).2.disableBreakpoint env p).2.task.mem =
      overlay (overlay m a [0xCC]) a (sent (List.replicate (k + 1) (m a)))) ∧
    (overlay (overlay m a [0xCC]) a (sent (List.replicate (k + 1) (m a))) = m →
      CycleInv p a m (k + 1) ((s.enableBreakpoint env p).2.disableBreakpoint env p).2) := by
  obtain ⟨⟨bp, hp, hkind, rfl, hsaved⟩, rfl⟩ := h
  have hop : bp.kind.opcode = [0xCC] := by rw [hkind]; rfl
  have hsize : bp.size = 1 := by rw [SoftwareBreakpoint.size, hop]; rfl
  have hsv : (bp.afterApply (readBytes s.task.mem bp.address bp.size)).originalOpcode =
      List.replicate (k + 1) (s.task.mem bp.address) := by
    rw [SoftwareBreakpoint.originalOpcode_afterApply, hkind, hsaved, hsize, readBytes_one,
      List.replicate_succ']
    rfl
  have he := callApply_ok hk hp
  simp only [enableBreakpoint, disableBreakpoint]
  rw [he, hop, callReset_ok hk (Function.update_self ..)]
  simp only [SoftwareBreakpoint.address_afterApply, hsv]
  refine ⟨trivial, trivial, fun hm => ⟨⟨_, Function.update_self .., hkind, rfl, ?_⟩, hm⟩⟩
  rw [SoftwareBreakpoint.originalOpcode_wasReset, hsv]

theorem cycleInv_cycles (hk : env.AllSucceed) (h₀ : CycleInv p a m 0 s)
    (hm : ∀ k < n, overlay (overlay m a [0xCC]) a (sent (List.replicate (k + 1) (m a))) = m) :
    CycleInv p a m n (s.cycles env p n) := by
  induction n with
  | zero => exact h₀
  | succ n ih => exact ((ih fun k hk => hm k (by omega)).cycle hk).2.2 (hm n (by omega))

/-- The first `n` cycles restore the memory exactly when each time the saved bytes do. -/
theorem cyclesRestore_iff_saved (hk : env.AllSucceed) (h₀ : CycleInv p a s.task.mem 0 s) (n : Nat) :
    s.CyclesRestore env p a n ↔
      ∀ k < n, overlay (overlay s.task.mem a [0xCC]) a (sent (List.replicate (k + 1) (s.task.mem a))) = s.task.mem := by
  induction n with
  | zero => exact iff_of_true (fun _ hi => absurd hi (by omega)) fun _ hi => absurd hi (by omega)
  | succ n ih =>
    constructor
    · intro h
      have hm := ih.1 fun k hk => h k (by omega)
      have hc := (cycleInv_cycles hk h₀ hm).cycle hk
      intro k hkn
      rcases Nat.lt_succ_iff_lt_or_eq.1 hkn with hlt | rfl
      · exact hm k hlt
      · exact hc.2.1.symm.trans (h k (by omega)).2
    · intro hm k hkn
      have hc := (cycleInv_cycles (n := k) hk h₀ fun i hi => hm i (by omega)).cycle hk
      exact ⟨hc.1, hc.2.1.trans (hm k hkn)⟩

/-- The first `n` cycles restore the memory exactly when the `n` bytes from `address_` on are equal; of `2 ^ 32` of them
or more all but the last that fit `vm_write`'s count, and the byte at `address_` is the trap's own. -/
theorem cyclesRestore_iff (hk : env.AllSucceed) {bp : SoftwareBreakpoint b}
    (hp : s.heap p = .software bp) (hkind : bp.kind = .x86_64) (hfresh : bp.originalOpcode = [])
    (n : Nat) :
    s.CyclesRestore env p bp.address n ↔
      (∀ i < n, i < 2 ^ 32 - 1 → s.task.mem (bp.address + BitVec.ofNat _ i) = s.task.mem bp.address) ∧
        (2 ^ 32 ≤ n → s.task.mem bp.address = 0xCC) := by
  have h₀ : CycleInv p bp.address s.task.mem 0 s := ⟨⟨bp, hp, hkind, rfl, by simpa using hfresh⟩, rfl⟩
  rw [cyclesRestore_iff_saved hk h₀]
  simp only [overlay_saved_eq_self_iff]
  constructor
  · refine fun h => ⟨fun i hi hfit => (h i hi).1 i (by omega), fun hn => (h (2 ^ 32 - 1) (by omega)).2 (by omega)⟩
  · rintro ⟨hsame, htrap⟩ k hkn
    exact ⟨fun i hi => hsame i (by omega) (by omega), fun h0 => htrap (by omega)⟩

def cycleTarget (m : VmAddress .x86_64 → Byte) : Session .x86_64 :=
  start (fun _ => .software (.new .x86_64 false 0x1000)) m []

theorem cyclesRestore_constant : (cycleTarget fun _ => 0x90).CyclesRestore (.failAt []) 0 0x1000 3 := by
  have hp : (cycleTarget fun _ => 0x90).heap 0 = .software (.new .x86_64 false 0x1000) := rfl
  exact (cyclesRestore_iff Env.allSucceed_failAt_nil hp rfl rfl 3).2 ⟨fun _ _ _ => rfl, fun h => absurd h (by decide)⟩

/-- The second disable writes the byte of `0x1000` over the different one at `0x1001`. -/
theorem not_cyclesRestore_two :
    ¬ (cycleTarget fun x => if x = 0x1001 then 0x90 else 0x55).CyclesRestore (.failAt []) 0 0x1000 2 := by
  intro h
  have h₁ := congrFun (h 1 (by decide)).2 0x1001
  revert h₁; decide

end Session

end MasterLib
