import MasterLib.SoftwareBreakpoint

/-!
# What an `Apply` has saved

`original_opcode_` is filled from a buffer that a read may have left as it found it: `ReadMemory` returns the
same on both its paths, so none of the three `Apply`s notices. And of several `Apply`s in a row only the first
reads the original bytes, the others read the opcode it wrote.
-/

namespace MasterLib
open Overlay

variable {b : Build} {env : Env}

namespace SoftwareBreakpoint
variable {bp : SoftwareBreakpoint b} {t : Task b} {n : Nat}

/-! ### The first `Apply` -/

/-- The trap is planted only with the bytes under it saved, and not at all if they cannot be read. -/
structure PlantsSaved (env : Env) (bp : SoftwareBreakpoint b) (t : Task b) : Prop where
  saved : (bp.apply env t).1 = true → env.kr t.calls = kernSuccess ∧
    (bp.apply env t).2.1.originalOpcode = readBytes t.mem bp.address bp.size
  refused : env.kr t.calls ≠ kernSuccess → (bp.apply env t).1 = false ∧ (bp.apply env t).2.2.mem = t.mem

theorem fst_apply : (bp.apply env t).1 = true ↔
    env.WriteLands (t.calls + 1) ∧ env.kr (t.calls + 3) = kernSuccess := by
  rw [apply_eq]
  exact (fst_writeMemory ..).trans (firstFailure_three_eq_none_iff _)

theorem mem_apply : (bp.apply env t).2.2.mem =
    if env.WriteLands (t.calls + 1) then overlay t.mem bp.address bp.kind.opcode else t.mem := by
  have hmem : (writeMemory env bp.address bp.kind.opcode true t.tick).2.mem = _ := mem_writeMemory ..
  rw [SoftwareKind.sent_opcode] at hmem
  rw [apply_eq]
  exact hmem

theorem mem_reset : (bp.reset env t).2.2.mem =
    if env.WriteLands t.calls then overlay t.mem bp.address (sent bp.originalOpcode) else t.mem := by
  rw [reset_eq]
  exact mem_writeMemory ..

theorem overlay_opcode_eq_self_iff {m : VmAddress b → Byte} :
    overlay m bp.address bp.kind.opcode = m ↔ readBytes m bp.address bp.size = bp.kind.opcode :=
  overlay_eq_self_iff_readBytes (bp.kind.opcode_length_le_pow b)

/-- A read that fails is harmless exactly when the write then fails as well: before it reaches the target, or
after it with the opcode already there. -/
theorem plantsSaved_iff (hfresh : bp.originalOpcode = []) : bp.PlantsSaved env t ↔
    env.kr t.calls = kernSuccess ∨ ¬ env.WriteLands (t.calls + 1) ∨
      env.kr (t.calls + 3) ≠ kernSuccess ∧ readBytes t.mem bp.address bp.size = bp.kind.opcode := by
  by_cases hread : env.kr t.calls = kernSuccess
  · refine iff_of_true ⟨fun _ => ⟨hread, ?_⟩, fun h => absurd hread h⟩ (.inl hread)
    rw [apply_eq]
    show bp.kind.saved bp.originalOpcode (bytesRead env t bp.address bp.size) = _
    rw [hfresh, SoftwareKind.saved_nil, bytesRead, if_pos hread]
  · have hrefused : bp.PlantsSaved env t ↔ (bp.apply env t).1 = false ∧ (bp.apply env t).2.2.mem = t.mem := by
      constructor
      · exact fun h => h.refused hread
      · rintro ⟨hfalse, hmem⟩
        exact ⟨fun h => absurd (hfalse.symm.trans h) Bool.false_ne_true, fun _ => ⟨hfalse, hmem⟩⟩
    rw [hrefused, ← Bool.not_eq_true, fst_apply, mem_apply, or_iff_right hread, ← overlay_opcode_eq_self_iff]
    by_cases hlands : env.WriteLands (t.calls + 1) <;> simp [hlands]

def freshTrap : SoftwareBreakpoint .x86_64 := .new .x86_64 false 0x1000

def flatTarget : Task .x86_64 where
  mem := fun _ => 0x55
  prot := fun _ => protRX
  threads := []
  kinfo := some true
  calls := 0

theorem plantsSaved_unwritable : freshTrap.PlantsSaved (.failAt [0, 1]) flatTarget :=
  (plantsSaved_iff rfl).2 (.inr (.inl (by decide)))

/-- With only the read failing, the buffer's zero is saved for the byte 0x55 and the trap is planted. -/
theorem not_plantsSaved_unreadable : ¬ freshTrap.PlantsSaved (.failAt [0]) flatTarget := by
  intro h
  have hread := (h.saved (by decide)).1
  revert hread; decide

/-! ### `Apply` after `Apply` -/

/-- `n` calls of `Apply` in a row. -/
def applyTimes (env : Env) (bp : SoftwareBreakpoint b) (t : Task b) : Nat → SoftwareBreakpoint b × Task b
  | 0 => (bp, t)
  | n + 1 => let (bp, t) := applyTimes env bp t n; (bp.apply env t).2

def AllReturnTrue (env : Env) (bp : SoftwareBreakpoint b) (t : Task b) (n : Nat) : Prop :=
  ∀ k < n, ((bp.applyTimes env t k).1.apply env (bp.applyTimes env t k).2).1 = true

/-- What the read of the `i`th of these calls, counted from 0, leaves in the buffer: the original bytes, the
opcode that is over them by then, or if it fails what the stack held. -/
def readAt (env : Env) (bp : SoftwareBreakpoint b) (t : Task b) (i : Nat) : List Byte :=
  if env.kr (t.calls + 4 * i) = kernSuccess then
    if i = 0 then readBytes t.mem bp.address bp.size else bp.kind.opcode
  else (List.range bp.size).map (env.stack (t.calls + 4 * i))

/-- `original_opcode_` after `n` of these calls. -/
def kept (env : Env) (bp : SoftwareBreakpoint b) (t : Task b) : Nat → List Byte
  | 0 => []
  | n + 1 => bp.kind.saved (bp.kept env t n) (bp.readAt env t n)

/-- The reads left in the buffer what the bytes were originally: on x86_64, which keeps every byte read, the
`i`th read the byte `i` places on, as far as `vm_write` copies them; on ARM and THUMB, which keep the last read, that
one the whole range. If no byte of the `Reset` reaches the target the opcode has to be the original bytes. -/
def ReadsAsBefore (env : Env) (bp : SoftwareBreakpoint b) (t : Task b) (n : Nat) : Prop :=
  if env.WriteLands (t.calls + 4 * n) ∧ (bp.kind = .x86_64 → n % 2 ^ 32 ≠ 0) then
    match bp.kind with
    | .x86_64 => ∀ i < n % 2 ^ 32, bp.readAt env t i = [t.mem (bp.address + BitVec.ofNat _ i)]
    | .armv7 | .thumbv7 => bp.readAt env t (n - 1) = readBytes t.mem bp.address bp.size
  else readBytes t.mem bp.address bp.size = bp.kind.opcode

theorem length_readAt (i : Nat) : (bp.readAt env t i).length = bp.size := by
  unfold readAt
  split
  · split
    · exact length_readBytes
    · rfl
  · simp

/-- After `n` calls that returned `true`. -/
structure AppliedTimes (env : Env) (bp : SoftwareBreakpoint b) (t : Task b) (n : Nat)
    (r : SoftwareBreakpoint b × Task b) : Prop where
  kind : r.1.kind = bp.kind
  address : r.1.address = bp.address
  saved : r.1.originalOpcode = bp.kept env t n
  mem : r.2.mem = if n = 0 then t.mem else overlay t.mem bp.address bp.kind.opcode
  calls : r.2.calls = t.calls + 4 * n

theorem AppliedTimes.apply {r : SoftwareBreakpoint b × Task b} (h : AppliedTimes env bp t n r)
    (hok : (r.1.apply env r.2).1 = true) : AppliedTimes env bp t (n + 1) (r.1.apply env r.2).2 := by
  have hsize : r.1.size = bp.size := by rw [size, h.kind]; rfl
  have hread : bytesRead env r.2 bp.address bp.size = bp.readAt env t n := by
    rw [bytesRead, readAt, h.calls, h.mem]
    cases n with
    | zero => rfl
    | succ n =>
      rw [if_neg (Nat.succ_ne_zero n), if_neg (Nat.succ_ne_zero n)]
      split
      · exact readBytes_overlay (bp.kind.opcode_length_le_pow b)
      · rfl
  have hlands : env.WriteLands (r.2.calls + 1) := (fst_apply.1 hok).1
  have hmem : (r.1.apply env r.2).2.2.mem = _ := mem_apply
  rw [if_pos hlands, h.mem, h.address, h.kind] at hmem
  rw [apply_eq] at hok ⊢
  refine ⟨h.kind, h.address, ?_, ?_, ?_⟩
  · show r.1.kind.saved r.1.originalOpcode (bytesRead env r.2 r.1.address r.1.size) = _
    rw [h.kind, h.saved, h.address, hsize, hread]; rfl
  · rw [apply_eq] at hmem
    rw [hmem, if_neg (Nat.succ_ne_zero n)]
    split
    · rfl
    · exact overlay_overlay (Nat.le_refl _)
  · show (writeMemory env _ _ true _).2.calls = _
    rw [writeMemory_none ((fst_writeMemory ..).1 hok)]
    show r.2.calls + 1 + 3 = _
    rw [h.calls]; omega

theorem appliedTimes (hfresh : bp.originalOpcode = []) (hok : bp.AllReturnTrue env t n) :
    AppliedTimes env bp t n (bp.applyTimes env t n) := by
  induction n with
  | zero => exact ⟨rfl, rfl, hfresh, rfl, rfl⟩
  | succ n ih => exact (ih fun k hk => hok k (by omega)).apply (hok n (by omega))

theorem kept_x86_64 (hkind : bp.kind = .x86_64) (n : Nat) :
    bp.kept env t n = (List.range n).map fun i => (bp.readAt env t i).headD 0 := by
  induction n with
  | zero => rfl
  | succ n ih =>
    have hlen : (bp.readAt env t n).length = 1 := by rw [length_readAt, size, hkind]; rfl
    obtain ⟨x, hx⟩ := List.length_eq_one_iff.1 hlen
    rw [kept, hkind, ih, List.range_succ, List.map_append, hx]
    simp only [SoftwareKind.saved, List.map_cons, List.map_nil, hx, List.headD_cons]

theorem kept_of_ne_x86_64 (hkind : bp.kind ≠ .x86_64) (n : Nat) : bp.kept env t (n + 1) = bp.readAt env t n := by
  rw [kept]
  cases hk : bp.kind with
  | x86_64 => exact absurd hk hkind
  | armv7 | thumbv7 => rfl

theorem length_sent_kept (hn : 0 < n) : (sent (bp.kept env t n)).length =
    if bp.kind = .x86_64 then n % 2 ^ 32 else bp.size := by
  split
  · rename_i hkind
    rw [length_sent, kept_x86_64 hkind, List.length_map, List.length_range]
  · rename_i hkind
    obtain ⟨n, rfl⟩ : ∃ k, n = k + 1 := ⟨n - 1, by omega⟩
    have hlen : (bp.readAt env t n).length = bp.size := length_readAt n
    rw [kept_of_ne_x86_64 hkind, SoftwareKind.sent_of_length (k := bp.kind) hlen.le, hlen]

/-- Writing back what was kept changes nothing exactly when it is what was there. -/
theorem overlay_kept_eq_self_iff (hn : 0 < n) : overlay t.mem bp.address (sent (bp.kept env t n)) = t.mem ↔
    match bp.kind with
    | .x86_64 => ∀ i < n % 2 ^ 32, bp.readAt env t i = [t.mem (bp.address + BitVec.ofNat _ i)]
    | .armv7 | .thumbv7 => bp.readAt env t (n - 1) = readBytes t.mem bp.address bp.size := by
  have harm : bp.kind ≠ .x86_64 → (overlay t.mem bp.address (sent (bp.kept env t n)) = t.mem ↔
      bp.readAt env t (n - 1) = readBytes t.mem bp.address bp.size) := by
    intro hkind
    obtain ⟨n, rfl⟩ : ∃ k, n = k + 1 := ⟨n - 1, by omega⟩
    have hlen : (bp.readAt env t n).length = bp.size := length_readAt n
    rw [kept_of_ne_x86_64 hkind, SoftwareKind.sent_of_length (k := bp.kind) hlen.le,
      overlay_eq_self_iff_readBytes (by rw [hlen]; exact bp.kind.opcode_length_le_pow b), hlen]
    exact eq_comm
  cases hkind : bp.kind with
  | armv7 | thumbv7 => exact harm (by rw [hkind]; decide)
  | x86_64 =>
    have hone : ∀ i v, (bp.readAt env t i).headD 0 = v ↔ bp.readAt env t i = [v] := by
      intro i v
      have hlen : (bp.readAt env t i).length = 1 := by rw [length_readAt, size, hkind]; rfl
      obtain ⟨x, hx⟩ := List.length_eq_one_iff.1 hlen
      simp [hx]
    have hfit : ∀ i < n % 2 ^ 32, i < n ∧ i < 2 ^ b.addrBits := by
      intro i hi
      have hpow : 2 ^ 32 ≤ 2 ^ b.addrBits := Nat.pow_le_pow_right (by omega) b.le_addrBits
      have hle := Nat.mod_le n (2 ^ 32)
      have hlt := Nat.mod_lt n (show 0 < 2 ^ 32 by decide)
      exact ⟨by omega, by omega⟩
    rw [sent, overlay_take_eq_self_iff, kept_x86_64 hkind]
    simp only [List.length_map, List.length_range, List.getElem_map, List.getElem_range, hone]
    exact ⟨fun h i hi => h i (hfit i hi).1 hi (hfit i hi).2, fun h i _ hi _ => h i hi⟩

/-- `n` calls of `Apply` that return `true` and then one `Reset` restore the memory exactly when what the reads
found is what was there originally. -/
theorem applyTimes_reset_iff (hfresh : bp.originalOpcode = []) (hn : 0 < n) (hok : bp.AllReturnTrue env t n) :
    ((bp.applyTimes env t n).1.reset env (bp.applyTimes env t n).2).2.2.mem = t.mem ↔
      bp.ReadsAsBefore env t n := by
  have h := appliedTimes hfresh hok
  have hlen : (sent (bp.kept env t n)).length = _ := length_sent_kept hn
  rw [mem_reset, h.calls, h.mem, h.address, h.saved, if_neg (Nat.pos_iff_ne_zero.1 hn), ReadsAsBefore]
  by_cases hlands : env.WriteLands (t.calls + 4 * n)
  swap
  · rw [if_neg hlands, if_neg fun hc => hlands hc.1]
    exact overlay_opcode_eq_self_iff
  by_cases hfits : bp.kind = .x86_64 → n % 2 ^ 32 ≠ 0
  · have hover : bp.kind.opcode.length ≤ (sent (bp.kept env t n)).length := by
      rw [hlen]
      split
      · rename_i hkind
        have hpos := hfits hkind
        rw [hkind]
        exact Nat.one_le_iff_ne_zero.2 hpos
      · exact Nat.le_refl _
    rw [if_pos hlands, if_pos ⟨hlands, hfits⟩, overlay_overlay hover]
    exact overlay_kept_eq_self_iff hn
  · -- of `2 ^ 32` saved bytes none is copied
    obtain ⟨hkind, hzero⟩ := Classical.not_imp.1 hfits
    rw [if_pos hkind, not_not.1 hzero] at hlen
    rw [if_pos hlands, if_neg fun hc => hfits hc.2, List.eq_nil_of_length_eq_zero hlen, overlay_nil]
    exact overlay_opcode_eq_self_iff

theorem allReturnTrue_ok (hk : env.AllSucceed) (n : Nat) : bp.AllReturnTrue env t n :=
  fun _ _ => fst_apply.2 ⟨⟨hk _, hk _⟩, hk _⟩

/-- Over bytes that are opcodes from the second on, three calls do no harm. -/
theorem applyTimes_reset_int3 :
    let t : Task .x86_64 := { flatTarget with mem := fun x => if x = 0x1000 then 0x55 else 0xCC }
    ((freshTrap.applyTimes (.failAt []) t 3).1.reset (.failAt []) (freshTrap.applyTimes (.failAt []) t 3).2).2.2.mem =
      t.mem := by
  intro t
  refine (applyTimes_reset_iff rfl (by decide) (allReturnTrue_ok Env.allSucceed_failAt_nil 3)).2 ?_
  rw [ReadsAsBefore, if_pos ⟨⟨rfl, rfl⟩, fun _ => by decide⟩]
  show ∀ i < 3, freshTrap.readAt (.failAt []) t i = [t.mem (0x1000 + BitVec.ofNat 64 i)]
  intro i hi
  interval_cases i <;> decide

/-- The second call appends the opcode to what is kept, so that `Reset` writes it over the next byte. -/
theorem not_restored_applyTwice :
    freshTrap.originalOpcode = [] ∧ freshTrap.AllReturnTrue (.failAt []) flatTarget 2 ∧
      ((freshTrap.applyTimes (.failAt []) flatTarget 2).1.reset (.failAt [])
        (freshTrap.applyTimes (.failAt []) flatTarget 2).2).2.2.mem ≠ flatTarget.mem := by
  refine ⟨rfl, allReturnTrue_ok Env.allSucceed_failAt_nil 2, fun h => ?_⟩
  have h₁ := congrFun h 0x1001
  revert h₁; decide

end SoftwareBreakpoint

end MasterLib
