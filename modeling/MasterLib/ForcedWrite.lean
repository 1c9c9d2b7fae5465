import MasterLib.Process

/-!
# Forced writes

`WriteMemory` with `force` makes the pages writable, writes, and makes them readable and executable. What they were
is not saved, so a success changes every page that was not so already, and a failure after the first call leaves
the pages writable. Of an input of `2 ^ 32` bytes or more `vm_write` copies only as many as 32 bits of its size say.
-/

namespace MasterLib
open Overlay

variable {b : Build} {env : Env} {a : VmAddress b} {input : List Byte} {t : Task b}

/-- A forced write replaces the bytes, or changes nothing and says so; the protections stay. -/
structure Transactional (env : Env) (a : VmAddress b) (input : List Byte) (t : Task b) : Prop where
  done : (writeMemory env a input true t).1 = true →
    (writeMemory env a input true t).2.mem = overlay t.mem a input ∧ (writeMemory env a input true t).2.prot = t.prot
  undone : (writeMemory env a input true t).1 = false →
    (writeMemory env a input true t).2.mem = t.mem ∧ (writeMemory env a input true t).2.prot = t.prot

/-- Every page that the range meets has protection `p`. -/
def PagesAre (p : VmProt) (a : VmAddress b) (size : Nat) (t : Task b) : Prop := ∀ pg, Touches a size pg → t.prot pg = p

/-- The bytes of the input from number `lo` up to `hi` are in the target already. -/
def InPlace (lo hi : Nat) (a : VmAddress b) (input : List Byte) (t : Task b) : Prop :=
  ∀ i (_ : i < input.length), lo ≤ i → i < hi → i < 2 ^ b.addrBits → input[i] = t.mem (a + BitVec.ofNat _ i)

/-- What the calls before the first that fails have set is what was there; and if none fails, the bytes that
`vm_write` is not told to copy. -/
def SetAlready (env : Env) (a : VmAddress b) (input : List Byte) (t : Task b) : Prop :=
  match env.firstFailure t.calls 3 with
  | none => PagesAre protRX a input.length t ∧ InPlace (input.length % 2 ^ 32) input.length a input t
  | some i =>
    (0 < i → PagesAre protRWX a input.length t) ∧ (1 < i → InPlace 0 (input.length % 2 ^ 32) a input t)

theorem protect_eq_self_iff_pagesAre {p : VmProt} :
    protect t.prot a input.length p = t.prot ↔ PagesAre p a input.length t := protect_eq_self_iff

theorem overlay_sent_eq_self_iff_inPlace :
    overlay t.mem a (sent input) = t.mem ↔ InPlace 0 (input.length % 2 ^ 32) a input t := by
  rw [sent, overlay_take_eq_self_iff, InPlace]
  simp only [Nat.zero_le, true_imp_iff]

theorem overlay_sent_eq_overlay_iff_inPlace : overlay t.mem a (sent input) = overlay t.mem a input ↔
    InPlace (input.length % 2 ^ 32) input.length a input t := by
  rw [sent, overlay_take_eq_overlay_iff, InPlace]
  refine forall₂_congr fun i hi => imp_congr_right fun _ => ?_
  exact true_imp_iff.symm.trans (imp_congr_left (iff_true_intro hi).symm)

/-- A forced write is transactional exactly if every page was readable and executable and the bytes beyond those that
`vm_write` copies are there, or at the first call that fails nothing has changed because the pages were writable and
executable already, and the bytes there. -/
theorem transactional_iff (env : Env) (a : VmAddress b) (input : List Byte) (t : Task b) :
    Transactional env a input t ↔ SetAlready env a input t := by
  unfold SetAlready
  cases hf : env.firstFailure t.calls 3 with
  | none =>
    have hw : writeMemory env a input true t = _ := writeMemory_none hf
    show _ ↔ PagesAre protRX a input.length t ∧ InPlace (input.length % 2 ^ 32) input.length a input t
    rw [← protect_eq_self_iff_pagesAre, ← overlay_sent_eq_overlay_iff_inPlace]
    constructor
    · intro h
      obtain ⟨hmem, hprot⟩ := h.done (by rw [hw])
      rw [hw] at hmem hprot
      exact ⟨hprot, hmem⟩
    · rintro ⟨hprot, hmem⟩
      refine ⟨fun _ => ?_, fun hfalse => ?_⟩
      · rw [hw]
        exact ⟨hmem, hprot⟩
      · rw [hw] at hfalse; cases hfalse
  | some i =>
    have hw : writeMemory env a input true t = _ := writeMemory_some hf
    show _ ↔ (0 < i → PagesAre protRWX a input.length t) ∧ (1 < i → InPlace 0 (input.length % 2 ^ 32) a input t)
    rw [← protect_eq_self_iff_pagesAre, ← overlay_sent_eq_self_iff_inPlace]
    constructor
    · intro h
      obtain ⟨hmem, hprot⟩ := h.undone (by rw [hw])
      rw [hw] at hmem hprot
      exact ⟨ite_eq_right_iff.1 hprot, ite_eq_right_iff.1 hmem⟩
    · rintro ⟨hprot, hmem⟩
      refine ⟨fun htrue => ?_, fun _ => ?_⟩
      · rw [hw] at htrue; cases htrue
      · rw [hw]
        exact ⟨ite_eq_right_iff.2 hmem, ite_eq_right_iff.2 hprot⟩

/-- A target with one page of data. -/
def dataTarget : Task .x86_64 where
  mem := fun _ => 0
  prot := fun pg => if pg = 1 then vmProtRead ||| vmProtWrite else 0
  threads := []
  kinfo := some true
  calls := 0

/-- The write succeeds and the page is no longer writable. -/
theorem not_transactional_data : ¬ Transactional (.failAt []) 0x1000 [0x55] dataTarget := by
  intro h
  have hprot := congrFun (h.done (by decide)).2 1
  revert hprot; decide

end MasterLib
