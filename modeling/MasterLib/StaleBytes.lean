import MasterLib.ExcCall

/-!
# The bytes around a message

A buffer holds more than the message: what is behind a message is left from the ones before it, and a reply is written
into a buffer that is not cleared. The stubs of both sides look at the first and send along the second in no case.
-/

namespace MasterLib
open LittleEndian

variable {σ : Type*} {catchFns : Catch σ} {inP inP' out out' m m' : Message} {s : σ} {r : Routine} {code : Word}
  {p q n w : Nat}

/-! ### What is read of a request -/

/-- The two buffers hold the same message: a header, and what `msgh_size` says. -/
def SameMessage (m m' : Message) : Prop := ∀ q < max 24 (msghSize m).toNat, m q = m' q

theorem load_eq_of_lt (h : ∀ q < n, m q = m' q) (hw : 8 ∣ w) (hp : p + w / 8 ≤ n) : load m p w = load m' p w := by
  refine load_congr fun q hq hlt => h q ?_
  rcases hw with ⟨k, rfl⟩
  omega

theorem loadWords_eq_of_lt {k : Nat} (h : ∀ q < n, m q = m' q) (hw : 8 ∣ w) (hp : p + w / 8 * k ≤ n) :
    loadWords m p w k = loadWords m' p w k := loadWords_congr hw fun q _ hlt => h q (by omega)

namespace SameMessage
variable (h : SameMessage m m')
include h

theorem head (hp : p + w / 8 ≤ 24) (hw : 8 ∣ w) : load m p w = load m' p w :=
  load_eq_of_lt (n := 24) (fun q hq => h q (by omega)) hw hp

theorem msghSize_eq : msghSize m = msghSize m' := h.head (by decide) (by decide)

theorem msghId_eq : msghId m = msghId m' := h.head (by decide) (by decide)

theorem complexBit_eq : complexBit m = complexBit m' := by
  unfold complexBit msghBits
  rw [h.head (p := 0) (by decide) (by decide)]

theorem symm : SameMessage m' m := by
  intro q hq
  rw [← h.msghSize_eq] at hq
  exact (h q hq).symm

end SameMessage

namespace Routine

/-- What is read of a well-formed request ends where the message does. -/
theorem ArraysFit.ends (h : r.ArraysFit m) : r.code + 8 * r.codes m ≤ (msghSize m).toNat ∧
    (r.hasState = true → r.moved m r.flavor + 4 ≤ (msghSize m).toNat ∧
      r.moved m r.oldStateCnt + 4 ≤ (msghSize m).toNat ∧
      r.moved m r.oldState + 4 * (load m (r.moved m r.oldStateCnt) 32 : Word).toNat ≤ (msghSize m).toNat) := by
  have hsize := h.size
  have hfixed := r.ndr_add_le
  refine ⟨by rw [Routine.code]; omega, fun hs => ?_⟩
  have hwords : r.words m = (load m (r.moved m r.oldStateCnt) 32 : Word).toNat := by
    rw [Routine.words, if_pos hs, moved, toNat_delta h.codes]
  rw [minRequest_eq, if_pos hs, hwords] at hsize
  rw [moved, moved, moved, toNat_delta h.codes, flavor, oldStateCnt, oldState]
  rw [moved, toNat_delta h.codes, oldStateCnt] at hsize
  omega

section
variable (h : SameMessage m m')
include h

theorem load_eq (hw : 8 ∣ w) (hp : p + w / 8 ≤ (msghSize m).toNat) : load m p w = load m' p w :=
  load_eq_of_lt h hw (hp.trans (le_max_right ..))

theorem headFits_of_same (hhead : r.HeadFits m) : r.HeadFits m' := by
  have hmin := hhead.least
  refine ⟨h.complexBit_eq ▸ hhead.complex, fun hp => ?_, h.msghSize_eq ▸ hmin, h.msghSize_eq ▸ hhead.most⟩
  rw [minRequest_eq, ndr_of_hasPorts hp] at hmin
  rw [← hhead.descriptors hp]
  exact (load_eq h (by decide) (by rw [msghDescriptorCount]; omega)).symm

variable (hmin : r.minRequest ≤ (msghSize m).toNat)
include hmin

theorem load_codeCnt_eq : (load m r.codeCnt 32 : Word) = load m' r.codeCnt 32 := by
  have hfixed := r.ndr_add_le
  exact load_eq h (by decide) (by rw [codeCnt]; omega)

theorem isSendRight_eq (hr : r.hasPorts = true) (hp : p + 12 ≤ 52) : isSendRight m p = isSendRight m' p := by
  rw [minRequest_eq, ndr_of_hasPorts hr] at hmin
  unfold isSendRight descriptorType disposition
  rw [load_eq (w := 8) h (by decide) (by omega), load_eq (w := 8) h (by decide) (by omega)]

theorem checkArrays_congr : r.checkArrays m (msghSize m) = r.checkArrays m' (msghSize m) := by
  rw [checkArrays, checkArrays, ← load_codeCnt_eq h hmin]
  by_cases hcodes : 2 < (load m r.codeCnt 32 : Word)
  · rw [if_pos hcodes, if_pos hcodes]
  have hle : r.codes m ≤ 2 := Nat.not_lt.1 hcodes
  rw [if_neg hcodes, if_neg hcodes]
  by_cases hs : r.hasState = true
  swap
  · rw [if_neg hs, if_neg hs]
  rw [if_pos hs, if_pos hs, checkState, checkState]
  by_cases hroom : (msghSize m - .ofNat 32 r.minRequest) / 8 < (load m r.codeCnt 32 : Word) ∨
      msghSize m < .ofNat 32 r.minRequest + 8 * load m r.codeCnt 32
  · rw [if_pos hroom, if_pos hroom]
  · have hlt := r.minRequest_lt
    have h8 : (8 : Word).toNat = 8 := rfl
    have hfits := hroom
    rw [div_lt_or_lt_iff (not_lt_minRequest hmin) (by decide)
      (by rw [toNat_minRequest, h8]; exact (by omega : r.minRequest + 8 * r.codes m < 2 ^ 32)),
      toNat_minRequest, h8, minRequest_eq, if_pos hs] at hfits
    have hread : (load m (r.oldStateCnt + (8 * load m r.codeCnt 32 : Word).toNat - 16) 32 : Word) =
        load m' (r.oldStateCnt + (8 * load m r.codeCnt 32 : Word).toNat - 16) 32 := by
      refine load_eq h (by decide) ?_
      rw [toNat_delta hle, oldStateCnt]
      change ¬_ < r.ndr + 24 + 8 * r.codes m at hfits
      omega
    simp only [if_neg hroom, hread]

end

theorem check_congr (r : Routine) (h : SameMessage m m') : r.check m = r.check m' := by
  by_cases hhead : r.HeadFits m
  · have hmin := hhead.least
    rw [check_of_headFits hhead, check_of_headFits (headFits_of_same h hhead), ← h.msghSize_eq,
      checkArrays_congr h hmin]
    by_cases hp : r.hasPorts = true
    · rw [isSendRight_eq h hmin hp (by decide), isSendRight_eq (p := taskDescriptor) h hmin hp (by decide)]
    · rw [if_neg (by simp [hp]), if_neg (by simp [hp]), if_neg (by simp [hp]), if_neg (by simp [hp])]
  · rw [check_of_not_headFits hhead, check_of_not_headFits fun hc => hhead (headFits_of_same h.symm hc)]

theorem call_congr (h : SameMessage m m') (hwf : r.WellFormed m) : r.call m = r.call m' := by
  have hmin := hwf.head.least
  rcases hwf.arrays.ends with ⟨hcode, hstate⟩
  have hcnt := load_codeCnt_eq h hmin
  have hmoved : ∀ p, r.moved m' p = r.moved m p := fun p => by rw [moved, moved, hcnt]
  have hcodeArg : r.codeArg m = r.codeArg m' := by
    rw [codeArg, codeArg, ← hcnt]
    exact loadWords_eq_of_lt h (by decide) (hcode.trans (le_max_right ..))
  have hexception : (load m r.exception 32 : Word) = load m' r.exception 32 := by
    have hfixed := r.ndr_add_le
    exact load_eq h (by decide) (by rw [exception]; omega)
  have hports : r.hasPorts = true → (load m threadDescriptor 32 : Word) = load m' threadDescriptor 32 ∧
      (load m taskDescriptor 32 : Word) = load m' taskDescriptor 32 := by
    intro hp
    rw [minRequest_eq, ndr_of_hasPorts hp] at hmin
    exact ⟨load_eq h (by decide) (by rw [threadDescriptor]; omega),
      load_eq h (by decide) (by rw [taskDescriptor]; omega)⟩
  have hstateArgs : r.hasState = true → r.flavorArg m = r.flavorArg m' ∧ r.oldStateArg m = r.oldStateArg m' := by
    intro hs
    rcases hstate hs with ⟨hflavor, holdCnt, hold⟩
    have hcnt' : (load m (r.moved m r.oldStateCnt) 32 : Word) = load m' (r.moved m r.oldStateCnt) 32 :=
      load_eq h (by decide) holdCnt
    rw [flavorArg, flavorArg, oldStateArg, oldStateArg, hmoved, hmoved, hmoved, ← hcnt']
    exact ⟨load_eq h (by decide) hflavor, loadWords_eq_of_lt h (by decide) (hold.trans (le_max_right ..))⟩
  cases r with
  | machExceptionRaise =>
    rw [call, call, (hports rfl).1, (hports rfl).2, hexception, hcodeArg]
  | machExceptionRaiseState =>
    rw [call, call, hexception, hcodeArg, (hstateArgs rfl).1, (hstateArgs rfl).2]
  | machExceptionRaiseStateIdentity =>
    rw [call, call, (hports rfl).1, (hports rfl).2, hexception, hcodeArg, (hstateArgs rfl).1, (hstateArgs rfl).2]

end Routine

/-- A stub reads a request through its check and its call. -/
theorem stub_congr (hcheck : r.check m = r.check m') (hport : msghLocalPort m = msghLocalPort m')
    (hcall : r.check m = machMsgSuccess → r.call m = r.call m') :
    r.stub catchFns m out s = r.stub catchFns m' out s := by
  by_cases h : r.check m = machMsgSuccess
  swap
  · rw [stub_rejected h, stub_rejected (hcheck ▸ h), hcheck]
  have hargs := hcall h
  have h' : r.check m' = machMsgSuccess := hcheck ▸ h
  cases r with
  | machExceptionRaise =>
    obtain ⟨hthread, htask, hexception, hcode⟩ := Call.machExceptionRaise.inj hargs
    have hstub : xMachExceptionRaise catchFns m out s = _ := if_neg (not_not_intro h)
    have hstub' : xMachExceptionRaise catchFns m' out s = _ := if_neg (not_not_intro h')
    rw [Routine.stub, Routine.stub, hstub, hstub', hport, hthread, htask, hexception, hcode]
  | machExceptionRaiseState =>
    obtain ⟨hexception, hcode, hflavor, hold⟩ := Call.machExceptionRaiseState.inj hargs
    have hstub : xMachExceptionRaiseState catchFns m out s = _ := if_neg (not_not_intro h)
    have hstub' : xMachExceptionRaiseState catchFns m' out s = _ := if_neg (not_not_intro h')
    rw [Routine.stub, Routine.stub, hstub, hstub', hport, hexception, hcode, hflavor, hold]
  | machExceptionRaiseStateIdentity =>
    obtain ⟨hthread, htask, hexception, hcode, hflavor, hold⟩ := Call.machExceptionRaiseStateIdentity.inj hargs
    have hstub : xMachExceptionRaiseStateIdentity catchFns m out s = _ := if_neg (not_not_intro h)
    have hstub' : xMachExceptionRaiseStateIdentity catchFns m' out s = _ := if_neg (not_not_intro h')
    rw [Routine.stub, Routine.stub, hstub, hstub', hport, hthread, htask, hexception, hcode, hflavor, hold]

theorem machExcServer_congr (h : SameMessage m m') :
    machExcServer catchFns m out s = machExcServer catchFns m' out s := by
  have hhead : replyHead m out = replyHead m' out := by
    have hbits : msghBits m = msghBits m' := h.head (by decide) (by decide)
    have hremote : msghRemotePort m = msghRemotePort m' := h.head (by decide) (by decide)
    rw [replyHead, replyHead, hbits, hremote, h.msghId_eq]
  rw [machExcServer_eq, machExcServer_eq, ← h.msghId_eq, hhead]
  cases Routine.ofId (msghId m) with
  | none => rfl
  | some r =>
    have hstub : ∀ out, r.stub catchFns m out s = r.stub catchFns m' out s := fun out =>
      stub_congr (r.check_congr h) (h.head (by decide) (by decide)) fun hcheck =>
        Routine.call_congr h (Routine.check_eq_success_iff.1 hcheck)
    simp only [hstub]

/-! ### What is left in the reply -/

theorem migReturnError_congr (h : q < 24 → out q = out' q) (hq : q < 36) :
    migReturnError out code q = migReturnError out' code q :=
  store_congr_at fun h₁ => store_congr_at fun h₂ => h (by omega)

theorem replyState_congr (catchFn : σ → CatchReturn × σ) (hsize : msghSize out = .ofNat 32 sizeofReplyError)
    (h : q < 24 → out q = out' q) (hq : q < (msghSize (replyState out s catchFn).1).toNat) :
    (replyState out s catchFn).1 q = (replyState out' s catchFn).1 q := by
  have hcarries := (replyState_spec (s := s) catchFn hsize).2.size
  rw [hcarries] at hq
  rw [replyState, replyState]
  generalize catchFn s = c at *
  rcases c with ⟨c, s'⟩
  by_cases hret : c.ret = machMsgSuccess
  · simp only [CatchReturn.outcome, if_pos hret] at hq
    have hroom := c.room
    have hcounted := c.counted hret
    have hend : (44 + 4 * c.out.newStateCnt : Word).toNat = 44 + 4 * c.out.newState.length := by
      rw [toNat_add_mul (by rw [hcounted]; exact (by omega : 44 + 4 * c.out.newState.length < 2 ^ 32)), hcounted]
      rfl
    rw [hend] at hq
    simp only [if_neg (not_not_intro hret)]
    exact store_congr_at fun _ => store_congr_at fun _ => store_congr_at fun _ => store_congr_at fun _ =>
      store_congr_at fun _ => storeWords_congr_at fun _ => store_congr_at fun _ => h (by omega)
  · simp only [CatchReturn.outcome, if_neg hret] at hq
    simp only [if_pos hret]
    exact migReturnError_congr (fun hq => store_congr_at fun _ => store_congr_at fun _ => storeWords_congr_at fun _ =>
      store_congr_at fun _ => h hq) hq

theorem stub_out_congr (hsize : msghSize out = .ofNat 32 sizeofReplyError) (h : q < 24 → out q = out' q)
    (hq : q < (msghSize (r.stub catchFns m out s).1).toNat) :
    (r.stub catchFns m out s).1 q = (r.stub catchFns m out' s).1 q := by
  by_cases hcheck : r.check m = machMsgSuccess
  swap
  · rw [stub_rejected hcheck, (carries_migReturnError hsize).size] at hq
    rw [stub_rejected hcheck, stub_rejected hcheck]
    exact migReturnError_congr h hq
  cases r with
  | machExceptionRaise =>
    have hstub : ∀ out, xMachExceptionRaise catchFns m out s = _ := fun out => if_neg (not_not_intro hcheck)
    rw [Routine.stub, hstub] at hq
    rw [Routine.stub, Routine.stub, hstub, hstub]
    exact migReturnError_congr h (hq.trans_eq (congrArg BitVec.toNat (carries_migReturnError hsize).size))
  | machExceptionRaiseState =>
    have hstub : ∀ out, xMachExceptionRaiseState catchFns m out s = _ := fun out => if_neg (not_not_intro hcheck)
    rw [Routine.stub, hstub] at hq
    rw [Routine.stub, Routine.stub, hstub, hstub]
    exact replyState_congr _ hsize h hq
  | machExceptionRaiseStateIdentity =>
    have hstub : ∀ out, xMachExceptionRaiseStateIdentity catchFns m out s = _ := fun out =>
      if_neg (not_not_intro hcheck)
    rw [Routine.stub, hstub] at hq
    rw [Routine.stub, Routine.stub, hstub, hstub]
    exact replyState_congr _ hsize h hq

theorem replyHead_congr (hq : q < 16 ∨ 20 ≤ q ∧ q < 24) : replyHead m out q = replyHead m out' q :=
  store_congr_at fun _ => store_congr_at fun _ => store_congr_at fun _ => store_congr_at fun _ =>
    store_congr_at fun _ => absurd hq (by omega)

theorem machExcServer_out_congr (hq : q < (msghSize (machExcServer catchFns m out s).2.1).toNat)
    (hheader : q < 16 ∨ 20 ≤ q) :
    (machExcServer catchFns m out s).2.1 q = (machExcServer catchFns m out' s).2.1 q := by
  have hhead : q < 24 → replyHead m out q = replyHead m out' q := fun _ => replyHead_congr (by omega)
  rw [machExcServer_eq] at hq
  rw [machExcServer_eq, machExcServer_eq]
  cases hr : Routine.ofId (msghId m) with
  | none =>
    simp only [hr] at hq
    have hsize : msghSize (store (store (replyHead m out) 24 ndrRecord) 32 migBadId) = .ofNat 32 sizeofReplyError := by
      rw [← msghSize_replyHead m out]
      simp (disch := omega) only [msghSize, load_store_of_disjoint]
    have hlt : q < 36 := hq.trans_eq (congrArg BitVec.toNat hsize)
    exact store_congr_at fun _ => store_congr_at fun _ => hhead (by omega)
  | some r =>
    simp only [hr] at hq
    exact stub_out_congr (msghSize_replyHead m out) hhead hq

/-- `m` with something else behind it in the buffer. -/
def withTail (m junk : Message) : Message := fun q => if q < max 24 (msghSize m).toNat then m q else junk q

theorem sameMessage_withTail (m junk : Message) : SameMessage m (withTail m junk) := fun _ hq => (if_pos hq).symm

/-- Nothing behind a request in its buffer, and nothing left in the buffer of the reply, has an effect on what the
server does or is sent with the reply, but for the four bytes of the header that are the kernel's. -/
theorem machExcServer_stale (catchFns : Catch σ) (m junk out out' : Message) (s : σ) :
    (machExcServer catchFns (withTail m junk) out' s).1 = (machExcServer catchFns m out s).1 ∧
      (machExcServer catchFns (withTail m junk) out' s).2.2 = (machExcServer catchFns m out s).2.2 ∧
      msghSize (machExcServer catchFns (withTail m junk) out' s).2.1 =
        msghSize (machExcServer catchFns m out s).2.1 ∧
      ∀ q < (msghSize (machExcServer catchFns m out s).2.1).toNat, q < 16 ∨ 20 ≤ q →
        (machExcServer catchFns (withTail m junk) out' s).2.1 q = (machExcServer catchFns m out s).2.1 q := by
  rw [← machExcServer_congr (sameMessage_withTail m junk)]
  rcases machExcServer_spec catchFns m out s with ⟨hret, hstate, hcarries, -⟩
  rcases machExcServer_spec catchFns m out' s with ⟨hret', hstate', hcarries', -⟩
  refine ⟨hret'.trans hret.symm, hstate'.trans hstate.symm, hcarries'.size.trans hcarries.size.symm, ?_⟩
  intro q hq hheader
  exact (machExcServer_out_congr hq hheader).symm

/-! ### What is left in a request -/

/-- The bytes of a request that no stub writes: `msgh_size`, the voucher, and the pads of the descriptors. -/
def Routine.Unwritten (r : Routine) (q : Nat) : Prop :=
  (4 ≤ q ∧ q < 8) ∨ (16 ≤ q ∧ q < 20) ∨
    r.hasPorts = true ∧ (threadDescriptor + 4 ≤ q ∧ q < threadDescriptor + 10 ∨
      taskDescriptor + 4 ≤ q ∧ q < taskDescriptor + 10)

section
variable {mess mess' m₁ m₁' m₂ m₂' : Message} {exceptionPort replyPort exception size : Word}
  {code : List (BitVec 64)} {state : Option (Word × List Word)} {ports : Option (Word × Word)}

theorem packDescriptor_outside {name : Word} (hq : q < p ∨ p + 4 ≤ q ∧ q < p + 10 ∨ p + 12 ≤ q) :
    packDescriptor m p name q = m q := by
  simp (disch := omega) only [packDescriptor, store_outside]

theorem packPorts_outside (hq : q < 24 ∨ threadDescriptor + 4 ≤ q ∧ q < threadDescriptor + 10 ∨
    taskDescriptor + 4 ≤ q ∧ q < taskDescriptor + 10) : packPorts ports m q = m q := by
  cases ports with
  | none => rfl
  | some ids =>
    unfold threadDescriptor taskDescriptor at hq
    rw [packPorts, packDescriptor_outside (by unfold taskDescriptor; omega),
      packDescriptor_outside (by unfold threadDescriptor; omega), store_outside (by unfold msghDescriptorCount; omega)]

theorem packPorts_congr {ids : Word × Word} (hq : 24 ≤ q ∧ q < 52) (h : ¬Routine.machExceptionRaise.Unwritten q) :
    packPorts (some ids) m q = packPorts (some ids) m' q := by
  unfold Routine.Unwritten threadDescriptor taskDescriptor at h
  have hports : Routine.machExceptionRaise.hasPorts = true := rfl
  rw [and_iff_right hports] at h
  unfold packPorts packDescriptor msghDescriptorCount threadDescriptor taskDescriptor
  exact store_congr_at fun _ => store_congr_at fun _ => store_congr_at fun _ => store_congr_at fun _ =>
    store_congr_at fun _ => store_congr_at fun _ => store_congr_at fun _ => absurd h (by omega)

namespace Routine

theorem packCodes_congr (h : r.packCodes exception code m = some m₁) (h' : r.packCodes exception code m' = some m₁')
    (hq : r.ndr ≤ q ∧ q < r.ndr + 16 + 8 * code.length) : m₁ q = m₁' q := by
  rw [packCodes] at h h'
  by_cases hcodes : 2 < code.length
  · simp only [if_pos hcodes] at h; cases h
  simp only [if_neg hcodes, Option.some.injEq] at h h'
  rw [← h, ← h']
  unfold Routine.codeCnt Routine.code Routine.exception
  exact store_congr_at fun _ => storeWords_congr_at fun _ => store_congr_at fun _ => store_congr_at fun _ =>
    absurd hq (by omega)

theorem packState_congr {flavor : Word} {oldState : List Word}
    (h : r.packState n (some (flavor, oldState)) m = some m₁)
    (h' : r.packState n (some (flavor, oldState)) m' = some m₁')
    (hq : r.ndr + 16 + 8 * n ≤ q ∧ q < r.ndr + 24 + 8 * n + 4 * oldState.length) : m₁ q = m₁' q := by
  rw [packState] at h h'
  by_cases hwords : 224 < oldState.length
  · simp only [if_pos hwords] at h; cases h
  simp only [if_neg hwords, Option.some.injEq] at h h'
  rw [← h, ← h']
  unfold Routine.oldStateCnt Routine.oldState Routine.flavor
  exact store_congr_at fun _ => storeWords_congr_at fun _ => store_congr_at fun _ => absurd hq (by omega)

end Routine

/-- Where a byte of a request comes from: out of the buffer if no stub writes it, else out of the call. -/
theorem request_bytes {c : Call} {size' : Word} (h : c.request exceptionPort replyPort mess = some (m, size))
    (h' : c.request exceptionPort replyPort mess' = some (m', size')) (hq : q < size.toNat) :
    (c.routine.Unwritten q → m q = mess q) ∧ (¬c.routine.Unwritten q → m q = m' q) := by
  have hsize := (Call.request_spec h).2.size_eq
  have hndr := c.routine.ndr_ge
  rw [Call.request_eq, Routine.pack] at h h'
  obtain ⟨m₁, h₁, h⟩ := Option.bind_eq_some_iff.1 h
  obtain ⟨m₂, h₂, h⟩ := Option.bind_eq_some_iff.1 h
  obtain ⟨m₁', h₁', h'⟩ := Option.bind_eq_some_iff.1 h'
  obtain ⟨m₂', h₂', h'⟩ := Option.bind_eq_some_iff.1 h'
  obtain ⟨rfl, -⟩ := Prod.mk.inj (Option.some.inj h)
  obtain ⟨rfl, -⟩ := Prod.mk.inj (Option.some.inj h')
  -- up to `NDR` a message is what the ports and the header are put into
  have hfront : ∀ {mess m₁ m₂ : Message}, c.routine.packCodes c.exception c.code (packPorts c.ports mess) = some m₁ →
      c.routine.packState c.code.length c.state m₁ = some m₂ → q < c.routine.ndr → m₂ q = packPorts c.ports mess q := by
    intro mess m₁ m₂ h₁ h₂ hlt
    rw [Routine.packState_frame h₂ (by omega), (Routine.packCodes_spec h₁).2.2.2.2 q hlt]
  by_cases hhead : q < 24
  · constructor
    · intro hunwritten
      have hrange : 4 ≤ q ∧ q < 8 ∨ 16 ≤ q ∧ q < 20 := by
        rcases hunwritten with h | h | ⟨-, h⟩
        · exact .inl h
        · exact .inr h
        · unfold threadDescriptor taskDescriptor at h
          omega
      have hkept : c.routine.packHead exceptionPort replyPort m₂ q = m₂ q := by
        simp (disch := omega) only [Routine.packHead, store_outside]
      rw [hkept, hfront h₁ h₂ (by omega), packPorts_outside (.inl hhead)]
    · intro hwritten
      have hrange : ¬(4 ≤ q ∧ q < 8 ∨ 16 ≤ q ∧ q < 20) := fun h => hwritten (h.imp_right .inl)
      unfold Routine.packHead
      exact store_congr_at fun _ => store_congr_at fun _ => store_congr_at fun _ => store_congr_at fun _ =>
        absurd hrange (by omega)
  rw [Routine.packHead_spec (Nat.not_lt.1 hhead), Routine.packHead_spec (Nat.not_lt.1 hhead)]
  by_cases hbody : q < c.routine.ndr
  · rw [hfront h₁ h₂ hbody, hfront h₁' h₂' hbody]
    by_cases hports : c.routine.hasPorts = true
    · have h52 := Routine.ndr_of_hasPorts hports
      obtain ⟨ids, hids⟩ := Option.isSome_iff_exists.1 (c.hasPorts_eq ▸ hports)
      have hsame : c.routine.Unwritten q ↔ Routine.machExceptionRaise.Unwritten q := by
        have hraise : Routine.machExceptionRaise.hasPorts = true := rfl
        unfold Routine.Unwritten
        rw [hports, hraise]
      rw [hids, hsame]
      refine ⟨fun hunwritten => packPorts_outside ?_, packPorts_congr (by omega)⟩
      rcases hunwritten with h | h | ⟨-, h⟩
      · omega
      · omega
      · exact .inr h
    · have h24 : c.routine.ndr = 24 := if_neg hports
      omega
  have hrest : ¬c.routine.Unwritten q := by
    rintro (h | h | ⟨hports, h⟩)
    · omega
    · omega
    · have h52 := Routine.ndr_of_hasPorts hports
      unfold threadDescriptor taskDescriptor at h
      omega
  refine ⟨fun hunwritten => absurd hunwritten hrest, fun _ => ?_⟩
  by_cases hcode : q < c.routine.ndr + 16 + 8 * c.code.length
  · rw [Routine.packState_frame h₂ hcode, Routine.packState_frame h₂' hcode]
    exact Routine.packCodes_congr h₁ h₁' ⟨Nat.not_lt.1 hbody, hcode⟩
  · cases hs : c.state with
    | none =>
      rw [c.hasState_eq, hs, if_neg (by decide)] at hsize
      have hnil : ((none : Option (Word × List Word)).elim [] Prod.snd).length = 0 := rfl
      omega
    | some state =>
      rw [c.hasState_eq, hs, if_pos (by rfl)] at hsize
      rw [hs] at h₂ h₂'
      have hwords : ((some state).elim [] Prod.snd).length = state.2.length := rfl
      exact Routine.packState_congr h₂ h₂' (by omega)

/-- What a request says of the stack it was made on: the bytes that no stub writes are sent as they were found, and all
others are the same whatever was there. -/
theorem request_stale (c : Call) (exceptionPort replyPort : Word) (mess mess' : Message) :
    match c.request exceptionPort replyPort mess, c.request exceptionPort replyPort mess' with
    | some (m, size), some (m', size') => size = size' ∧ ∀ q < size.toNat,
      (c.routine.Unwritten q → m q = mess q ∧ m' q = mess' q) ∧ (¬c.routine.Unwritten q → m q = m' q)
    | none, none => ¬c.Fits
    | _, _ => False := by
  cases h : c.request exceptionPort replyPort mess with
  | none =>
    have hfits := Call.request_eq_none_iff.1 h
    rw [Call.request_eq_none_iff.2 hfits]
    exact hfits
  | some r =>
    have hfits := (Call.request_spec h).1
    cases h' : c.request exceptionPort replyPort mess' with
    | none => exact absurd hfits (Call.request_eq_none_iff.1 h')
    | some r' =>
      have hsize : r.2 = r'.2 := by
        rw [← BitVec.toNat_inj, (Call.request_spec h).2.size, (Call.request_spec h').2.size]
      refine ⟨hsize, fun q hq => ?_⟩
      have hbytes := request_bytes h h' hq
      exact ⟨fun hu => ⟨hbytes.1 hu, (request_bytes h' h (hsize ▸ hq)).1 hu⟩, hbytes.2⟩

end

/-! ### What is read of a reply -/

namespace SameMessage
variable (h : SameMessage m m')
include h

theorem retCode_eq (hsize : 36 ≤ (msghSize m).toNat) : retCode m = retCode m' :=
  load_eq_of_lt h (by decide) (hsize.trans (le_max_right ..))

theorem newStateCnt_eq (hsize : 44 ≤ (msghSize m).toNat) : newStateCnt m = newStateCnt m' :=
  load_eq_of_lt h (by decide) (hsize.trans (le_max_right ..))

theorem migReplyError_eq : migReplyError m = migReplyError m' := by
  rw [migReplyError, migReplyError, h.msghId_eq]

theorem checkReplyRaise_eq : migCheckReplyMachExceptionRaise m = migCheckReplyMachExceptionRaise m' := by
  rw [migCheckReplyMachExceptionRaise, migCheckReplyMachExceptionRaise, h.migReplyError_eq, h.msghId_eq,
    h.complexBit_eq, h.msghSize_eq]
  split_ifs with hid hform
  · rfl
  · rfl
  · rw [not_or, not_not] at hform
    refine h.retCode_eq ?_
    rw [h.msghSize_eq, hform.2]
    decide

theorem checkReplyState_eq (id : Word) : checkReplyState id m = checkReplyState id m' := by
  rw [Routine.checkReplyState_eq, Routine.checkReplyState_eq, h.migReplyError_eq, h.msghId_eq, h.complexBit_eq,
    ← h.msghSize_eq]
  by_cases hsize : 44 ≤ (msghSize m).toNat
  · rw [h.retCode_eq (by omega), h.newStateCnt_eq hsize]
  · -- too small for a state, so nothing is read but the code of an error reply
    have hstate : ∀ n : Nat, ¬(n ≤ 224 ∧ (msghSize m).toNat = 44 + 4 * n) := by omega
    rw [if_neg (hstate _), if_neg (hstate _)]
    by_cases h36 : (msghSize m).toNat = 36
    · rw [h.retCode_eq (by omega)]
    · have hsmall : ¬((msghSize m).toNat = 36 ∨ 44 ≤ (msghSize m).toNat ∧ (msghSize m).toNat ≤ 940) := by omega
      simp only [if_neg hsmall, ite_self]

theorem checkReply_eq (r : Routine) : r.checkReply m = r.checkReply m' := by
  cases r with
  | machExceptionRaise => exact h.checkReplyRaise_eq
  | machExceptionRaiseState => exact h.checkReplyState_eq 2506
  | machExceptionRaiseStateIdentity => exact h.checkReplyState_eq 2507

theorem stateOut_eq (hs : r.hasState = true) (hfits : r.ReplyFits m) : Routine.stateOut m = Routine.stateOut m' := by
  have hsize := hfits.size
  rw [if_pos hs] at hsize
  have hflavor : replyFlavor m = replyFlavor m' :=
    load_eq_of_lt (n := 40) (fun q hq => h q (by omega)) (by decide) (by decide)
  have hcnt := h.newStateCnt_eq (by omega)
  have hstate : newState m (newStateCnt m).toNat = newState m' (newStateCnt m).toNat :=
    loadWords_eq_of_lt h (by decide) (by omega)
  rw [Routine.stateOut, Routine.stateOut, hflavor, hstate, ← hcnt]

theorem finish_eq (r : Routine) : r.finish m = r.finish m' := by
  rw [Routine.finish_eq, Routine.finish_eq, ← h.checkReply_eq r]
  by_cases hcheck : r.checkReply m = machMsgSuccess
  swap
  · rw [if_neg hcheck, if_neg hcheck]
  rw [if_pos hcheck, if_pos hcheck]
  by_cases hs : r.hasState = true
  · rw [if_pos hs, if_pos hs, h.stateOut_eq hs (Routine.checkReply_eq_success_iff.1 hcheck)]
  · rw [if_neg hs, if_neg hs]

end SameMessage

/-- Whatever comes back for a reply, a stub succeeds only for a reply of its routine that is of the size it announces,
hands back no more words than there is room for and are in the message, reports an oversize array only if it was told
so, and looks at nothing behind the message. -/
theorem finish_sound (r : Routine) (m junk : Message) :
    ((r.finish m).ret = machMsgSuccess ↔ r.ReplyFits m) ∧
      (∀ out ∈ (r.finish m).out, r.ReplyFits m ∧ out.newStateCnt.toNat = out.newState.length ∧
        out.newState.length ≤ 224 ∧ 44 + 4 * out.newState.length = (msghSize m).toNat) ∧
      ((r.finish m).ret = migArrayTooLarge → retCode m = migArrayTooLarge) ∧
      r.finish (withTail m junk) = r.finish m := by
  have hfits : r.checkReply m = machMsgSuccess ↔ r.ReplyFits m := Routine.checkReply_eq_success_iff
  refine ⟨?_, ?_, ?_, ((sameMessage_withTail m junk).finish_eq r).symm⟩
  · rw [← hfits, Routine.finish_eq]
    by_cases hcheck : r.checkReply m = machMsgSuccess
    · rw [if_pos hcheck]
      exact iff_of_true rfl hcheck
    · rw [if_neg hcheck]
  · intro out hout
    rw [Routine.finish_eq] at hout
    by_cases hcheck : r.checkReply m = machMsgSuccess
    swap
    · rw [if_neg hcheck] at hout; cases hout
    rw [if_pos hcheck] at hout
    by_cases hs : r.hasState = true
    swap
    · rw [if_neg hs] at hout; cases hout
    rw [if_pos hs] at hout
    obtain rfl := Option.some.inj hout
    have hreply := hfits.1 hcheck
    have hsize := hreply.size
    rw [if_pos hs] at hsize
    have hlength : (Routine.stateOut m).newState.length = (newStateCnt m).toNat := length_loadWords
    exact ⟨hreply, hlength.symm, hlength ▸ hreply.counted hs, by rw [hlength, hsize]⟩
  · intro hret
    have hne : migArrayTooLarge ≠ machMsgSuccess ∧ migArrayTooLarge ≠ migTypeError ∧
        migArrayTooLarge ≠ migServerDied ∧ migArrayTooLarge ≠ migReplyMismatch := by decide
    have hcheck : r.checkReply m = migArrayTooLarge := by
      rw [Routine.finish_eq] at hret
      by_cases hcheck : r.checkReply m = machMsgSuccess
      · rw [if_pos hcheck] at hret
        exact absurd hret.symm hne.1
      · rwa [if_neg hcheck] at hret
    rcases r.checkReply_cases m with h | h | h | h
    · rw [hcheck, migReplyError] at h
      split at h
      · exact absurd h hne.2.2.1
      · exact absurd h hne.2.2.2
    · exact absurd (hcheck.symm.trans h) hne.2.1
    · exact absurd (hcheck.symm.trans h) hne.1
    · exact h.symm.trans hcheck

end MasterLib
