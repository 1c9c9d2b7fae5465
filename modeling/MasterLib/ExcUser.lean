import MasterLib.ExcServer

/-!
# `mach_excUser.c`

The client side of the three routines: a stub packs its arguments into a request, calls `mach_msg`, which sends the
request and receives the reply into the same buffer, and checks the reply. `Mess`, the buffer, is not initialised.
-/

namespace MasterLib
open LittleEndian

/-! ### The requests -/

/-- A port descriptor at `p`. -/
def packDescriptor (m : Message) (p : Nat) (name : Word) : Message :=
  store (store (store m p name) (p + 10) (19 : Byte)) (p + 11) machMsgPortDescriptor

def packPorts (ports : Option (Word × Word)) (m : Message) : Message :=
  match ports with
  | none => m
  | some (thread, task) =>
    packDescriptor (packDescriptor (store m msghDescriptorCount (2 : Word)) threadDescriptor thread) taskDescriptor task

namespace Routine

/-- `NDR`, the exception and the codes; nothing for `MIG_ARRAY_TOO_LARGE`. -/
def packCodes (r : Routine) (exception : Word) (code : List (BitVec 64)) (m : Message) : Option Message :=
  let m := store m r.ndr ndrRecord
  let m := store m r.exception exception
  if 2 < code.length then none
  else
    let m := storeWords m r.code code
    some (store m r.codeCnt (.ofNat 32 code.length : Word))

/-- The state behind `codeCnt` codes, `InP` being moved by the codes that are missing. -/
def packState (r : Routine) (codeCnt : Nat) (state : Option (Word × List Word)) (m : Message) : Option Message :=
  match state with
  | none => some m
  | some (flavor, oldState) =>
    let m := store m (r.flavor + 8 * codeCnt - 16) flavor
    if 224 < oldState.length then none
    else
      let m := storeWords m (r.oldState + 8 * codeCnt - 16) oldState
      some (store m (r.oldStateCnt + 8 * codeCnt - 16) (.ofNat 32 oldState.length : Word))

def packHead (r : Routine) (exceptionPort replyPort : Word) (m : Message) : Message :=
  let bits := machMsghBits machMsgTypeCopySend machMsgTypeMakeSendOnce
  let m := store m 0 (if r.hasPorts then machMsghBitsComplex ||| bits else bits)
  let m := store m 8 exceptionPort
  let m := store m 12 replyPort
  store m 20 r.requestId

/-- The request of the routine and the size it is sent with. -/
def pack (r : Routine) (exceptionPort replyPort : Word) (ports : Option (Word × Word)) (exception : Word)
    (code : List (BitVec 64)) (state : Option (Word × List Word)) (mess : Message) : Option (Message × Word) := do
  let inP ← r.packCodes exception code (packPorts ports mess)
  let inP ← r.packState code.length state inP
  let size := .ofNat 32 r.minRequest + 8 * .ofNat 32 code.length + 4 * .ofNat 32 (state.elim [] Prod.snd).length
  some (r.packHead exceptionPort replyPort inP, size)

end Routine

section
variable (exceptionPort replyPort thread task exception : Word) (code : List (BitVec 64)) (flavor : Word)
  (oldState : List Word) (mess : Message)

def requestMachExceptionRaise : Option (Message × Word) :=
  Routine.machExceptionRaise.pack exceptionPort replyPort (some (thread, task)) exception code none mess

def requestMachExceptionRaiseState : Option (Message × Word) :=
  Routine.machExceptionRaiseState.pack exceptionPort replyPort none exception code (some (flavor, oldState)) mess

def requestMachExceptionRaiseStateIdentity : Option (Message × Word) :=
  Routine.machExceptionRaiseStateIdentity.pack exceptionPort replyPort (some (thread, task)) exception code
    (some (flavor, oldState)) mess

end

def Call.request (exceptionPort replyPort : Word) (mess : Message) : Call → Option (Message × Word)
  | machExceptionRaise thread task exception code =>
    requestMachExceptionRaise exceptionPort replyPort thread task exception code mess
  | machExceptionRaiseState exception code flavor oldState =>
    requestMachExceptionRaiseState exceptionPort replyPort exception code flavor oldState mess
  | machExceptionRaiseStateIdentity thread task exception code flavor oldState =>
    requestMachExceptionRaiseStateIdentity exceptionPort replyPort thread task exception code flavor oldState mess

/-! ### The replies -/

def machNotifySendOnce : Word := 71

/-- A reply with another id than expected. -/
def migReplyError (m : Message) : Word := if msghId m = machNotifySendOnce then migServerDied else migReplyMismatch

def migCheckReplyMachExceptionRaise (m : Message) : Word :=
  if msghId m ≠ 2505 then migReplyError m
  else if complexBit m ∨ msghSize m ≠ .ofNat 32 sizeofReplyError then migTypeError
  else retCode m

/-- `__MIG_check__Reply__` of a routine with a state; `id` is that of its replies. -/
def checkReplyState (id : Word) (m : Message) : Word :=
  let size := msghSize m
  if msghId m ≠ id then migReplyError m
  else if complexBit m ∨ (.ofNat 32 sizeofReply < size ∨ size < 44) ∧
      (size ≠ .ofNat 32 sizeofReplyError ∨ retCode m = machMsgSuccess) then migTypeError
  else if retCode m ≠ machMsgSuccess then retCode m
  else if 224 < newStateCnt m then migTypeError
  else if (size - 44) / 4 < newStateCnt m ∨ size ≠ 44 + newStateCnt m * 4 then migTypeError
  else machMsgSuccess

def migCheckReplyMachExceptionRaiseState : Message → Word := checkReplyState 2506
def migCheckReplyMachExceptionRaiseStateIdentity : Message → Word := checkReplyState 2507

def finishMachExceptionRaise (out0P : Message) : Outcome :=
  let checkResult := migCheckReplyMachExceptionRaise out0P
  if checkResult ≠ machMsgSuccess then ⟨checkResult, none⟩ else ⟨machMsgSuccess, none⟩

/-- The end of a stub with a state. -/
def finishState (check : Message → Word) (out0P : Message) : Outcome :=
  let checkResult := check out0P
  if checkResult ≠ machMsgSuccess then ⟨checkResult, none⟩
  else if 224 < newStateCnt out0P then
    ⟨migArrayTooLarge, some ⟨replyFlavor out0P, newState out0P 224, newStateCnt out0P⟩⟩
  else ⟨machMsgSuccess, some ⟨replyFlavor out0P, newState out0P (newStateCnt out0P).toNat, newStateCnt out0P⟩⟩

def finishMachExceptionRaiseState : Message → Outcome := finishState migCheckReplyMachExceptionRaiseState
def finishMachExceptionRaiseStateIdentity : Message → Outcome :=
  finishState migCheckReplyMachExceptionRaiseStateIdentity

def Routine.finish : Routine → Message → Outcome
  | machExceptionRaise => finishMachExceptionRaise
  | machExceptionRaiseState => finishMachExceptionRaiseState
  | machExceptionRaiseStateIdentity => finishMachExceptionRaiseStateIdentity

/-! ### The stubs -/

/-- `machMsg` is what the call of `mach_msg` returns, and leaves in the buffer, for a request and its size. -/
def Call.invoke (machMsg : Message → Word → Word × Message) (exceptionPort replyPort : Word) (mess : Message)
    (c : Call) : Outcome :=
  match c.request exceptionPort replyPort mess with
  | none => ⟨migArrayTooLarge, none⟩
  | some (inP, size) =>
    let (msgResult, mess) := machMsg inP size
    if msgResult ≠ machMsgSuccess then ⟨msgResult, none⟩ else c.routine.finish mess

def machSendInvalidData : Word := 0x10000002
def machSendInvalidDest : Word := 0x10000003
def machSendInvalidHeader : Word := 0x10000010

/-- `__MachMsgErrorWithoutTimeout`: after these the reply port is kept, after all others it is destroyed. -/
def keepsReplyPort (msgResult : Word) : Bool :=
  msgResult = machSendInvalidData ∨ msgResult = machSendInvalidDest ∨ msgResult = machSendInvalidHeader

/-! ### What is accepted of a reply -/

namespace Routine
variable {r : Routine} {m : Message}

/-- The id of the replies. -/
def replyId (r : Routine) : Word := r.requestId + 100

/-- `m` is a reply of the routine that reports success, and has no more and no less than the state it announces. -/
structure ReplyFits (r : Routine) (m : Message) : Prop where
  id : msghId m = r.replyId
  simple : complexBit m = false
  ret : retCode m = machMsgSuccess
  counted : r.hasState = true → (newStateCnt m).toNat ≤ 224
  size : (msghSize m).toNat = if r.hasState then 44 + 4 * (newStateCnt m).toNat else 36

def stateOut (m : Message) : StateOut := ⟨replyFlavor m, newState m (newStateCnt m).toNat, newStateCnt m⟩

/-- `__MIG_check__Reply__` of the routine. -/
def checkReply : Routine → Message → Word
  | machExceptionRaise => migCheckReplyMachExceptionRaise
  | machExceptionRaiseState => migCheckReplyMachExceptionRaiseState
  | machExceptionRaiseStateIdentity => migCheckReplyMachExceptionRaiseStateIdentity

theorem toNat_eq_36_iff : (msghSize m).toNat = 36 ↔ msghSize m = .ofNat 32 sizeofReplyError := by
  rw [← BitVec.toNat_inj]
  rfl

/-- The check of a reply with a state, sizes as numbers. -/
theorem checkReplyState_eq (id : Word) (m : Message) : checkReplyState id m =
    if msghId m ≠ id then migReplyError m
    else if complexBit m = true then migTypeError
    else if retCode m = machMsgSuccess then
      if (newStateCnt m).toNat ≤ 224 ∧ (msghSize m).toNat = 44 + 4 * (newStateCnt m).toNat then machMsgSuccess
      else migTypeError
    else if (msghSize m).toNat = 36 ∨ 44 ≤ (msghSize m).toNat ∧ (msghSize m).toNat ≤ 940 then retCode m
    else migTypeError := by
  have h4 : (4 : Word).toNat = 4 := rfl
  have h44 : (44 : Word).toNat = 44 := rfl
  have hrange : (.ofNat 32 sizeofReply < msghSize m ∨ msghSize m < 44) ↔
      ¬(44 ≤ (msghSize m).toNat ∧ (msghSize m).toNat ≤ 940) := by
    have hlt : (BitVec.ofNat 32 sizeofReply).toNat = 940 := rfl
    rw [BitVec.lt_def, BitVec.lt_def, hlt, h44]
    omega
  simp only [checkReplyState, hrange, ← toNat_eq_36_iff, ne_eq]
  by_cases hid : msghId m = id
  swap
  · rw [if_pos hid, if_pos hid]
  rw [if_neg (not_not_intro hid), if_neg (not_not_intro hid)]
  by_cases hc : complexBit m = true
  · rw [if_pos (.inl hc), if_pos hc]
  rw [if_neg hc]
  by_cases hret : retCode m = machMsgSuccess
  · rw [if_pos hret]
    by_cases hin : 44 ≤ (msghSize m).toNat ∧ (msghSize m).toNat ≤ 940
    swap
    · rw [if_pos (.inr ⟨hin, .inr hret⟩), if_neg (by omega)]
    rw [if_neg (by simp [hc, hin]), if_neg (not_not_intro hret)]
    by_cases hcnt : 224 < newStateCnt m
    · have hcnt' : 224 < (newStateCnt m).toNat := hcnt
      rw [if_pos hcnt, if_neg (by omega)]
    have hle : (newStateCnt m).toNat ≤ 224 := Nat.not_lt.1 hcnt
    have hexact : (msghSize m - 44) / 4 < newStateCnt m ∨ ¬msghSize m = 44 + newStateCnt m * 4 ↔
        (msghSize m).toNat ≠ 44 + 4 * (newStateCnt m).toNat := by
      rw [BitVec.mul_comm]
      exact div_lt_or_ne_iff (by rw [BitVec.lt_def, h44]; omega) (by decide) (by rw [h44, h4]; omega)
    rw [if_neg hcnt]
    by_cases hsize : (msghSize m).toNat = 44 + 4 * (newStateCnt m).toNat
    · rw [if_neg fun h => hexact.1 h hsize, if_pos ⟨hle, hsize⟩]
    · rw [if_pos (hexact.2 hsize), if_neg fun h => hsize h.2]
  · rw [if_neg hret]
    by_cases hsize : (msghSize m).toNat = 36 ∨ 44 ≤ (msghSize m).toNat ∧ (msghSize m).toNat ≤ 940
    · rw [if_neg ?_, if_pos hret, if_pos hsize]
      rintro (h | ⟨hout, h | h⟩)
      · exact hc h
      · exact hsize.elim h hout
      · exact hret h
    · rw [if_pos (.inr ⟨fun h => hsize (.inr h), .inl fun h => hsize (.inl h)⟩), if_neg hsize]

theorem machMsgSuccess_ne : migTypeError ≠ machMsgSuccess ∧ ∀ m, migReplyError m ≠ machMsgSuccess := by
  refine ⟨by decide, fun m => ?_⟩
  rw [migReplyError]
  split <;> decide

theorem checkReplyState_eq_success_iff (hs : r.hasState = true) :
    checkReplyState r.replyId m = machMsgSuccess ↔ r.ReplyFits m := by
  have hne := machMsgSuccess_ne
  rw [checkReplyState_eq]
  constructor
  · intro h
    split_ifs at h with hid hc hret hfit hrange
    · exact absurd h (hne.2 m)
    · exact absurd h hne.1
    · exact ⟨not_not.1 hid, by simpa using hc, hret, fun _ => hfit.1, by rw [if_pos hs]; exact hfit.2⟩
    · exact absurd h hne.1
    · exact absurd h hret
    · exact absurd h hne.1
  · rintro ⟨hid, hc, hret, hcnt, hsize⟩
    rw [if_pos hs] at hsize
    rw [if_neg (not_not_intro hid), if_neg (by simp [hc]), if_pos hret, if_pos ⟨hcnt hs, hsize⟩]

theorem checkReplyRaise_eq_success_iff :
    migCheckReplyMachExceptionRaise m = machMsgSuccess ↔ machExceptionRaise.ReplyFits m := by
  have hne := machMsgSuccess_ne
  have hid5 : machExceptionRaise.replyId = 2505 := rfl
  rw [migCheckReplyMachExceptionRaise]
  constructor
  · intro h
    split_ifs at h with hid hform
    · exact absurd h (hne.2 m)
    · exact absurd h hne.1
    · rw [not_or, not_not] at hform
      exact ⟨not_not.1 hid, by simpa using hform.1, h, nofun, toNat_eq_36_iff.2 hform.2⟩
  · rintro ⟨hid, hc, hret, -, hsize⟩
    rw [hid5] at hid
    rw [if_neg (not_not_intro hid), if_neg, hret]
    rw [hc, toNat_eq_36_iff.1 hsize]
    simp

theorem checkReply_eq_success_iff : r.checkReply m = machMsgSuccess ↔ r.ReplyFits m := by
  cases r with
  | machExceptionRaise => exact checkReplyRaise_eq_success_iff
  | machExceptionRaiseState => exact checkReplyState_eq_success_iff (r := .machExceptionRaiseState) rfl
  | machExceptionRaiseStateIdentity => exact checkReplyState_eq_success_iff (r := .machExceptionRaiseStateIdentity) rfl

theorem checkReply_cases (r : Routine) (m : Message) : r.checkReply m = migReplyError m ∨
    r.checkReply m = migTypeError ∨ r.checkReply m = machMsgSuccess ∨ r.checkReply m = retCode m := by
  have hstate : ∀ id, checkReplyState id m = migReplyError m ∨ checkReplyState id m = migTypeError ∨
      checkReplyState id m = machMsgSuccess ∨ checkReplyState id m = retCode m := by
    intro id
    rw [checkReplyState_eq]
    split_ifs <;> simp
  cases r with
  | machExceptionRaise =>
    rw [checkReply, migCheckReplyMachExceptionRaise]
    split_ifs <;> simp
  | machExceptionRaiseState => exact hstate 2506
  | machExceptionRaiseStateIdentity => exact hstate 2507

/-- An error reply is believed. -/
theorem checkReply_of_error (hid : msghId m = r.replyId) (hsimple : complexBit m = false)
    (hret : retCode m ≠ machMsgSuccess) (hsize : (msghSize m).toNat = 36) : r.checkReply m = retCode m := by
  have hstate : checkReplyState r.replyId m = retCode m := by
    rw [checkReplyState_eq, if_neg (not_not_intro hid), hsimple, if_neg (by decide), if_neg hret, if_pos (.inl hsize)]
  cases r with
  | machExceptionRaise =>
    have hid5 : msghId m = 2505 := hid
    rw [checkReply, migCheckReplyMachExceptionRaise, if_neg (not_not_intro hid5), hsimple, toNat_eq_36_iff.1 hsize]
    rfl
  | machExceptionRaiseState => exact hstate
  | machExceptionRaiseStateIdentity => exact hstate

theorem finishState_eq (hs : r.hasState = true) (m : Message) : finishState (checkReplyState r.replyId) m =
    if checkReplyState r.replyId m = machMsgSuccess then ⟨machMsgSuccess, some (stateOut m)⟩
    else ⟨checkReplyState r.replyId m, none⟩ := by
  simp only [finishState]
  by_cases hcheck : checkReplyState r.replyId m = machMsgSuccess
  · have hcnt : ¬224 < newStateCnt m :=
      Nat.not_lt.2 (((checkReplyState_eq_success_iff hs).1 hcheck).counted hs)
    rw [if_neg (not_not_intro hcheck), if_neg hcnt, if_pos hcheck]
    rfl
  · rw [if_pos hcheck, if_neg hcheck]

/-- What a stub returns for a reply. The case of a larger state than fits is never reached. -/
theorem finish_eq (r : Routine) (m : Message) : r.finish m =
    if r.checkReply m = machMsgSuccess then ⟨machMsgSuccess, if r.hasState then some (stateOut m) else none⟩
    else ⟨r.checkReply m, none⟩ := by
  cases r with
  | machExceptionRaise =>
    show finishMachExceptionRaise m = _
    simp only [finishMachExceptionRaise, checkReply, ne_eq, ite_not]
    rfl
  | machExceptionRaiseState => exact finishState_eq (r := .machExceptionRaiseState) rfl m
  | machExceptionRaiseStateIdentity => exact finishState_eq (r := .machExceptionRaiseStateIdentity) rfl m

end Routine

/-! ### What a request holds -/

theorem Call.request_eq (exceptionPort replyPort : Word) (mess : Message) (c : Call) :
    c.request exceptionPort replyPort mess =
      c.routine.pack exceptionPort replyPort c.ports c.exception c.code c.state mess := by
  cases c <;> rfl

namespace Routine
variable {r : Routine} {m m' mess : Message} {exception exceptionPort replyPort thread task : Word}
  {code : List (BitVec 64)} {state : Option (Word × List Word)} {n p q w : Nat}

theorem packPorts_spec (thread task : Word) (m : Message) :
    load (packPorts (some (thread, task)) m) msghDescriptorCount 32 = (2 : Word) ∧
    load (packPorts (some (thread, task)) m) threadDescriptor 32 = thread ∧
    load (packPorts (some (thread, task)) m) taskDescriptor 32 = task ∧
    ∀ p, p = threadDescriptor ∨ p = taskDescriptor →
      disposition (packPorts (some (thread, task)) m) p = 19 ∧
      descriptorType (packPorts (some (thread, task)) m) p = machMsgPortDescriptor := by
  simp (disch := omega) only [packPorts, packDescriptor, msghDescriptorCount, threadDescriptor, taskDescriptor,
    load_store_of_disjoint, load_store, true_and]
  rintro p (rfl | rfl) <;>
    simp (disch := omega) only [disposition, descriptorType, load_store_of_disjoint, load_store, and_self]

theorem packCodes_spec (h : r.packCodes exception code m = some m') : code.length ≤ 2 ∧
    load m' r.exception 32 = exception ∧ load m' r.codeCnt 32 = (.ofNat 32 code.length : Word) ∧
    loadWords m' r.code 64 code.length = code ∧ ∀ q < r.ndr, m' q = m q := by
  rw [packCodes] at h
  simp only [Routine.exception, Routine.code, Routine.codeCnt] at *
  split at h
  · cases h
  obtain rfl := Option.some.inj h
  refine ⟨by omega, ?_, ?_, ?_, fun q hq => ?_⟩
  · simp (disch := omega) only [load_store_of_disjoint, load_storeWords_of_disjoint, load_store]
  · simp (disch := omega) only [load_store]
  · simp (disch := omega) only [loadWords_store_of_disjoint, loadWords_storeWords]
  · simp (disch := omega) only [store_outside, storeWords_outside]

theorem packState_spec {flavor : Word} {oldState : List Word}
    (h : r.packState n (some (flavor, oldState)) m = some m') : oldState.length ≤ 224 ∧
    load m' (r.flavor + 8 * n - 16) 32 = flavor ∧
    load m' (r.oldStateCnt + 8 * n - 16) 32 = (.ofNat 32 oldState.length : Word) ∧
    loadWords m' (r.oldState + 8 * n - 16) 32 oldState.length = oldState ∧
    ∀ q < r.ndr + 16 + 8 * n, m' q = m q := by
  rw [packState] at h
  simp only [Routine.flavor, Routine.oldStateCnt, Routine.oldState] at *
  split at h
  · cases h
  obtain rfl := Option.some.inj h
  refine ⟨by omega, ?_, ?_, ?_, fun q hq => ?_⟩
  · simp (disch := omega) only [load_store_of_disjoint, load_storeWords_of_disjoint, load_store]
  · simp (disch := omega) only [load_store]
  · simp (disch := omega) only [loadWords_store_of_disjoint, loadWords_storeWords]
  · simp (disch := omega) only [store_outside, storeWords_outside]

theorem packState_frame (h : r.packState n state m = some m') (hq : q < r.ndr + 16 + 8 * n) : m' q = m q := by
  cases state with
  | none => rw [Option.some.inj h]
  | some state => exact (packState_spec h).2.2.2.2 q hq

theorem packHead_spec (hq : 24 ≤ q) : r.packHead exceptionPort replyPort m q = m q := by
  simp (disch := omega) only [packHead, store_outside]

end Routine

/-- The fields of the request `m` for `c`, sent with `size`. -/
structure Packed (c : Call) (replyPort : Word) (m : Message) (size : Word) : Prop where
  id : msghId m = c.routine.requestId
  replyPort : msghLocalPort m = replyPort
  complex : complexBit m = c.routine.hasPorts
  size : size.toNat = c.routine.minRequest + 8 * c.code.length + 4 * (c.state.elim [] Prod.snd).length
  exception : load m c.routine.exception 32 = c.exception
  codeCnt : load m c.routine.codeCnt 32 = (.ofNat 32 c.code.length : Word)
  code : loadWords m c.routine.code 64 c.code.length = c.code
  ports : ∀ ids ∈ c.ports, load m msghDescriptorCount 32 = (2 : Word) ∧
    load m threadDescriptor 32 = ids.1 ∧ load m taskDescriptor 32 = ids.2 ∧
    ∀ p, p = threadDescriptor ∨ p = taskDescriptor → disposition m p = 19 ∧ descriptorType m p = machMsgPortDescriptor
  state : ∀ state ∈ c.state, load m (c.routine.flavor + 8 * c.code.length - 16) 32 = state.1 ∧
    load m (c.routine.oldStateCnt + 8 * c.code.length - 16) 32 = (.ofNat 32 state.2.length : Word) ∧
    loadWords m (c.routine.oldState + 8 * c.code.length - 16) 32 state.2.length = state.2

namespace Call
variable {c : Call} {exceptionPort replyPort size : Word} {mess m : Message}

theorem hasPorts_eq (c : Call) : c.routine.hasPorts = c.ports.isSome := by cases c <;> rfl

theorem hasState_eq (c : Call) : c.routine.hasState = c.state.isSome := by cases c <;> rfl

theorem toNat_requestSize {r : Routine} {n k : Nat} (hn : n ≤ 2) (hk : k ≤ 224) :
    (.ofNat 32 r.minRequest + 8 * .ofNat 32 n + 4 * .ofNat 32 k : Word).toNat = r.minRequest + 8 * n + 4 * k := by
  have hlt := r.minRequest_lt
  have h8 : (8 : Word).toNat = 8 := rfl
  have h4 : (4 : Word).toNat = 4 := rfl
  have hn' : (BitVec.ofNat 32 n).toNat = n := Nat.mod_eq_of_lt (by omega)
  have hk' : (BitVec.ofNat 32 k).toNat = k := Nat.mod_eq_of_lt (by omega)
  have hcodes : (.ofNat 32 r.minRequest + 8 * .ofNat 32 n : Word).toNat = r.minRequest + 8 * n := by
    rw [toNat_add_mul (by rw [Routine.toNat_minRequest, h8, hn']; omega), Routine.toNat_minRequest, h8, hn']
  rw [toNat_add_mul (by rw [hcodes, h4, hk']; omega), hcodes, h4, hk']

theorem request_eq_none_iff : c.request exceptionPort replyPort mess = none ↔ ¬c.Fits := by
  rw [request_eq, Routine.pack, Fits]
  constructor
  · intro h hfits
    have hstate : ∀ n m, c.routine.packState n c.state m ≠ none := by
      intro n m
      cases hs : c.state with
      | none => exact Option.some_ne_none _
      | some state =>
        rw [Routine.packState, if_neg (Nat.not_lt.2 (hfits.2 state hs))]
        exact Option.some_ne_none _
    rw [Routine.packCodes] at h
    simp only [if_neg (Nat.not_lt.2 hfits.1), Option.bind_eq_bind, Option.bind_some, Option.bind_eq_none_iff] at h
    obtain ⟨m, hm⟩ := Option.ne_none_iff_exists'.1 (hstate c.code.length _)
    exact Option.some_ne_none _ (h m hm)
  · intro h
    rw [Option.bind_eq_bind, Option.bind_eq_none_iff]
    intro m₁ h₁
    rw [Option.bind_eq_none_iff]
    intro m₂ h₂
    refine absurd ⟨(Routine.packCodes_spec h₁).1, fun state hs => ?_⟩ h
    rw [show c.state = some state from hs] at h₂
    exact (Routine.packState_spec h₂).1

theorem request_spec (h : c.request exceptionPort replyPort mess = some (m, size)) :
    c.Fits ∧ Packed c replyPort m size := by
  rw [request_eq, Routine.pack] at h
  obtain ⟨m₁, h₁, h⟩ := Option.bind_eq_some_iff.1 h
  obtain ⟨m₂, h₂, h⟩ := Option.bind_eq_some_iff.1 h
  obtain ⟨rfl, rfl⟩ := Prod.mk.inj (Option.some.inj h)
  rcases Routine.packCodes_spec h₁ with ⟨hcodes, hexception, hcodeCnt, hcode, hframe⟩
  have hndr := c.routine.ndr_ge
  have hhead : ∀ q, 24 ≤ q → c.routine.packHead exceptionPort replyPort m₂ q = m₂ q := fun q => Routine.packHead_spec
  have hfixed : ∀ q, 24 ≤ q → q < c.routine.ndr + 16 + 8 * c.code.length →
      c.routine.packHead exceptionPort replyPort m₂ q = m₁ q := fun q hq hlt =>
    (hhead q hq).trans (Routine.packState_frame h₂ hlt)
  have hbody : ∀ q, 24 ≤ q → q < c.routine.ndr →
      c.routine.packHead exceptionPort replyPort m₂ q = packPorts c.ports mess q := fun q hq hlt =>
    (hfixed q hq (by omega)).trans (hframe q hlt)
  have hstate : ∀ state ∈ c.state, state.2.length ≤ 224 ∧
      load (c.routine.packHead exceptionPort replyPort m₂) (c.routine.flavor + 8 * c.code.length - 16) 32 = state.1 ∧
      load (c.routine.packHead exceptionPort replyPort m₂) (c.routine.oldStateCnt + 8 * c.code.length - 16) 32 =
        (.ofNat 32 state.2.length : Word) ∧
      loadWords (c.routine.packHead exceptionPort replyPort m₂) (c.routine.oldState + 8 * c.code.length - 16) 32
        state.2.length = state.2 := by
    intro state hs
    rw [show c.state = some state from hs] at h₂
    rcases Routine.packState_spec h₂ with ⟨hwords, hflavor, hcnt, hold, -⟩
    refine ⟨hwords, hflavor ▸ ?_, hcnt ▸ ?_, ?_⟩
    · exact load_congr fun q hq _ => hhead q (by rw [Routine.flavor] at hq; omega)
    · exact load_congr fun q hq _ => hhead q (by rw [Routine.oldStateCnt] at hq; omega)
    · exact (loadWords_congr (by decide) fun q hq _ => hhead q (by rw [Routine.oldState] at hq; omega)).trans hold
  refine ⟨⟨hcodes, fun state hs => (hstate state hs).1⟩, ?_, ?_, ?_, ?_, ?_, ?_, ?_, ?_,
    fun state hs => (hstate state hs).2⟩
  · simp (disch := omega) only [msghId, Routine.packHead, load_store]
  · simp (disch := omega) only [msghLocalPort, Routine.packHead, load_store_of_disjoint, load_store]
  · have hbits : msghBits (c.routine.packHead exceptionPort replyPort m₂) = if c.routine.hasPorts then
        machMsghBitsComplex ||| machMsghBits machMsgTypeCopySend machMsgTypeMakeSendOnce
        else machMsghBits machMsgTypeCopySend machMsgTypeMakeSendOnce := by
      simp (disch := omega) only [msghBits, Routine.packHead, load_store_of_disjoint, load_store]
    rw [complexBit, hbits]
    cases c.routine.hasPorts <;> rfl
  · have hwords : (c.state.elim [] Prod.snd).length ≤ 224 := by
      cases hs : c.state with
      | none => exact Nat.zero_le _
      | some state => exact (hstate state hs).1
    exact toNat_requestSize hcodes hwords
  · rw [← hexception]
    exact load_congr fun q hq hlt => by
      rw [Routine.exception] at hq hlt
      exact hfixed q (by omega) (by omega)
  · rw [← hcodeCnt]
    exact load_congr fun q hq hlt => by
      rw [Routine.codeCnt] at hq hlt
      exact hfixed q (by omega) (by omega)
  · refine (loadWords_congr (by decide) fun q hq hlt => ?_).trans hcode
    rw [Routine.code] at hq hlt
    exact hfixed q (by omega) (by omega)
  · rintro ⟨thread, task⟩ hids
    have h52 : c.routine.ndr = 52 := Routine.ndr_of_hasPorts (by rw [hasPorts_eq, hids]; rfl)
    rw [show c.ports = some (thread, task) from hids, h52] at hbody
    have hload : ∀ p w, 24 ≤ p → 8 ∣ w → p + w / 8 ≤ 52 →
        load (c.routine.packHead exceptionPort replyPort m₂) p w = load (packPorts (some (thread, task)) mess) p w := by
      rintro p _ hp ⟨k, rfl⟩ hle
      exact load_congr fun q hq hlt => hbody q (by omega) (by omega)
    rcases Routine.packPorts_spec thread task mess with ⟨hcount, hthread, htask, htype⟩
    refine ⟨(hload _ _ (by decide) (by decide) (by decide)).trans hcount,
      (hload _ _ (by decide) (by decide) (by decide)).trans hthread,
      (hload _ _ (by decide) (by decide) (by decide)).trans htask, fun p hp => ?_⟩
    have hrange : 24 ≤ p + 10 ∧ p + 12 ≤ 52 := by rcases hp with rfl | rfl <;> decide
    exact ⟨(hload _ _ (by omega) (by decide) (by omega)).trans (htype p hp).1,
      (hload _ _ (by omega) (by decide) (by omega)).trans (htype p hp).2⟩

end Call

end MasterLib
