import MasterLib.MachMessage

/-!
# `mach_excServer.c`

The server side of the three routines: the check of a request, the stub that hands the fields of the request to a
catch function and writes the reply, and the demultiplexer. A request passes the check exactly if it is
`WellFormed`.
-/

namespace MasterLib
open LittleEndian

/-! ### The checks -/

namespace Routine

/-- The type check of one of the two descriptors. -/
def isSendRight (m : Message) (p : Nat) : Bool := descriptorType m p = machMsgPortDescriptor ∧ disposition m p = 17

/-- The end of the check of a request with a state. The state has moved up by the codes that are missing. -/
def checkState (r : Routine) (m : Message) (size codeCnt : Word) : Word :=
  if (size - .ofNat 32 r.minRequest) / 8 < codeCnt ∨ size < .ofNat 32 r.minRequest + 8 * codeCnt then migBadArguments
  else
    let msghSizeDelta := 8 * codeCnt
    let size := size - msghSizeDelta
    let oldStateCnt : Word := load m (r.oldStateCnt + msghSizeDelta.toNat - 16) 32
    if 224 < oldStateCnt then migBadArguments
    else if (size - .ofNat 32 r.minRequest) / 4 < oldStateCnt ∨ size ≠ .ofNat 32 r.minRequest + 4 * oldStateCnt then
      migBadArguments
    else machMsgSuccess

def checkArrays (r : Routine) (m : Message) (size : Word) : Word :=
  let codeCnt : Word := load m r.codeCnt 32
  if 2 < codeCnt then migBadArguments
  else if r.hasState then r.checkState m size codeCnt
  else if (size - .ofNat 32 r.minRequest) / 8 < codeCnt ∨ size ≠ .ofNat 32 r.minRequest + 8 * codeCnt then
    migBadArguments
  else machMsgSuccess

/-- `__MIG_check__Request__` of the routine. -/
def check (r : Routine) (m : Message) : Word :=
  let size := msghSize m
  if complexBit m ≠ r.hasPorts ∨ r.hasPorts ∧ load m msghDescriptorCount 32 ≠ (2 : Word) ∨
      size < .ofNat 32 r.minRequest ∨ .ofNat 32 r.sizeofRequest < size then migBadArguments
  else if r.hasPorts ∧ !isSendRight m threadDescriptor then migTypeError
  else if r.hasPorts ∧ !isSendRight m taskDescriptor then migTypeError
  else r.checkArrays m size

end Routine

def migCheckRequestMachExceptionRaise : Message → Word := Routine.machExceptionRaise.check
def migCheckRequestMachExceptionRaiseState : Message → Word := Routine.machExceptionRaiseState.check
def migCheckRequestMachExceptionRaiseStateIdentity : Message → Word := Routine.machExceptionRaiseStateIdentity.check

namespace Routine
variable {r : Routine} {m m' : Message}

/-- The number of codes in a request. -/
def codes (r : Routine) (m : Message) : Nat := (load m r.codeCnt 32).toNat

/-- The number of state words in a request. -/
def words (r : Routine) (m : Message) : Nat :=
  if r.hasState then (load m (r.oldStateCnt + 8 * r.codes m - 16) 32).toNat else 0

/-- The header and the body are those of a request of the routine. -/
structure HeadFits (r : Routine) (m : Message) : Prop where
  complex : complexBit m = r.hasPorts
  descriptors : r.hasPorts = true → load m msghDescriptorCount 32 = (2 : Word)
  least : r.minRequest ≤ (msghSize m).toNat
  most : (msghSize m).toNat ≤ r.sizeofRequest

def SendRights (r : Routine) (m : Message) : Prop :=
  r.hasPorts = true → isSendRight m threadDescriptor = true ∧ isSendRight m taskDescriptor = true

/-- The arrays have room in the message, and fill what the fixed fields leave of it. -/
structure ArraysFit (r : Routine) (m : Message) : Prop where
  codes : r.codes m ≤ 2
  words : r.words m ≤ 224
  size : (msghSize m).toNat = r.minRequest + 8 * r.codes m + 4 * r.words m

structure WellFormed (r : Routine) (m : Message) : Prop where
  head : r.HeadFits m
  rights : r.SendRights m
  arrays : r.ArraysFit m

theorem headFits_iff : r.HeadFits m ↔ ¬(complexBit m ≠ r.hasPorts ∨
    r.hasPorts ∧ load m msghDescriptorCount 32 ≠ (2 : Word) ∨
    msghSize m < .ofNat 32 r.minRequest ∨ .ofNat 32 r.sizeofRequest < msghSize m) := by
  have hmax : (BitVec.ofNat 32 r.sizeofRequest).toNat = r.sizeofRequest :=
    Nat.mod_eq_of_lt (r.sizeofRequest_lt.trans (by decide))
  rw [BitVec.lt_def, BitVec.lt_def, toNat_minRequest, hmax]
  constructor
  · rintro ⟨hc, hd, hl, hm⟩ (h | ⟨hp, h⟩ | h | h)
    · exact h hc
    · exact h (hd hp)
    · exact Nat.not_lt.2 hl h
    · exact Nat.not_lt.2 hm h
  · intro h
    simp only [not_or, not_and, not_not, Nat.not_lt] at h
    exact ⟨h.1, h.2.1, h.2.2.1, h.2.2.2⟩

theorem sendRights_iff : r.SendRights m ↔ ¬(r.hasPorts ∧ !isSendRight m threadDescriptor) ∧
    ¬(r.hasPorts ∧ !isSendRight m taskDescriptor) := by
  unfold SendRights
  cases r.hasPorts <;> simp

theorem checkArrays_eq (r : Routine) (m : Message) (size : Word) :
    r.checkArrays m size = machMsgSuccess ∨ r.checkArrays m size = migBadArguments := by
  simp only [checkArrays, checkState]
  split_ifs <;> simp

theorem migBadArguments_ne : migBadArguments ≠ machMsgSuccess := by decide

section
variable {size codeCnt : Word} (hmin : r.minRequest ≤ size.toNat) (hcodes : codeCnt.toNat ≤ 2)
include hmin

theorem not_lt_minRequest : ¬size < .ofNat 32 r.minRequest := by
  rw [BitVec.lt_def, toNat_minRequest]
  exact Nat.not_lt.2 hmin

include hcodes

theorem checkState_eq_success_iff : r.checkState m size codeCnt = machMsgSuccess ↔
    (load m (r.oldStateCnt + 8 * codeCnt.toNat - 16) 32 : Word).toNat ≤ 224 ∧ size.toNat =
      r.minRequest + 8 * codeCnt.toNat + 4 * (load m (r.oldStateCnt + 8 * codeCnt.toNat - 16) 32 : Word).toNat := by
  have hlt := r.minRequest_lt
  have h8 : (8 : Word).toNat = 8 := rfl
  have h4 : (4 : Word).toNat = 4 := rfl
  have hdelta : (8 * codeCnt).toNat = 8 * codeCnt.toNat := by
    rw [BitVec.toNat_mul, h8, Nat.mod_eq_of_lt (by omega)]
  rw [checkState]
  simp only [hdelta]
  generalize (load m (r.oldStateCnt + 8 * codeCnt.toNat - 16) 32 : Word) = cnt
  by_cases hroom : (size - .ofNat 32 r.minRequest) / 8 < codeCnt ∨ size < .ofNat 32 r.minRequest + 8 * codeCnt
  · rw [if_pos hroom]
    rw [div_lt_or_lt_iff (not_lt_minRequest hmin) (by decide) (by rw [toNat_minRequest, h8]; omega), toNat_minRequest,
      h8] at hroom
    exact iff_of_false migBadArguments_ne (by omega)
  · rw [if_neg hroom]
    rw [div_lt_or_lt_iff (not_lt_minRequest hmin) (by decide) (by rw [toNat_minRequest, h8]; omega), toNat_minRequest,
      h8] at hroom
    have hsub : (size - 8 * codeCnt).toNat = size.toNat - 8 * codeCnt.toNat := by
      rw [BitVec.toNat_sub_of_le (by rw [BitVec.le_def, hdelta]; omega), hdelta]
    by_cases hcnt : 224 < cnt
    · rw [if_pos hcnt]
      have hcnt' : 224 < cnt.toNat := hcnt
      exact iff_of_false migBadArguments_ne (by omega)
    · have hcnt' : cnt.toNat ≤ 224 := Nat.not_lt.1 hcnt
      rw [if_neg hcnt]
      have hexact : (size - 8 * codeCnt - .ofNat 32 r.minRequest) / 4 < cnt ∨
          size - 8 * codeCnt ≠ .ofNat 32 r.minRequest + 4 * cnt ↔
          size.toNat - 8 * codeCnt.toNat ≠ r.minRequest + 4 * cnt.toNat := by
        rw [div_lt_or_ne_iff (not_lt_minRequest (by omega)) (by decide) (by rw [toNat_minRequest, h4]; omega),
          toNat_minRequest, h4, hsub]
      by_cases hlast : size.toNat - 8 * codeCnt.toNat ≠ r.minRequest + 4 * cnt.toNat
      · rw [if_pos (hexact.2 hlast)]
        exact iff_of_false migBadArguments_ne (by omega)
      · rw [if_neg fun h => hlast (hexact.1 h)]
        exact iff_of_true rfl (by omega)

end

theorem checkArrays_eq_success_iff (hmin : r.minRequest ≤ (msghSize m).toNat) :
    r.checkArrays m (msghSize m) = machMsgSuccess ↔ r.ArraysFit m := by
  have hlt := r.minRequest_lt
  have h8 : (8 : Word).toNat = 8 := rfl
  have hfit : r.ArraysFit m ↔ r.codes m ≤ 2 ∧ r.words m ≤ 224 ∧
      (msghSize m).toNat = r.minRequest + 8 * r.codes m + 4 * r.words m :=
    ⟨fun h => ⟨h.codes, h.words, h.size⟩, fun h => ⟨h.1, h.2.1, h.2.2⟩⟩
  rw [checkArrays, hfit]
  by_cases hcodes : 2 < (load m r.codeCnt 32 : Word)
  · rw [if_pos hcodes]
    exact iff_of_false migBadArguments_ne fun h => Nat.not_lt.2 h.1 hcodes
  have hle : r.codes m ≤ 2 := Nat.not_lt.1 hcodes
  rw [if_neg hcodes, and_iff_right hle]
  by_cases hs : r.hasState = true
  · rw [if_pos hs, checkState_eq_success_iff hmin hle, words, if_pos hs]
    rfl
  · have hexact : (msghSize m - .ofNat 32 r.minRequest) / 8 < (load m r.codeCnt 32 : Word) ∨
        msghSize m ≠ .ofNat 32 r.minRequest + 8 * load m r.codeCnt 32 ↔
        (msghSize m).toNat ≠ r.minRequest + 8 * r.codes m := by
      have hle' : (load m r.codeCnt 32 : Word).toNat ≤ 2 := hle
      rw [div_lt_or_ne_iff (not_lt_minRequest hmin) (by decide) (by rw [toNat_minRequest, h8]; omega),
        toNat_minRequest, h8]
      rfl
    rw [if_neg hs, words, if_neg hs]
    by_cases hlast : (msghSize m).toNat ≠ r.minRequest + 8 * r.codes m
    · rw [if_pos (hexact.2 hlast)]
      exact iff_of_false migBadArguments_ne (by omega)
    · rw [if_neg fun h => hlast (hexact.1 h)]
      exact iff_of_true rfl (by omega)

theorem check_of_headFits (h : r.HeadFits m) : r.check m =
    if r.hasPorts ∧ !isSendRight m threadDescriptor then migTypeError
    else if r.hasPorts ∧ !isSendRight m taskDescriptor then migTypeError
    else r.checkArrays m (msghSize m) := by
  simp only [check]
  rw [if_neg (headFits_iff.1 h)]

theorem check_of_not_headFits (h : ¬r.HeadFits m) : r.check m = migBadArguments := by
  simp only [check]
  rw [if_pos (not_not.1 fun hc => h (headFits_iff.2 hc))]

theorem check_of_sendRights (h : r.HeadFits m) (hr : r.SendRights m) : r.check m = r.checkArrays m (msghSize m) := by
  rcases sendRights_iff.1 hr with ⟨hthread, htask⟩
  rw [check_of_headFits h, if_neg hthread, if_neg htask]

theorem check_of_not_sendRights (h : r.HeadFits m) (hr : ¬r.SendRights m) : r.check m = migTypeError := by
  rw [check_of_headFits h]
  split_ifs with hthread htask
  · rfl
  · rfl
  · exact absurd (sendRights_iff.2 ⟨hthread, htask⟩) hr

theorem wellFormed_iff : r.WellFormed m ↔ r.HeadFits m ∧ r.SendRights m ∧ r.ArraysFit m :=
  ⟨fun h => ⟨h.head, h.rights, h.arrays⟩, fun h => ⟨h.1, h.2.1, h.2.2⟩⟩

theorem check_eq_success_iff : r.check m = machMsgSuccess ↔ r.WellFormed m := by
  have hne : migTypeError ≠ machMsgSuccess := by decide
  rw [wellFormed_iff]
  by_cases hhead : r.HeadFits m
  swap
  · rw [check_of_not_headFits hhead]
    exact iff_of_false migBadArguments_ne fun h => hhead h.1
  by_cases hrights : r.SendRights m
  swap
  · rw [check_of_not_sendRights hhead hrights]
    exact iff_of_false hne fun h => hrights h.2.1
  rw [check_of_sendRights hhead hrights, checkArrays_eq_success_iff hhead.least, and_iff_right hhead,
    and_iff_right hrights]

/-- A request passes the check exactly if it is well formed. One that does not is told that its ports are of the wrong
type if its header is in order and one of them is no send right, and else that its arguments are bad. -/
theorem check_spec (r : Routine) (m : Message) :
    (r.check m = machMsgSuccess ↔ r.WellFormed m) ∧
      (r.check m = migTypeError ↔ r.HeadFits m ∧ ¬r.SendRights m) ∧
      (r.check m = migBadArguments ↔ ¬r.HeadFits m ∨ r.SendRights m ∧ ¬r.ArraysFit m) := by
  have hne : migTypeError ≠ machMsgSuccess ∧ migTypeError ≠ migBadArguments := by decide
  refine ⟨check_eq_success_iff, ?_⟩
  by_cases hhead : r.HeadFits m
  swap
  · rw [check_of_not_headFits hhead]
    exact ⟨iff_of_false hne.2.symm fun h => hhead h.1, iff_of_true rfl (.inl hhead)⟩
  by_cases hrights : r.SendRights m
  swap
  · rw [check_of_not_sendRights hhead hrights]
    exact ⟨iff_of_true rfl ⟨hhead, hrights⟩, iff_of_false hne.2 fun h => h.elim (· hhead) (hrights ·.1)⟩
  have harrays := checkArrays_eq_success_iff hhead.least
  rw [check_of_sendRights hhead hrights]
  rcases r.checkArrays_eq m (msghSize m) with h | h
  · rw [h] at harrays ⊢
    exact ⟨iff_of_false hne.1.symm fun hc => hc.2 hrights,
      iff_of_false migBadArguments_ne.symm fun hc => hc.elim (· hhead) (·.2 (harrays.1 rfl))⟩
  · rw [h] at harrays ⊢
    exact ⟨iff_of_false hne.2.symm fun hc => hc.2 hrights,
      iff_of_true rfl (.inr ⟨hrights, fun hc => migBadArguments_ne (harrays.2 hc)⟩)⟩

end Routine

/-! ### The stubs -/

/-- What a catch function with a state returns and leaves behind its pointers. `new_state` has room for 224 words. -/
structure CatchReturn where
  ret : Word
  out : StateOut
  room : out.newState.length ≤ 224
  counted : ret = machMsgSuccess → out.newStateCnt.toNat = out.newState.length

/-- The functions the stubs call, which the program has to define. They get the port the request came to. What is thrown
in one of them leaves the server as well: `returned` tells of the state that a function has left whether it returned. -/
structure Catch (σ : Type*) where
  returned : σ → Bool
  catchMachExceptionRaise (exceptionPort thread task exception : Word) (code : List (BitVec 64)) : σ → Word × σ
  catchMachExceptionRaiseState (exceptionPort exception : Word) (code : List (BitVec 64)) (flavor : Word)
    (oldState : List Word) : σ → CatchReturn × σ
  catchMachExceptionRaiseStateIdentity (exceptionPort thread task exception : Word) (code : List (BitVec 64))
    (flavor : Word) (oldState : List Word) : σ → CatchReturn × σ

/-- `MIG_RETURN_ERROR`. -/
def migReturnError (out : Message) (code : Word) : Message := store (store out 32 code) 24 ndrRecord

namespace Routine

def codeArg (r : Routine) (m : Message) : List (BitVec 64) := loadWords m r.code 64 (load m r.codeCnt 32).toNat

/-- Where the field at `p` is in a request with the codes of `m`. -/
def moved (r : Routine) (m : Message) (p : Nat) : Nat := p + (8 * load m r.codeCnt 32 : Word).toNat - 16

theorem toNat_delta {r : Routine} {m : Message} (hcodes : r.codes m ≤ 2) :
    (8 * load m r.codeCnt 32 : Word).toNat = 8 * r.codes m := by
  have hmod : 8 * r.codes m % 2 ^ 32 = 8 * r.codes m := Nat.mod_eq_of_lt (by omega)
  rw [BitVec.toNat_mul]
  exact hmod

def flavorArg (r : Routine) (m : Message) : Word := load m (r.moved m r.flavor) 32

def oldStateArg (r : Routine) (m : Message) : List Word :=
  loadWords m (r.moved m r.oldState) 32 (load m (r.moved m r.oldStateCnt) 32).toNat

end Routine

section
variable {σ : Type*} (catchFns : Catch σ) (inP out : Message) (s : σ)

def xMachExceptionRaise : Message × σ :=
  let r : Routine := .machExceptionRaise
  let checkResult := migCheckRequestMachExceptionRaise inP
  if checkResult ≠ machMsgSuccess then (migReturnError out checkResult, s)
  else
    let (ret, s) := catchFns.catchMachExceptionRaise (msghLocalPort inP) (load inP threadDescriptor 32)
      (load inP taskDescriptor 32) (load inP r.exception 32) (r.codeArg inP) s
    (store (store out 32 ret) 24 ndrRecord, s)

/-- A stub with a state, after the check: `catchFn` is the catch function with its arguments. -/
def replyState (catchFn : σ → CatchReturn × σ) : Message × σ :=
  let out := store out 40 (224 : Word)
  let (c, s) := catchFn s
  let out := store (storeWords out 44 c.out.newState) 40 c.out.newStateCnt
  let out := store out 32 c.ret
  if c.ret ≠ machMsgSuccess then (migReturnError out c.ret, s)
  else
    let out := store out 24 ndrRecord
    let out := store out 36 c.out.flavor
    (store out 4 (44 + 4 * c.out.newStateCnt), s)

def xMachExceptionRaiseState : Message × σ :=
  let r : Routine := .machExceptionRaiseState
  let checkResult := migCheckRequestMachExceptionRaiseState inP
  if checkResult ≠ machMsgSuccess then (migReturnError out checkResult, s)
  else
    replyState out s (catchFns.catchMachExceptionRaiseState (msghLocalPort inP) (load inP r.exception 32)
      (r.codeArg inP) (r.flavorArg inP) (r.oldStateArg inP))

def xMachExceptionRaiseStateIdentity : Message × σ :=
  let r : Routine := .machExceptionRaiseStateIdentity
  let checkResult := migCheckRequestMachExceptionRaiseStateIdentity inP
  if checkResult ≠ machMsgSuccess then (migReturnError out checkResult, s)
  else
    replyState out s (catchFns.catchMachExceptionRaiseStateIdentity (msghLocalPort inP)
      (load inP threadDescriptor 32) (load inP taskDescriptor 32) (load inP r.exception 32) (r.codeArg inP)
      (r.flavorArg inP) (r.oldStateArg inP))

/-! ### The demultiplexer -/

/-- The stub routines of `catch_mach_exc_subsystem`. -/
def catchMachExcSubsystem : List Routine :=
  [.machExceptionRaise, .machExceptionRaiseState, .machExceptionRaiseStateIdentity]

def Routine.stub : Routine → Message × σ
  | machExceptionRaise => xMachExceptionRaise catchFns inP out s
  | machExceptionRaiseState => xMachExceptionRaiseState catchFns inP out s
  | machExceptionRaiseStateIdentity => xMachExceptionRaiseStateIdentity catchFns inP out s

/-- The header of a reply, and the size of the smallest one. -/
def replyHead : Message :=
  let out := store out 0 (machMsghBits (machMsghBitsRemote (msghBits inP)) 0)
  let out := store out 8 (msghRemotePort inP)
  let out := store out 4 (.ofNat 32 sizeofReplyError : Word)
  let out := store out 12 (0 : Word)
  store out 20 (msghId inP + 100)

def machExcServer : Bool × Message × σ :=
  let out := replyHead inP out
  let id := msghId inP
  match if (2407 : Word).slt id || id.slt (2405 : Word) then none else catchMachExcSubsystem[(id - 2405).toNat]? with
  | none => (false, store (store out 24 ndrRecord) 32 migBadId, s)
  | some r => (true, r.stub catchFns inP out s)

def machExcServerRoutine : Option Routine :=
  let id := msghId inP - 2405
  if (2 : Word).slt id || id.slt (0 : Word) then none else catchMachExcSubsystem[id.toNat]?

end

/-! ### What the server makes of a request -/

def Routine.ofId (id : Word) : Option Routine :=
  if id = 2405 then some .machExceptionRaise
  else if id = 2406 then some .machExceptionRaiseState
  else if id = 2407 then some .machExceptionRaiseStateIdentity
  else none

/-- The call a request asks for. -/
def Routine.call (r : Routine) (m : Message) : Call :=
  match r with
  | machExceptionRaise =>
    .machExceptionRaise (load m threadDescriptor 32) (load m taskDescriptor 32) (load m r.exception 32) (r.codeArg m)
  | machExceptionRaiseState =>
    .machExceptionRaiseState (load m r.exception 32) (r.codeArg m) (r.flavorArg m) (r.oldStateArg m)
  | machExceptionRaiseStateIdentity =>
    .machExceptionRaiseStateIdentity (load m threadDescriptor 32) (load m taskDescriptor 32) (load m r.exception 32)
      (r.codeArg m) (r.flavorArg m) (r.oldStateArg m)

def CatchReturn.outcome (c : CatchReturn) : Outcome := ⟨c.ret, if c.ret = machMsgSuccess then some c.out else none⟩

/-- The call of a catch function without a message. -/
def Catch.perform {σ : Type*} (catchFns : Catch σ) (exceptionPort : Word) (c : Call) (s : σ) : Outcome × σ :=
  match c with
  | .machExceptionRaise thread task exception code =>
    let r := catchFns.catchMachExceptionRaise exceptionPort thread task exception code s
    (⟨r.1, none⟩, r.2)
  | .machExceptionRaiseState exception code flavor oldState =>
    let r := catchFns.catchMachExceptionRaiseState exceptionPort exception code flavor oldState s
    (r.1.outcome, r.2)
  | .machExceptionRaiseStateIdentity thread task exception code flavor oldState =>
    let r := catchFns.catchMachExceptionRaiseStateIdentity exceptionPort thread task exception code flavor oldState s
    (r.1.outcome, r.2)

/-- What is replied to a message, and what becomes of the state of the catch functions. -/
def Catch.respond {σ : Type*} (catchFns : Catch σ) (m : Message) (s : σ) : Outcome × σ :=
  match Routine.ofId (msghId m) with
  | none => (⟨migBadId, none⟩, s)
  | some r =>
    if r.check m = machMsgSuccess then catchFns.perform (msghLocalPort m) (r.call m) s
    else (⟨r.check m, none⟩, s)

/-- The reply has the outcome in it, and the size for it. -/
structure Carries (o : Outcome) (m : Message) : Prop where
  ret : retCode m = o.ret
  size : msghSize m = match o.out with
    | none => .ofNat 32 sizeofReplyError
    | some out => 44 + 4 * out.newStateCnt
  out : ∀ out, o.out = some out →
    replyFlavor m = out.flavor ∧ newStateCnt m = out.newStateCnt ∧ newState m out.newState.length = out.newState

variable {σ : Type*} {catchFns : Catch σ} {inP inP' out out' m m' : Message} {s : σ} {r : Routine} {code : Word}
  {p q n w : Nat}

theorem carries_migReturnError (hsize : msghSize out = .ofNat 32 sizeofReplyError) :
    Carries ⟨code, none⟩ (migReturnError out code) where
  ret := by simp (disch := omega) only [retCode, migReturnError, load_store_of_disjoint, load_store]
  size := by
    rw [← hsize]
    simp (disch := omega) only [msghSize, migReturnError, load_store_of_disjoint]
  out _ h := by cases h

theorem replyState_spec (catchFn : σ → CatchReturn × σ) (hsize : msghSize out = .ofNat 32 sizeofReplyError) :
    (replyState out s catchFn).2 = (catchFn s).2 ∧ Carries (catchFn s).1.outcome (replyState out s catchFn).1 := by
  rw [replyState]
  generalize catchFn s = c
  rcases c with ⟨c, s'⟩
  by_cases hret : c.ret = machMsgSuccess
  · have houtcome : c.outcome = ⟨c.ret, some c.out⟩ := by rw [CatchReturn.outcome, if_pos hret]
    simp only [if_neg (not_not_intro hret), houtcome]
    refine ⟨trivial, ?_, ?_, ?_⟩
    · simp (disch := omega) only [retCode, load_store_of_disjoint, load_store]
    · simp (disch := omega) only [msghSize, load_store]
    · intro o ho
      obtain rfl := Option.some.inj ho
      simp (disch := omega) only [replyFlavor, newStateCnt, newState, load_store_of_disjoint, load_store,
        loadWords_store_of_disjoint, loadWords_storeWords, and_self]
  · have houtcome : c.outcome = ⟨c.ret, none⟩ := by rw [CatchReturn.outcome, if_neg hret]
    simp only [if_pos hret, houtcome]
    refine ⟨trivial, carries_migReturnError ?_⟩
    rw [← hsize]
    simp (disch := omega) only [msghSize, load_store_of_disjoint, load_storeWords_of_disjoint]

theorem respond_eq (hr : Routine.ofId (msghId m) = some r) : catchFns.respond m s =
    if r.check m = machMsgSuccess then catchFns.perform (msghLocalPort m) (r.call m) s
    else (⟨r.check m, none⟩, s) := by
  rw [Catch.respond, hr]

theorem stub_rejected (h : r.check inP ≠ machMsgSuccess) :
    r.stub catchFns inP out s = (migReturnError out (r.check inP), s) := by
  cases r with
  | machExceptionRaise => exact if_pos h
  | machExceptionRaiseState => exact if_pos h
  | machExceptionRaiseStateIdentity => exact if_pos h

theorem stub_spec (catchFns : Catch σ) (s : σ) (hsize : msghSize out = .ofNat 32 sizeofReplyError)
    (hr : Routine.ofId (msghId inP) = some r) :
    (r.stub catchFns inP out s).2 = (catchFns.respond inP s).2 ∧
      Carries (catchFns.respond inP s).1 (r.stub catchFns inP out s).1 := by
  rw [respond_eq hr]
  by_cases hcheck : r.check inP = machMsgSuccess
  swap
  · rw [if_neg hcheck, stub_rejected hcheck]
    exact ⟨rfl, carries_migReturnError hsize⟩
  rw [if_pos hcheck]
  cases r with
  | machExceptionRaise =>
    have hstub : xMachExceptionRaise catchFns inP out s = _ := if_neg (not_not_intro hcheck)
    rw [Routine.stub, hstub]
    refine ⟨rfl, ?_, ?_, fun _ h => by cases h⟩
    · simp (disch := omega) only [retCode, load_store_of_disjoint, load_store]
      rfl
    · simp (disch := omega) only [msghSize, load_store_of_disjoint]
      exact hsize
  | machExceptionRaiseState =>
    have hstub : xMachExceptionRaiseState catchFns inP out s = _ := if_neg (not_not_intro hcheck)
    rw [Routine.stub, hstub]
    exact replyState_spec _ hsize
  | machExceptionRaiseStateIdentity =>
    have hstub : xMachExceptionRaiseStateIdentity catchFns inP out s = _ := if_neg (not_not_intro hcheck)
    rw [Routine.stub, hstub]
    exact replyState_spec _ hsize

theorem demux_eq (id : Word) : (if (2407 : Word).slt id || id.slt (2405 : Word) then none
    else catchMachExcSubsystem[(id - 2405).toNat]?) = Routine.ofId id := by
  have h5 : (2405 : Word).toInt = 2405 := rfl
  have h7 : (2407 : Word).toInt = 2407 := rfl
  have hmid : (2406 : Word).toInt = 2406 := rfl
  by_cases hid : id = 2405 ∨ id = 2406 ∨ id = 2407
  · rcases hid with rfl | rfl | rfl <;> rfl
  · have hrange : ((2407 : Word).slt id || id.slt (2405 : Word)) = true := by
      rw [Bool.or_eq_true, BitVec.slt_iff_toInt_lt, BitVec.slt_iff_toInt_lt, h5, h7]
      simp only [← BitVec.toInt_inj, h5, h7, hmid] at hid
      omega
    simp only [not_or] at hid
    rw [if_pos hrange, Routine.ofId, if_neg hid.1, if_neg hid.2.1, if_neg hid.2.2]

theorem machExcServerRoutine_eq : machExcServerRoutine inP = Routine.ofId (msghId inP) := by
  have h0 : (0 : Word).toInt = 0 := rfl
  have h1 : (1 : Word).toInt = 1 := rfl
  have h2 : (2 : Word).toInt = 2 := rfl
  rw [machExcServerRoutine]
  generalize msghId inP = id
  by_cases hid : id - 2405 = 0 ∨ id - 2405 = 1 ∨ id - 2405 = 2
  · rcases hid with h | h | h
    · obtain rfl : id = 2405 := by bv_omega
      rfl
    · obtain rfl : id = 2406 := by bv_omega
      rfl
    · obtain rfl : id = 2407 := by bv_omega
      rfl
  · have hrange : ((2 : Word).slt (id - 2405) || (id - 2405).slt (0 : Word)) = true := by
      rw [Bool.or_eq_true, BitVec.slt_iff_toInt_lt, BitVec.slt_iff_toInt_lt, h0, h2]
      simp only [← BitVec.toInt_inj, h0, h1, h2] at hid
      omega
    have hne : id ≠ 2405 ∧ id ≠ 2406 ∧ id ≠ 2407 := by
      refine ⟨?_, ?_, ?_⟩ <;> rintro rfl <;> exact hid (by decide)
    simp only [if_pos hrange, Routine.ofId, if_neg hne.1, if_neg hne.2.1, if_neg hne.2.2]

theorem machExcServer_eq : machExcServer catchFns inP out s =
    match Routine.ofId (msghId inP) with
    | none => (false, store (store (replyHead inP out) 24 ndrRecord) 32 migBadId, s)
    | some r => (true, r.stub catchFns inP (replyHead inP out) s) := by
  simp only [machExcServer, demux_eq]

theorem msghSize_replyHead (inP out : Message) :
    msghSize (replyHead inP out) = .ofNat 32 sizeofReplyError := by
  simp (disch := omega) only [msghSize, replyHead, load_store_of_disjoint, load_store]

/-- A stub writes nothing of the header but the size. -/
theorem stub_head (hq : q < 4 ∨ 8 ≤ q ∧ q < 24) : (r.stub catchFns inP out s).1 q = out q := by
  have herror : ∀ (out : Message) (code : Word), migReturnError out code q = out q := by
    intro out code
    simp (disch := omega) only [migReturnError, store_outside]
  have hstate : ∀ catchFn : σ → CatchReturn × σ, (replyState out s catchFn).1 q = out q := by
    intro catchFn
    simp only [replyState]
    split_ifs
    · simp (disch := omega) only [herror, store_outside, storeWords_outside]
    · simp (disch := omega) only [store_outside, storeWords_outside]
  by_cases hcheck : r.check inP = machMsgSuccess
  swap
  · rw [stub_rejected hcheck]
    exact herror out _
  cases r with
  | machExceptionRaise =>
    have hstub : xMachExceptionRaise catchFns inP out s = _ := if_neg (not_not_intro hcheck)
    rw [Routine.stub, hstub]
    simp (disch := omega) only [store_outside]
  | machExceptionRaiseState =>
    have hstub : xMachExceptionRaiseState catchFns inP out s = _ := if_neg (not_not_intro hcheck)
    rw [Routine.stub, hstub, hstate]
  | machExceptionRaiseStateIdentity =>
    have hstub : xMachExceptionRaiseStateIdentity catchFns inP out s = _ := if_neg (not_not_intro hcheck)
    rw [Routine.stub, hstub, hstate]

/-- The header of `reply` is that of the reply to `request`. -/
structure AnswersTo (request reply : Message) : Prop where
  bits : msghBits reply = machMsghBitsRemote (msghBits request)
  remotePort : msghRemotePort reply = msghRemotePort request
  localPort : msghLocalPort reply = 0
  id : msghId reply = msghId request + 100

theorem answersTo_replyHead (inP out : Message) : AnswersTo inP (replyHead inP out) where
  bits := by
    simp (disch := omega) only [msghBits, replyHead, load_store_of_disjoint, load_store]
    exact BitVec.or_zero
  remotePort := by simp (disch := omega) only [msghRemotePort, replyHead, load_store_of_disjoint, load_store]
  localPort := by simp (disch := omega) only [msghLocalPort, replyHead, load_store_of_disjoint, load_store]
  id := by simp (disch := omega) only [msghId, replyHead, load_store]

theorem AnswersTo.congr (h : AnswersTo m out) (hhead : ∀ q, q < 4 ∨ 8 ≤ q ∧ q < 24 → out' q = out q) :
    AnswersTo m out' := by
  rcases h with ⟨hbits, hremote, hlocal, hid⟩
  refine ⟨hbits ▸ ?_, hremote ▸ ?_, hlocal ▸ ?_, hid ▸ ?_⟩ <;>
    exact load_congr fun q hq hlt => hhead q (by omega)

theorem machExcServer_spec (catchFns : Catch σ) (inP out : Message) (s : σ) :
    (machExcServer catchFns inP out s).1 = (Routine.ofId (msghId inP)).isSome ∧
    (machExcServer catchFns inP out s).2.2 = (catchFns.respond inP s).2 ∧
    Carries (catchFns.respond inP s).1 (machExcServer catchFns inP out s).2.1 ∧
    AnswersTo inP (machExcServer catchFns inP out s).2.1 := by
  rw [machExcServer_eq]
  cases hr : Routine.ofId (msghId inP) with
  | none =>
    have hrespond : catchFns.respond inP s = (⟨migBadId, none⟩, s) := by rw [Catch.respond, hr]
    rw [hrespond]
    refine ⟨rfl, rfl, ⟨?_, ?_, fun _ h => by cases h⟩, (answersTo_replyHead inP out).congr fun q hq => ?_⟩
    · simp (disch := omega) only [retCode, load_store]
    · rw [← msghSize_replyHead inP out]
      simp (disch := omega) only [msghSize, load_store_of_disjoint]
    · simp (disch := omega) only [store_outside]
  | some r =>
    rcases stub_spec catchFns s (msghSize_replyHead inP out) hr with ⟨hstate, hcarries⟩
    exact ⟨rfl, hstate, hcarries, (answersTo_replyHead inP out).congr fun _ => stub_head⟩

end MasterLib
