import MasterLib.LittleEndian
import MasterLib.Mach

/-!
# The messages of the exception subsystem

A message is the bytes of the buffer it is in. `mach_exc.h` lays out three requests, packed to four bytes: the
header, two port descriptors in two of them, then the exception and an array of codes, and in two of them an array
of state words behind the codes. `Transfer.receive` is what `mach_msg` makes of a message on its way.
-/

namespace MasterLib
open LittleEndian

abbrev Word := BitVec 32

abbrev Message := Memory

/-! ### `mach_msg_header_t` and the values of its fields -/

def msghBits (m : Message) : Word := load m 0 32
def msghSize (m : Message) : Word := load m 4 32
def msghRemotePort (m : Message) : Word := load m 8 32
def msghLocalPort (m : Message) : Word := load m 12 32
def msghId (m : Message) : Word := load m 20 32

def machMsghBitsComplex : Word := 0x80000000

def complexBit (m : Message) : Bool := msghBits m &&& machMsghBitsComplex ≠ 0

def machMsghBits (remote localPort : Word) : Word := remote ||| localPort <<< 8
def machMsghBitsRemote (bits : Word) : Word := bits &&& 0x1f
def machMsghBitsLocal (bits : Word) : Word := bits >>> 8 &&& 0x1f

def machMsgTypeCopySend : Word := 19
def machMsgTypeMakeSendOnce : Word := 21

def machMsgPortDescriptor : Byte := 0

def machMsgSuccess : Word := 0

def migTypeError : Word := BitVec.ofInt 32 (-300)
def migReplyMismatch : Word := BitVec.ofInt 32 (-301)
def migBadId : Word := BitVec.ofInt 32 (-303)
def migBadArguments : Word := BitVec.ofInt 32 (-304)
def migNoReply : Word := BitVec.ofInt 32 (-305)
def migArrayTooLarge : Word := BitVec.ofInt 32 (-307)
def migServerDied : Word := BitVec.ofInt 32 (-308)

/-- The representation of this machine: little-endian integers, ASCII, IEEE floats. -/
def ndrRecord : BitVec 64 := 0x0000000100000000

/-! ### The three requests and their replies -/

inductive Routine
  | machExceptionRaise
  | machExceptionRaiseState
  | machExceptionRaiseStateIdentity
deriving DecidableEq, Repr

namespace Routine

/-- The request has a body of two descriptors, `thread` and `task`. -/
def hasPorts : Routine → Bool
  | machExceptionRaiseState => false
  | _ => true

/-- The request and its reply have a thread state. -/
def hasState : Routine → Bool
  | machExceptionRaise => false
  | _ => true

def requestId : Routine → Word
  | machExceptionRaise => 2405
  | machExceptionRaiseState => 2406
  | machExceptionRaiseStateIdentity => 2407

/-- Where `NDR` is; the fields behind it are at the same distances in all three requests. -/
def ndr (r : Routine) : Nat := if r.hasPorts then 52 else 24

def exception (r : Routine) : Nat := r.ndr + 8
def codeCnt (r : Routine) : Nat := r.ndr + 12
def code (r : Routine) : Nat := r.ndr + 16
def flavor (r : Routine) : Nat := r.ndr + 32
def oldStateCnt (r : Routine) : Nat := r.ndr + 36
def oldState (r : Routine) : Nat := r.ndr + 40

def sizeofRequest (r : Routine) : Nat := if r.hasState then r.ndr + 40 + 4 * 224 else r.ndr + 32

/-- `sizeof(Request)` without the arrays. -/
def minRequest (r : Routine) : Nat := r.sizeofRequest - if r.hasState then 912 else 16

theorem ndr_of_hasPorts {r : Routine} (h : r.hasPorts = true) : r.ndr = 52 := if_pos h

theorem ndr_ge (r : Routine) : 24 ≤ r.ndr := by cases r <;> decide

theorem minRequest_eq (r : Routine) : r.minRequest = r.ndr + if r.hasState then 24 else 16 := by cases r <;> rfl

theorem ndr_add_le (r : Routine) : r.ndr + 16 ≤ r.minRequest := by cases r <;> decide

theorem minRequest_lt (r : Routine) : r.minRequest < 100 := by cases r <;> decide

theorem add_le_sizeofRequest {r : Routine} {n k : Nat} (hn : n ≤ 2) (hk : k ≤ if r.hasState then 224 else 0) :
    r.minRequest + 8 * n + 4 * k ≤ r.sizeofRequest := by
  cases r <;> simp [minRequest, sizeofRequest, ndr, hasPorts, hasState] at hk ⊢ <;> omega

theorem sizeofRequest_lt (r : Routine) : r.sizeofRequest < 1000 := by cases r <;> decide

theorem toNat_minRequest (r : Routine) : (BitVec.ofNat 32 r.minRequest).toNat = r.minRequest :=
  Nat.mod_eq_of_lt (r.minRequest_lt.trans (by decide))

end Routine

def msghDescriptorCount : Nat := 24
def threadDescriptor : Nat := 28
def taskDescriptor : Nat := 40

/-- `disposition` and `type` of the port descriptor at `p`. -/
def disposition (m : Message) (p : Nat) : Byte := load m (p + 10) 8
def descriptorType (m : Message) (p : Nat) : Byte := load m (p + 11) 8

/-- `mig_reply_error_t`, and the reply of `mach_exception_raise`. -/
def sizeofReplyError : Nat := 36

def sizeofReply : Nat := 44 + 4 * 224

def retCode (m : Message) : Word := load m 32 32
def replyFlavor (m : Message) : Word := load m 36 32
def newStateCnt (m : Message) : Word := load m 40 32
def newState (m : Message) (n : Nat) : List Word := loadWords m 44 32 n

/-! ### A call and what comes of it -/

inductive Call
  | machExceptionRaise (thread task exception : Word) (code : List (BitVec 64))
  | machExceptionRaiseState (exception : Word) (code : List (BitVec 64)) (flavor : Word) (oldState : List Word)
  | machExceptionRaiseStateIdentity (thread task exception : Word) (code : List (BitVec 64)) (flavor : Word)
    (oldState : List Word)
deriving DecidableEq, Repr

namespace Call

def routine : Call → Routine
  | machExceptionRaise .. => .machExceptionRaise
  | machExceptionRaiseState .. => .machExceptionRaiseState
  | machExceptionRaiseStateIdentity .. => .machExceptionRaiseStateIdentity

def ports : Call → Option (Word × Word)
  | machExceptionRaise thread task _ _ => some (thread, task)
  | machExceptionRaiseState .. => none
  | machExceptionRaiseStateIdentity thread task _ _ _ _ => some (thread, task)

def exception : Call → Word
  | machExceptionRaise _ _ exception _ => exception
  | machExceptionRaiseState exception _ _ _ => exception
  | machExceptionRaiseStateIdentity _ _ exception _ _ _ => exception

def code : Call → List (BitVec 64)
  | machExceptionRaise _ _ _ code => code
  | machExceptionRaiseState _ code _ _ => code
  | machExceptionRaiseStateIdentity _ _ _ code _ _ => code

/-- The flavor and the old state. -/
def state : Call → Option (Word × List Word)
  | machExceptionRaise .. => none
  | machExceptionRaiseState _ _ flavor oldState => some (flavor, oldState)
  | machExceptionRaiseStateIdentity _ _ _ _ flavor oldState => some (flavor, oldState)

/-- The arrays fit into the message. -/
def Fits (c : Call) : Prop := c.code.length ≤ 2 ∧ ∀ state ∈ c.state, state.2.length ≤ 224

instance : DecidablePred Fits := fun c =>
  inferInstanceAs (Decidable (c.code.length ≤ 2 ∧ ∀ state ∈ c.state, state.2.length ≤ 224))

/-- The call in the port names of another task. -/
def rename (name : Word → Word) : Call → Call
  | machExceptionRaise thread task exception code => machExceptionRaise (name thread) (name task) exception code
  | machExceptionRaiseState exception code flavor oldState => machExceptionRaiseState exception code flavor oldState
  | machExceptionRaiseStateIdentity thread task exception code flavor oldState =>
    machExceptionRaiseStateIdentity (name thread) (name task) exception code flavor oldState

end Call

/-- What a routine with a state has written behind its pointers. -/
structure StateOut where
  flavor : Word
  newState : List Word
  newStateCnt : Word
deriving DecidableEq, Repr

/-- What a call returns, and what it has written. -/
structure Outcome where
  ret : Word
  out : Option StateOut
deriving DecidableEq, Repr

/-! ### Arrays behind a fixed part of a message

`n` elements of `e` bytes behind `fixed` bytes, as the checks compute with 32 bits. -/

section
variable {size fixed e n : Word} (hsize : ¬size < fixed) (he : 0 < e.toNat)
  (hn : fixed.toNat + e.toNat * n.toNat < 2 ^ 32)
include hn

theorem toNat_add_mul : (fixed + e * n).toNat = fixed.toNat + e.toNat * n.toNat := by
  have hmul : (e * n).toNat = e.toNat * n.toNat := by
    rw [BitVec.toNat_mul, Nat.mod_eq_of_lt (by omega)]
  rw [BitVec.toNat_add, hmul, Nat.mod_eq_of_lt hn]

include hsize he

omit hn in
theorem div_lt_iff : (size - fixed) / e < n ↔ size.toNat < fixed.toNat + e.toNat * n.toNat := by
  have hle : fixed.toNat ≤ size.toNat := Nat.not_lt.1 hsize
  rw [BitVec.lt_def, BitVec.toNat_udiv, BitVec.toNat_sub_of_le (BitVec.not_lt.1 hsize), Nat.div_lt_iff_lt_mul he,
    Nat.mul_comm n.toNat]
  omega

theorem div_lt_or_ne_iff : (size - fixed) / e < n ∨ size ≠ fixed + e * n ↔
    size.toNat ≠ fixed.toNat + e.toNat * n.toNat := by
  rw [div_lt_iff hsize he, ne_eq, ← BitVec.toNat_inj, toNat_add_mul hn]
  omega

theorem div_lt_or_lt_iff : (size - fixed) / e < n ∨ size < fixed + e * n ↔
    size.toNat < fixed.toNat + e.toNat * n.toNat := by
  rw [div_lt_iff hsize he, BitVec.lt_def, toNat_add_mul hn, or_self]

end

/-! ### `mach_msg` -/

/-- The type of the right that a receiver gets for one sent with disposition `d`. -/
def receivedType (d : Byte) : Byte :=
  if d = 17 ∨ d = 19 ∨ d = 20 then 17 else if d = 18 ∨ d = 21 then 18 else d

/-- A message on its way to a task: the task's names for the rights in the body, for the reply right and for the
port it is received from. -/
structure Transfer where
  name : Word → Word
  remotePort : Word
  localPort : Word

namespace Transfer

def carryDescriptor (x : Transfer) (p : Nat) (m : Message) : Message :=
  store (store m p (x.name (load m p 32))) (p + 10) (receivedType (disposition m p))

def carryDescriptors (x : Transfer) (m : Message) : Nat → Message
  | 0 => m
  | n + 1 => x.carryDescriptor (threadDescriptor + 12 * n) (x.carryDescriptors m n)

def receivedBits (bits : Word) : Word :=
  machMsghBits ((receivedType ((machMsghBitsLocal bits).setWidth 8)).setWidth 32)
    ((receivedType ((machMsghBitsRemote bits).setWidth 8)).setWidth 32) ||| bits &&& machMsghBitsComplex

def copyIn (size : Word) (sent buf : Message) : Message := fun q => if q < size.toNat then sent q else buf q

/-- The receiver's buffer `buf` once the `size` bytes at `sent` are in it. The header is the kernel's, with the two
ports changed over; only port descriptors are carried. -/
def receive (x : Transfer) (size : Word) (sent buf : Message) : Message :=
  let m := copyIn size sent buf
  let m := if complexBit sent then x.carryDescriptors m (load sent msghDescriptorCount 32).toNat else m
  let m := store m 0 (receivedBits (msghBits sent))
  let m := store m 4 size
  let m := store m 8 x.remotePort
  let m := store m 12 x.localPort
  let m := store m 16 (0 : Word)
  store m 20 (msghId sent)

variable {x : Transfer} {size : Word} {sent buf m : Message} {n p q w : Nat}

theorem msghSize_receive : msghSize (x.receive size sent buf) = size := by
  simp (disch := omega) only [receive, msghSize, load_store_of_disjoint, load_store]

theorem msghRemotePort_receive : msghRemotePort (x.receive size sent buf) = x.remotePort := by
  simp (disch := omega) only [receive, msghRemotePort, load_store_of_disjoint, load_store]

theorem msghLocalPort_receive : msghLocalPort (x.receive size sent buf) = x.localPort := by
  simp (disch := omega) only [receive, msghLocalPort, load_store_of_disjoint, load_store]

theorem msghId_receive : msghId (x.receive size sent buf) = msghId sent := by
  simp (disch := omega) only [receive, msghId, load_store]

theorem msghBits_receive : msghBits (x.receive size sent buf) = receivedBits (msghBits sent) := by
  simp (disch := omega) only [receive, msghBits, load_store_of_disjoint, load_store]

theorem complexBit_eq : complexBit m = (msghBits m).getLsbD 31 := by
  have hbit : machMsghBitsComplex = BitVec.twoPow 32 31 := rfl
  rw [complexBit, hbit, BitVec.and_twoPow]
  cases (msghBits m).getLsbD 31 <;> rfl

/-- The types of the two rights leave the top bit alone. -/
theorem complexBit_receive : complexBit (x.receive size sent buf) = complexBit sent := by
  have hbyte : ∀ (d : Byte) i, 8 ≤ i → (d.setWidth 32).getLsbD i = false := fun d i hi => by
    rw [BitVec.getLsbD_setWidth, BitVec.getLsbD_of_ge d i hi, Bool.and_false]
  have hbit : machMsghBitsComplex.getLsbD 31 = true := rfl
  rw [complexBit_eq, complexBit_eq, msghBits_receive, receivedBits, machMsghBits, BitVec.getLsbD_or,
    BitVec.getLsbD_or, BitVec.getLsbD_and, BitVec.getLsbD_shiftLeft, hbyte _ _ (by omega), hbyte _ _ (by omega), hbit]
  simp

theorem carryDescriptors_outside (h : q < threadDescriptor ∨ threadDescriptor + 12 * n ≤ q) :
    x.carryDescriptors m n q = m q := by
  induction n with
  | zero => rfl
  | succ n ih =>
    rw [carryDescriptors, carryDescriptor, store_outside (by omega), store_outside (by omega), ih (by omega)]

/-- What is behind the body, and all of a message without one, arrives as it was sent. -/
theorem receive_eq (hq : 24 ≤ q) (hlt : q < size.toNat)
    (h : complexBit sent = true → load sent msghDescriptorCount 32 = (2 : Word) ∧ 52 ≤ q) :
    x.receive size sent buf q = sent q := by
  simp (disch := omega) only [receive, store_outside]
  by_cases hc : complexBit sent = true
  · rcases h hc with ⟨hcount, hq⟩
    rw [if_pos hc, hcount, carryDescriptors_outside (.inr hq), copyIn, if_pos hlt]
  · rw [if_neg hc, copyIn, if_pos hlt]

theorem load_receive_of_simple (hc : complexBit sent = false) (hw : 8 ∣ w) (hp : 24 ≤ p)
    (hle : p + w / 8 ≤ size.toNat) : load (x.receive size sent buf) p w = load sent p w := by
  rcases hw with ⟨k, rfl⟩
  exact load_congr fun q hq hlt => receive_eq (by omega) (by omega) fun h => by rw [hc] at h; cases h

theorem loadWords_receive_of_simple (hc : complexBit sent = false) (hw : 8 ∣ w) (hp : 24 ≤ p)
    (hle : p + w / 8 * n ≤ size.toNat) : loadWords (x.receive size sent buf) p w n = loadWords sent p w n :=
  loadWords_congr hw fun q hq hlt => receive_eq (by omega) (by omega) fun h => by rw [hc] at h; cases h

theorem load_copyIn (hw : 8 ∣ w) (h : p + w / 8 ≤ size.toNat) : load (copyIn size sent buf) p w = load sent p w := by
  refine load_congr fun q hq hlt => if_pos ?_
  rcases hw with ⟨k, rfl⟩
  omega

section
variable (hc : complexBit sent = true) (hcount : load sent msghDescriptorCount 32 = (2 : Word))
  (hsize : 52 ≤ size.toNat)
include hc hcount hsize

omit hsize in
theorem load_receive_of_complex (hw : 8 ∣ w) (hp : 24 ≤ p) : load (x.receive size sent buf) p w =
    load (x.carryDescriptor taskDescriptor (x.carryDescriptor threadDescriptor (copyIn size sent buf))) p w := by
  simp (disch := omega) only [receive, load_store_of_disjoint]
  rw [if_pos hc, hcount]
  rfl

theorem descriptorCount_receive : load (x.receive size sent buf) msghDescriptorCount 32 = (2 : Word) := by
  rw [load_receive_of_complex hc hcount (by decide) (by decide), ← hcount]
  simp (disch := omega) only [carryDescriptor, load_store_of_disjoint, load_copyIn, msghDescriptorCount,
    threadDescriptor, taskDescriptor]

/-- A descriptor arrives with the receiver's name of its right, and the type of that right. -/
theorem descriptor_receive (hp : p = threadDescriptor ∨ p = taskDescriptor) :
    load (x.receive size sent buf) p 32 = x.name (load sent p 32) ∧
      disposition (x.receive size sent buf) p = receivedType (disposition sent p) ∧
      descriptorType (x.receive size sent buf) p = descriptorType sent p := by
  unfold disposition descriptorType
  rcases hp with rfl | rfl
  · simp (disch := first | omega | decide) only [load_receive_of_complex hc hcount, carryDescriptor, disposition,
      load_store_of_disjoint, load_store, load_copyIn, threadDescriptor, taskDescriptor, and_self]
  · simp (disch := first | omega | decide) only [load_receive_of_complex hc hcount, carryDescriptor, disposition,
      load_store_of_disjoint, load_store, load_copyIn, threadDescriptor, taskDescriptor, and_self]

end

end Transfer

end MasterLib
