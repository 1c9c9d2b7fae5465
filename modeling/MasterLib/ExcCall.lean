import MasterLib.ExcUser

/-!
# A call through messages

The request of a client arrives as a request of the same call, in the names of the server's task, and the reply to it
brings back what the catch function returned: with `mach_msg` in between, a client stub is the call of a catch function.
-/

namespace MasterLib
open LittleEndian

variable {c : Call} {exceptionPort replyPort size : Word} {sent : Message}

/-! ### The request -/

theorem toNat_length {n : Nat} (h : n ≤ 224) : (BitVec.ofNat 32 n).toNat = n := Nat.mod_eq_of_lt (by omega)

theorem Call.Fits.length_le (hfits : c.Fits) :
    c.code.length ≤ 2 ∧ (c.state.elim [] Prod.snd).length ≤ if c.routine.hasState then 224 else 0 := by
  refine ⟨hfits.1, ?_⟩
  rw [Call.hasState_eq]
  cases hs : c.state with
  | none => exact Nat.le_refl _
  | some state => exact hfits.2 state hs

namespace Packed
variable (h : Packed c replyPort sent size) (x : Transfer) (buf : Message)
include h

theorem receive_eq {q : Nat} (hq : c.routine.ndr ≤ q) (hlt : q < size.toNat) : x.receive size sent buf q = sent q := by
  refine Transfer.receive_eq (c.routine.ndr_ge.trans hq) hlt fun hc => ?_
  rw [h.complex] at hc
  obtain ⟨ids, hids⟩ := Option.isSome_iff_exists.1 (c.hasPorts_eq ▸ hc)
  rw [Routine.ndr_of_hasPorts hc] at hq
  exact ⟨(h.ports ids hids).1, hq⟩

theorem load_receive {p w : Nat} (hw : 8 ∣ w) (hp : c.routine.ndr ≤ p) (hle : p + w / 8 ≤ size.toNat) :
    load (x.receive size sent buf) p w = load sent p w := by
  rcases hw with ⟨k, rfl⟩
  exact load_congr fun q hq hlt => h.receive_eq x buf (by omega) (by omega)

theorem loadWords_receive {p w n : Nat} (hw : 8 ∣ w) (hp : c.routine.ndr ≤ p) (hle : p + w / 8 * n ≤ size.toNat) :
    loadWords (x.receive size sent buf) p w n = loadWords sent p w n :=
  loadWords_congr hw fun q hq hlt => h.receive_eq x buf (by omega) (by omega)

/-- The rights of the body arrive as send rights under the names of the receiver. -/
theorem ports_receive {ids : Word × Word} (hids : ids ∈ c.ports) :
    load (x.receive size sent buf) msghDescriptorCount 32 = (2 : Word) ∧
      load (x.receive size sent buf) threadDescriptor 32 = x.name ids.1 ∧
      load (x.receive size sent buf) taskDescriptor 32 = x.name ids.2 ∧
      ∀ p, p = threadDescriptor ∨ p = taskDescriptor → Routine.isSendRight (x.receive size sent buf) p = true := by
  have hports : c.routine.hasPorts = true := by rw [c.hasPorts_eq, hids]; rfl
  have hc : complexBit sent = true := h.complex.trans hports
  have hsize : 52 ≤ size.toNat := by
    have hle := c.routine.ndr_add_le
    rw [Routine.ndr_of_hasPorts hports] at hle
    rw [h.size]
    omega
  rcases h.ports ids hids with ⟨hcount, hthread, htask, htype⟩
  have hdescriptor : ∀ p, p = threadDescriptor ∨ p = taskDescriptor →
      load (x.receive size sent buf) p 32 = x.name (load sent p 32) ∧
      disposition (x.receive size sent buf) p = receivedType (disposition sent p) ∧
      descriptorType (x.receive size sent buf) p = descriptorType sent p := fun p hp =>
    Transfer.descriptor_receive hc hcount hsize hp
  refine ⟨Transfer.descriptorCount_receive hc hcount hsize, ?_, ?_, fun p hp => ?_⟩
  · rw [(hdescriptor _ (.inl rfl)).1, hthread]
  · rw [(hdescriptor _ (.inr rfl)).1, htask]
  · unfold Routine.isSendRight
    rw [(hdescriptor p hp).2.1, (hdescriptor p hp).2.2, (htype p hp).1, (htype p hp).2]
    decide

theorem size_eq : size.toNat = c.routine.ndr + 16 + 8 * c.code.length + (if c.routine.hasState then 8 else 0) +
    4 * (c.state.elim [] Prod.snd).length := by
  rw [h.size, Routine.minRequest_eq]
  split <;> omega

theorem exception_receive : load (x.receive size sent buf) c.routine.exception 32 = c.exception := by
  have hsize := h.size_eq
  rw [h.load_receive x buf (by decide) (by rw [Routine.exception]; omega) (by rw [Routine.exception]; omega),
    h.exception]

theorem codeCnt_receive : load (x.receive size sent buf) c.routine.codeCnt 32 = (.ofNat 32 c.code.length : Word) := by
  have hsize := h.size_eq
  rw [h.load_receive x buf (by decide) (by rw [Routine.codeCnt]; omega) (by rw [Routine.codeCnt]; omega), h.codeCnt]

variable (hfits : c.Fits)
include hfits

theorem codes_receive : c.routine.codes (x.receive size sent buf) = c.code.length := by
  have hle := hfits.1
  rw [Routine.codes, h.codeCnt_receive x buf]
  exact toNat_length (by omega)

theorem codeArg_receive : c.routine.codeArg (x.receive size sent buf) = c.code := by
  have hsize := h.size_eq
  have hcodes : (load (x.receive size sent buf) c.routine.codeCnt 32 : Word).toNat = c.code.length :=
    h.codes_receive x buf hfits
  rw [Routine.codeArg, hcodes, h.loadWords_receive x buf (by decide) (by rw [Routine.code]; omega)
    (by rw [Routine.code]; omega), h.code]

theorem moved_receive (p : Nat) : c.routine.moved (x.receive size sent buf) p = p + 8 * c.code.length - 16 := by
  have hcodes : c.routine.codes (x.receive size sent buf) = c.code.length := h.codes_receive x buf hfits
  rw [Routine.moved, Routine.toNat_delta (by rw [hcodes]; exact hfits.1), hcodes]

theorem state_receive {state : Word × List Word} (hs : state ∈ c.state) :
    c.routine.flavorArg (x.receive size sent buf) = state.1 ∧
      c.routine.oldStateArg (x.receive size sent buf) = state.2 ∧
      c.routine.words (x.receive size sent buf) = state.2.length := by
  have hsize := h.size_eq
  have hwords := hfits.2 state hs
  have hstate : c.routine.hasState = true := by rw [c.hasState_eq, hs]; rfl
  rw [if_pos hstate, show c.state = some state from hs] at hsize
  replace hsize : size.toNat = c.routine.ndr + 16 + 8 * c.code.length + 8 + 4 * state.2.length := hsize
  rcases h.state state hs with ⟨hflavor, hcnt, hold⟩
  have hread : load (x.receive size sent buf) (c.routine.oldStateCnt + 8 * c.code.length - 16) 32 =
      (.ofNat 32 state.2.length : Word) := by
    rw [h.load_receive x buf (by decide) (by rw [Routine.oldStateCnt]; omega)
      (by rw [Routine.oldStateCnt]; omega), hcnt]
  refine ⟨?_, ?_, ?_⟩
  · rw [Routine.flavorArg, h.moved_receive x buf hfits, h.load_receive x buf (by decide)
      (by rw [Routine.flavor]; omega) (by rw [Routine.flavor]; omega), hflavor]
  · rw [Routine.oldStateArg, h.moved_receive x buf hfits, h.moved_receive x buf hfits, hread, toNat_length hwords,
      h.loadWords_receive x buf (by decide) (by rw [Routine.oldState]; omega) (by rw [Routine.oldState]; omega), hold]
  · rw [Routine.words, if_pos hstate, h.codes_receive x buf hfits, hread, toNat_length hwords]

theorem wellFormed_receive : c.routine.WellFormed (x.receive size sent buf) := by
  rcases hfits.length_le with ⟨hcodes, hwords⟩
  have hwordsRead : c.routine.words (x.receive size sent buf) = (c.state.elim [] Prod.snd).length := by
    cases hs : c.state with
    | none =>
      rw [Routine.words, if_neg (by rw [c.hasState_eq, hs]; decide)]; rfl
    | some state => exact (h.state_receive x buf hfits hs).2.2
  have hports : c.routine.hasPorts = true → ∃ ids, ids ∈ c.ports := fun hp =>
    Option.isSome_iff_exists.1 (c.hasPorts_eq ▸ hp)
  have hsize : (msghSize (x.receive size sent buf)).toNat = size.toNat := by rw [Transfer.msghSize_receive]
  refine ⟨⟨?_, fun hp => ?_, ?_, ?_⟩, fun hp => ?_, ?_, ?_, ?_⟩
  · rw [Transfer.complexBit_receive, h.complex]
  · obtain ⟨ids, hids⟩ := hports hp
    exact (h.ports_receive x buf hids).1
  · rw [hsize, h.size]
    omega
  · rw [hsize, h.size]
    exact Routine.add_le_sizeofRequest hcodes hwords
  · obtain ⟨ids, hids⟩ := hports hp
    exact ⟨(h.ports_receive x buf hids).2.2.2 _ (.inl rfl), (h.ports_receive x buf hids).2.2.2 _ (.inr rfl)⟩
  · rw [h.codes_receive x buf hfits]
    exact hcodes
  · rw [hwordsRead]
    exact hwords.trans (by split <;> omega)
  · rw [hsize, h.size, h.codes_receive x buf hfits, hwordsRead]

theorem call_receive : c.routine.call (x.receive size sent buf) = c.rename x.name := by
  have hexception := h.exception_receive x buf
  have hcode := h.codeArg_receive x buf hfits
  cases c with
  | machExceptionRaise thread task exception code =>
    rcases h.ports_receive x buf rfl with ⟨-, hthread, htask, -⟩
    rw [Call.routine, Routine.call, Call.rename, Call.machExceptionRaise.injEq]
    exact ⟨hthread, htask, hexception, hcode⟩
  | machExceptionRaiseState exception code flavor oldState =>
    rcases h.state_receive x buf hfits rfl with ⟨hflavor, hold, -⟩
    rw [Call.routine, Routine.call, Call.rename, Call.machExceptionRaiseState.injEq]
    exact ⟨hexception, hcode, hflavor, hold⟩
  | machExceptionRaiseStateIdentity thread task exception code flavor oldState =>
    rcases h.ports_receive x buf rfl with ⟨-, hthread, htask, -⟩
    rcases h.state_receive x buf hfits rfl with ⟨hflavor, hold, -⟩
    rw [Call.routine, Routine.call, Call.rename, Call.machExceptionRaiseStateIdentity.injEq]
    exact ⟨hthread, htask, hexception, hcode, hflavor, hold⟩

end Packed

/-! ### The reply -/

/-- An outcome that a routine can have: only a routine with a state has something to hand back, and only when it
succeeds. -/
structure Outcome.Proper (r : Routine) (o : Outcome) : Prop where
  out : o.out.isSome = true ↔ r.hasState = true ∧ o.ret = machMsgSuccess
  counted : ∀ out ∈ o.out, out.newState.length ≤ 224 ∧ out.newStateCnt.toNat = out.newState.length

theorem Catch.proper_perform {σ : Type*} (catchFns : Catch σ) (port : Word) (c : Call) (s : σ) :
    (catchFns.perform port c s).1.Proper c.routine := by
  have hstate : ∀ (r : Routine) (c : CatchReturn), r.hasState = true → c.outcome.Proper r := by
    intro r c hr
    unfold CatchReturn.outcome
    by_cases hret : c.ret = machMsgSuccess
    · rw [if_pos hret]
      refine ⟨by simp [hr, hret], fun out hout => ?_⟩
      obtain rfl := Option.some.inj hout
      exact ⟨c.room, c.counted hret⟩
    · rw [if_neg hret]
      exact ⟨by simp [hret], fun _ hout => by cases hout⟩
  cases c with
  | machExceptionRaise => exact ⟨by simp [perform, Call.routine, Routine.hasState], fun _ hout => by cases hout⟩
  | machExceptionRaiseState => exact hstate _ _ rfl
  | machExceptionRaiseStateIdentity => exact hstate _ _ rfl

namespace Carries
variable {o : Outcome} {reply : Message} {r : Routine} (h : Carries o reply) (hproper : o.Proper r)
include h hproper

theorem toNat_size : (msghSize reply).toNat = match o.out with
    | none => 36
    | some out => 44 + 4 * out.newState.length := by
  rw [h.size]
  cases hout : o.out with
  | none => rfl
  | some out =>
    rcases hproper.counted out hout with ⟨hlen, hcnt⟩
    have h4 : (4 : Word).toNat = 4 := rfl
    have h44 : (44 : Word).toNat = 44 := rfl
    show (44 + 4 * out.newStateCnt : Word).toNat = _
    rw [toNat_add_mul (by rw [h44, h4, hcnt]; omega), h44, h4, hcnt]

variable (hcomplex : complexBit reply = false) (y : Transfer) (buf : Message)
include hcomplex

theorem retCode_receive : retCode (y.receive (msghSize reply) reply buf) = o.ret := by
  have hsize := h.toNat_size hproper
  rw [← h.ret]
  refine Transfer.load_receive_of_simple hcomplex (by decide) (by decide) ?_
  rw [hsize]
  split <;> omega

theorem out_receive {out : StateOut} (hout : out ∈ o.out) :
    replyFlavor (y.receive (msghSize reply) reply buf) = out.flavor ∧
      newStateCnt (y.receive (msghSize reply) reply buf) = out.newStateCnt ∧
      newState (y.receive (msghSize reply) reply buf) out.newState.length = out.newState := by
  have hsize := h.toNat_size hproper
  rw [show o.out = some out from hout] at hsize
  replace hsize : (msghSize reply).toNat = 44 + 4 * out.newState.length := hsize
  rcases h.out out hout with ⟨hflavor, hcnt, hstate⟩
  refine ⟨hflavor ▸ ?_, hcnt ▸ ?_, ?_⟩
  · exact Transfer.load_receive_of_simple hcomplex (by decide) (by decide) (by omega)
  · exact Transfer.load_receive_of_simple hcomplex (by decide) (by decide) (by omega)
  · exact (Transfer.loadWords_receive_of_simple hcomplex (by decide) (by decide) (by omega)).trans hstate

end Carries

/-- The stubs take an outcome out of the reply as it was put in. -/
theorem finish_receive {o : Outcome} {reply : Message} {r : Routine} (h : Carries o reply) (hproper : o.Proper r)
    (hcomplex : complexBit reply = false) (hid : msghId reply = r.replyId) (y : Transfer) (buf : Message) :
    r.finish (y.receive (msghSize reply) reply buf) = o := by
  have hret := h.retCode_receive hproper hcomplex y buf
  have hsize := h.toNat_size hproper
  have hidR : msghId (y.receive (msghSize reply) reply buf) = r.replyId := by
    rw [Transfer.msghId_receive, hid]
  have hcomplexR : complexBit (y.receive (msghSize reply) reply buf) = false := by
    rw [Transfer.complexBit_receive, hcomplex]
  have hsizeR : msghSize (y.receive (msghSize reply) reply buf) = msghSize reply := Transfer.msghSize_receive
  have hout := hproper.out
  rw [Routine.finish_eq]
  by_cases hzero : o.ret = machMsgSuccess
  · rcases o with ⟨ret, out⟩
    obtain rfl : ret = machMsgSuccess := hzero
    cases out with
    | none =>
      have hs : r.hasState = false := by simpa using hout
      have hfits : r.ReplyFits (y.receive (msghSize reply) reply buf) := by
        refine ⟨hidR, hcomplexR, hret, fun h => absurd h (by simp [hs]), ?_⟩
        rw [hsizeR, hsize, hs]
        rfl
      rw [if_pos (Routine.checkReply_eq_success_iff.2 hfits), hs]
      rfl
    | some out =>
      have hs : r.hasState = true := (hout.1 rfl).1
      rcases hproper.counted out rfl with ⟨hlen, hcnt⟩
      rcases h.out_receive hproper hcomplex y buf rfl with ⟨hflavor, hcntR, hstate⟩
      have hfits : r.ReplyFits (y.receive (msghSize reply) reply buf) := by
        refine ⟨hidR, hcomplexR, hret, fun _ => by rw [hcntR, hcnt]; exact hlen, ?_⟩
        rw [hsizeR, hsize, if_pos hs, hcntR, hcnt]
      rw [if_pos (Routine.checkReply_eq_success_iff.2 hfits), if_pos hs, Routine.stateOut, hflavor, hcntR, hcnt,
        hstate]
  · have hnone : o.out = none := by
      cases ho : o.out with
      | none => rfl
      | some out => exact absurd (hout.1 (by rw [ho]; rfl)).2 hzero
    have hcheck : r.checkReply (y.receive (msghSize reply) reply buf) = o.ret := by
      rw [← hret]
      refine Routine.checkReply_of_error hidR hcomplexR (hret ▸ hzero) ?_
      rw [hsizeR, hsize, hnone]
    rw [hcheck, if_neg hzero, ← hnone]

/-! ### The call -/

theorem Routine.ofId_requestId (r : Routine) : Routine.ofId r.requestId = some r := by cases r <;> rfl

theorem Routine.ofId_eq_some_iff {id : Word} {r : Routine} : Routine.ofId id = some r ↔ id = r.requestId := by
  refine ⟨fun h => ?_, fun h => h ▸ r.ofId_requestId⟩
  unfold Routine.ofId at h
  split_ifs at h with h5 h6 h7
  · rw [h5, ← Option.some.inj h]; rfl
  · rw [h6, ← Option.some.inj h]; rfl
  · rw [h7, ← Option.some.inj h]; rfl

variable {σ : Type*} {catchFns : Catch σ} {s : σ}

/-- What the server replies to the request of `c`, and what the client stub takes out of the reply. -/
theorem respond_receive (h : Packed c replyPort sent size) (hfits : c.Fits) (x : Transfer) (buf : Message) (s : σ) :
    catchFns.respond (x.receive size sent buf) s = catchFns.perform x.localPort (c.rename x.name) s := by
  have hid : Routine.ofId (msghId (x.receive size sent buf)) = some c.routine := by
    rw [Transfer.msghId_receive, h.id, Routine.ofId_requestId]
  rw [respond_eq hid, if_pos (Routine.check_eq_success_iff.2 (h.wellFormed_receive x buf hfits)),
    h.call_receive x buf hfits, Transfer.msghLocalPort_receive]

theorem complexBit_of_answersTo {request reply : Message} (h : AnswersTo request reply) :
    complexBit reply = false := by
  rw [Transfer.complexBit_eq, h.bits, machMsghBitsRemote, BitVec.getLsbD_and]
  exact Bool.and_false _

theorem finish_reply (h : Packed c replyPort sent size) (hfits : c.Fits) (x y : Transfer) (buf out buf' : Message)
    (s : σ) : let reply := (machExcServer catchFns (x.receive size sent buf) out s).2.1
    c.routine.finish (y.receive (msghSize reply) reply buf') =
      (catchFns.perform x.localPort (c.rename x.name) s).1 := by
  rcases machExcServer_spec catchFns (x.receive size sent buf) out s with ⟨-, -, hcarries, hanswers⟩
  rw [respond_receive h hfits] at hcarries
  have hrename : (c.rename x.name).routine = c.routine := by cases c <;> rfl
  have hproper := catchFns.proper_perform x.localPort (c.rename x.name) s
  rw [hrename] at hproper
  refine finish_receive hcarries hproper (complexBit_of_answersTo hanswers) ?_ y buf'
  rw [hanswers.id, Transfer.msghId_receive, h.id, Routine.replyId]

/-- A call arrives as it was made, in the names of the receiver, whatever was in the two buffers before; nothing is
sent if its arrays do not fit. -/
theorem request_received (c : Call) (exceptionPort replyPort : Word) (mess buf : Message) (x : Transfer) :
    match c.request exceptionPort replyPort mess with
    | none => ¬c.Fits
    | some (sent, size) =>
      c.Fits ∧ Routine.ofId (msghId (x.receive size sent buf)) = some c.routine ∧
        c.routine.check (x.receive size sent buf) = machMsgSuccess ∧
        c.routine.call (x.receive size sent buf) = c.rename x.name := by
  cases h : c.request exceptionPort replyPort mess with
  | none => exact Call.request_eq_none_iff.1 h
  | some inP =>
    rcases Call.request_spec h with ⟨hfits, hpacked⟩
    refine ⟨hfits, ?_, Routine.check_eq_success_iff.2 (hpacked.wellFormed_receive x buf hfits),
      hpacked.call_receive x buf hfits⟩
    rw [Transfer.msghId_receive, hpacked.id, Routine.ofId_requestId]

/-! ### `mach_msg_server_once` -/

/-- What the library does with a request: one that is larger than `maxSize` is not received, and lost. Else the
demultiplexer answers it, and the reply is sent if it has somewhere to go, unless it is simple and says that there is
none. What is thrown in the demultiplexer leaves this function too. -/
def machMsgServerOnce {σ : Type*} (demux : Message → Message → σ → Bool × Message × σ) (returned : σ → Bool)
    (maxSize : Nat) (request out : Message) (s : σ) : Option Message × σ :=
  if maxSize < (msghSize request).toNat then (none, s)
  else
    let (_, reply, s) := demux request out s
    if returned s = false then (none, s)
    else if !complexBit reply ∧ retCode reply = migNoReply ∨ msghRemotePort reply = 0 then (none, s)
    else (some reply, s)

/-- A turn of the loop of `server_thread`. -/
def Catch.serveOnce (catchFns : Catch σ) (request out : Message) (s : σ) : Option Message × σ :=
  machMsgServerOnce (machExcServer catchFns) catchFns.returned 4096 request out s

/-- What `mach_msg` brings back to a client for the request in `inP`, once it has been to the server. -/
def Catch.exchange (catchFns : Catch σ) (x y : Transfer) (buf out : Message) (s : σ) (inP : Message) (size : Word) :
    Option Message × σ :=
  let (reply, s) := catchFns.serveOnce (x.receive size inP buf) out s
  (reply.map fun reply => y.receive (msghSize reply) reply inP, s)

theorem serveOnce_tooLarge {request out : Message} (hsize : 4096 < (msghSize request).toNat) :
    catchFns.serveOnce request out s = (none, s) := if_pos hsize

theorem serveOnce_spec (catchFns : Catch σ) (request out : Message) (s : σ) (hsize : (msghSize request).toNat ≤ 4096) :
    (catchFns.serveOnce request out s).2 = (catchFns.respond request s).2 ∧
      (∀ reply ∈ (catchFns.serveOnce request out s).1, reply = (machExcServer catchFns request out s).2.1) ∧
      ((catchFns.serveOnce request out s).1 = none ↔
        (catchFns.respond request s).1.ret = migNoReply ∨ msghRemotePort request = 0 ∨
          catchFns.returned (catchFns.respond request s).2 = false) := by
  rcases machExcServer_spec catchFns request out s with ⟨-, hstate, hcarries, hanswers⟩
  have hsimple := complexBit_of_answersTo hanswers
  rw [Catch.serveOnce, machMsgServerOnce, if_neg (Nat.not_lt.2 hsize)]
  simp only [hsimple, hcarries.ret, hanswers.remotePort, hstate, Bool.not_false, true_and]
  by_cases hreturned : catchFns.returned (catchFns.respond request s).2 = false
  · rw [if_pos hreturned]
    exact ⟨rfl, fun _ hr => (by cases hr), iff_of_true rfl (.inr (.inr hreturned))⟩
  rw [if_neg hreturned, or_iff_left hreturned]
  split_ifs with h
  · exact ⟨rfl, fun _ hr => (by cases hr), iff_of_true rfl h⟩
  · exact ⟨rfl, fun _ hr => (Option.some.inj hr).symm, iff_of_false (by simp) h⟩

/-- The requests of the stubs are never too large. -/
theorem Packed.size_receive_le (h : Packed c replyPort sent size) (hfits : c.Fits) (x : Transfer) (buf : Message) :
    (msghSize (x.receive size sent buf)).toNat ≤ 4096 := by
  have hmost := (h.wellFormed_receive x buf hfits).head.most
  have hlt := c.routine.sizeofRequest_lt
  omega

/-- A client stub whose request gets to the server returns what the catch function returned for its arguments, and
the catch function was called once. It waits for ever if there is no reply. -/
theorem exchange_eq_perform (catchFns : Catch σ) (c : Call) (exceptionPort replyPort : Word) (mess buf out : Message)
    (x y : Transfer) (s : σ) : match c.request exceptionPort replyPort mess with
    | none => ¬c.Fits
    | some (inP, size) =>
      (catchFns.exchange x y buf out s inP size).2 = (catchFns.perform x.localPort (c.rename x.name) s).2 ∧
      (∀ mess' ∈ (catchFns.exchange x y buf out s inP size).1,
        c.invoke (fun _ _ => (machMsgSuccess, mess')) exceptionPort replyPort mess =
          (catchFns.perform x.localPort (c.rename x.name) s).1) ∧
      ((catchFns.exchange x y buf out s inP size).1 = none ↔
        (catchFns.perform x.localPort (c.rename x.name) s).1.ret = migNoReply ∨ x.remotePort = 0 ∨
          catchFns.returned (catchFns.perform x.localPort (c.rename x.name) s).2 = false) := by
  cases h : c.request exceptionPort replyPort mess with
  | none => exact Call.request_eq_none_iff.1 h
  | some request =>
    rcases request with ⟨inP, size⟩
    rcases Call.request_spec h with ⟨hfits, hpacked⟩
    rcases serveOnce_spec catchFns (x.receive size inP buf) out s (hpacked.size_receive_le hfits x buf) with
      ⟨hstate, hreply, hnone⟩
    rw [respond_receive hpacked hfits] at hstate hnone
    rw [Transfer.msghRemotePort_receive] at hnone
    refine ⟨hstate, fun mess' hmess' => ?_, ?_⟩
    · obtain ⟨reply, hr, rfl⟩ := Option.map_eq_some_iff.1 hmess'
      obtain rfl := hreply reply hr
      rw [Call.invoke, h]
      exact finish_reply hpacked hfits x y buf out inP s
    · rw [← hnone]
      exact Option.map_eq_none_iff

end MasterLib
