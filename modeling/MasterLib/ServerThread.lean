import MasterLib.ExcCall
import MasterLib.FaultingThread

/-!
# `server_thread`

The catch functions of the program, and the loop that serves the messages at the exception port with them. Anybody who
has a send right to the port can send to it, so the messages are of any bytes at all. What a callback throws is caught
nowhere: it ends the program in the middle of a turn, and the loop with it.
-/

namespace MasterLib
open LittleEndian

variable {b : Build} {env : Env} {c : ExceptionHandler × Session b} {m : Message} {lookup : ExceptionHandler → Lookup}

/-! ### The catch functions -/

/-- `catch_mach_exception_raise`; `lookup` is what this call finds of the process. If the callback throws nothing is
returned, and the word means nothing. -/
def catchMachExceptionRaise (env : Env) (lookup : ExceptionHandler → Lookup) (thread task type : Word)
    (c : ExceptionHandler × Session b) : Word × ExceptionHandler × Session b :=
  let exception : Exception := ⟨thread.toNat, task.toNat, type.toInt⟩
  let (kr, c) := c.2.exceptionCallback env (lookup c.1) c.1 exception
  (.ofInt 32 (kr.getD kernFailure), c)

/-- The other two: `KERN_FAILURE`, and nothing behind the pointers is written. -/
def catchMachExceptionRaiseState (flavor : Word) : CatchReturn where
  ret := .ofInt 32 kernFailure
  out := ⟨flavor, [], 224⟩
  room := Nat.zero_le _
  counted h := absurd h (by decide)

def catchFunctions (env : Env) (lookup : ExceptionHandler → Lookup) : Catch (ExceptionHandler × Session b) where
  returned c := !c.2.terminated
  catchMachExceptionRaise _ thread task exception _ := catchMachExceptionRaise env lookup thread task exception
  catchMachExceptionRaiseState _ _ _ flavor _ c := (catchMachExceptionRaiseState flavor, c)
  catchMachExceptionRaiseStateIdentity _ _ _ _ _ flavor _ c := (catchMachExceptionRaiseState flavor, c)

theorem fst_exceptionCallback (env : Env) (s : Session b) (lookup : Lookup) (handler : ExceptionHandler)
    (exception : Exception) :
    (s.exceptionCallback env lookup handler exception).1.getD kernFailure =
      if (s.caught env lookup exception).isSome ∧ ¬s.Throws env lookup exception then kernSuccess else kernFailure := by
  rcases Session.exceptionCallback_cases env lookup exception s with
    htype | ⟨htype, hc⟩ | ⟨p, state, hc, hthrown | ⟨left, hleft⟩⟩
  · rw [Session.exceptionCallback_foreign htype]
    refine (if_neg fun h => ?_).symm
    obtain ⟨_, hc⟩ := Option.isSome_iff_exists.1 h.1
    exact htype (Session.caught_type hc)
  · rw [Session.exceptionCallback_uncaught htype hc, hc]
    exact (if_neg fun h => by cases h.1).symm
  · rw [Session.exceptionCallback_thrown hc hthrown]
    exact (if_neg fun h => h.2 ⟨p, state, hc, hthrown⟩).symm
  · rw [Session.exceptionCallback_served hc hleft, hc]
    exact (if_pos ⟨rfl, Session.not_throws hc hleft⟩).symm

theorem exceptionHistory_exceptionCallback {s : Session b} {lookup : Lookup} {handler : ExceptionHandler}
    {exception : Exception} : (s.exceptionCallback env lookup handler exception).2.1.exceptionHistory =
      handler.exceptionHistory ++ [exception] := by
  rcases Session.exceptionCallback_cases env lookup exception s with
    htype | ⟨htype, hc⟩ | ⟨p, state, hc, hthrown | ⟨left, hleft⟩⟩
  · rw [Session.exceptionCallback_foreign htype]
  · rw [Session.exceptionCallback_uncaught htype hc]
  · rw [Session.exceptionCallback_thrown hc hthrown]
  · rw [Session.exceptionCallback_served hc hleft]

theorem terminated_exceptionCallback (env : Env) (s : Session b) (lookup : Lookup) (handler : ExceptionHandler)
    (exception : Exception) : (s.exceptionCallback env lookup handler exception).2.2.terminated = true ↔
      s.Throws env lookup exception ∨ s.terminated = true := by
  rcases Session.exceptionCallback_cases env lookup exception s with
    htype | ⟨htype, hc⟩ | ⟨p, state, hc, hthrown | ⟨left, hleft⟩⟩
  · have hnot : ¬s.Throws env lookup exception := fun ⟨_, _, hc, _⟩ => htype (Session.caught_type hc)
    rw [Session.exceptionCallback_foreign htype]
    exact (or_iff_right hnot).symm
  · have hnot : ¬s.Throws env lookup exception := fun ⟨_, _, hc', _⟩ => by rw [hc] at hc'; cases hc'
    rw [Session.exceptionCallback_uncaught htype hc]
    exact (or_iff_right hnot).symm
  · rw [Session.exceptionCallback_thrown hc hthrown]
    exact iff_of_true rfl (.inl ⟨p, state, hc, hthrown⟩)
  · rw [Session.exceptionCallback_served hc hleft]
    exact (or_iff_right (Session.not_throws hc hleft)).symm

theorem Breakpoint.callback_reset (bp : Breakpoint b) (t : Task b) : (bp.reset env t).2.1.callback = bp.callback := by
  cases bp with
  | software bp =>
    show (bp.reset env t).2.1.callback = bp.callback
    rw [SoftwareBreakpoint.reset_eq]
    rfl
  | x86_64Hardware bp =>
    rcases X86_64HardwareBreakpoint.resetLoop_obj env bp (t.threadsExcept env.self) t.calls with
      ⟨-, active, hobj, -⟩
    exact congrArg (fun bp => bp.callback) hobj
  | armv7Hardware bp => rfl

/-- The program runs, and no callback throws whatever state it is called with. -/
def Session.Quiet (s : Session b) : Prop :=
  s.terminated = false ∧ ∀ p state, outcome (s.heap p).callback state ≠ none

theorem Session.Quiet.exceptionCallback {s : Session b} (h : s.Quiet) {lookup : Lookup} {handler : ExceptionHandler}
    {exception : Exception} : (s.exceptionCallback env lookup handler exception).2.2.Quiet := by
  rcases Session.exceptionCallback_cases env lookup exception s with
    htype | ⟨htype, hc⟩ | ⟨p, state, hc, hthrown | ⟨left, hleft⟩⟩
  · rw [Session.exceptionCallback_foreign htype]
    exact h
  · rw [Session.exceptionCallback_uncaught htype hc]
    exact h
  · exact absurd hthrown (h.2 p state)
  · rw [Session.exceptionCallback_served hc hleft]
    rcases Session.exists_callReset env exception.thread p left s with ⟨s₁, heq, hheap, -⟩
    refine ⟨h.1, fun q state' => ?_⟩
    have hcallback : (((s₁.callReset env p).2.resume exception.thread).heap q).callback = (s.heap q).callback := by
      rw [← hheap]
      by_cases hqp : q = p
      · subst hqp
        exact (congrArg Breakpoint.callback heap_callReset_self).trans (Breakpoint.callback_reset ..)
      · exact congrArg Breakpoint.callback (heap_callReset_of_ne hqp)
    rw [heq, hcallback]
    exact h.2 q state'

/-- Every call is answered: none of the functions returns `MIG_NO_REPLY`. -/
theorem ret_perform_catchFunctions (env : Env) (lookup : ExceptionHandler → Lookup) (port : Word) (call : Call)
    (c : ExceptionHandler × Session b) :
    ((catchFunctions env lookup).perform port call c).1.ret = machMsgSuccess ∨
      ((catchFunctions env lookup).perform port call c).1.ret = .ofInt 32 kernFailure := by
  cases call with
  | machExceptionRaise thread task exception code =>
    have hret := fst_exceptionCallback env c.2 (lookup c.1) c.1 ⟨thread.toNat, task.toNat, exception.toInt⟩
    split at hret
    · exact .inl (congrArg (BitVec.ofInt 32) hret)
    · exact .inr (congrArg (BitVec.ofInt 32) hret)
  | machExceptionRaiseState => exact .inr rfl
  | machExceptionRaiseStateIdentity => exact .inr rfl

/-! ### One message -/

instance {r : Routine} : DecidablePred r.WellFormed := fun _ => decidable_of_iff _ Routine.check_eq_success_iff

/-- The exception that a message reports to the program: only a proper request of `mach_exception_raise` does. -/
def raised (m : Message) : Option Exception :=
  if msghId m = 2405 ∧ Routine.machExceptionRaise.WellFormed m then
    some ⟨(load m threadDescriptor 32 : Word).toNat, (load m taskDescriptor 32 : Word).toNat,
      (load m Routine.machExceptionRaise.exception 32 : Word).toInt⟩
  else none

/-- What is replied to all other messages. -/
def refusal (m : Message) : Word :=
  match Routine.ofId (msghId m) with
  | none => migBadId
  | some r => if r.check m = machMsgSuccess then .ofInt 32 kernFailure else r.check m

theorem refusal_ne (m : Message) : refusal m ≠ machMsgSuccess ∧ refusal m ≠ migNoReply := by
  unfold refusal
  cases Routine.ofId (msghId m) with
  | none =>
    show migBadId ≠ machMsgSuccess ∧ migBadId ≠ migNoReply
    decide
  | some r =>
    by_cases hcheck : r.check m = machMsgSuccess
    · simp only [if_pos hcheck]
      decide
    · simp only [if_neg hcheck]
      refine ⟨hcheck, ?_⟩
      by_cases hhead : r.HeadFits m
      swap
      · rw [Routine.check_of_not_headFits hhead]
        decide
      by_cases hrights : r.SendRights m
      swap
      · rw [Routine.check_of_not_sendRights hhead hrights]
        decide
      rw [Routine.check_of_sendRights hhead hrights] at hcheck ⊢
      rcases r.checkArrays_eq m (msghSize m) with h | h
      · exact absurd h hcheck
      · rw [h]
        decide

theorem respond_catchFunctions : (catchFunctions env lookup).respond m c =
    match raised m with
    | none => (⟨refusal m, none⟩, c)
    | some exception =>
      let r := c.2.exceptionCallback env (lookup c.1) c.1 exception
      (⟨.ofInt 32 (r.1.getD kernFailure), none⟩, r.2) := by
  cases hr : Routine.ofId (msghId m) with
  | none =>
    have hid : msghId m ≠ 2405 := by
      intro h
      rw [h] at hr; cases hr
    simp only [Catch.respond, raised, if_neg fun h : _ ∧ _ => hid h.1, refusal, hr]
  | some r =>
    rw [respond_eq hr]
    by_cases hcheck : r.check m = machMsgSuccess
    swap
    · have hraised : raised m = none := by
        refine if_neg fun h => hcheck ?_
        rw [h.1] at hr
        obtain rfl := Option.some.inj hr
        exact Routine.check_eq_success_iff.2 h.2
      simp only [if_neg hcheck, hraised, refusal, hr]
    have hne : r ≠ .machExceptionRaise → raised m = none := by
      refine fun hne => if_neg fun h => hne ?_
      rw [h.1] at hr
      exact (Option.some.inj hr).symm
    rw [if_pos hcheck]
    cases r with
    | machExceptionRaise =>
      have hid : msghId m = 2405 := Routine.ofId_eq_some_iff.1 hr
      rw [raised, if_pos ⟨hid, Routine.check_eq_success_iff.1 hcheck⟩]
      rfl
    | machExceptionRaiseState =>
      rw [hne (by decide)]
      simp only [refusal, hr, if_pos hcheck]
      rfl
    | machExceptionRaiseStateIdentity =>
      rw [hne (by decide)]
      simp only [refusal, hr, if_pos hcheck]
      rfl

/-- A request that is too large to be received is not a proper one. -/
theorem raised_of_tooLarge (hsize : 4096 < (msghSize m).toNat) : raised m = none := by
  refine if_neg fun h => ?_
  have hmost := h.2.head.most
  have hlt := Routine.machExceptionRaise.sizeofRequest_lt
  omega

/-! ### The loop -/

/-- A message and the buffer its reply is written into; what has been done to the session since the message before it,
which is anything that leaves the suspend counts alone and does not bring the program back; and what is found of the
process. -/
structure Arrival (b : Build) where
  before : Session b → Session b
  suspendCounts_before : ∀ s, (before s).suspendCounts = s.suspendCounts
  terminated_before : ∀ s, s.terminated = true → (before s).terminated = true
  lookup : Lookup
  request : Message
  out : Message

namespace Arrival

/-- Where the message finds the session. -/
def found (d : Arrival b) (c : ExceptionHandler × Session b) : Session b := d.before c.2

/-- One turn of the loop, and the reply that is sent; there is none once the program has ended. -/
def serve (env : Env) (d : Arrival b) (c : ExceptionHandler × Session b) :
    Option Message × ExceptionHandler × Session b :=
  if (d.found c).terminated then (none, c.1, d.found c)
  else (catchFunctions env fun _ => d.lookup).serveOnce d.request d.out (c.1, d.found c)

def delivery (d : Arrival b) (exception : Exception) : Session.Delivery b :=
  ⟨d.before, d.suspendCounts_before, d.lookup, exception⟩

/-- The callback that the message leads to throws. -/
def Throws (env : Env) (d : Arrival b) (c : ExceptionHandler × Session b) : Prop :=
  ∃ exception ∈ raised d.request, (d.found c).Throws env d.lookup exception

/-- The code in the reply. -/
def answer (env : Env) (d : Arrival b) (c : ExceptionHandler × Session b) : Word :=
  match raised d.request with
  | none => refusal d.request
  | some exception =>
    if ((d.found c).caught env d.lookup exception).isSome then machMsgSuccess else .ofInt 32 kernFailure

variable {d : Arrival b}

theorem respond_found (env : Env) (hlive : (d.found c).terminated = false) :
    ((catchFunctions env fun _ => d.lookup).respond d.request (c.1, d.found c)).2 =
      (match raised d.request with
        | none => (c.1, d.found c)
        | some exception => Session.deliver env c (d.delivery exception)) ∧
    (¬d.Throws env c →
      ((catchFunctions env fun _ => d.lookup).respond d.request (c.1, d.found c)).1 = ⟨d.answer env c, none⟩) ∧
    ((catchFunctions env fun _ => d.lookup).respond d.request (c.1, d.found c)).1.ret ≠ migNoReply ∧
    ((catchFunctions env fun _ => d.lookup).returned
        ((catchFunctions env fun _ => d.lookup).respond d.request (c.1, d.found c)).2 = false ↔ d.Throws env c) := by
  rw [respond_catchFunctions, answer, Throws]
  cases raised d.request with
  | none =>
    refine ⟨rfl, fun _ => rfl, (refusal_ne _).2, iff_of_false (fun h => ?_) (by rintro ⟨_, ⟨⟩, -⟩)⟩
    rw [show Catch.returned _ (c.1, d.found c) = !(d.found c).terminated from rfl, hlive] at h
    cases h
  | some exception =>
    have hthrows : (∃ e ∈ some exception, (d.found c).Throws env d.lookup e) ↔
        (d.found c).Throws env d.lookup exception :=
      ⟨fun ⟨e, he, h⟩ => Option.some.inj he ▸ h, fun h => ⟨exception, rfl, h⟩⟩
    have hret := fst_exceptionCallback env (d.found c) d.lookup c.1 exception
    have hterminated := terminated_exceptionCallback env (d.found c) d.lookup c.1 exception
    rw [hlive, or_iff_left Bool.false_ne_true] at hterminated
    rw [hthrows]
    have hbefore : ¬((d.delivery exception).before c.2).terminated = true := by
      rw [show (d.delivery exception).before c.2 = d.found c from rfl, hlive]; decide
    refine ⟨(if_neg hbefore).symm, ?_, ?_, ?_⟩
    · intro hnot
      simp only [hret, hnot, not_false_iff, and_true]
      split <;> rfl
    · simp only [hret]
      split <;> decide
    · have hnot : ∀ ended : Bool, (!ended) = false ↔ ended = true := by decide
      exact (hnot _).trans
        hterminated

theorem serve_snd (env : Env) (d : Arrival b) (c : ExceptionHandler × Session b) : (d.serve env c).2 =
    match raised d.request with
    | none => (c.1, d.found c)
    | some exception => Session.deliver env c (d.delivery exception) := by
  rw [serve]
  by_cases hlive : (d.found c).terminated = true
  · rw [if_pos hlive]
    cases raised d.request with
    | none => rfl
    | some exception => exact (if_pos hlive).symm
  rw [if_neg hlive]
  by_cases hsize : 4096 < (msghSize d.request).toNat
  · rw [serveOnce_tooLarge hsize, raised_of_tooLarge hsize]
  · exact (serveOnce_spec _ _ _ _ (Nat.not_lt.1 hsize)).1.trans (respond_found env (by simpa using hlive)).1

/-- The reply to `request`: of the least size, with `code` and with nothing else in it. -/
structure Replied (request reply : Message) (code : Word) : Prop where
  answers : AnswersTo request reply
  size : msghSize reply = .ofNat 32 sizeofReplyError
  code : retCode reply = code

theorem serve_fst (env : Env) (d : Arrival b) (hlive : (d.found c).terminated = false) :
    ((d.serve env c).1 = none ↔
        4096 < (msghSize d.request).toNat ∨ msghRemotePort d.request = 0 ∨ d.Throws env c) ∧
      ∀ reply ∈ (d.serve env c).1, Replied d.request reply (d.answer env c) := by
  rw [serve, if_neg (by rw [hlive]; decide)]
  by_cases hsize : 4096 < (msghSize d.request).toNat
  · rw [serveOnce_tooLarge hsize]
    exact ⟨iff_of_true rfl (.inl hsize), fun _ hr => by cases hr⟩
  have hfits := Nat.not_lt.1 hsize
  rcases serveOnce_spec (catchFunctions env fun _ => d.lookup) d.request d.out (c.1, d.found c) hfits with
    ⟨-, hreply, hnone⟩
  rcases machExcServer_spec (catchFunctions env fun _ => d.lookup) d.request d.out (c.1, d.found c) with
    ⟨-, -, hcarries, hanswers⟩
  rcases respond_found env hlive with ⟨-, hanswer, hne, hthrows⟩
  rw [hthrows, or_iff_right hne] at hnone
  refine ⟨by rw [hnone, or_iff_right hsize], fun reply hr => ?_⟩
  have hnot : ¬d.Throws env c := fun h => by
    rw [hnone.2 (.inr h)] at hr
    cases hr
  rw [hanswer hnot] at hcarries
  rw [hreply reply hr]
  exact ⟨hanswers, hcarries.size, hcarries.ret⟩

theorem serve_exceptionHistory (hlive : (d.found c).terminated = false) : (d.serve env c).2.1.exceptionHistory =
    c.1.exceptionHistory ++ (raised d.request).toList := by
  rw [serve_snd]
  cases raised d.request with
  | none => exact (List.append_nil _).symm
  | some exception =>
    show (Session.deliver env c (d.delivery exception)).1.exceptionHistory = _
    rw [Session.deliver, if_neg (by rw [show (d.delivery exception).before c.2 = d.found c from rfl, hlive]; decide)]
    exact exceptionHistory_exceptionCallback

theorem serve_of_terminated (h : (d.found c).terminated = true) : d.serve env c = (none, c.1, d.found c) := if_pos h

theorem serve_throws (hlive : (d.found c).terminated = false) (h : d.Throws env c) :
    (d.serve env c).2.2.terminated = true := by
  rcases h with ⟨exception, hraised, hthrows⟩
  rw [serve_snd, show raised d.request = some exception from hraised]
  show (Session.deliver env c (d.delivery exception)).2.terminated = true
  rw [Session.deliver, if_neg (by rw [show (d.delivery exception).before c.2 = d.found c from rfl, hlive]; decide)]
  exact (terminated_exceptionCallback ..).2 (.inl hthrows)

/-- The message suspends no thread for good: it raises no exception, or one after which its thread is resumed. -/
def Harmless (env : Env) (c : ExceptionHandler × Session b) (d : Arrival b) : Prop :=
  ∀ exception ∈ raised d.request, Session.Resumes env c (d.delivery exception)

theorem suspendCounts_serve : (d.serve env c).2.2.suspendCounts = c.2.suspendCounts ↔ d.Harmless env c := by
  rw [serve_snd, Harmless]
  cases raised d.request with
  | none => exact iff_of_true (d.suspendCounts_before c.2) (by simp)
  | some exception =>
    have hdeliver : (Session.deliver env c (d.delivery exception)).2.suspendCounts = c.2.suspendCounts ↔
        Session.Resumes env c (d.delivery exception) := Session.suspendCounts_deliver
    simpa using hdeliver

end Arrival

/-- The loop of `server_thread` while messages arrive, with the replies that are sent, one entry a turn. Once the
program has ended there are no turns. -/
def serverThread (env : Env) : List (Arrival b) → ExceptionHandler × Session b →
    List (Option Message) × ExceptionHandler × Session b
  | [], c => ([], c)
  | d :: ds, c =>
    let (reply, c') := d.serve env c
    let (replies, c'') := serverThread env ds c'
    (if (d.found c).terminated then replies else reply :: replies, c'')

section
variable {ds : List (Arrival b)}

theorem serverThread_append (env : Env) (ds ds' : List (Arrival b)) (c : ExceptionHandler × Session b) :
    serverThread env (ds ++ ds') c =
      ((serverThread env ds c).1 ++ (serverThread env ds' (serverThread env ds c).2).1,
        (serverThread env ds' (serverThread env ds c).2).2) := by
  induction ds generalizing c with
  | nil => rfl
  | cons d ds ih =>
    simp only [List.cons_append, serverThread, ih]
    split <;> rfl

theorem serverThread_terminated (env : Env) (ds : List (Arrival b)) (h : c.2.terminated = true) :
    (serverThread env ds c).1 = [] ∧
    (serverThread env ds c).2.1 = c.1 ∧ (serverThread env ds c).2.2.terminated = true := by
  induction ds generalizing c with
  | nil => exact ⟨rfl, rfl, h⟩
  | cons d ds ih =>
    have hfound : (d.found c).terminated = true := d.terminated_before c.2 h
    simp only [serverThread, Arrival.serve_of_terminated hfound, if_pos hfound]
    exact ih hfound

theorem serverThread_cons_terminated (env : Env) (ds : List (Arrival b)) {d : Arrival b}
    (h : (d.found c).terminated = true) :
    (serverThread env (d :: ds) c).1 = [] ∧ (serverThread env (d :: ds) c).2.1 = c.1 ∧
      (serverThread env (d :: ds) c).2.2.terminated = true := by
  simp only [serverThread, Arrival.serve_of_terminated h, if_pos h]
  exact serverThread_terminated env ds h

/-- The turns are as many as the messages, unless the program has ended. -/
theorem length_serverThread : (serverThread env ds c).1.length ≤ ds.length ∧
    ((serverThread env ds c).2.2.terminated = false → (serverThread env ds c).1.length = ds.length) := by
  induction ds generalizing c with
  | nil => exact ⟨Nat.le_refl _, fun _ => rfl⟩
  | cons d ds ih =>
    by_cases hfound : (d.found c).terminated = true
    · rcases serverThread_cons_terminated env ds hfound with ⟨hnil, -, hend⟩
      rw [hnil, hend]
      exact ⟨Nat.zero_le _, fun h => by cases h⟩
    · simp only [serverThread, if_neg hfound, List.length_cons]
      exact ⟨Nat.succ_le_succ ih.1, fun h => congrArg _ (ih.2 h)⟩

theorem exceptionHistory_serverThread : (serverThread env ds c).2.1.exceptionHistory =
    c.1.exceptionHistory ++ (ds.take (serverThread env ds c).1.length).filterMap fun d => raised d.request := by
  induction ds generalizing c with
  | nil => exact (List.append_nil _).symm
  | cons d ds ih =>
    by_cases hfound : (d.found c).terminated = true
    · rcases serverThread_cons_terminated env ds hfound with ⟨hnil, hhandler, -⟩
      rw [hnil, hhandler]
      exact (List.append_nil _).symm
    · simp only [serverThread, if_neg hfound, ih, Arrival.serve_exceptionHistory (by simpa using hfound),
        List.append_assoc, List.length_cons, List.take_succ_cons]
      cases hr : raised d.request with
      | none => simp [hr]
      | some exception => simp [hr]

end

/-- The threads are suspended as often as before the first message, however many have arrived, exactly if each that
raises an exception in a thread that lives raises one for a breakpoint, and its callback, if one is run, does not
throw. -/
theorem suspendCounts_serverThread (env : Env) (ds : List (Arrival b)) (c : ExceptionHandler × Session b) :
    (∀ done, done <+: ds → (serverThread env done c).2.2.suspendCounts = c.2.suspendCounts) ↔
      ∀ done d rest, ds = done ++ d :: rest → d.Harmless env (serverThread env done c).2 := by
  have hsnoc : ∀ (done : List (Arrival b)) d, (serverThread env (done ++ [d]) c).2 =
      (d.serve env (serverThread env done c).2).2 := by
    intro done d
    rw [serverThread_append]
    rfl
  constructor
  · rintro h done d rest rfl
    have hdone := h done ⟨d :: rest, rfl⟩
    have hthen := h (done ++ [d]) ⟨rest, by rw [List.append_assoc]; rfl⟩
    rw [hsnoc, ← hdone] at hthen
    exact Arrival.suspendCounts_serve.1 hthen
  · intro h done
    induction done using List.reverseRecOn with
    | nil => exact fun _ => rfl
    | append_singleton done d ih =>
      rintro ⟨rest, rfl⟩
      have hdone := ih ⟨d :: rest, by rw [List.append_assoc]; rfl⟩
      rw [hsnoc, ← hdone]
      exact Arrival.suspendCounts_serve.2 (h done d rest (by rw [List.append_assoc]; rfl))

end MasterLib
