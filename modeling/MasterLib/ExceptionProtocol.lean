import MasterLib.Rpc
import MasterLib.ServerThread

/-!
# Clients and the server

Threads call the stubs of `mach_excUser.c`, and one server takes their requests from the queue of the exception port.
The kernel carries messages and knows whose name is for which port. Each step does with the bytes of a message what the
code of its party does; `Matches` relates a state to one of the calls of `Rpc`, in which nothing is encoded. A catch
function that does not return ends the server, and what is in the queue then stays there.
-/

namespace MasterLib
open Transitions

/-- A request in the queue: where its reply goes, what was sent, and the server's names for the rights in the body. -/
structure Sent (π : Type*) where
  port : π
  message : Message
  size : Word
  name : Word → Word

/-- `replyPort` is what `mig_get_reply_port` has made for a thread, by name and as the kernel knows it. A thread that
waits is in `mach_msg`, with its request still in the buffer. -/
structure World (ι π σ : Type*) where
  server : σ
  queue : List (Sent π)
  inbox : π → List Message
  replyPort : ι → Option (Word × π)
  waiting : ι → Option (Call × Message)

variable {ι π σ : Type*}

namespace World

def start (server : σ) : World ι π σ where
  server := server
  queue := []
  inbox _ := []
  replyPort _ := none
  waiting _ := none

variable (s : World ι π σ)

/-- The port is new, or all that was made of it is gone. -/
def Fresh (p : π) : Prop := (∀ i r, s.replyPort i = some r → r.2 ≠ p) ∧ ∀ r ∈ s.queue, r.port ≠ p

/-- What `mig_get_reply_port` may return: the thread's reply port, which is made if there is none. -/
def PortFor (i : ι) (r : Word × π) : Prop := s.replyPort i = some r ∨ s.replyPort i = none ∧ s.Fresh r.2

/-- What a thread's name of a reply port means to the kernel. -/
def portNamed (i : ι) (name : Word) : Option π := ((s.replyPort i).filter fun r => r.1 = name).map Prod.snd

def handled (queue : List (Sent π)) (server : σ) : World ι π σ := { s with queue := queue, server := server }

section
variable [DecidableEq ι]

def acquire (i : ι) (r : Word × π) : World ι π σ := { s with replyPort := Function.update s.replyPort i (some r) }

def send (i : ι) (r : Sent π) (c : Call) : World ι π σ :=
  { s with queue := s.queue ++ [r], waiting := Function.update s.waiting i (some (c, r.message)) }

def leave (i : ι) : World ι π σ := { s with waiting := Function.update s.waiting i none }

variable [DecidableEq π]

/-- `mig_dealloc_reply_port`. What is in the port is lost with it. -/
def dealloc (i : ι) : World ι π σ :=
  match s.replyPort i with
  | none => s
  | some r => { s with inbox := Function.update s.inbox r.2 [], replyPort := Function.update s.replyPort i none }

/-- `__MachMsgErrorWithoutTimeout`. -/
def msgError (i : ι) (msgResult : Word) : World ι π σ := if keepsReplyPort msgResult then s else s.dealloc i

/-- The server's reply goes to the port that it calls `remotePort`. -/
def reply (r : Sent π) (remotePort : Word) : Option Message → World ι π σ
  | none => s
  | some reply =>
    if msghRemotePort reply = remotePort then
      { s with inbox := Function.update s.inbox r.port (s.inbox r.port ++ [reply]) }
    else s

def take (p : π) (rest : List Message) : World ι π σ := { s with inbox := Function.update s.inbox p rest }

end

variable {s : World ι π σ} {i : ι} {r : Word × π} {name : Word} {p : π}

theorem portFor_start {server : σ} : (start server : World ι π σ).PortFor i r :=
  .inr ⟨rfl, ⟨fun _ _ h => absurd h.symm (Option.some_ne_none _), fun _ h => absurd h List.not_mem_nil⟩⟩

theorem portNamed_eq_some_iff : s.portNamed i name = some p ↔ s.replyPort i = some (name, p) := by
  rw [portNamed, Option.map_eq_some_iff]
  constructor
  · rintro ⟨r, hr, rfl⟩
    rcases Option.filter_eq_some_iff.1 hr with ⟨hr, hname⟩
    rw [hr, ← of_decide_eq_true hname]
  · intro h
    exact ⟨(name, p), Option.filter_eq_some_iff.2 ⟨h, decide_eq_true rfl⟩, rfl⟩

variable [DecidableEq ι]

theorem acquire_replyPort : (s.acquire i r).replyPort i = some r := Function.update_self ..

theorem send_waiting {r : Sent π} {c : Call} : (s.send i r c).waiting i = some (c, r.message) :=
  Function.update_self ..

theorem leave_waiting : (s.leave i).waiting i = none := Function.update_self ..

theorem dealloc_eq [DecidableEq π] (hr : s.replyPort i = some r) : s.dealloc i =
    { s with inbox := Function.update s.inbox r.2 [], replyPort := Function.update s.replyPort i none } := by
  rw [dealloc, hr]

end World

/-- A turn of the server, for the request `r`, with the names `remotePort` and `exceptionPort` for its two ports. -/
def Catch.turn (catchFns : Catch σ) (exceptionPort : Word) (r : Sent π) (remotePort : Word) (buf out : Message)
    (server : σ) : Option Message × σ :=
  catchFns.serveOnce ((⟨r.name, remotePort, exceptionPort⟩ : Transfer).receive r.size r.message buf) out server

open World

/-- What a label shows of a call is its arguments in the names of the server's task, and what it returns. A failure of
`mach_msg` after the request was sent is one to receive, and none of those that the reply port is kept after. -/
inductive ProtocolStep [DecidableEq ι] [DecidableEq π] (catchFns : Catch σ) (exceptionPort : Word) :
    World ι π σ → Rpc.Event ι Call Outcome → World ι π σ → Prop
  | call {s i r p c port mess inP size name} : s.waiting i = none → s.PortFor i r →
      c.request port r.1 mess = some (inP, size) → (s.acquire i r).portNamed i (msghLocalPort inP) = some p →
      ProtocolStep catchFns exceptionPort s (.call i (c.rename name)) ((s.acquire i r).send i ⟨p, inP, size, name⟩ c)
  | tooLarge {s i} {c : Call} {port replyPort mess} : s.waiting i = none → c.request port replyPort mess = none →
      ProtocolStep catchFns exceptionPort s (.fail i) s
  | notSent {s i r port mess inP size msgResult} {c : Call} : s.waiting i = none → s.PortFor i r →
      c.request port r.1 mess = some (inP, size) → msgResult ≠ machMsgSuccess →
      ProtocolStep catchFns exceptionPort s (.fail i) ((s.acquire i r).msgError i msgResult)
  | serve {s r queue remotePort buf out} : catchFns.returned s.server = true → s.queue = r :: queue →
      remotePort ≠ 0 → (∃ i q, s.replyPort i = some q ∧ q.2 = r.port) →
      catchFns.returned (catchFns.turn exceptionPort r remotePort buf out s.server).2 = true →
      ProtocolStep catchFns exceptionPort s .serve
        ((s.handled queue (catchFns.turn exceptionPort r remotePort buf out s.server).2).reply r remotePort
          (catchFns.turn exceptionPort r remotePort buf out s.server).1)
  | drop {s r queue remotePort buf out} : catchFns.returned s.server = true → s.queue = r :: queue →
      remotePort ≠ 0 → (∀ i q, s.replyPort i = some q → q.2 ≠ r.port) →
      catchFns.returned (catchFns.turn exceptionPort r remotePort buf out s.server).2 = true →
      ProtocolStep catchFns exceptionPort s .serve
        (s.handled queue (catchFns.turn exceptionPort r remotePort buf out s.server).2)
  | ret {s i c inP p reply rest} {y : Transfer} : s.waiting i = some (c, inP) →
      s.portNamed i (msghLocalPort inP) = some p → s.inbox p = reply :: rest →
      ProtocolStep catchFns exceptionPort s (.ret i (c.routine.finish (y.receive (msghSize reply) reply inP)))
        ((s.take p rest).leave i)
  | abort {s i c inP p msgResult} : s.waiting i = some (c, inP) → s.portNamed i (msghLocalPort inP) = some p →
      msgResult ≠ machMsgSuccess → keepsReplyPort msgResult = false →
      ProtocolStep catchFns exceptionPort s (.abort i) ((s.leave i).msgError i msgResult)
  | stop {s r queue remotePort buf out} : catchFns.returned s.server = true → s.queue = r :: queue →
      remotePort ≠ 0 → catchFns.returned (catchFns.turn exceptionPort r remotePort buf out s.server).2 = false →
      ProtocolStep catchFns exceptionPort s .stop
        (s.handled s.queue (catchFns.turn exceptionPort r remotePort buf out s.server).2)

/-! ### The relation -/

/-- What is in the queue is the request of a call, and the right one. -/
def Carried (r : Sent π) (q : Rpc.Request π Call) : Prop :=
  r.port = q.port ∧ ∃ c replyPort, c.Fits ∧ Packed c replyPort r.message r.size ∧ q.arg = c.rename r.name

/-- The message is a reply to the call that was served with the outcome. -/
def Answers (served : List (Rpc.Served Call Outcome)) (reply : Message) (e : Nat × Outcome) : Prop :=
  Carries e.2 reply ∧ complexBit reply = false ∧
    ∃ c, ⟨e.1, c, e.2⟩ ∈ served ∧ msghId reply = c.routine.replyId ∧ e.2.Proper c.routine

/-- The thread waits for the reply to its call, the `n`th of all. -/
def Waits (ls : List (Rpc.Label ι Call Outcome)) (i : ι) (w : Call × Message) (n : Nat) : Prop :=
  ∃ name, .call i n (w.1.rename name) ∈ ls

/-- A server that has stopped is what the call at the head of the queue has made of it. -/
structure Matches (catchFns : Catch σ) (exceptionPort : Word) (ls : List (Rpc.Label ι Call Outcome))
    (s : World ι π σ) (t : Rpc.State ι π σ Call Outcome) : Prop where
  server : s.server = t.server ∨ catchFns.returned s.server = false ∧
    ∃ r ∈ t.queue.head?, s.server = (catchFns.perform exceptionPort r.arg t.server).2
  replyPort : ∀ i, (s.replyPort i).map Prod.snd = t.replyPort i
  queue : List.Forall₂ Carried s.queue t.queue
  inbox : ∀ p, List.Forall₂ (Answers t.served) (s.inbox p) (t.inbox p)
  waiting : ∀ i, Option.Rel (Waits ls i) (s.waiting i) (t.waiting i)

theorem rel_update {κ α β : Type*} [DecidableEq κ] {R : κ → α → β → Prop} {f : κ → α} {g : κ → β}
    (h : ∀ j, R j (f j) (g j)) {i : κ} {a : α} {b : β} (hab : R i a b) (j : κ) :
    R j (Function.update f i a j) (Function.update g i b j) := by
  by_cases hj : j = i
  · subst hj
    rwa [Function.update_self, Function.update_self]
  · rw [Function.update_of_ne hj, Function.update_of_ne hj]
    exact h j

theorem matches_start (catchFns : Catch σ) (exceptionPort : Word) (server : σ) :
    Matches catchFns exceptionPort [] (start server : World ι π σ) (Rpc.State.start server) where
  server := .inl rfl
  replyPort _ := rfl
  queue := .nil
  inbox _ := .nil
  waiting _ := .none

theorem Answers.mono {served served' : List (Rpc.Served Call Outcome)} {reply : Message} {e : Nat × Outcome}
    (hsub : served ⊆ served') (h : Answers served reply e) : Answers served' reply e := by
  rcases h with ⟨hcarries, hsimple, c, hserved, hid⟩
  exact ⟨hcarries, hsimple, c, hsub hserved, hid⟩

namespace Matches
variable {ls ls' : List (Rpc.Label ι Call Outcome)} {s : World ι π σ} {t : Rpc.State ι π σ Call Outcome} {i : ι}
  {r : Word × π} {p : π} {n : Nat} {catchFns : Catch σ} {exceptionPort : Word}
  (h : Matches catchFns exceptionPort ls s t)
include h

theorem mono (hsub : ls ⊆ ls') : Matches catchFns exceptionPort ls' s t where
  server := h.server
  replyPort := h.replyPort
  queue := h.queue
  inbox := h.inbox
  waiting i := by
    have hi := h.waiting i
    generalize s.waiting i = w at hi
    generalize t.waiting i = n at hi
    cases hi with
    | none => exact .none
    | some hw =>
      rcases hw with ⟨name, hmem⟩
      exact .some ⟨name, hsub hmem⟩

theorem server_of_returned (hlive : catchFns.returned s.server = true) : s.server = t.server :=
  h.server.resolve_right fun hstopped => by
    rw [hlive] at hstopped
    cases hstopped.1

theorem ports : s.queue.map Sent.port = t.queue.map Rpc.Request.port := by
  have hports : List.Forall₂ (· = ·) (s.queue.map Sent.port) (t.queue.map Rpc.Request.port) := by
    rw [List.forall₂_map_left_iff, List.forall₂_map_right_iff]
    exact h.queue.imp fun _ _ hr => hr.1
  rwa [List.forall₂_eq_eq_eq] at hports

theorem fresh (hp : s.Fresh p) : t.Fresh p := by
  refine ⟨fun i hi => ?_, fun q hq hport => ?_⟩
  · rw [← h.replyPort i] at hi
    rcases Option.map_eq_some_iff.1 hi with ⟨r, hr, hport⟩
    exact hp.1 i r hr hport
  · have hmem : p ∈ s.queue.map Sent.port := by
      rw [h.ports]
      exact List.mem_map.2 ⟨q, hq, hport⟩
    rcases List.mem_map.1 hmem with ⟨r, hr, hport⟩
    exact hp.2 r hr hport

theorem portFor (hr : s.PortFor i r) : t.PortFor i r.2 := by
  unfold Rpc.State.PortFor
  rw [← h.replyPort i]
  rcases hr with hr | ⟨hnone, hfresh⟩
  · exact .inl (by rw [hr]; rfl)
  · exact .inr ⟨by rw [hnone]; rfl, h.fresh hfresh⟩

theorem waiting_none (hi : s.waiting i = none) : t.waiting i = none := by
  have hw := h.waiting i
  rw [hi] at hw
  generalize t.waiting i = n at hw ⊢
  cases hw
  rfl

theorem portNamed {name : Word} (hp : s.portNamed i name = some p) : t.replyPort i = some p := by
  rw [← h.replyPort i, portNamed_eq_some_iff.1 hp]
  rfl

theorem queue_cons {q : Sent π} {queue : List (Sent π)} (hq : s.queue = q :: queue) :
    ∃ q' queue', t.queue = q' :: queue' ∧ Carried q q' ∧ List.Forall₂ Carried queue queue' := by
  have hqueue := h.queue
  rw [hq] at hqueue
  generalize t.queue = l at hqueue ⊢
  cases hqueue with
  | cons hhead htail => exact ⟨_, _, rfl, hhead, htail⟩

theorem handled (q : Rpc.Request π Call) (hlive : catchFns.returned s.server = true) {queue : List (Sent π)}
    {queue' : List (Rpc.Request π Call)} (hqueue : List.Forall₂ Carried queue queue') :
    Matches catchFns exceptionPort ls (s.handled queue (catchFns.perform exceptionPort q.arg s.server).2)
      (t.handled (catchFns.perform exceptionPort) q queue') where
  server := .inl (by rw [h.server_of_returned hlive]; rfl)
  replyPort := h.replyPort
  queue := hqueue
  inbox p := (h.inbox p).imp fun _ _ => Answers.mono (List.subset_append_left _ _)
  waiting := h.waiting

/-- The server has been stopped by the request at the head of the queue. -/
theorem stopped {q : Rpc.Request π Call} {queue : List (Rpc.Request π Call)}
    (hlive : catchFns.returned s.server = true) (hq : t.queue = q :: queue)
    (hstopped : catchFns.returned (catchFns.perform exceptionPort q.arg s.server).2 = false) :
    Matches catchFns exceptionPort ls (s.handled s.queue (catchFns.perform exceptionPort q.arg s.server).2) t where
  server := .inr ⟨hstopped, q, by rw [hq]; rfl, by rw [h.server_of_returned hlive]; rfl⟩
  replyPort := h.replyPort
  queue := h.queue
  inbox := h.inbox
  waiting := h.waiting

theorem updateInbox [DecidableEq π] {replies : List Message} {es : List (Nat × Outcome)}
    (hin : List.Forall₂ (Answers t.served) replies es) :
    Matches catchFns exceptionPort ls { s with inbox := Function.update s.inbox p replies }
      { t with inbox := Function.update t.inbox p es } where
  server := h.server
  replyPort := h.replyPort
  queue := h.queue
  inbox q := rel_update (R := fun _ => List.Forall₂ (Answers t.served)) h.inbox hin q
  waiting := h.waiting

variable [DecidableEq ι]

theorem acquire : Matches catchFns exceptionPort ls (s.acquire i r) (t.acquire i r.2) where
  server := h.server
  replyPort j := rel_update (R := fun (_ : ι) (a : Option (Word × π)) b => a.map Prod.snd = b) h.replyPort rfl j
  queue := h.queue
  inbox := h.inbox
  waiting := h.waiting

theorem send {q : Sent π} {c : Call} {a : Call} (hq : Carried q ⟨t.nextCall, q.port, a⟩)
    (ha : a = c.rename q.name) :
    Matches catchFns exceptionPort (ls ++ [.call i t.nextCall a]) (s.send i q c) (t.send i q.port a) where
  server := by
    refine h.server.imp_right fun ⟨hstopped, r, hr, heq⟩ => ⟨hstopped, r, ?_, heq⟩
    show (t.queue ++ _).head? = some r
    rw [List.head?_append, show t.queue.head? = some r from hr]
    rfl
  replyPort := h.replyPort
  queue := List.rel_append h.queue (.cons hq .nil)
  inbox := h.inbox
  waiting j := by
    have hmono := (h.mono (List.subset_append_left ls [.call i t.nextCall a])).waiting
    refine rel_update hmono (.some ⟨q.name, ?_⟩) j
    rw [← ha]
    exact List.mem_append_right _ (List.mem_singleton_self _)

theorem release : Matches catchFns exceptionPort ls { s with replyPort := Function.update s.replyPort i none }
    (t.release i) where
  server := h.server
  replyPort j := rel_update (R := fun (_ : ι) (a : Option (Word × π)) b => a.map Prod.snd = b) h.replyPort rfl j
  queue := h.queue
  inbox := h.inbox
  waiting := h.waiting

theorem leave :
    Matches catchFns exceptionPort ls (s.leave i) { t with waiting := Function.update t.waiting i none } where
  server := h.server
  replyPort := h.replyPort
  queue := h.queue
  inbox := h.inbox
  waiting j := rel_update h.waiting .none j

theorem dealloc [DecidableEq π] (hr : s.replyPort i = some r) (hin : t.inbox r.2 = []) :
    Matches catchFns exceptionPort ls (s.dealloc i) (t.release i) := by
  have hsame : t = { t with inbox := Function.update t.inbox r.2 [] } := by
    rw [← hin, Function.update_eq_self]
  rw [dealloc_eq hr, hsame]
  exact (h.updateInbox .nil).release

end Matches

/-! ### The simulation -/

/-- The catch functions never tell the server to say nothing. -/
def Catch.Answering (catchFns : Catch σ) : Prop := ∀ port c s, (catchFns.perform port c s).1.ret ≠ migNoReply

variable {catchFns : Catch σ} {exceptionPort remotePort : Word} {r : Sent π} {q : Rpc.Request π Call}
  {s s' : World ι π σ} {t : Rpc.State ι π σ Call Outcome} {ls : List (Rpc.Label ι Call Outcome)}
  {e : Rpc.Event ι Call Outcome} {es : List (Rpc.Event ι Call Outcome)} {server : σ} {i : ι} {p : π}

theorem turn_spec (hanswering : catchFns.Answering) (hr : Carried r q) (hport : remotePort ≠ 0) (buf out : Message) :
    (catchFns.turn exceptionPort r remotePort buf out server).2 = (catchFns.perform exceptionPort q.arg server).2 ∧
      (catchFns.returned (catchFns.perform exceptionPort q.arg server).2 = true →
        ∃ reply, (catchFns.turn exceptionPort r remotePort buf out server).1 = some reply ∧
        msghRemotePort reply = remotePort ∧
        ∀ served, ⟨q.call, q.arg, (catchFns.perform exceptionPort q.arg server).1⟩ ∈ served →
          Answers served reply (q.call, (catchFns.perform exceptionPort q.arg server).1)) := by
  rcases hr with ⟨-, c, replyPort, hfits, hpacked, harg⟩
  have hrespond : catchFns.respond ((⟨r.name, remotePort, exceptionPort⟩ : Transfer).receive r.size r.message buf)
      server = catchFns.perform exceptionPort (c.rename r.name) server := respond_receive hpacked hfits _ buf server
  rcases serveOnce_spec catchFns
    ((⟨r.name, remotePort, exceptionPort⟩ : Transfer).receive r.size r.message buf) out server
    (hpacked.size_receive_le hfits _ buf) with ⟨hserver, hreply, hnone⟩
  rcases machExcServer_spec catchFns
    ((⟨r.name, remotePort, exceptionPort⟩ : Transfer).receive r.size r.message buf) out server with
    ⟨-, -, hcarries, hanswers⟩
  rw [hrespond, ← harg] at hserver hnone hcarries
  refine ⟨hserver, fun hreturned => ?_⟩
  obtain ⟨reply, hsome⟩ : ∃ reply, (catchFns.turn exceptionPort r remotePort buf out server).1 = some reply := by
    refine Option.ne_none_iff_exists'.1 fun h => ?_
    rcases hnone.1 h with h | h | h
    · exact hanswering _ _ _ h
    · exact hport (Transfer.msghRemotePort_receive.symm.trans h)
    · rw [hreturned] at h; cases h
  obtain rfl := hreply reply hsome
  have hroutine : q.arg.routine = c.routine := by
    rw [harg]
    cases c <;> rfl
  refine ⟨_, hsome, hanswers.remotePort.trans Transfer.msghRemotePort_receive, fun served hserved => ?_⟩
  refine ⟨hcarries, complexBit_of_answersTo hanswers, q.arg, hserved, ?_, catchFns.proper_perform ..⟩
  rw [hanswers.id, Transfer.msghId_receive, hpacked.id, hroutine, Routine.replyId]

theorem waits (hm : Matches catchFns exceptionPort ls s t) {c : Call} {inP : Message}
    (hi : s.waiting i = some (c, inP)) : ∃ n name, t.waiting i = some n ∧
    .call i n (c.rename name) ∈ ls := by
  have hw := hm.waiting i
  rw [hi] at hw
  generalize t.waiting i = n at hw ⊢
  cases hw with
  | some hw =>
    rcases hw with ⟨name, hmem⟩
    exact ⟨_, name, rfl, hmem⟩

variable [DecidableEq π] {σ₀ : σ}

/-- Where the server has stopped it has handled one call more than are gone from the queue. -/
theorem exists_linearized {ls' : List (Rpc.Label ι Call Outcome)}
    (hhist : Rpc.History (catchFns.perform exceptionPort) σ₀ ls t) (hm : Matches catchFns exceptionPort ls' s t) :
    ∃ served, Rpc.Linearized (catchFns.perform exceptionPort) σ₀ ls served s.server := by
  rcases hm.server with hserver | ⟨-, r, hr, hserver⟩
  · rw [hserver]
    exact ⟨_, hhist.linearized⟩
  · obtain ⟨queue, hq⟩ := List.head?_eq_some_iff.1 hr
    rw [hserver]
    exact ⟨_, hhist.linearized_head hq⟩

variable [DecidableEq ι] (hhist : Rpc.History (catchFns.perform exceptionPort) σ₀ ls t) 
  (hm : Matches catchFns exceptionPort ls s t)
include hhist hm

theorem inbox_acquire (hi : s.waiting i = none) {r : Word × π} (hr : s.PortFor i r) : t.inbox r.2 = [] := by
  have hi' := hm.waiting_none hi
  have hpending := (hhist.ports.acquire hi' (hm.portFor hr)).pending (Function.update_self ..)
  rw [show (t.acquire i r.2).waiting i = none from hi'] at hpending
  exact List.map_eq_nil_iff.1 (List.append_eq_nil_iff.1 hpending).1

omit [DecidableEq ι] in
/-- The stub makes of the reply what the call was served with. -/
theorem finish_inbox {c : Call} {inP reply : Message} {rest : List Message} (hi : s.waiting i = some (c, inP))
    (hp : t.replyPort i = some p) (hin : s.inbox p = reply :: rest) (y : Transfer) :
    ∃ n es, t.waiting i = some n ∧
      t.inbox p = (n, c.routine.finish (y.receive (msghSize reply) reply inP)) :: es ∧
      List.Forall₂ (Answers t.served) rest es := by
  rcases waits hm hi with ⟨n, name, hn, hcall⟩
  have hanswers := hm.inbox p
  rw [hin] at hanswers
  generalize hes : t.inbox p = inbox at hanswers
  cases hanswers with
  | @cons _ e _ es hhead htail =>
    rcases hhead with ⟨hcarries, hsimple, c', hserved, hid, hproper⟩
    obtain ⟨hen, -, -⟩ := hhist.ports.eq_of_inbox hn hp hes
    rcases hhist.served _ hserved with ⟨i', hcall'⟩
    rw [hen] at hcall'
    obtain ⟨-, rfl⟩ := hhist.call_inj hcall hcall'
    have hroutine : (c.rename name).routine = c.routine := by cases c <;> rfl
    rw [hroutine] at hid hproper
    refine ⟨n, es, hn, ?_, htail⟩
    rw [finish_receive hcarries hproper hsimple hid y inP, ← hen]

theorem ProtocolStep.simulates (hanswering : catchFns.Answering) (hstep : ProtocolStep catchFns exceptionPort s e s') :
    ∃ l t', Rpc.Step (catchFns.perform exceptionPort) t l t' ∧ l.event = e ∧
      Matches catchFns exceptionPort (ls ++ [l]) s' t' := by
  have hmono : ∀ l, Matches catchFns exceptionPort (ls ++ [l]) s t := fun l => hm.mono (List.subset_append_left ls [l])
  cases hstep with
  | @call i r p c port mess inP size name hi hr hrequest hp =>
    rcases Call.request_spec hrequest with ⟨hfits, hpacked⟩
    have hport : r.2 = p := by
      have hp' := portNamed_eq_some_iff.1 hp
      rw [acquire_replyPort] at hp'
      exact congrArg Prod.snd (Option.some.inj hp')
    subst hport
    refine ⟨_, _, .call (hm.waiting_none hi) (hm.portFor hr), rfl, ?_⟩
    exact hm.acquire.send (q := ⟨r.2, inP, size, name⟩) ⟨rfl, c, _, hfits, hpacked, rfl⟩ rfl
  | tooLarge hi => exact ⟨_, _, .fail (hm.waiting_none hi), rfl, hmono _⟩
  | @notSent i r _ _ _ _ msgResult _ hi hr =>
    unfold msgError
    by_cases hkeeps : keepsReplyPort msgResult = true
    · rw [if_pos hkeeps]
      exact ⟨_, _, .failKeeping (hm.waiting_none hi) (hm.portFor hr), rfl, (hmono _).acquire⟩
    · rw [if_neg hkeeps]
      refine ⟨_, _, .failDestroying (i := i) (hm.waiting_none hi), rfl, ?_⟩
      have hrelease : (t.acquire i r.2).release i = t.release i := by
        unfold Rpc.State.release Rpc.State.acquire
        rw [Function.update_idem]
      rw [← hrelease]
      exact (hmono _).acquire.dealloc acquire_replyPort (inbox_acquire hhist hm hi hr)
  | @serve r queue remotePort buf out hlive hq hport halive hreturned =>
    obtain ⟨q, queue', hqueue, hcarried, hrest⟩ := hm.queue_cons hq
    rcases turn_spec hanswering hcarried hport buf out with ⟨hserver, hreply⟩
    rw [hserver] at hreturned
    rcases hreply hreturned with ⟨reply, hsome, hremote, hanswers⟩
    refine ⟨_, _, .serve hqueue ?_, rfl, ?_⟩
    · rcases halive with ⟨i, own, hi, hown⟩
      exact ⟨i, by rw [← hm.replyPort i, hi, ← hcarried.1, ← hown]; rfl⟩
    · rw [hsome, hserver, World.reply, if_pos hremote, hcarried.1]
      have hhandled := (hmono .serve).handled q hlive hrest
      refine hhandled.updateInbox (List.rel_append (hhandled.inbox _) (.cons ?_ .nil))
      rw [hm.server_of_returned hlive] at hanswers
      exact hanswers _ (List.mem_append_right _ (List.mem_singleton_self _))
  | @drop r queue remotePort buf out hlive hq hport hdead _ =>
    obtain ⟨q, queue', hqueue, hcarried, hrest⟩ := hm.queue_cons hq
    rw [(turn_spec hanswering hcarried hport buf out).1]
    refine ⟨_, _, .drop hqueue fun i hi => ?_, rfl, (hmono _).handled q hlive hrest⟩
    rw [← hm.replyPort i] at hi
    rcases Option.map_eq_some_iff.1 hi with ⟨own, hown, hport⟩
    exact hdead i own hown (hport.trans hcarried.1.symm)
  | @ret i c inP p reply rest y hi hp hin =>
    have hp' := hm.portNamed hp
    rcases finish_inbox hhist hm hi hp' hin y with ⟨n, es, hn, hinbox, htail⟩
    exact ⟨_, _, .ret hn hp' hinbox, rfl, ((hmono _).updateInbox htail).leave⟩
  | @abort i c inP p msgResult hi hp _ hkeeps =>
    have hp' := hm.portNamed hp
    rcases waits hm hi with ⟨n, -, hn, -⟩
    refine ⟨_, _, .abort hn hp', rfl, ?_⟩
    rw [msgError, if_neg (by rw [hkeeps]; decide), dealloc_eq (s := s.leave i) (portNamed_eq_some_iff.1 hp)]
    exact ((hmono _).leave.updateInbox .nil).release
  | @stop r queue remotePort buf out hlive hq hport hstopped =>
    obtain ⟨q, queue', hqueue, hcarried, -⟩ := hm.queue_cons hq
    rw [(turn_spec hanswering hcarried hport buf out).1] at hstopped ⊢
    exact ⟨_, _, .stop, rfl, (hmono _).stopped hlive hqueue hstopped⟩

omit hhist hm in
/-- Every run of the parties is one of `Rpc`, with the same calls and results. -/
theorem run_simulates (hanswering : catchFns.Answering)
    (h : Run (ProtocolStep catchFns exceptionPort) (start σ₀ : World ι π σ) es s) :
    ∃ ls t, Run (Rpc.Step (catchFns.perform exceptionPort)) (Rpc.State.start σ₀ : Rpc.State ι π σ Call Outcome) ls t ∧
      ls.map Rpc.Label.event = es ∧ ∃ ls', Matches catchFns exceptionPort ls' s t := by
  obtain ⟨ls, t, hrun, hlabels, ls', -, hm⟩ := h.simulate
    (R := fun (s : World ι π σ) t => ∃ ls, Rpc.History (catchFns.perform exceptionPort) σ₀ ls t ∧
      Matches catchFns exceptionPort ls s t)
    (Q := fun e (l : Rpc.Label ι Call Outcome) => l.event = e) ⟨[], Rpc.history_start .., matches_start ..⟩ (by
      rintro s e s' t hstep ⟨ls, hhist, hm⟩
      rcases hstep.simulates hhist hm hanswering with ⟨l, t', hstep', hevent, hm'⟩
      exact ⟨l, t', hstep', hevent, _, hhist.step hstep', hm'⟩)
  refine ⟨ls, t, hrun, ?_, ls', hm⟩
  have hevents : List.Forall₂ (· = ·) es (ls.map Rpc.Label.event) := by
    rw [List.forall₂_map_right_iff]
    exact hlabels.imp fun _ _ => Eq.symm
  rw [List.forall₂_eq_eq_eq] at hevents
  exact hevents.symm

omit hhist hm

/-- A thread that is in no call can make any that fits. -/
theorem exists_step_call (catchFns : Catch σ) (exceptionPort : Word) {c : Call} {r : Word × π} (hi : s.waiting i = none)
    (hr : s.PortFor i r) (hfits : c.Fits) (name : Word → Word) :
    ∃ s', ProtocolStep catchFns exceptionPort s (.call i (c.rename name)) s' ∧ s'.waiting i ≠ none ∧
      s'.server = s.server ∧ s'.queue.length = s.queue.length + 1 := by
  have hrequest : c.request 0 r.1 (fun _ => 0) ≠ none := fun h => Call.request_eq_none_iff.1 h hfits
  obtain ⟨⟨inP, size⟩, hrequest⟩ := Option.ne_none_iff_exists'.1 hrequest
  have hport : (s.acquire i r).portNamed i (msghLocalPort inP) = some r.2 := by
    rw [portNamed_eq_some_iff, (Call.request_spec hrequest).2.replyPort]
    exact acquire_replyPort
  refine ⟨_, .call hi hr hrequest hport, ?_, rfl, List.length_append⟩
  rw [send_waiting]
  exact Option.some_ne_none _

/-- A thread that waits does so at the port that its request names. -/
def Named (s : World ι π σ) : Prop := ∀ i w, s.waiting i = some w → ∃ p, s.replyPort i = some (msghLocalPort w.2, p)

theorem Named.dealloc (hs : Named s) (hi : s.waiting i = none) : Named (s.dealloc i) := by
  intro j w hw
  cases hr : s.replyPort i with
  | none =>
    rw [World.dealloc, hr] at hw ⊢
    exact hs j w hw
  | some r =>
    rw [dealloc_eq hr] at hw ⊢
    have hji : j ≠ i := by
      rintro rfl
      rw [show s.waiting j = some w from hw] at hi; cases hi
    rcases hs j w hw with ⟨p, hp⟩
    exact ⟨p, (Function.update_of_ne hji ..).trans hp⟩

theorem Named.msgError (hs : Named s) (hi : s.waiting i = none) (msgResult : Word) :
    Named (s.msgError i msgResult) := by
  unfold World.msgError
  split
  · exact hs
  · exact hs.dealloc hi

omit [DecidableEq π] in
theorem Named.acquire (hs : Named s) {r : Word × π} (hr : s.PortFor i r) : Named (s.acquire i r) := by
  intro j w hw
  rcases hs j w hw with ⟨p, hp⟩
  by_cases hji : j = i
  · subst hji
    rcases hr with hr | ⟨hnone, -⟩
    · exact ⟨p, by rw [acquire_replyPort, ← hr, hp]⟩
    · rw [hnone] at hp; cases hp
  · exact ⟨p, (Function.update_of_ne hji ..).trans hp⟩

omit [DecidableEq π] in
theorem Named.leave (hs : Named s) : Named (s.leave i) := by
  intro j w hw
  have hji : j ≠ i := by
    rintro rfl
    rw [leave_waiting] at hw; cases hw
  exact hs j w ((Function.update_of_ne hji ..).symm.trans hw)

omit [DecidableEq ι] in
theorem reply_frame (s : World ι π σ) (r : Sent π) (remotePort : Word) (reply : Option Message) :
    (s.reply r remotePort reply).queue = s.queue ∧ (s.reply r remotePort reply).replyPort = s.replyPort ∧
      (s.reply r remotePort reply).waiting = s.waiting ∧ (s.reply r remotePort reply).server = s.server := by
  cases reply with
  | none => exact ⟨rfl, rfl, rfl, rfl⟩
  | some reply =>
    by_cases hremote : msghRemotePort reply = remotePort <;> simp [World.reply, hremote]

theorem Named.step (hs : Named s) (hstep : ProtocolStep catchFns exceptionPort s e s') : Named s' := by
  cases hstep with
  | @call i r p c port mess inP size name hi hr hrequest hp =>
    intro j w hw
    by_cases hji : j = i
    · subst hji
      rw [send_waiting] at hw
      obtain rfl := Option.some.inj hw
      exact ⟨p, portNamed_eq_some_iff.1 hp⟩
    · exact hs.acquire hr j w ((Function.update_of_ne hji ..).symm.trans hw)
  | tooLarge => exact hs
  | notSent hi hr => exact (hs.acquire hr).msgError hi _
  | serve =>
    intro j w hw
    rw [(reply_frame ..).2.2.1] at hw
    rw [(reply_frame ..).2.1]
    exact hs j w hw
  | drop => exact hs
  | ret => exact hs.leave
  | abort => exact hs.leave.msgError leave_waiting _
  | stop => exact hs

theorem Named.run (hs : Named s) (h : Run (ProtocolStep catchFns exceptionPort) s es s') : Named s' := by
  induction h with
  | nil => exact hs
  | snoc _ hstep ih => exact ih.step hstep

/-- The requests in the queue are served one after the other, unless the server stops at one of them. -/
theorem exists_run_serve (catchFns : Catch σ) (exceptionPort : Word) (s : World ι π σ)
    (hlive : catchFns.returned s.server = true) :
    (∃ s', Run (ProtocolStep catchFns exceptionPort) s (List.replicate s.queue.length .serve) s' ∧ s'.queue = [] ∧
      s'.replyPort = s.replyPort ∧ s'.waiting = s.waiting) ∨
    ∃ k < s.queue.length, ∃ s', Run (ProtocolStep catchFns exceptionPort) s (List.replicate k .serve ++ [.stop]) s' ∧
      catchFns.returned s'.server = false := by
  generalize hn : s.queue.length = n
  induction n generalizing s with
  | zero => exact .inl ⟨s, .nil, List.length_eq_zero_iff.1 hn, rfl, rfl⟩
  | succ n ih =>
    obtain ⟨r, queue, hq⟩ := List.exists_cons_of_length_eq_add_one hn
    have hlen : queue.length = n := by
      rw [hq] at hn
      exact Nat.succ.inj hn
    let turn := catchFns.turn exceptionPort r 1 r.message r.message s.server
    have hport : (1 : Word) ≠ 0 := by decide
    by_cases hreturned : catchFns.returned turn.2 = true
    swap
    · have hstopped : catchFns.returned turn.2 = false := by simpa using hreturned
      exact .inr ⟨0, n.succ_pos, _, .single (.stop hlive hq hport hstopped), hstopped⟩
    -- one turn, after which the rest of the queue is served
    obtain ⟨s₁, hstep, hqueue, hserver, hreplyPort, hwaiting⟩ : ∃ s₁, ProtocolStep catchFns exceptionPort s .serve s₁ ∧
        s₁.queue = queue ∧ s₁.server = turn.2 ∧ s₁.replyPort = s.replyPort ∧ s₁.waiting = s.waiting := by
      by_cases halive : ∃ i q, s.replyPort i = some q ∧ q.2 = r.port
      · have hframe := reply_frame (s.handled queue turn.2) r 1 turn.1
        exact ⟨_, .serve hlive hq hport halive hreturned, hframe.1, hframe.2.2.2, hframe.2.1, hframe.2.2.1⟩
      · exact ⟨_, .drop hlive hq hport (fun i q hi hp => halive ⟨i, q, hi, hp⟩) hreturned, rfl, rfl, rfl, rfl⟩
    rcases ih s₁ (by rw [hserver]; exact hreturned) (by rw [hqueue]; exact hlen) with
      ⟨s', hrun, hempty, hreplyPort', hwaiting'⟩ | ⟨k, hk, s', hrun, hstopped⟩
    · exact .inl ⟨s', .cons hstep hrun, hempty, hreplyPort'.trans hreplyPort, hwaiting'.trans hwaiting⟩
    · exact .inr ⟨k + 1, Nat.succ_lt_succ hk, s', .cons hstep hrun, hstopped⟩

/-- When everything has been served, the reply is there. -/
theorem exists_ret_of_queue_nil (hanswering : catchFns.Answering)
    (h : Run (ProtocolStep catchFns exceptionPort) (start σ₀ : World ι π σ) es s) (hempty : s.queue = [])
    (hi : s.waiting i ≠ none) :
    ∃ o s', ProtocolStep catchFns exceptionPort s (.ret i o) s' ∧ s'.waiting i = none := by
  have hnamed : Named s := Named.run (fun _ _ hw => by cases hw) h
  obtain ⟨⟨c, inP⟩, hw⟩ := Option.ne_none_iff_exists'.1 hi
  rcases hnamed i _ hw with ⟨p, hp⟩
  rcases run_simulates hanswering h with ⟨ls, t, hrun, -, ls', hm⟩
  have hports := (Rpc.run_history hrun).ports
  have hqueue : t.queue = [] := by
    have hq := hm.queue
    rw [hempty] at hq
    exact List.forall₂_nil_left_iff.1 hq
  obtain ⟨n, hn⟩ : ∃ n, t.waiting i = some n := by
    have hrel := hm.waiting i
    rw [hw] at hrel
    generalize t.waiting i = n at hrel ⊢
    cases hrel with
    | some => exact ⟨_, rfl⟩
  rcases hports.exists_inbox hqueue hn with ⟨p', o, hp', hinbox⟩
  obtain rfl : p = p' := by
    rw [← hm.replyPort i, hp] at hp'
    exact Option.some.inj hp'
  have hanswers := hm.inbox p
  rw [hinbox] at hanswers
  rcases List.forall₂_cons_right_iff.1 hanswers with ⟨reply, rest, -, -, hin⟩
  exact ⟨_, _, .ret (y := ⟨id, 0, 0⟩) hw (portNamed_eq_some_iff.2 hp) hin, leave_waiting⟩

/-- As long as the server has not stopped, a thread that waits for a reply has it as soon as what is now in the queue
has been served, or the server stops at a request that is in the queue now. -/
theorem exists_run_ret (hanswering : catchFns.Answering)
    (h : Run (ProtocolStep catchFns exceptionPort) (start σ₀ : World ι π σ) es s) (hi : s.waiting i ≠ none)
    (hlive : catchFns.returned s.server = true) :
    (∃ o s', Run (ProtocolStep catchFns exceptionPort) s (List.replicate s.queue.length .serve ++ [.ret i o]) s' ∧
      s'.waiting i = none) ∨
    ∃ k < s.queue.length, ∃ s', Run (ProtocolStep catchFns exceptionPort) s (List.replicate k .serve ++ [.stop]) s' ∧
      catchFns.returned s'.server = false := by
  refine (exists_run_serve catchFns exceptionPort s hlive).imp_left ?_
  rintro ⟨s₁, hrun, hempty, -, hwaiting⟩
  rw [← hwaiting] at hi
  obtain ⟨o, s', hret, hdone⟩ := exists_ret_of_queue_nil hanswering (h.append hrun) hempty hi
  exact ⟨o, s', hrun.snoc hret, hdone⟩

/-- From `σ₀` on no call of the catch functions ends the server. -/
def Catch.Returning (catchFns : Catch σ) (exceptionPort : Word) (σ₀ : σ) : Prop :=
  ∀ served server, Rpc.Serial (catchFns.perform exceptionPort) σ₀ served server → catchFns.returned server = true

theorem returned_of_run (hanswering : catchFns.Answering) (hreturning : catchFns.Returning exceptionPort σ₀)
    (h : Run (ProtocolStep catchFns exceptionPort) (start σ₀ : World ι π σ) es s) :
    catchFns.returned s.server = true := by
  rcases run_simulates hanswering h with ⟨ls, t, hrun, -, ls', hm⟩
  rcases exists_linearized (Rpc.run_history hrun) hm with ⟨served, hlinearized⟩
  exact hreturning served s.server hlinearized.serial

/-- A call that is made, served and answered, of catch functions that return. -/
theorem exists_run_call (hanswering : catchFns.Answering) (hreturning : catchFns.Returning exceptionPort σ₀) {c : Call}
    (hfits : c.Fits) (i : ι) (r : Word × π) (name : Word → Word) :
    ∃ o, ∃ s : World ι π σ,
      Run (ProtocolStep catchFns exceptionPort) (start σ₀) [.call i (c.rename name), .serve, .ret i o] s := by
  obtain ⟨s, hcall, hi, hserver, hqueue⟩ :=
    exists_step_call catchFns exceptionPort (s := (start σ₀ : World ι π σ)) (i := i) (r := r) rfl portFor_start
      hfits name
  have hlive : catchFns.returned s.server = true := hserver ▸ hreturning [] σ₀ .nil
  have hlen : s.queue.length = 1 := hqueue
  rcases exists_run_serve catchFns exceptionPort s hlive with
    ⟨s₁, hserve, hempty, -, hwaiting⟩ | ⟨k, -, s', hstop, hstopped⟩
  · rw [hlen] at hserve
    rw [← hwaiting] at hi
    have hrun := (Run.single hcall).append hserve
    obtain ⟨o, s', hret, -⟩ := exists_ret_of_queue_nil hanswering hrun hempty hi
    exact ⟨o, s', hrun.snoc hret⟩
  · rw [returned_of_run hanswering hreturning ((Run.single hcall).append hstop)] at hstopped
    cases hstopped

/-! ### The server of the program -/

variable {b : Build} {env : Env} {lookup : ExceptionHandler → Lookup} {c c₀ : ExceptionHandler × Session b}

theorem answering_catchFunctions : (catchFunctions env lookup : Catch (ExceptionHandler × Session b)).Answering := by
  intro port call c h
  rcases ret_perform_catchFunctions env lookup port call c with hret | hret
  · rw [hret] at h
    exact absurd h (by decide)
  · rw [hret] at h
    exact absurd h (by decide)

/-- No callback of a quiet session throws, so no exception ends the program. -/
theorem Session.Quiet.perform (h : c.2.Quiet) (port : Word) (call : Call) :
    ((catchFunctions env lookup).perform port call c).2.2.Quiet := by
  cases call with
  | machExceptionRaise thread task exception code => exact h.exceptionCallback
  | machExceptionRaiseState => exact h
  | machExceptionRaiseStateIdentity => exact h

theorem returning_catchFunctions (h : c₀.2.Quiet) : (catchFunctions env lookup).Returning exceptionPort c₀ := by
  intro served c hserial
  have hquiet : c.2.Quiet := by
    induction hserial with
    | nil => exact h
    | snoc _ ih => exact ih.perform _ _
  show (!c.2.terminated) = true
  rw [hquiet.1]
  rfl

/-- The exception that a call reports to the program. -/
def Call.raises : Call → Option Exception
  | machExceptionRaise thread task exception _ => some ⟨thread.toNat, task.toNat, exception.toInt⟩
  | _ => none

/-- The request of a call raises what the call does, in the names of the receiver. -/
theorem raised_receive {call : Call} {replyPort size : Word} {sent : Message} (h : Packed call replyPort sent size)
    (hfits : call.Fits) (x : Transfer) (buf : Message) :
    raised (x.receive size sent buf) = (call.rename x.name).raises := by
  have hid : msghId (x.receive size sent buf) = call.routine.requestId := Transfer.msghId_receive.trans h.id
  have hproper := h.wellFormed_receive x buf hfits
  rw [← h.call_receive x buf hfits]
  cases call with
  | machExceptionRaise thread task exception code => exact if_pos ⟨hid, hproper⟩
  | machExceptionRaiseState =>
    have hother : Routine.machExceptionRaiseState.requestId ≠ 2405 := by decide
    exact if_neg fun hraised => hother (hid.symm.trans hraised.1)
  | machExceptionRaiseStateIdentity =>
    have hother : Routine.machExceptionRaiseStateIdentity.requestId ≠ 2405 := by decide
    exact if_neg fun hraised => hother (hid.symm.trans hraised.1)

theorem exceptionHistory_perform (port : Word) (call : Call) (c : ExceptionHandler × Session b) :
    ((catchFunctions env lookup).perform port call c).2.1.exceptionHistory =
      c.1.exceptionHistory ++ call.raises.toList := by
  cases call with
  | machExceptionRaise thread task exception code => exact exceptionHistory_exceptionCallback
  | machExceptionRaiseState => exact (List.append_nil _).symm
  | machExceptionRaiseStateIdentity => exact (List.append_nil _).symm

theorem exceptionHistory_serial {port : Word} {served : List (Rpc.Served Call Outcome)}
    (h : Rpc.Serial ((catchFunctions env lookup).perform port) c₀ served c) :
    c.1.exceptionHistory = c₀.1.exceptionHistory ++ served.filterMap fun e => e.arg.raises := by
  induction h with
  | nil => exact (List.append_nil _).symm
  | @snoc served c n call _ ih =>
    rw [exceptionHistory_perform, ih, List.append_assoc, List.filterMap_append]
    cases hr : call.raises <;> simp [hr]

/-- From `history` on, `history'` is what was raised by calls of the run, in their order and once each, with every
exception among it whose call has returned. -/
structure Recorded (ls : List (Rpc.Label ι Call Outcome)) (history history' : List Exception)
    (raised : List (Nat × Exception)) : Prop where
  numbers : ls.filterMap Rpc.Label.called = List.range (ls.filterMap Rpc.Label.called).length
  history : history' = history ++ raised.map Prod.snd
  order : (raised.map Prod.fst).Pairwise (· < ·)
  called : ∀ e ∈ raised, ∃ i call, .call i e.1 call ∈ ls ∧ call.raises = some e.2
  returned : ∀ i n o, .ret i n o ∈ ls → ∃ call, .call i n call ∈ ls ∧ ∀ e ∈ call.raises, (n, e) ∈ raised

def raisedBy (e : Rpc.Served Call Outcome) : Option (Nat × Exception) := e.arg.raises.map (e.call, ·)

omit [DecidableEq ι] in
theorem recorded_of_linearized {port : Word} {served : List (Rpc.Served Call Outcome)}
    (h : Rpc.Linearized ((catchFunctions env lookup).perform port) c₀ ls served c) :
    Recorded ls c₀.1.exceptionHistory c.1.exceptionHistory (served.filterMap raisedBy) where
  numbers := h.numbers
  history := by
    rw [exceptionHistory_serial h.serial, List.map_filterMap]
    congr 2
    funext e
    rw [raisedBy, Option.map_map]
    exact Option.map_id'.symm
  order := by
    refine List.pairwise_map.2 (List.pairwise_filterMap.2 ?_)
    refine (List.pairwise_map.1 h.order).imp fun {e e'} hlt x hx x' hx' => ?_
    rcases Option.map_eq_some_iff.1 hx with ⟨_, -, rfl⟩
    rcases Option.map_eq_some_iff.1 hx' with ⟨_, -, rfl⟩
    exact hlt
  called x hx := by
    rcases List.mem_filterMap.1 hx with ⟨e, he, hraised⟩
    rcases Option.map_eq_some_iff.1 hraised with ⟨exception, hraises, rfl⟩
    rcases h.called e he with ⟨i, hi⟩
    exact ⟨i, e.arg, hi, hraises⟩
  returned i n o hret := by
    rcases h.answered i n o hret with ⟨call, hcall, hserved⟩
    refine ⟨call, hcall, fun exception hraises => List.mem_filterMap.2 ⟨_, hserved, ?_⟩⟩
    rw [raisedBy, show call.raises = some exception from hraises]
    rfl

/-- One thread, which raises an exception for the breakpoint it has run into. -/
def trap : Call := .machExceptionRaise 1 0 6 []

def oneThread : World Unit Nat (ExceptionHandler × Session .x86_64) := start (⟨[]⟩, Session.stoppedThread)

def handlers : Catch (ExceptionHandler × Session .x86_64) := catchFunctions (.failAt []) fun _ => ⟨kernSuccess, true⟩

theorem quiet_stoppedThread : Session.stoppedThread.Quiet := by
  have hnone : ∀ p, (Session.stoppedThread.heap p).callback = none := by
    intro p
    by_cases hp : p = 0
    · rw [hp]; rfl
    · have hother : Session.stoppedThread.heap p = .software (.new .x86_64 false 0x1000) := Function.update_of_ne hp ..
      rw [hother]; rfl
  refine ⟨rfl, fun p state => ?_⟩
  rw [hnone]
  exact Option.some_ne_none _

theorem returning_handlers : handlers.Returning 3 (⟨[]⟩, Session.stoppedThread) :=
  returning_catchFunctions quiet_stoppedThread

/-- The call of `trap` up to its return. -/
theorem exists_run_trap : ∃ o s, Run (ProtocolStep handlers 3) oneThread [.call () trap, .serve, .ret () o] s :=
  exists_run_call answering_catchFunctions returning_handlers (c := trap) (by decide) () (5, 0) id

theorem exists_run_ret_trap : ∃ s s' : World Unit Nat _, ∃ o,
    Run (ProtocolStep handlers 3) s (List.replicate s.queue.length .serve ++ [.ret () o]) s' ∧
      s'.waiting () = none := by
  obtain ⟨s, hstep, hi, -⟩ := exists_step_call handlers 3 (s := oneThread) (i := ()) (c := trap) (r := (5, 0)) rfl
    portFor_start (by decide) id
  have hrun := Run.single hstep
  rcases exists_run_ret answering_catchFunctions hrun hi
      (returned_of_run answering_catchFunctions returning_handlers hrun) with
    ⟨o, s', hrun', hwaiting⟩ | ⟨k, -, s', hstop, hstopped⟩
  · exact ⟨s, s', o, hrun', hwaiting⟩
  · rw [returned_of_run answering_catchFunctions returning_handlers (hrun.append hstop)] at hstopped
    cases hstopped

end MasterLib
