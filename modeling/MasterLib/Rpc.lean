import MasterLib.Transitions

/-!
# Calls through a queue

Clients call a server that takes one request after the other from a queue. A request names the reply port of its
client, and the reply is delivered there if the port still exists. A client keeps its reply port from call to call,
waits for one reply at a time, and may give a call up, which destroys the port. The server may stop in the middle of a
call.

Calls, and the requests and replies they lead to, carry the number of the call, and `served` records what the server
has done. Neither is seen by a party: a client takes whatever reply comes first. `Linearized` says that it is
nevertheless the reply to its own request.
-/

namespace Rpc
open Transitions

structure Request (π α : Type*) where
  call : Nat
  port : π
  arg : α

structure Served (α β : Type*) where
  call : Nat
  arg : α
  result : β

/-- `inbox` holds the replies that nobody has taken, by port and with the number of their call. -/
structure State (ι π σ α β : Type*) where
  server : σ
  queue : List (Request π α)
  inbox : π → List (Nat × β)
  replyPort : ι → Option π
  waiting : ι → Option Nat
  nextCall : Nat
  served : List (Served α β)

/-- What can be seen of a step. -/
inductive Event (ι α β : Type*)
  | call (i : ι) (a : α)
  | fail (i : ι)
  | serve
  | ret (i : ι) (b : β)
  | abort (i : ι)
  | stop

inductive Label (ι α β : Type*)
  | call (i : ι) (n : Nat) (a : α)
  | fail (i : ι)
  | serve
  | ret (i : ι) (n : Nat) (b : β)
  | abort (i : ι)
  | stop

namespace Label
variable {ι α β : Type*}

def event : Label ι α β → Event ι α β
  | call i _ a => .call i a
  | fail i => .fail i
  | serve => .serve
  | ret i _ b => .ret i b
  | abort i => .abort i
  | stop => .stop

def called : Label ι α β → Option Nat
  | call _ n _ => some n
  | _ => none

def returned : Label ι α β → Option Nat
  | ret _ n _ => some n
  | _ => none

end Label

variable {ι π σ α β : Type*} [DecidableEq ι] [DecidableEq π] {handle : α → σ → β × σ} {σ₀ : σ}

namespace State

def start (server : σ) : State ι π σ α β where
  server := server
  queue := []
  inbox _ := []
  replyPort _ := none
  waiting _ := none
  nextCall := 0
  served := []

variable (s : State ι π σ α β)

/-- No client has the port, and no request in the queue names it. -/
def Fresh (p : π) : Prop := (∀ i, s.replyPort i ≠ some p) ∧ ∀ r ∈ s.queue, r.port ≠ p

/-- A client uses the port it has, or a fresh one. -/
def PortFor (i : ι) (p : π) : Prop := s.replyPort i = some p ∨ s.replyPort i = none ∧ s.Fresh p

def acquire (i : ι) (p : π) : State ι π σ α β := { s with replyPort := Function.update s.replyPort i (some p) }

def release (i : ι) : State ι π σ α β := { s with replyPort := Function.update s.replyPort i none }

def send (i : ι) (p : π) (a : α) : State ι π σ α β :=
  { s with
    queue := s.queue ++ [⟨s.nextCall, p, a⟩]
    waiting := Function.update s.waiting i (some s.nextCall)
    nextCall := s.nextCall + 1 }

/-- The server has handled the request `r` that was at the head of the queue, and its reply is gone. -/
def handled (handle : α → σ → β × σ) (r : Request π α) (queue : List (Request π α)) : State ι π σ α β :=
  { s with
    server := (handle r.arg s.server).2
    queue := queue
    served := s.served ++ [⟨r.call, r.arg, (handle r.arg s.server).1⟩] }

def deliver (p : π) (n : Nat) (b : β) : State ι π σ α β :=
  { s with inbox := Function.update s.inbox p (s.inbox p ++ [(n, b)]) }

def take (i : ι) (p : π) (rest : List (Nat × β)) : State ι π σ α β :=
  { s with inbox := Function.update s.inbox p rest, waiting := Function.update s.waiting i none }

def giveUp (i : ι) (p : π) : State ι π σ α β :=
  { s with
    inbox := Function.update s.inbox p []
    replyPort := Function.update s.replyPort i none
    waiting := Function.update s.waiting i none }

/-- The calls whose reply is in the inbox of `p` or will be. -/
def pending (p : π) : List Nat :=
  (s.inbox p).map Prod.fst ++ (s.queue.filter fun r => r.port = p).map Request.call

end State

open State

/-- A call that fails before its request is sent may have made a reply port, and may have destroyed one. That
the server stops is seen, and no more: that it serves nothing afterwards is left to the system it is a part of. -/
inductive Step (handle : α → σ → β × σ) : State ι π σ α β → Label ι α β → State ι π σ α β → Prop
  | call {s i p a} : s.waiting i = none → s.PortFor i p →
      Step handle s (.call i s.nextCall a) ((s.acquire i p).send i p a)
  | fail {s i} : s.waiting i = none → Step handle s (.fail i) s
  | failKeeping {s i p} : s.waiting i = none → s.PortFor i p → Step handle s (.fail i) (s.acquire i p)
  | failDestroying {s i} : s.waiting i = none → Step handle s (.fail i) (s.release i)
  | serve {s r queue} : s.queue = r :: queue → (∃ i, s.replyPort i = some r.port) →
      Step handle s .serve ((s.handled handle r queue).deliver r.port r.call (handle r.arg s.server).1)
  | drop {s r queue} : s.queue = r :: queue → (∀ i, s.replyPort i ≠ some r.port) →
      Step handle s .serve (s.handled handle r queue)
  | ret {s i n p m b rest} : s.waiting i = some n → s.replyPort i = some p → s.inbox p = (m, b) :: rest →
      Step handle s (.ret i n b) (s.take i p rest)
  | abort {s i n p} : s.waiting i = some n → s.replyPort i = some p → Step handle s (.abort i) (s.giveUp i p)
  | stop {s} : Step handle s .stop s

variable {s s' : State ι π σ α β} {l : Label ι α β} {ls : List (Label ι α β)} {i j : ι} {n : Nat} {p q : π}
  {a : α} {b : β}

/-! ### Whose replies are where -/

/-- A port belongs to one client. Its owner waits for the only reply that is or will be there, or for none. -/
structure Ports (s : State ι π σ α β) : Prop where
  inj : ∀ {i j p}, s.replyPort i = some p → s.replyPort j = some p → i = j
  owner : ∀ {i n}, s.waiting i = some n → ∃ p, s.replyPort i = some p
  pending : ∀ {i p}, s.replyPort i = some p → s.pending p = (s.waiting i).toList
  stray : ∀ {p}, (∀ i, s.replyPort i ≠ some p) → s.inbox p = []

omit [DecidableEq ι] in
theorem ports_start (server : σ) : Ports (start server : State ι π σ α β) where
  inj h := by cases h
  owner h := by cases h
  pending h := by cases h
  stray _ := rfl

theorem pending_send : (s.send i q a).pending p = s.pending p ++ if q = p then [s.nextCall] else [] := by
  by_cases h : q = p <;> simp [State.pending, send, h]

omit [DecidableEq ι] in
theorem pending_handled {r : Request π α} {queue : List (Request π α)} (hq : s.queue = r :: queue)
    (hp : r.port ≠ p) : (s.handled handle r queue).pending p = s.pending p := by
  simp [State.pending, handled, hq, hp]

omit [DecidableEq ι] in
theorem pending_deliver {r : Request π α} {queue : List (Request π α)} (hq : s.queue = r :: queue) :
    ((s.handled handle r queue).deliver r.port r.call b).pending p = s.pending p := by
  by_cases hp : p = r.port
  · subst hp
    simp [State.pending, handled, deliver, hq]
  · have hp' : r.port ≠ p := fun h => hp h.symm
    simp [State.pending, handled, deliver, hq, hp, hp']

namespace Ports
variable (hs : Ports s)
include hs

theorem acquire (hi : s.waiting i = none) (hp : s.PortFor i p) : Ports (s.acquire i p) := by
  rcases hp with hp | ⟨hnone, hfree, hqueue⟩
  · have hsame : s.acquire i p = s := by
      unfold State.acquire
      rw [← hp, Function.update_eq_self]
    rwa [hsame]
  have hport : ∀ j, j ≠ i → (s.acquire i p).replyPort j = s.replyPort j := fun j hj => Function.update_of_ne hj ..
  have hself : (s.acquire i p).replyPort i = some p := Function.update_self ..
  have hempty : s.pending p = [] := by
    have hfilter : (s.queue.filter fun r => r.port = p) = [] := by simpa using hqueue
    rw [State.pending, hs.stray hfree, hfilter]; rfl
  constructor
  · intro j k q hj hk
    by_cases hji : j = i
    · by_cases hki : k = i
      · rw [hji, hki]
      · rw [hji, hself] at hj
        rw [hport k hki, ← hj] at hk
        exact absurd hk (hfree k)
    · rw [hport j hji] at hj
      by_cases hki : k = i
      · rw [hki, hself] at hk
        rw [← hk] at hj
        exact absurd hj (hfree j)
      · rw [hport k hki] at hk
        exact hs.inj hj hk
  · intro j n hj
    have hji : j ≠ i := by
      rintro rfl
      rw [show (s.acquire j p).waiting j = s.waiting j from rfl, hi] at hj; cases hj
    rw [hport j hji]
    exact hs.owner hj
  · intro j q hj
    by_cases hji : j = i
    · subst hji
      obtain rfl := Option.some.inj (hself.symm.trans hj)
      exact hempty.trans (by rw [show (s.acquire j p).waiting j = s.waiting j from rfl, hi]; rfl)
    · rw [hport j hji] at hj
      exact hs.pending hj
  · intro q hstray
    refine hs.stray fun j hj => ?_
    by_cases hji : j = i
    · rw [hji, hnone] at hj; cases hj
    · exact hstray j (by rw [hport j hji, hj])

theorem send (hi : s.waiting i = none) (hp : s.replyPort i = some p) : Ports (s.send i p a) := by
  refine ⟨hs.inj, ?_, ?_, hs.stray⟩
  · intro j n hj
    by_cases hji : j = i
    · exact ⟨p, by rw [hji]; exact hp⟩
    · exact hs.owner ((Function.update_of_ne hji ..).symm.trans hj)
  · intro j q hj
    have hq : s.replyPort j = some q := hj
    rw [pending_send, hs.pending hq]
    by_cases hji : j = i
    · subst hji
      obtain rfl := Option.some.inj (hp.symm.trans hq)
      simp [State.send, hi]
    · have hne : p ≠ q := by
        rintro rfl
        exact hji (hs.inj hq hp)
      simp [State.send, hji, hne]

theorem release (hi : s.waiting i = none) : Ports (s.release i) := by
  have hport : ∀ {j q}, (s.release i).replyPort j = some q → j ≠ i ∧ s.replyPort j = some q := by
    intro j q hj
    by_cases hji : j = i
    · rw [hji, show (s.release i).replyPort i = none from Function.update_self ..] at hj; cases hj
    · exact ⟨hji, (Function.update_of_ne hji ..).symm.trans hj⟩
  refine ⟨fun hj hk => hs.inj (hport hj).2 (hport hk).2, ?_, fun hj => hs.pending (hport hj).2, ?_⟩
  · intro j n hj
    rcases hs.owner hj with ⟨q, hq⟩
    have hji : j ≠ i := by
      rintro rfl
      rw [show (s.release j).waiting j = s.waiting j from rfl, hi] at hj; cases hj
    exact ⟨q, (Function.update_of_ne hji ..).trans hq⟩
  · intro q hfree
    by_cases hq : s.replyPort i = some q
    · -- nobody waited at the port
      have hnil := hs.pending hq
      rw [hi, State.pending] at hnil
      exact List.map_eq_nil_iff.1 (List.append_eq_nil_iff.1 hnil).1
    · refine hs.stray fun j hj => ?_
      by_cases hji : j = i
      · rw [hji] at hj
        exact hq hj
      · exact hfree j ((Function.update_of_ne hji ..).trans hj)

omit [DecidableEq ι] in
theorem serve {r : Request π α} {queue : List (Request π α)} (hq : s.queue = r :: queue)
    (hr : ∃ i, s.replyPort i = some r.port) : Ports ((s.handled handle r queue).deliver r.port r.call b) := by
  refine ⟨hs.inj, hs.owner, fun hj => ?_, fun hfree => ?_⟩
  · rw [pending_deliver hq]
    exact hs.pending hj
  · rcases hr with ⟨i, hi⟩
    refine (Function.update_of_ne ?_ ..).trans (hs.stray hfree)
    rintro rfl
    exact hfree i hi

omit [DecidableEq ι] in
theorem drop {r : Request π α} {queue : List (Request π α)} (hq : s.queue = r :: queue)
    (hr : ∀ i, s.replyPort i ≠ some r.port) : Ports (s.handled handle r queue) := by
  refine ⟨hs.inj, hs.owner, fun {j p} hj => ?_, hs.stray⟩
  have hne : r.port ≠ p := by
    rintro rfl
    exact hr j hj
  rw [pending_handled hq hne]
  exact hs.pending hj

omit [DecidableEq ι] in
/-- The reply that is taken is the one to the call. -/
theorem eq_of_inbox {m : Nat} {rest : List (Nat × β)} (hi : s.waiting i = some n) (hp : s.replyPort i = some p)
    (hin : s.inbox p = (m, b) :: rest) : m = n ∧ rest = [] ∧ (s.queue.filter fun r => r.port = p) = [] := by
  have hpending := hs.pending hp
  rw [State.pending, hin, hi, List.map_cons, List.cons_append] at hpending
  obtain ⟨rfl, hnil⟩ := List.cons.inj hpending
  rcases List.append_eq_nil_iff.1 hnil with ⟨hrest, hqueue⟩
  exact ⟨rfl, List.map_eq_nil_iff.1 hrest, List.map_eq_nil_iff.1 hqueue⟩

theorem take {m : Nat} {rest : List (Nat × β)} (hi : s.waiting i = some n) (hp : s.replyPort i = some p)
    (hin : s.inbox p = (m, b) :: rest) : Ports (s.take i p rest) := by
  rcases hs.eq_of_inbox hi hp hin with ⟨rfl, rfl, hqueue⟩
  refine ⟨hs.inj, ?_, ?_, ?_⟩
  · intro j k hj
    have hji : j ≠ i := by
      rintro rfl
      rw [show (s.take j p []).waiting j = none from Function.update_self ..] at hj; cases hj
    exact hs.owner ((Function.update_of_ne hji ..).symm.trans hj)
  · intro j q hj
    have hq : s.replyPort j = some q := hj
    by_cases hji : j = i
    · subst hji
      obtain rfl := Option.some.inj (hp.symm.trans hq)
      simp [State.pending, State.take, hqueue]
    · have hne : q ≠ p := by
        rintro rfl
        exact hji (hs.inj hq hp)
      have hpending := hs.pending hq
      simpa [State.pending, State.take, hji, hne] using hpending
  · intro q hfree
    by_cases hq : q = p
    · rw [hq]
      exact Function.update_self ..
    · exact (Function.update_of_ne hq ..).trans (hs.stray hfree)

theorem giveUp (hp : s.replyPort i = some p) : Ports (s.giveUp i p) := by
  have hport : ∀ {j q}, (s.giveUp i p).replyPort j = some q → j ≠ i ∧ q ≠ p ∧ s.replyPort j = some q := by
    intro j q hj
    have hji : j ≠ i := by
      rintro rfl
      rw [show (s.giveUp j p).replyPort j = none from Function.update_self ..] at hj; cases hj
    have hj' : s.replyPort j = some q := (Function.update_of_ne hji ..).symm.trans hj
    refine ⟨hji, ?_, hj'⟩
    rintro rfl
    exact hji (hs.inj hj' hp)
  refine ⟨fun hj hk => hs.inj (hport hj).2.2 (hport hk).2.2, ?_, ?_, ?_⟩
  · intro j n hj
    have hji : j ≠ i := by
      rintro rfl
      rw [show (s.giveUp j p).waiting j = none from Function.update_self ..] at hj; cases hj
    rcases hs.owner ((Function.update_of_ne hji ..).symm.trans hj) with ⟨q, hq⟩
    exact ⟨q, (Function.update_of_ne hji ..).trans hq⟩
  · intro j q hj
    rcases hport hj with ⟨hji, hne, hq⟩
    have hpending := hs.pending hq
    simpa [State.pending, State.giveUp, hji, hne] using hpending
  · intro q hfree
    by_cases hq : q = p
    · rw [hq]
      exact Function.update_self ..
    · refine (Function.update_of_ne hq ..).trans (hs.stray fun j hj => hfree j ?_)
      have hji : j ≠ i := by
        rintro rfl
        exact hq (Option.some.inj (hj.symm.trans hp))
      exact (Function.update_of_ne hji ..).trans hj

theorem step (h : Step handle s l s') : Ports s' := by
  cases h with
  | call hi hp => exact (hs.acquire hi hp).send hi (Function.update_self ..)
  | fail => exact hs
  | failKeeping hi hp => exact hs.acquire hi hp
  | failDestroying hi => exact hs.release hi
  | serve hq hr => exact hs.serve hq hr
  | drop hq hr => exact hs.drop hq hr
  | ret hi hp hin => exact hs.take hi hp hin
  | abort _ hp => exact hs.giveUp hp
  | stop => exact hs

end Ports

omit [DecidableEq ι] in
theorem inbox_deliver_subset : (s.deliver p n b).inbox q ⊆ s.inbox q ++ [(n, b)] := by
  by_cases hq : q = p
  · rw [hq, show (s.deliver p n b).inbox p = s.inbox p ++ [(n, b)] from Function.update_self ..]
    exact List.Subset.refl _
  · rw [show (s.deliver p n b).inbox q = s.inbox q from Function.update_of_ne hq ..]
    exact List.subset_append_left _ _

theorem inbox_giveUp_subset : (s.giveUp i p).inbox q ⊆ s.inbox q := by
  by_cases hq : q = p
  · rw [hq, show (s.giveUp i p).inbox p = [] from Function.update_self ..]
    exact List.nil_subset _
  · rw [show (s.giveUp i p).inbox q = s.inbox q from Function.update_of_ne hq ..]
    exact List.Subset.refl _

theorem waiting_of_giveUp (h : (s.giveUp i p).waiting j = some n) : s.waiting j = some n := by
  by_cases hji : j = i
  · rw [hji, show (s.giveUp i p).waiting i = none from Function.update_self ..] at h; cases h
  · exact (Function.update_of_ne hji ..).symm.trans h

/-! ### One call after the other -/

/-- `served` is what comes of handling its calls one after the other, from `σ₀` on. -/
inductive Serial (handle : α → σ → β × σ) (σ₀ : σ) : List (Served α β) → σ → Prop
  | nil : Serial handle σ₀ [] σ₀
  | snoc {served server n a} : Serial handle σ₀ served server →
      Serial handle σ₀ (served ++ [⟨n, a, (handle a server).1⟩]) (handle a server).2

/-- A call that has returned comes before every call made after it returned. -/
def RealTime (ls : List (Label ι α β)) : Prop :=
  ∀ before i n b rest, ls = before ++ .ret i n b :: rest → ∀ m ∈ rest.filterMap Label.called, n < m

/-- Calls are numbered as they are made. Those that were handled were handled one after the other, each at most once
and in the order in which they were made. A call that returned was handled with the result it returned. -/
structure Linearized (handle : α → σ → β × σ) (σ₀ : σ) (ls : List (Label ι α β)) (served : List (Served α β))
    (server : σ) : Prop where
  numbers : ls.filterMap Label.called = List.range (ls.filterMap Label.called).length
  serial : Serial handle σ₀ served server
  order : (served.map Served.call).Pairwise (· < ·)
  called : ∀ e ∈ served, ∃ i, .call i e.call e.arg ∈ ls
  answered : ∀ i n b, .ret i n b ∈ ls → ∃ a, .call i n a ∈ ls ∧ ⟨n, a, b⟩ ∈ served
  once : (ls.filterMap Label.returned).Nodup
  realTime : RealTime ls

/-- What the labels `ls` of a run tell about the state `s` it leads to. -/
structure History (handle : α → σ → β × σ) (σ₀ : σ) (ls : List (Label ι α β)) (s : State ι π σ α β) : Prop where
  ports : Ports s
  serial : Serial handle σ₀ s.served s.server
  numbers : ls.filterMap Label.called = List.range s.nextCall
  order : (s.served.map Served.call ++ s.queue.map Request.call).Pairwise (· < ·)
  served : ∀ e ∈ s.served, ∃ i, .call i e.call e.arg ∈ ls
  queued : ∀ r ∈ s.queue, ∃ i, .call i r.call r.arg ∈ ls
  waiting : ∀ {i n}, s.waiting i = some n → (∃ a, .call i n a ∈ ls) ∧ n ∉ ls.filterMap Label.returned
  inbox : ∀ {p n b}, (n, b) ∈ s.inbox p → ∃ a, ⟨n, a, b⟩ ∈ s.served
  answered : ∀ {i n b}, .ret i n b ∈ ls → ∃ a, .call i n a ∈ ls ∧ ⟨n, a, b⟩ ∈ s.served
  returned : (ls.filterMap Label.returned).Nodup
  realTime : RealTime ls

omit [DecidableEq ι] in
theorem history_start (handle : α → σ → β × σ) (server : σ) :
    History handle server [] (start server : State ι π σ α β) where
  ports := ports_start server
  serial := .nil
  numbers := rfl
  order := .nil
  served := by simp [start]
  queued := by simp [start]
  waiting h := by cases h
  inbox h := by cases h
  answered h := by cases h
  returned := .nil
  realTime before _ _ _ _ hnil := absurd hnil.symm (by simp)

namespace History
variable (h : History handle σ₀ ls s)
include h

omit [DecidableEq ι] in
theorem lt_nextCall (hcall : .call i n a ∈ ls) : n < s.nextCall := by
  have hmem : n ∈ ls.filterMap Label.called := List.mem_filterMap.2 ⟨_, hcall, rfl⟩
  rw [h.numbers] at hmem
  exact List.mem_range.1 hmem

omit [DecidableEq ι] in
/-- A number belongs to one call. -/
theorem call_inj {a' : α} (hi : .call i n a ∈ ls) (hj : .call j n a' ∈ ls) : i = j ∧ a = a' := by
  have hnodup : (ls.filterMap Label.called).Pairwise (· ≠ ·) := by
    rw [h.numbers]
    exact List.nodup_range
  rw [List.pairwise_filterMap] at hnodup
  have hsymm : Std.Symm fun l l' : Label ι α β => ∀ m, l.called = some m → ∀ k, l'.called = some k → m ≠ k :=
    ⟨fun _ _ hne k hk m hm => (hne m hm k hk).symm⟩
  by_contra hne
  refine hnodup.forall hi hj ?_ n rfl n rfl rfl
  rintro ⟨⟩
  exact hne ⟨rfl, rfl⟩

omit [DecidableEq ι] in
theorem realTime_concat (hl : ∀ m, l.called = some m → m = s.nextCall) : RealTime (ls ++ [l]) := by
  intro before i n b rest heq m hm
  rcases rest.eq_nil_or_concat with rfl | ⟨rest, l', rfl⟩
  · cases hm
  rw [List.concat_eq_append] at heq hm
  rw [← List.cons_append, ← List.append_assoc] at heq
  obtain ⟨rfl, hlast⟩ := List.append_inj' heq rfl
  obtain rfl := List.singleton_inj.1 hlast
  rw [List.filterMap_append, List.mem_append] at hm
  rcases hm with hm | hm
  · exact h.realTime before i n b rest rfl m hm
  · rcases List.mem_filterMap.1 hm with ⟨l', hl', hm⟩
    rw [List.mem_singleton.1 hl'] at hm
    rcases h.answered (List.mem_append_right _ (List.mem_cons_self ..)) with ⟨a, hcall, -⟩
    rw [hl m hm]
    exact h.lt_nextCall hcall

omit [DecidableEq ι] h in
theorem filterMap_concat_none {f : Label ι α β → Option Nat} (hl : f l = none) :
    (ls ++ [l]).filterMap f = ls.filterMap f := by
  rw [List.filterMap_append, List.filterMap_cons_none hl]
  exact List.append_nil _

omit [DecidableEq ι] in
/-- Steps that neither make a call nor return from one. -/
theorem silent (hcalled : l.called = none) (hreturned : l.returned = none) (hports : Ports s')
    (hserver : s'.server = s.server) (hserved : s'.served = s.served) (hqueue : s'.queue = s.queue)
    (hnext : s'.nextCall = s.nextCall) (hwaiting : ∀ i n, s'.waiting i = some n → s.waiting i = some n)
    (hinbox : ∀ p, s'.inbox p ⊆ s.inbox p) : History handle σ₀ (ls ++ [l]) s' where
  ports := hports
  serial := by rw [hserver, hserved]; exact h.serial
  numbers := by rw [filterMap_concat_none hcalled, hnext, h.numbers]
  order := by rw [hserved, hqueue]; exact h.order
  served e he := by
    rcases h.served e (hserved ▸ he) with ⟨i, hi⟩
    exact ⟨i, List.mem_append_left _ hi⟩
  queued r hr := by
    rcases h.queued r (hqueue ▸ hr) with ⟨i, hi⟩
    exact ⟨i, List.mem_append_left _ hi⟩
  waiting hi := by
    rcases h.waiting (hwaiting _ _ hi) with ⟨⟨a, ha⟩, hn⟩
    exact ⟨⟨a, List.mem_append_left _ ha⟩, by rwa [filterMap_concat_none hreturned]⟩
  inbox hmem := by
    rw [hserved]
    exact h.inbox (hinbox _ hmem)
  answered hmem := by
    rw [hserved]
    rcases List.mem_append.1 hmem with hmem | hmem
    · rcases h.answered hmem with ⟨a, ha, he⟩
      exact ⟨a, List.mem_append_left _ ha, he⟩
    · rw [← List.mem_singleton.1 hmem] at hreturned
      cases hreturned
  returned := by rw [filterMap_concat_none hreturned]; exact h.returned
  realTime := h.realTime_concat fun m hm => by rw [hcalled] at hm; cases hm

theorem call (hi : s.waiting i = none) (hp : s.PortFor i p) :
    History handle σ₀ (ls ++ [.call i s.nextCall a]) ((s.acquire i p).send i p a) where
  ports := (h.ports.acquire hi hp).send hi (Function.update_self ..)
  serial := h.serial
  numbers := by
    rw [List.filterMap_append, h.numbers]
    exact List.range_succ.symm
  order := by
    show (s.served.map Served.call ++ (s.queue ++ [(⟨s.nextCall, p, a⟩ : Request π α)]).map _).Pairwise (· < ·)
    rw [List.map_append, ← List.append_assoc, List.pairwise_append]
    refine ⟨h.order, List.pairwise_singleton .., fun n hn m hm => ?_⟩
    rw [List.mem_singleton.1 hm]
    rcases List.mem_append.1 hn with hn | hn
    · rcases List.mem_map.1 hn with ⟨e, he, rfl⟩
      rcases h.served e he with ⟨i, hcall⟩
      exact h.lt_nextCall hcall
    · rcases List.mem_map.1 hn with ⟨r, hr, rfl⟩
      rcases h.queued r hr with ⟨i, hcall⟩
      exact h.lt_nextCall hcall
  served e he := by
    rcases h.served e he with ⟨j, hj⟩
    exact ⟨j, List.mem_append_left _ hj⟩
  queued r hr := by
    rcases List.mem_append.1 hr with hr | hr
    · rcases h.queued r hr with ⟨j, hj⟩
      exact ⟨j, List.mem_append_left _ hj⟩
    · rw [List.mem_singleton.1 hr]
      exact ⟨i, List.mem_append_right _ (List.mem_singleton_self _)⟩
  waiting {j n} hj := by
    by_cases hji : j = i
    · subst hji
      have hself : ((s.acquire j p).send j p a).waiting j = some s.nextCall := Function.update_self ..
      obtain rfl := Option.some.inj (hself.symm.trans hj)
      refine ⟨⟨a, List.mem_append_right _ (List.mem_singleton_self _)⟩, fun hmem => ?_⟩
      rw [List.filterMap_append, List.mem_append] at hmem
      rcases hmem with hmem | hmem
      · -- a call that has returned was made before
        rcases List.mem_filterMap.1 hmem with ⟨l, hl, hn⟩
        cases l with
        | ret k m b =>
          obtain rfl := Option.some.inj hn
          rcases h.answered hl with ⟨a', ha', -⟩
          exact Nat.lt_irrefl _ (h.lt_nextCall ha')
        | _ => cases hn
      · cases hmem
    · rcases h.waiting ((Function.update_of_ne hji ..).symm.trans hj) with ⟨⟨a', ha'⟩, hn⟩
      refine ⟨⟨a', List.mem_append_left _ ha'⟩, fun hmem => hn ?_⟩
      rw [List.filterMap_append, List.mem_append] at hmem
      exact hmem.resolve_right (by rintro ⟨⟩)
  inbox hmem := h.inbox hmem
  answered hmem := by
    rcases List.mem_append.1 hmem with hmem | hmem
    · rcases h.answered hmem with ⟨a', ha', he⟩
      exact ⟨a', List.mem_append_left _ ha', he⟩
    · cases List.mem_singleton.1 hmem
  returned := by rw [filterMap_concat_none rfl]; exact h.returned
  realTime := h.realTime_concat fun m hm => (Option.some.inj hm).symm

omit [DecidableEq ι] in
/-- Whether or not the reply is delivered. -/
theorem handled {r : Request π α} {queue : List (Request π α)} (hq : s.queue = r :: queue) (hports : Ports s')
    (hserver : s'.server = (handle r.arg s.server).2)
    (hserved : s'.served = s.served ++ [⟨r.call, r.arg, (handle r.arg s.server).1⟩])
    (hqueue : s'.queue = queue) (hnext : s'.nextCall = s.nextCall) (hwaiting : s'.waiting = s.waiting)
    (hinbox : ∀ p, s'.inbox p ⊆ s.inbox p ++ [(r.call, (handle r.arg s.server).1)]) :
    History handle σ₀ (ls ++ [.serve]) s' where
  ports := hports
  serial := by
    rw [hserver, hserved]
    exact h.serial.snoc
  numbers := by rw [filterMap_concat_none rfl, hnext, h.numbers]
  order := by
    have horder := h.order
    rw [hq] at horder
    rw [hserved, hqueue]
    simpa using horder
  served e he := by
    rw [hserved] at he
    rcases List.mem_append.1 he with he | he
    · rcases h.served e he with ⟨i, hi⟩
      exact ⟨i, List.mem_append_left _ hi⟩
    · rw [List.mem_singleton.1 he]
      rcases h.queued r (hq ▸ List.mem_cons_self ..) with ⟨i, hi⟩
      exact ⟨i, List.mem_append_left _ hi⟩
  queued r' hr' := by
    rcases h.queued r' (hq ▸ List.mem_cons_of_mem _ (hqueue ▸ hr')) with ⟨i, hi⟩
    exact ⟨i, List.mem_append_left _ hi⟩
  waiting hi := by
    rw [hwaiting] at hi
    rcases h.waiting hi with ⟨⟨a, ha⟩, hn⟩
    exact ⟨⟨a, List.mem_append_left _ ha⟩, by rwa [filterMap_concat_none rfl]⟩
  inbox {p n b} hmem := by
    rw [hserved]
    rcases List.mem_append.1 (hinbox p hmem) with hmem | hmem
    · rcases h.inbox hmem with ⟨a, ha⟩
      exact ⟨a, List.mem_append_left _ ha⟩
    · obtain ⟨rfl, rfl⟩ := Prod.mk.inj (List.mem_singleton.1 hmem)
      exact ⟨r.arg, List.mem_append_right _ (List.mem_singleton_self _)⟩
  answered hmem := by
    rw [hserved]
    rcases List.mem_append.1 hmem with hmem | hmem
    · rcases h.answered hmem with ⟨a, ha, he⟩
      exact ⟨a, List.mem_append_left _ ha, List.mem_append_left _ he⟩
    · cases List.mem_singleton.1 hmem
  returned := by rw [filterMap_concat_none rfl]; exact h.returned
  realTime := h.realTime_concat fun m hm => by cases hm

theorem ret {m : Nat} {rest : List (Nat × β)} (hi : s.waiting i = some n) (hp : s.replyPort i = some p)
    (hin : s.inbox p = (m, b) :: rest) : History handle σ₀ (ls ++ [.ret i n b]) (s.take i p rest) := by
  obtain ⟨rfl, -, -⟩ := h.ports.eq_of_inbox hi hp hin
  rcases h.waiting hi with ⟨⟨a, ha⟩, hn⟩
  refine ⟨h.ports.take hi hp hin, h.serial, ?_, h.order, ?_, ?_, ?_, ?_, ?_, ?_,
    h.realTime_concat fun m hm => by cases hm⟩
  · rw [filterMap_concat_none rfl, h.numbers]
    rfl
  · intro e he
    rcases h.served e he with ⟨j, hj⟩
    exact ⟨j, List.mem_append_left _ hj⟩
  · intro r hr
    rcases h.queued r hr with ⟨j, hj⟩
    exact ⟨j, List.mem_append_left _ hj⟩
  · intro j k hj
    have hji : j ≠ i := by
      rintro rfl
      rw [show (s.take j p rest).waiting j = none from Function.update_self ..] at hj; cases hj
    rcases h.waiting ((Function.update_of_ne hji ..).symm.trans hj) with ⟨⟨a', ha'⟩, hk⟩
    refine ⟨⟨a', List.mem_append_left _ ha'⟩, fun hmem => ?_⟩
    rw [List.filterMap_append, List.mem_append] at hmem
    rcases hmem with hmem | hmem
    · exact hk hmem
    · obtain rfl := List.mem_singleton.1 hmem
      exact hji (h.call_inj ha' ha).1
  · intro q k c hmem
    by_cases hq : q = p
    · refine h.inbox (p := p) ?_
      rw [hin]
      rw [show (s.take i p rest).inbox q = rest from hq ▸ Function.update_self ..] at hmem
      exact List.mem_cons_of_mem _ hmem
    · exact h.inbox ((Function.update_of_ne hq ..).subst (motive := ((k, c) ∈ ·)) hmem)
  · intro j k c hmem
    rcases List.mem_append.1 hmem with hmem | hmem
    · rcases h.answered hmem with ⟨a', ha', he⟩
      exact ⟨a', List.mem_append_left _ ha', he⟩
    · obtain ⟨rfl, rfl, rfl⟩ := Label.ret.inj (List.mem_singleton.1 hmem)
      rcases h.inbox (hin ▸ List.mem_cons_self ..) with ⟨a', he⟩
      rcases h.served _ he with ⟨i', ha'⟩
      obtain ⟨-, rfl⟩ := h.call_inj ha ha'
      exact ⟨a, List.mem_append_left _ ha, he⟩
  · rw [List.filterMap_append, List.nodup_append]
    refine ⟨h.returned, List.nodup_singleton _, ?_⟩
    rintro k hk _ hm rfl
    obtain rfl := List.mem_singleton.1 hm
    exact hn hk

theorem step (hstep : Step handle s l s') : History handle σ₀ (ls ++ [l]) s' := by
  have hports := h.ports.step hstep
  cases hstep with
  | call hi hp => exact h.call hi hp
  | fail => exact h.silent rfl rfl hports rfl rfl rfl rfl (fun _ _ => id) fun _ => List.Subset.refl _
  | failKeeping => exact h.silent rfl rfl hports rfl rfl rfl rfl (fun _ _ => id) fun _ => List.Subset.refl _
  | failDestroying => exact h.silent rfl rfl hports rfl rfl rfl rfl (fun _ _ => id) fun _ => List.Subset.refl _
  | @serve r queue hq hr => exact h.handled hq hports rfl rfl rfl rfl rfl fun _ => inbox_deliver_subset
  | drop hq hr => exact h.handled hq hports rfl rfl rfl rfl rfl fun _ => List.subset_append_left _ _
  | ret hi hp hin => exact h.ret hi hp hin
  | abort => exact h.silent rfl rfl hports rfl rfl rfl rfl (fun _ _ => waiting_of_giveUp) fun _ => inbox_giveUp_subset
  | stop => exact h.silent rfl rfl hports rfl rfl rfl rfl (fun _ _ => id) fun _ => List.Subset.refl _

end History

theorem run_history (h : Run (Step handle) (start σ₀ : State ι π σ α β) ls s) : History handle σ₀ ls s :=
  h.invariant (history_start handle σ₀) fun h hstep => h.step hstep

omit [DecidableEq ι] in
theorem History.linearized (h : History handle σ₀ ls s) : Linearized handle σ₀ ls s.served s.server where
  numbers := by rw [h.numbers, List.length_range]
  serial := h.serial
  order := (List.pairwise_append.1 h.order).1
  called := h.served
  answered _ _ _ hret := h.answered hret
  once := h.returned
  realTime := h.realTime

omit [DecidableEq ι] in
/-- The same of a server that has handled the head of the queue without taking it from there. -/
theorem History.linearized_head (h : History handle σ₀ ls s) {r : Request π α} {queue : List (Request π α)}
    (hq : s.queue = r :: queue) :
    Linearized handle σ₀ ls (s.served ++ [⟨r.call, r.arg, (handle r.arg s.server).1⟩])
      (handle r.arg s.server).2 where
  numbers := h.linearized.numbers
  serial := h.serial.snoc
  order := by
    have horder := h.order
    rw [hq, List.map_cons, List.append_cons, ← List.map_singleton (f := Request.call)] at horder
    rw [List.map_append]
    exact (List.pairwise_append.1 horder).1
  called e he := by
    rcases List.mem_append.1 he with he | he
    · exact h.served e he
    · rw [List.mem_singleton.1 he]
      exact h.queued r (hq ▸ List.mem_cons_self ..)
  answered _ _ _ hret := by
    rcases h.answered hret with ⟨a, ha, he⟩
    exact ⟨a, ha, List.mem_append_left _ he⟩
  once := h.returned
  realTime := h.realTime

omit [DecidableEq ι] in
/-- Once everything has been served, a client that waits has its reply. -/
theorem Ports.exists_inbox (hs : Ports s) (hq : s.queue = []) (hi : s.waiting i = some n) :
    ∃ p b, s.replyPort i = some p ∧ s.inbox p = [(n, b)] := by
  rcases hs.owner hi with ⟨p, hp⟩
  have hpending := hs.pending hp
  rw [State.pending, hq, hi] at hpending
  obtain ⟨⟨m, b⟩, hin, hm⟩ := List.map_eq_singleton_iff.1 ((List.append_nil _).symm.trans hpending)
  obtain rfl : m = n := hm
  exact ⟨p, b, hp, hin⟩

end Rpc
