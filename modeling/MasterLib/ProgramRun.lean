import MasterLib.ExceptionProtocol
import MasterLib.Shadowing

/-!
# Runs of the whole program

What can happen in turn: the client calls the handler, a message arrives at the exception port, the target runs. A
run tells how far the program reaches into the target (`Confined`), by what flags it knows its breakpoints (`Flagged`),
and what comes of the exceptions: on no build is a breakpoint of that build handled, and no client is told that one
was (`Unhandled`).
-/

namespace MasterLib
open Overlay Session

variable {b : Build} {env : Env}

def Breakpoint.setCallback (cb : Option Callback) : Breakpoint b → Breakpoint b
  | .software bp => .software { bp with callback := cb }
  | .x86_64Hardware bp => .x86_64Hardware { bp with callback := cb }
  | .armv7Hardware bp => .armv7Hardware { bp with callback := cb }

inductive Action (b : Build)
  | install (bp : Option BpPtr) (immActive : Bool)
  | uninstall (bp : BpPtr)
  | enable (bp : BpPtr)
  | disable (bp : BpPtr)
  | setCallback (bp : BpPtr) (cb : Option Callback)
  | message (lookup : Lookup) (request out : Message)
  | target (run : Task b → Task b)

/-- Nothing is done once the program has ended. -/
def whileRunning (c : ExceptionHandler × Session b) (r : Option Message × ExceptionHandler × Session b) :
    Option Message × ExceptionHandler × Session b := if c.2.terminated then (none, c) else r

/-- One action, and the reply that is sent. The target goes on without the program. -/
def act (env : Env) (c : ExceptionHandler × Session b) : Action b → Option Message × ExceptionHandler × Session b
  | .install bp immActive => whileRunning c (none, c.1, (c.2.installBreakpoint env bp immActive).2)
  | .uninstall bp => whileRunning c (none, c.1, (c.2.uninstallBreakpoint env bp).2)
  | .enable bp => whileRunning c (none, c.1, (c.2.enableBreakpoint env bp).2)
  | .disable bp => whileRunning c (none, c.1, (c.2.disableBreakpoint env bp).2)
  | .setCallback bp cb =>
    whileRunning c (none, c.1, { c.2 with heap := Function.update c.2.heap bp ((c.2.heap bp).setCallback cb) })
  | .message lookup request out => whileRunning c ((catchFunctions env fun _ => lookup).serveOnce request out c)
  | .target run => (none, c.1, { c.2 with task := run c.2.task })

def runActions (env : Env) (acts : List (Action b)) (c : ExceptionHandler × Session b) :
    ExceptionHandler × Session b := acts.foldl (fun c a => (act env c a).2) c

/-- The breakpoint that the action calls `Apply` of. -/
def Action.applies : Action b → Option BpPtr
  | .install (some p) true => some p
  | .enable p => some p
  | _ => none

variable {c : ExceptionHandler × Session b} {a : Action b} {s s' : Session b} {p q : BpPtr}

/-- A message with nothing in between. -/
def arrived (lookup : Lookup) (request out : Message) : Arrival b :=
  ⟨id, fun _ => rfl, fun _ => id, lookup, request, out⟩

theorem act_message (lookup : Lookup) (request out : Message) :
    act env c (.message lookup request out) = (arrived lookup request out).serve env c := rfl

theorem act_message_snd (lookup : Lookup) (request out : Message) : (act env c (.message lookup request out)).2 =
    match raised request with
    | none => c
    | some exception => if c.2.terminated then c else (c.2.exceptionCallback env lookup c.1 exception).2 := by
  rw [act_message, Arrival.serve_snd, show (arrived (b := b) lookup request out).request = request from rfl]
  cases raised request <;> rfl

theorem whileRunning_induct {R : Session b → Prop} {r : Option Message × ExceptionHandler × Session b} (h : R c.2)
    (hr : R r.2.2) : R (whileRunning c r).2.2 := by
  unfold whileRunning
  split
  · exact h
  · exact hr

section
variable {R : Session b → Prop} (hlist : ∀ {s}, R s → ∀ list, R { s with breakpoints := list })
  (hcallback : ∀ {s}, R s → ∀ p cb, R { s with heap := Function.update s.heap p ((s.heap p).setCallback cb) })
  (happly : ∀ p ∈ a.applies, R (c.2.callApply env p).2) (hreset : ∀ {s}, R s → ∀ p, R (s.callReset env p).2)
include hlist hcallback happly hreset

/-- What survives each thing a client's action does to a session survives the action. -/
theorem client_induct (hmessage : ∀ lookup request out, a ≠ .message lookup request out)
    (htarget : ∀ run, a ≠ .target run) (h : R c.2) : R (act env c a).2.2 := by
  cases a with
  | install bp immActive =>
    refine whileRunning_induct h ?_
    cases bp with
    | none => exact h
    | some p =>
      cases immActive with
      | false => exact hlist h _
      | true =>
        show R (c.2.installBreakpoint env (some p) true).2
        rw [installBreakpoint_true]
        exact hlist (happly p rfl) _
  | uninstall p =>
    have hresets : ∀ k (s : Session b), R s → R (resetTimes env p k s).2 := by
      intro k
      induction k with
      | zero => exact fun _ => id
      | succ k ih =>
        intro s hs
        rw [resetTimes]
        split
        · exact ih _ (hreset hs p)
        · exact hreset hs p
    rcases c.2.uninstallBreakpoint_spec env p with ⟨exit, list, heq, -⟩
    refine whileRunning_induct h ?_
    show R (c.2.uninstallBreakpoint env p).2
    rw [heq]
    exact hlist (hresets _ _ h) _
  | enable p => exact whileRunning_induct h (happly p rfl)
  | disable p => exact whileRunning_induct h (hreset h p)
  | setCallback p cb => exact whileRunning_induct h (hcallback h p cb)
  | message lookup request out => exact absurd rfl (hmessage lookup request out)
  | target run => exact absurd rfl (htarget run)

/-- An exception is a `Reset` at most, and otherwise a matter of threads and callbacks, one of which may end the
program. -/
theorem act_induct (hlog : ∀ {s}, R s → ∀ p, R { s with log := .callback p :: s.log })
    (hthreads : ∀ {s}, R s → ∀ threads calls others,
      R { s with task := { s.task with threads := threads, calls := calls }, others := others })
    (hterminated : ∀ {s}, R s → R { s with terminated := true })
    (htarget : ∀ run, a ≠ .target run) (h : R c.2) : R (act env c a).2.2 := by
  by_cases hmessage : ∃ lookup request out, a = .message lookup request out
  swap
  · exact client_induct hlist hcallback happly hreset
      (fun lookup request out ha => hmessage ⟨lookup, request, out, ha⟩) htarget h
  rcases hmessage with ⟨lookup, request, out, rfl⟩
  rw [act_message_snd]
  cases raised request with
  | none => exact h
  | some exception =>
    dsimp only
    split
    · exact h
    show R (c.2.exceptionCallback env lookup c.1 exception).2.2
    have hsuspend : R (c.2.suspend exception.thread) := hthreads h _ c.2.task.calls _
    have hcalled : ∀ p, R ((c.2.suspend exception.thread).called p) := by
      intro p
      unfold called
      split
      · exact hlog hsuspend p
      · exact hsuspend
    rcases exceptionCallback_cases env lookup exception c.2 with
      htype | ⟨htype, hc⟩ | ⟨p, state, hc, hthrown | ⟨left, hleft⟩⟩
    · rw [exceptionCallback_foreign htype]
      exact hsuspend
    · rw [exceptionCallback_uncaught htype hc]
      exact hthreads hsuspend _ c.2.task.calls _
    · rw [exceptionCallback_thrown hc hthrown]
      exact hterminated (hcalled p)
    · rw [exceptionCallback_served hc hleft]
      exact hthreads (hreset (hthreads (hcalled p) _ _ _) p) _ _ _

end

/-! ### How far the program reaches -/

namespace SoftwareBreakpoint

/-- How many bytes the object has saved at most, once it has been applied `n` times more. -/
def saves (bp : SoftwareBreakpoint b) (n : Nat) : Nat :=
  match bp.kind with
  | .x86_64 => bp.originalOpcode.length + n
  | _ => max bp.size bp.originalOpcode.length

/-- How many bytes from its address on the object has written at most. -/
def extent (bp : SoftwareBreakpoint b) (n : Nat) : Nat := max bp.size (bp.saves n)

/-- `bp` is what `n` calls of `Apply` and any of `Reset` leave of `bp₀`. -/
structure Grown (bp₀ : SoftwareBreakpoint b) (n : Nat) (bp : SoftwareBreakpoint b) : Prop where
  kind : bp.kind = bp₀.kind
  address : bp.address = bp₀.address
  length : bp.originalOpcode.length ≤ bp₀.saves n

variable {bp₀ bp : SoftwareBreakpoint b} {n n' : Nat}

theorem saves_mono (h : n ≤ n') : bp.saves n ≤ bp.saves n' := by
  unfold saves
  split <;> omega

theorem extent_mono (h : n ≤ n') : bp.extent n ≤ bp.extent n' := max_le_max_left _ (saves_mono h)

theorem Grown.self : bp.Grown 0 bp := by
  refine ⟨rfl, rfl, ?_⟩
  unfold saves
  split <;> omega

theorem Grown.mono (h : n ≤ n') (hbp : bp₀.Grown n bp) : bp₀.Grown n' bp :=
  ⟨hbp.kind, hbp.address, hbp.length.trans (saves_mono h)⟩

theorem Grown.size (hbp : bp₀.Grown n bp) : bp.size = bp₀.size := by
  unfold SoftwareBreakpoint.size
  rw [hbp.kind]

theorem Grown.afterApply (hbp : bp₀.Grown n bp) {read : List Byte} (hread : read.length = bp.size) :
    bp₀.Grown (n + 1) (bp.afterApply read) := by
  refine ⟨hbp.kind, hbp.address, ?_⟩
  have hlen := hbp.length
  rw [hbp.size] at hread
  rw [originalOpcode_afterApply, hbp.kind]
  unfold saves at *
  cases hk : bp₀.kind with
  | x86_64 =>
    rw [hk] at hlen
    have hsize : bp₀.size = 1 := by
      unfold SoftwareBreakpoint.size
      rw [hk]
      rfl
    show (bp.originalOpcode ++ read).length ≤ bp₀.originalOpcode.length + (n + 1)
    rw [List.length_append]
    change bp.originalOpcode.length ≤ bp₀.originalOpcode.length + n at hlen
    omega
  | armv7 => exact hread.le.trans (le_max_left ..)
  | thumbv7 => exact hread.le.trans (le_max_left ..)

theorem Grown.wasReset (hbp : bp₀.Grown n bp) : bp₀.Grown n bp.wasReset := ⟨hbp.kind, hbp.address, hbp.length⟩

end SoftwareBreakpoint

theorem Touches.mono {addr : VmAddress b} {size size' pg : Nat} (h : size ≤ size') (hpg : Touches addr size pg) :
    Touches addr size' pg := by
  rcases hpg with ⟨hne, hlow, hhigh⟩
  exact ⟨by omega, hlow, by omega⟩

namespace Breakpoint

def Grown (bp₀ : Breakpoint b) (n : Nat) (bp : Breakpoint b) : Prop :=
  match bp₀, bp with
  | .software bp₀, .software bp => bp₀.Grown n bp
  | .x86_64Hardware _, .x86_64Hardware _ => True
  | .armv7Hardware _, .armv7Hardware _ => True
  | _, _ => False

/-- The bytes of the target that the object has written after `n` calls of `Apply`. -/
def Reaches (bp : Breakpoint b) (n : Nat) (x : VmAddress b) : Prop :=
  match bp with
  | .software bp => InRange bp.address (bp.extent n) x
  | _ => False

/-- The pages whose protection it has set. -/
def ReachesPage (bp : Breakpoint b) (n pg : Nat) : Prop :=
  match bp with
  | .software bp => Touches bp.address (bp.extent n) pg
  | _ => False

variable {bp₀ bp : Breakpoint b} {n n' pg : Nat} {x : VmAddress b}

theorem Grown.self (bp : Breakpoint b) : bp.Grown 0 bp := by
  cases bp with
  | software bp => exact SoftwareBreakpoint.Grown.self
  | x86_64Hardware => trivial
  | armv7Hardware => trivial

theorem Grown.mono (h : n ≤ n') (hbp : bp₀.Grown n bp) : bp₀.Grown n' bp := by
  cases bp₀ <;> cases bp <;> first | exact hbp | exact SoftwareBreakpoint.Grown.mono h hbp

theorem Grown.setCallback (hbp : bp₀.Grown n bp) (cb : Option Callback) : bp₀.Grown n (bp.setCallback cb) := by
  cases bp₀ <;> cases bp <;> first | exact hbp | exact ⟨hbp.kind, hbp.address, hbp.length⟩

theorem Grown.software {bp : SoftwareBreakpoint b} (h : bp₀.Grown n (.software bp)) :
    ∃ bp₀', bp₀ = .software bp₀' ∧ bp₀'.Grown n bp := by
  cases bp₀ with
  | software bp₀ => exact ⟨bp₀, rfl, h⟩
  | x86_64Hardware => exact h.elim
  | armv7Hardware => exact h.elim

theorem Grown.hardware {bp bp' : X86_64HardwareBreakpoint b} (h : bp₀.Grown n (.x86_64Hardware bp)) :
    bp₀.Grown n (.x86_64Hardware bp') := by
  cases bp₀ <;> exact h

theorem Reaches.mono (h : n ≤ n') (hx : bp.Reaches n x) : bp.Reaches n' x := by
  cases bp with
  | software bp => exact InRange.mono hx (SoftwareBreakpoint.extent_mono h)
  | x86_64Hardware => exact hx
  | armv7Hardware => exact hx

theorem ReachesPage.mono (h : n ≤ n') (hpg : bp.ReachesPage n pg) : bp.ReachesPage n' pg := by
  cases bp with
  | software bp => exact Touches.mono (SoftwareBreakpoint.extent_mono h) hpg
  | x86_64Hardware => exact hpg
  | armv7Hardware => exact hpg

end Breakpoint

theorem mem_putThreads (t : Task b) (ignore : MachPort) (ths : List Thread) :
    (t.putThreads ignore ths).mem = t.mem ∧ (t.putThreads ignore ths).prot = t.prot := by
  unfold Task.putThreads
  split <;> exact ⟨rfl, rfl⟩

/-- A forced write leaves a page as it is, or as one of its two calls of `vm_protect` makes it. -/
theorem prot_writeMemory (env : Env) (a : VmAddress b) (bs : List Byte) (t : Task b) (pg : Nat) :
    (writeMemory env a bs true t).2.prot pg = t.prot pg ∨ Touches a bs.length pg ∧
      ((writeMemory env a bs true t).2.prot pg = protRX ∨ (writeMemory env a bs true t).2.prot pg = protRWX) := by
  have hprotect : ∀ prot, protect t.prot a bs.length prot pg = t.prot pg ∨
      Touches a bs.length pg ∧ protect t.prot a bs.length prot pg = prot := by
    intro prot
    unfold protect
    by_cases hpg : Touches a bs.length pg
    · rw [if_pos hpg]
      exact .inr ⟨hpg, rfl⟩
    · rw [if_neg hpg]
      exact .inl rfl
  cases hfail : env.firstFailure t.calls 3 with
  | none =>
    rw [writeMemory_none hfail]
    exact (hprotect protRX).imp_right fun h => ⟨h.1, .inl h.2⟩
  | some i =>
    rw [writeMemory_some hfail]
    dsimp only
    split
    · exact (hprotect protRWX).imp_right fun h => ⟨h.1, .inr h.2⟩
    · exact .inl rfl

/-- From `s` to `s'` nothing was written but what the breakpoints reach, and every page has the protection it had or
one of those that a write sets. -/
structure Confined (bps : BpPtr → Breakpoint b) (n : BpPtr → Nat) (s s' : Session b) : Prop where
  objects : ∀ p, (bps p).Grown (n p) (s'.heap p)
  mem : ∀ x, (∀ p, ¬(bps p).Reaches (n p) x) → s'.task.mem x = s.task.mem x
  prot : ∀ pg, s'.task.prot pg = s.task.prot pg ∨
    (∃ p, (bps p).ReachesPage (n p) pg) ∧ (s'.task.prot pg = protRX ∨ s'.task.prot pg = protRWX)

namespace Confined
variable {bps : BpPtr → Breakpoint b} {n n' : BpPtr → Nat} (h : Confined bps n s s')
include h

theorem mono (hn : ∀ p, n p ≤ n' p) : Confined bps n' s s' where
  objects p := (h.objects p).mono (hn p)
  mem x hx := h.mem x fun p hp => hx p (hp.mono (hn p))
  prot pg := (h.prot pg).imp_right fun hpg => ⟨hpg.1.imp fun p hp => hp.mono (hn p), hpg.2⟩

theorem objects_update {bp : Breakpoint b} (hbp : (bps p).Grown (n p) bp) (q : BpPtr) :
    (bps q).Grown (n q) (Function.update s'.heap p bp q) := by
  by_cases hqp : q = p
  · subst hqp
    rwa [Function.update_self]
  · rw [Function.update_of_ne hqp]
    exact h.objects q

/-- A forced write of what the object at `p` reaches. -/
theorem write {bp₀ : SoftwareBreakpoint b} {bytes : List Byte} {bp : Breakpoint b} {t : Task b} {log : List Event}
    (hp : bps p = .software bp₀) (hbytes : bytes.length ≤ bp₀.extent (n p)) (hbp : (bps p).Grown (n p) bp)
    (hmem : t.mem = s'.task.mem) (hprot : t.prot = s'.task.prot) :
    Confined bps n s { s' with
      heap := Function.update s'.heap p bp
      task := (writeMemory env bp₀.address bytes true t).2
      log := log } where
  objects := h.objects_update hbp
  mem x hx := by
    have hout : ¬InRange bp₀.address (sent bytes).length x := by
      have hxp := hx p
      rw [hp] at hxp
      exact fun hin => hxp (hin.mono ((length_sent_le bytes).trans hbytes))
    show (writeMemory env bp₀.address bytes true t).2.mem x = _
    rw [← h.mem x hx, ← hmem, mem_writeMemory]
    split
    · exact overlay_of_not_inRange hout
    · rfl
  prot pg := by
    have hsame := h.prot pg
    rw [← hprot] at hsame
    rcases prot_writeMemory env bp₀.address bytes t pg with heq | ⟨hpg, heq⟩
    · rw [← heq] at hsame
      exact hsame
    · refine .inr ⟨⟨p, ?_⟩, heq⟩
      rw [hp]
      exact Touches.mono hbytes hpg

/-- Nothing of the target's memory is touched. -/
theorem update {bp : Breakpoint b} {t : Task b} {log : List Event} (hbp : (bps p).Grown (n p) bp)
    (hmem : t.mem = s'.task.mem) (hprot : t.prot = s'.task.prot) :
    Confined bps n s { s' with heap := Function.update s'.heap p bp, task := t, log := log } where
  objects := h.objects_update hbp
  mem x hx := by rw [← h.mem x hx, ← hmem]
  prot pg := by
    have hsame := h.prot pg
    rw [← hprot] at hsame
    exact hsame

theorem callApply (hp : n p + 1 ≤ n' p) (hn : ∀ q, n q ≤ n' q) : Confined bps n' s (s'.callApply env p).2 := by
  have h' := h.mono hn
  have hgrown := h.objects p
  have hself := h'.objects p
  cases hbp : s'.heap p with
  | software bp =>
    rw [hbp] at hgrown
    obtain ⟨bp₀, hbp₀, hgrown⟩ := hgrown.software
    have hopcode : bp.kind.opcode.length ≤ bp₀.extent (n' p) := hgrown.size.le.trans (le_max_left ..)
    have happlied : (bps p).Grown (n' p) (.software (bp.afterApply (bytesRead env s'.task bp.address bp.size))) := by
      rw [hbp₀]
      exact (hgrown.afterApply (length_bytesRead ..)).mono hp
    rw [callApply_software hbp, hgrown.address]
    rw [hgrown.address] at happlied
    exact h'.write hbp₀ hopcode happlied rfl rfl
  | x86_64Hardware bp =>
    rw [hbp] at hself
    rw [callApply_hardware hbp]
    exact h'.update hself.hardware (mem_putThreads ..).1 (mem_putThreads ..).2
  | armv7Hardware bp =>
    rw [callApply_armv7Hardware hbp]
    exact h'.update (hbp ▸ hself) rfl rfl

theorem callReset (p : BpPtr) : Confined bps n s (s'.callReset env p).2 := by
  have hself := h.objects p
  cases hbp : s'.heap p with
  | software bp =>
    rw [hbp] at hself
    obtain ⟨bp₀, hbp₀, hgrown⟩ := hself.software
    have hbytes : bp.originalOpcode.length ≤ bp₀.extent (n p) := hgrown.length.trans (le_max_right ..)
    rw [callReset_software hbp, hgrown.address]
    refine h.write hbp₀ hbytes ?_ rfl rfl
    rw [hbp₀]
    exact hgrown.wasReset
  | x86_64Hardware bp =>
    rw [hbp] at hself
    rw [callReset_hardware hbp]
    exact h.update hself.hardware (mem_putThreads ..).1 (mem_putThreads ..).2
  | armv7Hardware bp =>
    rw [callReset_armv7Hardware hbp]
    exact h.update (hbp ▸ hself) rfl rfl

end Confined

theorem confined_self {bps : BpPtr → Breakpoint b} {n : BpPtr → Nat} (h : ∀ p, (bps p).Grown (n p) (s.heap p)) :
    Confined bps n s s := ⟨h, fun _ _ => rfl, fun _ => .inl rfl⟩

theorem confined_act {bps : BpPtr → Breakpoint b} {n n' : BpPtr → Nat}
    (h : ∀ p, (bps p).Grown (n p) (c.2.heap p)) (htarget : ∀ run, a ≠ .target run) (hn : ∀ p, n p ≤ n' p)
    (happlies : ∀ p ∈ a.applies, n p + 1 ≤ n' p) : Confined bps n' c.2 (act env c a).2.2 := by
  have hself := confined_self h
  refine act_induct ?_ ?_ ?_ ?_ ?_ ?_ ?_ htarget (hself.mono hn)
  · exact fun hs _ => ⟨hs.objects, hs.mem, hs.prot⟩
  · exact fun hs p cb => hs.update ((hs.objects p).setCallback cb) rfl rfl
  · exact fun p hp => hself.callApply (happlies p hp) hn
  · exact fun hs p => hs.callReset p
  · exact fun hs _ => ⟨hs.objects, hs.mem, hs.prot⟩
  · exact fun hs _ _ _ => ⟨hs.objects, hs.mem, hs.prot⟩
  · exact fun hs => ⟨hs.objects, hs.mem, hs.prot⟩

/-- How often the actions have called `Apply` of an object. -/
def appliesIn (acts : List (Action b)) (p : BpPtr) : Nat := acts.countP fun a => a.applies = some p

theorem appliesIn_concat (acts : List (Action b)) (a : Action b) (p : BpPtr) :
    appliesIn (acts ++ [a]) p = appliesIn acts p + if a.applies = some p then 1 else 0 := by
  unfold appliesIn
  rw [List.countP_append, List.countP_singleton]
  simp

theorem runActions_concat (acts : List (Action b)) (a : Action b) :
    runActions env (acts ++ [a]) c = (act env (runActions env acts c) a).2 := by
  unfold runActions
  rw [List.foldl_append]
  rfl

theorem confined_step {bps : BpPtr → Breakpoint b} {acts : List (Action b)}
    (h : ∀ p, (bps p).Grown (appliesIn acts p) (c.2.heap p)) (htarget : ∀ run, a ≠ .target run) :
    Confined bps (appliesIn (acts ++ [a])) c.2 (act env c a).2.2 := by
  refine confined_act h htarget (fun p => ?_) fun p hp => ?_
  · rw [appliesIn_concat]
    exact Nat.le_add_right ..
  · rw [appliesIn_concat, if_pos (show a.applies = some p from hp)]

theorem grown_runActions (acts : List (Action b)) (p : BpPtr) :
    (c.2.heap p).Grown (appliesIn acts p) ((runActions env acts c).2.heap p) := by
  induction acts using List.reverseRecOn generalizing p with
  | nil => exact Breakpoint.Grown.self _
  | append_singleton acts a ih =>
    rw [runActions_concat]
    by_cases htarget : ∃ run, a = .target run
    · rcases htarget with ⟨run, rfl⟩
      refine (ih p).mono ?_
      rw [appliesIn_concat]
      exact Nat.le_add_right ..
    · exact (confined_step ih (not_exists.1 htarget)).objects p

/-- Where a run has led, no action of the program reaches further into the target than the breakpoints do, an object
that has been applied `n` times by `n` bytes or the length of its opcode, whatever fails. -/
theorem act_confined (env : Env) (c : ExceptionHandler × Session b) (acts : List (Action b)) (a : Action b) :
    (∃ run, a = .target run) ∨
      Confined c.2.heap (appliesIn (acts ++ [a])) (runActions env acts c).2
        (act env (runActions env acts c) a).2.2 := by
  by_cases htarget : ∃ run, a = .target run
  · exact .inl htarget
  · exact .inr (confined_step (grown_runActions acts) (not_exists.1 htarget))

/-! ### The lists of `Breakpoints` -/

/-- `BKPT_ENABLED` and `BKPT_DISABLED`. -/
def bkptEnabled : BitVec 32 := 1 <<< 0
def bkptDisabled : BitVec 32 := 1 <<< 1

/-- `Breakpoints`. -/
def Session.breakpointsWith (flags : BitVec 32) (s : Session b) : List BpPtr :=
  s.breakpoints.flatMap fun p =>
    (if flags &&& bkptEnabled ≠ 0 ∧ (s.heap p).active then [p] else []) ++
      if flags &&& bkptDisabled ≠ 0 ∧ !(s.heap p).active then [p] else []

/-- `active_` after calls of which `last` was the last. -/
def SoftwareBreakpoint.flagAfter (bp : SoftwareBreakpoint b) (last : Option Bool) : Bool :=
  last.elim bp.active fun new => bp.kind.flag new bp.active

theorem SoftwareBreakpoint.flag_flagAfter (bp : SoftwareBreakpoint b) (last : Option Bool) (new : Bool) :
    bp.kind.flag new (bp.flagAfter last) = bp.flagAfter (some new) := by
  unfold flagAfter
  cases bp.kind <;> cases last <;> rfl

theorem breakpointsWith_eq (flags : BitVec 32) (s : Session b) : s.breakpointsWith flags =
    s.breakpoints.filter fun p => flags.getLsbD (if (s.heap p).active then 0 else 1) := by
  have henabled : flags &&& bkptEnabled ≠ 0 ↔ flags.getLsbD 0 = true := by
    rw [show bkptEnabled = BitVec.twoPow 32 0 from rfl, BitVec.and_twoPow]
    cases flags.getLsbD 0 <;> decide
  have hdisabled : flags &&& bkptDisabled ≠ 0 ↔ flags.getLsbD 1 = true := by
    rw [show bkptDisabled = BitVec.twoPow 32 1 from rfl, BitVec.and_twoPow]
    cases flags.getLsbD 1 <;> decide
  unfold Session.breakpointsWith
  simp only [henabled, hdisabled]
  induction s.breakpoints with
  | nil => rfl
  | cons p list ih =>
    rw [List.flatMap_cons, List.filter_cons, ih]
    cases (s.heap p).active <;> simp <;> split <;> rfl

/-- What became of the flag of each software breakpoint. -/
def Flagged (bps : BpPtr → Breakpoint b) (s : Session b) : Prop :=
  ∀ p bp, bps p = .software bp →
    ∃ bp', s.heap p = .software bp' ∧ bp'.kind = bp.kind ∧ bp'.active = bp.flagAfter (lastCall p s.log)

namespace Flagged
variable {bps : BpPtr → Breakpoint b} (h : Flagged bps s)
include h

/-- A call for the object at `p`, which leaves the others alone. -/
theorem call {new : Bool} (hcalled : ∀ bp, s.heap p = .software bp → ∃ bp', s'.heap p = .software bp' ∧
      bp'.kind = bp.kind ∧ bp'.active = bp.kind.flag new bp.active) (hheap : ∀ q ≠ p, s'.heap q = s.heap q)
    (hlast : lastCall p s'.log = some new) (hlog : ∀ q ≠ p, lastCall q s'.log = lastCall q s.log) :
    Flagged bps s' := by
  intro q bq hq
  rcases h q bq hq with ⟨bq', hbq', hkind, hactive⟩
  by_cases hqp : q = p
  · subst hqp
    rcases hcalled bq' hbq' with ⟨bp', hbp', hkind', hactive'⟩
    refine ⟨bp', hbp', hkind'.trans hkind, ?_⟩
    rw [hactive', hlast, hkind, hactive, SoftwareBreakpoint.flag_flagAfter]
  · rw [hheap q hqp, hlog q hqp]
    exact ⟨bq', hbq', hkind, hactive⟩

theorem callApply (p : BpPtr) : Flagged bps (s.callApply env p).2 := by
  refine h.call (fun bp hp => ?_) (fun q hqp => Function.update_of_ne hqp ..) (if_pos rfl) fun q hqp => if_neg hqp.symm
  rw [callApply_software hp]
  exact ⟨_, Function.update_self .., rfl, rfl⟩

theorem callReset (p : BpPtr) : Flagged bps (s.callReset env p).2 := by
  refine h.call (fun bp hp => ?_) (fun q hqp => Function.update_of_ne hqp ..) (if_pos rfl) fun q hqp => if_neg hqp.symm
  rw [callReset_software hp]
  exact ⟨_, Function.update_self .., rfl, rfl⟩

theorem setCallback (p : BpPtr) (cb : Option Callback) :
    Flagged bps { s with heap := Function.update s.heap p ((s.heap p).setCallback cb) } := by
  intro q bq hq
  rcases h q bq hq with ⟨bq', hbq', hkind, hactive⟩
  by_cases hqp : q = p
  · subst hqp
    refine ⟨{ bq' with callback := cb }, ?_, hkind, hactive⟩
    show Function.update s.heap q ((s.heap q).setCallback cb) q = _
    rw [Function.update_self, hbq']
    rfl
  · exact ⟨bq', (Function.update_of_ne hqp ..).trans hbq', hkind, hactive⟩

end Flagged

theorem Flagged.step {bps : BpPtr → Breakpoint b} (h : Flagged bps c.2) (a : Action b) :
    Flagged bps (act env c a).2.2 := by
  by_cases htarget : ∃ run, a = .target run
  · rcases htarget with ⟨run, rfl⟩
    exact h
  · refine act_induct ?_ ?_ ?_ ?_ ?_ ?_ ?_ (not_exists.1 htarget) h
    · exact fun hs _ => hs
    · exact fun hs p cb => hs.setCallback p cb
    · exact fun p _ => h.callApply p
    · exact fun hs p => hs.callReset p
    · exact fun hs _ => hs
    · exact fun hs _ _ _ => hs
    · exact fun hs => hs

/-- Whatever has happened, and whatever has failed: `Breakpoints` lists the registered breakpoints in their order, each
once for each time it is registered, by a flag that for a software breakpoint tells the last call of the handler if it
is one for x86, and nothing but what it was made with if it is one for ARM. -/
theorem breakpointsWith_runActions (env : Env) (handler : ExceptionHandler) (bps : BpPtr → Breakpoint b)
    (mem : VmAddress b → Byte) (threads : List Thread) (acts : List (Action b)) (flags : BitVec 32) :
    let s := (runActions env acts (handler, start bps mem threads)).2
    s.breakpointsWith flags =
        s.breakpoints.filter (fun p => flags.getLsbD (if (s.heap p).active then 0 else 1)) ∧
      ∀ p bp, bps p = .software bp → (s.heap p).active = bp.flagAfter (lastCall p s.log) := by
  have hflagged : Flagged bps (runActions env acts (handler, start bps mem threads)).2 := by
    induction acts using List.reverseRecOn with
    | nil => exact fun p bp hp => ⟨bp, hp, rfl, rfl⟩
    | append_singleton acts a ih =>
      rw [runActions_concat]
      exact ih.step a
  refine ⟨breakpointsWith_eq .., fun p bp hp => ?_⟩
  rcases hflagged p bp hp with ⟨bp', hbp', -, hactive⟩
  rw [hbp']
  exact hactive

/-! ### No breakpoint is ever handled -/

/-- The classes of an ARM build do not write `active_`, and only on an ARM build is there a thread state. -/
structure Unhandled (s : Session b) : Prop where
  native : ∀ p, (s.heap p).Native
  inactive : b.isX86 = false → ∀ p, (s.heap p).active = false

namespace Breakpoint
variable {bp : Breakpoint b} {t : Task b}

theorem native_apply (h : bp.Native) : (bp.apply env t).2.1.Native := by
  cases bp with
  | software bp =>
    show (bp.apply env t).2.1.kind = .x86_64 ↔ _
    rw [SoftwareBreakpoint.apply_eq]
    exact h
  | x86_64Hardware bp => exact h
  | armv7Hardware bp => exact h

theorem native_reset (h : bp.Native) : (bp.reset env t).2.1.Native := by
  cases bp with
  | software bp =>
    show (bp.reset env t).2.1.kind = .x86_64 ↔ _
    rw [SoftwareBreakpoint.reset_eq]
    exact h
  | x86_64Hardware bp => exact h
  | armv7Hardware bp => exact h

/-- On an ARM build `Apply` leaves the flag. -/
theorem active_apply_of_native (h : bp.Native) (harm : b.isX86 = false) :
    (bp.apply env t).2.1.active = bp.active := by
  cases bp with
  | software bp =>
    have hkind : bp.kind ≠ .x86_64 := fun hk => by
      rw [show b.isX86 = true from h.1 hk] at harm; cases harm
    show (bp.apply env t).2.1.active = bp.active
    rw [SoftwareBreakpoint.apply_eq]
    show bp.kind.flag true bp.active = bp.active
    cases hk : bp.kind with
    | x86_64 => exact absurd hk hkind
    | armv7 => rfl
    | thumbv7 => rfl
  | x86_64Hardware bp => rw [show b.isX86 = true from h] at harm; cases harm
  | armv7Hardware bp => rfl

end Breakpoint

namespace Unhandled
variable (h : Unhandled s)
include h

theorem update (bp : Breakpoint b) (hnative : bp.Native) (hinactive : b.isX86 = false → bp.active = false)
    (hs' : s'.heap = Function.update s.heap p bp) : Unhandled s' := by
  have hupdate : ∀ q, (s'.heap q).Native ∧ (b.isX86 = false → (s'.heap q).active = false) := by
    intro q
    rw [hs']
    by_cases hqp : q = p
    · subst hqp
      rw [Function.update_self]
      exact ⟨hnative, hinactive⟩
    · rw [Function.update_of_ne hqp]
      exact ⟨h.native q, fun harm => h.inactive harm q⟩
  exact ⟨fun q => (hupdate q).1, fun harm q => (hupdate q).2 harm⟩

theorem of_heap (hs' : s'.heap = s.heap) : Unhandled s' :=
  ⟨fun p => hs' ▸ h.native p, fun harm p => hs' ▸ h.inactive harm p⟩

theorem callApply (p : BpPtr) : Unhandled (s.callApply env p).2 := by
  refine h.update _ (Breakpoint.native_apply (h.native p)) (fun harm => ?_) rfl
  rw [Breakpoint.active_apply_of_native (h.native p) harm]
  exact h.inactive harm p

theorem callReset (p : BpPtr) : Unhandled (s.callReset env p).2 := by
  refine h.update _ (Breakpoint.native_reset (h.native p)) (fun harm => ?_) rfl
  by_contra hactive
  have hp := Breakpoint.active_of_reset (by simpa using hactive)
  rw [h.inactive harm p] at hp; cases hp

theorem setCallback (p : BpPtr) (cb : Option Callback) :
    Unhandled { s with heap := Function.update s.heap p ((s.heap p).setCallback cb) } := by
  have hnative := h.native p
  have hinactive := fun harm => h.inactive harm p
  refine h.update ((s.heap p).setCallback cb) ?_ ?_ rfl
  · cases hp : s.heap p <;> (rw [hp] at hnative; exact hnative)
  · cases hp : s.heap p <;> (rw [hp] at hinactive; exact hinactive)

omit h in
/-- On an x86 build no thread state is made for an exception. -/
theorem exceptionThreadState_of_isX86 (hx86 : b.isX86 = true) (lookup : Lookup) (exception : Exception) :
    exception.exceptionThreadState env lookup s.task = none := by
  have hclass : b.wrapperClass (runningPlatform s.task) = none := by
    cases b <;> first | rfl | cases hx86
  have hwrap : s.task.wrapThread env exception.thread = none := by
    rw [Task.wrapThread, hclass]
    rfl
  unfold Exception.exceptionThreadState
  split
  · rfl
  split
  · exact hwrap
  · rfl

theorem caught (lookup : Lookup) (exception : Exception) : s.caught env lookup exception = none := by
  unfold Session.caught
  split
  · rfl
  by_cases hx86 : b.isX86 = true
  · rw [exceptionThreadState_of_isX86 hx86]
    rfl
  · have hnone : ∀ state, s.activeAtState state = none := by
      intro state
      rw [Session.activeAtState, Option.filter_eq_none_iff]
      intro p _
      rw [h.inactive (by simpa using hx86) p]
      decide
    cases exception.exceptionThreadState env lookup s.task with
    | none => rfl
    | some state => rw [Option.bind_some, hnone, Option.map_none]

theorem not_throws (lookup : Lookup) (exception : Exception) : ¬s.Throws env lookup exception := by
  rintro ⟨p, state, hc, -⟩
  rw [h.caught] at hc; cases hc

/-- An exception is refused, and leaves breakpoints, memory and the log of callbacks alone. -/
theorem exceptionCallback (env : Env) (lookup : Lookup) (handler : ExceptionHandler) (exception : Exception) :
    (s.exceptionCallback env lookup handler exception).1 = some kernFailure ∧
      Ignored s (s.exceptionCallback env lookup handler exception).2.2 := by
  by_cases htype : exception.type = excBreakpoint
  · rw [exceptionCallback_uncaught htype (h.caught lookup exception)]
    exact ⟨rfl, rfl, rfl, rfl, rfl, rfl⟩
  · exact exceptionCallback_otherType handler htype

end Unhandled

theorem Unhandled.step (h : Unhandled c.2) (a : Action b) : Unhandled (act env c a).2.2 := by
  by_cases htarget : ∃ run, a = .target run
  · rcases htarget with ⟨run, rfl⟩
    exact ⟨h.native, h.inactive⟩
  · refine act_induct ?_ ?_ ?_ ?_ ?_ ?_ ?_ (not_exists.1 htarget) h
    · exact fun hs _ => ⟨hs.native, hs.inactive⟩
    · exact fun hs p cb => hs.setCallback p cb
    · exact fun p _ => h.callApply p
    · exact fun hs p => hs.callReset p
    · exact fun hs _ => ⟨hs.native, hs.inactive⟩
    · exact fun hs _ _ _ => ⟨hs.native, hs.inactive⟩
    · exact fun hs => ⟨hs.native, hs.inactive⟩

theorem unhandled_runActions (h : Unhandled c.2) (acts : List (Action b)) : Unhandled (runActions env acts c).2 := by
  induction acts using List.reverseRecOn with
  | nil => exact h
  | append_singleton acts a ih =>
    rw [runActions_concat]
    exact ih.step a

theorem Unhandled.ignored_message (h : Unhandled c.2) (lookup : Lookup) (request out : Message) :
    Ignored c.2 (act env c (.message lookup request out)).2.2 := by
  rw [act_message_snd]
  cases raised request with
  | none => exact ⟨rfl, rfl, rfl, rfl, rfl⟩
  | some exception =>
    dsimp only
    split
    · exact ⟨rfl, rfl, rfl, rfl, rfl⟩
    · exact (h.exceptionCallback env lookup c.1 exception).2

/-- The program goes on. -/
theorem Unhandled.terminated_act (h : Unhandled c.2) (hlive : c.2.terminated = false) (a : Action b) :
    (act env c a).2.2.terminated = false := by
  by_cases htarget : ∃ run, a = .target run
  · rcases htarget with ⟨run, rfl⟩
    exact hlive
  by_cases hmessage : ∃ lookup request out, a = .message lookup request out
  · rcases hmessage with ⟨lookup, request, out, rfl⟩
    rw [act_message_snd]
    cases raised request with
    | none => exact hlive
    | some exception =>
      dsimp only
      rw [if_neg (by rw [hlive]; decide), ← Bool.not_eq_true, terminated_exceptionCallback, not_or]
      exact ⟨h.not_throws lookup exception, by rw [hlive]; decide⟩
  refine client_induct (R := fun s => s.terminated = false) ?_ ?_ ?_ ?_
    (fun lookup request out ha => hmessage ⟨lookup, request, out, ha⟩) (not_exists.1 htarget) hlive
  · exact fun hs _ => hs
  · exact fun hs _ _ => hs
  · exact fun _ _ => hlive
  · exact fun hs _ => hs

theorem Unhandled.message (h : Unhandled c.2) (env : Env) (hlive : c.2.terminated = false) (lookup : Lookup)
    (request out : Message) :
    let r := act env c (.message lookup request out)
    (r.1 = none ↔ 4096 < (msghSize request).toNat ∨ msghRemotePort request = 0) ∧
      ∀ m ∈ r.1, retCode m ≠ machMsgSuccess := by
  intro r
  rcases Arrival.serve_fst env (arrived lookup request out) hlive with ⟨hnone, hreplied⟩
  have hnot : ¬(arrived lookup request out).Throws env c := by
    rintro ⟨exception, -, hthrows⟩
    exact h.not_throws lookup exception hthrows
  rw [or_iff_left hnot] at hnone
  refine ⟨hnone, fun m hm => ?_⟩
  rw [(hreplied m hm).code, Arrival.answer]
  cases raised (arrived lookup request out).request with
  | none => exact (refusal_ne request).1
  | some exception =>
    show (if (c.2.caught env lookup exception).isSome = true then _ else _) ≠ _
    rw [h.caught]
    decide

theorem callback_mem_log (h : Unhandled c.2) (hp : .callback p ∈ (act env c a).2.2.log) : .callback p ∈ c.2.log := by
  by_cases htarget : ∃ run, a = .target run
  · rcases htarget with ⟨run, rfl⟩
    exact hp
  by_cases hmessage : ∃ lookup request out, a = .message lookup request out
  · rcases hmessage with ⟨lookup, request, out, rfl⟩
    rwa [(h.ignored_message lookup request out).log] at hp
  refine client_induct (R := fun s => .callback p ∈ s.log → .callback p ∈ c.2.log) ?_ ?_ ?_ ?_
    (fun lookup request out ha => hmessage ⟨lookup, request, out, ha⟩) (not_exists.1 htarget) id hp
  · exact fun hs _ => hs
  · exact fun hs _ _ => hs
  · exact fun q _ hmem => (List.mem_cons.1 hmem).resolve_left (by rintro ⟨⟩)
  · exact fun hs q hmem => hs ((List.mem_cons.1 hmem).resolve_left (by rintro ⟨⟩))

def armTrap : Session .arm :=
  start (fun _ => .software (.new .armv7 false 0x1000)) (fun _ => 0) [⟨1, 0, fun _ _ => 0⟩]

theorem native_armTrap (p : BpPtr) : (armTrap.heap p).Native := ⟨by rintro ⟨⟩, by rintro ⟨⟩⟩

section
open Transitions

variable {ι π : Type*} [DecidableEq ι] [DecidableEq π] {lookup : ExceptionHandler → Lookup} {port : Word}
  {c₀ : ExceptionHandler × Session b}

theorem Unhandled.perform (h : Unhandled c.2) (env : Env) (lookup : ExceptionHandler → Lookup) (port : Word)
    (call : Call) :
    ((catchFunctions env lookup).perform port call c).1 = ⟨.ofInt 32 kernFailure, none⟩ ∧
      Unhandled ((catchFunctions env lookup).perform port call c).2.2 := by
  cases call with
  | machExceptionRaise thread task exception code =>
    rcases h.exceptionCallback env (lookup c.1) c.1 ⟨thread.toNat, task.toNat, exception.toInt⟩ with ⟨hret, hignored⟩
    refine ⟨?_, h.of_heap hignored.heap⟩
    exact congrArg (fun kr : Option KernReturn => Outcome.mk (.ofInt 32 (kr.getD kernFailure)) none) hret
  | machExceptionRaiseState => exact ⟨rfl, h⟩
  | machExceptionRaiseStateIdentity => exact ⟨rfl, h⟩

theorem Unhandled.serial {served : List (Rpc.Served Call Outcome)} (h : Unhandled c₀.2)
    (hserial : Rpc.Serial ((catchFunctions env lookup).perform port) c₀ served c) :
    Unhandled c.2 ∧ ∀ e ∈ served, e.result = ⟨.ofInt 32 kernFailure, none⟩ := by
  induction hserial with
  | nil => exact ⟨h, fun e he => absurd he List.not_mem_nil⟩
  | @snoc served c n call _ ih =>
    rcases ih.1.perform env lookup port call with ⟨hret, hafter⟩
    refine ⟨hafter, fun e he => ?_⟩
    rcases List.mem_append.1 he with he | he
    · exact ih.2 e he
    · obtain rfl := List.mem_singleton.1 he
      exact hret

/-- However many threads raise exceptions, none of them is told that it was handled: `mach_exception_raise` and its
siblings return `KERN_FAILURE` to each of them, and no state. -/
theorem protocol_refused {s : World ι π (ExceptionHandler × Session b)} {es : List (Rpc.Event ι Call Outcome)}
    (hnative : ∀ p, (c₀.2.heap p).Native) (hinactive : b.isX86 = false → ∀ p, (c₀.2.heap p).active = false)
    (h : Run (ProtocolStep (catchFunctions env lookup) port) (World.start c₀) es s) :
    ∀ i o, .ret i o ∈ es → o = ⟨.ofInt 32 kernFailure, none⟩ := by
  intro i o ho
  rcases run_simulates answering_catchFunctions h with ⟨ls, t, hrun, rfl, -⟩
  have hlinearized := (Rpc.run_history hrun).linearized
  rcases List.mem_map.1 ho with ⟨l, hl, hevent⟩
  cases l with
  | ret j n o' =>
    obtain ⟨rfl, rfl⟩ := Rpc.Event.ret.inj hevent
    rcases hlinearized.answered j n o' hl with ⟨call, -, hserved⟩
    exact (Unhandled.serial ⟨hnative, hinactive⟩ hlinearized.serial).2 _ hserved
  | call => cases hevent
  | fail => cases hevent
  | serve => cases hevent
  | abort => cases hevent
  | stop => cases hevent

theorem quiet_armTrap : armTrap.Quiet := ⟨rfl, fun _ _ => Option.some_ne_none _⟩

theorem protocol_refused_armTrap : ∃ s : World Unit Nat (ExceptionHandler × Session .arm), ∃ es o,
    Run (ProtocolStep (catchFunctions (.failAt []) fun _ => ⟨kernSuccess, true⟩) 3) (.start (⟨[]⟩, armTrap)) es s ∧
      .ret () o ∈ es ∧ o = ⟨.ofInt 32 kernFailure, none⟩ := by
  let catchFns : Catch (ExceptionHandler × Session .arm) := catchFunctions (.failAt []) fun _ => ⟨kernSuccess, true⟩
  have hreturning : catchFns.Returning 3 (⟨[]⟩, armTrap) := returning_catchFunctions quiet_armTrap
  obtain ⟨o, s, hrun⟩ : ∃ o, ∃ s : World Unit Nat _, Run (ProtocolStep catchFns 3) (.start (⟨[]⟩, armTrap)) _ s :=
    exists_run_call answering_catchFunctions hreturning (c := trap) (by decide) () (5, 0) id
  have hret : Rpc.Event.ret () o ∈ [Rpc.Event.call () (trap.rename id), .serve, .ret () o] := by simp
  exact ⟨s, _, o, hrun, hret, protocol_refused native_armTrap (fun _ _ => rfl) hrun () o hret⟩

end

/-- With breakpoints of the classes that the build has, on an ARM build with `active_` clear in the memory they were
made in: whatever has happened since, the program has not ended and no callback has been run. A message is answered
unless it is too large or has no reply port, is refused, and disables no breakpoint. For no exception is there a thread
state on an x86 build, and on an ARM build no breakpoint is ever active. -/
theorem never_handles (env : Env) (c : ExceptionHandler × Session b) (hlive : c.2.terminated = false)
    (hnative : ∀ p, (c.2.heap p).Native) (hinactive : b.isX86 = false → ∀ p, (c.2.heap p).active = false)
    (acts : List (Action b)) (lookup : Lookup) (request out : Message) :
    let c' := runActions env acts c
    let r := act env c' (.message lookup request out)
    c'.2.terminated = false ∧ (∀ p, .callback p ∈ c'.2.log → .callback p ∈ c.2.log) ∧
      (r.1 = none ↔ 4096 < (msghSize request).toNat ∨ msghRemotePort request = 0) ∧
      (∀ m ∈ r.1, retCode m ≠ machMsgSuccess) ∧ Ignored c'.2 r.2.2 ∧
      (b.isX86 = true → ∀ exception : Exception, exception.exceptionThreadState env lookup c'.2.task = none) ∧
      (b.isX86 = false → ∀ p, (c'.2.heap p).active = false) := by
  intro c' r
  have hunhandled : ∀ acts, Unhandled (runActions env acts c).2 := unhandled_runActions ⟨hnative, hinactive⟩
  have hgoesOn : c'.2.terminated = false ∧ ∀ p, .callback p ∈ c'.2.log → .callback p ∈ c.2.log := by
    induction acts using List.reverseRecOn with
    | nil => exact ⟨hlive, fun _ => id⟩
    | append_singleton acts a ih =>
      show (runActions env (acts ++ [a]) c).2.terminated = false ∧ _
      rw [show c' = runActions env (acts ++ [a]) c from rfl, runActions_concat]
      exact ⟨(hunhandled acts).terminated_act ih.1 a, fun p hp => ih.2 p (callback_mem_log (hunhandled acts) hp)⟩
  rcases (hunhandled acts).message env hgoesOn.1 lookup request out with ⟨hnone, hrefused⟩
  exact ⟨hgoesOn.1, hgoesOn.2, hnone, hrefused, (hunhandled acts).ignored_message lookup request out,
    fun hx86 exception => Unhandled.exceptionThreadState_of_isX86 hx86 lookup exception, (hunhandled acts).inactive⟩

/-- The request of `trap` is answered with a failure. -/
theorem never_handles_armTrap : ∃ request, raised request = some ⟨1, 0, excBreakpoint⟩ ∧
    let c : ExceptionHandler × Session .arm := (⟨[]⟩, armTrap)
    let c' := runActions (.failAt []) [.install (some 0) true] c
    let r := act (.failAt []) c' (.message ⟨kernSuccess, true⟩ request fun _ => 0)
    (∃ m, r.1 = some m ∧ retCode m ≠ machMsgSuccess) ∧ (∀ p, .callback p ∈ c'.2.log → .callback p ∈ c.2.log) ∧
      Ignored c'.2 r.2.2 := by
  have hrequest : trap.request 3 5 (fun _ => 0) ≠ none := fun h => Call.request_eq_none_iff.1 h (by decide)
  obtain ⟨⟨inP, size⟩, hrequest⟩ := Option.ne_none_iff_exists'.1 hrequest
  rcases Call.request_spec hrequest with ⟨hfits, hpacked⟩
  let x : Transfer := ⟨id, 4, 3⟩
  refine ⟨x.receive size inP fun _ => 0, raised_receive hpacked hfits x _, ?_⟩
  rcases never_handles (.failAt []) (⟨[]⟩, armTrap) rfl native_armTrap (fun _ _ => rfl) [.install (some 0) true]
    ⟨kernSuccess, true⟩ (x.receive size inP fun _ => 0) (fun _ => 0) with ⟨-, hlog, hnone, hrefused, hignored, -⟩
  refine ⟨?_, hlog, hignored⟩
  have hsize := hpacked.size_receive_le hfits x fun _ => 0
  have hport : msghRemotePort (x.receive size inP fun _ => 0) ≠ 0 := by
    rw [Transfer.msghRemotePort_receive]
    decide
  obtain ⟨m, hm⟩ := Option.ne_none_iff_exists'.1 fun h => (hnone.1 h).elim (fun hlarge => by omega) hport
  exact ⟨m, hm, hrefused m hm⟩

end MasterLib
