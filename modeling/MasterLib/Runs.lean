import Mathlib

/-!
# Properties of the steps of a run

A run is a list of operations folded over a state. `AtEach step Q s ops` says that `Q` holds of every state
of the run together with the operation done there.
-/

namespace Runs

variable {σ ω : Type*} {step : σ → ω → σ} {Q Q' : σ → ω → Prop} {s : σ} {op : ω} {ops : List ω}

/-- In the run of `ops` from `s`, `Q` holds wherever an operation is done. -/
def AtEach (step : σ → ω → σ) (Q : σ → ω → Prop) (s : σ) (ops : List ω) : Prop :=
  ∀ done op rest, ops = done ++ op :: rest → Q (done.foldl step s) op

theorem atEach_nil : AtEach step Q s [] := by
  intro done op rest h
  simp at h

theorem atEach_cons : AtEach step Q s (op :: ops) ↔ Q s op ∧ AtEach step Q (step s op) ops := by
  constructor
  · intro h
    exact ⟨h [] op ops rfl, fun done op' rest he => h (op :: done) op' rest (by rw [he]; rfl)⟩
  · rintro ⟨h₀, h⟩ done op' rest he
    match done with
    | [] =>
      obtain ⟨rfl, -⟩ := List.cons.inj he
      exact h₀
    | _ :: done =>
      obtain ⟨rfl, hops⟩ := List.cons.inj he
      exact h done op' rest hops

/-- Two properties that agree under an invariant hold of the same runs; the invariant need only survive the
steps at which they hold. -/
theorem atEach_congr {Inv : σ → Prop} {Ok : ω → Prop}
    (hQ : ∀ s op, Ok op → Inv s → (Q s op ↔ Q' s op))
    (hstep : ∀ s op, Ok op → Inv s → Q s op → Inv (step s op))
    (hok : ∀ op ∈ ops, Ok op) (hs : Inv s) : AtEach step Q s ops ↔ AtEach step Q' s ops := by
  induction ops generalizing s with
  | nil => exact ⟨fun _ => atEach_nil, fun _ => atEach_nil⟩
  | cons op ops ih =>
    have hop := hok op (List.mem_cons_self ..)
    rw [atEach_cons, atEach_cons, ← hQ s op hop hs]
    refine and_congr_right fun hq => ?_
    exact ih (fun o ho => hok o (List.mem_cons_of_mem _ ho)) (hstep s op hop hs hq)

theorem atEach_congr_of_iff (hQ : ∀ s op, Q s op ↔ Q' s op) : AtEach step Q s ops ↔ AtEach step Q' s ops :=
  forall₄_congr fun done op _ _ => hQ (done.foldl step s) op

theorem atEach_const {P : ω → Prop} (step : σ → ω → σ) (s : σ) :
    AtEach step (fun _ op => P op) s ops ↔ ∀ op ∈ ops, P op := by
  constructor
  · intro h op hop
    obtain ⟨done, rest, he⟩ := List.append_of_mem hop
    exact h done op rest he
  · intro h done op rest he
    exact h op (he ▸ List.mem_append_right done (List.mem_cons_self ..))

end Runs
