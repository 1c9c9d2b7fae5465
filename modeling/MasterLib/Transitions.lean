import Mathlib

/-!
# Runs of labelled transitions

`Run step s ls s'`: steps labelled `ls` lead from `s` to `s'`. An invariant is proved of a run by `Run.invariant`,
and a run of one system is carried to a run of another by `Run.simulate`.
-/

namespace Transitions

variable {S T L M : Type*}

inductive Run (step : S → L → S → Prop) (s : S) : List L → S → Prop
  | nil : Run step s [] s
  | snoc {ls l s' s''} : Run step s ls s' → step s' l s'' → Run step s (ls ++ [l]) s''

variable {step : S → L → S → Prop} {step' : T → M → T → Prop} {s s' s'' : S} {t : T} {l : L} {ls ms : List L}

namespace Run

theorem single (h : step s l s') : Run step s [l] s' := snoc nil h

theorem append (h : Run step s ls s') (h' : Run step s' ms s'') : Run step s (ls ++ ms) s'' := by
  induction h' with
  | nil => rwa [List.append_nil]
  | snoc _ hstep ih =>
    rw [← List.append_assoc]
    exact ih.snoc hstep

theorem cons (h : step s l s') (h' : Run step s' ls s'') : Run step s (l :: ls) s'' := (single h).append h'

/-- What holds before the first step and survives every step holds at the end, of the labels seen so far. -/
theorem invariant {Inv : List L → S → Prop} (h : Run step s ls s') (hs : Inv [] s)
    (hstep : ∀ {ls s' l s''}, Inv ls s' → step s' l s'' → Inv (ls ++ [l]) s'') : Inv ls s' := by
  induction h with
  | nil => exact hs
  | snoc _ h ih => exact hstep ih h

/-- Where each step is matched by one of the other system, with a related label, so is each run. -/
theorem simulate {R : S → T → Prop} {Q : L → M → Prop} (h : Run step s ls s') (hs : R s t)
    (hstep : ∀ {s l s' t}, step s l s' → R s t → ∃ m t', step' t m t' ∧ Q l m ∧ R s' t') :
    ∃ ms t', Run step' t ms t' ∧ List.Forall₂ Q ls ms ∧ R s' t' := by
  induction h with
  | nil => exact ⟨[], t, nil, .nil, hs⟩
  | snoc _ h ih =>
    obtain ⟨ms, t', hrun, hlabels, hrel⟩ := ih
    obtain ⟨m, t'', hstep', hlabel, hrel'⟩ := hstep h hrel
    exact ⟨ms ++ [m], t'', hrun.snoc hstep', List.rel_append hlabels (.cons hlabel .nil), hrel'⟩

end Run

end Transitions
