import Mathlib

/-!
# A cell that owners save, overwrite and restore

Owners take turns on one cell: opening saves the value found and puts the owner's own value there, closing
puts the saved value back. If every owner opens at most once, and closes only after opening (`Paired`), the
cell ends with its initial value exactly when the uses split into blocks, each opened and closed by the same
owner (`Blocks`); otherwise the value of the last owner outside such blocks is left in it.
-/

namespace BlockOrder

variable {κ β : Type*}

inductive Use (κ : Type*)
  | opens (p : κ)
  | closes (p : κ)
deriving DecidableEq

def Use.owner : Use κ → κ
  | .opens p | .closes p => p

structure Cell (κ β : Type*) where
  value : β
  saved : κ → Option β

section
variable [DecidableEq κ]

namespace Cell

def step (f : κ → β) (c : Cell κ β) : Use κ → Cell κ β
  | .opens p => ⟨f p, Function.update c.saved p (some c.value)⟩
  | .closes p => ⟨(c.saved p).getD c.value, c.saved⟩

def run (f : κ → β) (c : Cell κ β) (us : List (Use κ)) : Cell κ β := us.foldl (step f) c

variable {f : κ → β} {c : Cell κ β} {p : κ}

@[simp] theorem run_cons (u : Use κ) (us : List (Use κ)) : c.run f (u :: us) = (c.step f u).run f us := rfl

theorem run_append (us vs : List (Use κ)) : c.run f (us ++ vs) = (c.run f us).run f vs :=
  List.foldl_append

theorem saved_run {us : List (Use κ)} (h : .opens p ∉ us) : (c.run f us).saved p = c.saved p := by
  induction us generalizing c with
  | nil => rfl
  | cons u us ih =>
    rw [run_cons, ih fun hm => h (List.mem_cons_of_mem _ hm)]
    cases u with
    | opens q =>
      have hpq : p ≠ q := fun hpq => h (hpq ▸ List.mem_cons_self ..)
      exact Function.update_of_ne hpq ..
    | closes q => rfl

end Cell
end

/-- No use is repeated and every close comes after the open of its owner. -/
structure Paired (us : List (Use κ)) : Prop where
  nodup : us.Nodup
  opened : ∀ l₁ p l₂, us = l₁ ++ .closes p :: l₂ → .opens p ∈ l₁

/-- The uses are a sequence of blocks, each opened and closed by the same owner. -/
inductive Blocks : List (Use κ) → Prop
  | nil : Blocks []
  | snoc {us : List (Use κ)} (p : κ) (mid : List (Use κ)) :
      Blocks us → Blocks (us ++ (.opens p :: (mid ++ [.closes p])))

namespace Paired
variable {us vs : List (Use κ)}

theorem of_append (h : Paired (us ++ vs)) : Paired us :=
  ⟨(List.nodup_append.1 h.nodup).1, fun l₁ p l₂ he => h.opened l₁ p (l₂ ++ vs) (by rw [he]; simp)⟩

theorem filter (P : κ → Bool) (h : Paired us) : Paired (us.filter fun u => P u.owner) := by
  refine ⟨h.nodup.filter _, fun l₁ p l₂ he => ?_⟩
  obtain ⟨u₁, u₂, rfl, rfl, h₂⟩ := List.filter_eq_append_iff.1 he
  obtain ⟨v₁, v₂, rfl, hv₁, hp, -⟩ := List.filter_eq_cons_iff.1 h₂
  have hm := h.opened (u₁ ++ v₁) p v₂ (by simp)
  rcases List.mem_append.1 hm with hm | hm
  · exact List.mem_filter.2 ⟨hm, hp⟩
  · exact absurd hp (hv₁ (.opens p) hm)

end Paired

namespace Blocks
variable {us : List (Use κ)}

/-- Blocks give the cell back as they found it. -/
theorem value_run [DecidableEq κ] {f : κ → β} (c : Cell κ β) (h : Blocks us) (hnd : us.Nodup) :
    (c.run f us).value = c.value := by
  induction h with
  | nil => rfl
  | @snoc us p mid _ ih =>
    have hus := (List.nodup_append.1 hnd).1
    have hmid : Use.opens p ∉ mid := by
      have hblk := (List.nodup_append.1 hnd).2.1
      intro hm
      exact (List.nodup_cons.1 hblk).1 (List.mem_append_left _ hm)
    have hsaved := Cell.saved_run (f := f) (c := (c.run f us).step f (.opens p)) hmid
    rw [Cell.run_append, Cell.run_cons, Cell.run_append]
    show ((((c.run f us).step f (.opens p)).run f mid).saved p).getD _ = c.value
    rw [hsaved]
    show (Function.update (c.run f us).saved p (some (c.run f us).value) p).getD _ = c.value
    rw [Function.update_self, Option.getD_some, ih hus]

end Blocks

/-- Either the uses are blocks, or blocks follow some last open outside them. -/
theorem Paired.blocks_or_open {us : List (Use κ)} (h : Paired us) :
    Blocks us ∨ ∃ Q p R, us = Q ++ .opens p :: R ∧ Blocks R := by
  induction hn : us.length using Nat.strong_induction_on generalizing us with
  | _ n ih =>
    rcases List.eq_nil_or_concat us with rfl | ⟨us, u, rfl⟩
    · exact .inl .nil
    rw [List.concat_eq_append] at h hn ⊢
    cases u with
    | opens p => exact .inr ⟨us, p, [], rfl, .nil⟩
    | closes p =>
      obtain ⟨l₁, l₂, rfl⟩ := List.append_of_mem (h.opened us p [] rfl)
      have hsplit : l₁ ++ Use.opens p :: l₂ ++ [Use.closes p] = l₁ ++ (.opens p :: (l₂ ++ [.closes p])) := by
        simp
      rw [hsplit] at h ⊢
      have hlen : l₁.length < n := by subst hn; simp
      rcases ih _ hlen h.of_append rfl with hb | ⟨Q, q, R, rfl, hR⟩
      · exact .inl (hb.snoc p l₂)
      · exact .inr ⟨Q, q, R ++ (.opens p :: (l₂ ++ [.closes p])), by simp, hR.snoc p l₂⟩

/-- The cell ends as it began exactly when no owner's open is followed by blocks only, except an owner whose
value is the initial one. -/
theorem Paired.value_run_eq_iff [DecidableEq κ] {f : κ → β} (c : Cell κ β) {us : List (Use κ)} (h : Paired us) :
    (c.run f us).value = c.value ↔ ∀ Q p R, us = Q ++ .opens p :: R → Blocks R → f p = c.value := by
  have hleft : ∀ Q p R, us = Q ++ .opens p :: R → Blocks R → (c.run f us).value = f p := by
    rintro Q p R rfl hR
    have hnd := (List.nodup_cons.1 (List.nodup_append.1 h.nodup).2.1).2
    rw [Cell.run_append, Cell.run_cons, hR.value_run _ hnd]
    rfl
  constructor
  · intro hv Q p R he hR
    rw [← hleft Q p R he hR, hv]
  · intro hall
    rcases h.blocks_or_open with hb | ⟨Q, p, R, he, hR⟩
    · exact hb.value_run c h.nodup
    · rw [hleft Q p R he hR, hall Q p R he hR]

end BlockOrder
