import Mathlib

/-!
# Nested address maps

A `Forest` is an ordered list of leaves and submaps, a submap being a range with a forest inside it. Seen down
to level `d` (`view d`) it is a list of entries: the leaves of levels up to `d`, and the submaps of level `d`
in place of what they contain. All views are sorted (`view_sorted`), the deep ones are the leaves
(`view_eq_leaves`), and each is a refinement of the shallower ones (`view_refines`).

`Cursor addr d` is the invariant of a walk that looks for the first entry of `view d` that ends above `addr`
and then goes past a leaf, or one level deeper at a submap: no entry of the view straddles `addr`. Then the
leaves that the walk has `passed` are the ones that it has met.
-/

namespace AddressMap

/-- Entries in address order; `next` is what follows the first one. -/
inductive Forest (π : Type*)
  | nil
  | leaf (start size : Nat) (prot : π) (next : Forest π)
  | submap (start size : Nat) (children next : Forest π)

/-- An entry as a view lists it; a submap has no `prot`. -/
structure Entry (π : Type*) where
  start : Nat
  size : Nat
  level : Nat
  prot : Option π
deriving DecidableEq

variable {π : Type*}

def Entry.stop (e : Entry π) : Nat := e.start + e.size

def Entry.Before (e e' : Entry π) : Prop := e.stop ≤ e'.start

namespace Forest
variable {f : Forest π} {d d' l lo hi addr : Nat} {e e' : Entry π}

/-- The entries lie in `[lo, hi)` in order, and those of a submap inside it. -/
def Within : Nat → Nat → Forest π → Prop
  | _, _, nil => True
  | lo, hi, leaf s n _ next => lo ≤ s ∧ 0 < n ∧ s + n ≤ hi ∧ Within (s + n) hi next
  | lo, hi, submap s n children next =>
    lo ≤ s ∧ 0 < n ∧ s + n ≤ hi ∧ Within s (s + n) children ∧ Within (s + n) hi next

def height : Forest π → Nat
  | nil => 0
  | leaf _ _ _ next => height next
  | submap _ _ children next => max (height children + 1) (height next)

/-- The forest, its entries being of level `l`, down to level `d`. -/
def view (d : Nat) : Nat → Forest π → List (Entry π)
  | _, nil => []
  | l, leaf s n p next => ⟨s, n, l, some p⟩ :: view d l next
  | l, submap s n children next =>
    if l < d then view d (l + 1) children ++ view d l next else ⟨s, n, l, none⟩ :: view d l next

def leaves : Nat → Forest π → List (Entry π)
  | _, nil => []
  | l, leaf s n p next => ⟨s, n, l, some p⟩ :: leaves l next
  | l, submap _ _ children next => leaves (l + 1) children ++ leaves l next

/-! ### Views -/

theorem view_bounds (h : Within lo hi f) (he : e ∈ view d l f) : lo ≤ e.start ∧ e.start < e.stop ∧ e.stop ≤ hi := by
  induction f generalizing lo hi l with
  | nil => cases he
  | leaf s n p next ih =>
    rcases h with ⟨hlo, hn, hhi, hnext⟩
    rcases List.mem_cons.1 he with rfl | he
    · exact ⟨hlo, Nat.lt_add_of_pos_right hn, hhi⟩
    · have := ih hnext he
      exact ⟨by omega, this.2⟩
  | submap s n children next ihc ihn =>
    rcases h with ⟨hlo, hn, hhi, hchildren, hnext⟩
    rw [view] at he
    split at he
    · rcases List.mem_append.1 he with he | he
      · have := ihc hchildren he
        exact ⟨by omega, this.2.1, by omega⟩
      · have := ihn hnext he
        exact ⟨by omega, this.2⟩
    · rcases List.mem_cons.1 he with rfl | he
      · exact ⟨hlo, Nat.lt_add_of_pos_right hn, hhi⟩
      · have := ihn hnext he
        exact ⟨by omega, this.2⟩

theorem view_sorted (h : Within lo hi f) : (view d l f).Pairwise Entry.Before := by
  induction f generalizing lo hi l with
  | nil => exact .nil
  | leaf s n p next ih =>
    rcases h with ⟨-, -, -, hnext⟩
    exact List.pairwise_cons.2 ⟨fun e he => (view_bounds hnext he).1, ih hnext⟩
  | submap s n children next ihc ihn =>
    rcases h with ⟨-, -, -, hchildren, hnext⟩
    rw [view]
    split
    · refine List.pairwise_append.2 ⟨ihc hchildren, ihn hnext, fun e he e' he' => ?_⟩
      exact Nat.le_trans (view_bounds hchildren he).2.2 (view_bounds hnext he').1
    · exact List.pairwise_cons.2 ⟨fun e he => (view_bounds hnext he).1, ihn hnext⟩

theorem view_eq_leaves (h : l + f.height ≤ d) : view d l f = leaves l f := by
  induction f generalizing l with
  | nil => rfl
  | leaf s n p next ih => rw [view, leaves, ih h]
  | submap s n children next ihc ihn =>
    rw [height] at h
    rw [view, leaves, if_pos (by omega), ihc (by omega), ihn (by omega)]

/-- Every entry of a deeper view lies in an entry of the shallower one, and is that entry if it is a leaf. -/
theorem view_refines (h : Within lo hi f) (hd : d ≤ d') (he : e ∈ view d' l f) :
    ∃ y ∈ view d l f, y.start ≤ e.start ∧ e.stop ≤ y.stop ∧ (y.prot.isSome → y = e) := by
  induction f generalizing lo hi l with
  | nil => cases he
  | leaf s n p next ih =>
    rcases h with ⟨-, -, -, hnext⟩
    rcases List.mem_cons.1 he with rfl | he
    · exact ⟨_, List.mem_cons_self .., Nat.le_refl _, Nat.le_refl _, fun _ => rfl⟩
    · rcases ih hnext he with ⟨y, hy, hrest⟩
      exact ⟨y, List.mem_cons_of_mem _ hy, hrest⟩
  | submap s n children next ihc ihn =>
    rcases h with ⟨-, -, -, hchildren, hnext⟩
    rw [view] at he
    rw [view]
    by_cases hl : l < d
    · rw [if_pos (by omega)] at he
      rw [if_pos hl]
      rcases List.mem_append.1 he with he | he
      · rcases ihc hchildren he with ⟨y, hy, hrest⟩
        exact ⟨y, List.mem_append_left _ hy, hrest⟩
      · rcases ihn hnext he with ⟨y, hy, hrest⟩
        exact ⟨y, List.mem_append_right _ hy, hrest⟩
    · rw [if_neg hl]
      have hlater : e ∈ view d' l next → ∃ y ∈ (⟨s, n, l, none⟩ :: view d l next : List (Entry π)),
          y.start ≤ e.start ∧ e.stop ≤ y.stop ∧ (y.prot.isSome → y = e) := by
        intro he
        rcases ihn hnext he with ⟨y, hy, hrest⟩
        exact ⟨y, List.mem_cons_of_mem _ hy, hrest⟩
      split at he
      · rcases List.mem_append.1 he with he | he
        · have hb := view_bounds hchildren he
          exact ⟨_, List.mem_cons_self .., hb.1, hb.2.2, nofun⟩
        · exact hlater he
      · rcases List.mem_cons.1 he with rfl | he
        · exact ⟨_, List.mem_cons_self .., Nat.le_refl _, Nat.le_refl _, nofun⟩
        · exact hlater he

/-- A view lists submaps of its own level only, and its leaves are in every view that is deep enough. -/
theorem level_of_mem_view (hl : l ≤ d) (he : e ∈ view d l f) :
    l ≤ e.level ∧ e.level ≤ d ∧ (e.prot = none → e.level = d ∧ d < l + f.height) ∧
      (e.prot ≠ none → ∀ k, e.level ≤ k → e ∈ view k l f) := by
  induction f generalizing l with
  | nil => cases he
  | leaf s n p next ih =>
    rcases List.mem_cons.1 he with rfl | he
    · exact ⟨Nat.le_refl _, hl, nofun, fun _ _ _ => List.mem_cons_self ..⟩
    · rcases ih hl he with ⟨h₁, h₂, h₃, h₄⟩
      exact ⟨h₁, h₂, h₃, fun h k hk => List.mem_cons_of_mem _ (h₄ h k hk)⟩
  | submap s n children next ihc ihn =>
    have hnext : e ∈ view d l next → l ≤ e.level ∧ e.level ≤ d ∧
        (e.prot = none → e.level = d ∧ d < l + (submap s n children next).height) ∧
        (e.prot ≠ none → ∀ k, e.level ≤ k → e ∈ view k l (submap s n children next)) := by
      intro he
      rcases ihn hl he with ⟨h₁, h₂, h₃, h₄⟩
      refine ⟨h₁, h₂, fun h => ⟨(h₃ h).1, ?_⟩, fun h k hk => ?_⟩
      · have := (h₃ h).2
        rw [height]; omega
      · rw [view]
        split
        · exact List.mem_append_right _ (h₄ h k hk)
        · exact List.mem_cons_of_mem _ (h₄ h k hk)
    rw [view] at he
    split at he
    · rename_i hld
      rcases List.mem_append.1 he with he | he
      · rcases ihc hld he with ⟨h₁, h₂, h₃, h₄⟩
        refine ⟨by omega, h₂, fun h => ⟨(h₃ h).1, ?_⟩, fun h k hk => ?_⟩
        · have := (h₃ h).2
          rw [height]; omega
        · rw [view, if_pos (by omega)]
          exact List.mem_append_left _ (h₄ h k hk)
      · exact hnext he
    · rcases List.mem_cons.1 he with rfl | he
      · refine ⟨Nat.le_refl _, hl, fun _ => ⟨by show l = d; omega, ?_⟩, fun h => absurd rfl h⟩
        rw [height]; omega
      · exact hnext he

/-! ### Walks -/

def firstAbove (addr : Nat) (list : List (Entry π)) : Option (Entry π) := list.find? fun e => addr < e.stop

/-- In a sorted list what is not the entry found ends at `addr` or before it, or starts after the entry. -/
theorem firstAbove_trichotomy {list : List (Entry π)} (hs : list.Pairwise Entry.Before)
    (h : firstAbove addr list = some e) : ∀ y ∈ list, y.stop ≤ addr ∨ y = e ∨ e.stop ≤ y.start := by
  induction list with
  | nil => cases h
  | cons z rest ih =>
    rcases List.pairwise_cons.1 hs with ⟨hz, hrest⟩
    intro y hy
    rw [firstAbove] at h
    by_cases hstop : addr < z.stop
    · rw [List.find?_cons_of_pos (by simpa using hstop), Option.some.injEq] at h
      subst h
      rcases List.mem_cons.1 hy with rfl | hy
      · exact .inr (.inl rfl)
      · exact .inr (.inr (hz y hy))
    · rw [List.find?_cons_of_neg (by simpa using hstop)] at h
      rcases List.mem_cons.1 hy with rfl | hy
      · exact .inl (Nat.le_of_not_lt hstop)
      · exact ih hrest h y hy

theorem firstAbove_spec {list : List (Entry π)} (h : firstAbove addr list = some e) : e ∈ list ∧ addr < e.stop :=
  ⟨List.mem_of_find?_eq_some h, by simpa using List.find?_some h⟩

theorem firstAbove_eq_none_iff {list : List (Entry π)} :
    firstAbove addr list = none ↔ ∀ y ∈ list, y.stop ≤ addr := by
  simp [firstAbove]

/-- No entry of `view d` straddles `addr`. -/
def Cursor (f : Forest π) (addr d : Nat) : Prop := ∀ e ∈ view d 0 f, addr ≤ e.start ∨ e.stop ≤ addr

def passed (f : Forest π) (addr : Nat) : List (Entry π) := (leaves 0 f).filter fun e => e.stop ≤ addr

/-- What bounds the number of steps from `addr` and `d` on: each leaf to come costs at most one descent. -/
def remaining (f : Forest π) (addr d : Nat) : Nat :=
  ((leaves 0 f).length - (passed f addr).length) * (f.height + 1) + (f.height - d)

theorem leaves_refine (h : Within lo hi f) (d : Nat) (he : e ∈ leaves 0 f) :
    ∃ y ∈ view d 0 f, y.start ≤ e.start ∧ e.stop ≤ y.stop ∧ (y.prot.isSome → y = e) := by
  rw [← view_eq_leaves (d := d + f.height) (by omega)] at he
  exact view_refines h (Nat.le_add_right _ _) he

theorem leaves_bounds (h : Within lo hi f) (he : e ∈ leaves 0 f) :
    lo ≤ e.start ∧ e.start < e.stop ∧ e.stop ≤ hi := by
  rw [← view_eq_leaves (Nat.le_refl _)] at he
  exact view_bounds h he

theorem leaves_sorted (h : Within lo hi f) : (leaves 0 f).Pairwise Entry.Before := by
  rw [← view_eq_leaves (Nat.le_refl _)]
  exact view_sorted h

theorem mem_leaves_of_mem_view (he : e ∈ view d 0 f) (hp : e.prot ≠ none) : e ∈ leaves 0 f := by
  rw [← view_eq_leaves (d := e.level + f.height) (by omega)]
  exact (level_of_mem_view (Nat.zero_le d) he).2.2.2 hp _ (Nat.le_add_right _ _)

theorem cursor_zero : Cursor f 0 d := fun _ _ => .inl (Nat.zero_le _)

theorem passed_zero (h : Within lo hi f) : passed f 0 = [] := by
  refine List.filter_eq_nil_iff.2 fun e he hle => ?_
  have hb := leaves_bounds h he
  have hstop := of_decide_eq_true hle
  omega

/-- In a sorted list the entries up to and including `e` are those before `addr` and `e` itself. -/
theorem filter_stop_le {list : List (Entry π)} (hs : list.Pairwise Entry.Before) (he : e ∈ list)
    (hpos : ∀ y ∈ list, y.start < y.stop) (habove : addr < e.stop)
    (htri : ∀ y ∈ list, y.stop ≤ addr ∨ y = e ∨ e.stop ≤ y.start) :
    list.filter (fun y => y.stop ≤ e.stop) = list.filter (fun y => y.stop ≤ addr) ++ [e] := by
  rcases List.append_of_mem he with ⟨before, after, rfl⟩
  rcases List.pairwise_append.1 hs with ⟨-, hafter, hbefore⟩
  have hb : ∀ y ∈ before, y.stop ≤ addr := by
    intro y hy
    have hye : y.stop ≤ e.start := hbefore y hy e (List.mem_cons_self ..)
    have hy' := hpos y (List.mem_append_left _ hy)
    have he' := hpos e he
    rcases htri y (List.mem_append_left _ hy) with hle | rfl | hle
    · exact hle
    · omega
    · omega
  have ha : ∀ y ∈ after, e.stop < y.stop := by
    intro y hy
    have hey : e.stop ≤ y.start := (List.pairwise_cons.1 hafter).1 y hy
    have hy' := hpos y (List.mem_append_right _ (List.mem_cons_of_mem _ hy))
    omega
  have hle : before.filter (fun y => y.stop ≤ e.stop) = before := by
    refine List.filter_eq_self.2 fun y hy => decide_eq_true ?_
    have := hb y hy
    omega
  have hlt : before.filter (fun y => y.stop ≤ addr) = before :=
    List.filter_eq_self.2 fun y hy => decide_eq_true (hb y hy)
  have hnone : ∀ k ≤ e.stop, after.filter (fun y => y.stop ≤ k) = [] := by
    intro k hk
    refine List.filter_eq_nil_iff.2 fun y hy hyk => ?_
    have hyk' := of_decide_eq_true hyk
    have := ha y hy
    omega
  rw [List.filter_append, List.filter_append, hle, hlt, List.filter_cons_of_pos (by simp),
    List.filter_cons_of_neg (by simpa using habove), hnone _ (Nat.le_refl _), hnone _ habove.le, List.append_nil]

namespace Cursor

/-- At a submap the walk goes one level deeper and has passed nothing new. -/
theorem submap (h : Within lo hi f) (hc : Cursor f addr d) (he : firstAbove addr (view d 0 f) = some e) :
    Cursor f e.start (d + 1) ∧ passed f e.start = passed f addr := by
  have htri := firstAbove_trichotomy (view_sorted h) he
  rcases firstAbove_spec he with ⟨hmem, habove⟩
  have hpos := (view_bounds h hmem).2.1
  have hstart : addr ≤ e.start := by
    rcases hc e hmem with hle | hle
    · exact hle
    · omega
  constructor
  · intro z hz
    rcases view_refines h (Nat.le_succ d) hz with ⟨y, hy, hyz, hzy, -⟩
    rcases htri y hy with hle | rfl | hle
    · exact .inr (by omega)
    · exact .inl hyz
    · exact .inl (by omega)
  · refine List.filter_congr fun z hz => ?_
    rcases leaves_refine h d hz with ⟨y, hy, hyz, hzy, -⟩
    have hz' := (leaves_bounds h hz).2.1
    rw [decide_eq_decide]
    rcases htri y hy with hle | rfl | hle
    · omega
    · omega
    · omega

/-- Past a leaf the walk goes on at the level of that leaf and has passed it and nothing else. -/
theorem leaf (h : Within lo hi f) (he : firstAbove addr (view d 0 f) = some e) (hp : e.prot ≠ none) :
    Cursor f e.stop e.level ∧ passed f e.stop = passed f addr ++ [e] := by
  have htri := firstAbove_trichotomy (view_sorted h) he
  rcases firstAbove_spec he with ⟨hmem, habove⟩
  constructor
  · -- `e` is in the shallower view too, and that view is sorted
    have hmem' : e ∈ view e.level 0 f := (level_of_mem_view (Nat.zero_le d) hmem).2.2.2 hp _ (Nat.le_refl _)
    rcases List.append_of_mem hmem' with ⟨before, after, hview⟩
    have hs := view_sorted (d := e.level) (l := 0) h
    rw [hview] at hs
    rcases List.pairwise_append.1 hs with ⟨-, hafter, hbefore⟩
    have hpos := (view_bounds h hmem).2.1
    intro z hz
    rw [hview] at hz
    rcases List.mem_append.1 hz with hz | hz
    · have hze : z.stop ≤ e.start := hbefore z hz e (List.mem_cons_self ..)
      exact .inr (by omega)
    · rcases List.mem_cons.1 hz with rfl | hz
      · exact .inr (Nat.le_refl _)
      · exact .inl ((List.pairwise_cons.1 hafter).1 z hz)
  · refine filter_stop_le (leaves_sorted h) (mem_leaves_of_mem_view hmem hp)
      (fun y hy => (leaves_bounds h hy).2.1) habove fun z hz => ?_
    rcases leaves_refine h d hz with ⟨y, hy, hyz, hzy, hleaf⟩
    rcases htri y hy with hle | rfl | hle
    · exact .inl (by omega)
    · exact .inr (.inl (hleaf (Option.isSome_iff_ne_none.2 hp)).symm)
    · exact .inr (.inr (by omega))

end Cursor

theorem passed_of_firstAbove_eq_none (h : Within lo hi f) (he : firstAbove addr (view d 0 f) = none) :
    passed f addr = leaves 0 f := by
  refine List.filter_eq_self.2 fun z hz => decide_eq_true ?_
  rcases leaves_refine h d hz with ⟨y, hy, -, hzy, -⟩
  exact Nat.le_trans hzy (firstAbove_eq_none_iff.1 he y hy)

/-! ### The number of steps -/

theorem remaining_submap (hlevel : d < f.height) {addr' : Nat} (hp : passed f addr' = passed f addr) :
    remaining f addr' (d + 1) < remaining f addr d := by
  unfold remaining
  rw [hp]; omega

theorem remaining_leaf {addr' : Nat} (hp : passed f addr' = passed f addr ++ [e]) :
    remaining f addr' d' < remaining f addr d := by
  have hlen : (passed f addr').length ≤ (leaves 0 f).length := List.length_filter_le ..
  have hsucc : (passed f addr').length = (passed f addr).length + 1 := by rw [hp]; simp
  obtain ⟨k, hk⟩ : ∃ k, (leaves 0 f).length - (passed f addr).length = k + 1 :=
    ⟨(leaves 0 f).length - (passed f addr).length - 1, by omega⟩
  have hk' : (leaves 0 f).length - (passed f addr').length = k := by omega
  unfold remaining
  rw [hk, hk', Nat.succ_mul]
  omega

end Forest

end AddressMap
