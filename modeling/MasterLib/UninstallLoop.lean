import MasterLib.Uninstall

/-!
# The iterator of `UninstallBreakpoint`

`next` is one round of the loop with its iterator as an index: the test, the body, and `++it` after it also when the
body has erased an element. `uninstallLoop`, which reads the list as what is behind the iterator and what is ahead,
ends as these rounds do (`reaches_uninstallLoop`). Of a run of adjacent copies of the pointer the loop erases the
first, the third and so on, so it leaves the vector when the run at the end of the list has odd length.
-/

namespace MasterLib

variable {b : Build} {env : Env} {p q : BpPtr} {s : Session b}

namespace Session

/-! ### The loop by index -/

/-- The loop at its test, or returned. -/
structure LoopState (b : Build) where
  it : Nat
  session : Session b
  result : Option Bool

namespace LoopState

def begin (s : Session b) : LoopState b := ⟨0, s, none⟩

/-- One round. Where there is no element to read, past the end, nothing is done. -/
def next (env : Env) (p : BpPtr) (l : LoopState b) : LoopState b :=
  match l.result with
  | some _ => l
  | none =>
    if l.it = l.session.breakpoints.length then { l with result := some false }
    else
      match l.session.breakpoints[l.it]? with
      | none => l
      | some q =>
        if q = p then
          let (success, s) := l.session.callReset env q
          if !success then { l with session := s, result := some false }
          else { l with it := l.it + 1, session := { s with breakpoints := s.breakpoints.eraseIdx l.it } }
        else { l with it := l.it + 1 }

/-- The iterator is at an element or at the end. -/
def InVector (l : LoopState b) : Prop := l.it ≤ l.session.breakpoints.length

/-- `l'` is reached from `l` by rounds that start inside the vector. -/
def Reaches (env : Env) (p : BpPtr) (l l' : LoopState b) : Prop :=
  ∃ n, (next env p)^[n] l = l' ∧ ∀ k < n, ((next env p)^[k] l).InVector

/-- `l` is where the loop ends, as `exit` says. -/
def Ended (l : LoopState b) (s : Session b) : LoopExit → Prop
  | .returned result => l.result = some result ∧ l.session = s ∧ l.InVector
  | .pastEnd => l.result = none ∧ l.session = s ∧ l.it = s.breakpoints.length + 1

end LoopState

/-- The loop returns, and until then its iterator stays inside the vector. -/
def LoopSafe (env : Env) (p : BpPtr) (s : Session b) : Prop :=
  (∃ n, ((LoopState.next env p)^[n] (.begin s)).result ≠ none) ∧
    ∀ n, ((LoopState.next env p)^[n] (.begin s)).InVector

namespace LoopState
variable {l l' : LoopState b} {done rest : List BpPtr}

theorem Reaches.refl : Reaches env p l l := ⟨0, rfl, fun _ h => absurd h (Nat.not_lt_zero _)⟩

theorem Reaches.head (hl : l.InVector) (h : Reaches env p (l.next env p) l') : Reaches env p l l' := by
  obtain ⟨n, hn, hk⟩ := h
  refine ⟨n + 1, hn, fun k hkn => ?_⟩
  cases k with
  | zero => exact hl
  | succ k => exact hk k (Nat.lt_of_succ_lt_succ hkn)

theorem next_end (hs : s.breakpoints = done) :
    next env p ⟨done.length, s, none⟩ = ⟨done.length, s, some false⟩ := by
  simp [next, hs]

theorem next_other (hs : s.breakpoints = done ++ q :: rest) (h : q ≠ p) :
    next env p ⟨done.length, s, none⟩ = ⟨(done ++ [q]).length, s, none⟩ := by
  simp [next, hs, h]

theorem next_failed (hs : s.breakpoints = done ++ p :: rest) (hr : (s.callReset env p).1 = false) :
    next env p ⟨done.length, s, none⟩ = ⟨done.length, (s.callReset env p).2, some false⟩ := by
  simp [next, hs, hr]

theorem next_erased (hs : s.breakpoints = done ++ p :: rest) (hr : (s.callReset env p).1 = true) :
    next env p ⟨done.length, s, none⟩ =
      ⟨done.length + 1, { (s.callReset env p).2 with breakpoints := done ++ rest }, none⟩ := by
  have hlist : (s.callReset env p).2.breakpoints.eraseIdx done.length = done ++ rest := by
    show s.breakpoints.eraseIdx done.length = _
    rw [hs, List.eraseIdx_append_of_length_le (Nat.le_refl _), Nat.sub_self, List.eraseIdx_cons_zero]
  simp [next, hs, hr, hlist]

theorem inVector_append (hs : s.breakpoints = done ++ rest) (r : Option Bool) :
    InVector ⟨done.length, s, r⟩ := by
  show done.length ≤ s.breakpoints.length
  rw [hs, List.length_append]; omega

/-- A `Reset` that fails ends the loop. -/
theorem ended_next_failed (hs : s.breakpoints = done ++ p :: rest) (hr : (s.callReset env p).1 = false) :
    (next env p ⟨done.length, s, none⟩).Ended (uninstallLoop env p done (p :: rest) s).2
      (uninstallLoop env p done (p :: rest) s).1 := by
  rw [uninstallLoop_failed hr, next_failed hs hr]
  exact ⟨rfl, rfl, inVector_append (s := (s.callReset env p).2) hs _⟩

/-- The rounds from `rest` on end as `uninstallLoop` says. -/
theorem reaches_uninstallLoop (env : Env) (p : BpPtr) (done rest : List BpPtr) (s : Session b)
    (hs : s.breakpoints = done ++ rest) : ∃ l, Reaches env p ⟨done.length, s, none⟩ l ∧
      l.Ended (uninstallLoop env p done rest s).2 (uninstallLoop env p done rest s).1 := by
  have hin : ∀ {done rest : List BpPtr} {s : Session b} {l : LoopState b}, s.breakpoints = done ++ rest →
      Reaches env p (next env p ⟨done.length, s, none⟩) l → Reaches env p ⟨done.length, s, none⟩ l :=
    fun hs => .head (inVector_append hs none)
  induction rest using visits.induct p generalizing done s with
  | case1 =>
    refine ⟨_, hin hs .refl, ?_⟩
    rw [next_end (by rw [hs, List.append_nil])]
    exact ⟨rfl, rfl, inVector_append hs _⟩
  | case2 =>
    refine ⟨_, hin hs .refl, ?_⟩
    cases hr : (s.callReset env p).1 with
    | false => exact ended_next_failed hs hr
    | true =>
      rw [next_erased hs hr, uninstallLoop, if_pos rfl]
      simp only [hr]
      exact ⟨rfl, rfl, by simp⟩
  | case3 q h =>
    have hs' : s.breakpoints = (done ++ [q]) ++ [] := by rw [hs, List.append_nil]
    refine ⟨_, hin hs (.head ?_ .refl), ?_⟩
    · rw [next_other hs h]
      exact inVector_append hs' _
    · rw [next_other hs h, next_end hs, uninstallLoop, if_neg h]
      exact ⟨rfl, rfl, inVector_append hs' _⟩
  | case4 q' rest ih =>
    cases hr : (s.callReset env p).1 with
    | false => exact ⟨_, hin hs .refl, ended_next_failed hs hr⟩
    | true =>
      rw [uninstallLoop, if_pos rfl]
      obtain ⟨l, hl, hend⟩ := ih (done ++ [q']) { (s.callReset env p).2 with breakpoints := done ++ q' :: rest }
        (by simp)
      refine ⟨l, hin hs ?_, by simpa [hr] using hend⟩
      rw [next_erased hs hr]
      simpa using hl
  | case5 q q' rest h ih =>
    obtain ⟨l, hl, hend⟩ := ih (done ++ [q]) s (by rw [hs]; simp)
    refine ⟨l, hin hs ?_, ?_⟩
    · rw [next_other hs h]; exact hl
    · rw [uninstallLoop, if_neg h]; exact hend

theorem next_returned {r : Bool} (h : l.result = some r) : l.next env p = l := by
  rw [next, h]

theorem iterate_next_returned {r : Bool} (h : l.result = some r) (n : Nat) : (next env p)^[n] l = l :=
  Function.iterate_fixed (next_returned h) n

theorem loopSafe_iff_ne_pastEnd : LoopSafe env p s ↔ (s.uninstallBreakpoint env p).1 ≠ .pastEnd := by
  obtain ⟨l, ⟨n, hn, hbefore⟩, hend⟩ := reaches_uninstallLoop env p [] s.breakpoints s rfl
  have hbegin : begin s = ⟨([] : List BpPtr).length, s, none⟩ := rfl
  rw [LoopSafe, hbegin]
  unfold uninstallBreakpoint
  cases hexit : (uninstallLoop env p [] s.breakpoints s).1 with
  | pastEnd =>
    rw [hexit] at hend
    obtain ⟨-, hs, hit⟩ := hend
    refine iff_of_false (fun h => ?_) (not_not_intro rfl)
    have hin := h.2 n
    rw [hn, InVector, hs, hit] at hin
    exact absurd hin (Nat.not_succ_le_self _)
  | returned r =>
    rw [hexit] at hend
    obtain ⟨hres, -, hin⟩ := hend
    refine iff_of_true ⟨⟨n, by rw [hn, hres]; simp⟩, fun k => ?_⟩ (by simp)
    by_cases hk : k < n
    · exact hbefore k hk
    · obtain ⟨j, rfl⟩ : ∃ j, k = j + n := ⟨k - n, by omega⟩
      rw [Function.iterate_add_apply, hn, iterate_next_returned hres]
      exact hin

end LoopState

/-! ### Where the loop ends -/

/-- How many copies of `p` the list ends with. -/
def trailing (p : BpPtr) (list : List BpPtr) : Nat := (list.rtakeWhile fun q => q = p).length

theorem trailing_le (list : List BpPtr) : trailing p list ≤ list.length :=
  (List.rtakeWhile_suffix _ list).length_le

theorem trailing_cons (q : BpPtr) (list : List BpPtr) : trailing p (q :: list) =
    if trailing p list = list.length ∧ q = p then list.length + 1 else trailing p list := by
  have hrev : ∀ l : List BpPtr, trailing p l = (l.reverse.takeWhile fun q => q = p).length := by
    intro l; rw [trailing, List.rtakeWhile, List.length_reverse]
  rw [hrev, hrev, List.reverse_cons, List.takeWhile_append, List.length_reverse]
  by_cases hall : (list.reverse.takeWhile fun q => q = p).length = list.length
  · by_cases hq : q = p <;> simp [hall, hq]
  · simp [hall]

/-- The loop skips one element after each it erases, so a pair of copies at the front changes nothing. -/
theorem even_trailing_cons_cons (q' : BpPtr) (rest : List BpPtr) :
    Even (trailing p (p :: q' :: rest)) ↔ Even (trailing p rest) := by
  have hle := trailing_le (p := p) rest
  rw [trailing_cons, trailing_cons, List.length_cons]
  by_cases hall : trailing p rest = rest.length ∧ q' = p
  · rw [if_pos hall, if_pos ⟨rfl, rfl⟩, hall.1, Nat.even_add_one, Nat.even_add_one, not_not]
  · rw [if_neg hall, if_neg (by omega)]

theorem uninstallLoop_fst (done rest : List BpPtr) (s : Session b) : (uninstallLoop env p done rest s).1 =
    if (resetTimes env p (visits p rest) s).1 = true ∧ ¬ Even (trailing p rest) then .pastEnd
    else .returned false := by
  induction rest using visits.induct p generalizing done s with
  | case1 => simp [uninstallLoop, trailing]
  | case2 =>
    rw [uninstallLoop, visits, if_pos rfl, if_pos rfl, resetTimes_one]
    have hone : trailing p [p] = 1 := by simp [trailing, List.rtakeWhile]
    rw [hone]
    cases hr : (s.callReset env p).1 <;> simp [hr]
  | case3 q h =>
    have hzero : trailing p [q] = 0 := by simp [trailing, List.rtakeWhile, h]
    rw [uninstallLoop, if_neg h, hzero]
    simp [uninstallLoop]
  | case4 q' rest ih =>
    simp only [even_trailing_cons_cons]
    rw [uninstallLoop, visits, if_pos rfl, if_pos rfl, resetTimes]
    cases hr : (s.callReset env p).1 with
    | false => simp [hr]
    | true =>
      have hih := ih (done ++ [q']) { (s.callReset env p).2 with breakpoints := done ++ q' :: rest }
      rw [resetTimes_setBreakpoints] at hih
      simpa [hr] using hih
  | case5 q q' rest h ih =>
    have htrail : trailing p (q :: q' :: rest) = trailing p (q' :: rest) := by
      rw [trailing_cons, if_neg fun hq => h hq.2]
    rw [uninstallLoop, visits, if_neg h, if_neg h, htrail]
    exact ih (done ++ [q]) s

/-- The iterator stays inside the vector exactly when the list ends with an even number of copies of the pointer,
none included, or one of the `Reset`s fails. -/
theorem loopSafe_iff (env : Env) (p : BpPtr) (s : Session b) : LoopSafe env p s ↔
    Even (trailing p s.breakpoints) ∨ (resetTimes env p (visits p s.breakpoints) s).1 = false := by
  rw [LoopState.loopSafe_iff_ne_pastEnd, uninstallBreakpoint, uninstallLoop_fst]
  by_cases heven : Even (trailing p s.breakpoints) <;>
    cases (resetTimes env p (visits p s.breakpoints) s).1 <;> simp [heven]

def oneTrap : Session .x86_64 :=
  ((start (fun _ => .software (.new .x86_64 false 0x1000)) (fun _ => 0x90) []).installBreakpoint
    (.failAt []) (some 0) true).2

/-- With the only registered breakpoint erased, `++it` steps over the end of the empty vector. -/
theorem not_loopSafe_only : ¬ LoopSafe (.failAt []) 0 oneTrap := by
  intro h
  have hin : (1 : Nat) ≤ 0 := h.2 1
  exact absurd hin (by decide)

/-! ### What is left in the list -/

/-- How many of `k` calls of `p->Reset()` in a row return `true` before the first that does not. -/
def resetsDone (env : Env) (p : BpPtr) : Nat → Session b → Nat
  | 0, _ => 0
  | k + 1, s => if (s.callReset env p).1 then resetsDone env p k (s.callReset env p).2 + 1 else 0

/-- The list after `k` of the loop's erasures. -/
def erased (p : BpPtr) : Nat → List BpPtr → List BpPtr
  | 0, list => list
  | _ + 1, [] => []
  | _ + 1, [q] => if q = p then [] else [q]
  | k + 1, q :: q' :: rest => if q = p then q' :: erased p k rest else q :: erased p (k + 1) (q' :: rest)

theorem resetsDone_setBreakpoints (k : Nat) (s : Session b) (list : List BpPtr) :
    resetsDone env p k { s with breakpoints := list } = resetsDone env p k s := by
  induction k generalizing s with
  | zero => rfl
  | succ k ih =>
    rw [resetsDone, resetsDone, callReset_setBreakpoints, ih]

theorem resetsDone_le (env : Env) (p : BpPtr) (k : Nat) (s : Session b) : resetsDone env p k s ≤ k := by
  induction k generalizing s with
  | zero => exact Nat.le_refl 0
  | succ k ih =>
    rw [resetsDone]
    split
    · exact Nat.succ_le_succ (ih _)
    · exact Nat.zero_le _

theorem erased_cons (h : q ≠ p) (k : Nat) (rest : List BpPtr) : erased p k (q :: rest) = q :: erased p k rest := by
  cases k with
  | zero => simp [erased]
  | succ k => cases rest <;> simp [erased, h]

theorem breakpoints_uninstallLoop (done rest : List BpPtr) (s : Session b) (hs : s.breakpoints = done ++ rest) :
    (uninstallLoop env p done rest s).2.breakpoints =
      done ++ erased p (resetsDone env p (visits p rest) s) rest := by
  induction rest using visits.induct p generalizing done s with
  | case1 => simp [uninstallLoop, visits, resetsDone, erased, hs]
  | case2 =>
    cases hr : (s.callReset env p).1 with
    | false =>
      rw [uninstallLoop_failed hr, visits, if_pos rfl, resetsDone, if_neg (by simp [hr]), erased]
      exact hs
    | true =>
      rw [uninstallLoop, visits, if_pos rfl, if_pos rfl, resetsDone]
      simp [hr, resetsDone, erased]
  | case3 q h => simp [uninstallLoop, visits, h, resetsDone, erased, hs]
  | case4 q' rest ih =>
    cases hr : (s.callReset env p).1 with
    | false =>
      rw [uninstallLoop_failed hr, visits, if_pos rfl, resetsDone, if_neg (by simp [hr]), erased]
      exact hs
    | true =>
      rw [uninstallLoop, visits, if_pos rfl, if_pos rfl, resetsDone]
      have hih := ih (done ++ [q']) { (s.callReset env p).2 with breakpoints := done ++ q' :: rest } (by simp)
      rw [resetsDone_setBreakpoints] at hih
      simpa [hr, erased] using hih
  | case5 q q' rest h ih =>
    rw [uninstallLoop, visits, if_neg h, if_neg h, erased_cons h, ih (done ++ [q]) s (by rw [hs]; simp)]
    simp

theorem length_erased {k : Nat} {list : List BpPtr} (h : k ≤ visits p list) :
    (erased p k list).length + k = list.length := by
  induction list using visits.induct p generalizing k with
  | case1 =>
    obtain rfl : k = 0 := Nat.le_zero.1 h
    rfl
  | case2 =>
    rw [visits, if_pos rfl] at h
    rcases Nat.le_one_iff_eq_zero_or_eq_one.1 h with rfl | rfl
    · rfl
    · simp [erased]
  | case3 q hq =>
    rw [visits, if_neg hq] at h
    obtain rfl : k = 0 := Nat.le_zero.1 h
    rfl
  | case4 q' rest ih =>
    rw [visits, if_pos rfl] at h
    cases k with
    | zero => rfl
    | succ k =>
      have hlen := ih (Nat.le_of_succ_le_succ h)
      simp only [erased, ↓reduceIte, List.length_cons]
      omega
  | case5 q q' rest hq ih =>
    rw [visits, if_neg hq] at h
    rw [erased_cons hq, List.length_cons, List.length_cons]
    have hlen := ih h
    omega

theorem breakpoints_uninstallBreakpoint (env : Env) (p : BpPtr) (s : Session b) :
    (s.uninstallBreakpoint env p).2.breakpoints =
      erased p (resetsDone env p (visits p s.breakpoints) s) s.breakpoints :=
  breakpoints_uninstallLoop [] s.breakpoints s rfl

theorem uninstallBreakpoint_of_not_mem (env : Env) (h : p ∉ s.breakpoints) :
    s.uninstallBreakpoint env p = (.returned false, s) := by
  have hloop : ∀ done rest : List BpPtr, p ∉ rest → uninstallLoop env p done rest s = (.returned false, s) := by
    intro done rest hrest
    induction rest generalizing done with
    | nil => rfl
    | cons q rest ih =>
      obtain ⟨hq, hrest'⟩ := List.ne_and_not_mem_of_not_mem_cons hrest
      rw [uninstallLoop, if_neg hq.symm]
      exact ih _ hrest'
  exact hloop [] s.breakpoints h

/-- A registered breakpoint whose `Reset`s succeed is taken off the list; if one fails, or it is not registered,
the list stays as it is. The result says which. -/
structure UninstallsAll (env : Env) (p : BpPtr) (s : Session b) : Prop where
  removed : p ∈ s.breakpoints → (resetTimes env p (visits p s.breakpoints) s).1 = true →
    (s.uninstallBreakpoint env p).1 = .returned true ∧
      (s.uninstallBreakpoint env p).2.breakpoints = s.breakpoints.filter (· ≠ p)
  absent : p ∉ s.breakpoints → s.uninstallBreakpoint env p = (.returned false, s)
  failed : (resetTimes env p (visits p s.breakpoints) s).1 = false →
    (s.uninstallBreakpoint env p).1 = .returned false ∧
      (s.uninstallBreakpoint env p).2.breakpoints = s.breakpoints

/-- `UninstallBreakpoint` never returns `true`, and a `Reset` that fails at a later copy comes after copies have
been erased: it does what it should exactly if the pointer is not registered or the first `Reset` fails. -/
theorem uninstallsAll_iff (env : Env) (p : BpPtr) (s : Session b) : UninstallsAll env p s ↔
    p ∉ s.breakpoints ∨ (s.callReset env p).1 = false := by
  by_cases hreg : p ∈ s.breakpoints
  swap
  · refine iff_of_true ⟨fun h => absurd h hreg, uninstallBreakpoint_of_not_mem env, fun h => ?_⟩ (.inl hreg)
    rw [visits_of_not_mem hreg] at h; cases h
  rw [or_iff_right (not_not_intro hreg)]
  obtain ⟨k, hk⟩ : ∃ k, visits p s.breakpoints = k + 1 :=
    ⟨visits p s.breakpoints - 1, by have := visits_pos_iff.2 hreg; omega⟩
  have hexit : (s.uninstallBreakpoint env p).1 = _ := uninstallLoop_fst [] s.breakpoints s
  have hlist := breakpoints_uninstallBreakpoint env p s
  cases hr : (s.callReset env p).1 with
  | false =>
    have hfalse : (resetTimes env p (visits p s.breakpoints) s).1 = false := by
      rw [hk, resetTimes, if_neg (by simp [hr]), hr]
    rw [hk, resetsDone, if_neg (by simp [hr]), erased] at hlist
    rw [hfalse, if_neg (by simp)] at hexit
    refine iff_of_true ⟨fun _ h => ?_, fun h => absurd hreg h, fun _ => ⟨hexit, hlist⟩⟩ rfl
    rw [hfalse] at h; cases h
  | true =>
    refine iff_of_false (fun h => ?_) (by simp)
    cases hall : (resetTimes env p (visits p s.breakpoints) s).1 with
    | true =>
      have hret := (h.removed hreg hall).1
      rw [hexit] at hret
      split at hret <;> cases hret
    | false =>
      have hsame := (h.failed hall).2
      have hlen := length_erased (resetsDone_le env p (visits p s.breakpoints) s)
      rw [← hlist, hsame, hk, resetsDone, if_pos hr] at hlen
      omega

/-- The `Reset` succeeds and the result is not `true`. -/
theorem not_uninstallsAll_only : 0 ∈ oneTrap.breakpoints ∧ ¬ UninstallsAll (.failAt []) 0 oneTrap := by
  refine ⟨by decide, fun h => ?_⟩
  have hret := (h.removed (by decide) (by decide)).1
  revert hret; decide

end Session
end MasterLib
