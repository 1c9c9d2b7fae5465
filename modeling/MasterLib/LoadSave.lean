import MasterLib.ThreadState

/-!
# `Load` followed by `Save`

`Load` ignores what its `thread_get_state` calls return: a bank that could not be read keeps what the object held,
and `Save` writes that into the thread (`loadSave_eq_self_iff`). `Load` returns `true` all the same.
-/

namespace MasterLib

variable {env : Env} {th : Thread} {dst : Banks} {fs : List Flavor} {n : Nat}

theorem getStates_getElem (hnd : fs.Nodup) {i : Nat} (hi : i < fs.length) :
    getStates env th fs n dst fs[i] = if env.kr (n + i) = kernSuccess then th.regs fs[i] else dst fs[i] := by
  induction fs generalizing n dst i with
  | nil => cases hi
  | cons f fs ih =>
    rcases List.nodup_cons.1 hnd with ⟨hf, hfs⟩
    rw [getStates]
    cases i with
    | zero =>
      rw [List.getElem_cons_zero, getStates_of_not_mem hf, threadGetState_self, Nat.add_zero]
    | succ i =>
      have hi' : i < fs.length := Nat.lt_of_succ_lt_succ hi
      have hne : fs[i] ≠ f := fun he => hf (he ▸ List.getElem_mem hi')
      rw [List.getElem_cons_succ, ih hfs hi', threadGetState_of_ne hne, Nat.add_assoc, Nat.add_comm 1 i]

theorem ThreadStateClass.nodup_flavors (cls : ThreadStateClass) : cls.flavors.Nodup := by
  cases cls <;> decide

namespace ThreadState
variable {st : ThreadState}

/-- `Load` and then `Save`, from kernel call `n` on. -/
def loadSave (env : Env) (th : Thread) (n : Nat) (st : ThreadState) : Bool × Thread :=
  let (loaded, st) := st.load env th n
  let (_, th) := st.save env (n + st.transferCalls) th
  (loaded, th)

/-- The thread is as it was, and `true` means that every bank was read. -/
structure LeavesThread (env : Env) (th : Thread) (n : Nat) (st : ThreadState) : Prop where
  unaltered : (st.loadSave env th n).2 = th
  told : (st.loadSave env th n).1 = true → ∀ i < st.transferCalls, env.kr (n + i) = kernSuccess

/-- A bank that was not read is unaltered if the object held it already. -/
theorem loadSave_eq_self_iff (hset : ∀ i < st.transferCalls, env.kr (n + st.transferCalls + i) = kernSuccess) :
    (st.loadSave env th n).2 = th ↔ ∀ i (_ : i < st.cls.flavors.length), env.kr (n + i) ≠ kernSuccess →
      st.banks st.cls.flavors[i] = th.regs st.cls.flavors[i] := by
  have hsaved : (st.loadSave env th n).2 = { th with
      regs := fun f => if f ∈ st.cls.flavors then getStates env th st.cls.flavors n st.banks f else th.regs f } :=
    setStates_of_succeed hset
  have hbank : ∀ i (hi : i < st.cls.flavors.length), getStates env th st.cls.flavors n st.banks st.cls.flavors[i] =
      if env.kr (n + i) = kernSuccess then th.regs st.cls.flavors[i] else st.banks st.cls.flavors[i] :=
    fun _ hi => getStates_getElem st.cls.nodup_flavors hi
  rw [hsaved]
  constructor
  · intro h i hi hfail
    have hregs := congrFun (congrArg Thread.regs h) st.cls.flavors[i]
    simp only [if_pos (List.getElem_mem hi), hbank i hi, if_neg hfail] at hregs
    exact hregs
  · intro h
    have hregs : (fun f => if f ∈ st.cls.flavors then getStates env th st.cls.flavors n st.banks f else th.regs f) =
        th.regs := by
      funext f
      by_cases hf : f ∈ st.cls.flavors
      · obtain ⟨i, hi, rfl⟩ := List.getElem_of_mem hf
        rw [if_pos hf, hbank i hi]
        split
        · rfl
        · exact h i hi ‹_›
      · exact if_neg hf
    rw [hregs]

/-- `Load` reports nothing, so all of its calls have to succeed. -/
theorem leavesThread_iff (hset : ∀ i < st.transferCalls, env.kr (n + st.transferCalls + i) = kernSuccess) :
    LeavesThread env th n st ↔ ∀ i < st.transferCalls, env.kr (n + i) = kernSuccess := by
  constructor
  · intro h
    exact h.told rfl
  · intro hget
    exact ⟨(loadSave_eq_self_iff hset).2 fun i hi hfail => absurd (hget i hi) hfail, fun _ => hget⟩

theorem leavesThread_new : LeavesThread (.failAt []) ⟨1, 0, fun _ _ => 7⟩ 0 (.new .armv7 1 fun _ _ => 0) :=
  (leavesThread_iff fun _ _ => rfl).2 fun _ _ => rfl

/-- The debug bank cannot be read, and `Save` clears it. -/
theorem not_leavesThread_debug :
    ¬LeavesThread (.failAt [1]) ⟨1, 0, fun _ _ => 7⟩ 0 (.new .x64 1 fun _ _ => 0) := by
  intro h
  have hword := congrFun (congrFun (congrArg Thread.regs h.unaltered) .x86DebugState64) 0
  revert hword; decide

end ThreadState

end MasterLib
