import MasterLib.Regions

/-!
# `GetRegions` when the kernel fails

`KERN_INVALID_ADDRESS` leaves the loop at once. Any other failure is seen by the loop condition only, a turn later:
by then the turn of the failing call has read an `info` that no call has filled in (`getRegions_script`).
-/

namespace MasterLib

variable {b : Build}

/-- A kernel whose calls succeed with `replies`, one after the other, and then fail with `status`, the arguments
untouched. -/
def scriptRecurse (replies : List (RegionArgs b)) (status : KernReturn) : RegionRecurse b := fun i args =>
  match replies[i]? with
  | some reply => (kernSuccess, reply)
  | none => (status, args)

def Selects (options prot : VmProt) : Prop := prot = options ∨ options = vmProtAny

instance {options prot : VmProt} : Decidable (Selects options prot) := inferInstanceAs (Decidable (_ ∨ _))

/-- The region that the results of a call describe, if `options` asks for it. -/
def reportedRegion (options : VmProt) (reply : RegionArgs b) : Option (Region b) :=
  if reply.info.isSubmap = false ∧ Selects options reply.info.protection then
    some ⟨reply.address, reply.size, reply.info.protection⟩
  else none

/-- The regions of `options` that calls which succeeded have reported, each once. -/
def reportedRegions (replies : List (RegionArgs b)) (options : VmProt) : List (Region b) :=
  replies.filterMap (reportedRegion options)

/-- `GetRegions` returns, and each region of its result has a call of its own that succeeded and reported it. -/
def OnlyReported (replies : List (RegionArgs b)) (status : KernReturn) (found : Nat → RegionInfo)
    (options : VmProt) : Prop :=
  ∃ n, ∀ fuel ≥ n, ∃ regions, getRegions (scriptRecurse replies status) found options fuel = some regions ∧
    regions.Sublist (reportedRegions replies options)

variable {replies rest : List (RegionArgs b)} {reply args args' : RegionArgs b} {status : KernReturn}
  {recurse : RegionRecurse b} {found : Nat → RegionInfo} {options : VmProt} {fuel i : Nat}
  {regions : List (Region b)} {r : Region b}

theorem mem_reportedRegions : r ∈ reportedRegions replies options ↔
    ∃ reply ∈ replies, (reply.info.isSubmap = false ∧ Selects options reply.info.protection) ∧
      ⟨reply.address, reply.size, reply.info.protection⟩ = r := by
  simp only [reportedRegions, reportedRegion, List.mem_filterMap, Option.ite_none_right_eq_some, Option.some.injEq]

theorem reportedRegion_eq_none_iff :
    reportedRegion options reply = none ↔ reply.info.isSubmap = true ∨ ¬Selects options reply.info.protection := by
  rw [reportedRegion, ite_eq_right_iff]
  cases reply.info.isSubmap <;> simp

/-! ### One turn, whether its call has succeeded or not -/

/-- Where the next call starts. -/
def RegionArgs.next (reply : RegionArgs b) : RegionArgs b :=
  if reply.info.isSubmap then { reply with depth := reply.depth + 1 }
  else { reply with address := reply.address + reply.size }

theorem getRegionsLoop_turn (h : recurse i { args with info := found i } = (status, args'))
    (hstatus : status ≠ kernInvalidAddress) :
    getRegionsLoop recurse found options (fuel + 1) i kernSuccess args regions =
      getRegionsLoop recurse found options fuel (i + 1) status args'.next
        (regions ++ (reportedRegion options args').toList) := by
  rw [getRegionsLoop, if_neg (by simp), h]
  simp only [if_neg hstatus]
  by_cases hsub : args'.info.isSubmap = true
  · have hnone : reportedRegion options args' = none := reportedRegion_eq_none_iff.2 (Or.inl hsub)
    rw [if_pos hsub, RegionArgs.next, if_pos hsub, hnone, Option.toList_none, List.append_nil]
  · have hleaf : args'.info.isSubmap = false := by simpa using hsub
    rw [if_neg hsub, RegionArgs.next, if_neg hsub, reportedRegion]
    by_cases hsel : args'.info.protection = options ∨ options = vmProtAny
    · rw [if_pos hsel, if_pos ⟨hleaf, hsel⟩]; rfl
    · rw [if_neg hsel, if_neg fun hboth => hsel hboth.2, Option.toList_none, List.append_nil]

/-- What the turn of the failing call adds to the list. -/
def staleRegion (status : KernReturn) (options : VmProt) (args : RegionArgs b) : Option (Region b) :=
  if status = kernInvalidAddress then none else reportedRegion options args

theorem getRegionsLoop_failed (hstatus : status ≠ kernSuccess)
    (h : recurse i { args with info := found i } = (status, { args with info := found i })) :
    getRegionsLoop recurse found options (fuel + 2) i kernSuccess args regions =
      some (regions ++ (staleRegion status options { args with info := found i }).toList) := by
  by_cases hinvalid : status = kernInvalidAddress
  · subst hinvalid
    rw [getRegionsLoop_done h, staleRegion, if_pos rfl, Option.toList_none, List.append_nil]
  · rw [getRegionsLoop_turn h hinvalid, staleRegion, if_neg hinvalid, getRegionsLoop, if_pos hstatus]

/-! ### The whole loop -/

/-- By induction on the replies still to come. -/
theorem getRegionsLoop_script (hstatus : status ≠ kernSuccess) (hrest : replies.drop i = rest)
    (hi : i + rest.length = replies.length) (args : RegionArgs b) (regions : List (Region b)) :
    ∃ args' : RegionArgs b,
    getRegionsLoop (scriptRecurse replies status) found options (rest.length + fuel + 2) i kernSuccess args regions =
      some (regions ++ reportedRegions rest options ++
        (staleRegion status options { args' with info := found replies.length }).toList) := by
  induction rest generalizing i args regions with
  | nil =>
    have hend : i = replies.length := by simpa using hi
    subst hend
    have hfailed : scriptRecurse replies status replies.length { args with info := found replies.length } =
        (status, { args with info := found replies.length }) := by
      rw [scriptRecurse, List.getElem?_eq_none (Nat.le_refl _)]
    refine ⟨args, ?_⟩
    rw [List.length_nil, Nat.zero_add, getRegionsLoop_failed hstatus hfailed]
    show _ = some (regions ++ [] ++ _)
    rw [List.append_nil]
  | cons reply rest ih =>
    have hget : replies[i]? = some reply := by
      rw [← List.head?_drop, hrest, List.head?_cons]
    have hreply : scriptRecurse replies status i { args with info := found i } = (kernSuccess, reply) := by
      rw [scriptRecurse, hget]
    have hdrop : replies.drop (i + 1) = rest := by
      rw [← List.drop_drop, hrest, List.drop_one, List.tail_cons]
    have hlen : i + 1 + rest.length = replies.length := by
      rw [← hi, List.length_cons]; omega
    have hfuel : (reply :: rest).length + fuel + 2 = rest.length + fuel + 2 + 1 := by
      rw [List.length_cons]; omega
    rcases ih hdrop hlen reply.next (regions ++ (reportedRegion options reply).toList) with ⟨args', hloop⟩
    have hcons : reportedRegions (reply :: rest) options =
        (reportedRegion options reply).toList ++ reportedRegions rest options := by
      cases hr : reportedRegion options reply with
      | none => exact List.filterMap_cons_none hr
      | some _ => exact List.filterMap_cons_some hr
    refine ⟨args', ?_⟩
    rw [hfuel, getRegionsLoop_turn hreply (by decide), hloop, hcons, List.append_assoc regions]

theorem getRegions_script (hstatus : status ≠ kernSuccess) (replies : List (RegionArgs b))
    (found : Nat → RegionInfo) (options : VmProt) (fuel : Nat) : ∃ args' : RegionArgs b,
    getRegions (scriptRecurse replies status) found options (replies.length + fuel + 2) =
      some (reportedRegions replies options ++
        (staleRegion status options { args' with info := found replies.length }).toList) :=
  getRegionsLoop_script hstatus List.drop_zero (Nat.zero_add _) _ []

theorem staleRegion_eq_none_iff : staleRegion status options args = none ↔
    status = kernInvalidAddress ∨ args.info.isSubmap = true ∨ ¬Selects options args.info.protection := by
  rw [staleRegion, ← reportedRegion_eq_none_iff]
  by_cases hinvalid : status = kernInvalidAddress
  · simp [hinvalid]
  · simp [hinvalid]

/-- What the uninitialised `info` of the failing call's turn holds decides whether it is listed. -/
theorem onlyReported_iff (hstatus : status ≠ kernSuccess) (replies : List (RegionArgs b))
    (found : Nat → RegionInfo) (options : VmProt) :
    OnlyReported replies status found options ↔
      status = kernInvalidAddress ∨ (found replies.length).isSubmap = true ∨
        ¬Selects options (found replies.length).protection := by
  constructor
  · rintro ⟨n, hn⟩
    rcases hn (replies.length + n + 2) (by omega) with ⟨regions, hregions, hsub⟩
    rcases getRegions_script hstatus replies found options n with ⟨args', hscript⟩
    obtain rfl := Option.some.inj (hregions.symm.trans hscript)
    have hlen := hsub.length_le
    rw [List.length_append] at hlen
    have hnil := List.eq_nil_of_length_eq_zero (Nat.le_zero.1 (Nat.le_of_add_le_add_left hlen))
    exact staleRegion_eq_none_iff.1 (Option.toList_eq_nil_iff.1 hnil)
  · intro hcond
    refine ⟨replies.length + 2, fun fuel hfuel => ⟨_, ?_, List.Sublist.refl _⟩⟩
    rcases getRegions_script hstatus replies found options (fuel - (replies.length + 2)) with ⟨args', hscript⟩
    rw [show replies.length + (fuel - (replies.length + 2)) + 2 = fuel by omega] at hscript
    rw [hscript, staleRegion_eq_none_iff.2 hcond, Option.toList_none, List.append_nil]

theorem onlyReported_failure : kernFailure ≠ kernSuccess ∧
    OnlyReported (b := .arm) [⟨0x1000, 0x1000, 0, ⟨5, false⟩⟩] kernFailure (fun _ => ⟨3, false⟩) 5 :=
  ⟨by decide, (onlyReported_iff (by decide) _ _ _).2 (Or.inr (Or.inr (by decide)))⟩

/-- The first call fails, and `info` holds what an earlier turn or another function has left there. -/
theorem not_onlyReported_stale :
    ¬OnlyReported (b := .arm) [] kernFailure (fun _ => ⟨5, false⟩) 5 := by
  rintro ⟨n, hn⟩
  rcases hn (n + 2) (by omega) with ⟨regions, hregions, hsub⟩
  have hlisted : getRegions (b := .arm) (scriptRecurse [] kernFailure) (fun _ => ⟨5, false⟩) 5 (n + 2) =
      some [⟨0, 0, 5⟩] := rfl
  obtain rfl := Option.some.inj (hregions.symm.trans hlisted)
  cases hsub

end MasterLib
