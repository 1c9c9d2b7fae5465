import MasterLib.Mach
import MasterLib.AddressMap

/-!
# `Process::GetRegions`

The loop passes `address`, `size` and `depth` in and out of `vm_region_recurse`: a submap raises `depth`, the
kernel writes the depth of what it found back, a leaf moves `address` past itself. Over a kernel that answers
from an address map (`mapRecurse`) the loop is the walk of `AddressMap`.
-/

namespace MasterLib
open AddressMap AddressMap.Forest

variable {b : Build}

def vmProtAny : VmProt := 0x2000

structure Region (b : Build) where
  start : VmAddress b
  size : VmAddress b
  prot : VmProt
deriving DecidableEq

/-- `vm_region_submap_info`: the fields that are read. -/
structure RegionInfo where
  protection : VmProt
  isSubmap : Bool

structure RegionArgs (b : Build) where
  address : VmAddress b
  size : VmAddress b
  depth : BitVec 32
  info : RegionInfo

abbrev RegionRecurse (b : Build) := Nat → RegionArgs b → KernReturn × RegionArgs b

/-- The loop of `GetRegions` from call `i` on, for `fuel` turns; `found i` is what the uninitialised `info` of that
turn holds. -/
def getRegionsLoop (recurse : RegionRecurse b) (found : Nat → RegionInfo) (options : VmProt) :
    Nat → Nat → KernReturn → RegionArgs b → List (Region b) → Option (List (Region b))
  | 0, _, _, _, _ => none
  | fuel + 1, i, status, args, regions =>
    if status ≠ kernSuccess then some regions
    else
      let (status, args) := recurse i { args with info := found i }
      if status = kernInvalidAddress then some regions
      else if args.info.isSubmap then
        getRegionsLoop recurse found options fuel (i + 1) status { args with depth := args.depth + 1 } regions
      else
        let regions :=
          if args.info.protection = options ∨ options = vmProtAny then
            regions ++ [⟨args.address, args.size, args.info.protection⟩]
          else regions
        getRegionsLoop recurse found options fuel (i + 1) status { args with address := args.address + args.size }
          regions

/-- `Process::GetRegions`, or `none` when `fuel` turns are not enough. -/
def getRegions (recurse : RegionRecurse b) (found : Nat → RegionInfo) (options : VmProt) (fuel : Nat) :
    Option (List (Region b)) :=
  getRegionsLoop recurse found options fuel 0 kernSuccess ⟨0, 0, 1, found 0⟩ []

/-- A kernel that answers from `map`: the first entry ending above `address`, `depth` levels deep at most. -/
def mapRecurse (map : Forest VmProt) : RegionRecurse b := fun _ args =>
  match firstAbove args.address.toNat (view args.depth.toNat 0 map) with
  | none => (kernInvalidAddress, args)
  | some e => (kernSuccess, {
      address := BitVec.ofNat _ e.start
      size := BitVec.ofNat _ e.size
      depth := BitVec.ofNat _ e.level
      info :=
        match e.prot with
        | none => { args.info with isSubmap := true }
        | some p => ⟨p, false⟩ })

def regionOf (options : VmProt) (e : Entry VmProt) : Option (Region b) :=
  match e.prot with
  | none => none
  | some p =>
    if p = options ∨ options = vmProtAny then some ⟨BitVec.ofNat _ e.start, BitVec.ofNat _ e.size, p⟩ else none

/-- The leaves of `map` with protection `options`, or all of them. -/
def regionsOf (map : Forest VmProt) (options : VmProt) : List (Region b) :=
  (leaves 0 map).filterMap (regionOf options)

/-! ### One turn of the loop -/

section
variable {recurse : RegionRecurse b} {found : Nat → RegionInfo} {options : VmProt} {fuel i : Nat}
  {args args' : RegionArgs b} {regions : List (Region b)}

theorem getRegionsLoop_done (h : recurse i { args with info := found i } = (kernInvalidAddress, args')) :
    getRegionsLoop recurse found options (fuel + 1) i kernSuccess args regions = some regions := by
  rw [getRegionsLoop, if_neg (by simp), h]
  rfl

theorem getRegionsLoop_submap (h : recurse i { args with info := found i } = (kernSuccess, args'))
    (hsub : args'.info.isSubmap = true) :
    getRegionsLoop recurse found options (fuel + 1) i kernSuccess args regions =
      getRegionsLoop recurse found options fuel (i + 1) kernSuccess { args' with depth := args'.depth + 1 }
        regions := by
  rw [getRegionsLoop, if_neg (by simp), h]
  simp only [hsub, ↓reduceIte]
  exact if_neg (by decide)

theorem getRegionsLoop_leaf (h : recurse i { args with info := found i } = (kernSuccess, args'))
    (hsub : args'.info.isSubmap = false) :
    getRegionsLoop recurse found options (fuel + 1) i kernSuccess args regions =
      getRegionsLoop recurse found options fuel (i + 1) kernSuccess
        { args' with address := args'.address + args'.size }
        (if args'.info.protection = options ∨ options = vmProtAny then
          regions ++ [⟨args'.address, args'.size, args'.info.protection⟩] else regions) := by
  rw [getRegionsLoop, if_neg (by simp), h]
  simp only [hsub, Bool.false_eq_true, ↓reduceIte]
  exact if_neg (by decide)

end

/-! ### The walk over an address map -/

section
variable {map : Forest VmProt} {hi : Nat} {options : VmProt} {found : Nat → RegionInfo} {e : Entry VmProt}
  {addr : Nat}

theorem toNat_ofNat_of_lt {w n : Nat} (h : n < 2 ^ w) : (BitVec.ofNat w n).toNat = n := by
  rw [BitVec.toNat_ofNat, Nat.mod_eq_of_lt h]

theorem filterMap_passed_leaf {p : VmProt} (hp : e.prot = some p) {addr' : Nat}
    (h : passed map addr' = passed map addr ++ [e]) :
    (passed map addr').filterMap (regionOf (b := b) options) =
      if p = options ∨ options = vmProtAny then
        (passed map addr).filterMap (regionOf options) ++ [⟨BitVec.ofNat _ e.start, BitVec.ofNat _ e.size, p⟩]
      else (passed map addr).filterMap (regionOf options) := by
  rw [h, List.filterMap_append]
  by_cases hsel : p = options ∨ options = vmProtAny
  · have hr : regionOf (b := b) options e = some ⟨BitVec.ofNat _ e.start, BitVec.ofNat _ e.size, p⟩ := by
      simp only [regionOf, hp, if_pos hsel]
    rw [if_pos hsel, List.filterMap_cons_some hr, List.filterMap_nil]
  · have hr : regionOf (b := b) options e = none := by simp only [regionOf, hp, if_neg hsel]
    rw [if_neg hsel, List.filterMap_cons_none hr, List.filterMap_nil, List.append_nil]

theorem getRegionsLoop_eq (hmap : map.Within 0 hi) (hhi : hi < 2 ^ b.addrBits) (hnest : map.height < 2 ^ 32)
    (fuel i : Nat) (args : RegionArgs b) (regions : List (Region b))
    (hc : Cursor map args.address.toNat args.depth.toNat)
    (hregions : regions = (passed map args.address.toNat).filterMap (regionOf options))
    (hfuel : remaining map args.address.toNat args.depth.toNat < fuel) :
    getRegionsLoop (mapRecurse map) found options fuel i kernSuccess args regions =
      some (regionsOf map options) := by
  induction fuel generalizing i args regions with
  | zero => omega
  | succ fuel ih =>
    cases he : firstAbove args.address.toNat (view args.depth.toNat 0 map) with
    | none =>
      have hreply : mapRecurse map i { args with info := found i } =
          (kernInvalidAddress, { args with info := found i }) := by simp only [mapRecurse, he]
      rw [getRegionsLoop_done hreply, hregions, passed_of_firstAbove_eq_none hmap he]; rfl
    | some e =>
      rcases firstAbove_spec he with ⟨hmem, -⟩
      rcases view_bounds hmap hmem with ⟨-, hpos, hstop⟩
      rcases level_of_mem_view (Nat.zero_le _) hmem with ⟨-, hlevel, hsub, -⟩
      have hdepth : args.depth.toNat < 2 ^ 32 := args.depth.isLt
      have hstart : (BitVec.ofNat b.addrBits e.start).toNat = e.start := toNat_ofNat_of_lt (by omega)
      have hlev : (BitVec.ofNat 32 e.level).toNat = e.level := toNat_ofNat_of_lt (by omega)
      cases hp : e.prot with
      | none =>
        rcases hsub hp with ⟨hld, hheight⟩
        have hreply : mapRecurse map i { args with info := found i } = (kernSuccess,
            ⟨BitVec.ofNat _ e.start, BitVec.ofNat _ e.size, BitVec.ofNat _ e.level,
              { found i with isSubmap := true }⟩) := by simp only [mapRecurse, he, hp]
        have hdeeper : (BitVec.ofNat 32 e.level + 1).toNat = args.depth.toNat + 1 := by
          rw [BitVec.toNat_add, hlev, hld]
          exact Nat.mod_eq_of_lt (by show _ + 1 < _; omega)
        rcases hc.submap hmap he with ⟨hc', hpassed⟩
        rw [getRegionsLoop_submap hreply rfl]
        refine ih _ _ _ ?_ ?_ ?_
        · rw [hstart, hdeeper]; exact hc'
        · rw [hstart, hpassed]; exact hregions
        · rw [hstart, hdeeper]
          have hless := remaining_submap (show args.depth.toNat < map.height by omega) hpassed
          omega
      | some p =>
        have hreply : mapRecurse map i { args with info := found i } = (kernSuccess,
            ⟨BitVec.ofNat _ e.start, BitVec.ofNat _ e.size, BitVec.ofNat _ e.level, ⟨p, false⟩⟩) := by
          simp only [mapRecurse, he, hp]
        have hnext : (BitVec.ofNat b.addrBits e.start + BitVec.ofNat b.addrBits e.size).toNat = e.stop := by
          rw [← BitVec.ofNat_add, toNat_ofNat_of_lt]
          · rfl
          · show e.stop < _
            omega
        rcases Cursor.leaf hmap he (by rw [hp]; exact nofun) with ⟨hc', hpassed⟩
        rw [getRegionsLoop_leaf hreply rfl]
        refine ih _ _ _ ?_ ?_ ?_
        · rw [hnext, hlev]; exact hc'
        · rw [hnext, filterMap_passed_leaf hp hpassed, ← hregions]
        · rw [hnext, hlev]
          have : remaining map e.stop e.level < remaining map args.address.toNat args.depth.toNat :=
            remaining_leaf hpassed
          omega

theorem start_stop_of_regionOf {r : Region b} (hlo : e.start < e.stop) (hhi : e.stop < 2 ^ b.addrBits)
    (h : regionOf options e = some r) : r.start.toNat = e.start ∧ r.start.toNat + r.size.toNat = e.stop := by
  have hsize : e.start + e.size = e.stop := rfl
  rw [regionOf] at h
  cases hp : e.prot with
  | none => rw [hp] at h; cases h
  | some p =>
    rw [hp] at h
    by_cases hsel : p = options ∨ options = vmProtAny
    · obtain rfl := Option.some.inj ((if_pos hsel).symm.trans h)
      have hs : (BitVec.ofNat b.addrBits e.start).toNat = e.start := toNat_ofNat_of_lt (by omega)
      have hn : (BitVec.ofNat b.addrBits e.size).toNat = e.size := toNat_ofNat_of_lt (by omega)
      exact ⟨hs, by rw [hs, hn, hsize]⟩
    · cases (if_neg hsel).symm.trans h

theorem regionsOf_sorted (hmap : map.Within 0 hi) (hhi : hi < 2 ^ b.addrBits) (options : VmProt) :
    (regionsOf (b := b) map options).Pairwise fun r r' =>
      r.start < r'.start ∧ r.start.toNat + r.size.toNat ≤ r'.start.toNat := by
  refine List.pairwise_filterMap.2 ((leaves_sorted hmap).imp_of_mem fun he he' hbefore r hr r' hr' => ?_)
  rcases leaves_bounds hmap he with ⟨-, hpos, hstop⟩
  rcases leaves_bounds hmap he' with ⟨-, hpos', hstop'⟩
  rcases start_stop_of_regionOf hpos (by omega) hr with ⟨h₁, h₂⟩
  rcases start_stop_of_regionOf hpos' (by omega) hr' with ⟨h₁', -⟩
  have hle : _ ≤ _ := hbefore
  refine ⟨BitVec.lt_def.2 ?_, ?_⟩
  · omega
  · omega

/-- With fewer than `2 ^ 32` levels of submaps the loop ends and lists the leaves that `options` asks for, each
once and in address order. -/
theorem getRegions_eq (hmap : map.Within 0 hi) (hhi : hi < 2 ^ b.addrBits) (hnest : map.height < 2 ^ 32)
    (found : Nat → RegionInfo) (options : VmProt) :
    (∃ n, ∀ fuel ≥ n, getRegions (b := b) (mapRecurse map) found options fuel = some (regionsOf map options)) ∧
    (regionsOf (b := b) map options).Pairwise fun r r' =>
      r.start < r'.start ∧ r.start.toNat + r.size.toNat ≤ r'.start.toNat := by
  refine ⟨⟨remaining map 0 1 + 1, fun fuel hfuel => ?_⟩, regionsOf_sorted hmap hhi options⟩
  have hzero : (0 : VmAddress b).toNat = 0 := BitVec.toNat_zero
  refine getRegionsLoop_eq hmap hhi hnest fuel 0 _ [] cursor_zero ?_ hfuel
  show [] = (passed map (0 : VmAddress b).toNat).filterMap _
  rw [hzero, passed_zero hmap]; rfl

def sampleMap : Forest VmProt :=
  .leaf 0x1000 0x1000 5 <| .submap 0x4000 0x1000 .nil <|
    .submap 0x8000 0x4000 (.leaf 0x8000 0x1000 3 <| .leaf 0xA000 0x2000 5 .nil) .nil

theorem within_sampleMap : sampleMap.Within 0 0xC000 := by
  simp [sampleMap, Within]

theorem getRegions_sampleMap : ∃ n, ∀ fuel ≥ n,
    getRegions (b := .x86_64) (mapRecurse sampleMap) (fun _ => ⟨0, false⟩) 5 fuel =
      some [⟨0x1000, 0x1000, 5⟩, ⟨0xA000, 0x2000, 5⟩] :=
  (getRegions_eq within_sampleMap (by decide) (by decide) (fun _ => ⟨0, false⟩) 5).1

/-! ### Submaps too deep for `depth` -/

/-- `n` submaps, one inside the other and the last one empty. -/
def nestedSubmaps : Nat → Forest VmProt
  | 0 => .nil
  | n + 1 => .submap 0 1 (nestedSubmaps n) .nil

theorem within_nestedSubmaps (n : Nat) : (nestedSubmaps n).Within 0 1 := by
  induction n with
  | zero => trivial
  | succ n ih => exact ⟨Nat.le_refl _, Nat.one_pos, Nat.le_refl _, ih, trivial⟩

theorem view_nestedSubmaps {d l n : Nat} (hl : l ≤ d) (hd : d < l + n) :
    view d l (nestedSubmaps n) = [⟨0, 1, d, none⟩] := by
  induction n generalizing l with
  | zero => omega
  | succ n ih =>
    rw [nestedSubmaps, view]
    split
    · rw [ih (by omega) (by omega)]; rfl
    · rw [show l = d by omega]; rfl

/-- Each turn finds a submap one level further down; after the last one `depth` is zero again. -/
theorem getRegionsLoop_nestedSubmaps {n : Nat} (hn : 2 ^ 32 ≤ n) (fuel i : Nat) (args : RegionArgs b)
    (regions : List (Region b)) (haddr : args.address = 0) :
    getRegionsLoop (mapRecurse (nestedSubmaps n)) found options fuel i kernSuccess args regions = none := by
  induction fuel generalizing i args regions with
  | zero => rfl
  | succ fuel ih =>
    have hview : view args.depth.toNat 0 (nestedSubmaps n) = [⟨0, 1, args.depth.toNat, none⟩] := by
      have := args.depth.isLt
      exact view_nestedSubmaps (Nat.zero_le _) (by omega)
    have hreply : mapRecurse (nestedSubmaps n) i { args with info := found i } = (kernSuccess,
        ⟨BitVec.ofNat _ 0, BitVec.ofNat _ 1, BitVec.ofNat _ args.depth.toNat,
          { found i with isSubmap := true }⟩) := by
      simp only [mapRecurse, hview, haddr, firstAbove]
      rfl
    rw [getRegionsLoop_submap hreply rfl]
    exact ih _ _ _ rfl

theorem getRegions_nestedSubmaps : (nestedSubmaps (2 ^ 32)).Within 0 1 ∧
    ∀ fuel, getRegions (b := .x86_64) (mapRecurse (nestedSubmaps (2 ^ 32))) (fun _ => ⟨0, false⟩) vmProtAny fuel =
      none :=
  ⟨within_nestedSubmaps _, fun fuel => getRegionsLoop_nestedSubmaps (Nat.le_refl _) fuel 0 _ [] rfl⟩

end

end MasterLib
