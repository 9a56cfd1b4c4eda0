import Cimogus.Client.Auth

/-!
# `RegionsModel`

The choice of a region is kept in the model and in the settings; where it is empty, the first region of the list stands
in. Only `setSelectedRegionId` writes both, and a refresh takes the one of the settings. `run_selection_iff` says for
which calls the selection stays consistent and the choice is kept.
-/

namespace Cimogus.Client

open Lib.Runs List

/-- The id, or the one of the first region where it is empty. -/
def regionIdOrFirst (id : String) : List RegionInfo → String
  | [] => id
  | region :: _ => if id = "" then region.id else id

structure RegionsModel where
  /-- `Settings::getSelectedRegionId`. -/
  storedRegionId : String
  /-- The list that `AuthController` has. -/
  authRegions : List RegionInfo
  regions : List RegionInfo
  selectedRegionId : String

namespace RegionsModel

def init (storedRegionId : String) : RegionsModel := ⟨storedRegionId, [], [], storedRegionId⟩

/-- `AuthController::getSelectedRegionId`. -/
def authSelectedRegionId (s : RegionsModel) : String := regionIdOrFirst s.storedRegionId s.authRegions

def getSelectedRegionId (s : RegionsModel) : String := regionIdOrFirst s.selectedRegionId s.regions

def getSelectedRegionIndex (s : RegionsModel) : Nat :=
  (s.regions.findIdx? fun region => s.getSelectedRegionId = region.id).getD 0

def setSelectedRegionId (id : String) (s : RegionsModel) : RegionsModel :=
  { s with selectedRegionId := id, storedRegionId := id }

def setSelectedRegionIndex (index : Nat) (s : RegionsModel) : RegionsModel :=
  match s.regions[index]? with
  | none => s
  | some region => { s with selectedRegionId := region.id }

def resetModel (s : RegionsModel) : RegionsModel :=
  { s with regions := s.authRegions, selectedRegionId := s.authSelectedRegionId }

/-- `AuthController` has a new list and says so. -/
def refresh (regions : List RegionInfo) (s : RegionsModel) : RegionsModel :=
  { s with authRegions := regions }.resetModel

/-- The region at the selected index is the selected one, if there are any. -/
def Consistent (s : RegionsModel) : Prop :=
  s.regions ≠ [] → s.regions[s.getSelectedRegionIndex]?.map RegionInfo.id = some s.getSelectedRegionId

variable {s : RegionsModel} {id : String} {regions : List RegionInfo}

theorem regionIdOrFirst_of_ne (h : id ≠ "") : regionIdOrFirst id regions = id := by
  cases regions with
  | nil => rfl
  | cons region regions => exact if_neg h

theorem regionIdOrFirst_idem (id : String) (regions : List RegionInfo) :
    regionIdOrFirst (regionIdOrFirst id regions) regions = regionIdOrFirst id regions := by
  by_cases h : regionIdOrFirst id regions = ""
  · cases regions with
    | nil => rfl
    | cons region regions =>
      rw [regionIdOrFirst] at h
      by_cases hid : id = ""
      · rw [if_pos hid] at h
        rw [regionIdOrFirst, regionIdOrFirst, if_pos hid, h, if_pos rfl]
      · exact absurd ((if_neg hid).symm.trans h) hid
  · exact regionIdOrFirst_of_ne h

/-- The id that is looked for is on the list where the kept one is, and where the first one stands in. -/
theorem regionIdOrFirst_mem_iff (h : regions ≠ []) :
    regionIdOrFirst id regions ∈ regions.map RegionInfo.id ↔ id = "" ∨ id ∈ regions.map RegionInfo.id := by
  obtain ⟨region, regions, rfl⟩ := exists_cons_of_ne_nil h
  rw [regionIdOrFirst]
  by_cases hid : id = ""
  · rw [if_pos hid]
    exact iff_of_true mem_cons_self (.inl hid)
  · rw [if_neg hid, or_iff_right hid]

theorem consistent_iff_mem (h : s.regions ≠ []) :
    s.Consistent ↔ s.getSelectedRegionId ∈ s.regions.map RegionInfo.id := by
  rw [Consistent, imp_iff_right h, getSelectedRegionIndex]
  cases hfi : s.regions.findIdx? fun region => s.getSelectedRegionId = region.id with
  | none =>
    -- the index is 0, and no region has the id
    have hno : s.getSelectedRegionId ∉ s.regions.map RegionInfo.id := by
      simpa [eq_comm] using findIdx?_eq_none_iff.mp hfi
    refine iff_of_false (fun hfir => hno ?_) hno
    obtain ⟨region, hr, hid⟩ := Option.map_eq_some_iff.mp hfir
    exact mem_map.mpr ⟨region, mem_of_getElem? hr, hid⟩
  | some index =>
    obtain ⟨hlt, hid, -⟩ := findIdx?_eq_some_iff_getElem.mp hfi
    have hid : s.getSelectedRegionId = s.regions[index].id := of_decide_eq_true hid
    rw [Option.getD_some, getElem?_eq_getElem hlt, hid]
    exact iff_of_true rfl (mem_map_of_mem (getElem_mem hlt))

theorem consistent_iff (s : RegionsModel) :
    s.Consistent ↔ s.regions = [] ∨ s.selectedRegionId = "" ∨
    s.selectedRegionId ∈ s.regions.map RegionInfo.id := by
  by_cases h : s.regions = []
  · exact iff_of_true (fun hne => absurd h hne) (.inl h)
  · rw [consistent_iff_mem h, getSelectedRegionId, regionIdOrFirst_mem_iff h, or_iff_right h]

theorem getSelectedRegionId_refresh (regions : List RegionInfo) (s : RegionsModel) :
    (s.refresh regions).getSelectedRegionId = regionIdOrFirst s.storedRegionId regions :=
  regionIdOrFirst_idem s.storedRegionId regions

theorem refresh_consistent_iff (regions : List RegionInfo) (s : RegionsModel) : (s.refresh regions).Consistent ↔
      regions = [] ∨ s.storedRegionId = "" ∨ s.storedRegionId ∈ regions.map RegionInfo.id := by
  have hr : (s.refresh regions).regions = regions := rfl
  by_cases h : regions = []
  · exact iff_of_true (fun hne => absurd h hne) (.inl h)
  · rw [consistent_iff_mem (by rwa [hr]), getSelectedRegionId_refresh, hr, regionIdOrFirst_mem_iff h, or_iff_right h]

end RegionsModel

/-! ## Runs -/

structure RegionsRun where
  model : RegionsModel
  /-- The id of the region that was last chosen through a setter. -/
  chosen : Option String
  /-- Nothing was chosen since the last refresh. -/
  refreshed : Bool

namespace RegionsRun

open RegionsModel (getSelectedRegionId_refresh refresh_consistent_iff consistent_iff)

inductive Op
  | setSelectedRegionId (id : String)
  | setSelectedRegionIndex (index : Nat)
  | refresh (regions : List RegionInfo)

def start (storedRegionId : String) : RegionsRun := ⟨.init storedRegionId, none, false⟩

/-- An index outside the list chooses nothing. -/
def step : Op → RegionsRun → RegionsRun
  | .setSelectedRegionId id, s => ⟨s.model.setSelectedRegionId id, some id, false⟩
  | .setSelectedRegionIndex index, s =>
    match s.model.regions[index]? with
    | none => s
    | some region => ⟨s.model.setSelectedRegionIndex index, some region.id, false⟩
  | .refresh regions, s => ⟨s.model.refresh regions, s.chosen, true⟩

/-- The selection is consistent, and after a refresh the chosen region is still selected if it is on the list. -/
structure Selection (s : RegionsRun) : Prop where
  consistent : s.model.Consistent
  kept : s.refreshed = true → ∀ id ∈ s.chosen, id ∈ s.model.regions.map RegionInfo.id →
    s.model.getSelectedRegionId = id

/-- An id that is set is on the list. With a new list, the stored id is on it, and a chosen region that is on it is the
stored one, or the first where none is stored. -/
def Keeps : Op → RegionsRun → Prop
  | .setSelectedRegionId id, s => s.model.regions = [] ∨ id = "" ∨ id ∈ s.model.regions.map RegionInfo.id
  | .setSelectedRegionIndex _, _ => True
  | .refresh regions, s =>
    (regions = [] ∨ s.model.storedRegionId = "" ∨ s.model.storedRegionId ∈ regions.map RegionInfo.id) ∧
      ∀ id ∈ s.chosen, id ∈ regions.map RegionInfo.id → regionIdOrFirst s.model.storedRegionId regions = id

theorem step_selection_iff {s : RegionsRun} (op : Op) (h : s.Selection) : (step op s).Selection ↔ Keeps op s := by
  cases op with
  | setSelectedRegionId id =>
    have hi := consistent_iff (s.model.setSelectedRegionId id)
    exact ⟨fun hse => hi.mp hse.consistent, fun hk => ⟨hi.mpr hk, Bool.noConfusion⟩⟩
  | setSelectedRegionIndex index =>
    refine iff_of_true ?_ trivial
    rw [step]
    split
    · exact h
    · rename_i region hr
      refine ⟨?_, Bool.noConfusion⟩
      rw [RegionsModel.setSelectedRegionIndex, hr, consistent_iff]
      exact .inr (.inr (mem_map_of_mem (mem_of_getElem? hr)))
  | refresh regions =>
    have hi := refresh_consistent_iff regions s.model
    have hid := getSelectedRegionId_refresh regions s.model
    constructor
    · rintro ⟨hco, hke⟩
      exact ⟨hi.mp hco, fun id hc hm => hid.symm.trans (hke rfl id hc hm)⟩
    · rintro ⟨hs, hc⟩
      exact ⟨hi.mpr hs, fun _ id hi' hm => hid.trans (hc id hi' hm)⟩

theorem start_selection (storedRegionId : String) : (start storedRegionId).Selection :=
  ⟨fun h => absurd rfl h, Bool.noConfusion⟩

/-- The selection stays consistent and the choice is kept just for the calls that meet `Keeps`. -/
theorem run_selection_iff (storedRegionId : String) (ops : List Op) :
    (∀ n, (run step (ops.take n) (start storedRegionId)).Selection) ↔
    Guarded step Keeps ops (start storedRegionId) :=
  forall_take_iff_guarded (fun _ _ _ (_ : True) => trivial) (fun op _ _ _ h => step_selection_iff op h) trivial
    (start_selection storedRegionId)

/-- A region chosen by its index is lost with the next refresh; a stored region that is not on the list is selected at
the index of another one. -/
theorem choice_lost :
    let nl : RegionInfo := ⟨"nl-1", "NL", "Netherlands"⟩
    let fi : RegionInfo := ⟨"fi-1", "FI", "Finland"⟩
    let byIndex := run step [.refresh [nl, fi], .setSelectedRegionIndex 1, .refresh [nl, fi]] (start "")
    let dropped := run step [.refresh [nl, fi], .setSelectedRegionId "fi-1", .refresh [nl]] (start "")
    (byIndex.chosen = some "fi-1" ∧ byIndex.model.regions = [nl, fi] ∧
      byIndex.model.getSelectedRegionId = "nl-1") ∧
      dropped.model.regions[dropped.model.getSelectedRegionIndex]? = some nl ∧
      dropped.model.getSelectedRegionId = "fi-1" := by
  decide

end RegionsRun

end Cimogus.Client
