import Cimogus.Client.SiteSettings
import Cimogus.Lib.Runs

/-!
# `SitesModel`

The rows on the screen are kept beside the stored map. `addSites` and `setRouteMode` read them anew from the map;
`addSite` and `removeSite` change both, each in its own way. `run_listed_iff` says for which calls the rows stay those
of the map.
-/

namespace Cimogus.Client

open Lib (Step Table)
open Lib.Runs

structure SitesModel where
  settings : SiteSettings
  currentRouteMode : RouteMode
  /-- `m_sites`, host names with their addresses. -/
  sites : List (String × String)

namespace SitesModel

def fillSites (s : SitesModel) : SitesModel := { s with sites := (s.settings.vpnSites s.currentRouteMode).toList }

/-- The constructor. Settings of old versions have the mode `VpnAllSites`. -/
def init (settings : SiteSettings) : SitesModel :=
  if settings.routeMode = .VpnAllSites then
    fillSites ⟨settings.setRouteMode .VpnOnlyForwardSites, .VpnOnlyForwardSites, []⟩
  else fillSites ⟨settings, settings.routeMode, []⟩

/-- The loop of `addSite`: what it returns and the rows it leaves, or `none` where it comes to the end. -/
def updateRow (hostname ip : String) : List (String × String) → Option (Bool × List (String × String))
  | [] => none
  | row :: rows =>
    if row.1 = hostname ∧ row.2 = "" ∧ ip ≠ "" then some (true, (row.1, ip) :: rows)
    else if row.1 = hostname ∧ row.2 = ip then some (false, row :: rows)
    else (updateRow hostname ip rows).map fun r => (r.1, row :: r.2)

def addSite (hostname ip : String) : Step SitesModel := fun s =>
  let r := s.settings.addVpnSite s.currentRouteMode hostname ip
  if r.1 then
    match updateRow hostname ip s.sites with
    | some (changed, rows) => (changed, { s with settings := r.2, sites := rows })
    | none => (true, { s with settings := r.2, sites := s.sites ++ [(hostname, ip)] })
  else (false, s)

def addSites (sites : SiteMap) (replaceExisting : Bool) (s : SitesModel) : SitesModel :=
  let settings := if replaceExisting then s.settings.removeAllVpnSites s.currentRouteMode else s.settings
  fillSites { s with settings := settings.addVpnSites s.currentRouteMode sites }

/-- The views name only rows that there are; for others the source is undefined. -/
def removeSite (row : Nat) (s : SitesModel) : SitesModel :=
  match s.sites[row]? with
  | none => s
  | some (hostname, _) =>
    { s with settings := s.settings.removeVpnSite s.currentRouteMode hostname, sites := s.sites.eraseIdx row }

def setRouteMode (routeMode : RouteMode) (s : SitesModel) : SitesModel :=
  let settings := s.settings.setRouteMode routeMode
  fillSites { s with settings := settings, currentRouteMode := settings.routeMode }

inductive Op
  | addSite (hostname ip : String)
  | addSites (sites : SiteMap) (replaceExisting : Bool)
  | removeSite (row : Nat)
  | setRouteMode (routeMode : RouteMode)

def step : Op → SitesModel → SitesModel
  | .addSite hostname ip, s => (addSite hostname ip s).2
  | .addSites sites replaceExisting, s => addSites sites replaceExisting s
  | .removeSite row, s => removeSite row s
  | .setRouteMode routeMode, s => setRouteMode routeMode s

/-- `Settings::vpnSites` for the current mode, as a table. -/
def stored (s : SitesModel) : Table String String := s.settings.site s.currentRouteMode

/-- The rows, read as a map, are the stored sites. -/
def Listed (s : SitesModel) : Prop := s.stored.ListedBy s.sites

/-- A host whose address is known is not added with another one. -/
def KeepsAddress : Op → SitesModel → Prop
  | .addSite hostname ip, s => ∀ old, s.stored hostname = some old → old = "" ∨ ip = "" ∨ ip = old
  | _, _ => True

/-! ## What the calls do -/

theorem updateRow_cases (hostname ip : String) (rows : List (String × String)) :
    (updateRow hostname ip rows = none ∧ ∀ old, (hostname, old) ∈ rows →
      (old = "" → ip = "") ∧ old ≠ ip) ∨
      (∃ before after, rows = before ++ (hostname, "") :: after ∧ ip ≠ "" ∧
        updateRow hostname ip rows = some (true, before ++ (hostname, ip) :: after)) ∨
      ((hostname, ip) ∈ rows ∧ updateRow hostname ip rows = some (false, rows)) := by
  induction rows with
  | nil => exact .inl ⟨rfl, by simp⟩
  | cons row rows ih =>
    obtain ⟨host, old⟩ := row
    rw [updateRow]
    by_cases he : host = hostname ∧ old = "" ∧ ip ≠ ""
    · obtain ⟨rfl, rfl, hip⟩ := he
      exact .inr (.inl ⟨[], rows, rfl, hip, by simp [hip]⟩)
    rw [if_neg he]
    by_cases hs : host = hostname ∧ old = ip
    · obtain ⟨rfl, rfl⟩ := hs
      exact .inr (.inr ⟨List.mem_cons_self, by simp⟩)
    rw [if_neg hs]
    rcases ih with ⟨hno, ho⟩ | ⟨before, after, rfl, hip, hso⟩ | ⟨hm, hso⟩
    · refine .inl ⟨by rw [hno]; rfl, fun old' hm => ?_⟩
      rcases List.mem_cons.mp hm with heq | hm
      · obtain ⟨rfl, rfl⟩ := Prod.mk.inj heq
        exact ⟨fun hold => by_contra fun hip => he ⟨rfl, hold, hip⟩, fun heq => hs ⟨rfl, heq⟩⟩
      · exact ho old' hm
    · exact .inr (.inl ⟨(host, old) :: before, after, rfl, hip, by rw [hso]; rfl⟩)
    · exact .inr (.inr ⟨List.mem_cons_of_mem _ hm, by rw [hso]; rfl⟩)

variable {s : SitesModel} {hostname ip : String}

/-- What `addSite` does: nothing where there is nothing to store; otherwise it stores the address and changes the row
that lacks it, leaves a row that has it, or appends a row. -/
theorem addSite_cases (s : SitesModel) (hostname ip : String) :
    ((s.stored hostname).isSome ∧ ip = "" ∧ (addSite hostname ip s).2 = s) ∨
        (((s.stored hostname).isSome → ip ≠ "") ∧
        (addSite hostname ip s).2.stored = Function.update s.stored hostname (some ip) ∧
        ((∃ before after, s.sites = before ++ (hostname, "") :: after ∧ ip ≠ "" ∧
            (addSite hostname ip s).2.sites = before ++ (hostname, ip) :: after) ∨
          ((hostname, ip) ∈ s.sites ∧ (addSite hostname ip s).2.sites = s.sites) ∨
          ((∀ old, (hostname, old) ∈ s.sites → (old = "" → ip = "") ∧ old ≠ ip) ∧
            (addSite hostname ip s).2.sites = s.sites ++ [(hostname, ip)]))) := by
  cases hs : (s.settings.addVpnSite s.currentRouteMode hostname ip).1 with
  | false =>
    obtain ⟨hk, hip⟩ := (SiteSettings.addVpnSite_fst hostname ip).mp hs
    exact .inl ⟨hk, hip, by rw [addSite, if_neg (by simp [hs])]⟩
  | true =>
    refine .inr ⟨fun hk hip => ?_, ?_⟩
    · rw [(SiteSettings.addVpnSite_fst hostname ip).mpr ⟨hk, hip⟩] at hs
      cases hs
    · have hsi := SiteSettings.site_addVpnSite hs
      rw [addSite, if_pos hs]
      rcases updateRow_cases hostname ip s.sites with ⟨hno, ho⟩ | ⟨before, after, hr, hip, hso⟩ | ⟨hm, hso⟩
      · rw [hno]
        exact ⟨hsi, .inr (.inr ⟨ho, rfl⟩)⟩
      · rw [hso]
        exact ⟨hsi, .inl ⟨before, after, hr, hip, rfl⟩⟩
      · rw [hso]
        exact ⟨hsi, .inr (.inl ⟨hm, rfl⟩)⟩

theorem removeSite_eq {row : Nat} {site : String × String} (h : s.sites[row]? = some site) :
    (removeSite row s).stored = Function.update s.stored site.1 none ∧
    (removeSite row s).sites = s.sites.eraseIdx row := by
  rw [removeSite, h]
  exact ⟨SiteSettings.site_removeVpnSite site.1, rfl⟩

/-! ## The rows and the map -/

theorem fillSites_listed (s : SitesModel) : s.fillSites.Listed := .toList _

theorem init_listed (settings : SiteSettings) : (init settings).Listed := by
  rw [init]
  split <;> exact fillSites_listed _

/-- The address of a host is set where the row lacks it or agrees, and appended for a new host; otherwise the host gets
a second row. -/
theorem addSite_listed_iff (h : s.Listed) :
    (addSite hostname ip s).2.Listed ↔ ∀ old, s.stored hostname = some old →
    old = "" ∨ ip = "" ∨ ip = old := by
  rcases addSite_cases s hostname ip with ⟨-, hip, heq⟩ | ⟨hnew, hst, hr⟩
  · rw [heq]
    exact iff_of_true h fun _ _ => .inr (.inl hip)
  rw [Listed, hst]
  rcases hr with ⟨before, after, hsplit, hip, hr⟩ | ⟨hm, hr⟩ | ⟨ho, hr⟩
  · rw [Listed, hsplit] at h
    have hold := (h.mem_iff hostname "").mp (by simp)
    rw [hr]
    exact iff_of_true h.replace fun old hs => .inl (Option.some.inj (hs.symm.trans hold))
  · have hold := (h.mem_iff hostname ip).mp hm
    rw [hr, ← hold, Function.update_eq_self]
    exact iff_of_true h fun old hs => .inr (.inr (Option.some.inj (hold.symm.trans hs)))
  · rw [hr]
    cases hold : s.stored hostname with
    | none => exact iff_of_true (h.append hold) fun _ hs => nomatch hs
    | some old =>
      have hm := (h.mem_iff hostname old).mpr hold
      obtain ⟨he, hne⟩ := ho old hm
      have hip : ip ≠ "" := hnew (by simp [hold])
      refine iff_of_false (Table.not_listedBy_append hm) fun hk => ?_
      rcases hk old rfl with heq | heq | heq
      · exact hip (he heq)
      · exact hip heq
      · exact hne heq.symm

theorem removeSite_listed (row : Nat) (h : s.Listed) : (removeSite row s).Listed := by
  cases hro : s.sites[row]? with
  | none => rwa [removeSite, hro]
  | some site =>
    obtain ⟨hs, hr⟩ := removeSite_eq hro
    obtain ⟨before, after, hsplit, he⟩ := Lib.split_of_getElem? hro
    rw [Listed, hsplit] at h
    rw [Listed, hs, hr, he]
    exact h.erase

theorem step_listed_iff (op : Op) (h : s.Listed) : (step op s).Listed ↔ KeepsAddress op s := by
  cases op with
  | addSite hostname ip => exact addSite_listed_iff h
  | addSites sites replaceExisting => exact iff_of_true (fillSites_listed _) trivial
  | removeSite row => exact iff_of_true (removeSite_listed row h) trivial
  | setRouteMode routeMode => exact iff_of_true (fillSites_listed _) trivial

/-- The rows stay those of the stored map just as long as no host is added with another address than the one stored for
it. -/
theorem run_listed_iff (settings : SiteSettings) (ops : List Op) :
    (∀ n, (run step (ops.take n) (init settings)).Listed) ↔ Guarded step KeepsAddress ops (init settings) :=
  forall_take_iff_guarded (fun _ _ _ (_ : True) => trivial) (fun op _ _ _ h => step_listed_iff op h) trivial
    (init_listed settings)

/-- A host that is added with one address and then with another has two rows and one stored address; when the second row
is removed, the first is left and nothing is stored. -/
theorem changed_address_two_rows :
    let s := run step [.addSite "site.com" "192.0.2.1", .addSite "site.com" "192.0.2.2"]
      (init ⟨.VpnOnlyForwardSites, fun _ => ∅⟩)
    s.sites = [("site.com", "192.0.2.1"), ("site.com", "192.0.2.2")] ∧
      s.stored "site.com" = some "192.0.2.2" ∧ ¬s.Listed ∧
      (step (.removeSite 1) s).sites = [("site.com", "192.0.2.1")] ∧
      (step (.removeSite 1) s).stored "site.com" = none := by
  refine ⟨by decide, by decide, fun h => ?_, by decide, by decide⟩
  exact absurd h.nodup (by decide)

end SitesModel

end Cimogus.Client
