import Cimogus.Lib.Listing

/-!
# The sites in `Settings`

The route mode and, for each mode, the map from host names to addresses. A map is iterated in the order of its keys;
nothing below depends on which order that is.
-/

namespace Cimogus.Client

open Lib (Step Table)

/-- `Settings::RouteMode`. -/
inductive RouteMode
  | VpnAllSites
  | VpnOnlyForwardSites
  | VpnAllExceptSites
  deriving DecidableEq

/-- `QMap<QString, QString>`, from a host name to its address, which is empty until it is known. -/
abbrev SiteMap := Std.ExtTreeMap String String

/-- `Conf/routeMode`, and the maps under `Conf/` and `routeModeString(mode)`. -/
structure SiteSettings where
  routeMode : RouteMode
  vpnSites : RouteMode → SiteMap

namespace SiteSettings

variable (mode : RouteMode)

def setRouteMode (settings : SiteSettings) : SiteSettings := { settings with routeMode := mode }

def setVpnSites (sites : SiteMap) (settings : SiteSettings) : SiteSettings :=
  { settings with vpnSites := Function.update settings.vpnSites mode sites }

def addVpnSite (site ip : String) : Step SiteSettings := fun settings =>
  let sites := settings.vpnSites mode
  if sites.contains site ∧ ip = "" then (false, settings)
  else (true, settings.setVpnSites mode (sites.insert site ip))

def addVpnSites (sites : SiteMap) (settings : SiteSettings) : SiteSettings :=
  settings.setVpnSites mode (sites.toList.foldl
    (fun allSites entry => if allSites[entry.1]? = some entry.2 then allSites else allSites.insert entry.1 entry.2)
    (settings.vpnSites mode))

def removeVpnSite (site : String) (settings : SiteSettings) : SiteSettings :=
  let sites := settings.vpnSites mode
  if sites.contains site then settings.setVpnSites mode (sites.erase site) else settings

def removeAllVpnSites (settings : SiteSettings) : SiteSettings := settings.setVpnSites mode ∅

def site (settings : SiteSettings) : Table String String := fun host => (settings.vpnSites mode)[host]?

variable {mode} {settings : SiteSettings}

theorem site_setVpnSites (sites : SiteMap) :
    (settings.setVpnSites mode sites).site mode = fun host => sites[host]? := by
  funext host
  simp [site, setVpnSites]

theorem addVpnSite_fst (host ip : String) :
    (addVpnSite mode host ip settings).1 = false ↔ (settings.site mode host).isSome ∧ ip = "" := by
  rw [addVpnSite, site, ← Std.ExtTreeMap.contains_eq_isSome_getElem?]
  split
  · rename_i hk
    exact iff_of_true rfl hk
  · rename_i hno
    exact iff_of_false Bool.noConfusion hno

theorem site_addVpnSite {host ip : String} (h : (addVpnSite mode host ip settings).1 = true) :
    (addVpnSite mode host ip settings).2.site mode = Function.update (settings.site mode) host (some ip) := by
  rw [addVpnSite] at h ⊢
  split at h
  · cases h
  · rename_i hno
    rw [if_neg hno, site_setVpnSites]
    funext k
    rw [Lib.getElem?_insert_eq_ite, Function.update_apply]
    rfl

theorem site_removeVpnSite (host : String) :
    (settings.removeVpnSite mode host).site mode = Function.update (settings.site mode) host none := by
  funext k
  rw [removeVpnSite]
  split
  · rw [site_setVpnSites]
    simp only [site, Lib.getElem?_erase_eq_ite, Function.update_apply]
  · rename_i hno
    by_cases hkey : k = host
    · subst hkey
      simpa [site] using hno
    · simp [hkey]

end SiteSettings

end Cimogus.Client
