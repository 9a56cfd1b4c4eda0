import Cimogus.Client.SiteRoutes
import Cimogus.Lib.Json

/-!
# Files of sites

`exportSites` writes the rows of the list, `importSites` takes those whose host name has a dot. `addSite` looks for the
dot before it shortens the name, so a list can have names that are not imported again; and a host can have several rows,
of which the last one counts.
-/

namespace Cimogus.Client.SitesController

open Lib (Table Json)
open Lib.Json List
open Service (ipAddressWithSubnetRegExp)

def exportSites (s : SitesController) : Json :=
  .arr (s.sitesModel.sites.map fun site => .obj [("hostname", .str site.1), ("ip", .str site.2)])

def Importable (hostname : String) : Bool := Lib.Text.contains hostname "." || ipAddressWithSubnetRegExp hostname

def importedSites (jsonArray : List Json) : List (String × String) :=
  jsonArray.filterMap fun jsonValue =>
    let jsonObject := Value.toObject (some jsonValue)
    let hostname := (jsonObject.value "hostname").toText
    if Importable hostname then some (hostname, (jsonObject.value "ip").toText) else none

def siteMap (sites : List (String × String)) : SiteMap := sites.foldl (fun m site => m.insert site.1 site.2) ∅

/-- With the document in the file, if there is one. -/
def importSites (fileName : String) (jsonDocument : Option Json) (replaceExisting : Bool) (s : SitesController) :
    SitesController :=
  match jsonDocument with
  | none => s.emit (.errorOccurred ("Failed to parse JSON data from file: " ++ fileName))
  | some (.arr jsonArray) =>
    let sites := importedSites jsonArray
    let s := { s with sitesModel := s.sitesModel.addSites (siteMap sites) replaceExisting }
    let s := s.invoke (.addRoutes (sites.map fun site => if site.2 = "" then site.1 else site.2))
    (s.invoke .flushDns).emit (.finished "Import completed")
  | some _ => s.emit (.errorOccurred ("The JSON data is not an array in file: " ++ fileName))

/-- The address in the last row of a host. -/
def lastAddress (rows : List (String × String)) (host : String) : Option String :=
  (rows.filter (·.1 = host)).getLast?.map Prod.snd

/-- A later row takes the place of an earlier one. -/
theorem getElem?_siteMap (rows : List (String × String)) (host : String) :
    (siteMap rows)[host]? = lastAddress rows host := by
  induction rows using reverseRecOn with
  | nil => rfl
  | append_singleton rows site ih =>
    rw [siteMap, foldl_append, foldl_cons, foldl_nil, ← siteMap, Lib.getElem?_insert_eq_ite, ih, lastAddress,
      lastAddress,
      filter_append]
    by_cases he : host = site.1
    · simp [he]
    · simp [he, Ne.symm he]

theorem lastAddress_filter (p : String → Bool) (rows : List (String × String)) (host : String) :
    lastAddress (rows.filter fun row => p row.1) host = if p host then lastAddress rows host else none := by
  rw [lastAddress, filter_filter]
  split
  next hp =>
    rw [lastAddress, filter_congr fun row _ => ?_]
    by_cases he : row.1 = host <;> simp [he, hp]
  next hp =>
    rw [filter_eq_nil_iff.mpr fun row _ => ?_]
    · rfl
    · by_cases he : row.1 = host <;> simp [he, hp]

theorem lastAddress_listed {rows : List (String × String)} {t : Table String String} (h : t.ListedBy rows)
    (host : String) :
    lastAddress rows host = t host := by
  rw [lastAddress]
  cases hl : (rows.filter (·.1 = host)).getLast? with
  | none =>
    cases ht : t host with
    | none => rfl
    | some ip =>
      have hm := (h.mem_iff host ip).mpr ht
      exact absurd (decide_eq_true rfl) (filter_eq_nil_iff.mp (getLast?_eq_none_iff.mp hl) _ hm)
  | some site =>
    obtain ⟨hm, he⟩ := mem_filter.mp (mem_of_getLast? hl)
    rw [← of_decide_eq_true he, (h.mem_iff _ _).mp hm]
    rfl

theorem stored_addSites (sites : SiteMap) (m : SitesModel) :
    (m.addSites sites true).stored = fun host => sites[host]? := by
  have hi : ∀ (all : SiteMap) (e : String × String), (if all[e.1]? = some e.2 then all else all.insert e.1 e.2) =
      all.insert e.1 e.2 := by
    intro all e
    split
    next he =>
      refine Std.ExtTreeMap.ext_getElem? fun host => ?_
      rw [Lib.getElem?_insert_eq_ite]
      split
      next hk => rw [hk, he]
      · rfl
    · rfl
  funext host
  show (SiteSettings.addVpnSites m.currentRouteMode sites _).site m.currentRouteMode host = _
  rw [SiteSettings.addVpnSites, SiteSettings.site_setVpnSites]
  simp only [hi, if_true, SiteSettings.removeAllVpnSites, SiteSettings.setVpnSites, Function.update_self]
  exact (getElem?_siteMap _ host).trans (lastAddress_listed (.toList sites) host)

theorem importedSites_export (sites : List (String × String)) :
    importedSites (sites.map fun site => .obj [("hostname", .str site.1), ("ip", .str site.2)]) =
      sites.filter fun site => Importable site.1 := by
  rw [importedSites, ← filterMap_eq_filter]
  simp [Object.value_cons, Option.guard]

/-- What is stored after the round trip. -/
theorem stored_importSites_exportSites (fileName : String) (s : SitesController) (host : String) :
    (s.importSites fileName (some s.exportSites) true).sitesModel.stored host =
      if Importable host then lastAddress s.sitesModel.sites host else none := by
  show (s.sitesModel.addSites _ true).stored host = _
  rw [stored_addSites, importedSites_export]
  exact (getElem?_siteMap _ host).trans (lastAddress_filter Importable _ host)

/-! ## Lists that are reached by adding sites -/

/-- The hosts of the rows are those that are stored. -/
def RowsStored (m : SitesModel) : Prop := ∀ host, (m.stored host).isSome ↔ host ∈ m.sites.map Prod.fst

theorem addSite_rowsStored {m : SitesModel} (h : RowsStored m) (hostname ip : String) :
    RowsStored (m.addSite hostname ip).2 := by
  obtain ⟨-, -, heq⟩ | ⟨-, hst, hr⟩ := SitesModel.addSite_cases m hostname ip
  · rwa [heq]
  intro host
  have hnew : (Function.update m.stored hostname (some ip) host).isSome ↔
      host = hostname ∨ host ∈ m.sites.map Prod.fst := by
    rw [Function.update_apply, ← h host]
    split <;> simp [*]
  rw [hst, hnew]
  obtain ⟨before, after, hsplit, -, hr⟩ | ⟨hm, hr⟩ | ⟨-, hr⟩ := hr
  · rw [hr, hsplit]
    simp only [map_append, map_cons, mem_append, mem_cons]
    tauto
  · rw [hr]
    exact or_iff_right_of_imp fun he => he ▸ mem_map_of_mem hm
  · rw [hr, map_append, mem_append, or_comm]
    simp

theorem step_rowsStored {e : Event} (he : ∀ i, e ≠ .removeSite i) {s : SitesController}
    (h : RowsStored s.sitesModel) :
    RowsStored (step e s).sitesModel := by
  cases e with
  | removeSite i => exact absurd rfl (he i)
  | addSite hostname =>
    rw [step]
    obtain ⟨emitted, heq⟩ | ⟨lookups, emitted, heq, -⟩ := addSite_eq hostname s <;> rw [heq]
    · exact h
    · show RowsStored (s.processSite (siteName hostname) "").sitesModel
      rw [sitesModel_processSite]
      exact addSite_rowsStored h _ _
  | lookedUp lookup addresses =>
    rw [step]
    split
    · exact h
    · rw [resolveCallback]
      split
      · rw [sitesModel_processSite]
        exact addSite_rowsStored h _ _
      · exact h
  | deliver => exact s.deliver_eq.2.2.1 ▸ h

theorem run_rowsStored {events : List Event} (h : ∀ i, .removeSite i ∉ events) {s : SitesController}
    (hs : RowsStored s.sitesModel) : RowsStored (Lib.Runs.run step events s).sitesModel := by
  induction events generalizing s with
  | nil => exact hs
  | cons e events ih =>
    exact ih (fun i hi => h i (mem_cons_of_mem _ hi)) (step_rowsStored (fun i hi => h i (hi ▸ mem_cons_self)) hs)

/-- **A list of sites that is exported and imported in place of itself.** In every state that is reached by adding
sites, with any names and any answers to the lookups, the map is the same iff every host name of the list can be
imported (those without a dot are lost) and what is stored for a host is in its last row. -/
theorem importSites_exportSites_iff (fileName : String) (settings : SiteSettings) (vpnGateway routeGateway : String)
    {events : List Event} (hadd : ∀ i, .removeSite i ∉ events) :
    let s := Lib.Runs.run step events (start settings vpnGateway routeGateway)
    (s.importSites fileName (some s.exportSites) true).sitesModel.stored = s.sitesModel.stored ↔
      ∀ site ∈ s.sitesModel.sites,
        Importable site.1 ∧ s.sitesModel.stored site.1 = lastAddress s.sitesModel.sites site.1 := by
  intro s
  have hrows : RowsStored s.sitesModel := run_rowsStored hadd fun host => by
    have hl : (start settings vpnGateway routeGateway).sitesModel.Listed := SitesModel.init_listed settings
    rw [mem_map, Option.isSome_iff_exists]
    refine ⟨fun ⟨ip, hip⟩ => ⟨(host, ip), (hl.mem_iff host ip).mpr hip, rfl⟩, ?_⟩
    rintro ⟨site, hm, rfl⟩
    exact ⟨site.2, (hl.mem_iff _ _).mp hm⟩
  constructor
  · intro h site hm
    have hst := (hrows site.1).mpr (mem_map_of_mem hm)
    have hafter := stored_importSites_exportSites fileName s site.1
    rw [h] at hafter
    split at hafter
    next hi => exact ⟨hi, hafter⟩
    next => simp [hafter] at hst
  · intro h
    funext host
    rw [stored_importSites_exportSites]
    by_cases hm : host ∈ s.sitesModel.sites.map Prod.fst
    · obtain ⟨site, hs, rfl⟩ := mem_map.mp hm
      rw [if_pos (h site hs).1, (h site hs).2]
    · have hnone : s.sitesModel.stored host = none := by simpa using mt (hrows host).mp hm
      have hlast : lastAddress s.sitesModel.sites host = none := by
        rw [lastAddress, filter_eq_nil_iff.mpr fun site hs => by
          simpa using fun heq : site.1 = host => hm (heq ▸ mem_map_of_mem hs)]
        rfl
      rw [hnone, hlast, ite_self]

/-- A site with two addresses: the second one is stored, and is in the last row. -/
theorem importSites_exportSites_twice :
    let s :=
      Lib.Runs.run step [.addSite "a.b", .lookedUp 0 [.ipv4 3221225985], .addSite "a.b", .lookedUp 0 [.ipv4 3221225986]]
      (start ⟨.VpnAllExceptSites, fun _ => ∅⟩ "10.8.0.1" "192.168.0.1")
    s.sitesModel.sites = [("a.b", "192.0.2.1"), ("a.b", "192.0.2.2")] ∧
      (s.importSites "sites.json" (some s.exportSites) true).sitesModel.stored = s.sitesModel.stored :=
  ⟨by decide, (importSites_exportSites_iff "sites.json" _ _ _ (by simp)).mpr (by decide)⟩

/-- A name that has its dot behind a slash is lost. -/
theorem importSites_loses_host :
    let s := (start ⟨.VpnAllExceptSites, fun _ => ∅⟩ "10.8.0.1" "192.168.0.1").addSite "host/a.b"
    s.sitesModel.stored "host" = some "" ∧
      (s.importSites "sites.json" (some s.exportSites) true).sitesModel.stored "host" = none := by
  decide

end Cimogus.Client.SitesController
