import Cimogus.Client.Sites
import Cimogus.Client.VpnProtocol
import Cimogus.Lib.Text
import Cimogus.Service.NetworkUtilities
import Mathlib.Data.Finset.Basic

/-!
# `SitesController` and the routes of the sites

A site is added at once, its host name is looked up meanwhile, and the calls of `VpnConnection` wait in a queue. Routes
are added by address and deleted by the entry of the list. `run_inForce_iff` says for which removals the routes stay
those of the list: pending lookups do not matter, since they add the site and its route together.
-/

namespace Cimogus.Client

open Daemon (QHostAddress)
open Lib (Table)
open Lib.Runs List
open Service (ipAddressWithSubnetRegExp maskText)

/-! ## `VpnConnection` -/

/-- What `addRoutes` and `deleteRoutes` read, and the routes of the service with their gateways. -/
structure SiteConnection where
  connectionState : ConnectionState
  /-- `IpcClient::Interface()` is not null. -/
  interface : Bool
  vpnGateway : String
  routeGateway : String
  routes : Finset (String × String)

namespace SiteConnection

def routeAddList (gw : String) (ips : List String) (c : SiteConnection) : SiteConnection :=
  { c with routes := c.routes ∪ (ips.map fun ip => (gw, ip)).toFinset }

def routeDeleteList (gw : String) (ips : List String) (c : SiteConnection) : SiteConnection :=
  { c with routes := c.routes \ (ips.map fun ip => (gw, ip)).toFinset }

variable (mode : RouteMode)

def addRoutes (ips : List String) (c : SiteConnection) : SiteConnection :=
  if c.connectionState = .Connected ∧ c.interface then
    match mode with
    | .VpnOnlyForwardSites => c.routeAddList c.vpnGateway ips
    | .VpnAllExceptSites => c.routeAddList c.routeGateway ips
    | .VpnAllSites => c
  else c

def deleteRoutes (ips : List String) (c : SiteConnection) : SiteConnection :=
  if c.connectionState = .Connected ∧ c.interface then
    match mode with
    | .VpnOnlyForwardSites => c.routeDeleteList c.vpnGateway ips
    | .VpnAllExceptSites => c.routeDeleteList c.routeGateway ips
    | .VpnAllSites => c
  else c

/-- The gateway of the site routes, if there are any. -/
def siteGateway (c : SiteConnection) : Option String :=
  if c.connectionState = .Connected ∧ c.interface then
    match mode with
    | .VpnOnlyForwardSites => some c.vpnGateway
    | .VpnAllExceptSites => some c.routeGateway
    | .VpnAllSites => none
  else none

theorem addRoutes_eq_elim (ips : List String) (c : SiteConnection) :
    c.addRoutes mode ips = (c.siteGateway mode).elim c fun gw => c.routeAddList gw ips := by
  unfold addRoutes siteGateway
  split
  · cases mode <;> rfl
  · rfl

theorem deleteRoutes_eq_elim (ips : List String) (c : SiteConnection) :
    c.deleteRoutes mode ips = (c.siteGateway mode).elim c fun gw => c.routeDeleteList gw ips := by
  unfold deleteRoutes siteGateway
  split
  · cases mode <;> rfl
  · rfl

theorem siteGateway_addRoutes (mode' : RouteMode) (ips : List String) (c : SiteConnection) :
    (c.addRoutes mode ips).siteGateway mode' = c.siteGateway mode' := by
  rw [addRoutes_eq_elim]
  cases c.siteGateway mode <;> rfl

theorem siteGateway_deleteRoutes (mode' : RouteMode) (ips : List String) (c : SiteConnection) :
    (c.deleteRoutes mode ips).siteGateway mode' = c.siteGateway mode' := by
  rw [deleteRoutes_eq_elim]
  cases c.siteGateway mode <;> rfl

end SiteConnection

/-- The calls that are queued for `VpnConnection`. -/
inductive SiteCall
  | addRoutes (ips : List String)
  | deleteRoutes (ips : List String)
  | flushDns

def SiteCall.carryOut (mode : RouteMode) : SiteCall → SiteConnection → SiteConnection
  | .addRoutes ips, c => c.addRoutes mode ips
  | .deleteRoutes ips, c => c.deleteRoutes mode ips
  | .flushDns, c => c

/-! ## `SitesController` -/

inductive SitesSignal
  | errorOccurred (errorMessage : String)
  | finished (message : String)

structure SitesController where
  sitesModel : SitesModel
  vpnConnection : SiteConnection
  /-- The calls that `VpnConnection` has still to carry out, in their order. -/
  queued : List SiteCall
  /-- The host names that are being looked up. -/
  lookups : List String
  emitted : List SitesSignal

def firstIpv4 : List QHostAddress → Option String
  | [] => none
  | .ipv4 address :: _ => some (maskText address)
  | _ :: addresses => firstIpv4 addresses

/-- What is left of a link without the schemes, cut at the slashes. -/
def siteParts (hostname : String) : List String :=
  let hostname := Lib.Text.remove "https://" hostname
  let hostname := Lib.Text.remove "http://" hostname
  let hostname := Lib.Text.remove "ftp://" hostname
  (Lib.Text.split hostname '/').filter (· ≠ "")

/-- The host name that `addSite` makes of its argument; a name with a dot has a first part. -/
def siteName (hostname : String) : String :=
  if ipAddressWithSubnetRegExp hostname then hostname else (siteParts hostname).headD ""

namespace SitesController

/-- `QMetaObject::invokeMethod` with a queued connection. -/
def invoke (call : SiteCall) (s : SitesController) : SitesController := { s with queued := s.queued ++ [call] }

def emit (signal : SitesSignal) (s : SitesController) : SitesController := { s with emitted := s.emitted ++ [signal] }

def processSite (hostname ip : String) (s : SitesController) : SitesController :=
  let s := { s with sitesModel := (s.sitesModel.addSite hostname ip).2 }
  let s :=
    if ip ≠ "" then s.invoke (.addRoutes [ip])
    else if ipAddressWithSubnetRegExp hostname then s.invoke (.addRoutes [hostname])
    else s
  s.invoke .flushDns

def resolveCallback (hostname : String) (addresses : List QHostAddress) (s : SitesController) : SitesController :=
  match firstIpv4 addresses with
  | some ip => s.processSite hostname ip
  | none => s

def addSite (hostname : String) (s : SitesController) : SitesController :=
  if hostname = "" then s
  else if Lib.Text.contains hostname "." = false then
    s.emit (.errorOccurred "Hostname not look like ip adress or domain name")
  else
    let hostname := siteName hostname
    let s := s.processSite hostname ""
    let s := if ipAddressWithSubnetRegExp hostname then s else { s with lookups := s.lookups ++ [hostname] }
    s.emit (.finished ("New site added: " ++ hostname))

/-- The page names only rows that there are; for others the source is undefined. -/
def removeSite (index : Nat) (s : SitesController) : SitesController :=
  match s.sitesModel.sites[index]? with
  | none => s
  | some (hostname, _) =>
    let s := { s with sitesModel := s.sitesModel.removeSite index }
    ((s.invoke (.deleteRoutes [hostname])).invoke .flushDns).emit (.finished ("Site removed: " ++ hostname))

/-- `VpnConnection` carries out the next call. It reads the route mode from the settings that it shares with the model.
-/
def deliver (s : SitesController) : SitesController :=
  match s.queued with
  | [] => s
  | call :: queued =>
    { s with vpnConnection := call.carryOut s.sitesModel.settings.routeMode s.vpnConnection, queued := queued }

inductive Event
  | addSite (hostname : String)
  | removeSite (index : Nat)
  /-- One of the lookups comes back with these addresses. -/
  | lookedUp (lookup : Nat) (addresses : List QHostAddress)
  | deliver

def step : Event → SitesController → SitesController
  | .addSite hostname, s => s.addSite hostname
  | .removeSite index, s => s.removeSite index
  | .lookedUp lookup addresses, s =>
    match s.lookups[lookup]? with
    | none => s
    | some hostname => resolveCallback hostname addresses { s with lookups := s.lookups.eraseIdx lookup }
  | .deliver, s => s.deliver

end SitesController

/-! ## The addresses of the sites -/

/-- An address or prefix is its own address; a domain has the one that was found for it. -/
def siteAddress (site : String × String) : Option String :=
  if ipAddressWithSubnetRegExp site.1 then some site.1 else if site.2 = "" then none else some site.2

variable {site : String × String}

namespace SitesModel

def addresses (s : SitesModel) : List String := s.sites.filterMap siteAddress

/-- Among the addresses and prefixes, the rows are the stored ones. -/
def EntriesListed (s : SitesModel) : Prop :=
  (Table.restrict ipAddressWithSubnetRegExp s.stored).ListedBy
    (s.sites.filter fun site => ipAddressWithSubnetRegExp site.1)

variable {s : SitesModel} {hostname ip a : String}

theorem mem_addresses_of_sites (h : site ∈ s.sites) (ha : siteAddress site = some a) : a ∈ s.addresses :=
  mem_filterMap.mpr ⟨site, h, ha⟩

theorem mem_addresses_split {before after : List (String × String)} (h : s.sites = before ++ site :: after) :
    a ∈ s.addresses ↔ siteAddress site = some a ∨ a ∈ (before ++ after).filterMap siteAddress := by
  rw [addresses, h, mem_filterMap, mem_filterMap]
  simp only [mem_append, mem_cons]
  constructor
  · rintro ⟨x, hx | rfl | hx, ha⟩
    · exact .inr ⟨x, .inl hx, ha⟩
    · exact .inl ha
    · exact .inr ⟨x, .inr hx, ha⟩
  · rintro (ha | ⟨x, hx | hx, ha⟩)
    · exact ⟨site, .inr (.inl rfl), ha⟩
    · exact ⟨x, .inl hx, ha⟩
    · exact ⟨x, .inr (.inr hx), ha⟩

theorem mem_addresses_addSite (hen : s.EntriesListed) (h : ipAddressWithSubnetRegExp hostname = true → ip = "") :
    a ∈ (addSite hostname ip s).2.addresses ↔ a ∈ s.addresses ∨ siteAddress (hostname, ip) = some a := by
  rcases addSite_cases s hostname ip with ⟨hk, rfl, heq⟩ | ⟨-, -, hr⟩
  · rw [heq]
    refine (or_iff_left_of_imp fun ha => ?_).symm
    cases he : ipAddressWithSubnetRegExp hostname with
    | false => simp [siteAddress, he] at ha
    | true =>
      obtain ⟨old, hold⟩ := Option.isSome_iff_exists.mp hk
      have hm := (hen.mem_iff hostname old).mpr (by rw [Table.restrict, if_pos he, hold])
      refine mem_addresses_of_sites (mem_of_mem_filter hm) ?_
      rw [← ha, siteAddress, siteAddress, if_pos he, if_pos he]
  · rcases hr with ⟨before, after, hsplit, hip, hr⟩ | ⟨hm, hr⟩ | ⟨-, hr⟩
    · have hd : ipAddressWithSubnetRegExp hostname = false := Bool.eq_false_iff.mpr fun he => hip (h he)
      have hno : siteAddress (hostname, "") = none := by simp [siteAddress, hd]
      rw [mem_addresses_split hr, mem_addresses_split hsplit, hno]
      simp [or_comm]
    · rw [addresses, hr]
      exact (or_iff_left_of_imp (mem_addresses_of_sites hm)).symm
    · rw [mem_addresses_split hr, append_nil, or_comm]
      rfl

theorem addSite_entriesListed (he : s.EntriesListed) (h : ipAddressWithSubnetRegExp hostname = true → ip = "") :
    (addSite hostname ip s).2.EntriesListed := by
  rcases addSite_cases s hostname ip with ⟨-, -, heq⟩ | ⟨hnew, hs, hr⟩
  · rwa [heq]
  rw [EntriesListed, hs]
  cases hen : ipAddressWithSubnetRegExp hostname with
  | false =>
    -- the rows and entries of domains are not looked at
    rw [Table.restrict_update_of_neg hen]
    rcases hr with ⟨before, after, hsplit, -, hr⟩ | ⟨-, hr⟩ | ⟨-, hr⟩
    · rw [EntriesListed, hsplit] at he
      simpa [hr, hen] using he
    · rwa [hr]
    · rw [EntriesListed] at he
      simpa [hr, hen] using he
  | true =>
    obtain rfl := h hen
    rw [Table.restrict_update_of_pos hen]
    rcases hr with ⟨-, -, -, hip, -⟩ | ⟨hm, hr⟩ | ⟨-, hr⟩
    · exact absurd rfl hip
    · have hold := (he.mem_iff hostname "").mp (mem_filter.mpr ⟨hm, hen⟩)
      rwa [hr, ← hold, Function.update_eq_self]
    · have hno : s.stored hostname = none := by
        by_contra hso
        exact hnew (Option.isSome_iff_ne_none.mpr hso) rfl
      have ha := he.append (k := hostname) (v := "") (by rw [Table.restrict, if_pos hen, hno])
      simpa [hr, hen] using ha

theorem removeSite_entriesListed (row : Nat) (he : s.EntriesListed) : (removeSite row s).EntriesListed := by
  cases hro : s.sites[row]? with
  | none => rwa [removeSite, hro]
  | some site =>
    obtain ⟨hs, hr⟩ := removeSite_eq hro
    obtain ⟨before, after, hsplit, her⟩ := Lib.split_of_getElem? hro
    rw [EntriesListed, hs, hr, her, filter_append]
    rw [EntriesListed, hsplit, filter_append] at he
    cases hen : ipAddressWithSubnetRegExp site.1 with
    | false =>
      rw [Table.restrict_update_of_neg hen]
      rwa [filter_cons_of_neg (by simp [hen])] at he
    | true =>
      rw [Table.restrict_update_of_pos hen]
      rw [filter_cons_of_pos (by simpa using hen)] at he
      exact Table.ListedBy.erase (v := site.2) he

@[simp] theorem routeMode_addSite (hostname ip : String) (s : SitesModel) :
    (addSite hostname ip s).2.settings.routeMode = s.settings.routeMode := by
  have hs : (s.settings.addVpnSite s.currentRouteMode hostname ip).2.routeMode = s.settings.routeMode := by
    rw [SiteSettings.addVpnSite]
    split <;> rfl
  rw [addSite]
  split
  · split <;> exact hs
  · rfl

@[simp] theorem routeMode_removeSite (row : Nat) (s : SitesModel) :
    (removeSite row s).settings.routeMode = s.settings.routeMode := by
  rw [removeSite]
  split
  · rfl
  · rw [SiteSettings.removeVpnSite]
    split <;> rfl

end SitesModel

/-! ## The routes -/

theorem SiteCall.siteGateway_carryOut (mode mode' : RouteMode) (call : SiteCall) (c : SiteConnection) :
    (call.carryOut mode c).siteGateway mode' = c.siteGateway mode' := by
  cases call with
  | addRoutes ips => exact c.siteGateway_addRoutes mode mode' ips
  | deleteRoutes ips => exact c.siteGateway_deleteRoutes mode mode' ips
  | flushDns => rfl

namespace SitesController

/-- The connection once the queued calls are carried out. -/
def delivered (s : SitesController) : SiteConnection :=
  s.queued.foldl (fun c call => call.carryOut s.sitesModel.settings.routeMode c) s.vpnConnection

def siteGateway (s : SitesController) : Option String := s.vpnConnection.siteGateway s.sitesModel.settings.routeMode

/-- Once the queued calls are carried out, the routes of the service are those to the addresses of the sites in the
list. -/
def InForce (s : SitesController) : Prop :=
  ∀ gw ip, (gw, ip) ∈ s.delivered.routes ↔ s.siteGateway = some gw ∧ ip ∈ s.sitesModel.addresses

/-- Connected in a mode for sites, with the routes of the stored sites. -/
def start (settings : SiteSettings) (vpnGateway routeGateway : String) : SitesController :=
  let sitesModel := SitesModel.init settings
  let c : SiteConnection := ⟨.Connected, true, vpnGateway, routeGateway, ∅⟩
  ⟨sitesModel, c.addRoutes sitesModel.settings.routeMode sitesModel.addresses, [], [], []⟩

/-- A site may be removed if its address is its own name or also that of a site that stays, and its name is not the
address of a site that stays. -/
def MayRemove : Event → SitesController → Prop
  | .removeSite index, s => ∀ site ∈ s.sitesModel.sites[index]?,
    (∀ a ∈ siteAddress site, a = site.1 ∨ a ∈ (s.sitesModel.sites.eraseIdx index).filterMap siteAddress) ∧
      site.1 ∉ (s.sitesModel.sites.eraseIdx index).filterMap siteAddress
  | _, _ => True

instance : ∀ e s, Decidable (MayRemove e s)
  | .addSite _, _ => inferInstanceAs (Decidable True)
  | .removeSite _, _ => by unfold MayRemove; infer_instance
  | .lookedUp _ _, _ => inferInstanceAs (Decidable True)
  | .deliver, _ => inferInstanceAs (Decidable True)

/-- What holds all along: the sites have a gateway, the entries that are addresses are stored as they are listed, and
only domains are looked up. -/
structure Ready (s : SitesController) : Prop where
  gateway : ∃ gw, s.siteGateway = some gw
  entries : s.sitesModel.EntriesListed
  domains : ∀ hostname ∈ s.lookups, ipAddressWithSubnetRegExp hostname = false

variable {s : SitesController} {gw g a hostname ip : String}

theorem delivered_of_queued_nil (h : s.queued = []) : s.delivered = s.vpnConnection := by
  rw [delivered, h]
  rfl

@[simp] theorem delivered_emit (signal : SitesSignal) (s : SitesController) :
    (s.emit signal).delivered = s.delivered := rfl

@[simp] theorem delivered_invoke (call : SiteCall) (s : SitesController) :
    (s.invoke call).delivered = call.carryOut s.sitesModel.settings.routeMode s.delivered := by
  rw [delivered, invoke, List.foldl_append]
  rfl

theorem delivered_model {m : SitesModel} (h : m.settings.routeMode = s.sitesModel.settings.routeMode) :
    { s with sitesModel := m }.delivered = s.delivered := by
  simp only [delivered, h]

theorem siteGateway_delivered (s : SitesController) :
    s.delivered.siteGateway s.sitesModel.settings.routeMode = s.siteGateway := by
  rw [delivered, siteGateway]
  generalize s.vpnConnection = c
  induction s.queued generalizing c with
  | nil => rfl
  | cons call queued ih => rw [foldl_cons, ih, SiteCall.siteGateway_carryOut]

theorem mem_routes_addRoutes {mode : RouteMode} {c : SiteConnection} (h : c.siteGateway mode = some gw) :
    (g, a) ∈ (c.addRoutes mode [ip]).routes ↔ (g, a) ∈ c.routes ∨ g = gw ∧ a = ip := by
  rw [SiteConnection.addRoutes_eq_elim, h, Option.elim_some, SiteConnection.routeAddList]
  simp only [map_singleton, Finset.mem_union, mem_toFinset, mem_singleton, Prod.mk.injEq]

theorem mem_routes_deleteRoutes {mode : RouteMode} {c : SiteConnection} (h : c.siteGateway mode = some gw) :
    (g, a) ∈ (c.deleteRoutes mode [ip]).routes ↔ (g, a) ∈ c.routes ∧ ¬(g = gw ∧ a = ip) := by
  rw [SiteConnection.deleteRoutes_eq_elim, h, Option.elim_some, SiteConnection.routeDeleteList]
  simp only [map_singleton, Finset.mem_sdiff, mem_toFinset, mem_singleton, Prod.mk.injEq]

@[simp] theorem sitesModel_processSite (hostname ip : String) (s : SitesController) :
    (s.processSite hostname ip).sitesModel = (s.sitesModel.addSite hostname ip).2 := by
  unfold processSite
  split_ifs <;> rfl

@[simp] theorem lookups_processSite (hostname ip : String) (s : SitesController) :
    (s.processSite hostname ip).lookups = s.lookups := by
  unfold processSite
  split_ifs <;> rfl

@[simp] theorem siteGateway_processSite (hostname ip : String) (s : SitesController) :
    (s.processSite hostname ip).siteGateway = s.siteGateway := by
  have hc : (s.processSite hostname ip).vpnConnection = s.vpnConnection := by
    unfold processSite
    split_ifs <;> rfl
  rw [siteGateway, siteGateway, hc, sitesModel_processSite, SitesModel.routeMode_addSite]

theorem mem_delivered_processSite (hgw : s.siteGateway = some gw)
    (h : ipAddressWithSubnetRegExp hostname = true → ip = "") :
    (g, a) ∈ (s.processSite hostname ip).delivered.routes ↔
      (g, a) ∈ s.delivered.routes ∨ g = gw ∧ siteAddress (hostname, ip) = some a := by
  have hm := @delivered_model s _ (SitesModel.routeMode_addSite hostname ip s.sitesModel)
  rw [← siteGateway_delivered] at hgw
  rw [processSite]
  by_cases hip : ip = ""
  · rw [if_neg (show ¬ip ≠ "" from not_not.mpr hip)]
    cases he : ipAddressWithSubnetRegExp hostname with
    | false =>
      rw [if_neg Bool.false_ne_true, delivered_invoke, SiteCall.carryOut, hm]
      simp [siteAddress, he, hip]
    | true =>
      rw [if_pos rfl, delivered_invoke, SiteCall.carryOut, delivered_invoke, SiteCall.carryOut, hm,
        SitesModel.routeMode_addSite, mem_routes_addRoutes hgw]
      simp [siteAddress, he, eq_comm]
  · have hd : ipAddressWithSubnetRegExp hostname = false := Bool.eq_false_iff.mpr fun he => hip (h he)
    rw [if_pos (show ip ≠ "" from hip), delivered_invoke, SiteCall.carryOut, delivered_invoke, SiteCall.carryOut, hm,
      SitesModel.routeMode_addSite, mem_routes_addRoutes hgw]
    simp [siteAddress, hd, hip, eq_comm]

theorem processSite_ready (h : s.Ready) (he : ipAddressWithSubnetRegExp hostname = true → ip = "") :
    (s.processSite hostname ip).Ready where
  gateway := by rw [siteGateway_processSite]; exact h.gateway
  entries := by rw [sitesModel_processSite]; exact SitesModel.addSite_entriesListed h.entries he
  domains := by rw [lookups_processSite]; exact h.domains

/-- A site and its route are added together. -/
theorem processSite_inForce (hr : s.Ready) (h : s.InForce)
    (he : ipAddressWithSubnetRegExp hostname = true → ip = "") :
    (s.processSite hostname ip).InForce := by
  intro g a
  obtain ⟨gw, hgw⟩ := hr.gateway
  rw [mem_delivered_processSite hgw he, h g a, siteGateway_processSite, sitesModel_processSite,
    SitesModel.mem_addresses_addSite hr.entries he, hgw, Option.some.injEq, eq_comm, ← and_or_left]

/-! ## Single events -/

theorem addSite_eq (hostname : String) (s : SitesController) :
    (∃ emitted, s.addSite hostname = { s with emitted := emitted }) ∨
      ∃ lookups emitted, s.addSite hostname =
          { s.processSite (siteName hostname) "" with lookups := s.lookups ++ lookups, emitted := emitted } ∧
        ∀ name ∈ lookups, ipAddressWithSubnetRegExp name = false := by
  have hl := lookups_processSite (siteName hostname) "" s
  simp only [addSite]
  split_ifs with hem hd he
  · exact .inl ⟨s.emitted, rfl⟩
  · exact .inl ⟨_, rfl⟩
  · exact .inr ⟨[], _, by rw [append_nil, ← hl]; rfl, by simp⟩
  · exact .inr ⟨[siteName hostname], _, by rw [← hl]; rfl, by simpa using he⟩

theorem addSite_ready (hostname : String) (h : s.Ready) : (s.addSite hostname).Ready := by
  rcases addSite_eq hostname s with ⟨emitted, heq⟩ | ⟨lookups, emitted, heq, hl⟩
  · rw [heq]
    exact ⟨h.gateway, h.entries, h.domains⟩
  · have hs : (s.processSite (siteName hostname) "").Ready := processSite_ready h fun _ => rfl
    generalize s.processSite (siteName hostname) "" = t at heq hs
    rw [heq]
    refine ⟨hs.gateway, hs.entries, fun name hna => ?_⟩
    rcases mem_append.mp hna with hna | hna
    · exact h.domains name hna
    · exact hl name hna

theorem addSite_inForce (hostname : String) (hr : s.Ready) (h : s.InForce) : (s.addSite hostname).InForce := by
  rcases addSite_eq hostname s with ⟨emitted, heq⟩ | ⟨lookups, emitted, heq, -⟩
  · rw [heq]
    exact h
  · have hs : (s.processSite (siteName hostname) "").InForce := processSite_inForce hr h fun _ => rfl
    generalize s.processSite (siteName hostname) "" = t at heq hs
    rw [heq]
    exact hs

theorem deliver_eq (s : SitesController) :
    s.deliver.delivered = s.delivered ∧ s.deliver.siteGateway = s.siteGateway ∧
      s.deliver.sitesModel = s.sitesModel ∧
      s.deliver.lookups = s.lookups := by
  rw [deliver]
  split
  · exact ⟨rfl, rfl, rfl, rfl⟩
  · rename_i call queued hq
    refine ⟨?_, SiteCall.siteGateway_carryOut _ _ call s.vpnConnection, rfl, rfl⟩
    rw [delivered, delivered, hq]
    rfl

theorem deliver_ready (h : s.Ready) : s.deliver.Ready := by
  obtain ⟨-, hg, hm, hl⟩ := deliver_eq s
  exact ⟨hg ▸ h.gateway, hm ▸ h.entries, hl ▸ h.domains⟩

theorem deliver_inForce (h : s.InForce) : s.deliver.InForce := by
  obtain ⟨hd, hg, hm, -⟩ := deliver_eq s
  rw [InForce, hd, hg, hm]
  exact h

theorem removeSite_eq {index : Nat} (h : s.sitesModel.sites[index]? = some site) :
    (s.removeSite index).sitesModel = s.sitesModel.removeSite index ∧
      (s.removeSite index).siteGateway = s.siteGateway ∧
      (s.removeSite index).lookups = s.lookups ∧
      (s.removeSite index).delivered = s.delivered.deleteRoutes s.sitesModel.settings.routeMode [site.1] := by
  have hm := @delivered_model s _ (SitesModel.routeMode_removeSite index s.sitesModel)
  rw [removeSite, h]
  refine ⟨rfl, ?_, rfl, ?_⟩
  · rw [siteGateway, siteGateway, ← SitesModel.routeMode_removeSite index s.sitesModel]
    rfl
  · rw [delivered_emit, delivered_invoke, SiteCall.carryOut, delivered_invoke, SiteCall.carryOut, hm,
      SitesModel.routeMode_removeSite]

theorem removeSite_of_none {index : Nat} (h : s.sitesModel.sites[index]? = none) : s.removeSite index = s := by
  rw [removeSite, h]

theorem removeSite_ready (index : Nat) (h : s.Ready) : (s.removeSite index).Ready := by
  cases hs : s.sitesModel.sites[index]? with
  | none => rwa [removeSite_of_none hs]
  | some site =>
    obtain ⟨hm, hg, hl, -⟩ := removeSite_eq hs
    exact ⟨hg ▸ h.gateway, hm ▸ SitesModel.removeSite_entriesListed index h.entries, hl ▸ h.domains⟩

theorem forall_deleted_iff {name : String} {own others : String → Prop} :
    (∀ g a, (g = gw ∧ (own a ∨ others a)) ∧ ¬(g = gw ∧ a = name) ↔ g = gw ∧ others a) ↔
      (∀ a, own a → a = name ∨ others a) ∧ ¬others name := by
  constructor
  · intro h
    refine ⟨fun a ha => ?_, fun hm => ?_⟩
    · by_cases hna : a = name
      · exact .inl hna
      · exact .inr ((h gw a).mp ⟨⟨rfl, .inl ha⟩, fun hg => hna hg.2⟩).2
    · exact ((h gw name).mpr ⟨rfl, hm⟩).2 ⟨rfl, rfl⟩
  · rintro ⟨how, ho⟩ g a
    constructor
    · rintro ⟨⟨rfl, ha | ha⟩, hk⟩
      · exact ⟨rfl, (how a ha).resolve_left fun hna => hk ⟨rfl, hna⟩⟩
      · exact ⟨rfl, ha⟩
    · rintro ⟨rfl, ha⟩
      exact ⟨⟨rfl, .inr ha⟩, fun hg => ho (hg.2 ▸ ha)⟩

theorem removeSite_inForce_iff (index : Nat) (hre : s.Ready) (h : s.InForce) :
    (s.removeSite index).InForce ↔ MayRemove (.removeSite index) s := by
  cases hs : s.sitesModel.sites[index]? with
  | none =>
    rw [removeSite_of_none hs]
    exact iff_of_true h fun site hso => by rw [hs] at hso; cases hso
  | some site =>
    obtain ⟨gw, hgw⟩ := hre.gateway
    obtain ⟨before, after, hsplit, he⟩ := Lib.split_of_getElem? hs
    obtain ⟨hm, hg, -, hd⟩ := removeSite_eq hs
    have ho : (s.sitesModel.removeSite index).addresses = (before ++ after).filterMap siteAddress := by
      rw [SitesModel.addresses, (SitesModel.removeSite_eq hs).2, he]
    have hr (g a : String) : (g, a) ∈ (s.removeSite index).delivered.routes ↔
        (g = gw ∧ (siteAddress site = some a ∨ a ∈ (before ++ after).filterMap siteAddress)) ∧
        ¬(g = gw ∧ a = site.1) := by
      rw [hd, mem_routes_deleteRoutes (by rw [siteGateway_delivered, hgw]), h g a,
        SitesModel.mem_addresses_split hsplit, hgw, Option.some.injEq, @eq_comm _ gw g]
    have hma : MayRemove (.removeSite index) s ↔
        (∀ a, siteAddress site = some a → a = site.1 ∨ a ∈ (before ++ after).filterMap siteAddress) ∧
          site.1 ∉ (before ++ after).filterMap siteAddress := by
      simp only [MayRemove, hs, Option.mem_def, Option.some.injEq, forall_eq', he]
    rw [hma, InForce]
    simp only [hr, hg, hgw, hm, ho, Option.some.injEq, @eq_comm _ gw]
    exact forall_deleted_iff

theorem resolveCallback_ready (addresses : List QHostAddress) (h : s.Ready)
    (hd : ipAddressWithSubnetRegExp hostname = false) :
    (s.resolveCallback hostname addresses).Ready := by
  rw [resolveCallback]
  split
  · exact processSite_ready h fun he => by rw [hd] at he; cases he
  · exact h

theorem resolveCallback_inForce (addresses : List QHostAddress) (hr : s.Ready) (h : s.InForce)
    (hd : ipAddressWithSubnetRegExp hostname = false) : (s.resolveCallback hostname addresses).InForce := by
  rw [resolveCallback]
  split
  · exact processSite_inForce hr h fun he => by rw [hd] at he; cases he
  · exact h

theorem lookups_eraseIdx_ready (lookup : Nat) (h : s.Ready) : { s with lookups := s.lookups.eraseIdx lookup }.Ready :=
  ⟨h.gateway, h.entries, fun hostname hm => h.domains hostname (mem_of_mem_eraseIdx hm)⟩

theorem step_ready (e : Event) (h : s.Ready) : (step e s).Ready := by
  cases e with
  | addSite hostname => exact addSite_ready hostname h
  | removeSite index => exact removeSite_ready index h
  | lookedUp lookup addresses =>
    rw [step]
    split
    · exact h
    · rename_i hostname hl
      exact resolveCallback_ready addresses (lookups_eraseIdx_ready lookup h) (h.domains hostname (mem_of_getElem? hl))
  | deliver => exact deliver_ready h

theorem step_inForce_iff (e : Event) (hr : s.Ready) (h : s.InForce) : (step e s).InForce ↔ MayRemove e s := by
  cases e with
  | addSite hostname => exact iff_of_true (addSite_inForce hostname hr h) trivial
  | removeSite index => exact removeSite_inForce_iff index hr h
  | lookedUp lookup addresses =>
    refine iff_of_true ?_ trivial
    rw [step]
    split
    · exact h
    · rename_i hostname hl
      exact resolveCallback_inForce addresses (lookups_eraseIdx_ready lookup hr) h
        (hr.domains hostname (mem_of_getElem? hl))
  | deliver => exact iff_of_true (deliver_inForce h) trivial

/-! ## Runs -/

section Start

variable (settings : SiteSettings) (vpnGateway routeGateway : String)

/-- There is a gateway for the sites from the start. -/
theorem start_gateway : ∃ gw, (start settings vpnGateway routeGateway).siteGateway = some gw := by
  have hm : (SitesModel.init settings).settings.routeMode ≠ .VpnAllSites := by
    rw [SitesModel.init]
    split
    · exact RouteMode.noConfusion
    · assumption
  simp only [start, siteGateway, SiteConnection.siteGateway_addRoutes]
  cases h : (SitesModel.init settings).settings.routeMode with
  | VpnAllSites => exact absurd h hm
  | VpnOnlyForwardSites => exact ⟨vpnGateway, rfl⟩
  | VpnAllExceptSites => exact ⟨routeGateway, rfl⟩

theorem start_ready : (start settings vpnGateway routeGateway).Ready where
  gateway := start_gateway settings vpnGateway routeGateway
  entries := (SitesModel.init_listed settings).filter ipAddressWithSubnetRegExp
  domains := by simp [start]

theorem start_inForce : (start settings vpnGateway routeGateway).InForce := by
  intro g a
  obtain ⟨gw, hgw⟩ := start_gateway settings vpnGateway routeGateway
  rw [hgw]
  rw [siteGateway, start, SiteConnection.siteGateway_addRoutes] at hgw
  rw [delivered_of_queued_nil rfl, start, SiteConnection.addRoutes_eq_elim, hgw, Option.elim_some,
    SiteConnection.routeAddList]
  simp [eq_comm, and_comm]

/-- The routes follow the list just as long as no site is removed whose address stays behind, or whose name is the
address of another site. Where they do, and no call is queued any more, they are the routes of the service. -/
theorem run_inForce_iff (events : List Event) :
    ((∀ n, (run step (events.take n) (start settings vpnGateway routeGateway)).InForce) ↔
        Guarded step MayRemove events (start settings vpnGateway routeGateway)) ∧
      ∀ s, s = run step events (start settings vpnGateway routeGateway) →
        Guarded step MayRemove events (start settings vpnGateway routeGateway) → s.queued = [] →
        ∀ gw ip, (gw, ip) ∈ s.vpnConnection.routes ↔
          s.siteGateway = some gw ∧ ip ∈ s.sitesModel.addresses := by
  have hif : (∀ n, (run step (events.take n) (start settings vpnGateway routeGateway)).InForce) ↔
      Guarded step MayRemove events (start settings vpnGateway routeGateway) :=
    forall_take_iff_guarded (fun e _ _ h => step_ready e h) (fun e _ _ hr h => step_inForce_iff e hr h)
      (start_ready settings vpnGateway routeGateway) (start_inForce settings vpnGateway routeGateway)
  refine ⟨hif, ?_⟩
  rintro s rfl hg hq
  have hi := hif.mpr hg events.length
  rw [take_length] at hi
  rw [← delivered_of_queued_nil hq]
  exact hi

end Start

/-- An address that is added and removed again, beside a domain with another one. -/
theorem run_inForce_iff_address :
    let s := start ⟨.VpnAllExceptSites, fun _ => ∅⟩ "10.8.0.1" "192.168.0.1"
    let events :=
      [.addSite "192.0.2.1", .addSite "https://site.com/page", .lookedUp 0 [.ipv4 0xC0000202#32], .removeSite 0] ++
      List.replicate 7 Event.deliver
    ("192.168.0.1", "192.0.2.2") ∈ (run step events s).vpnConnection.routes :=
  ((run_inForce_iff ⟨.VpnAllExceptSites, fun _ => ∅⟩ "10.8.0.1" "192.168.0.1" _).2 _ rfl (by decide) (by decide)
    "192.168.0.1" "192.0.2.2").mpr ⟨by decide, by decide⟩

/-- The route of a removed domain stays; the route of a domain goes with the entry for its address. -/
theorem removed_site_routes :
    let s := start ⟨.VpnOnlyForwardSites, fun _ => ∅⟩ "10.8.0.1" "192.168.0.1"
    let domain :=
      run step ([.addSite "site.com", .lookedUp 0 [.ipv4 0xC0000201#32], .removeSite 0] ++ List.replicate 5 .deliver) s
    let shared :=
      run step ([.addSite "192.0.2.1", .addSite "site.com", .lookedUp 0 [.ipv4 0xC0000201#32], .removeSite 0] ++
      List.replicate 7 .deliver) s
    (domain.queued = [] ∧ domain.lookups = [] ∧ domain.sitesModel.sites = [] ∧
        domain.vpnConnection.routes = {("10.8.0.1", "192.0.2.1")}) ∧
      shared.queued = [] ∧ shared.lookups = [] ∧ shared.sitesModel.sites = [("site.com", "192.0.2.1")] ∧
        shared.vpnConnection.routes = ∅ := by
  decide

end SitesController

end Cimogus.Client
