import Cimogus.Client.Servers
import Cimogus.Lib.Runs

/-!
# The default container of a server

`ServersModel` chooses a default container when one is added or removed: an added one is taken if it can be used, while
after a removal it is the first entry of the list, whatever that is. `run_defaultUsable_iff` says for which calls the
default container can be used.
-/

namespace Cimogus.Client

open Lib.Runs List

namespace ServerConfig

variable (os : OperatingSystem)

def addContainerConfig (container : DockerContainer) (config : ContainerConfig) (server : ServerConfig) :
    ServerConfig :=
  let server := { server with containers := some (server.containersArray ++ [config]) }
  if server.defaultContainer = .None ∧ container.containerService ≠ .Other ∧
    container.isSupportedByCurrentPlatform os then
    { server with defaultContainer := container }
  else server

def setDefaultContainer (container : DockerContainer) (server : ServerConfig) : ServerConfig :=
  { server with defaultContainer := container }

/-- `removed` says whether the containers could be removed from the server. -/
def removeAllContainers (removed : Bool) (server : ServerConfig) : ServerConfig :=
  if removed then { server with containers := some [], defaultContainer := .None } else server

/-- The entries without the first one for the container. -/
def withoutContainer (container : DockerContainer) (server : ServerConfig) : List ContainerConfig :=
  server.containersArray.eraseP fun entry => entry.container = container

def removeContainer (container : DockerContainer) (removed : Bool) (server : ServerConfig) : ServerConfig :=
  if removed then
    let containers := server.withoutContainer container
    let server := { server with containers := some containers }
    if server.defaultContainer = container then
      { server with defaultContainer := (containers.head?.map ContainerConfig.container).getD .None }
    else server
  else server

inductive ContainerOp
  | addContainerConfig (container : DockerContainer) (lastConfigs : List (Proto × String))
  | setDefaultContainer (container : DockerContainer)
  | removeAllContainers (removed : Bool)
  | removeContainer (container : DockerContainer) (removed : Bool)

/-- A container is added with a configuration that names it. -/
def step : ContainerOp → ServerConfig → ServerConfig
  | .addContainerConfig container lastConfigs, server =>
    server.addContainerConfig os container ⟨container, lastConfigs⟩
  | .setDefaultContainer container, server => server.setDefaultContainer container
  | .removeAllContainers removed, server => server.removeAllContainers removed
  | .removeContainer container removed, server => server.removeContainer container removed

def withoutContainers (server : ServerConfig) : ServerConfig :=
  { server with containers := none, defaultContainer := .None }

end ServerConfig

/-- A container that can be the default one on this platform. -/
def DockerContainer.Usable (os : OperatingSystem) (container : DockerContainer) : Prop :=
  container ≠ .None ∧ container.containerService ≠ .Other ∧ container.isSupportedByCurrentPlatform os = true

instance (os : OperatingSystem) : DecidablePred (DockerContainer.Usable os) :=
  fun _ => inferInstanceAs (Decidable (_ ∧ _ ∧ _))

namespace ServerConfig

open DockerContainer (Usable)

def installed (server : ServerConfig) : List DockerContainer := server.containersArray.map ContainerConfig.container

/-- A choice among containers: one that can be used, or none where there is none. -/
def Choice (os : OperatingSystem) (containers : List DockerContainer) (choice : DockerContainer) : Prop :=
  (choice ∈ containers ∧ choice.Usable os) ∨
    (choice = .None ∧ ∀ container ∈ containers, ¬container.Usable os)

def DefaultUsable (os : OperatingSystem) (server : ServerConfig) : Prop :=
  Choice os server.installed server.defaultContainer

/-- The container that is made the default one by hand can be used; when the default container is removed, so can the
first one of the rest. -/
def KeepsUsable (os : OperatingSystem) : ContainerOp → ServerConfig → Prop
  | .setDefaultContainer container, server => Choice os server.installed container
  | .removeContainer container true, server => server.defaultContainer = container →
    ∀ first rest, server.withoutContainer container = first :: rest →
      Choice os ((first :: rest).map (·.container)) first.container
  | _, _ => True

variable {os : OperatingSystem} {server : ServerConfig} {container : DockerContainer}

theorem addContainerConfig_defaultUsable (container : DockerContainer) (lastConfigs : List (Proto × String))
    (h : server.DefaultUsable os) :
    (server.addContainerConfig os container ⟨container, lastConfigs⟩).DefaultUsable os := by
  have hi : (server.addContainerConfig os container ⟨container, lastConfigs⟩).installed = server.installed ++
      [container] := by
    rw [addContainerConfig]
    split <;> simp [containersArray, installed]
  rw [DefaultUsable, hi, addContainerConfig]
  rcases h with ⟨hm, hu⟩ | ⟨hno, ho⟩
  · -- there is a default container, and it stays
    rw [if_neg fun ht => hu.1 ht.1]
    exact .inl ⟨mem_append_left _ hm, hu⟩
  by_cases hu : container.Usable os
  · rw [if_pos ⟨hno, hu.2⟩]
    exact .inl ⟨by simp, hu⟩
  · have hnot (x : DockerContainer) (hx : x ∈ server.installed ++ [container]) : ¬x.Usable os := by
      rcases mem_append.mp hx with hx | hx
      · exact ho x hx
      · rwa [mem_singleton.mp hx]
    split
    · rename_i ht
      exact .inr ⟨Decidable.byContradiction fun hne => hu ⟨hne, ht.2⟩, hnot⟩
    · exact .inr ⟨hno, hnot⟩

theorem removeAllContainers_defaultUsable (removed : Bool) (h : server.DefaultUsable os) :
    (server.removeAllContainers removed).DefaultUsable os := by
  rw [removeAllContainers]
  split
  · exact .inr ⟨rfl, by simp [installed, containersArray]⟩
  · exact h

theorem choice_withoutContainer (hne : server.defaultContainer ≠ container) (h : server.DefaultUsable os) :
    Choice os ((server.withoutContainer container).map ContainerConfig.container) server.defaultContainer := by
  rcases h with ⟨hm, hu⟩ | ⟨hno, ho⟩
  · obtain ⟨entry, he, hna⟩ := mem_map.mp hm
    refine .inl ⟨mem_map.mpr ⟨entry, ?_, hna⟩, hu⟩
    exact (mem_eraseP_of_neg (by simpa [hna] using hne)).mpr he
  · refine .inr ⟨hno, fun x hx => ho x ?_⟩
    obtain ⟨entry, he, rfl⟩ := mem_map.mp hx
    exact mem_map_of_mem (mem_of_mem_eraseP he)

theorem removeContainer_defaultUsable_iff (container : DockerContainer) (removed : Bool) (h : server.DefaultUsable os) :
    (server.removeContainer container removed).DefaultUsable os ↔
    KeepsUsable os (.removeContainer container removed) server := by
  cases removed with
  | false => exact iff_of_true h trivial
  | true =>
    rw [removeContainer, KeepsUsable]
    by_cases hd : server.defaultContainer = container
    · simp only [if_pos hd, imp_iff_right hd]
      cases hrest : server.withoutContainer container with
      | nil =>
        refine iff_of_true (.inr ⟨rfl, by simp [installed, containersArray]⟩) ?_
        rintro first rest ⟨⟩
      | cons first rest =>
        constructor
        · rintro hc first rest ⟨⟩
          exact hc
        · exact fun hk => hk first rest rfl
    · simp only [if_neg hd]
      exact iff_of_true (choice_withoutContainer hd h) fun heq => absurd heq hd

theorem step_defaultUsable_iff (op : ContainerOp) (h : server.DefaultUsable os) :
    (step os op server).DefaultUsable os ↔ KeepsUsable os op server := by
  cases op with
  | addContainerConfig container lastConfigs =>
    exact iff_of_true (addContainerConfig_defaultUsable container lastConfigs h) trivial
  | setDefaultContainer container => rfl
  | removeAllContainers removed => exact iff_of_true (removeAllContainers_defaultUsable removed h) trivial
  | removeContainer container removed => exact removeContainer_defaultUsable_iff container removed h

theorem withoutContainers_defaultUsable (os : OperatingSystem) (server : ServerConfig) :
    server.withoutContainers.DefaultUsable os := .inr ⟨rfl, by simp [installed, containersArray, withoutContainers]⟩

/-- From a server without containers on, the default container can be used just for the calls that meet `KeepsUsable`.
-/
theorem run_defaultUsable_iff (os : OperatingSystem) (server : ServerConfig) (ops : List ContainerOp) :
    (∀ n, (run (step os) (ops.take n) server.withoutContainers).DefaultUsable os) ↔
      Guarded (step os) (KeepsUsable os) ops server.withoutContainers :=
  forall_take_iff_guarded (fun _ _ _ (_ : True) => trivial) (fun op _ _ _ h => step_defaultUsable_iff op h) trivial
    (withoutContainers_defaultUsable os server)

/-- When the default container is removed, a service container or one that the platform does not support becomes the
default, although WireGuard is installed. -/
theorem removed_default_unusable :
    let remove (first : DockerContainer) := run (step .linux)
      [.addContainerConfig first [], .addContainerConfig .OpenVpn [], .addContainerConfig .WireGuard [],
        .removeContainer .OpenVpn true]
      ServerConfig.empty
    ((remove .Dns).installed = [.Dns, .WireGuard] ∧ (remove .Dns).defaultContainer = .Dns ∧
        DockerContainer.Dns.containerService = .Other) ∧
      (remove .Ipsec).installed = [.Ipsec, .WireGuard] ∧ (remove .Ipsec).defaultContainer = .Ipsec ∧
        DockerContainer.Ipsec.isSupportedByCurrentPlatform .linux = false ∧
        DockerContainer.WireGuard.Usable .linux := by
  decide

end ServerConfig

end Cimogus.Client
