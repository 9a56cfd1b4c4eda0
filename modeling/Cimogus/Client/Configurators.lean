import Cimogus.Client.ScriptVars

/-!
# Creating a configuration for a client

The configurators read several files of a container one after the other. Each read sets the error anew, so an error
counts only where it is checked before the next one.
-/

namespace Cimogus.Client.Configurators

open ServerController

/-- The text and the error that `getTextFileFromContainer` gives for a path. -/
abbrev Reader := String → String × Option ErrorCode

variable (read : Reader)

def publicKeyPath : String := "/opt/amnezia/xray/xray_public.key"

def uuidPath : String := "/opt/amnezia/xray/xray_uuid.key"

def shortidPath : String := "/opt/amnezia/xray/xray_short_id.key"

/-- `XrayConfigurator::createConfig`. -/
def createConfig (xrayTemplate : String) (vars : Vars) : String × Option ErrorCode :=
  let config := replaceVars xrayTemplate vars
  let (xrayPublicKey, _) := read publicKeyPath
  let (xrayUuid, _) := read uuidPath
  let (xrayShortId, errorCode) := read shortidPath
  if errorCode ≠ none then ("", errorCode)
  else (replaceVars config [("$XRAY_CLIENT_ID", replace "\n" "" xrayUuid),
    ("$XRAY_PUBLIC_KEY", replace "\n" "" xrayPublicKey),
    ("$XRAY_SHORT_ID", replace "\n" "" xrayShortId)], errorCode)

structure ConnectionData where
  clientId : String
  request : String
  privKey : String
  clientCert : String
  caCert : String
  taKey : String
  deriving DecidableEq

def caCertPath : String := "/opt/amnezia/openvpn/pki/ca.crt"

def clientCertPath (clientId : String) : String := "/opt/amnezia/openvpn/pki/issued/" ++ clientId ++ ".crt"

def taKeyPath : String := "/opt/amnezia/openvpn/ta.key"

/-- With what `createCertRequest` gives, and the errors of the upload of the request and of `signCert`. -/
def prepareOpenVpnConfig (connData : ConnectionData) (uploaded signed : Option ErrorCode) :
    ConnectionData × Option ErrorCode :=
  if connData.privKey = "" ∨ connData.request = "" then (connData, some (.other 800))
  else if uploaded ≠ none then (connData, uploaded)
  else if signed ≠ none then (connData, signed)
  else
    let (caCert, _) := read caCertPath
    let (clientCert, errorCode) := read (clientCertPath connData.clientId)
    let connData := { connData with caCert, clientCert }
    if errorCode ≠ none then (connData, errorCode)
    else
      let (taKey, errorCode) := read taKeyPath
      ({ connData with taKey }, if caCert = "" ∨ clientCert = "" ∨ taKey = "" then some (.other 400) else errorCode)

theorem createConfig_noError_iff (xrayTemplate : String) (vars : Vars) :
    (createConfig read xrayTemplate vars).2 = none ↔ (read shortidPath).2 = none := by
  unfold createConfig
  by_cases h : (read shortidPath).2 = none <;> simp [h]

/-- Every check but the one of the CA certificate passes. -/
def OthersPass (connData : ConnectionData) (uploaded signed : Option ErrorCode) : Prop :=
  (connData.privKey ≠ "" ∧ connData.request ≠ "") ∧ uploaded = none ∧ signed = none ∧
    ∀ path ∈ [clientCertPath connData.clientId, taKeyPath], (read path).2 = none ∧ (read path).1 ≠ ""

theorem prepareOpenVpnConfig_noError_iff (connData : ConnectionData) (uploaded signed : Option ErrorCode) :
    (prepareOpenVpnConfig read connData uploaded signed).2 = none ↔
      OthersPass read connData uploaded signed ∧ (read caCertPath).1 ≠ "" := by
  unfold prepareOpenVpnConfig OthersPass
  split
  next h => exact iff_of_false (by simp) fun ho => h.elim ho.1.1.1 ho.1.1.2
  next hk =>
    split
    next hu => simp [hu]
    next hu =>
      split
      next hs => simp [hs]
      next hs =>
        by_cases hc : (read (clientCertPath connData.clientId)).2 = none
        · have hk := not_or.mp hk
          simp only [hc, ne_eq, not_true_eq_false, if_false]
          split
          next he =>
            refine iff_of_false (by simp) fun ho => ?_
            simp only [List.forall_mem_cons] at ho
            exact he.elim ho.2 fun he => he.elim ho.1.2.2.2.1.2 ho.1.2.2.2.2.1.2
          next he =>
            simp only [not_or] at he
            simp [hk, he, not_not.mp hu, not_not.mp hs, hc]
        · simp [hc]

/-- **No error is lost** iff a failed read of Xray is followed by a failed read of the short id, and a failed read of
the CA certificate gives nothing where every other check passes: then all files of a configuration without an error were
read without one. -/
theorem noError_reads (read : Reader) (xrayTemplate : String) (vars : Vars) (connData : ConnectionData)
    (uploaded signed : Option ErrorCode) :
    ((createConfig read xrayTemplate vars).2 = none →
        ∀ path ∈ [publicKeyPath, uuidPath, shortidPath], (read path).2 = none) ∧
      ((prepareOpenVpnConfig read connData uploaded signed).2 = none →
        ∀ path ∈ [caCertPath, clientCertPath connData.clientId, taKeyPath], (read path).2 = none) ↔
    ((read shortidPath).2 = none → (read publicKeyPath).2 = none ∧ (read uuidPath).2 = none) ∧
      (OthersPass read connData uploaded signed → (read caCertPath).2 ≠ none → (read caCertPath).1 = "") := by
  rw [createConfig_noError_iff, prepareOpenVpnConfig_noError_iff]
  refine and_congr ?_ ⟨fun h ho hf => ?_, fun h ⟨ho, hne⟩ => ?_⟩
  · refine forall_congr' fun hs => ?_
    simp [hs]
  · exact by_contra fun hne => hf (h ⟨ho, hne⟩ _ List.mem_cons_self)
  · have ha : (read caCertPath).2 = none := by_contra fun hf => hne (h ho hf)
    exact List.forall_mem_cons.mpr ⟨ha, fun path hp => (ho.2.2.2 path hp).1⟩

def exampleData : ConnectionData := ⟨"id", "request", "key", "", "", ""⟩

/-- A part of the public key and of the CA certificate, from reads that fail, is used without an error. -/
theorem failed_reads_used :
    let read : Reader :=
      fun path => ("part", if path = publicKeyPath ∨ path = caCertPath then some (.other 302) else none)
    createConfig read "$XRAY_PUBLIC_KEY" [] = ("part", none) ∧
      prepareOpenVpnConfig read exampleData none none =
      (⟨"id", "request", "key", "part", "part", "part"⟩, none) := by
  decide

end Cimogus.Client.Configurators
