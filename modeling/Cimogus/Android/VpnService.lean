import Cimogus.Lib.Jobs
import Cimogus.Lib.Ledger

/-!
# `AmneziaVpnService`

The Android service with `Wireguard` as its protocol. `connectToVpn`, `disconnect` and `reconnect` run on the main
thread and launch coroutines, which stop where they wait for another job, for the state flow or for the handshake, and
go on from the state that they find then. A cancelled coroutine ends at its next suspension point.

The two job variables are read and cleared by the coroutines after their waits, whatever they hold by then. The tunnels
of `GoBackend` are a store; `tunnelHandle` is the id of one of them. `vpnProto` is set before the first coroutine is
launched. `lastCommand` is not in the source: it is the last command that passed its initial check.
-/

namespace Cimogus.Android

open Lib

inductive ProtocolState
  | UNKNOWN
  | DISCONNECTED
  | CONNECTING
  | CONNECTED
  | DISCONNECTING
  | RECONNECTING
  deriving DecidableEq

/-- Where a coroutine stands: at its start, or at the wait of which the name says what it is for. -/
inductive Coroutine (Config : Type)
  | connect (config : Config)
  | joinDisconnection (config : Config) (disconnectionJob : Nat)
  | waitForConnection
  | disconnect
  | joinConnection (connectionJob : Nat)
  | waitForDisconnected
  | reconnect
  deriving DecidableEq

/-- How `Wireguard.startVpn` gets to its wait. -/
inductive StartResult
  | ok
  /-- `parseConfig` throws. -/
  | badConfig
  /-- There is no interface, or no tunnel, or its sockets cannot be protected. -/
  | startException
  deriving DecidableEq

inductive Command (Config : Type)
  /-- `none` is a text that is no configuration. -/
  | connect (vpnConfig : Option Config)
  | disconnect
  deriving DecidableEq

structure VpnService (Config : Type) where
  protocolState : ProtocolState
  connectionJob : Option Nat
  disconnectionJob : Option Nat
  jobs : Jobs (Coroutine Config)
  tunnelHandle : Option Nat
  /-- The tunnels that run, with the configurations they were started from. -/
  goBackend : Store Config
  lastCommand : Option (Command Config)

namespace VpnService

variable {Config : Type}

def init : VpnService Config := ⟨.UNKNOWN, none, none, .empty, none, .empty, none⟩

/-! ## `Wireguard` -/

def start (config : Config) (s : VpnService Config) : VpnService Config :=
  match s.tunnelHandle with
  -- "Tunnel already up"
  | some _ => s
  | none => { s with tunnelHandle := some s.goBackend.next, goBackend := s.goBackend.add config }

def stopVpn (s : VpnService Config) : VpnService Config :=
  match s.tunnelHandle with
  -- "Tunnel already down", and the state stays
  | none => s
  | some handleToClose =>
    { s with tunnelHandle := none, goBackend := s.goBackend.delete [handleToClose], protocolState := .DISCONNECTED }

def reconnectVpn (s : VpnService Config) : VpnService Config := { s with protocolState := .CONNECTED }

/-! ## Commands -/

def connectToVpn (vpnConfig : Option Config) (permission : Bool) (s : VpnService Config) : VpnService Config :=
  if s.protocolState = .CONNECTED ∨ s.protocolState = .CONNECTING then s
  else
    let s := { s with lastCommand := some (.connect vpnConfig) }
    match vpnConfig with
    | none => { s with protocolState := .DISCONNECTED }
    | some config =>
      if permission then
        { s with
          protocolState := .CONNECTING
          connectionJob := some s.jobs.launched
          jobs := s.jobs.launch (.connect config) }
      else { s with protocolState := .DISCONNECTED }

def disconnect (s : VpnService Config) : VpnService Config :=
  if s.protocolState = .UNKNOWN ∨ s.protocolState = .DISCONNECTED ∨ s.protocolState = .DISCONNECTING then s
  else
    { s with
      lastCommand := some .disconnect
      protocolState := .DISCONNECTING
      disconnectionJob := some s.jobs.launched
      jobs := s.jobs.launch .disconnect }

def reconnect (s : VpnService Config) : VpnService Config :=
  if s.protocolState ≠ .CONNECTED then s
  else
    { s with
      protocolState := .RECONNECTING
      connectionJob := some s.jobs.launched
      jobs := s.jobs.launch .reconnect }

/-! ## Coroutines -/

def moveTo (i : Nat) (c : Coroutine Config) (s : VpnService Config) : VpnService Config :=
  { s with jobs := s.jobs.moveTo i c }

def complete (i : Nat) (s : VpnService Config) : VpnService Config := { s with jobs := s.jobs.complete i }

/-- `job?.cancel()`. -/
def cancel (job : Option Nat) (s : VpnService Config) : VpnService Config :=
  match job with
  | none => s
  | some i => { s with jobs := s.jobs.cancel i }

/-- `connectionExceptionHandler`, for the exceptions it reports. -/
def connectionExceptionHandler (s : VpnService Config) : VpnService Config :=
  let s := (s.cancel s.connectionJob).cancel s.disconnectionJob
  { s with connectionJob := none, disconnectionJob := none, protocolState := .DISCONNECTED }

/-- The coroutine of `connectToVpn` after the wait for the disconnection, up to the wait for the handshake. -/
def startVpn (i : Nat) (r : StartResult) (config : Config) (s : VpnService Config) : VpnService Config :=
  let s := { s with disconnectionJob := none }
  match r with
  | .ok => (s.start config).moveTo i .waitForConnection
  | .badConfig => (s.complete i).connectionExceptionHandler
  | .startException =>
    match s.tunnelHandle with
    | some _ => s.moveTo i .waitForConnection
    | none => (s.complete i).connectionExceptionHandler

/-- The coroutine of `disconnect` after the wait for the connection. -/
def endVpn (i : Nat) (s : VpnService Config) : VpnService Config :=
  ({ s with connectionJob := none } : VpnService Config).stopVpn.moveTo i .waitForDisconnected

/-- A coroutine is resumed, and goes on to its next suspension point if it can; `r` is for a start of the tunnel. -/
def resume (i : Nat) (r : StartResult) (s : VpnService Config) : VpnService Config :=
  match s.jobs.get? i with
  | none => s
  | some job =>
    if job.cancelled then s.complete i
    else
      match job.body with
      | .connect config =>
        match s.disconnectionJob with
        | some j => s.moveTo i (.joinDisconnection config j)
        | none => s.startVpn i r config
      | .joinDisconnection config j => if s.jobs.isActive j then s else s.startVpn i r config
      | .waitForConnection => { s.complete i with protocolState := .CONNECTED }
      | .disconnect =>
        match s.connectionJob with
        | some j => (s.cancel (some j)).moveTo i (.joinConnection j)
        | none => s.endVpn i
      | .joinConnection j => if s.jobs.isActive j then s else s.endVpn i
      | .waitForDisconnected => if s.protocolState = .DISCONNECTED then s.complete i else s
      | .reconnect => (s.complete i).reconnectVpn

/-- `DISCONNECT_TIMEOUT` is over. -/
def timeout (i : Nat) (s : VpnService Config) : VpnService Config :=
  match s.jobs.get? i with
  | some ⟨_, .waitForDisconnected, _⟩ => s.complete i
  | _ => s

inductive Event (Config : Type)
  | connectToVpn (vpnConfig : Option Config) (permission : Bool)
  | disconnect
  | reconnect
  | resume (job : Nat) (r : StartResult)
  | timeout (job : Nat)

def step : Event Config → VpnService Config → VpnService Config
  | .connectToVpn vpnConfig permission => connectToVpn vpnConfig permission
  | .disconnect => disconnect
  | .reconnect => reconnect
  | .resume i r => resume i r
  | .timeout i => timeout i

end VpnService

end Cimogus.Android
