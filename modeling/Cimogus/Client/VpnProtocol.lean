/-!
# `VpnProtocol`

What the protocols of the client have in common: the connection state, which ignores some changes, the byte counters and
the last error. A function returns the signals that it emits, in their order.
-/

namespace Cimogus.Client

/-- `Vpn::ConnectionState`. -/
inductive ConnectionState
  | Unknown
  | Disconnected
  | Preparing
  | Connecting
  | Connected
  | Disconnecting
  | Reconnecting
  | Error
  deriving DecidableEq

/-- The error codes that the modelled functions use. -/
inductive ErrorCode
  | InternalError
  | AmneziaServiceConnectionFailed
  | OpenVpnExecutableMissing
  | OpenVpnConfigMissing
  | OpenVpnManagementServerError
  | OpenVpnAdaptersInUseError
  | OpenVpnUnknownError
  | XrayExecutableMissing
  | XrayExecutableCrashed
  | ImportInvalidConfigError
  | ApiConfigAlreadyAdded
  /-- One of those that only pass through. -/
  | other (code : Nat)
  deriving DecidableEq

inductive Signal
  | connectionStateChanged (state : ConnectionState)
  | bytesChanged (receivedBytes sentBytes : UInt64)
  | protocolError (e : ErrorCode)
  deriving DecidableEq

structure VpnProtocol where
  connectionState : ConnectionState
  lastError : Option ErrorCode
  receivedBytes : UInt64
  sentBytes : UInt64
  deriving DecidableEq

namespace VpnProtocol

def init : VpnProtocol := ⟨.Unknown, none, 0, 0⟩

/-- A change to the same state is ignored, and so is `Disconnecting` where everything is disconnected. -/
def takes (current state : ConnectionState) : Bool :=
  current ≠ state && !(current = .Disconnected && state = .Disconnecting)

def setConnectionState (state : ConnectionState) (p : VpnProtocol) : VpnProtocol × List Signal :=
  if !takes p.connectionState state then (p, [])
  else if state = .Disconnected then
    ({ p with connectionState := state, receivedBytes := 0, sentBytes := 0 }, [.connectionStateChanged state])
  else ({ p with connectionState := state }, [.connectionStateChanged state])

def setLastError (e : ErrorCode) (p : VpnProtocol) : VpnProtocol × List Signal :=
  setConnectionState .Error { p with lastError := some e }

/-- What is emitted are differences, which wrap around. -/
def setBytesChanged (receivedBytes sentBytes : UInt64) (p : VpnProtocol) : VpnProtocol × List Signal :=
  ({ p with receivedBytes, sentBytes }, [.bytesChanged (receivedBytes - p.receivedBytes) (sentBytes - p.sentBytes)])

/-- Every change but the ignored ones arrives. -/
theorem setConnectionState_state (state : ConnectionState) (p : VpnProtocol) :
    (p.setConnectionState state).1.connectionState =
      if p.connectionState = .Disconnected ∧ state = .Disconnecting then .Disconnected else state := by
  obtain ⟨current, _, _, _⟩ := p
  cases current <;> cases state <;> rfl

theorem setConnectionState_signals (state : ConnectionState) (p : VpnProtocol) :
    (p.setConnectionState state).2 = [] ∨ (p.setConnectionState state).2 = [.connectionStateChanged state] := by
  unfold setConnectionState
  split
  · exact .inl rfl
  · split <;> exact .inr rfl

theorem setConnectionState_disconnecting (p : VpnProtocol) :
    (p.setConnectionState .Disconnecting).1.connectionState = .Disconnecting ∨
      (p.setConnectionState .Disconnecting).1.connectionState = .Disconnected := by
  rw [setConnectionState_state]
  split
  · exact .inr rfl
  · exact .inl rfl

end VpnProtocol

end Cimogus.Client
