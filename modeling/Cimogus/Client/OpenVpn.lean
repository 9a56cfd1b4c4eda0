import Cimogus.Client.VpnProtocol
import Cimogus.Lib.Runs
import Cimogus.Lib.Text
import Mathlib.Algebra.Group.Nat.Defs

/-!
# `OpenVpnProtocol`

The protocol that launches an openvpn process and talks to it over its management interface. What it does to the outside
is written to a log: the signals, the commands on the management socket, and the calls of the service, among them
launching and closing the process. Timers and the log file are left out, and `updateVpnGateway` is the one of Linux and
macOS.

`stop` looks at the connection state after it has changed it, and so at none of the states in which it would do
something about the process.
-/

namespace Cimogus.Client

open Lib.Runs

/-! ## Texts -/

/-- `line.contains(text)`. -/
def contains (text : String) (line : List Char) : Bool := Lib.Text.hasInfix text.toList line

/-- `line.startsWith(text)`. -/
def startsWith (text : String) (line : List Char) : Bool := text.toList.isPrefixOf line

def splitAt (text : String) (line : List Char) : List (List Char) := Lib.Text.splitTextFrom text.toList 0 [] line

/-- `line.split(text, Qt::SkipEmptyParts)`. -/
def splitParts (text : String) (line : List Char) : List (List Char) := (splitAt text line).filter (· ≠ [])

/-- `line.toStdString().c_str()`. -/
def cString (line : List Char) : List Char := line.takeWhile (· ≠ '\x00')

/-- `toULongLong` of what is left without blanks; what is no number is 0. -/
def toULongLong (text : List Char) : UInt64 :=
  let digits := (text.dropWhile Char.isWhitespace).reverse.dropWhile Char.isWhitespace |>.reverse
  let n := digits.foldl (fun n c => 10 * n + (c.toNat - '0'.toNat)) 0
  if digits.all Char.isDigit && n < 2 ^ 64 then UInt64.ofNat n else 0

/-! ## The protocol -/

inductive Action
  | emit (signal : Signal)
  /-- A command on the management socket. -/
  | command (text : String)
  | launch (process : Nat)
  | close (process : Nat)
  | enableKillSwitch
  | disableKillSwitch
  deriving DecidableEq

def Action.tellsToExit : Action → Bool
  | .command text => text = "signal SIGTERM"
  | .close _ => true
  | _ => false

structure OpenVpn where
  protocol : VpnProtocol
  /-- The management server waits for a connection. -/
  listening : Bool
  /-- The management socket is open. -/
  socket : Bool
  /-- `m_openVpnProcess`. -/
  process : Option Nat
  /-- The number of processes that were created. -/
  created : Nat
  /-- The processes that were launched and have not finished. -/
  live : List Nat
  routeGateway : List Char
  vpnLocalAddress : List Char
  vpnGateway : List Char
  log : List Action
  deriving DecidableEq

/-- What `start` finds. -/
structure StartAnswers where
  execExists : Bool
  configExists : Bool
  listens : Bool
  /-- The service creates a process. -/
  creates : Bool
  isInitialized : Bool
  /-- The process comes up. -/
  launches : Bool
  deriving DecidableEq

variable (killSwitch : Bool) (line : List Char) (s : OpenVpn)

namespace OpenVpn

def init : OpenVpn := ⟨.init, false, false, none, 0, [], [], [], [], []⟩

def act (action : Action) (s : OpenVpn) : OpenVpn := { s with log := s.log ++ [action] }

/-- A function of `VpnProtocol`. -/
def base (f : VpnProtocol → VpnProtocol × List Signal) (s : OpenVpn) : OpenVpn :=
  { s with protocol := (f s.protocol).1, log := s.log ++ (f s.protocol).2.map .emit }

def setConnectionState (state : ConnectionState) : OpenVpn → OpenVpn := base (VpnProtocol.setConnectionState state)

def setLastError (e : ErrorCode) : OpenVpn → OpenVpn := base (VpnProtocol.setLastError e)

/-- `ManagementServer::writeCommand`, with whether it writes something. -/
def writeCommand (text : String) (s : OpenVpn) : Bool × OpenVpn :=
  if !s.socket then (false, s) else (true, s.act (.command text))

def sendTermSignal (s : OpenVpn) : Bool × OpenVpn := s.writeCommand "signal SIGTERM"

def killOpenVpnProcess (s : OpenVpn) : OpenVpn :=
  match s.process with
  | some process => s.act (.close process)
  | none => s

/-- `ManagementServer::stop`. -/
def closeServer (s : OpenVpn) : OpenVpn := { s with listening := false }

def stop (s : OpenVpn) : OpenVpn :=
  let s := s.setConnectionState .Disconnecting
  let s :=
    if s.protocol.connectionState = .Preparing ∨ s.protocol.connectionState = .Connecting ∨
        s.protocol.connectionState = .Connected ∨ s.protocol.connectionState = .Reconnecting then
      let sent := s.sendTermSignal
      closeServer (if sent.1 then sent.2 else sent.2.killOpenVpnProcess)
    else s
  (s.act .disableKillSwitch).setConnectionState .Disconnected

def start (a : StartAnswers) (s : OpenVpn) : OpenVpn :=
  let s := s.stop
  if !a.execExists then s.setLastError .OpenVpnExecutableMissing
  else if !a.configExists then s.setLastError .OpenVpnConfigMissing
  else if !a.listens then { s with listening := false }.setLastError .OpenVpnManagementServerError
  else
    let s := { s with listening := true }.setConnectionState .Connecting
    if !a.creates then { s with process := none }.setLastError .AmneziaServiceConnectionFailed
    else
      let s := { s with process := some s.created, created := s.created + 1 }
      if !a.isInitialized then s.setLastError .AmneziaServiceConnectionFailed
      else
        let s := s.act (.launch (s.created - 1))
        if a.launches then { s with live := (s.created - 1) :: s.live } else s

/-! ## The management interface -/

def sendByteCount (s : OpenVpn) : OpenVpn := (s.writeCommand "bytecount 1").2

def sendInitialData (s : OpenVpn) : OpenVpn := ((s.writeCommand "state on").2.writeCommand "log on").2

/-- Where the line has nothing behind `ROUTE_GATEWAY` the source reads past the end of a list; here it is ignored. -/
def updateRouteGateway (line : List Char) (s : OpenVpn) : OpenVpn :=
  if contains "net_route_v4_best_gw" line then
    match line.splitOn ' ' with
    | [_, _, _, gateway, _, _] => { s with routeGateway := gateway }
    | _ => s
  else
    match splitParts "ROUTE_GATEWAY" line with
    | _ :: part :: _ =>
      if '/' ∉ part then s else { s with routeGateway := ((splitParts "/" part).headD []).filter (· ≠ ' ') }
    | _ => s

/-- One part of a pushed reply, which is taken if it is an `ifconfig` of three words. -/
def onPushed (killSwitch : Bool) (s : OpenVpn) (part : List Char) : OpenVpn :=
  if !contains "ifconfig" part then s
  else
    match part.splitOn ' ' with
    | [_, address, gateway] =>
      let s := { s with vpnLocalAddress := address, vpnGateway := gateway }
      if killSwitch then s.act .enableKillSwitch else s
    | _ => s

def updateVpnGateway (killSwitch : Bool) (line : List Char) (s : OpenVpn) : OpenVpn :=
  (line.splitOn ',').foldl (onPushed killSwitch) s

/-- A line without a comma behind the counter makes the source read past the end of a list; here it is ignored. -/
def updateByteCount (data : List Char) (s : OpenVpn) : OpenVpn :=
  match ((splitAt ">BYTECOUNT:" data).getLastD []).splitOn ',' with
  | received :: sent :: _ => s.base (VpnProtocol.setBytesChanged (toULongLong received) (toULongLong sent))
  | _ => s

/-- What a line is about besides the state; the result says whether the loop goes on. -/
def onOther (killSwitch : Bool) (line : List Char) (s : OpenVpn) : Bool × OpenVpn :=
  let s :=
    if contains "ROUTE_GATEWAY" line || contains "net_route_v4_best_gw" line then s.updateRouteGateway line else s
  let s := if contains "PUSH: Received control message" line then s.updateVpnGateway killSwitch line else s
  if contains "FATAL" line then
    let e := if contains "tap-windows6 adapters on this system are currently in use or disabled" line then
        ErrorCode.OpenVpnAdaptersInUseError
      else .OpenVpnUnknownError
    (false, s.act (.emit (.protocolError e)))
  else (true, if contains ">BYTECOUNT:" (cString line) then s.updateByteCount (cString line) else s)

def onLine (killSwitch : Bool) (line : List Char) (s : OpenVpn) : Bool × OpenVpn :=
  if contains ">INFO:OpenVPN Management Interface" line then s.sendInitialData.onOther killSwitch line
  else if startsWith ">STATE" line then
    if contains "CONNECTED,SUCCESS" line then (true, s.sendByteCount.setConnectionState .Connected)
    else if contains "EXITING,SIGTER" line then (true, s.setConnectionState .Disconnecting)
    else if contains "RECONNECTING" line then (true, s.setConnectionState .Reconnecting)
    else s.onOther killSwitch line
  else s.onOther killSwitch line

/-- `onReadyReadDataFromManagementServer`, with the lines that can be read. -/
def onReadyRead (killSwitch : Bool) : List (List Char) → OpenVpn → OpenVpn
  | [], s => s
  | line :: lines, s =>
    if !s.socket || line = [] then s
    else if (s.onLine killSwitch line).1 then onReadyRead killSwitch lines (s.onLine killSwitch line).2
    else (s.onLine killSwitch line).2

/-! ## Runs -/

inductive Event
  | start (a : StartAnswers)
  | stop
  /-- The openvpn process connects to the management server. -/
  | newConnection
  | socketDisconnected
  | readyRead (lines : List (List Char))
  | finished (process : Nat)

/-- The process that finishes is one that was launched. -/
def step (killSwitch : Bool) : Event → OpenVpn → OpenVpn
  | .start a, s => s.start a
  | .stop, s => s.stop
  | .newConnection, s => if s.listening then { s with socket := true, listening := false } else s
  | .socketDisconnected, s => { s with socket := false }
  | .readyRead lines, s => s.onReadyRead killSwitch lines
  | .finished process, s =>
    if process ∈ s.live then { s with live := s.live.erase process }.setConnectionState .Disconnected else s

/-- Between `s` and `s'` a process is told to exit: by a command on the management socket, or by closing it. -/
def Told (s s' : OpenVpn) : Prop := ∃ action ∈ s'.log.drop s.log.length, action.tellsToExit = true

instance (s s' : OpenVpn) : Decidable (Told s s') := inferInstanceAs (Decidable (∃ action ∈ _, _))

/-- What `s'` has done since `s` tells no process to exit. -/
def Quiet (s s' : OpenVpn) : Prop :=
  ∃ actions, s'.log = s.log ++ actions ∧ ∀ action ∈ actions, action.tellsToExit = false

namespace Quiet

variable {s s' s'' : OpenVpn}

theorem of_log_eq (h : s'.log = s.log) : Quiet s s' := ⟨[], by rw [h, List.append_nil], nofun⟩

theorem refl (s : OpenVpn) : Quiet s s := of_log_eq rfl

theorem trans (h : Quiet s s') (h' : Quiet s' s'') : Quiet s s'' := by
  obtain ⟨actions, hl, hq⟩ := h
  obtain ⟨actions', hl', hq'⟩ := h'
  refine ⟨actions ++ actions', by rw [hl', hl, List.append_assoc], fun action hm => ?_⟩
  rcases List.mem_append.mp hm with hm | hm
  · exact hq action hm
  · exact hq' action hm

theorem act {action : Action} (h : action.tellsToExit = false) (s : OpenVpn) : Quiet s (s.act action) :=
  ⟨[action], rfl, fun _ hm => List.mem_singleton.mp hm ▸ h⟩

theorem base (f : VpnProtocol → VpnProtocol × List Signal) (s : OpenVpn) : Quiet s (s.base f) := by
  refine ⟨(f s.protocol).2.map .emit, rfl, fun action hm => ?_⟩
  obtain ⟨signal, _, rfl⟩ := List.mem_map.mp hm
  rfl

theorem writeCommand {text : String} (h : text ≠ "signal SIGTERM") (s : OpenVpn) :
    Quiet s (s.writeCommand text).2 := by
  rw [OpenVpn.writeCommand]
  split
  · exact refl s
  · exact act (by simpa [Action.tellsToExit] using h) s

theorem not_told (h : Quiet s s') : ¬Told s s' := by
  obtain ⟨actions, hl, hq⟩ := h
  rintro ⟨action, hm, ht⟩
  rw [hl, List.drop_left] at hm
  rw [hq action hm] at ht
  cases ht

end Quiet

@[simp] theorem setConnectionState_protocol (state : ConnectionState) (s : OpenVpn) :
    (s.setConnectionState state).protocol = (s.protocol.setConnectionState state).1 := rfl

theorem stop_eq :
    s.stop = ((s.setConnectionState .Disconnecting).act .disableKillSwitch).setConnectionState .Disconnected := by
  have hl : ¬((s.setConnectionState .Disconnecting).protocol.connectionState = .Preparing ∨
      (s.setConnectionState .Disconnecting).protocol.connectionState = .Connecting ∨
      (s.setConnectionState .Disconnecting).protocol.connectionState = .Connected ∨
      (s.setConnectionState .Disconnecting).protocol.connectionState = .Reconnecting) := by
    rcases VpnProtocol.setConnectionState_disconnecting s.protocol with hstate | hstate <;> simp [hstate]
  simp only [stop, if_neg hl]

theorem stop_connectionState : s.stop.protocol.connectionState = .Disconnected := by
  rw [stop_eq, setConnectionState_protocol, VpnProtocol.setConnectionState_state]
  simp

theorem stop_live : s.stop.live = s.live := by
  rw [stop_eq]
  rfl

theorem stop_quiet : Quiet s s.stop := by
  rw [stop_eq]
  exact (Quiet.base _ s).trans ((Quiet.act rfl _).trans (Quiet.base _ _))

theorem start_quiet (a : StartAnswers) (s : OpenVpn) : Quiet s (s.start a) := by
  refine (stop_quiet s).trans ?_
  unfold start
  dsimp only
  generalize s.stop = s
  split
  · exact Quiet.base _ s
  split
  · exact Quiet.base _ s
  split
  · exact (Quiet.of_log_eq rfl).trans (Quiet.base _ { s with listening := false })
  have hc : Quiet s ({ s with listening := true }.setConnectionState .Connecting) :=
    (Quiet.of_log_eq rfl).trans (Quiet.base _ { s with listening := true })
  refine hc.trans ?_
  generalize { s with listening := true }.setConnectionState .Connecting = s
  split
  · exact (Quiet.of_log_eq rfl).trans (Quiet.base _ { s with process := none })
  split
  · exact (Quiet.of_log_eq rfl).trans (Quiet.base _ { s with process := some s.created, created := s.created + 1 })
  have hl : Quiet s ({ s with process := some s.created, created := s.created + 1 }.act (.launch s.created)) :=
    (Quiet.of_log_eq rfl).trans (Quiet.act rfl { s with process := some s.created, created := s.created + 1 })
  split
  · exact hl.trans (.of_log_eq rfl)
  · exact hl

theorem updateRouteGateway_quiet : Quiet s (s.updateRouteGateway line) := by
  refine .of_log_eq ?_
  unfold updateRouteGateway
  split
  · split <;> rfl
  · split
    · split <;> rfl
    · rfl

theorem onPushed_quiet (part : List Char) : Quiet s (onPushed killSwitch s part) := by
  unfold onPushed
  split
  · exact .refl s
  split
  · split
    · exact (Quiet.of_log_eq rfl).trans (Quiet.act rfl _)
    · exact .of_log_eq rfl
  · exact .refl s

theorem updateVpnGateway_quiet : Quiet s (s.updateVpnGateway killSwitch line) := by
  unfold updateVpnGateway
  generalize line.splitOn ',' = parts
  induction parts generalizing s with
  | nil => exact .refl s
  | cons part parts ih => exact (onPushed_quiet killSwitch s part).trans (ih _)

theorem updateByteCount_quiet : Quiet s (s.updateByteCount line) := by
  unfold updateByteCount
  split
  · exact .base _ s
  · exact .refl s

theorem onOther_quiet : Quiet s (s.onOther killSwitch line).2 := by
  unfold onOther
  dsimp only
  have hr : Quiet s
      (if contains "ROUTE_GATEWAY" line || contains "net_route_v4_best_gw" line then s.updateRouteGateway line
        else s) := by
    split
    · exact updateRouteGateway_quiet line s
    · exact .refl s
  refine hr.trans ?_
  generalize (if contains "ROUTE_GATEWAY" line || contains "net_route_v4_best_gw" line then s.updateRouteGateway line
    else s) = s
  have hp : Quiet s (if contains "PUSH: Received control message" line then s.updateVpnGateway killSwitch line
      else s) := by
    split
    · exact updateVpnGateway_quiet killSwitch line s
    · exact .refl s
  refine hp.trans ?_
  generalize (if contains "PUSH: Received control message" line then s.updateVpnGateway killSwitch line else s) = s
  split
  · exact .act rfl s
  · split
    · exact updateByteCount_quiet _ s
    · exact .refl s

theorem onLine_quiet : Quiet s (s.onLine killSwitch line).2 := by
  unfold onLine
  split
  · exact (Quiet.writeCommand (by decide) s).trans
      ((Quiet.writeCommand (by decide) _).trans (onOther_quiet killSwitch line _))
  split
  · split
    · exact (Quiet.writeCommand (by decide) s).trans (.base _ _)
    split
    · exact .base _ s
    split
    · exact .base _ s
    · exact onOther_quiet killSwitch line s
  · exact onOther_quiet killSwitch line s

theorem onReadyRead_quiet (lines : List (List Char)) (s : OpenVpn) : Quiet s (s.onReadyRead killSwitch lines) := by
  induction lines generalizing s with
  | nil => exact .refl s
  | cons line lines ih =>
    rw [onReadyRead]
    split
    · exact .refl s
    split
    · exact (onLine_quiet killSwitch line s).trans (ih _)
    · exact onLine_quiet killSwitch line s

theorem step_quiet (event : Event) (s : OpenVpn) : Quiet s (step killSwitch event s) := by
  cases event with
  | start a => exact start_quiet a s
  | stop => exact stop_quiet s
  | newConnection =>
    rw [step]
    split <;> exact .of_log_eq rfl
  | socketDisconnected => exact .of_log_eq rfl
  | readyRead lines => exact onReadyRead_quiet killSwitch lines s
  | finished process =>
    rw [step]
    split
    · exact (Quiet.of_log_eq rfl).trans (Quiet.base _ { s with live := s.live.erase process })
    · exact .refl s

/-- **No run tells a process to exit.** -/
theorem run_quiet (events : List Event) : Quiet init (run (step killSwitch) events init) :=
  run_invariant (fun event s h => h.trans (step_quiet killSwitch event s)) events (.refl init)

/-- **`stop` leaves the process.** In every run, where `stop` is called with a process that `start` has launched and
that has not finished, it neither writes the command nor closes the process. It ends in `Disconnected` with the process
still there, which has not been told to exit at any time. -/
theorem stop_leaves_process (killSwitch : Bool) (events : List Event)
    (h : (run (step killSwitch) events init).live ≠ []) :
    ¬Told (run (step killSwitch) events init) (run (step killSwitch) events init).stop ∧
      (run (step killSwitch) events init).stop.protocol.connectionState = .Disconnected ∧
      (run (step killSwitch) events init).stop.live ≠ [] ∧
      ∀ action ∈ (run (step killSwitch) events init).stop.log, action.tellsToExit = false := by
  refine ⟨(stop_quiet _).not_told, stop_connectionState _, by rwa [stop_live], ?_⟩
  obtain ⟨actions, hl, hq⟩ := (run_quiet killSwitch events).trans (stop_quiet _)
  rw [hl]
  exact hq

/-! ## Examples -/

/-- The process is launched, connects to the management server and reports a connection. -/
def connectedRun : List Event :=
  [.start ⟨true, true, true, true, true, true⟩, .newConnection,
    .readyRead [">STATE:1,CONNECTED,SUCCESS,10.8.0.2".toList]]

theorem connectedRun_leaves_process : (run (step true) connectedRun init).live ≠ [] ∧
      ∀ action ∈ (run (step true) connectedRun init).stop.log, action.tellsToExit = false :=
  ⟨by decide, (stop_leaves_process true connectedRun (by decide)).2.2.2⟩

/-- The management connection is open and the state is `Connected`, and `stop` does nothing about the process. -/
theorem connectedRun_not_told : (run (step true) connectedRun init).socket = true ∧
      (run (step true) connectedRun init).protocol.connectionState = .Connected ∧
      (run (step true) connectedRun init).live = [0] ∧
      ¬Told (run (step true) connectedRun init) (run (step true) connectedRun init).stop ∧
      (run (step true) connectedRun init).stop.protocol.connectionState = .Disconnected := by
  decide

end OpenVpn

end Cimogus.Client
