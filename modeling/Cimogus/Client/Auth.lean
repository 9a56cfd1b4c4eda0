import Cimogus.Lib.Runs
import Mathlib.Algebra.Group.Int.Defs

/-!
# `AuthController`

The client's session with the account server: the token, the flag that says whether the user is authenticated, and the
requests in flight, whose replies come in any order and with any content. The token in `Settings` is read back as it was
written. Of a reply only what the handlers read is modelled, of a request only what it is for and the token it carries;
the two fields at the end of the controller are not in the source and only tell how the run went so far.

A response counts as ok if its status is one of success or if errors were parsed, and errors are parsed whenever the
status is none of success: every response counts as ok (`isOk_parseNetworkReply`). No handler ever takes its branch for
a failure.
-/

namespace Cimogus.Client

open Lib.Runs

structure Errors where
  errorMessage : String
  isFormError : Bool
  fieldErrors : List (String × String)
  deriving DecidableEq

structure UserInfo where
  username : String
  email : String
  timeLeft : Int
  isValid : Bool
  deriving DecidableEq

structure RegionInfo where
  id : String
  countryCode : String
  countryName : String
  deriving DecidableEq

/-- What the handlers read from the body of a reply; a text that is not there reads as empty. -/
structure Body where
  /-- The body is no JSON document. -/
  isNull : Bool
  token : String
  url : String
  username : String
  email : String
  timeLeft : Int
  regions : List RegionInfo
  breakingHash : Int
  minVersion : Int
  error : String
  fieldErrors : List (String × List String)
  deriving DecidableEq

structure Reply where
  /-- `reply.error() != QNetworkReply::NoError`. -/
  networkError : Bool
  httpStatus : Nat
  body : Body
  /-- The system opens an address that it is given. -/
  opensUrl : Bool
  deriving DecidableEq

/-! ## Responses -/

structure Response where
  statusCode : Nat
  errors : Option Errors

/-- `Response::isOk(statusCode)`. -/
def isOkStatus (statusCode : Nat) : Bool := statusCode / 100 = 2

def Response.isOk (r : Response) : Bool := isOkStatus r.statusCode || r.errors.isSome

/-- The texts one after the other, with a line break behind each but the first. -/
def joinErrors : List String → String
  | [] => ""
  | text :: texts => texts.foldl (fun joined text => joined ++ text ++ "\n") text

/-- `ErrorParser::parse`. -/
def parseErrors (body : Body) (isFormError : Bool) : Errors :=
  if body.isNull then ⟨"Server error", isFormError, []⟩
  else ⟨body.error, isFormError, body.fieldErrors.map fun e => (e.1, joinErrors e.2)⟩

def parseNetworkReply (r : Reply) (formError : Bool) : Response :=
  if r.networkError || !isOkStatus r.httpStatus then ⟨r.httpStatus, some (parseErrors r.body formError)⟩
  else ⟨r.httpStatus, none⟩

variable (r : Reply)

/-- Every response counts as ok. -/
@[simp] theorem isOk_parseNetworkReply (formError : Bool) : (parseNetworkReply r formError).isOk = true := by
  unfold parseNetworkReply
  split
  · simp [Response.isOk]
  · next h => simp_all [Response.isOk]

/-- No branch for a failure is taken. -/
theorem ite_not_isOk {α : Type} (formError : Bool) (a b : α) :
    (if !(parseNetworkReply r formError).isOk then a else b) = b := by simp

/-! ## The controller -/

inductive RequestKind
  | login
  | registerUser
  | refreshToken
  | recoverAccount
  | changePassword
  | changeEmail
  | checkApiCompatibility
  | refreshUserInfo
  | refreshServers
  | connectionString
  | paymentLink
  deriving DecidableEq

structure Request where
  kind : RequestKind
  /-- The token in the header, where the request needs one. -/
  authorization : Option String
  /-- How often the token had been replaced when the request was created. -/
  created : Nat
  deriving DecidableEq

inductive AuthSignal
  | apiCompatibilityChanged
  | errorOccurred (errors : Errors)
  | tokenUpdated (authenticationStateChanged : Bool)
  | loginSuccessfull
  | registerSuccessfull
  | recoveryEmailSent
  | passwordChanged
  | emailChanged
  | userInfoUpdated
  | regionsUpdated
  | paymentLinkOpened
  /-- Of a `ServerStringRequest`. -/
  | stringArrived (connectionString : String)
  | stringErrorOccurred (errors : Errors)
  deriving DecidableEq

structure AuthController where
  token : String
  /-- The token in `Settings`. -/
  userToken : String
  authenticated : Bool
  userInfo : UserInfo
  regions : List RegionInfo
  updateRequired : Bool
  /-- The requests without a reply so far. -/
  pending : List Request
  /-- The signals, each with whether the user was authenticated when it was emitted. -/
  log : List (AuthSignal × Bool)
  /-- How often the token has been replaced. -/
  replaced : Nat
  /-- No login or registration has been called since the last logout. -/
  loggedOut : Bool
  deriving DecidableEq

namespace AuthController

/-- The controller after its construction, with what `Settings` has. -/
def init (userToken : String) : AuthController where
  token := userToken
  userToken := userToken
  authenticated := false
  userInfo := ⟨"", "", 0, false⟩
  regions := []
  updateRequired := false
  pending := []
  log := []
  replaced := 0
  loggedOut := false

def emit (signal : AuthSignal) (s : AuthController) : AuthController :=
  { s with log := s.log ++ [(signal, s.authenticated)] }

/-- `createNetworkRequest`, and the request is sent. -/
def send (kind : RequestKind) (needsAuthorization : Bool) (s : AuthController) : AuthController :=
  { s with pending := s.pending ++ [⟨kind, if needsAuthorization then some s.token else none, s.replaced⟩] }

def refreshUserInfo : AuthController → AuthController := send .refreshUserInfo true

def refreshServers : AuthController → AuthController := send .refreshServers true

def setToken (token : String) (s : AuthController) : AuthController :=
  let t := { s with token := token, userToken := token, authenticated := token ≠ "", replaced := s.replaced + 1 }
  let t := if t.authenticated then t.refreshUserInfo.refreshServers else t
  t.emit (.tokenUpdated (s.authenticated ≠ t.authenticated))

def setUnauthenticated (s : AuthController) : AuthController := setToken "" { s with authenticated := false }

/-- The signal of success is emitted as soon as the request is sent. -/
def refreshToken (s : AuthController) : AuthController := (s.send .refreshToken true).emit .loginSuccessfull

def logout (s : AuthController) : AuthController := { s.setUnauthenticated with loggedOut := true }

/-! ## Replies -/

/-- A failure with errors; the branches that look at the status end the session. -/
def refuse (response : Response) (signal : Errors → AuthSignal) (ends : Bool) (s : AuthController) : AuthController :=
  let s := if ends && response.statusCode = 401 then s.setUnauthenticated else s
  match response.errors with
  | some errors => s.emit (signal errors)
  | none => s

/-- `login` and `registerUser` differ in the signal, and in how errors are shown. -/
def onSignedIn (formError : Bool) (signal : AuthSignal) (r : Reply) (s : AuthController) : AuthController :=
  let response := parseNetworkReply r formError
  if !response.isOk then s.refuse response .errorOccurred false
  else { s.setToken r.body.token with authenticated := true }.emit signal

def onLogin : Reply → AuthController → AuthController := onSignedIn false .loginSuccessfull

def onRegisterUser : Reply → AuthController → AuthController := onSignedIn true .registerSuccessfull

def onRefreshToken (r : Reply) (s : AuthController) : AuthController :=
  let response := parseNetworkReply r false
  if !response.isOk then { s with authenticated := false }
  else { s.setToken r.body.token with authenticated := true }

def onConfirmed (signal : AuthSignal) (ends : Bool) (r : Reply) (s : AuthController) : AuthController :=
  let response := parseNetworkReply r false
  if !response.isOk then s.refuse response .errorOccurred ends else s.emit signal

def onRecoverAccount : Reply → AuthController → AuthController := onConfirmed .recoveryEmailSent false

def onChangePassword : Reply → AuthController → AuthController := onConfirmed .passwordChanged false

def onChangeEmail : Reply → AuthController → AuthController := onConfirmed .emailChanged true

def apiVersion : Int := 1

/-- `BREAKING_HASH`. -/
def apiBreakingHash : Int := 0xdeadbeef

/-- Where no update is required, `apiCompatibilityChanged` calls `refreshToken`. -/
def onCheckApiCompatibility (r : Reply) (s : AuthController) : AuthController :=
  let response := parseNetworkReply r false
  if !response.isOk then s.refuse response .errorOccurred false
  else
    let updateRequired := r.body.minVersion ≠ apiVersion || r.body.breakingHash % 2 ^ 32 ≠ apiBreakingHash
    let s := { s with updateRequired }.emit .apiCompatibilityChanged
    if !updateRequired then s.refreshToken else s

def onRefreshUserInfo (r : Reply) (s : AuthController) : AuthController :=
  let response := parseNetworkReply r false
  if !response.isOk then s.refuse response .errorOccurred true
  else { s with userInfo := ⟨r.body.username, r.body.email, r.body.timeLeft, true⟩ }.emit .userInfoUpdated

def onRefreshServers (r : Reply) (s : AuthController) : AuthController :=
  let response := parseNetworkReply r false
  if !response.isOk then s.refuse response .errorOccurred true
  else { s with regions := r.body.regions }.emit .regionsUpdated

def onConnectionString (r : Reply) (s : AuthController) : AuthController :=
  let response := parseNetworkReply r false
  if !response.isOk then s.refuse response .stringErrorOccurred true else s.emit (.stringArrived r.body.url)

def onPaymentLink (r : Reply) (s : AuthController) : AuthController :=
  let response := parseNetworkReply r false
  if !response.isOk then s.refuse response .errorOccurred true
  else if !r.opensUrl then s.emit (.errorOccurred ⟨"Failed to open payment page", false, []⟩)
  else s.emit .paymentLinkOpened

def onReply : RequestKind → Reply → AuthController → AuthController
  | .login => onLogin
  | .registerUser => onRegisterUser
  | .refreshToken => onRefreshToken
  | .recoverAccount => onRecoverAccount
  | .changePassword => onChangePassword
  | .changeEmail => onChangeEmail
  | .checkApiCompatibility => onCheckApiCompatibility
  | .refreshUserInfo => onRefreshUserInfo
  | .refreshServers => onRefreshServers
  | .connectionString => onConnectionString
  | .paymentLink => onPaymentLink

/-! ## Runs -/

inductive Call
  | login
  | registerUser
  | refreshToken
  | recoverAccount
  | changePassword
  | changeEmail
  | checkApiCompatibility
  | logout
  | refreshUserInfo
  | refreshServers
  | getServerConnectionString
  | openPaymentLink
  | setToken (token : String)
  | setUnauthenticated
  deriving DecidableEq

/-- A reply answers the pending request at a position; one without a request does nothing. -/
inductive Event
  | call (c : Call)
  | reply (i : Nat) (r : Reply)
  | settingsCleared
  deriving DecidableEq

def call : Call → AuthController → AuthController
  | .login, s => { s.send .login false with loggedOut := false }
  | .registerUser, s => { s.send .registerUser false with loggedOut := false }
  | .refreshToken, s => s.refreshToken
  | .recoverAccount, s => s.send .recoverAccount false
  | .changePassword, s => s.send .changePassword true
  | .changeEmail, s => s.send .changeEmail true
  | .checkApiCompatibility, s => s.send .checkApiCompatibility false
  | .logout, s => s.logout
  | .refreshUserInfo, s => s.refreshUserInfo
  | .refreshServers, s => s.refreshServers
  | .getServerConnectionString, s => s.send .connectionString true
  | .openPaymentLink, s => s.send .paymentLink true
  | .setToken token, s => s.setToken token
  | .setUnauthenticated, s => s.setUnauthenticated

def step : Event → AuthController → AuthController
  | .call c, s => s.call c
  | .reply i r, s =>
    match s.pending[i]? with
    | some request => { s with pending := s.pending.eraseIdx i }.onReply request.kind r
    | none => s
  -- the settings are cleared before the signal
  | .settingsCleared, s => { s with token := "", userToken := "", authenticated := false }

/-! ## The session -/

end AuthController

/-- The signals that report a login or a registration. -/
def AuthSignal.announces : AuthSignal → Bool
  | .loginSuccessfull | .registerSuccessfull => true
  | _ => false

structure Session where
  token : String
  userToken : String
  authenticated : Bool
  replaced : Nat
  loggedOut : Bool
  /-- For each announced success, whether the user was authenticated. -/
  announced : List Bool

namespace Session

def renew (token : String) (x : Session) : Session :=
  { x with token, userToken := token, authenticated := token ≠ "", replaced := x.replaced + 1 }

def announce (x : Session) : Session := { x with announced := x.announced ++ [x.authenticated] }

/-- The token of a reply is taken whatever it is. -/
def signIn (token : String) (x : Session) : Session := { x.renew token with authenticated := true }

end Session

/-- The server's interface is the one that the client is built for. -/
def Body.compatible (body : Body) : Bool :=
  body.minVersion = AuthController.apiVersion && body.breakingHash % 2 ^ 32 = AuthController.apiBreakingHash

namespace AuthController

def session (s : AuthController) : Session := ⟨s.token, s.userToken, s.authenticated, s.replaced, s.loggedOut,
    (s.log.filter (·.1.announces)).map Prod.snd⟩

theorem session_emit (signal : AuthSignal) (s : AuthController) :
    (s.emit signal).session = if signal.announces then s.session.announce else s.session := by
  cases h : signal.announces <;> simp [session, emit, Session.announce, List.filter_append, h]

@[simp] theorem session_emit_of_not {signal : AuthSignal} (h : signal.announces = false) (s : AuthController) :
    (s.emit signal).session = s.session := by
  rw [session_emit, h]
  rfl

@[simp] theorem session_refreshToken (s : AuthController) : s.refreshToken.session = s.session.announce := by
  rw [refreshToken, session_emit]
  rfl

@[simp] theorem session_setToken (token : String) (s : AuthController) :
    (s.setToken token).session = s.session.renew token := by
  rw [setToken]
  rw [session_emit_of_not rfl]
  split <;> rfl

@[simp] theorem session_setUnauthenticated (s : AuthController) :
    s.setUnauthenticated.session = s.session.renew "" := by
  rw [setUnauthenticated, session_setToken]
  rfl

end AuthController

namespace Session

/-- What a reply does to the session: the requests that sign in take its token, and only those change the session. -/
def replied (kind : RequestKind) (r : Reply) (x : Session) : Session :=
  match kind with
  | .login | .registerUser => (x.signIn r.body.token).announce
  | .refreshToken => x.signIn r.body.token
  | .checkApiCompatibility => if r.body.compatible then x.announce else x
  | _ => x

/-- What an event does to the session, with the requests that are pending. -/
def after (pending : List Request) : AuthController.Event → Session → Session
  | .call .login, x | .call .registerUser, x => { x with loggedOut := false }
  | .call .refreshToken, x => x.announce
  | .call .logout, x => { x.renew "" with loggedOut := true }
  | .call (.setToken token), x => x.renew token
  | .call .setUnauthenticated, x => x.renew ""
  | .call _, x => x
  | .reply i r, x =>
    match pending[i]? with
    | some request => x.replied request.kind r
    | none => x
  | .settingsCleared, x => { x with token := "", userToken := "", authenticated := false }

end Session

namespace AuthController

theorem session_onSignedIn (formError : Bool) {signal : AuthSignal} (h : signal.announces = true) (r : Reply)
    (s : AuthController) : (s.onSignedIn formError signal r).session = (s.session.signIn r.body.token).announce := by
  have ht : ({ s.setToken r.body.token with authenticated := true } : AuthController).session =
      s.session.signIn r.body.token := by
    rw [Session.signIn, ← session_setToken]
    rfl
  rw [onSignedIn, ite_not_isOk, session_emit, h, if_pos rfl, ht]

theorem session_onConfirmed {signal : AuthSignal} (h : signal.announces = false) (ends : Bool) (r : Reply)
    (s : AuthController) : (s.onConfirmed signal ends r).session = s.session := by
  rw [onConfirmed, ite_not_isOk, session_emit_of_not h]

theorem session_onCheckApiCompatibility (s : AuthController) :
    (s.onCheckApiCompatibility r).session = if r.body.compatible then s.session.announce else s.session := by
  have hr : (r.body.minVersion ≠ apiVersion || r.body.breakingHash % 2 ^ 32 ≠ apiBreakingHash : Bool) =
      !r.body.compatible := by
    simp [Body.compatible, Bool.not_and]
  rw [onCheckApiCompatibility, ite_not_isOk, hr]
  cases r.body.compatible with
  | true => exact (session_refreshToken _).trans (congrArg Session.announce (session_emit_of_not rfl _))
  | false => exact session_emit_of_not rfl _

theorem session_onReply (kind : RequestKind) (r : Reply) (s : AuthController) :
    (s.onReply kind r).session = s.session.replied kind r := by
  cases kind with
  | login => exact session_onSignedIn false rfl r s
  | registerUser => exact session_onSignedIn true rfl r s
  | refreshToken =>
    rw [onReply, onRefreshToken, ite_not_isOk, Session.replied, Session.signIn, ← session_setToken]
    rfl
  | recoverAccount => exact session_onConfirmed rfl false r s
  | changePassword => exact session_onConfirmed rfl false r s
  | changeEmail => exact session_onConfirmed rfl true r s
  | checkApiCompatibility => exact session_onCheckApiCompatibility r s
  | refreshUserInfo =>
    rw [onReply, onRefreshUserInfo, ite_not_isOk, session_emit_of_not rfl]
    rfl
  | refreshServers =>
    rw [onReply, onRefreshServers, ite_not_isOk, session_emit_of_not rfl]
    rfl
  | connectionString =>
    rw [onReply, onConnectionString, ite_not_isOk, session_emit_of_not rfl]
    rfl
  | paymentLink =>
    rw [onReply, onPaymentLink, ite_not_isOk]
    split <;> rw [session_emit_of_not rfl] <;> rfl

/-- **What an event does to the session.** -/
theorem session_step (e : Event) (s : AuthController) : (step e s).session = s.session.after s.pending e := by
  cases e with
  | call c =>
    cases c with
    | refreshToken => exact session_refreshToken s
    | setToken token => exact session_setToken token s
    | setUnauthenticated => exact session_setUnauthenticated s
    | logout =>
      rw [Session.after, ← session_setUnauthenticated]
      rfl
    | _ => rfl
  | reply i r =>
    rw [step, Session.after]
    cases s.pending[i]? with
    | none => rfl
    | some request => exact session_onReply request.kind r _
  | settingsCleared => rfl

/-! ## Late replies -/

end AuthController

/-- The reply to the request carries a token that the client takes. -/
def RequestKind.signsIn : RequestKind → Bool
  | .login | .registerUser | .refreshToken => true
  | _ => false

variable {s : AuthController}

namespace AuthController

/-- The request that the event answers, with its reply. -/
def Event.answered (s : AuthController) : Event → Option (Request × Reply)
  | .reply i r => s.pending[i]?.map fun request => (request, r)
  | _ => none

/-- After a logout the session stays empty until the next login or registration. -/
def StaysOut (s : AuthController) : Prop :=
  s.loggedOut = true → s.token = "" ∧ s.userToken = "" ∧ s.authenticated = false

/-- A refusal of a request from before the token was replaced does not clear the token. -/
def KeepsToken (e : Event) (s : AuthController) : Prop :=
  ∀ a ∈ e.answered s, a.2.httpStatus = 401 → a.1.created < s.replaced → s.token ≠ "" →
    (step e s).token ≠ ""

/-- The reply to a login, a registration or a refresh does not come after a logout, before the next login or
registration; and if it is a refusal from before the token was replaced, it carries a token nevertheless. -/
def Timely (e : Event) (s : AuthController) : Prop := ∀ a ∈ e.answered s, a.1.kind.signsIn = true →
    s.loggedOut = false ∧ (a.2.httpStatus = 401 → a.1.created < s.replaced → a.2.body.token ≠ "")

instance (s : AuthController) : Decidable s.StaysOut := inferInstanceAs (Decidable (_ → _))

instance (e : Event) (s : AuthController) : Decidable (KeepsToken e s) :=
  inferInstanceAs (Decidable (∀ a ∈ e.answered s, _))

instance (e : Event) (s : AuthController) : Decidable (Timely e s) :=
  inferInstanceAs (Decidable (∀ a ∈ e.answered s, _))

variable {e : Event}

theorem session_answered {request : Request} {r : Reply} (h : e.answered s = some (request, r)) :
    (step e s).session = s.session.replied request.kind r := by
  cases e with
  | reply i r' =>
    obtain ⟨request', hr, heq⟩ := Option.map_eq_some_iff.mp h
    cases heq
    rw [session_step, Session.after, hr]
  | call c => cases h
  | settingsCleared => cases h

theorem replied_of_signsIn {kind : RequestKind} (h : kind.signsIn = true) (r : Reply) (x : Session) :
    (x.replied kind r).token = r.body.token ∧ (x.replied kind r).loggedOut = x.loggedOut := by
  cases kind with
  | login | registerUser | refreshToken => exact ⟨rfl, rfl⟩
  | _ => cases h

theorem replied_of_not_signsIn {kind : RequestKind} (h : kind.signsIn = false) (r : Reply) (x : Session) :
    ∃ announced, x.replied kind r = { x with announced } := by
  cases kind with
  | login | registerUser | refreshToken => cases h
  | checkApiCompatibility =>
    rw [Session.replied]
    split
    · exact ⟨_, rfl⟩
    · exact ⟨_, rfl⟩
  | _ => exact ⟨_, rfl⟩

theorem step_keepsToken (h : Timely e s) : KeepsToken e s := by
  rintro ⟨request, r⟩ ha hst hc ht
  have hs : (step e s).token = (s.session.replied request.kind r).token := congrArg Session.token (session_answered ha)
  cases hk : request.kind.signsIn with
  | true =>
    rw [hs, (replied_of_signsIn hk r s.session).1]
    exact (h _ ha hk).2 hst hc
  | false =>
    obtain ⟨announced, heq⟩ := replied_of_not_signsIn hk r s.session
    rw [hs, heq]
    exact ht

/-- The event puts a token into the session that no reply has brought. -/
def Event.setsToken : Event → Bool
  | .call (.setToken _) => true
  | _ => false

theorem step_staysOut (hset : e.setsToken = false) (h : Timely e s) (hs : s.StaysOut) : (step e s).StaysOut := by
  have hse := session_step e s
  show (step e s).session.loggedOut = true → (step e s).session.token = "" ∧ (step e s).session.userToken = "" ∧
    (step e s).session.authenticated = false
  rw [hse]
  cases e with
  | call c =>
    cases c with
    | login | registerUser => exact nofun
    | logout | setUnauthenticated => exact fun _ => ⟨rfl, rfl, rfl⟩
    | setToken token => cases hset
    | _ => exact hs
  | reply i r =>
    rw [Session.after]
    cases hr : s.pending[i]? with
    | none => exact hs
    | some request =>
      have ha : Event.answered s (.reply i r) = some (request, r) := by rw [Event.answered, hr]; rfl
      dsimp only
      cases hk : request.kind.signsIn with
      | true =>
        -- such a reply does not come while the user is logged out
        have ho : s.session.loggedOut = false := (h _ ha hk).1
        rw [(replied_of_signsIn hk r s.session).2, ho]
        exact nofun
      | false =>
        obtain ⟨announced, heq⟩ := replied_of_not_signsIn hk r s.session
        rw [heq]
        exact hs
  | settingsCleared => exact fun _ => ⟨rfl, rfl, rfl⟩

/-- **Late replies.** In a run of calls and replies in which the replies to logins, registrations and refreshes are
timely, the session stays empty after each logout until the next login or registration, and no refusal from before the
token was replaced clears it. -/
theorem run_current (userToken : String) (events : List Event) (hset : ∀ e ∈ events, e.setsToken = false)
    (h : Guarded step Timely events (init userToken)) :
    (∀ n, (run step (events.take n) (init userToken)).StaysOut) ∧
    Guarded step KeepsToken events (init userToken) := by
  refine ⟨fun n => ?_, h.mono fun _ _ => step_keepsToken⟩
  have hr : Guarded step (fun e s => Timely e s ∧ e.setsToken = false) (events.take n) (init userToken) :=
    (h.take n).and_of_mem fun e he => hset e (List.mem_of_mem_take he)
  have hst (e : Event) (s : AuthController) (hg : Timely e s ∧ e.setsToken = false) (hs : s.StaysOut) :
      (step e s).StaysOut := step_staysOut hg.2 hg.1 hs
  exact run_invariant_of_guarded hst (events.take n) hr fun ho => nomatch ho

/-! ## The flag, the token and the signals -/

/-- An authenticated user has a token, the one in `Settings`, and every announced success was one. -/
def Consistent (s : AuthController) : Prop := (s.authenticated = true → s.token ≠ "" ∧ s.token = s.userToken) ∧
    ∀ entry ∈ s.log, entry.1.announces = true → entry.2 = true

/-- A refresh is only asked for where the user is authenticated, by a call or after the interface has been found
compatible, and the replies to logins, registrations and refreshes carry a token. -/
def Justified (e : Event) (s : AuthController) : Prop := (e = .call .refreshToken → s.authenticated = true) ∧
    ∀ a ∈ e.answered s, (a.1.kind.signsIn = true → a.2.body.token ≠ "") ∧
      (a.1.kind = .checkApiCompatibility → a.2.body.compatible = true → s.authenticated = true)

instance (s : AuthController) : Decidable s.Consistent :=
  inferInstanceAs (Decidable (_ ∧ ∀ entry ∈ s.log, _ → _))

instance (e : Event) (s : AuthController) : Decidable (Justified e s) :=
  inferInstanceAs (Decidable (_ ∧ ∀ a ∈ e.answered s, _))

end AuthController

namespace Session

/-- What `Consistent` says of the session, with the two tokens equal at all times. -/
structure Coherent (x : Session) : Prop where
  token : x.authenticated = true → x.token ≠ ""
  stored : x.token = x.userToken
  announced : ∀ b ∈ x.announced, b = true

namespace Coherent

variable {x : Session}

theorem renew (h : x.Coherent) (token : String) : (x.renew token).Coherent :=
  ⟨fun ha => of_decide_eq_true ha, rfl, h.announced⟩

theorem signIn (h : x.Coherent) {token : String} (ht : token ≠ "") : (x.signIn token).Coherent :=
  ⟨fun _ => ht, rfl, h.announced⟩

theorem announce (h : x.Coherent) (ha : x.authenticated = true) : x.announce.Coherent := by
  refine ⟨h.token, h.stored, fun b hb => ?_⟩
  rcases List.mem_append.mp hb with hb | hb
  · exact h.announced b hb
  · rw [List.mem_singleton.mp hb, ha]

end Coherent

end Session

namespace AuthController

theorem session_coherent (h : s.session.Coherent) : s.Consistent := by
  refine ⟨fun hau => ⟨h.token hau, h.stored⟩, fun entry he ha => ?_⟩
  exact h.announced entry.2 (List.mem_map.mpr ⟨entry, List.mem_filter.mpr ⟨he, ha⟩, rfl⟩)

theorem replied_coherent {request : Request} {r : Reply} (hs : s.session.Coherent)
    (ht : request.kind.signsIn = true → r.body.token ≠ "")
    (hch : request.kind = .checkApiCompatibility → r.body.compatible = true → s.authenticated = true) :
    (s.session.replied request.kind r).Coherent := by
  cases hk : request.kind with
  | login | registerUser =>
    rw [hk] at ht
    exact (hs.signIn (ht rfl)).announce rfl
  | refreshToken =>
    rw [hk] at ht
    exact hs.signIn (ht rfl)
  | checkApiCompatibility =>
    rw [Session.replied]
    split
    · next hc => exact hs.announce (hch hk hc)
    · exact hs
  | _ => exact hs

theorem step_coherent {e : Event} (h : Justified e s) (hs : s.session.Coherent) : (step e s).session.Coherent := by
  rw [session_step]
  cases e with
  | call c =>
    cases c with
    | refreshToken => exact hs.announce (h.1 rfl)
    | logout =>
      have he := hs.renew ""
      exact ⟨he.token, he.stored, he.announced⟩
    | setToken token => exact hs.renew token
    | setUnauthenticated => exact hs.renew ""
    | login | registerUser => exact ⟨hs.token, hs.stored, hs.announced⟩
    | _ => exact hs
  | reply i r =>
    rw [Session.after]
    cases hr : s.pending[i]? with
    | none => exact hs
    | some request =>
      have ha : Event.answered s (.reply i r) = some (request, r) := by rw [Event.answered, hr]; rfl
      obtain ⟨ht, hc⟩ := h.2 _ ha
      exact replied_coherent hs ht hc
  | settingsCleared => exact ⟨nofun, rfl, hs.announced⟩

/-- **The state of the authentication.** In a run in which every refresh is justified and every login, registration and
refresh brings a token, the flag, the tokens and the signals agree in every state. -/
theorem run_consistent (userToken : String) (events : List Event) (h : Guarded step Justified events (init userToken))
    (n : Nat) : (run step (events.take n) (init userToken)).Consistent := by
  apply session_coherent
  exact run_invariant_of_guarded (fun _ _ => step_coherent) (events.take n) (h.take n) ⟨nofun, rfl, nofun⟩

/-! ## Examples -/

def replyWith (httpStatus : Nat) (token : String) : Reply where
  networkError := false
  httpStatus := httpStatus
  body := ⟨token = "", token, "", "", "", 0, [], 0, 0, "", []⟩
  opensUrl := true

def plainRun : List Event := [.call .login, .reply 0 (replyWith 200 "token"), .call .logout]

def lateRun : List Event := [.call .login, .call .logout, .reply 0 (replyWith 200 "token")]

/-- The second login succeeds, and then the first is refused. -/
def refusedRun : List Event :=
  [.call .login, .call .login, .reply 1 (replyWith 200 "token"), .reply 0 (replyWith 401 "")]

theorem plainRun_current : Guarded step Timely plainRun (init "") ∧ (run step (plainRun.take 3) (init "")).StaysOut :=
  ⟨by decide, (run_current "" plainRun (by decide) (by decide)).1 3⟩

/-- A late reply signs the user in after a logout, and a refused login clears the token of the other. -/
theorem late_replies_change_session : ¬(run step lateRun (init "")).StaysOut ∧
      ¬Guarded step KeepsToken refusedRun (init "") ∧ (run step refusedRun (init "")).token = "" := by
  decide

theorem plainRun_consistent :
    Guarded step Justified plainRun (init "") ∧ (run step (plainRun.take 2) (init "")).Consistent :=
  ⟨by decide, run_consistent "" plainRun (by decide) 2⟩

/-- A refused login leaves the user authenticated without a token, and a refresh is announced as a success at once. -/
theorem inconsistent_after_refusal : ¬(run step [.call .login, .reply 0 (replyWith 401 "")] (init "")).Consistent ∧
      ¬(run step [.call .refreshToken] (init "")).Consistent := by
  decide

end AuthController

end Cimogus.Client
