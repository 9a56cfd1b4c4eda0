import Cimogus.Daemon.EventOrder

/-!
# Commands of several clients

A command that arrives while another one waits for the tunnel process is handled in the middle of it. When none does,
the handshake checks and the status requests that still run inside the commands do not matter: a step is apart from the
command in progress or it is its next step (`Lone.advances`). So the run can be followed by one without any nesting
(`Follows.step`), and a connection that is stored has an interface with its peer (`Sound.step`).
-/

namespace Cimogus.Daemon

open Lib Lib.Runs List

variable {qt : Qt}

def Frame.isCommand (f : Frame) : Bool :=
  match f.activity with
  | .command .. => true
  | .check | .status => false

def Session.commands (s : Session) : List Frame := s.stack.filter Frame.isCommand

/-- No command begins while another one is in progress. -/
def Single : Choice → Session → Prop
  | .request _ _, s => s.commands = []
  | _, _ => True

/-- Nothing begins while something is in progress. -/
def Alone : Choice → Session → Prop
  | .request _ _, s | .status _, s | .timeout, s => s.stack = []
  | _, _ => True

/-- Every stored connection has an interface, whose process has accepted the peer. -/
def Fit (c : Core) : Prop :=
  ∀ hop config, c.daemon.connections hop = some config → c.running = true ∧ config.serverPublicKey ∈ c.accepted

/-! ## What a command that goes on leaves -/

namespace Session

def reached : Outcome Core Event Wait Answer → Core
  | .done _ c => c
  | .emit _ rest => reached rest
  | .wait _ c _ => c

def waiting (client : Option Nat) (request : Request) : Outcome Core Event Wait Answer → List Frame
  | .done _ _ => []
  | .emit _ rest => waiting client request rest
  | .wait w c resume => [⟨client, .command request resume, w, c.generation, none⟩]

variable (client : Option Nat) (request : Request) (o : Outcome Core Event Wait Answer) (s : Session)

theorem proceed_core : (s.proceed client request o).core = reached o := by
  induction o generalizing s with
  | done ok c => rfl
  | emit e rest ih => exact ih _
  | wait w c resume => rfl

theorem proceed_stack : (s.proceed client request o).stack = waiting client request o ++ s.stack := by
  induction o generalizing s with
  | done ok c => rfl
  | emit e rest ih => exact ih _
  | wait w c resume => rfl

theorem proceed_requests : (s.proceed client request o).requests = s.requests := by
  induction o generalizing s with
  | done ok c => rfl
  | emit e rest ih => exact ih _
  | wait w c resume => rfl

theorem waiting_commands : (waiting client request o).filter Frame.isCommand = waiting client request o := by
  induction o with
  | done ok c => rfl
  | emit e rest ih => exact ih
  | wait w c resume => rfl

theorem waiting_length : (waiting client request o).length ≤ 1 := by
  induction o with
  | done ok c => exact Nat.zero_le 1
  | emit e rest ih => exact ih
  | wait w c resume => exact Nat.le_refl 1

/-- A command on top of no other. -/
theorem proceed_commands (h : s.commands = []) : (s.proceed client request o).commands = waiting client request o := by
  rw [commands, proceed_stack, filter_append, waiting_commands]
  exact (congrArg _ h).trans (append_nil _)

end Session

/-! ## At most one command -/

/-- At most one command is in progress, and whatever else waits asks for the status of the peers. -/
structure Lone (s : Session) : Prop where
  single : s.commands.length ≤ 1
  asks : ∀ f ∈ s.stack, f.isCommand = false → f.wait.message = .get

variable {s : Session} (shaken : Finset String)

theorem Lone.of_stack {s' : Session} (h : Lone s) (hstack : s'.stack = s.stack) : Lone s' :=
  ⟨(congrArg (fun l => (l.filter Frame.isCommand).length) hstack).le.trans h.single, hstack ▸ h.asks⟩

theorem Session.checkHandshake_stack (s : Session) : (s.checkHandshake shaken).stack = s.stack :=
  checkHandshake_keeps (fun _ _ => rfl) shaken s

variable {f : Frame}

/-- An answer for the call at some depth. -/
theorem commands_set {depth : Nat} (hf : s.stack[depth]? = some f) (h : s.commands.length ≤ 1) (f' : Frame)
    (hs : f'.isCommand = f.isCommand) :
    (f.isCommand = true → s.commands = [f] ∧ (s.stack.set depth f').filter Frame.isCommand = [f']) ∧
      (f.isCommand = false → (s.stack.set depth f').filter Frame.isCommand = s.commands) := by
  obtain ⟨hlt, rfl⟩ := List.getElem?_eq_some_iff.mp hf
  obtain ⟨l₁, l₂, hstack, _, hse⟩ :
      ∃ l₁ l₂, s.stack = l₁ ++ s.stack[depth] :: l₂ ∧ l₁.length = depth ∧
        s.stack.set depth f' = l₁ ++ f' :: l₂ :=
    exists_of_set hlt
  have hcommands : s.commands = l₁.filter Frame.isCommand ++ (s.stack[depth] :: l₂).filter Frame.isCommand := by
    rw [Session.commands, ← filter_append, ← hstack]
  rw [hse, filter_append]
  constructor
  · intro hc
    rw [filter_cons_of_pos hc] at hcommands
    rw [hcommands, length_append, length_cons] at h
    have h₁ : l₁.filter Frame.isCommand = [] := length_eq_zero_iff.mp (by omega)
    have h₂ : l₂.filter Frame.isCommand = [] := length_eq_zero_iff.mp (by omega)
    rw [h₁, h₂] at hcommands
    rw [filter_cons_of_pos (hs.trans hc), h₁, h₂]
    exact ⟨hcommands, rfl⟩
  · intro hc
    rw [filter_cons_of_neg (by simp [hc])] at hcommands
    rw [filter_cons_of_neg (by simp [hs, hc]), hcommands]

/-- The innermost call is over. -/
theorem commands_pop {rest : List Frame} (hstack : s.stack = f :: rest) (h : s.commands.length ≤ 1) :
    (f.isCommand = true → s.commands = [f] ∧ { s with stack := rest }.commands = []) ∧
      (f.isCommand = false → { s with stack := rest }.commands = s.commands) := by
  have hcommands : s.commands = (f :: rest).filter Frame.isCommand := by rw [Session.commands, hstack]
  constructor
  · intro hc
    rw [filter_cons_of_pos hc] at hcommands
    rw [hcommands, length_cons] at h
    have hrest : rest.filter Frame.isCommand = [] := length_eq_zero_iff.mp (by omega)
    rw [hrest] at hcommands
    exact ⟨hcommands, hrest⟩
  · intro hc
    rw [filter_cons_of_neg (by simp [hc])] at hcommands
    exact hcommands.symm

/-- A command that goes on, on top of no other. -/
theorem Lone.proceed (hno : s.commands = []) (ha : ∀ f ∈ s.stack, f.isCommand = false → f.wait.message = .get)
    (client : Option Nat) (request : Request) (o : Outcome Core Event Wait Answer) :
    Lone (s.proceed client request o) := by
  refine ⟨?_, ?_⟩
  · rw [Session.proceed_commands client request o s hno]
    exact Session.waiting_length client request o
  · rw [Session.proceed_stack]
    intro f hf hc
    rcases mem_append.mp hf with hf | hf
    · rw [← Session.waiting_commands] at hf
      exact absurd ((mem_filter.mp hf).2.symm.trans hc) (by decide)
    · exact ha f hf hc

theorem Lone.ask (h : Lone s) (client : Option Nat) {a : Activity}
    (ho : Frame.isCommand ⟨client, a, ⟨.get, true⟩, s.core.generation, none⟩ = false) :
    Lone (s.ask client a) := by
  refine ⟨?_, ?_⟩
  · rw [Session.commands, Session.ask, filter_cons_of_neg (by simp [ho])]
    exact h.single
  · intro f hf hc
    rcases mem_cons.mp hf with rfl | hf
    · rfl
    · exact h.asks f hf hc

variable (c : Choice)

theorem Lone.step (s : Session) (hgu : Single c s) (h : Lone s) : Lone (c.step qt s) := by
  have hgo := c.step_goes qt s
  generalize c.step qt s = s' at hgo
  cases hgo with
  | idle => exact h
  | request client command => exact proceed (s := { s with requests := command :: s.requests }) hgu h.asks _ _ _
  | status client => exact h.ask _ rfl
  | check => exact ask (s := { s with timer := false }) (h.of_stack rfl) _ rfl
  | checkFails => exact h.of_stack (Session.checkHandshake_stack _ _)
  | handle depth shaken f hf =>
    have hs := commands_set hf h.single { f with answer := some (f.wait.answer shaken s.core) } rfl
    refine ⟨?_, ?_⟩
    · cases hc : f.isCommand with
      | true => exact (congrArg List.length (hs.1 hc).2).le
      | false => exact (congrArg List.length (hs.2 hc)).le.trans h.single
    · intro g hg hc
      rcases mem_or_eq_of_mem_set hg with hg | rfl
      · exact h.asks g hg hc
      · exact h.asks f (mem_of_getElem? hf) hc
  | wake read f rest hstack =>
    have hp := commands_pop hstack h.single
    have ha : ∀ g ∈ rest, g.isCommand = false → g.wait.message = .get :=
      fun g hg => h.asks g (hstack ▸ mem_cons_of_mem _ hg)
    have hrest : f.isCommand = false → Lone { s with stack := rest } := fun hc => ⟨(hp.2 hc) ▸ h.single, ha⟩
    unfold Session.wake
    cases hact : f.activity with
    | command request resume => exact .proceed (hp.1 (by simp [Frame.isCommand, hact])).2 ha _ _ _
    | check => exact (hrest (by simp [Frame.isCommand, hact])).of_stack (Session.checkHandshake_stack _ _)
    | status => exact hrest (by simp [Frame.isCommand, hact])
  | died => exact h.of_stack rfl

/-! ## What a step is for the commands -/

/-- The ways in which a choice can go for the command in progress: it is not concerned, or it begins, its message is
handled, it goes on, or the process ends. -/
inductive Advances (qt : Qt) (s : Session) : Choice → Session → Prop
  | apart {c : Choice} {s' : Session} (hcore : s'.core = s.core) (hrequests : s'.requests = s.requests)
    (hcommands : s'.commands = s.commands) : Advances qt s c s'
  | request (client : Nat) (command : Request) : Advances qt s (.request client command)
      ({ s with requests := command :: s.requests }.proceed (some client) command (command.task qt s.core))
  | handle (depth : Nat) (shaken : Finset String) (f : Frame) {s' : Session} (hold : s.commands = [f])
    (hreaches : f.reaches s.core = true) (hcore : s'.core = f.wait.handled s.core)
    (hrequests : s'.requests = s.requests)
    (hnew : s'.commands = [{ f with answer := some (f.wait.answer shaken s.core) }]) : Advances qt s
      (.handle depth shaken) s'
  | wake (read : Bool) (f : Frame) (rest : List Frame) (request : Request)
    (resume : Answer → Core → Outcome Core Event Wait Answer) (hact : f.activity = .command request resume)
    (hold : s.commands = [f]) (hrest : { s with stack := rest }.commands = []) : Advances qt s (.resume read)
      ({ s with stack := rest }.proceed f.client request (resume (if read then f.answer.join else none) s.core))
  | died : Advances qt s .die { s with core := s.core.onHost Backend.died }

theorem handled_get {w : Wait} (h : w.message = .get) (c : Core) : w.handled c = c := by
  unfold Wait.handled
  rw [h]
  split <;> rfl

/-- A check does not concern the commands. -/
theorem Advances.of_check {c : Choice} {s' : Session} (hcore : s'.core = s.core) (hrequests : s'.requests = s.requests)
    (hcommands : s'.commands = s.commands) : Advances qt s c (s'.checkHandshake shaken) := by
  refine .apart ((s'.checkHandshake_core shaken).trans hcore) ?_ ?_
  · exact (Session.checkHandshake_keeps (g := Session.requests) (fun _ _ => rfl) shaken s').trans hrequests
  · exact (Session.checkHandshake_keeps (g := Session.commands) (fun _ _ => rfl) shaken s').trans hcommands

theorem Lone.advances (h : Lone s) (c : Choice) : Advances qt s c (c.step qt s) := by
  have hg := c.step_goes qt s
  generalize c.step qt s = s' at hg
  cases hg with
  | idle => exact .apart rfl rfl rfl
  | request client command => exact .request client command
  | status client => exact .apart rfl rfl (filter_cons_of_neg (by simp [Frame.isCommand]))
  | check => exact .apart rfl rfl (filter_cons_of_neg (by simp [Frame.isCommand]))
  | checkFails => exact .of_check _ rfl rfl rfl
  | handle depth shaken f hf hreaches =>
    have hs := commands_set hf h.single { f with answer := some (f.wait.answer shaken s.core) } rfl
    cases hc : f.isCommand with
    | true => exact .handle depth shaken f (hs.1 hc).1 hreaches rfl rfl (hs.1 hc).2
    | false => exact .apart (handled_get (h.asks f (mem_of_getElem? hf) hc) _) rfl (hs.2 hc)
  | wake read f rest hstack =>
    have hp := commands_pop hstack h.single
    unfold Session.wake
    cases hact : f.activity with
    | command request resume =>
      have hc : f.isCommand = true := by simp [Frame.isCommand, hact]
      exact .wake read f rest request resume hact (hp.1 hc).1 (hp.1 hc).2
    | check => exact .of_check _ rfl rfl (hp.2 (by simp [Frame.isCommand, hact]))
    | status => exact .apart rfl rfl (hp.2 (by simp [Frame.isCommand, hact]))
  | died => exact .died

/-! ## A run without nesting -/

/-- A session in which only the commands of the other one have begun. -/
structure Follows (s s' : Session) : Prop where
  core : s'.core = s.core
  requests : s'.requests = s.requests
  stack : s'.stack = s.commands

namespace Follows

variable {s s' : Session}

theorem proceed (h : Follows s s') (hno : s.commands = []) (client : Option Nat) (request : Request)
    (o : Outcome Core Event Wait Answer) : Follows (s.proceed client request o) (s'.proceed client request o) := by
  refine ⟨?_, ?_, ?_⟩
  · rw [Session.proceed_core, Session.proceed_core]
  · rw [Session.proceed_requests, Session.proceed_requests]
    exact h.requests
  · rw [Session.proceed_stack, Session.proceed_commands client request o s hno, h.stack, hno, append_nil]

theorem step (hg : Single c s) (hl : Lone s) (h : Follows s s') :
    ∃ ops, Guarded (Choice.step qt) Alone ops s' ∧ Follows (c.step qt s) (run (Choice.step qt) ops s') := by
  have ha : Advances qt s c (c.step qt s) := hl.advances c
  generalize c.step qt s = t at ha
  cases ha with
  | apart hcore hrequests hcommands =>
    exact ⟨[], trivial, h.core.trans hcore.symm, h.requests.trans hrequests.symm, h.stack.trans hcommands.symm⟩
  | request client command =>
    have he : s'.stack = [] := h.stack.trans hg
    have hs : Choice.step qt (.request client command) s' =
        { s' with requests := command :: s'.requests }.proceed (some client) command (command.task qt s.core) := by
      simp [Choice.step, Session.busy, he, h.core]
    refine ⟨[.request client command], ⟨he, trivial⟩, ?_⟩
    have hb : Follows { s with requests := command :: s.requests } { s' with requests := command :: s'.requests } :=
      ⟨h.core, congrArg (command :: ·) h.requests, h.stack⟩
    rw [run_cons, run_nil, hs]
    exact hb.proceed hg _ _ _
  | handle depth shaken f hold hreaches hcore hrequests hnew =>
    -- in the other session nothing lies on top of the command
    have hstack : s'.stack = [f] := h.stack.trans hold
    refine ⟨[.handle 0 shaken], ⟨trivial, trivial⟩, ?_⟩
    rw [run_cons, run_nil]
    simp only [Choice.step, hstack, getElem?_cons_zero, h.core, hreaches, if_true]
    exact ⟨hcore.symm, h.requests.trans hrequests.symm, hnew.symm⟩
  | wake read f rest request resume hact hold hrest =>
    have hstack : s'.stack = [f] := h.stack.trans hold
    have hs : Choice.step qt (.resume read) s' = { s' with stack := [] }.proceed f.client request
        (resume (if read then f.answer.join else none) s.core) := by
      simp [Choice.step, hstack, Session.wake, hact, h.core]
    refine ⟨[.resume read], ⟨trivial, trivial⟩, ?_⟩
    rw [run_cons, run_nil, hs]
    have hp : Follows { s with stack := rest } { s' with stack := [] } := ⟨h.core, h.requests, hrest.symm⟩
    exact hp.proceed hrest _ _ _
  | died => exact ⟨[.die], ⟨trivial, trivial⟩, congrArg (Core.onHost Backend.died) h.core, h.requests, h.stack⟩

theorem run {ops : List Choice} (hg : Guarded (Choice.step qt) Single ops s) (hl : Lone s) (h : Follows s s') :
    ∃ ops', Guarded (Choice.step qt) Alone ops' s' ∧
      Follows (run (Choice.step qt) ops s) (run (Choice.step qt) ops' s') := by
  induction ops generalizing s s' with
  | nil => exact ⟨[], trivial, h⟩
  | cons c ops ih =>
    obtain ⟨first, hfi, hnext⟩ := h.step c hg.1 hl
    obtain ⟨rest, hrest, he⟩ := ih hg.2 (hl.step c s hg.1) hnext
    refine ⟨first ++ rest, hfi.append hrest, ?_⟩
    rw [run_cons, run_append]
    exact he

end Follows

/-! ## Connections with their peers -/

/-- What can happen while a command waits and nothing else changes anything: the process handles the message or does
not, and the answer is read or lost. -/
def Allowed (w : Wait) (c : Core) (a : Answer) (c' : Core) : Prop :=
  (c' = c ∧ a = none) ∨ (c' = w.handled c ∧ ∃ shaken, a = none ∨ a = w.answer shaken c)

namespace Reentrant

/-- A condition on the connections, the interface and the accepted peers, which more accepted peers do not break. -/
def Viewed (P : Core → Prop) : Prop :=
  ∀ {c c' : Core}, held c'.daemon = held c.daemon → c.accepted ⊆ c'.accepted → P c → P c'

theorem handled_held (w : Wait) (c : Core) :
    held (w.handled c).daemon = held c.daemon ∧ c.accepted ⊆ (w.handled c).accepted := by
  unfold Wait.handled
  split
  · cases w.message with
    | peer key => exact ⟨rfl, Finset.subset_insert key _⟩
    | name | interface | remove | get => exact ⟨rfl, Finset.Subset.refl _⟩
  · exact ⟨rfl, Finset.Subset.refl _⟩

theorem Viewed.allowed {P : Core → Prop} (hP : Viewed P) {w : Wait} {c c' : Core} {a : Answer} (h : Allowed w c a c')
    (hc : P c) :
    P c' := by
  rcases h with ⟨rfl, _⟩ | ⟨rfl, _⟩
  · exact hc
  · exact hP (handled_held w c).1 (handled_held w c).2 hc

section Triples

variable {P : Core → Prop}

theorem triple_onDaemon (hP : Viewed P) {s : Step (State Backend)} (hs : Step.Keeps held s) :
    Task.Triple Allowed P (onDaemon s) fun _ => P := .lift fun c hc => hP (hs c.daemon) (Finset.Subset.refl _) hc

theorem triple_uapi (hP : Viewed P) (accepted : Bool) (m : Message) :
    Task.Triple Allowed P (uapi accepted m) fun _ => P :=
  .ite (.call fun _ _ _ hc ha => hP.allowed ha hc.1) (.lift fun _ hc => hc.1)

/-- The peer is accepted when the call succeeds. -/
theorem triple_updatePeer (hP : Viewed P) (r : Reply) (config : InterfaceConfig) :
    Task.Triple Allowed P (updatePeer qt r config) fun ok c => P c ∧
    (ok = true → config.serverPublicKey ∈ c.accepted) := by
  have hu : Task.Triple Allowed P (uapi (r.request 2) (.peer config.serverPublicKey))
      fun ok c => P c ∧ (ok = true → config.serverPublicKey ∈ c.accepted) := by
    refine .ite (.call fun c a c' hc ha => ⟨hP.allowed ha hc.1, fun hs => ?_⟩) (.lift fun _ hc => ⟨hc.1, nofun⟩)
    rcases ha with ⟨_, rfl⟩ | ⟨rfl, shaken, rfl | rfl⟩
    · cases hs
    · cases hs
    · cases hac : r.request 2 with
      | true => simp [Wait.handled, Message.effect]
      | false => simp [Wait.answer, hac] at hs
  unfold updatePeer
  split
  · exact .lift fun _ hc => ⟨hc, nofun⟩
  · exact .seq (triple_onDaemon hP (held_addRoutes r config)) hu fun _ hc => ⟨hc, nofun⟩

theorem triple_deletePeer (hP : Viewed P) (r : Reply) (config : InterfaceConfig) :
    Task.Triple Allowed P (deletePeer qt r config) fun _ => P :=
  .seq (triple_onDaemon hP (held_deleteRoutes r config)) (triple_uapi hP _ _) fun _ hc => hc

end Triples

def Good (c : Core) : Prop := Fit c ∧ c.running = true

def Joined (key : String) (c : Core) : Prop := Good c ∧ key ∈ c.accepted

def Unconnected (c : Core) : Prop := ∀ hop, c.daemon.connections hop = none

theorem viewed_fit : Viewed Fit := by
  intro c c' hh ha h hop config hc
  obtain ⟨hrunning, hkey⟩ := h hop config ((congrFun (congrArg Prod.fst hh) hop).symm.trans hc)
  exact ⟨(congrArg Prod.snd hh).trans hrunning, ha hkey⟩

theorem viewed_good : Viewed Good := fun hh ha h =>
  ⟨viewed_fit hh ha h.1, (congrArg Prod.snd hh).trans h.2⟩

theorem viewed_joined (key : String) : Viewed (Joined key) := fun hh ha h =>
  ⟨viewed_good hh ha h.1, ha h.2⟩

theorem viewed_unconnected : Viewed Unconnected := fun hh _ h hop => (congrFun (congrArg Prod.fst hh) hop).trans (h hop)

theorem Unconnected.fit {c : Core} (h : Unconnected c) : Fit c := fun hop _ hc =>
  absurd ((h hop).symm.trans hc) nofun

theorem unconnected_of_fit {c : Core} (h : Fit c) (hdown : c.running = false) : Unconnected c := by
  intro hop
  cases hc : c.daemon.connections hop with
  | none => rfl
  | some config => exact absurd ((h hop config hc).1.symm.trans hdown) (by decide)

/-- The entry that is stored has its peer. -/
theorem triple_store (config : InterfaceConfig) :
    Task.Triple Allowed (Joined config.serverPublicKey) (store config) fun _ => Joined config.serverPublicKey := by
  refine .seq (Q := fun _ => Joined config.serverPublicKey) (.lift fun c hc => ⟨⟨?_, hc.1.2⟩, hc.2⟩)
    (.emit fun _ hc => hc) fun _ hc => hc
  intro hop config' hco
  by_cases hh : hop = config.hopType
  · subst hh
    have hcon : config = config' := by simpa [onDaemon, State.store] using hco
    subst hcon
    exact ⟨hc.1.2, hc.2⟩
  · have hold : c.daemon.connections hop = some config' := by simpa [onDaemon, State.store, hh] using hco
    exact hc.1.1 hop config' hold

theorem triple_finish (config : InterfaceConfig) :
    Task.Triple Allowed (Joined config.serverPublicKey) (finish config) fun _ => Fit :=
  .seq (triple_store config) (.emit fun _ hc => hc.1.1) fun _ hc => hc.1.1

theorem triple_deactivate (emitSignals : Bool) (r : DownReplies) :
    Task.Triple Allowed Fit (deactivate qt emitSignals r) fun _ => Fit := by
  have hem : Task.Triple Allowed Fit (if emitSignals then .emit .disconnected else .lift .skip : DaemonTask)
      fun _ => Fit := by
    split
    · exact .emit fun _ hc => hc
    · exact .lift fun _ hc => hc
  have he : Task.Triple Allowed Fit (.ite Core.running (.lift .skip) (.lift .stop) : DaemonTask)
      fun ok c => Fit c ∧ (ok = true → c.running = true) :=
    .ite (.lift fun _ hc => ⟨hc.1, fun _ => hc.2⟩) (.lift fun _ hc => ⟨hc.1, nofun⟩)
  have hbody : ∀ hop, Task.Triple Allowed Good (removePeer qt r hop) fun _ => Good := by
    intro hop c hc
    unfold removePeer
    split
    · exact hc
    · exact Task.Triple.seq (triple_onDaemon viewed_good (.each (fun _ _ => held_deleteRoutePrefix _ _) _))
        (triple_deletePeer viewed_good _ _) (fun _ hc => hc) c hc
  -- with an interface it can be deleted, and then the connections go
  have hd : Task.Triple Allowed Good
      (.seq (onDaemon (State.onBackend ((platform .linux qt).deleteInterface r.deleteInterface)))
        (onDaemon (.update fun d => { d with connections := fun _ => none }))) fun _ => Fit := by
    refine .seq (Q := fun ok _ => ok = true) (.lift fun c hc => ?_)
      (.lift fun _ _ => Unconnected.fit fun _ => rfl) nofun
    exact (deleteInterface_spec r.deleteInterface c.daemon.backend).1.trans hc.2
  have ht : Task.Triple Allowed Good (.seq (.each (removePeer qt r) hopTypes)
      (.seq (onDaemon (State.removeExclusions (platform .linux qt) r)) _)) fun _ => Fit :=
    .seq (.each hbody _) (.seq (triple_onDaemon viewed_good (held_removeExclusions r)) hd fun _ hc => hc.1)
      fun _ hc => hc.1
  refine .seq (triple_onDaemon viewed_fit (held_runDown r)) (.seq hem (.seq (triple_onDaemon viewed_fit fun _ => rfl)
    (.seq he ?_ fun _ hc => hc.1) fun _ hc => hc) fun _ hc => hc) fun _ hc => hc
  exact fun c hc => ht c ⟨hc.1, hc.2 rfl⟩

theorem triple_addInterface (r : Reply) (config : InterfaceConfig) :
    Task.Triple Allowed Unconnected (addInterface qt r config) fun ok c => Unconnected c ∧
    (ok = true → c.running = true) := by
  have hv : Viewed fun c => Unconnected c ∧ c.running = true := fun hh hac h =>
    ⟨viewed_unconnected hh hac h.1, (congrArg Prod.snd hh).trans h.2⟩
  have hna : ∀ found, Task.Triple Allowed Unconnected (tunnelName found)
      fun ok c => Unconnected c ∧ (ok = true → c.running = true) := by
    intro found c hc a c' ha
    have hc' := viewed_unconnected.allowed ha hc
    dsimp only
    split
    · rename_i hfo
      simp only [Bool.and_eq_true] at hfo
      exact ⟨hc', fun _ => hfo.2⟩
    · exact ⟨hc', nofun⟩
  refine .ite (.lift fun _ hc => ⟨hc.1, nofun⟩) ?_
  split
  · exact .lift fun _ hc => ⟨hc.1, nofun⟩
  · refine .seq (Q := fun _ => Unconnected) (.lift fun _ hc => hc.1)
      (.seq (hna _) (.seq (Q := fun _ c => Unconnected c ∧ c.running = true)
      (.lift fun _ hc => ⟨hc.1, hc.2 rfl⟩) (.seq (triple_uapi hv _ _) (.lift fun _ hc => ⟨hc.1, fun _ => hc.2⟩)
      fun _ hc => ⟨hc.1, nofun⟩) fun _ hc => ⟨hc.1, nofun⟩) fun _ hc => ⟨hc.1, nofun⟩)
        fun _ hc => ⟨hc, nofun⟩

theorem triple_activateFresh (r : FreshReplies) (config : InterfaceConfig) :
    Task.Triple Allowed Fit (activateFresh qt r config) fun _ => Fit := by
  have hup : Task.Triple Allowed Fit (bringUp qt r.addInterface config) fun ok c => Fit c ∧
      (ok = true → c.running = true) := by
    refine .ite (.lift fun _ hc => ⟨hc.1, fun _ => hc.2⟩) fun c hc => ?_
    exact (triple_addInterface r.addInterface config c (unconnected_of_fit hc.1 hc.2)).mono fun ok c hc =>
      ⟨hc.1.fit, hc.2⟩
  have hp : Task.Triple Allowed Good (.seq (updatePeer qt r.updatePeer config)
      (.seq (onDaemon (configureRest qt r config)) (finish config))) fun _ => Fit := by
    refine .seq (triple_updatePeer viewed_good _ _) ?_ fun _ hc => hc.1.1
    refine fun c hc =>
      Task.Triple.seq (triple_onDaemon (viewed_joined config.serverPublicKey) (held_configureRest r config))
      (triple_finish config) (fun _ hc => hc.1.1) c ⟨hc.1, hc.2 rfl⟩
  refine .seq hup (fun c hc => ?_) fun _ hc => hc.1
  exact Task.Triple.seq (triple_onDaemon viewed_good (held_addExclusions _ _)) hp (fun _ hc => hc.1) c
    ⟨hc.1, hc.2 rfl⟩

theorem triple_switchServer (r : SwitchReplies) (lastConfig config : InterfaceConfig) :
    Task.Triple Allowed Good (switchServer qt r lastConfig config)
      fun ok c => Fit c ∧ (ok = true → Joined config.serverPublicKey c) := by
  have hv : Viewed (Joined config.serverPublicKey) := viewed_joined _
  have hp : Task.Triple Allowed (Joined config.serverPublicKey)
    (if config.serverPublicKey ≠ lastConfig.serverPublicKey
      then deletePeer qt r.deletePeer lastConfig else .lift .skip : DaemonTask) fun _ =>
        Joined config.serverPublicKey := by
    split
    · exact triple_deletePeer hv _ _
    · exact .lift fun _ hc => hc
  have hrest : Task.Triple Allowed (Joined config.serverPublicKey)
      (.seq (onDaemon (State.switchRoutes (platform .linux qt) r config)) <|
      .seq (onDaemon (State.delExclusions (platform .linux qt) qt r lastConfig)) <|
      .seq (onDaemon (removeLastRoutes qt r lastConfig config)) <| .seq _ (store config)) fun _ =>
        Joined config.serverPublicKey :=
    .seq (triple_onDaemon hv (held_switchRoutes r config)) (.seq (triple_onDaemon hv (held_delExclusions r lastConfig))
      (.seq (triple_onDaemon hv (held_removeLastRoutes r lastConfig config)) (.seq hp (triple_store config)
        fun _ hc => hc) fun _ hc => hc) fun _ hc => hc) fun _ hc => hc
  refine .seq (triple_onDaemon viewed_good (held_addExclusions _ _))
    (.seq (triple_updatePeer viewed_good _ _) (fun c hc => ?_)
    fun _ hc => ⟨hc.1.1, nofun⟩) fun _ hc => ⟨hc.1, nofun⟩
  exact (hrest c ⟨hc.1, hc.2 rfl⟩).mono fun ok c hc => ⟨hc.1.1, fun _ => hc⟩

theorem triple_activate (r : Replies) (config : InterfaceConfig) :
    Task.Triple Allowed Fit (activate qt r config) fun _ => Fit := by
  refine .seq (Q := fun _ => Fit) (.emit fun _ hc => hc) (fun c hc => ?_) fun _ hc => hc
  unfold activateBody
  split
  · exact triple_activateFresh _ _ c hc
  · rename_i lastConfig hlast
    split
    · have ha : Task.Triple Allowed (Joined config.serverPublicKey) (afterSwitch qt r.switch config) fun _ => Fit :=
        .seq (triple_onDaemon (viewed_joined _) fun _ => rfl)
          (.seq (triple_onDaemon (viewed_joined _) (held_maybeUpdateResolvers _ _))
          (.seq (triple_onDaemon (viewed_joined _) fun _ => rfl) (triple_finish config) fun _ hc => hc.1.1)
          fun _ hc => hc.1.1) fun _ hc => hc.1.1
      exact Task.Triple.seq (triple_switchServer _ _ _) (fun c hc => ha c (hc.2 rfl)) (fun _ hc => hc.1) c
        ⟨hc, (hc _ _ hlast).1⟩
    · exact Task.Triple.seq (triple_deactivate false _)
        (.seq (Q := fun _ => Fit) (.emit fun _ hc => hc) (triple_activateFresh _ _)
        fun _ hc => hc) (fun _ hc => hc) c hc

end Reentrant

theorem Request.triple (request : Request) : Task.Triple Allowed Fit (request.task qt) fun _ => Fit := by
  cases request with
  | activate r config => exact Reentrant.triple_activate r config
  | deactivate r => exact Reentrant.triple_deactivate true r

/-- However its wait ends, the command comes to a fit daemon. -/
def Frame.Pending (f : Frame) (c : Core) : Prop :=
  match f.activity with
  | .command _ resume =>
    (∀ a, a = none ∨ f.answer = some a → (resume a c).Ends Allowed fun _ => Fit) ∧
      (f.answer = none → ∀ a c', Allowed f.wait c a c' → (resume a c').Ends Allowed fun _ => Fit)
  | .check | .status => True

/-- Between commands the daemon is fit, and a command in progress will leave it so. -/
structure Sound (s : Session) : Prop where
  lone : Lone s
  fit : s.commands = [] → Fit s.core
  pending : ∀ f, s.commands = [f] → f.Pending s.core

namespace Sound

variable {s : Session}

theorem congr {s' : Session} (h : Sound s) (hl : Lone s') (hcore : s'.core = s.core)
    (hcommands : s'.commands = s.commands) :
    Sound s' := by
  refine ⟨hl, ?_, ?_⟩
  · rw [hcore, hcommands]
    exact h.fit
  · rw [hcore, hcommands]
    exact h.pending

theorem proceed {client : Option Nat} {request : Request} {o : Outcome Core Event Wait Answer} (hno : s.commands = [])
    (ho : o.Ends Allowed fun _ => Fit) (hl : Lone (s.proceed client request o)) :
    Sound (s.proceed client request o) := by
  refine ⟨hl, ?_, ?_⟩ <;> rw [Session.proceed_commands client request o s hno, Session.proceed_core] <;>
    clear hl
  · intro hd
    induction o with
    | done ok c => exact ho
    | emit e rest ih => exact ih ho hd
    | wait w c resume => cases hd
  · intro f hf
    induction o with
    | done ok c => cases hf
    | emit e rest ih => exact ih ho hf
    | wait w c resume =>
      cases hf
      refine ⟨fun a ha => ?_, fun _ a c' ha => ho a c' ha⟩
      rcases ha with rfl | ha
      · exact ho none c (.inl ⟨rfl, rfl⟩)
      · cases ha

theorem pending_answered {c : Core} (hreaches : f.reaches c = true) (h : f.Pending c) :
    Frame.Pending { f with answer := some (f.wait.answer shaken c) } (f.wait.handled c) := by
  have hu : f.answer = none := by
    simp only [Frame.reaches, Bool.and_eq_true, Option.isNone_iff_eq_none] at hreaches
    exact hreaches.1.2
  unfold Frame.Pending at h ⊢
  split
  · rename_i request resume hact
    rw [hact] at h
    refine ⟨fun a ha => ?_, nofun⟩
    refine h.2 hu a _ (.inr ⟨rfl, shaken, ?_⟩)
    exact ha.imp_right fun heq => (Option.some.inj heq).symm
  · trivial
  · trivial

theorem pending_resumed {c : Core} {request : Request} {resume : Answer → Core → Outcome Core Event Wait Answer}
    (hact : f.activity = .command request resume) (h : f.Pending c) (read : Bool) :
    (resume (if read then f.answer.join else none) c).Ends Allowed fun _ => Fit := by
  unfold Frame.Pending at h
  rw [hact] at h
  refine h.1 _ ?_
  cases read with
  | false => exact .inl rfl
  | true =>
    cases ha : f.answer with
    | none => exact .inl rfl
    | some a => exact .inr rfl

theorem step (s : Session) (hgu : Single c s) (hli : c ≠ .die) (h : Sound s) : Sound (c.step qt s) := by
  have ha : Advances qt s c (c.step qt s) := h.lone.advances c
  have hl : Lone (c.step qt s) := h.lone.step c s hgu
  generalize c.step qt s = s' at ha hl
  cases ha with
  | apart hcore _ hcommands => exact h.congr hl hcore hcommands
  | request client command => exact proceed hgu (command.triple _ (h.fit hgu)) hl
  | handle depth shaken f hold hreaches hcore _ hnew =>
    refine ⟨hl, fun hno => absurd (hnew.symm.trans hno) nofun, fun g hg => ?_⟩
    obtain rfl := (List.cons.inj (hnew.symm.trans hg)).1
    rw [hcore]
    exact pending_answered shaken hreaches (h.pending f hold)
  | wake read f rest request resume hact hold hrest =>
    exact proceed hrest (pending_resumed hact (h.pending f hold) read) hl
  | died => exact absurd rfl hli

end Sound

theorem Session.start_lone : Lone .start := ⟨Nat.zero_le 1, by simp [Session.start]⟩

theorem Session.start_sound : Sound .start :=
  ⟨start_lone, fun _ => Reentrant.Unconnected.fit fun _ => rfl, by simp [Session.commands, Session.start]⟩

theorem run_fit {ops : List Choice} (hg : Guarded (Choice.step qt) Single ops .start) (hl : Choice.die ∉ ops)
    (hq : (run (Choice.step qt) ops .start).commands = []) : Fit (run (Choice.step qt) ops .start).core := by
  have hb : Guarded (Choice.step qt) (fun c s => Single c s ∧ c ≠ .die) ops .start :=
    hg.and_of_mem fun c hc heq => hl (heq ▸ hc)
  have hs : Sound (run (Choice.step qt) ops .start) :=
    run_invariant_of_guarded (fun c s hc h => h.step c s hc.1 hc.2) ops hb Session.start_sound
  exact hs.fit hq

theorem single_of_alone (s : Session) (h : Alone c s) : Single c s := by
  cases c with
  | request client command => exact congrArg (List.filter Frame.isCommand) h
  | status | timeout | handle | resume | die => trivial

/-- **Commands one after the other.** Take any run, with any number of clients, in which no command begins while another
one is in progress; checks and status requests may run inside the commands. Where no command is in progress, the daemon
is as after a run with the same commands and no nesting at all; and as long as the tunnel process does not end on its
own, every stored connection has an interface that has accepted its peer. -/
theorem commands_serialised {ops : List Choice} (hguard : Guarded (Choice.step qt) Single ops .start)
    (hquiet : (run (Choice.step qt) ops .start).commands = []) :
    (∃ ops', Guarded (Choice.step qt) Alone ops' .start ∧ (run (Choice.step qt) ops' .start).stack = [] ∧
      (run (Choice.step qt) ops' .start).requests = (run (Choice.step qt) ops .start).requests ∧
      (run (Choice.step qt) ops' .start).core.daemon = (run (Choice.step qt) ops .start).core.daemon) ∧
    (Choice.die ∉ ops → Fit (run (Choice.step qt) ops .start).core) := by
  constructor
  · have hst : Follows .start .start := ⟨rfl, rfl, rfl⟩
    obtain ⟨ops', hs, he⟩ := hst.run hguard Session.start_lone
    exact ⟨ops', hs, he.stack.trans hquiet, he.requests, congrArg Core.daemon he.core⟩
  · exact fun hl => run_fit hguard hl hquiet

/-! ## Examples -/

section Examples

instance : ∀ c s, Decidable (Single c s)
  | .request _ _, s => decidable_of_iff (s.commands.isEmpty = true) List.isEmpty_iff
  | .status _, _ | .timeout, _ | .handle .., _ | .resume _, _ | .die, _ => inferInstanceAs (Decidable True)

/-- One client activates and a second one, inside a check, deactivates. -/
def serialRun : List Choice :=
  activation sampleConfig ++ [.timeout, .request 2 (.deactivate .ok)] ++ answered ++ [.resume true]

/-- The interface is gone when the resolvers are set. -/
def lateReplies : Replies := { Replies.ok with switch := { SwitchReplies.ok with updateResolvers := .failAt 0 } }

/-- The first client switches servers, and the second one deactivates while the switch waits for the peer. -/
def nestedRun : List Choice :=
  activation sampleConfig ++
    [.request 1 (.activate lateReplies sampleConfig), .handle 0 ∅, .request 2 (.deactivate .ok)] ++
    answered ++ [.resume true]

theorem commands_serialised_sample : (Guarded (Choice.step Linux.sampleQt) Single serialRun .start ∧
    (run (Choice.step Linux.sampleQt) serialRun .start).commands = []) ∧
    Fit (run (Choice.step Linux.sampleQt) serialRun .start).core :=
  have hg : Guarded (Choice.step Linux.sampleQt) Single serialRun .start := by decide
  have hq : (run (Choice.step Linux.sampleQt) serialRun .start).commands = [] := List.isEmpty_iff.mp (by decide)
  ⟨⟨hg, hq⟩, (commands_serialised hg hq).2 (by simp [serialRun, activation, answered])⟩

/-- The switch stores its connection after the other client's `deactivate` has taken the interface down, which no
commands without nesting do. -/
theorem nested_stores_without_interface : ((run (Choice.step Linux.sampleQt) nestedRun .start).stack.isEmpty = true ∧
      (run (Choice.step Linux.sampleQt) nestedRun .start).core.daemon.connections .singleHop = some sampleConfig ∧
      (run (Choice.step Linux.sampleQt) nestedRun .start).core.daemon.backend.running = false) ∧
    ∀ ops, Guarded (Choice.step Linux.sampleQt) Alone ops .start → Choice.die ∉ ops →
      (run (Choice.step Linux.sampleQt) ops .start).stack = [] →
      (run (Choice.step Linux.sampleQt) ops .start).core.daemon ≠
      (run (Choice.step Linux.sampleQt) nestedRun .start).core.daemon := by
  have hne : (run (Choice.step Linux.sampleQt) nestedRun .start).stack.isEmpty = true ∧
      (run (Choice.step Linux.sampleQt) nestedRun .start).core.daemon.connections .singleHop = some sampleConfig ∧
      (run (Choice.step Linux.sampleQt) nestedRun .start).core.daemon.backend.running = false := by decide
  refine ⟨hne, fun ops hs hl hstack heq => ?_⟩
  have hfi : Fit (run (Choice.step Linux.sampleQt) ops .start).core :=
    run_fit (hs.mono single_of_alone) hl (congrArg (List.filter Frame.isCommand) hstack)
  have hrunning := (hfi .singleHop sampleConfig (heq ▸ hne.2.1)).1
  rw [Core.running, heq, hne.2.2] at hrunning
  cases hrunning

end Examples

end Cimogus.Daemon
