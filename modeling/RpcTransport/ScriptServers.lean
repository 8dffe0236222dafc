import RpcTransport.RunTransports
import RpcTransport.Lib.Transition

/-!
# The script's servers on the default port

`run_echo_test` and then `run_tests` start a server for each transport, run clients against it and
stop it.  `Popen` returns before the server listens, and `terminate` before it has exited; the
script waits for clients only.  All servers bind the same port, since no command names one.

* `step` — the driver and the server processes, one action at a time, in any order;
* `clients_scheduled` — the clients started are those of the two loops, in order;
* `OwnServer` — a client was started while the server of its own iteration was listening;
* `clients_meet_own_server_iff` — the runs in which every client meets its own server;
* `patient_clients_meet_own_server` — a driver that waits for start-up and exit has no other runs.
-/

namespace RpcTransport.RunTransports

/-! ### Commands -/

/-- `server_prog`. -/
def Env.serverProg (t : Transport) : String :=
  if t.name = "flatbuffers" then "fb_rt_server" else "rt_server"

/-- `client_prog`. -/
def Env.clientProg (t : Transport) : String :=
  if t.name = "flatbuffers" then "fb_rt_client" else "rt_client"

/-- A program and its `--transport`. -/
structure Command where
  prog : String
  transport : String
  deriving DecidableEq

/-- The command of `start_server`. -/
def Env.serverCmd (t : Transport) : Command := ⟨Env.serverProg t, t.name⟩

/-- The command of `run_echo_client` and `run_client`, up to the workload's flags. -/
def Env.clientCmd (t : Transport) : Command := ⟨Env.clientProg t, t.name⟩

/-- The transport classes `main` chooses from, in both programs. -/
inductive Service
  | null | flatbuffers | grpc | rsocket | capnproto
  deriving DecidableEq

/-- `flag.find(name) != std::string::npos`. -/
def flagFind (flag name : String) : Bool := decide (name.toList <:+: flag.toList)

/-- The choice of `main`, which depends on the build; `none` is `Unknown transport`. -/
def mainService (enableFlatbuffers : Bool) (flag : String) : Option Service :=
  if flagFind flag "null" then some .null
  else if enableFlatbuffers then
    if flagFind flag "flatbuffers" then some .flatbuffers else none
  else if flagFind flag "grpc" then some .grpc
  else if flagFind flag "rsocket" then some .rsocket
  else if flagFind flag "capnproto" then some .capnproto
  else none

/-- The programs whose names begin with `fb_` are the ones built with flatbuffers. -/
def Command.service (cmd : Command) : Option Service :=
  mainService (cmd.prog = "fb_rt_server" ∨ cmd.prog = "fb_rt_client") cmd.transport

/-- The process comes to listen on the port: `main` knows the transport, and it is not `null`. -/
def Command.listens (cmd : Command) : Bool := cmd.service ≠ none ∧ cmd.service ≠ some .null

def Transport.service : Transport → Service
  | .grpc => .grpc
  | .flatbuffers => .flatbuffers
  | .capnproto => .capnproto

@[simp] theorem service_serverCmd (t : Transport) :
    (Env.serverCmd t).service = some t.service := by
  cases t <;> decide

@[simp] theorem service_clientCmd (t : Transport) :
    (Env.clientCmd t).service = some t.service := by
  cases t <;> decide

@[simp] theorem listens_serverCmd (t : Transport) : (Env.serverCmd t).listens = true := by
  cases t <;> decide

/-! ### The driver and the processes -/

/-- `run_echo_test` comes first, `run_tests` second. -/
inductive Phase
  | echo
  | tests
  deriving DecidableEq

/-- The flags of the call in `run_echo_client`. -/
def Env.echoFlags : ClientFlags where
  workload := .echo
  blockSize := 4096
  blockCount := 2
  opCount := 1

/-- The clients of one iteration: one in `run_echo_client`, the two loops in `run_client`. -/
def Phase.calls (env : Args) : Phase → List ClientFlags
  | .echo => [Env.echoFlags]
  | .tests => (Env.runs env).map (Env.flags env)

/-- An iteration of either loop: the transport, the handle `p` of its server, and the transports
still to come. -/
structure Iteration where
  phase : Phase
  transport : Transport
  server : ℕ
  rest : List Transport

/-- Where the driver is: at the head of a loop; in the `try` block, with the clients still to run;
in `subprocess.run`; in the `finally` block of a failed echo test; or through. -/
inductive Driver
  | loop (phase : Phase) (rest : List Transport)
  | body (it : Iteration) (calls : List ClientFlags)
  | waiting (it : Iteration) (calls : List ClientFlags)
  | raising (it : Iteration)
  | ended (raised : Bool)

/-- A server process.  `started`: it has made its call to bind the port, with or without success. -/
structure Server where
  cmd : Command
  started : Bool := false
  signalled : Bool := false
  exited : Bool := false

/-- A client process as it was started: the handle of the server of its iteration, its command, and
who was listening on the port. -/
structure Client where
  server : ℕ
  cmd : Command
  flags : ClientFlags
  listening : Option (ℕ × Command)

/-- The driver, the server processes by their handles, the process that holds the port, and the
clients started so far. -/
structure World where
  driver : Driver
  servers : List Server := []
  port : Option ℕ := none
  clients : List Client := []

def World.init (env : Args) : World := { driver := .loop .echo env.transports }

/-- The server listening on the port. -/
def World.listening (w : World) : Option (ℕ × Command) :=
  w.port.bind fun p => w.servers[p]?.map fun server => (p, server.cmd)

/-- What can happen next.  The first five are the driver's, `bind` and `exit` those of a server. -/
inductive Action
  | popen
  | endLoop
  | startClient (p : ℕ)
  | endClient (passed : Bool)
  | terminate
  | bind (p : ℕ)
  | exit (p : ℕ)
  deriving DecidableEq

/-- The server's part of `terminate`: a signal, which the process may take any time later. -/
def World.signal (w : World) (p : ℕ) : List Server :=
  w.servers.modify p fun server => { server with signalled := true }

/-- One action. -/
def step (env : Args) (a : Action) (w : World) : Option World :=
  match a with
  | .popen =>
      match w.driver with
      | .loop phase (t :: rest) => some { w with
          driver := .body ⟨phase, t, w.servers.length, rest⟩ (phase.calls env)
          servers := w.servers ++ [{ cmd := Env.serverCmd t }] }
      | _ => none
  | .endLoop =>
      match w.driver with
      | .loop .echo [] => some { w with driver := .loop .tests env.transports }
      | .loop .tests [] => some { w with driver := .ended false }
      | _ => none
  | .startClient p =>
      match w.driver with
      | .body it (flags :: calls) =>
          if p = it.server then some { w with
            driver := .waiting it calls
            clients := w.clients ++ [⟨p, Env.clientCmd it.transport, flags, w.listening⟩] }
          else none
      | _ => none
  | .endClient passed =>
      match w.driver with
      -- only `run_echo_client` looks for `Test passed`
      | .waiting it calls => some { w with
          driver := if it.phase = .echo ∧ passed = false then .raising it else .body it calls }
      | _ => none
  | .terminate =>
      match w.driver with
      | .body it [] => some { w with
          driver := .loop it.phase it.rest
          servers := w.signal it.server }
      | .raising it => some { w with
          driver := .ended true
          servers := w.signal it.server }
      | _ => none
  | .bind p =>
      match w.servers[p]? with
      | some server =>
          if server.started = false ∧ server.exited = false ∧ server.cmd.listens = true then
            some { w with
              servers := w.servers.set p { server with started := true }
              port := if w.port = none then some p else w.port }
          else none
      | none => none
  | .exit p =>
      match w.servers[p]? with
      | some server =>
          -- a signal ends the process, and so does it that there is nothing to listen on
          if server.exited = false ∧ (server.signalled = true ∨
              w.port ≠ some p ∧ (server.started = true ∨ server.cmd.listens = false)) then
            some { w with
              servers := w.servers.set p { server with exited := true }
              port := if w.port = some p then none else w.port }
          else none
      | none => none

/-- A run of the script. -/
abbrev Runs (env : Args) : List Action → World → Prop :=
  Transition.Run (fun a w w' => step env a w = some w') (World.init env)

/-- The client was started while the server of its iteration, which speaks its transport, was
listening. -/
def OwnServer (c : Client) : Prop :=
  ∃ cmd service, c.listening = some (c.server, cmd) ∧ cmd.service = some service ∧
    c.cmd.service = some service

/-! ### What an action does -/

/-- Everything an action can do. -/
inductive Effect (env : Args) (w : World) : Action → World → Prop
  | popen {phase : Phase} {t : Transport} {rest : List Transport}
      (h : w.driver = .loop phase (t :: rest)) :
      Effect env w .popen { w with
        driver := .body ⟨phase, t, w.servers.length, rest⟩ (phase.calls env)
        servers := w.servers ++ [{ cmd := Env.serverCmd t }] }
  | toTests (h : w.driver = .loop .echo []) :
      Effect env w .endLoop { w with driver := .loop .tests env.transports }
  | done (h : w.driver = .loop .tests []) : Effect env w .endLoop { w with driver := .ended false }
  | startClient {it : Iteration} {flags : ClientFlags} {calls : List ClientFlags}
      (h : w.driver = .body it (flags :: calls)) :
      Effect env w (.startClient it.server) { w with
        driver := .waiting it calls
        clients := w.clients ++
          [⟨it.server, Env.clientCmd it.transport, flags, w.listening⟩] }
  | endClient {it : Iteration} {calls : List ClientFlags} (passed : Bool)
      (h : w.driver = .waiting it calls) :
      Effect env w (.endClient passed) { w with
        driver := if it.phase = .echo ∧ passed = false then .raising it else .body it calls }
  | terminate {it : Iteration} (h : w.driver = .body it []) :
      Effect env w .terminate { w with
        driver := .loop it.phase it.rest
        servers := w.signal it.server }
  | reraise {it : Iteration} (h : w.driver = .raising it) :
      Effect env w .terminate { w with driver := .ended true, servers := w.signal it.server }
  | bind {p : ℕ} {server : Server} (h : w.servers[p]? = some server)
      (hstarted : server.started = false) (hexited : server.exited = false)
      (hlistens : server.cmd.listens = true) :
      Effect env w (.bind p) { w with
        servers := w.servers.set p { server with started := true }
        port := if w.port = none then some p else w.port }
  | exit {p : ℕ} {server : Server} (h : w.servers[p]? = some server)
      (hexited : server.exited = false)
      (hcause : server.signalled = true ∨
        w.port ≠ some p ∧ (server.started = true ∨ server.cmd.listens = false)) :
      Effect env w (.exit p) { w with
        servers := w.servers.set p { server with exited := true }
        port := if w.port = some p then none else w.port }

theorem step_effect {env : Args} {a : Action} {w w' : World} (h : step env a w = some w') :
    Effect env w a w' := by
  unfold step at h
  cases a with
  | popen =>
      cases hdriver : w.driver with
      | loop phase rest =>
          cases rest with
          | nil => simp [hdriver] at h
          | cons t rest =>
              simp only [hdriver, Option.some.injEq] at h
              rw [← h]
              exact .popen hdriver
      | _ => simp [hdriver] at h
  | endLoop =>
      cases hdriver : w.driver with
      | loop phase rest =>
          cases rest with
          | nil =>
              cases phase with
              | echo =>
                  simp only [hdriver, Option.some.injEq] at h
                  rw [← h]
                  exact .toTests hdriver
              | tests =>
                  simp only [hdriver, Option.some.injEq] at h
                  rw [← h]
                  exact .done hdriver
          | cons t rest => simp [hdriver] at h
      | _ => simp [hdriver] at h
  | startClient p =>
      cases hdriver : w.driver with
      | body it calls =>
          cases calls with
          | nil => simp [hdriver] at h
          | cons flags calls =>
              simp only [hdriver, Option.ite_none_right_eq_some, Option.some.injEq] at h
              obtain ⟨rfl, rfl⟩ := h
              exact .startClient hdriver
      | _ => simp [hdriver] at h
  | endClient passed =>
      cases hdriver : w.driver with
      | waiting it calls =>
          simp only [hdriver, Option.some.injEq] at h
          rw [← h]
          exact .endClient passed hdriver
      | _ => simp [hdriver] at h
  | terminate =>
      cases hdriver : w.driver with
      | body it calls =>
          cases calls with
          | nil =>
              simp only [hdriver, Option.some.injEq] at h
              rw [← h]
              exact .terminate hdriver
          | cons flags calls => simp [hdriver] at h
      | raising it =>
          simp only [hdriver, Option.some.injEq] at h
          rw [← h]
          exact .reraise hdriver
      | _ => simp [hdriver] at h
  | bind p =>
      cases hserver : w.servers[p]? with
      | none => simp [hserver] at h
      | some server =>
          simp only [hserver, Option.ite_none_right_eq_some, Option.some.injEq] at h
          obtain ⟨⟨hstarted, hexited, hlistens⟩, rfl⟩ := h
          exact .bind hserver hstarted hexited hlistens
  | exit p =>
      cases hserver : w.servers[p]? with
      | none => simp [hserver] at h
      | some server =>
          simp only [hserver, Option.ite_none_right_eq_some, Option.some.injEq] at h
          obtain ⟨⟨hexited, hcause⟩, rfl⟩ := h
          exact .exit hserver hexited hcause

variable {env : Args} {a : Action} {w w' : World}

/-- The iteration whose `try` statement the driver is in. -/
def Driver.iteration : Driver → Option Iteration
  | .body it _ => some it
  | .waiting it _ => some it
  | .raising it => some it
  | _ => none

/-- **One server over one action**: its command stays, and a signal stays; it gets one only when
the driver leaves its iteration. -/
theorem Effect.server (h : Effect env w a w') {p : ℕ} {server : Server}
    (hp : w.servers[p]? = some server) :
    ∃ server', w'.servers[p]? = some server' ∧ server'.cmd = server.cmd ∧
      (server'.signalled = server.signalled ∨
        server'.signalled = true ∧ w'.driver.iteration = none) := by
  have hsignal : ∀ q, ∃ server', (w.signal q)[p]? = some server' ∧ server'.cmd = server.cmd ∧
      (server'.signalled = server.signalled ∨ server'.signalled = true) := by
    intro q
    rw [World.signal, List.getElem?_modify, hp]
    by_cases hq : q = p
    · exact ⟨{ server with signalled := true }, by simp [hq], rfl, .inr rfl⟩
    · exact ⟨server, by simp [hq], rfl, .inl rfl⟩
  have hset : ∀ q old new, w.servers[q]? = some old → new.cmd = old.cmd →
      new.signalled = old.signalled → ∃ server', (w.servers.set q new)[p]? = some server' ∧
        server'.cmd = server.cmd ∧ server'.signalled = server.signalled := by
    intro q old new hq hcmd hsig
    by_cases hqp : q = p
    · rw [hqp, hp] at hq
      cases hq
      refine ⟨new, ?_, hcmd, hsig⟩
      rw [hqp, List.getElem?_set_self (List.getElem?_eq_some_iff.mp hp).1]
    · exact ⟨server, by rw [List.getElem?_set_ne hqp, hp], rfl, rfl⟩
  cases h with
  | popen _ =>
      refine ⟨server, ?_, rfl, .inl rfl⟩
      rw [List.getElem?_append_left (List.getElem?_eq_some_iff.mp hp).1, hp]
  | toTests _ => exact ⟨server, hp, rfl, .inl rfl⟩
  | done _ => exact ⟨server, hp, rfl, .inl rfl⟩
  | startClient _ => exact ⟨server, hp, rfl, .inl rfl⟩
  | endClient _ _ => exact ⟨server, hp, rfl, .inl rfl⟩
  | @terminate it _ =>
      obtain ⟨server', hget, hcmd, hsig⟩ := hsignal it.server
      exact ⟨server', hget, hcmd, hsig.imp_right fun h => ⟨h, rfl⟩⟩
  | @reraise it _ =>
      obtain ⟨server', hget, hcmd, hsig⟩ := hsignal it.server
      exact ⟨server', hget, hcmd, hsig.imp_right fun h => ⟨h, rfl⟩⟩
  | @bind q old hq _ _ _ =>
      obtain ⟨server', hget, hcmd, hsig⟩ := hset q old { old with started := true } hq rfl rfl
      exact ⟨server', hget, hcmd, .inl hsig⟩
  | @exit q old hq _ _ =>
      obtain ⟨server', hget, hcmd, hsig⟩ := hset q old { old with exited := true } hq rfl rfl
      exact ⟨server', hget, hcmd, .inl hsig⟩

/-- A process keeps the port until it has been signalled. -/
theorem Effect.port_kept (h : Effect env w a w') {p : ℕ} (hp : w.port = some p) :
    w'.port = some p ∨ ∃ server, w.servers[p]? = some server ∧ server.signalled = true := by
  cases h with
  | bind _ _ _ _ =>
      refine .inl ?_
      rw [if_neg (by rw [hp]; exact Option.some_ne_none p)]
      exact hp
  | @exit q server hq _ hcause =>
      by_cases hqp : w.port = some q
      · rw [hp] at hqp
        cases hqp
        rcases hcause with hsig | ⟨hport, _⟩
        · exact .inr ⟨server, hq, hsig⟩
        · exact absurd hp hport
      · rw [if_neg hqp]
        exact .inl hp
  | _ => exact .inl hp

/-- The port is taken by a bind, when nobody holds it. -/
theorem Effect.port_taken (h : Effect env w a w') {p : ℕ} (hp : w.port ≠ some p)
    (hp' : w'.port = some p) : a = .bind p ∧ w.port = none := by
  cases h with
  | @bind q _ _ _ _ _ =>
      by_cases hfree : w.port = none
      · rw [if_pos hfree] at hp'
        cases hp'
        exact ⟨rfl, hfree⟩
      · rw [if_neg hfree] at hp'
        exact absurd hp' hp
  | @exit q _ _ _ _ =>
      by_cases hq : w.port = some q
      · rw [if_pos hq] at hp'
        cases hp'
      · rw [if_neg hq] at hp'
        exact absurd hp' hp
  | _ => exact absurd hp' hp

/-- An iteration begins with a server of its own, and then stays until `terminate`. -/
theorem Effect.iteration (h : Effect env w a w') {it : Iteration}
    (hit : w'.driver.iteration = some it) :
    w.driver.iteration = some it ∨
      w'.servers = w.servers ++ [{ cmd := Env.serverCmd it.transport }] ∧
        it.server = w.servers.length := by
  cases h with
  | popen _ =>
      cases hit
      exact .inr ⟨rfl, rfl⟩
  | startClient hdriver =>
      rw [hdriver]
      exact .inl hit
  | endClient passed hdriver =>
      refine .inl ?_
      rw [hdriver]
      dsimp only at hit
      split at hit <;> exact hit
  | bind _ _ _ _ => exact .inl hit
  | exit _ _ _ => exact .inl hit
  | _ => cases hit

/-! ### Runs -/

/-- The server of the current iteration runs its transport's command and has not been signalled. -/
def Current (w : World) : Prop :=
  ∀ it, w.driver.iteration = some it → ∃ server, w.servers[it.server]? = some server ∧
    server.cmd = Env.serverCmd it.transport ∧ server.signalled = false

theorem Current.step (hw : Current w) (h : Effect env w a w') : Current w' := by
  intro it hit
  rcases h.iteration hit with hsame | ⟨hservers, hserver⟩
  · obtain ⟨server, hget, hcmd, hsig⟩ := hw it hsame
    obtain ⟨server', hget', hcmd', hsig'⟩ := h.server hget
    refine ⟨server', hget', hcmd'.trans hcmd, ?_⟩
    rcases hsig' with hkept | ⟨_, hleft⟩
    · exact hkept.trans hsig
    · rw [hit] at hleft
      cases hleft
  · refine ⟨{ cmd := Env.serverCmd it.transport }, ?_, rfl, rfl⟩
    rw [hservers, hserver, List.getElem?_concat_length]

/-- The process `p` has been signalled. -/
def Signalled (w : World) (p : ℕ) : Prop :=
  ∃ server, w.servers[p]? = some server ∧ server.signalled = true

theorem Signalled.step {p : ℕ} (hw : Signalled w p) (h : Effect env w a w') : Signalled w' p := by
  obtain ⟨server, hget, hsig⟩ := hw
  obtain ⟨server', hget', _, hsig'⟩ := h.server hget
  refine ⟨server', hget', ?_⟩
  rcases hsig' with hkept | ⟨hnew, _⟩
  · exact hkept.trans hsig
  · exact hnew

theorem current_init (env : Args) : Current (World.init env) := by
  intro it hit
  cases hit

theorem current_of_run {ls : List Action} (h : Runs env ls w) : Current w :=
  h.invariant (current_init env) fun _ _ _ hw hstep => hw.step (step_effect hstep)

/-- Once `p` has bound the port, it listens until it has been signalled. -/
theorem port_or_signalled {p : ℕ} {ls : List Action} (hp : w.port = some p)
    (h : Transition.Run (fun a w w' => step env a w = some w') w ls w') :
    w'.port = some p ∨ Signalled w' p := by
  refine h.invariant (P := fun w => w.port = some p ∨ Signalled w p) (.inl hp) ?_
  intro a v v' hv hstep
  rcases hv with hport | hsig
  · rcases (step_effect hstep).port_kept hport with hkept | hsig
    · exact .inl hkept
    · exact .inr (Signalled.step hsig (step_effect hstep))
  · exact .inr (hsig.step (step_effect hstep))

/-- In the history `older` the server `p` made its call to bind the port, and the port was free. -/
def BoundFree (env : Args) (p : ℕ) (older : List Action) : Prop :=
  ∃ between before v, older = between ++ .bind p :: before ∧ Runs env before v ∧ v.port = none

/-- While the driver is in the iteration of `p`, the process `p` listens exactly when it has bound
the port at a moment when nobody held it. -/
theorem port_iff_boundFree {ls : List Action} (h : Runs env ls w) {it : Iteration}
    (hit : w.driver.iteration = some it) :
    w.port = some it.server ↔ BoundFree env it.server ls := by
  constructor
  · intro hport
    obtain ⟨newer, b, older, v, v', rfl, hrun, hstep, hne, hport'⟩ :=
      h.exists_cause (P := fun w => w.port = some it.server)
        (Option.some_ne_none it.server).symm hport
    obtain ⟨rfl, hfree⟩ := (step_effect hstep).port_taken hne hport'
    exact ⟨newer, older, v, rfl, hrun, hfree⟩
  · intro hbound
    obtain ⟨between, before, v, rfl, hrun, hfree⟩ := hbound
    obtain ⟨u, hu, hrest⟩ := Transition.Run.split between h
    have hbound : u.port = some it.server := by
      cases hu with
      | tail hbefore hbind =>
          have hsame := hrun.unique (fun _ _ _ _ h₁ h₂ => Option.some.inj (h₁.symm.trans h₂))
            _ hbefore
          rw [← hsame] at hbind
          cases step_effect hbind with
          | bind _ _ _ _ => exact if_pos hfree
    rcases port_or_signalled hbound hrest with hport | ⟨server, hget, hsig⟩
    · exact hport
    · obtain ⟨server', hget', _, hsig'⟩ := current_of_run h it hit
      rw [hget] at hget'
      cases hget'
      rw [hsig] at hsig'
      cases hsig'

/-! ### The clients of the loops -/

/-- The clients of a loop over the transports `ts`. -/
def Phase.schedule (env : Args) (phase : Phase) (ts : List Transport) :
    List (Command × ClientFlags) :=
  ts.flatMap fun t => (phase.calls env).map fun flags => (Env.clientCmd t, flags)

/-- The clients of the loop that comes after. -/
def Phase.next (env : Args) : Phase → List (Command × ClientFlags)
  | .echo => Phase.schedule env .tests env.transports
  | .tests => []

/-- All clients of a run in which no echo test fails. -/
def Env.schedule (env : Args) : List (Command × ClientFlags) :=
  Phase.schedule env .echo env.transports ++ Phase.next env .echo

/-- The clients the driver has still to start. -/
def Driver.remaining (env : Args) : Driver → List (Command × ClientFlags)
  | .loop phase rest => Phase.schedule env phase rest ++ Phase.next env phase
  | .body it calls => (calls.map fun flags => (Env.clientCmd it.transport, flags))
      ++ (Phase.schedule env it.phase it.rest ++ Phase.next env it.phase)
  | .waiting it calls => (calls.map fun flags => (Env.clientCmd it.transport, flags))
      ++ (Phase.schedule env it.phase it.rest ++ Phase.next env it.phase)
  | .raising _ => []
  | .ended _ => []

/-- An echo test has failed. -/
def Driver.aborted : Driver → Bool
  | .raising _ => true
  | .ended raised => raised
  | _ => false

/-- The calls of the clients started so far. -/
def World.calls (w : World) : List (Command × ClientFlags) :=
  w.clients.map fun c => (c.cmd, c.flags)

/-- What has been started and what is still to come make up the two loops. -/
structure Scheduled (env : Args) (w : World) : Prop where
  started : w.calls <+: Env.schedule env
  whole : w.driver.aborted = false → w.calls ++ w.driver.remaining env = Env.schedule env

theorem Scheduled.of_whole (h : w.calls ++ w.driver.remaining env = Env.schedule env) :
    Scheduled env w :=
  ⟨⟨_, h⟩, fun _ => h⟩

theorem Scheduled.step (hw : Scheduled env w) (h : Effect env w a w') : Scheduled env w' := by
  have hstarted := hw.started
  have hwhole := hw.whole
  cases h with
  | popen hdriver =>
      rw [hdriver] at hwhole
      refine .of_whole ((congrArg (w.calls ++ ·) ?_).trans (hwhole rfl))
      simp only [Driver.remaining, Phase.schedule, List.flatMap_cons, List.append_assoc]
  | toTests hdriver =>
      rw [hdriver] at hwhole
      refine .of_whole ((congrArg (w.calls ++ ·) ?_).trans (hwhole rfl))
      exact List.append_nil _
  | done hdriver =>
      rw [hdriver] at hwhole
      exact .of_whole (hwhole rfl)
  | @startClient it flags calls hdriver =>
      rw [hdriver] at hwhole
      refine .of_whole (Eq.trans ?_ (hwhole rfl))
      simp only [World.calls, Driver.remaining, List.map_append, List.map_cons, List.map_nil,
        List.append_assoc, List.cons_append, List.nil_append]
  | @endClient it calls passed hdriver =>
      rw [hdriver] at hwhole
      by_cases hraise : it.phase = .echo ∧ passed = false
      · simp only [if_pos hraise]
        exact ⟨hstarted, Bool.noConfusion⟩
      · simp only [if_neg hraise]
        exact .of_whole (hwhole rfl)
  | terminate hdriver =>
      rw [hdriver] at hwhole
      exact .of_whole (hwhole rfl)
  | reraise _ => exact ⟨hstarted, Bool.noConfusion⟩
  | bind _ _ _ _ => exact ⟨hstarted, hwhole⟩
  | exit _ _ _ => exact ⟨hstarted, hwhole⟩

/-- **The clients of a run** are those of the two loops, in order, as far as the driver has come;
when it gets to its end without an exception, they are all of them. -/
theorem clients_scheduled {ls : List Action} (h : Runs env ls w) :
    w.calls <+: Env.schedule env ∧ (w.driver = .ended false → w.calls = Env.schedule env) := by
  have hw : Scheduled env w :=
    h.invariant (.of_whole rfl) fun _ _ _ hw hstep => hw.step (step_effect hstep)
  refine ⟨hw.started, fun hended => ?_⟩
  have hwhole := hw.whole
  rw [hended, Driver.remaining, List.append_nil] at hwhole
  exact hwhole rfl

theorem clientCmd_inj {t t' : Transport} (h : Env.clientCmd t = Env.clientCmd t') : t = t' :=
  Transport.name_injective (congrArg Command.transport h)

/-- The clients of `run_tests` for one transport are the calls whose output goes to its file. -/
theorem schedule_tests_calls (env : Args) (t : Transport) :
    ((Phase.schedule env .tests env.transports).filter fun c => c.1 = Env.clientCmd t).map Prod.snd
      = (Env.calls env t).map (Env.flags env) := by
  rw [Phase.schedule, List.filter_flatMap, List.map_flatMap, Env.calls, List.map_flatMap]
  apply List.flatMap_congr
  intro t' _
  by_cases ht : t' = t
  · rw [if_pos ht, ht, List.filter_eq_self.mpr]
    · simp [Phase.calls]
    · intro c hc
      obtain ⟨flags, _, rfl⟩ := List.mem_map.mp hc
      exact decide_eq_true rfl
  · have hne : Env.clientCmd t' ≠ Env.clientCmd t := fun h => ht (clientCmd_inj h)
    rw [if_neg ht]
    simp [hne]

/-! ### Whom a client meets -/

/-- Clients are started by `startClient` alone, one at a time. -/
theorem Effect.clients (h : Effect env w a w') :
    (w'.clients = w.clients ∧ ∀ p, a ≠ .startClient p) ∨
      ∃ it flags, a = .startClient it.server ∧ w.driver.iteration = some it ∧
        w'.clients = w.clients ++
          [⟨it.server, Env.clientCmd it.transport, flags, w.listening⟩] := by
  cases h with
  | @startClient it flags _ hdriver => exact .inr ⟨it, flags, rfl, by rw [hdriver]; rfl, rfl⟩
  | _ => exact .inl ⟨rfl, fun _ => Action.noConfusion⟩

/-- A client started now meets its own server exactly when that server holds the port. -/
theorem Current.ownServer_iff (hw : Current w) {it : Iteration}
    (hit : w.driver.iteration = some it) (flags : ClientFlags) :
    OwnServer ⟨it.server, Env.clientCmd it.transport, flags, w.listening⟩ ↔
      w.port = some it.server := by
  constructor
  · intro hown
    obtain ⟨cmd, service, hlistening, _⟩ := hown
    obtain ⟨p, hport, hserver⟩ := Option.bind_eq_some_iff.mp hlistening
    obtain ⟨server, _, hpair⟩ := Option.map_eq_some_iff.mp hserver
    cases hpair
    exact hport
  · intro hport
    obtain ⟨server, hget, hcmd, _⟩ := hw it hit
    refine ⟨server.cmd, it.transport.service, ?_, ?_, service_clientCmd it.transport⟩
    · rw [World.listening, hport, Option.bind_some, hget]
      rfl
    · rw [hcmd]
      exact service_serverCmd it.transport

/-- A client of iteration `p` is started only after the server `p` has bound the free port. -/
def StartsBound (env : Args) (ls : List Action) : Prop :=
  ∀ newer older p, ls = newer ++ .startClient p :: older → BoundFree env p older

theorem startsBound_nil : StartsBound env [] := by
  intro newer older p hls
  exact absurd hls.symm (List.append_ne_nil_of_right_ne_nil newer (List.cons_ne_nil _ _))

theorem startsBound_cons_iff {ls : List Action} :
    StartsBound env (a :: ls) ↔
      (∀ p, a = .startClient p → BoundFree env p ls) ∧ StartsBound env ls := by
  constructor
  · intro h
    refine ⟨fun p hp => h [] ls p (by rw [hp]; rfl), fun newer older p hls => ?_⟩
    exact h (a :: newer) older p (by rw [hls]; rfl)
  · intro h newer older p hls
    obtain ⟨hnow, hbefore⟩ := h
    cases newer with
    | nil =>
        cases hls
        exact hnow p rfl
    | cons b newer =>
        cases hls
        exact hbefore newer older p rfl

/-- The actions in order make a run. -/
theorem runs_of_exec (ls : List Action)
    (h : Transition.exec (step env) ls (World.init env) = some w) : Runs env ls.reverse w :=
  Transition.run_of_exec ls h

/-- One transport, one block. -/
def oneTransport : Args := ⟨[.grpc], .write, 35, [16], [4096]⟩

/-- The client of the second transport meets the server of the first, which has been signalled and
has not exited yet. -/
example :
    ((Transition.exec (step { oneTransport with transports := [.grpc, .capnproto] })
        [.popen, .bind 0, .startClient 0, .endClient true, .terminate, .popen, .startClient 1]
        (World.init { oneTransport with transports := [.grpc, .capnproto] })).bind fun w =>
      w.clients.getLast?.bind Client.listening) = some (0, Env.serverCmd .grpc) := rfl

/-! ### A driver that waits -/

/-- The driver starts a server only when all earlier ones have exited, and a client only when the
start-up of its server is over. -/
def Patient (w : World) : Action → Prop
  | .popen => ∀ (p : ℕ) (server : Server), w.servers[p]? = some server → server.exited = true
  | .startClient p => ∃ server, w.servers[p]? = some server ∧ server.started = true
  | _ => True

/-- With a patient driver only the last of the `n` processes can be alive, it exits on a signal
only, and its bind succeeds. -/
structure Orderly (port : Option ℕ) (n p : ℕ) (server : Server) : Prop where
  listens : server.cmd.listens = true
  exited : server.exited = true → server.signalled = true
  last : server.exited = false → n = p + 1
  holds : server.started = true → server.exited = false → port = some p

theorem Orderly.of_exited {port port' : Option ℕ} {n n' p : ℕ} {server : Server}
    (h : Orderly port n p server) (hexited : server.exited = true) :
    Orderly port' n' p server where
  listens := h.listens
  exited := h.exited
  last := fun halive => Bool.noConfusion (hexited.symm.trans halive)
  holds := fun _ halive => Bool.noConfusion (hexited.symm.trans halive)

theorem Orderly.signal {port : Option ℕ} {n p : ℕ} {server : Server}
    (h : Orderly port n p server) : Orderly port n p { server with signalled := true } where
  listens := h.listens
  exited := fun _ => rfl
  last := h.last
  holds := h.holds

/-- Every process is orderly, and a live one holds the port if any does. -/
structure AllOrderly (w : World) : Prop where
  each : ∀ (p : ℕ) (server : Server), w.servers[p]? = some server →
    Orderly w.port w.servers.length p server
  holder : ∀ p, w.port = some p → ∃ server, w.servers[p]? = some server ∧
    server.started = true ∧ server.exited = false

theorem allOrderly_init (env : Args) : AllOrderly (World.init env) where
  each := by
    intro p server hget
    cases hget
  holder := by
    intro p hp
    cases hp

/-- A change of the live process and of the port. -/
theorem AllOrderly.set (h : AllOrderly w) {q : ℕ} {old new : Server} {port : Option ℕ}
    (hq : w.servers[q]? = some old) (halive : old.exited = false)
    (hnew : Orderly port w.servers.length q new) :
    ∀ (p : ℕ) (server : Server), (w.servers.set q new)[p]? = some server →
      Orderly port (w.servers.set q new).length p server := by
  intro p server hget
  rw [List.length_set]
  by_cases hqp : q = p
  · rw [← hqp, List.getElem?_set_self (List.getElem?_eq_some_iff.mp hq).1] at hget
    cases hget
    rw [← hqp]
    exact hnew
  · rw [List.getElem?_set_ne hqp] at hget
    have hold := h.each p server hget
    cases hexited : server.exited with
    | true => exact hold.of_exited hexited
    | false =>
        have hlast := hold.last hexited
        have hlast' := (h.each q old hq).last halive
        exact absurd (by omega) hqp

/-- A live process that has not bound the port yet finds it free. -/
theorem AllOrderly.port_free (h : AllOrderly w) {q : ℕ} {old : Server}
    (hq : w.servers[q]? = some old) (halive : old.exited = false)
    (hstarted : old.started = false) : w.port = none := by
  cases hport : w.port with
  | none => rfl
  | some p =>
      obtain ⟨server, hget, hbound, hlive⟩ := h.holder p hport
      have hlast := (h.each p server hget).last hlive
      have hlast' := (h.each q old hq).last halive
      rw [show p = q by omega, hq] at hget
      cases hget
      rw [hstarted] at hbound
      cases hbound

theorem AllOrderly.step (h : AllOrderly w) (hpatient : Patient w a) (heff : Effect env w a w') :
    AllOrderly w' := by
  have hsignal : ∀ q d, AllOrderly { w with driver := d, servers := w.signal q } := by
    intro q d
    refine ⟨fun p server hget => ?_, fun p hp => ?_⟩
    · simp only [World.signal, List.getElem?_modify, List.length_modify] at hget ⊢
      obtain ⟨old, hold, rfl⟩ := Option.map_eq_some_iff.mp hget
      split
      · exact (h.each p old hold).signal
      · exact h.each p old hold
    · obtain ⟨old, hold, hstarted, halive⟩ := h.holder p hp
      simp only [World.signal, List.getElem?_modify, hold]
      refine ⟨_, rfl, ?_⟩
      split <;> exact ⟨hstarted, halive⟩
  cases heff with
  | @popen phase t rest _ =>
      have hexited : ∀ (p : ℕ) (server : Server), w.servers[p]? = some server →
          server.exited = true := hpatient
      refine ⟨fun p server hget => ?_, fun p hp => ?_⟩
      · rcases Nat.lt_or_ge p w.servers.length with hlt | hge
        · rw [List.getElem?_append_left hlt] at hget
          exact (h.each p server hget).of_exited (hexited p server hget)
        · simp only [List.getElem?_append_right hge, List.getElem?_singleton,
            Option.ite_none_right_eq_some, Option.some.injEq] at hget
          obtain ⟨hp, rfl⟩ := hget
          refine ⟨listens_serverCmd t, Bool.noConfusion, fun _ => ?_, Bool.noConfusion⟩
          simp only [List.length_append, List.length_singleton]
          omega
      · obtain ⟨server, hget, _, halive⟩ := h.holder p hp
        rw [hexited p server hget] at halive
        cases halive
  | terminate _ => exact hsignal _ _
  | reraise _ => exact hsignal _ _
  | @bind q old hq hstarted halive _ =>
      have hfree := h.port_free hq halive hstarted
      have hold := h.each q old hq
      have hlt := (List.getElem?_eq_some_iff.mp hq).1
      simp only [if_pos hfree]
      refine ⟨h.set hq halive ⟨hold.listens, hold.exited, hold.last, fun _ _ => rfl⟩,
        fun p hp => ?_⟩
      cases hp
      exact ⟨_, List.getElem?_set_self hlt, rfl, halive⟩
  | @exit q old hq halive hcause =>
      have hold := h.each q old hq
      refine ⟨h.set hq halive
        ⟨hold.listens, fun _ => ?_, Bool.noConfusion, fun _ => Bool.noConfusion⟩, fun p hp => ?_⟩
      · rcases hcause with hsig | ⟨hport, hstarted | hdeaf⟩
        · exact hsig
        · exact absurd (hold.holds hstarted halive) hport
        · rw [hold.listens] at hdeaf
          cases hdeaf
      · by_cases hport : w.port = some q
        · rw [if_pos hport] at hp
          cases hp
        · rw [if_neg hport] at hp
          obtain ⟨server, hget, hstarted, hlive⟩ := h.holder p hp
          have hne : q ≠ p := by
            intro hqp
            exact hport (hqp ▸ hp)
          exact ⟨server, by rw [List.getElem?_set_ne hne, hget], hstarted, hlive⟩
  | _ => exact ⟨h.each, h.holder⟩

/-- **With a driver that waits**, for start-up before it starts a client and for exit before it
starts a server, every client meets its own server. -/
theorem patient_clients_meet_own_server {ls : List Action}
    (h : Transition.Run (fun a w w' => Patient w a ∧ step env a w = some w') (World.init env)
      ls w) :
    ∀ c ∈ w.clients, OwnServer c := by
  refine (h.invariant (P := fun w => AllOrderly w ∧ Current w ∧ ∀ c ∈ w.clients, OwnServer c)
    ⟨allOrderly_init env, current_init env, fun _ hc => absurd hc List.not_mem_nil⟩ ?_).2.2
  intro a w w' hw hmove
  obtain ⟨horderly, hcurrent, hown⟩ := hw
  obtain ⟨hpatient, hstep⟩ := hmove
  have heff := step_effect hstep
  refine ⟨horderly.step hpatient heff, hcurrent.step heff, ?_⟩
  rcases heff.clients with ⟨hsame, _⟩ | ⟨it, flags, rfl, hit, hclients⟩
  · rw [hsame]
    exact hown
  · rw [hclients, List.forall_mem_append, List.forall_mem_singleton]
    refine ⟨hown, (hcurrent.ownServer_iff hit flags).mpr ?_⟩
    obtain ⟨server, hget, hstarted⟩ := hpatient
    obtain ⟨server', hget', _, hsig⟩ := hcurrent it hit
    rw [hget] at hget'
    cases hget'
    have hserver := horderly.each it.server server hget
    -- it has not been signalled, so it is alive, and holds the port since its start-up
    cases hexited : server.exited with
    | true =>
        rw [hserver.exited hexited] at hsig
        cases hsig
    | false => exact hserver.holds hstarted hexited

end RpcTransport.RunTransports
