import Mathlib.Algebra.BigOperators.Group.Finset.Basic
import RpcTransport.Lib.Completion
import RpcTransport.Lib.Transition

/-!
# The asynchronous greeter

`greeter_async_server.cc` answers calls from one thread: `HandleRpcs` takes events from the
completion queue, and the tag of an event is the address of a `CallData`, whose `Proceed` is a state
machine of three states that deletes itself in the last.  `greeter_async_client2.cc` starts all its
calls from one thread and prints their results from another; the tag is the address of an
`AsyncClientCall`.

Several clients run against one server.  What the gRPC runtime does with a request for a call, with
an answer and with a call that is lost is the step relation's part; it takes calls, operations and
events in any order.  An answer is sent, which completes the `Finish` of the server, and arrives,
which completes that of the client; between the two it is in flight, and may outlive the server.
-/

namespace RpcTransport.Greeter

open Completion

/-! ### The server -/

/-- `CallData::CallStatus`. -/
inductive CallStatus
  | create
  | process
  | finish
  deriving DecidableEq

/-- `CallData`: `call` is the one that `ctx_` and `responder_` are for, once there is one. -/
structure CallData (κ : Type) where
  status : CallStatus := .create
  call : Option κ := none
  request : String := ""
  reply : String := ""

/-- What a `CallData` has started: `RequestSayHello`, or `Finish` with the message that is sent. -/
inductive Operation (κ : Type) where
  | requestSayHello
  | finish (call : Option κ) (message : String)

/-- The objects, operations and events of the server. -/
abbrev ServerQueue (κ : Type) := Completion.State (CallData κ) (Operation κ)

variable {κ : Type}

/-- `Proceed` in the state `CREATE`. -/
def CallData.create (this : ℕ) (d : CallData κ) (q : ServerQueue κ) : ServerQueue κ :=
  q.start this { d with status := .process } .requestSayHello

/-- `new CallData`: the constructor goes on to `Proceed`. -/
def CallData.new (this : ℕ) (q : ServerQueue κ) : ServerQueue κ :=
  CallData.create this {} q

/-- `Proceed`; `fresh` is where `new` puts an object. -/
def CallData.proceed (fresh this : ℕ) (d : CallData κ) (q : ServerQueue κ) : ServerQueue κ :=
  match d.status with
  | .create => d.create this q
  | .process =>
      let reply := "Hello " ++ d.request
      (CallData.new fresh q).start this { d with status := .finish, reply := reply }
        (.finish d.call reply)
  | .finish => q.free this

/-- `ServerImpl`; `GPR_ASSERT` aborts the process. -/
structure ServerImpl (κ : Type) where
  cq : ServerQueue κ
  aborted : Bool := false

/-- `HandleRpcs` up to its loop; the first object is at address 0. -/
def ServerImpl.start : ServerImpl κ := { cq := CallData.new 0 .empty }

/-- One turn of the loop in `HandleRpcs`, with the event that was taken; `none`: its tag is not the
address of an object. -/
def ServerImpl.turn (fresh : ℕ) (tag : ℕ) (ok : Bool) (s : ServerImpl κ) : Option (ServerImpl κ) :=
  if ok then
    match s.cq.heap tag with
    | some d => some { s with cq := d.proceed fresh tag s.cq }
    | none => none
  else some { s with aborted := true }

/-- The loop either runs `Proceed` of a live object, or aborts. -/
theorem ServerImpl.turn_cases {fresh tag : ℕ} {ok : Bool} {s s' : ServerImpl κ}
    (h : s.turn fresh tag ok = some s') :
    (ok = true ∧ ∃ d, s.cq.heap tag = some d ∧ s' = { s with cq := d.proceed fresh tag s.cq }) ∨
      (ok = false ∧ s' = { s with aborted := true }) := by
  cases ok with
  | false => exact .inr ⟨rfl, (Option.some.inj h).symm⟩
  | true =>
      rw [ServerImpl.turn, if_pos rfl] at h
      cases hobj : s.cq.heap tag with
      | none =>
          rw [hobj] at h
          cases h
      | some d =>
          rw [hobj] at h
          exact .inl ⟨rfl, d, rfl, (Option.some.inj h).symm⟩

theorem CallData.proceed_events (fresh this : ℕ) (d : CallData κ) (q : ServerQueue κ) :
    (d.proceed fresh this q).events = q.events := by
  rw [CallData.proceed]
  cases d.status with
  | create => rfl
  | process => rfl
  | finish => rfl

/-! ### The clients -/

/-- `AsyncClientCall`. -/
structure AsyncClientCall where
  reply : String := ""
  statusOk : Bool := true

/-- The result of a call: the answer that was received, or `none` when the call broke off. -/
def AsyncClientCall.finish (call : AsyncClientCall) : Option String → AsyncClientCall
  | some message => { call with reply := message, statusOk := true }
  | none => { call with statusOk := false }

/-- What `AsyncCompleteRpc` prints of a call. -/
def AsyncClientCall.line (call : AsyncClientCall) : String :=
  if call.statusOk then "Greeter received: " ++ call.reply else "RPC failed"

/-- A client: its calls, by their numbers; how many of them `main` has started; and what has been
printed, each line with the number of the call that it is for. -/
structure GreeterClient where
  calls : Completion.State AsyncClientCall Unit := .empty
  sent : ℕ := 0
  out : List (ℕ × String) := []

/-- `SayHello`: the call is created and started, and its `Finish` asked for. -/
def GreeterClient.sayHello (c : GreeterClient) : GreeterClient :=
  { c with calls := c.calls.start c.sent {} (), sent := c.sent + 1 }

/-- The runtime has the result of call `tag`; `rest` are the calls that it still has not. -/
def GreeterClient.result (c : GreeterClient) (rest : Multiset (ℕ × Unit)) (tag : ℕ)
    (call : AsyncClientCall) : GreeterClient :=
  { c with calls := c.calls.complete rest tag call true }

/-- One turn of `AsyncCompleteRpc`: the result of call `tag` is printed, the call deleted. -/
def GreeterClient.complete (c : GreeterClient) (rest : Multiset (ℕ × Bool)) (tag : ℕ)
    (call : AsyncClientCall) : GreeterClient :=
  { c with calls := (c.calls.take rest).free tag, out := c.out ++ [(tag, call.line)] }

/-! ### The system -/

/-- Call `j` of client `i` is `(i, j)`; `waiting` are the calls, with the names they carry, that the
server's runtime has and no `CallData` has been given; `answers` are the results in flight, `none`
for a call that broke off. -/
structure System (ι : Type) where
  server : ServerImpl (ι × ℕ)
  waiting : Multiset ((ι × ℕ) × String)
  answers : Multiset ((ι × ℕ) × Option String)
  client : ι → GreeterClient

variable {ι : Type} [DecidableEq ι]

def System.start : System ι where
  server := ServerImpl.start
  waiting := 0
  answers := 0
  client := fun _ => {}

/-- The result of call `j` of client `i` has come in. -/
def System.result (s : System ι) (i : ι) (rest : Multiset (ℕ × Unit)) (j : ℕ)
    (call : AsyncClientCall) : System ι :=
  { s with client := Function.update s.client i ((s.client i).result rest j call) }

/-- The moves.  Client `i` greets as each of `users i`.  With `lossy` calls may break off, before
they are accepted, while they are answered, or with the answer in flight; when the server process is
gone, all of them do whose answer is not in flight. -/
inductive GreeterStep (users : ι → List String) (lossy : Prop) (_ : Unit) (s : System ι) :
    System ι → Prop
  | sayHello {i : ι} {user : String} (huser : (users i)[(s.client i).sent]? = some user) :
      GreeterStep users lossy () s { s with
        waiting := ((i, (s.client i).sent), user) ::ₘ s.waiting
        client := Function.update s.client i (s.client i).sayHello }
  | accept {call : ι × ℕ} {user : String} {waiting : Multiset ((ι × ℕ) × String)} {a : ℕ}
      {pending : Multiset (ℕ × Operation (ι × ℕ))} {d : CallData (ι × ℕ)}
      (hup : s.server.aborted = false) (hwaiting : s.waiting = (call, user) ::ₘ waiting)
      (hop : s.server.cq.pending = (a, .requestSayHello) ::ₘ pending)
      (hobj : s.server.cq.heap a = some d) :
      -- the runtime writes the request where the object has asked for it
      GreeterStep users lossy () s { s with
        waiting := waiting
        server := { s.server with
          cq := s.server.cq.complete pending a
            { d with call := some call, request := user } true } }
  | turn {tag fresh : ℕ} {ok : Bool} {events : Multiset (ℕ × Bool)} {server : ServerImpl (ι × ℕ)}
      (hup : s.server.aborted = false) (hev : s.server.cq.events = (tag, ok) ::ₘ events)
      (hfresh : s.server.cq.heap fresh = none)
      (hturn : { s.server with cq := s.server.cq.take events }.turn fresh tag ok = some server) :
      GreeterStep users lossy () s { s with server := server }
  /-- an answer has been sent -/
  | answer {a : ℕ} {call : ι × ℕ} {message : String}
      {pending : Multiset (ℕ × Operation (ι × ℕ))} {d : CallData (ι × ℕ)}
      (hup : s.server.aborted = false)
      (hop : s.server.cq.pending = (a, .finish (some call) message) ::ₘ pending)
      (hobj : s.server.cq.heap a = some d) :
      GreeterStep users lossy () s { s with
        server := { s.server with cq := s.server.cq.complete pending a d true }
        answers := (call, some message) ::ₘ s.answers }
  /-- an answer could not be sent -/
  | lost {a : ℕ} {call : ι × ℕ} {message : String}
      {pending : Multiset (ℕ × Operation (ι × ℕ))} {d : CallData (ι × ℕ)}
      (hlossy : lossy) (hup : s.server.aborted = false)
      (hop : s.server.cq.pending = (a, .finish (some call) message) ::ₘ pending)
      (hobj : s.server.cq.heap a = some d) :
      GreeterStep users lossy () s { s with
        server := { s.server with cq := s.server.cq.complete pending a d false }
        answers := (call, none) ::ₘ s.answers }
  /-- a call breaks off that the server has not accepted -/
  | drop {call : ι × ℕ} {user : String} {waiting : Multiset ((ι × ℕ) × String)}
      (hlossy : lossy) (hup : s.server.aborted = false)
      (hwaiting : s.waiting = (call, user) ::ₘ waiting) :
      GreeterStep users lossy () s { s with
        waiting := waiting
        answers := (call, none) ::ₘ s.answers }
  /-- a call breaks off whose answer is in flight -/
  | vanish {call : ι × ℕ} {message : String} {answers : Multiset ((ι × ℕ) × Option String)}
      (hlossy : lossy) (hanswer : s.answers = (call, some message) ::ₘ answers) :
      GreeterStep users lossy () s { s with answers := (call, none) ::ₘ answers }
  | arrive {i : ι} {j : ℕ} {result : Option String}
      {answers : Multiset ((ι × ℕ) × Option String)} {rest : Multiset (ℕ × Unit)}
      {call : AsyncClientCall} (hanswer : s.answers = ((i, j), result) ::ₘ answers)
      (hcall : (s.client i).calls.pending = (j, ()) ::ₘ rest)
      (hlive : (s.client i).calls.heap j = some call) :
      GreeterStep users lossy () s
        ({ s with answers := answers }.result i rest j (call.finish result))
  | down {i : ι} {j : ℕ} {rest : Multiset (ℕ × Unit)} {call : AsyncClientCall}
      (hdown : s.server.aborted = true) (hcall : (s.client i).calls.pending = (j, ()) ::ₘ rest)
      (hlive : (s.client i).calls.heap j = some call)
      (hunanswered : (i, j) ∉ s.answers.map Prod.fst) :
      GreeterStep users lossy () s (s.result i rest j (call.finish none))
  | print {i : ι} {j : ℕ} {rest : Multiset (ℕ × Bool)} {call : AsyncClientCall}
      (hev : (s.client i).calls.events = (j, true) ::ₘ rest)
      (hlive : (s.client i).calls.heap j = some call) :
      GreeterStep users lossy () s { s with
        client := Function.update s.client i ((s.client i).complete rest j call) }

end RpcTransport.Greeter
