import Mathlib.Algebra.BigOperators.Ring.Finset
import Mathlib.Algebra.Order.BigOperators.Group.Finset
import RpcTransport.GreeterInvariants

/-!
# What the asynchronous greeter does in every interleaving

* `greeter_safe` — while the server runs, one `CallData` waits for the next call, all others are
  answering one each, every tag is the address of an object, and no call is printed twice;
* `greeter_delivers` — every interleaving ends, and then each client has printed one line for each
  of its calls and deleted them all; where no call breaks off, the lines are the greetings;
* `greeter_aborts` — one answer that cannot be sent ends the service for everybody; answers that
  were in flight still arrive.
-/

namespace RpcTransport.Greeter

open Completion Transition

variable {ι : Type} [DecidableEq ι]
variable {users : ι → List String} {lossy : Prop} {s s' : System ι} {ls : List Unit}

/-! ### Progress -/

/-- Every client has started all its calls, and has no results to wait for or to print; and the
server has nothing to do, or is gone. -/
structure Quiet (users : ι → List String) (s : System ι) : Prop where
  sent : ∀ i, (s.client i).sent = (users i).length
  pending : ∀ i, (s.client i).calls.pending = 0
  events : ∀ i, (s.client i).calls.events = 0
  server : s.server.aborted = true ∨ s.server.cq.events = 0

namespace Inv

/-- A client that has not come to its end, and does not wait, can move. -/
theorem client_progress (h : Inv users lossy s) {i : ι}
    (hi : (s.client i).sent ≠ (users i).length ∨ (s.client i).calls.events ≠ 0) :
    ∃ s', GreeterStep users lossy () s s' := by
  rcases hi with hsent | hevents
  · have hlt := Nat.lt_of_le_of_ne (h.client i).sent_le hsent
    exact ⟨_, .sayHello (List.getElem?_eq_getElem hlt)⟩
  · obtain ⟨⟨j, ok⟩, hmem⟩ := Multiset.exists_mem_of_ne_zero hevents
    obtain ⟨rfl, call, -, hlive, -⟩ := (h.client i).events j ok hmem
    obtain ⟨rest, hev⟩ := Multiset.exists_cons_of_mem hmem
    exact ⟨_, .print hev hlive⟩

/-- A result in flight can arrive. -/
theorem arrive_progress (h : Inv users lossy s) (hanswers : s.answers ≠ 0) :
    ∃ s', GreeterStep users lossy () s s' := by
  obtain ⟨⟨⟨i, j⟩, result⟩, hmem⟩ := Multiset.exists_mem_of_ne_zero hanswers
  obtain ⟨answers, hcons⟩ := Multiset.exists_cons_of_mem hmem
  obtain ⟨unanswered, hmatches, -⟩ := h.calls
  obtain ⟨rest, hrest⟩ := hmatches.exists_pending (Multiset.mem_add.mpr
    (.inl (Multiset.mem_map.mpr ⟨_, hmem, rfl⟩)))
  obtain ⟨call, hlive⟩ := (h.client i).owned.live_of_pending (k := ()) (a := j)
    (by rw [hrest]; exact Multiset.mem_cons_self _ _)
  exact ⟨_, .arrive hcons hrest hlive⟩

/-- While the server runs, it takes its events, answers what it has accepted and accepts what waits
for it. -/
theorem server_progress (h : Inv users lossy s) (hup : s.server.aborted = false)
    (hnone : s.answers = 0)
    (hbusy : s.server.cq.events ≠ 0 ∨ ∃ i, (s.client i).calls.pending ≠ 0) :
    ∃ s', GreeterStep users lossy () s s' := by
  obtain ⟨a, d, hserver, hmatches⟩ := h.server hup
  by_cases hevents : s.server.cq.events = 0
  · -- no event: the listener is free, and a call on its way waits or is being answered
    have hlisten : d.call = none ∧ (a, .requestSayHello) ∈ s.server.cq.pending := by
      rcases hserver.listens with hlisten | ⟨call, -, -, hmem⟩
      · exact hlisten
      · rw [hevents] at hmem
        exact absurd hmem (Multiset.notMem_zero _)
    by_cases hwaiting : s.waiting = 0
    · by_cases hanswering : answering s.server.cq.pending = 0
      · obtain ⟨i, hi⟩ := hbusy.resolve_left (fun hne => hne hevents)
        rw [hnone, hwaiting, heldCalls, hlisten.1, hanswering] at hmatches
        exact absurd (hmatches.pending_zero i) hi
      · obtain ⟨call, hmem⟩ := Multiset.exists_mem_of_ne_zero hanswering
        obtain ⟨⟨b, op⟩, hop, hcall⟩ := (Multiset.mem_filterMap _ _).mp hmem
        cases op with
        | requestSayHello => cases hcall
        | finish call' message =>
            obtain rfl : call' = some call := hcall
            obtain ⟨e, he⟩ := hserver.owned.live_of_pending hop
            obtain ⟨pending, hpending⟩ := Multiset.exists_cons_of_mem hop
            exact ⟨_, .answer hup hpending he⟩
    · obtain ⟨⟨call, user⟩, hmem⟩ := Multiset.exists_mem_of_ne_zero hwaiting
      obtain ⟨waiting, hcons⟩ := Multiset.exists_cons_of_mem hmem
      obtain ⟨pending, hpending⟩ := Multiset.exists_cons_of_mem hlisten.2
      exact ⟨_, .accept hup hcons hpending hserver.listener⟩
  · obtain ⟨⟨tag, ok⟩, hmem⟩ := Multiset.exists_mem_of_ne_zero hevents
    obtain ⟨events, hev⟩ := Multiset.exists_cons_of_mem hmem
    obtain ⟨fresh, hfresh⟩ := hserver.owned.exists_free
    obtain ⟨e, he⟩ := hserver.owned.live_of_event hmem
    cases ok with
    | false => exact ⟨_, .turn hup hev hfresh rfl⟩
    | true =>
        have hlive : (s.server.cq.take events).heap tag = some e := he
        have hturn : { s.server with cq := s.server.cq.take events }.turn fresh tag true
            = some { s.server with cq := e.proceed fresh tag (s.server.cq.take events) } := by
          simp only [ServerImpl.turn, if_true, hlive]
        exact ⟨_, .turn hup hev hfresh hturn⟩

/-- **Never stuck.** -/
theorem progress (h : Inv users lossy s) (hnot : ¬ Quiet users s) :
    ∃ s', GreeterStep users lossy () s s' := by
  by_cases hclient : ∃ i, (s.client i).sent ≠ (users i).length ∨ (s.client i).calls.events ≠ 0
  · obtain ⟨i, hi⟩ := hclient
    exact h.client_progress hi
  · push Not at hclient
    have hbusy : s.server.aborted = true ∨ s.server.cq.events = 0 →
        ∃ i, (s.client i).calls.pending ≠ 0 := by
      intro hserver
      by_contra hpending
      push Not at hpending
      exact hnot ⟨fun i => (hclient i).1, hpending, fun i => (hclient i).2, hserver⟩
    by_cases hanswers : s.answers = 0
    · cases haborted : s.server.aborted with
      | true =>
          obtain ⟨i, hi⟩ := hbusy (.inl haborted)
          obtain ⟨⟨j, u⟩, hmem⟩ := Multiset.exists_mem_of_ne_zero hi
          obtain ⟨rest, hcons⟩ := Multiset.exists_cons_of_mem hmem
          obtain ⟨call, hlive⟩ := (h.client i).owned.live_of_pending hmem
          exact ⟨_, .down haborted hcons hlive (by rw [hanswers]; exact Multiset.notMem_zero _)⟩
      | false =>
          refine h.server_progress haborted hanswers ?_
          by_cases hevents : s.server.cq.events = 0
          · exact .inr (hbusy (.inr hevents))
          · exact .inl hevents
    · exact h.arrive_progress hanswers

end Inv

/-! ### Work -/

section

variable [Fintype ι]

/-- What is left to do for a client alone. -/
def clientWork (users : List String) (c : GreeterClient) : ℕ :=
  10 * (users.length - c.sent) + 6 * c.calls.pending.card + c.calls.events.card

/-- The greetings in flight. -/
def greetingsInFlight (s : System ι) : ℕ := s.answers.countP fun r => r.2.isSome

/-- A bound on the moves that are left.  A call that is waited for counts for less once its result
is in flight. -/
def work (users : ι → List String) (s : System ι) : ℕ :=
  ∑ i, clientWork (users i) (s.client i) - 4 * s.answers.card + greetingsInFlight s +
    3 * s.waiting.card + s.server.cq.pending.card + 3 * s.server.cq.events.card

theorem sum_clientWork_update (users : ι → List String) (client : ι → GreeterClient) (i : ι)
    (c : GreeterClient) :
    ∑ k, clientWork (users k) (Function.update client i c k) + clientWork (users i) (client i)
      = ∑ k, clientWork (users k) (client k) + clientWork (users i) c := by
  have hnew := Finset.add_sum_erase Finset.univ
    (fun k => clientWork (users k) (Function.update client i c k)) (Finset.mem_univ i)
  have hold := Finset.add_sum_erase Finset.univ (fun k => clientWork (users k) (client k))
    (Finset.mem_univ i)
  have hrest : ∑ k ∈ Finset.univ.erase i, clientWork (users k) (Function.update client i c k)
      = ∑ k ∈ Finset.univ.erase i, clientWork (users k) (client k) := by
    refine Finset.sum_congr rfl fun k hk => ?_
    rw [Function.update_of_ne (Finset.ne_of_mem_erase hk)]
  rw [hrest, Function.update_self] at hnew
  omega

/-- A result that comes in is less work. -/
theorem sum_clientWork_result (users : ι → List String) (client : ι → GreeterClient) {i : ι}
    {j : ℕ} {rest : Multiset (ℕ × Unit)} (hcall : (client i).calls.pending = (j, ()) ::ₘ rest)
    (call : AsyncClientCall) :
    ∑ k, clientWork (users k) (Function.update client i ((client i).result rest j call) k) + 5
      = ∑ k, clientWork (users k) (client k) := by
  have hsum := sum_clientWork_update users client i ((client i).result rest j call)
  simp only [clientWork, GreeterClient.result, State.complete, hcall, Multiset.card_cons] at hsum ⊢
  omega

/-- Every call is the call of one client. -/
theorem sum_card_callsOf (calls : Multiset (ι × ℕ)) :
    ∑ i, (callsOf calls i).card = calls.card := by
  induction calls using Multiset.induction with
  | empty => simp [callsOf]
  | cons call calls ih =>
      obtain ⟨i, j⟩ := call
      have hone : ∀ k, (callsOf ((i, j) ::ₘ calls) k).card
          = (callsOf calls k).card + if k = i then 1 else 0 := by
        intro k
        split_ifs with hk
        · rw [hk, callsOf_cons_self, Multiset.card_cons]
        · rw [callsOf_cons_of_ne calls j hk, Nat.add_zero]
      simp only [hone]
      rw [Finset.sum_add_distrib, ih, Finset.sum_ite_eq', if_pos (Finset.mem_univ i),
        Multiset.card_cons]

/-- The results in flight are for calls that are waited for. -/
theorem Inv.answers_le (h : Inv users lossy s) :
    4 * s.answers.card ≤ ∑ i, clientWork (users i) (s.client i) := by
  obtain ⟨unanswered, hmatches, -⟩ := h.calls
  have hcard : s.answers.card + unanswered.card = ∑ i, (s.client i).calls.pending.card := by
    rw [← Multiset.card_map Prod.fst s.answers, ← Multiset.card_add, ← sum_card_callsOf]
    refine Finset.sum_congr rfl fun i _ => ?_
    rw [← hmatches i, Multiset.card_map]
  have hle : ∑ i, 4 * (s.client i).calls.pending.card
      ≤ ∑ i, clientWork (users i) (s.client i) := by
    refine Finset.sum_le_sum fun i _ => ?_
    unfold clientWork
    omega
  rw [← Finset.mul_sum, ← hcard] at hle
  omega

/-- **Every move is work done.** -/
theorem Inv.work_lt (h : Inv users lossy s) (hstep : GreeterStep users lossy () s s') :
    work users s' < work users s := by
  have hle := h.answers_le
  have hle' := (h.step hstep).answers_le
  cases hstep with
  | @sayHello i user huser =>
      have hsum := sum_clientWork_update users s.client i (s.client i).sayHello
      have hown : clientWork (users i) (s.client i).sayHello + 4
          = clientWork (users i) (s.client i) := by
        have hlt := (List.getElem?_eq_some_iff.mp huser).1
        simp only [clientWork, GreeterClient.sayHello, State.start, Multiset.card_cons]
        omega
      simp only [work, greetingsInFlight, Multiset.card_cons] at hle' ⊢
      omega
  | @accept call user waiting a pending d hup hwaiting hop hobj =>
      simp only [work, greetingsInFlight, State.complete, hwaiting, hop, Multiset.card_cons]
      omega
  | @turn tag fresh ok events server hup hev hfresh hturn =>
      rcases ServerImpl.turn_cases hturn with ⟨rfl, e, hobj, rfl⟩ | ⟨rfl, rfl⟩
      · have hcard := card_proceed fresh tag e (s.server.cq.take events)
        simp only [work, greetingsInFlight, CallData.proceed_events, State.take, hev,
          Multiset.card_cons] at hcard ⊢
        omega
      · simp only [work, greetingsInFlight, State.take, hev, Multiset.card_cons]
        omega
  | @answer a call message pending d hup hop hobj =>
      simp only [work, greetingsInFlight, State.complete, hop, Multiset.card_cons,
        Multiset.countP_cons, Option.isSome_some, if_true] at hle' ⊢
      omega
  | @lost a call message pending d hlossy hup hop hobj =>
      simp only [work, greetingsInFlight, State.complete, hop, Multiset.card_cons,
        Multiset.countP_cons, Option.isSome_none, Bool.false_eq_true, if_false] at hle' ⊢
      omega
  | @drop call user waiting hlossy hup hwaiting =>
      simp only [work, greetingsInFlight, hwaiting, Multiset.card_cons, Multiset.countP_cons,
        Option.isSome_none, Bool.false_eq_true, if_false] at hle' ⊢
      omega
  | @vanish call message answers hlossy hanswer =>
      simp only [work, greetingsInFlight, hanswer, Multiset.card_cons, Multiset.countP_cons,
        Option.isSome_none, Option.isSome_some, if_true, Bool.false_eq_true, if_false]
      omega
  | @arrive i j result answers rest call hanswer hcall hlive =>
      have hsum := sum_clientWork_result users s.client hcall (call.finish result)
      have hcount := Multiset.countP_le_of_le
        (fun r : (ι × ℕ) × Option String => r.2.isSome = true)
        (Multiset.le_cons_self answers ((i, j), result))
      rw [hanswer, Multiset.card_cons] at hle
      simp only [work, greetingsInFlight, System.result, hanswer, Multiset.card_cons] at hle' ⊢
      omega
  | @down i j rest call hdown hcall hlive hunanswered =>
      have hsum := sum_clientWork_result users s.client hcall (call.finish none)
      simp only [work, greetingsInFlight, System.result] at hle' ⊢
      omega
  | @print i j rest call hev hlive =>
      have hsum := sum_clientWork_update users s.client i ((s.client i).complete rest j call)
      have hown : clientWork (users i) ((s.client i).complete rest j call) + 1
          = clientWork (users i) (s.client i) := by
        simp only [clientWork, GreeterClient.complete, State.take, State.free, hev,
          Multiset.card_cons]
        omega
      simp only [work, greetingsInFlight] at hle' ⊢
      omega

end

/-! ### Every interleaving -/

/-- The line for a call that greeted as `user`. -/
def greeting (user : String) : String := "Greeter received: " ++ ("Hello " ++ user)

theorem CallOk.line {user : String} {call : AsyncClientCall} (h : CallOk lossy user call) :
    call.line = greeting user ∨ (lossy ∧ call.line = "RPC failed") := by
  rcases h with ⟨hok, hreply⟩ | ⟨hlossy, hok⟩
  · left
    rw [AsyncClientCall.line, if_pos hok, hreply]
    rfl
  · right
    refine ⟨hlossy, ?_⟩
    rw [AsyncClientCall.line, hok]
    rfl

/-- What holds at any time.  While the server runs, its objects are those of its operations and
events; one of them listens and all others are answering; a call waits at the server, is held by it
or has its result in flight, once; and an answer has the name of its call, under way to the runtime
or in flight.  The calls of a client are those of its operations and events; each is printed at most
once, with its own greeting unless it broke off. -/
structure Safe (users : ι → List String) (lossy : Prop) (s : System ι) : Prop where
  objects : s.server.aborted = false → Owned 0 s.server.cq
  listener : s.server.aborted = false → ∃ a d, s.server.cq.heap a = some d ∧
    d.status = .process ∧ (∀ b e, s.server.cq.heap b = some e → b ≠ a → e.status = .finish) ∧
    (s.answers.map Prod.fst + (s.waiting.map Prod.fst + heldCalls s.server.cq d)).Nodup
  answers : s.server.aborted = false → ∀ a call message,
    (a, .finish call message) ∈ s.server.cq.pending →
    ∃ c user, call = some c ∧ nameOf users c = some user ∧ message = "Hello " ++ user
  inFlight : ∀ call result, (call, result) ∈ s.answers → AnswerOk lossy (nameOf users call) result
  calls : ∀ i, Owned 0 (s.client i).calls
  once : ∀ i, ((s.client i).out.map Prod.fst).Nodup
  lines : ∀ i, ∀ p ∈ (s.client i).out, ∃ user, (users i)[p.1]? = some user ∧
    (p.2 = greeting user ∨ (lossy ∧ p.2 = "RPC failed"))
  reliable : ¬ lossy → s.server.aborted = false

theorem ClientOk.lines {users : List String} {c : GreeterClient} (h : ClientOk users lossy c) :
    ∀ p ∈ c.out, ∃ user, users[p.1]? = some user ∧
      (p.2 = greeting user ∨ (lossy ∧ p.2 = "RPC failed")) := by
  intro p hp
  obtain ⟨call, user, huser, hok, hline⟩ := h.out p hp
  refine ⟨user, huser, ?_⟩
  rw [hline]
  exact hok.line

/-- How everything ends. -/
structure Served (users : ι → List String) (lossy : Prop) (s : System ι) : Prop where
  once : ∀ i, ((s.client i).out.map Prod.fst).Perm (List.range (users i).length)
  lines : ∀ i, ∀ p ∈ (s.client i).out, ∃ user, (users i)[p.1]? = some user ∧
    (p.2 = greeting user ∨ (lossy ∧ p.2 = "RPC failed"))
  deleted : ∀ i j, (s.client i).calls.heap j = none
  greeted : ¬ lossy → ∀ i, ((s.client i).out.map Prod.snd).Perm ((users i).map greeting)
  listens : s.server.aborted = false → ∃ a d, s.server.cq.heap a = some d ∧
    d.status = .process ∧ ∀ b, b ≠ a → s.server.cq.heap b = none

/-- Lines for all numbers, each the greeting of its number, are the greetings. -/
theorem greetings_perm {users : List String} {out : List (ℕ × String)}
    (honce : (out.map Prod.fst).Perm (List.range users.length))
    (hlines : ∀ p ∈ out, ∃ user, users[p.1]? = some user ∧ p.2 = greeting user) :
    (out.map Prod.snd).Perm (users.map greeting) := by
  have hout : out.map Prod.snd
      = (out.map Prod.fst).map fun j => greeting (users[j]?.getD "") := by
    rw [List.map_map]
    refine List.map_congr_left fun p hp => ?_
    obtain ⟨user, huser, hline⟩ := hlines p hp
    show p.2 = greeting (users[p.1]?.getD "")
    rw [huser, hline, Option.getD_some]
  have husers : users.map greeting
      = (List.range users.length).map fun j => greeting (users[j]?.getD "") := by
    refine List.ext_getElem (by simp) fun j hj hj' => ?_
    rw [List.length_map] at hj
    simp [List.getElem?_eq_getElem hj]
  rw [hout, husers]
  exact honce.map _

theorem Inv.served (h : Inv users lossy s) (hquiet : Quiet users s) : Served users lossy s := by
  have honce : ∀ i, ((s.client i).out.map Prod.fst).Perm (List.range (users i).length) := by
    intro i
    have haccounts := (h.client i).accounts
    rw [State.tags, hquiet.pending i, hquiet.events i, hquiet.sent i, Multiset.map_zero,
      Multiset.map_zero, add_zero, zero_add] at haccounts
    exact Multiset.coe_eq_coe.mp haccounts
  refine ⟨honce, fun i => (h.client i).lines, fun i j => ?_, fun hnot i => ?_, fun hup => ?_⟩
  · exact (h.client i).owned.heap_quiet (hquiet.pending i) (hquiet.events i) j
  · refine greetings_perm (honce i) fun p hp => ?_
    obtain ⟨user, huser, hline | ⟨hlossy, -⟩⟩ := (h.client i).lines p hp
    · exact ⟨user, huser, hline⟩
    · exact absurd hlossy hnot
  · obtain ⟨a, d, hserver, hmatches⟩ := h.server hup
    have hheld : heldCalls s.server.cq d = 0 := by
      have hzero := hmatches.calls_zero hquiet.pending
      exact (add_eq_zero.mp (add_eq_zero.mp hzero).2).2
    have hevents : s.server.cq.events = 0 := by
      rcases hquiet.server with hdown | hevents
      · cases hdown.symm.trans hup
      · exact hevents
    exact ⟨a, d, hserver.listener, hserver.process, hserver.alone hevents hheld⟩

/-- **Every call is answered, or reported as failed.**  Any number of clients, each with any list of
names: every interleaving ends, and can go on until it does; then every client has printed one line
for each of its calls, and no call object is left.  If no call breaks off, the lines are the
greetings with its own names. -/
theorem greeter_delivers [Fintype ι] (users : ι → List String) (lossy : Prop) :
    Delivers (GreeterStep users lossy) System.start () (10 * ∑ i, (users i).length + 1)
      (Quiet users) (Served users lossy) where
  bounded := fun ls s hrun => by
    have hle := hrun.count_le (P := Inv users lossy) () (work users) Inv.init
      (by rintro ⟨⟩ a b ha hstep; exact ha.step hstep)
      (fun a b ha hstep => ha.work_lt hstep) (fun i a b hne => absurd rfl hne)
    have hinit : work users (System.start : System ι) = 10 * ∑ i, (users i).length + 1 := by
      rw [Finset.mul_sum]
      rfl
    omega
  progress := fun _ _ hrun hnot => (Inv.of_run hrun).progress hnot
  correct := fun _ _ hrun hquiet => (Inv.of_run hrun).served hquiet

/-- One client that greets once. -/
def oneUser : Unit → List String := fun _ => ["world 0"]

/-- The event of an answer that was lost stays until it brings the server down. -/
theorem lost_stays {tag : ℕ} (hev : s.server.aborted = true ∨ (tag, false) ∈ s.server.cq.events)
    (hstep : GreeterStep users lossy () s s') :
    s'.server.aborted = true ∨ (tag, false) ∈ s'.server.cq.events := by
  cases hstep with
  | sayHello _ => exact hev
  | accept hup _ _ _ => exact hev.imp_right Multiset.mem_cons_of_mem
  | @turn tag' fresh ok events server hup hcons hfresh hturn =>
      rcases ServerImpl.turn_cases hturn with ⟨rfl, e, hobj, rfl⟩ | ⟨rfl, rfl⟩
      · refine hev.imp_right fun hmem => ?_
        rw [hcons] at hmem
        rcases Multiset.mem_cons.mp hmem with heq | hmem
        · cases heq
        · show (tag, false) ∈ (e.proceed fresh tag' (s.server.cq.take events)).events
          rw [CallData.proceed_events]
          exact hmem
      · exact .inl rfl
  | answer _ _ _ => exact hev.imp_right Multiset.mem_cons_of_mem
  | lost _ _ _ _ => exact hev.imp_right Multiset.mem_cons_of_mem
  | drop _ _ _ => exact hev
  | vanish _ _ => exact hev
  | arrive _ _ _ => exact hev
  | down _ _ _ _ => exact hev
  | print _ _ => exact hev

/-- What is printed of a call with no server to answer it: that it failed, or the answer that was in
flight. -/
def LateLine (inFlight : Multiset ((ι × ℕ) × Option String)) (call : ι × ℕ) (line : String) :
    Prop :=
  line = "RPC failed" ∨
    ∃ message, (call, some message) ∈ inFlight ∧ line = "Greeter received: " ++ message

omit [DecidableEq ι] in
theorem LateLine.finish {inFlight : Multiset ((ι × ℕ) × Option String)} {key : ι × ℕ}
    {result : Option String}
    (hresult : ∀ message, result = some message → (key, some message) ∈ inFlight)
    (call : AsyncClientCall) : LateLine inFlight key (call.finish result).line := by
  cases result with
  | none => exact .inl rfl
  | some message => exact .inr ⟨message, hresult message rfl, rfl⟩

/-- What has become of client `i` since the server went down, with `inFlight` on the way then: of a
call whose result had not come in, only a late line is printed. -/
structure Forsaken (inFlight : Multiset ((ι × ℕ) × Option String)) (i : ι)
    (c c' : GreeterClient) : Prop where
  events : ∀ j ok, (j, ok) ∈ c'.calls.events → j ∈ c.calls.events.map Prod.fst ∨
    ∀ call, c'.calls.heap j = some call → LateLine inFlight (i, j) call.line
  out : ∀ p ∈ c'.out, p ∈ c.out ∨ p.1 ∈ c.calls.events.map Prod.fst ∨
    LateLine inFlight (i, p.1) p.2

namespace Forsaken

variable {inFlight : Multiset ((ι × ℕ) × Option String)} {i : ι} {c c' : GreeterClient}

omit [DecidableEq ι] in
theorem refl (c : GreeterClient) : Forsaken inFlight i c c where
  events := fun j ok hmem => .inl (Multiset.mem_map.mpr ⟨(j, ok), hmem, rfl⟩)
  out := fun _ hp => .inl hp

omit [DecidableEq ι] in
theorem sayHello (h : Forsaken inFlight i c c') (howned : Owned 0 c'.calls)
    (hfree : c'.calls.heap c'.sent = none) : Forsaken inFlight i c c'.sayHello where
  events := fun j ok hmem => (h.events j ok hmem).imp_right fun hlate call hcall => by
    obtain ⟨x, hx⟩ := howned.live_of_event hmem
    have hne : j ≠ c'.sent := by
      rintro rfl
      rw [hfree] at hx
      cases hx
    exact hlate call ((Function.update_of_ne hne _ _).symm.trans hcall)
  out := h.out

omit [DecidableEq ι] in
theorem result (h : Forsaken inFlight i c c') (howned : Owned 0 c'.calls) {j : ℕ}
    {rest : Multiset (ℕ × Unit)} (hcall : c'.calls.pending = (j, ()) ::ₘ rest)
    {call : AsyncClientCall} (hlate : LateLine inFlight (i, j) call.line) :
    Forsaken inFlight i c (c'.result rest j call) where
  events := fun k ok hmem => by
    rcases Multiset.mem_cons.mp hmem with heq | hmem
    · cases heq
      right
      intro call' hcall'
      cases (Function.update_self ..).symm.trans hcall'
      exact hlate
    · refine (h.events k ok hmem).imp_right fun hlate' call' hcall' => ?_
      have hne : k ≠ j := (howned.ne_of_pending hcall).2 k ok hmem
      exact hlate' call' ((Function.update_of_ne hne _ _).symm.trans hcall')
  out := h.out

omit [DecidableEq ι] in
theorem complete (h : Forsaken inFlight i c c') (howned : Owned 0 c'.calls) {j : ℕ}
    {rest : Multiset (ℕ × Bool)} (hev : c'.calls.events = (j, true) ::ₘ rest)
    {call : AsyncClientCall} (hlive : c'.calls.heap j = some call) :
    Forsaken inFlight i c (c'.complete rest j call) where
  events := fun k ok hmem => by
    have hne : k ≠ j := (howned.ne_of_event hev).2 k ok hmem
    refine (h.events k ok (by rw [hev]; exact Multiset.mem_cons_of_mem hmem)).imp_right
      fun hlate call' hcall' => ?_
    exact hlate call' ((Function.update_of_ne hne _ _).symm.trans hcall')
  out := fun p hp => by
    rcases List.mem_append.mp hp with hp | hp
    · exact h.out p hp
    · obtain rfl := List.mem_singleton.mp hp
      right
      exact (h.events j true (by rw [hev]; exact Multiset.mem_cons_self _ _)).imp_right
        fun hlate => hlate call hlive

end Forsaken

/-- What has become of all since the server went down in `s₀`: nothing new is in flight. -/
structure Outlived (s₀ s : System ι) : Prop where
  server : s.server = s₀.server
  answers : ∀ call message, (call, some message) ∈ s.answers → (call, some message) ∈ s₀.answers
  client : ∀ i, Forsaken s₀.answers i (s₀.client i) (s.client i)

namespace Outlived

variable {s₀ : System ι}

omit [DecidableEq ι] in
theorem refl (s : System ι) : Outlived s s where
  server := rfl
  answers := fun _ _ hmem => hmem
  client := fun _ => Forsaken.refl _

theorem client_update (h : Outlived s₀ s) {i : ι} {c : GreeterClient}
    (hc : Forsaken s₀.answers i (s₀.client i) c) :
    ∀ k, Forsaken s₀.answers k (s₀.client k) (Function.update s.client i c k) := by
  refine (Function.forall_update_iff s.client
    fun k c => Forsaken s₀.answers k (s₀.client k) c).mpr ?_
  exact ⟨hc, fun k _ => h.client k⟩

theorem step (h : Outlived s₀ s) (hinv : Inv users lossy s) (hdown : s₀.server.aborted = true)
    (hstep : GreeterStep users lossy () s s') : Outlived s₀ s' := by
  have hnot : s.server.aborted ≠ false := by
    rw [h.server, hdown]
    decide
  cases hstep with
  | @sayHello i user huser =>
      exact ⟨h.server, h.answers,
        h.client_update ((h.client i).sayHello (hinv.client i).owned (hinv.client i).heap_sent)⟩
  | accept hup _ _ _ => exact absurd hup hnot
  | turn hup _ _ _ => exact absurd hup hnot
  | answer hup _ _ => exact absurd hup hnot
  | lost _ hup _ _ => exact absurd hup hnot
  | drop _ hup _ => exact absurd hup hnot
  | @vanish call message answers hlossy hanswer =>
      refine ⟨h.server, fun c m hmem => h.answers c m ?_, h.client⟩
      rw [hanswer]
      rcases Multiset.mem_cons.mp hmem with heq | hmem
      · cases heq
      · exact Multiset.mem_cons_of_mem hmem
  | @arrive i j result answers rest call hanswer hcall hlive =>
      refine ⟨h.server, fun c m hmem => h.answers c m ?_, h.client_update ?_⟩
      · rw [hanswer]
        exact Multiset.mem_cons_of_mem hmem
      · refine (h.client i).result (hinv.client i).owned hcall (LateLine.finish ?_ call)
        rintro message rfl
        refine h.answers _ _ ?_
        rw [hanswer]
        exact Multiset.mem_cons_self _ _
  | @down i j rest call _ hcall _ _ =>
      exact ⟨h.server, h.answers,
        h.client_update ((h.client i).result (hinv.client i).owned hcall (.inl rfl))⟩
  | @print i j rest call hev hlive =>
      exact ⟨h.server, h.answers,
        h.client_update ((h.client i).complete (hinv.client i).owned hev hlive)⟩

end Outlived

/-- **One lost answer ends the service.**  When an answer could not be sent, then in every run on
from there the server is gone by the time that everything has come to rest; and once it is gone, it
does nothing any more, and whatever the clients print from then on, apart from results they had by
then and answers that were in flight, is that a call failed. -/
theorem greeter_aborts {ls' : List Unit} (hrun : Run (GreeterStep users lossy) System.start ls s)
    (hlater : Run (GreeterStep users lossy) s ls' s') :
    (∀ tag, (tag, false) ∈ s.server.cq.events → Quiet users s' → s'.server.aborted = true) ∧
      (s.server.aborted = true → s'.server = s.server ∧ ∀ i, ∀ p ∈ (s'.client i).out,
        p ∈ (s.client i).out ∨ p.1 ∈ (s.client i).calls.events.map Prod.fst ∨
          LateLine s.answers (i, p.1) p.2) := by
  refine ⟨fun tag hev hquiet => ?_, fun hdown => ?_⟩
  · have hstays := hlater.invariant
      (P := fun t => t.server.aborted = true ∨ (tag, false) ∈ t.server.cq.events) (.inr hev)
      (by rintro ⟨⟩ a b ha hstep; exact lost_stays ha hstep)
    rcases hstays with hdown | hmem
    · exact hdown
    · rcases hquiet.server with hdown | hevents
      · exact hdown
      · rw [hevents] at hmem
        exact absurd hmem (Multiset.notMem_zero _)
  · obtain ⟨-, hsince⟩ := hlater.invariant
      (P := fun t => Inv users lossy t ∧ Outlived s t) ⟨Inv.of_run hrun, .refl s⟩
      (by
        rintro ⟨⟩ a b ⟨ha, hsince⟩ hstep
        exact ⟨ha.step hstep, hsince.step ha hdown hstep⟩)
    exact ⟨hsince.server, fun i => (hsince.client i).out⟩

/-- Two clients that greet once. -/
def twoUsers : Bool → List String := fun _ => ["world"]

/-- The first answer is in flight when the second cannot be sent; it arrives when the server is
gone. -/
theorem twoUsers_lost : ∃ ls s ls₁ s₁ ls₂ s₂,
    Run (GreeterStep twoUsers True) System.start ls s ∧ (1, false) ∈ s.server.cq.events ∧
    Run (GreeterStep twoUsers True) s ls₁ s₁ ∧ s₁.server.aborted = true ∧
    Run (GreeterStep twoUsers True) s₁ ls₂ s₂ ∧ Quiet twoUsers s₂ ∧
    (s₂.client false).out = [(0, "Greeter received: Hello world")] ∧
    (s₂.client true).out = [(0, "RPC failed")] := by
  have hsent : Run (GreeterStep twoUsers True) System.start [()] _ :=
    Run.refl.tail (.sayHello (i := false) rfl)
  have haccepted : Run (GreeterStep twoUsers True) System.start [(), ()] _ :=
    hsent.tail (@GreeterStep.accept _ _ _ _ () _ (false, 0) "world" 0 0 0 _ rfl rfl rfl rfl)
  have hturned : Run (GreeterStep twoUsers True) System.start [(), (), ()] _ :=
    haccepted.tail (@GreeterStep.turn _ _ _ _ () _ 0 1 true 0 _ rfl rfl rfl rfl)
  have hanswered : Run (GreeterStep twoUsers True) System.start [(), (), (), ()] _ :=
    hturned.tail (@GreeterStep.answer _ _ _ _ () _ 0 (false, 0) ("Hello " ++ "world")
      ((1, .requestSayHello) ::ₘ 0) _ rfl rfl rfl)
  have hsent' := hanswered.tail (i := ()) (.sayHello (i := true) rfl)
  have haccepted' := hsent'.tail (i := ())
    (@GreeterStep.accept _ _ _ _ () _ (true, 0) "world" 0 1 0 _ rfl rfl rfl rfl)
  have hturned' := haccepted'.tail (i := ())
    (@GreeterStep.turn _ _ _ _ () _ 1 2 true ((0, true) ::ₘ 0) _ rfl rfl rfl rfl)
  have hlost := hturned'.tail (i := ())
    (@GreeterStep.lost _ _ _ _ () _ 1 (true, 0) ("Hello " ++ "world")
      ((2, .requestSayHello) ::ₘ 0) _ trivial rfl rfl rfl)
  refine ⟨_, _, _, _, _, _, hlost, Multiset.mem_cons_self (1, false) ((0, true) ::ₘ 0),
    -- the turn that aborts
    Run.refl.tail (i := ())
      (@GreeterStep.turn _ _ _ _ () _ 1 3 false ((0, true) ::ₘ 0) _ rfl rfl rfl rfl), rfl,
    -- the results come in and are printed
    (((Run.refl.tail (i := ())
      (@GreeterStep.arrive _ _ _ _ () _ true 0 none
        (((false, 0), some ("Hello " ++ "world")) ::ₘ 0) 0 _ rfl rfl rfl)).tail (i := ())
      (@GreeterStep.arrive _ _ _ _ () _ false 0 (some ("Hello " ++ "world")) 0 0 _
        rfl rfl rfl)).tail (i := ())
      (@GreeterStep.print _ _ _ _ () _ false 0 0 _ rfl rfl)).tail (i := ())
      (@GreeterStep.print _ _ _ _ () _ true 0 0 _ rfl rfl),
    ⟨?_, ?_, ?_, .inl rfl⟩, rfl, rfl⟩
  · rintro (_ | _) <;> rfl
  · rintro (_ | _) <;> rfl
  · rintro (_ | _) <;> rfl

theorem greeter_aborts_twoUsers : ∃ ls s ls₁ s₁ ls₂ s₂,
    Run (GreeterStep twoUsers True) System.start ls s ∧ (1, false) ∈ s.server.cq.events ∧
    Run (GreeterStep twoUsers True) s ls₁ s₁ ∧ Run (GreeterStep twoUsers True) s₁ ls₂ s₂ ∧
    Quiet twoUsers s₂ ∧ s₂.server.aborted = true ∧ s₂.server = s₁.server ∧
    (s₂.client false).out = [(0, "Greeter received: Hello world")] ∧
    (s₂.client true).out = [(0, "RPC failed")] ∧
    ∀ i, ∀ p ∈ (s₂.client i).out, p ∈ (s₁.client i).out ∨
      p.1 ∈ (s₁.client i).calls.events.map Prod.fst ∨ LateLine s₁.answers (i, p.1) p.2 := by
  obtain ⟨ls, s, ls₁, s₁, ls₂, s₂, hrun, hlost, hgone, haborted, hlater, hquiet, hfirst, hsecond⟩ :=
    twoUsers_lost
  obtain ⟨hsame, hlines⟩ := (greeter_aborts (hrun.append hgone) hlater).2 haborted
  exact ⟨ls, s, ls₁, s₁, ls₂, s₂, hrun, hlost, hgone, hlater, hquiet,
    (greeter_aborts hrun (hgone.append hlater)).1 1 hlost hquiet, hsame, hfirst, hsecond, hlines⟩

end RpcTransport.Greeter
