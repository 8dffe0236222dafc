import Mathlib.Tactic.Abel
import RpcTransport.Greeter

/-!
# What every move of the asynchronous greeter keeps

* `ClientOk` — a client's calls are those under way, those with a result and those printed, each
  once, and a result is for the name of its call;
* `AnswerOk` — a result in flight is for the name of its call;
* `Matches` — the calls that the clients wait for are those with a result in flight, those that wait
  for the server and those held by it;
* `ServerOk` — one object listens, the others answer;
* `Inv.step`, `Inv.of_run` — all of them together hold in every reachable state.
-/

namespace RpcTransport.Greeter

open Completion Transition

/-! ### A client -/

/-- The result of a call that greeted as `user`. -/
def CallOk (lossy : Prop) (user : String) (call : AsyncClientCall) : Prop :=
  (call.statusOk = true ∧ call.reply = "Hello " ++ user) ∨ (lossy ∧ call.statusOk = false)

/-- A result in flight is the greeting with the name of its call, or says that it broke off. -/
def AnswerOk (lossy : Prop) (name : Option String) : Option String → Prop
  | some message => ∃ user, name = some user ∧ message = "Hello " ++ user
  | none => lossy

theorem AnswerOk.callOk {lossy : Prop} {user : String} {result : Option String}
    (h : AnswerOk lossy (some user) result) (call : AsyncClientCall) :
    CallOk lossy user (call.finish result) := by
  cases result with
  | some message =>
      obtain ⟨user', huser, hmessage⟩ := h
      cases huser
      exact .inl ⟨rfl, hmessage⟩
  | none => exact .inr ⟨h, rfl⟩

structure ClientOk (users : List String) (lossy : Prop) (c : GreeterClient) : Prop where
  owned : Owned 0 c.calls
  sent_le : c.sent ≤ users.length
  accounts : c.calls.tags + (c.out.map Prod.fst : List ℕ) = Multiset.range c.sent
  events : ∀ j ok, (j, ok) ∈ c.calls.events → ok = true ∧
    ∃ call user, c.calls.heap j = some call ∧ users[j]? = some user ∧ CallOk lossy user call
  out : ∀ p ∈ c.out, ∃ call user, users[p.1]? = some user ∧ CallOk lossy user call ∧ p.2 = call.line

namespace ClientOk

variable {users : List String} {lossy : Prop} {c : GreeterClient}

theorem init : ClientOk users lossy {} where
  owned := Owned.empty
  sent_le := Nat.zero_le _
  accounts := rfl
  events := fun _ _ hmem => absurd hmem (Multiset.notMem_zero _)
  out := fun _ hmem => absurd hmem List.not_mem_nil

theorem lt_sent (h : ClientOk users lossy c) {j : ℕ} (hj : j ∈ c.calls.tags) : j < c.sent := by
  rw [← Multiset.mem_range, ← h.accounts]
  exact Multiset.mem_add.mpr (.inl hj)

/-- The number of the next call is not in use. -/
theorem heap_sent (h : ClientOk users lossy c) : c.calls.heap c.sent = none := by
  rw [← Option.not_isSome_iff_eq_none, h.owned.live, zero_add]
  exact fun hmem => Nat.lt_irrefl _ (h.lt_sent hmem)

theorem sayHello (h : ClientOk users lossy c) {user : String} (huser : users[c.sent]? = some user) :
    ClientOk users lossy c.sayHello := by
  have hfree := h.heap_sent
  refine ⟨h.owned.new hfree _ _, (List.getElem?_eq_some_iff.mp huser).1, ?_, ?_, h.out⟩
  · show (c.calls.start c.sent {} ()).tags + (c.out.map Prod.fst : List ℕ)
      = Multiset.range (c.sent + 1)
    rw [Owned.tags_start, Multiset.cons_add, h.accounts, Multiset.range_succ]
  · intro j ok hmem
    obtain ⟨hok, call, user', hlive, hrest⟩ := h.events j ok hmem
    refine ⟨hok, call, user', ?_, hrest⟩
    have hne : j ≠ c.sent := by
      rintro rfl
      rw [hfree] at hlive
      cases hlive
    exact (Function.update_of_ne hne _ _).trans hlive

theorem result (h : ClientOk users lossy c) {j : ℕ} {rest : Multiset (ℕ × Unit)}
    (hcall : c.calls.pending = (j, ()) ::ₘ rest) {user : String} (huser : users[j]? = some user)
    {call : AsyncClientCall} (hok : CallOk lossy user call) :
    ClientOk users lossy (c.result rest j call) := by
  refine ⟨h.owned.complete hcall call true, h.sent_le, ?_, ?_, h.out⟩
  · refine Eq.trans (congrArg (· + _) ?_) h.accounts
    simp only [State.tags, GreeterClient.result, State.complete, hcall, Multiset.map_cons,
      Multiset.add_cons, Multiset.cons_add]
  · intro k ok hmem
    rcases Multiset.mem_cons.mp hmem with heq | hmem
    · cases heq
      exact ⟨rfl, call, user, Function.update_self .., huser, hok⟩
    · obtain ⟨hok', call', user', hlive, hrest⟩ := h.events k ok hmem
      have hne : k ≠ j := (h.owned.ne_of_pending hcall).2 k ok hmem
      exact ⟨hok', call', user', (Function.update_of_ne hne _ _).trans hlive, hrest⟩

theorem complete (h : ClientOk users lossy c) {j : ℕ} {rest : Multiset (ℕ × Bool)}
    (hev : c.calls.events = (j, true) ::ₘ rest) {call : AsyncClientCall}
    (hlive : c.calls.heap j = some call) : ClientOk users lossy (c.complete rest j call) := by
  obtain ⟨-, call', user, hlive', huser, hok⟩ := h.events j true
    (by rw [hev]; exact Multiset.mem_cons_self _ _)
  obtain rfl : call' = call := Option.some.inj (hlive'.symm.trans hlive)
  refine ⟨(h.owned.take hev).free, h.sent_le, ?_, ?_, ?_⟩
  · refine Eq.trans ?_ h.accounts
    simp only [GreeterClient.complete, State.tags, State.take, State.free, hev, List.map_append,
      List.map_cons, List.map_nil, ← Multiset.coe_add, Multiset.coe_singleton,
      ← Multiset.singleton_add, Multiset.map_add, Multiset.map_singleton]
    abel
  · intro k ok hmem
    obtain ⟨hok', call'', user'', hlive'', hrest⟩ := h.events k ok
      (by rw [hev]; exact Multiset.mem_cons_of_mem hmem)
    have hne : k ≠ j := (h.owned.ne_of_event hev).2 k ok hmem
    exact ⟨hok', call'', user'', (Function.update_of_ne hne _ _).trans hlive'', hrest⟩
  · intro p hp
    rcases List.mem_append.mp hp with hp | hp
    · exact h.out p hp
    · obtain rfl := List.mem_singleton.mp hp
      exact ⟨call', user, huser, hok, rfl⟩

end ClientOk

/-! ### The calls on their way -/

variable {ι : Type} [DecidableEq ι]

/-- The numbers of the calls of client `i` among `calls`. -/
def callsOf (calls : Multiset (ι × ℕ)) (i : ι) : Multiset ℕ :=
  (calls.filter fun c => c.1 = i).map Prod.snd

theorem callsOf_cons_self (calls : Multiset (ι × ℕ)) (i : ι) (j : ℕ) :
    callsOf ((i, j) ::ₘ calls) i = j ::ₘ callsOf calls i := by
  have hfilter := Multiset.filter_cons_of_pos (p := fun c : ι × ℕ => c.1 = i) (a := (i, j)) calls
    rfl
  rw [callsOf, hfilter, Multiset.map_cons, callsOf]

theorem callsOf_cons_of_ne (calls : Multiset (ι × ℕ)) {i k : ι} (j : ℕ) (hne : k ≠ i) :
    callsOf ((i, j) ::ₘ calls) k = callsOf calls k := by
  have hfilter := Multiset.filter_cons_of_neg (p := fun c : ι × ℕ => c.1 = k) (a := (i, j)) calls
    hne.symm
  rw [callsOf, hfilter, callsOf]

/-- The calls that the clients wait for are those of `calls`. -/
def Matches (client : ι → GreeterClient) (calls : Multiset (ι × ℕ)) : Prop :=
  ∀ i, (client i).calls.pending.map Prod.fst = callsOf calls i

namespace Matches

variable {client : ι → GreeterClient} {calls : Multiset (ι × ℕ)} {i : ι} {j : ℕ} {c : GreeterClient}

/-- Client `i` waits for one more. -/
theorem cons (h : Matches client calls)
    (hc : c.calls.pending = (j, ()) ::ₘ (client i).calls.pending) :
    Matches (Function.update client i c) ((i, j) ::ₘ calls) := by
  intro k
  rcases eq_or_ne k i with rfl | hne
  · rw [Function.update_self, callsOf_cons_self, hc, Multiset.map_cons, h k]
  · rw [Function.update_of_ne hne, callsOf_cons_of_ne calls j hne, h k]

/-- Client `i` waits for one less. -/
theorem uncons (h : Matches client ((i, j) ::ₘ calls)) {rest : Multiset (ℕ × Unit)}
    (hpending : (client i).calls.pending = (j, ()) ::ₘ rest) (hc : c.calls.pending = rest) :
    Matches (Function.update client i c) calls := by
  intro k
  have hk := h k
  rcases eq_or_ne k i with rfl | hne
  · rw [hpending, callsOf_cons_self, Multiset.map_cons] at hk
    rw [Function.update_self, hc]
    exact (Multiset.cons_inj_right j).mp hk
  · rw [callsOf_cons_of_ne calls j hne] at hk
    rw [Function.update_of_ne hne]
    exact hk

/-- Client `i` waits for the same calls. -/
theorem same (h : Matches client calls) (hc : c.calls.pending = (client i).calls.pending) :
    Matches (Function.update client i c) calls := by
  intro k
  rcases eq_or_ne k i with rfl | hne
  · rw [Function.update_self, hc, h k]
  · rw [Function.update_of_ne hne, h k]

theorem count_callsOf (calls : Multiset (ι × ℕ)) (i : ι) (j : ℕ) :
    (callsOf calls i).count j = calls.count (i, j) := by
  induction calls using Multiset.induction with
  | empty => rfl
  | cons c calls ih =>
      obtain ⟨k, l⟩ := c
      rcases eq_or_ne i k with rfl | hne
      · rw [callsOf_cons_self, Multiset.count_cons, Multiset.count_cons, ih]
        simp
      · rw [callsOf_cons_of_ne calls l hne, ih, Multiset.count_cons, if_neg, Nat.add_zero]
        exact fun heq => hne (Prod.mk.inj heq).1

/-- No call is on its way twice. -/
theorem nodup (h : Matches client calls) (howned : ∀ i, Owned 0 (client i).calls) :
    calls.Nodup := by
  rw [Multiset.nodup_iff_count_le_one]
  rintro ⟨i, j⟩
  have htags := (Multiset.nodup_add.mp (howned i).nodup).2.1
  have hpending := (Multiset.nodup_add.mp htags).1
  rw [h i] at hpending
  rw [← count_callsOf]
  exact Multiset.nodup_iff_count_le_one.mp hpending j

/-- When no client waits, no call is on its way. -/
theorem calls_zero (h : Matches client calls) (hnone : ∀ i, (client i).calls.pending = 0) :
    calls = 0 := by
  refine Multiset.eq_zero_of_forall_notMem ?_
  rintro ⟨i, j⟩ hmem
  have hcount : j ∈ callsOf calls i := Multiset.mem_map.mpr
    ⟨(i, j), Multiset.mem_filter.mpr ⟨hmem, rfl⟩, rfl⟩
  rw [← h i, hnone i] at hcount
  exact Multiset.notMem_zero j hcount

/-- A call on its way is one that its client waits for. -/
theorem exists_pending (h : Matches client calls) (hmem : (i, j) ∈ calls) :
    ∃ rest, (client i).calls.pending = (j, ()) ::ₘ rest := by
  have hj : j ∈ (client i).calls.pending.map Prod.fst := by
    rw [h i]
    exact Multiset.mem_map.mpr ⟨(i, j), Multiset.mem_filter.mpr ⟨hmem, rfl⟩, rfl⟩
  obtain ⟨⟨k, u⟩, hk, rfl⟩ := Multiset.mem_map.mp hj
  exact Multiset.exists_cons_of_mem hk

/-- A call that its client waits for is on its way. -/
theorem mem_of_pending (h : Matches client calls) {rest : Multiset (ℕ × Unit)}
    (hpending : (client i).calls.pending = (j, ()) ::ₘ rest) : (i, j) ∈ calls := by
  have hj : j ∈ callsOf calls i := by
    rw [← h i, hpending, Multiset.map_cons]
    exact Multiset.mem_cons_self _ _
  obtain ⟨c, hc, hnumber⟩ := Multiset.mem_map.mp hj
  obtain ⟨hmem, hclient⟩ := Multiset.mem_filter.mp hc
  rw [← hclient, ← hnumber]
  exact hmem

theorem pending_zero (h : Matches client 0) (i : ι) : (client i).calls.pending = 0 :=
  Multiset.map_eq_zero.mp (h i)

end Matches

/-! ### The server -/

section

variable {κ : Type} {name : κ → Option String} {q : ServerQueue κ} {a : ℕ} {d : CallData κ}

/-- The call that an operation answers. -/
def Operation.answered : Operation κ → Option κ
  | .requestSayHello => none
  | .finish call _ => call

/-- The calls whose answers are under way. -/
def answering (pending : Multiset (ℕ × Operation κ)) : Multiset κ :=
  pending.filterMap fun op => op.2.answered

theorem answering_request (b : ℕ) (pending : Multiset (ℕ × Operation κ)) :
    answering ((b, .requestSayHello) ::ₘ pending) = answering pending :=
  Multiset.filterMap_cons_none _ _ rfl

theorem answering_finish (b : ℕ) (call : κ) (message : String)
    (pending : Multiset (ℕ × Operation κ)) :
    answering ((b, .finish (some call) message) ::ₘ pending) = call ::ₘ answering pending :=
  Multiset.filterMap_cons_some (fun op : ℕ × Operation κ => op.2.answered) _ _ rfl

/-- The calls that are accepted and not answered yet: that of the object that has waited for one,
and those of the answers under way. -/
def heldCalls (q : ServerQueue κ) (d : CallData κ) : Multiset κ :=
  d.call.elim 0 ({·}) + answering q.pending

/-- The object `d` at `a` waits for a call, or has been given one that is still to be dealt with;
all others are answering theirs, with the name that came with it. -/
structure ServerOk (name : κ → Option String) (q : ServerQueue κ) (a : ℕ) (d : CallData κ) :
    Prop where
  owned : Owned 0 q
  listener : q.heap a = some d
  process : d.status = .process
  others : ∀ b e, q.heap b = some e → b ≠ a → e.status = .finish
  requests : ∀ b, (b, .requestSayHello) ∈ q.pending → b = a
  listens : (d.call = none ∧ (a, .requestSayHello) ∈ q.pending) ∨
    ∃ call, d.call = some call ∧ name call = some d.request ∧ (a, true) ∈ q.events
  finishes : ∀ b call message, (b, .finish call message) ∈ q.pending → b ≠ a ∧
    ∃ c user, call = some c ∧ name c = some user ∧ message = "Hello " ++ user

namespace ServerOk

theorem pending_new (b : ℕ) (q : ServerQueue κ) :
    (CallData.new b q).pending = (b, .requestSayHello) ::ₘ q.pending := rfl

theorem start : ServerOk name (CallData.new 0 .empty) 0 { status := .process } where
  owned := Owned.empty.new rfl _ _
  listener := rfl
  process := rfl
  others := fun b e he hne => by
    have hnone : (CallData.new 0 State.empty : ServerQueue κ).heap b = none :=
      Function.update_of_ne hne _ _
    rw [hnone] at he
    cases he
  requests := fun b hmem => by
    rw [pending_new] at hmem
    rcases Multiset.mem_cons.mp hmem with heq | hmem
    · cases heq
      rfl
    · exact absurd hmem (Multiset.notMem_zero _)
  listens := .inl ⟨rfl, by rw [pending_new]; exact Multiset.mem_cons_self _ _⟩
  finishes := fun b call message hmem => by
    rw [pending_new] at hmem
    rcases Multiset.mem_cons.mp hmem with heq | hmem
    · cases heq
    · exact absurd hmem (Multiset.notMem_zero _)

/-- The runtime gives a call to the object that waits for one. -/
theorem accept (h : ServerOk name q a d) {b : ℕ} {pending : Multiset (ℕ × Operation κ)}
    {e : CallData κ} (hop : q.pending = (b, .requestSayHello) ::ₘ pending)
    (hobj : q.heap b = some e) {call : κ} {user : String} (hname : name call = some user) :
    ServerOk name (q.complete pending b { e with call := some call, request := user } true) a
        { d with call := some call, request := user } ∧
      heldCalls (q.complete pending b { e with call := some call, request := user } true)
        { d with call := some call, request := user } = call ::ₘ heldCalls q d := by
  have hba : b = a := h.requests b (by rw [hop]; exact Multiset.mem_cons_self _ _)
  subst hba
  obtain rfl : d = e := Option.some.inj (h.listener.symm.trans hobj)
  have hrest := (h.owned.ne_of_pending hop).1
  -- an object with an operation has no event
  have hnone : d.call = none := by
    rcases h.listens with ⟨hnone, -⟩ | ⟨call', -, -, hev⟩
    · exact hnone
    · exact absurd rfl ((h.owned.ne_of_pending hop).2 b true hev)
  refine ⟨⟨h.owned.complete hop _ _, Function.update_self .., h.process, ?_, ?_, ?_, ?_⟩, ?_⟩
  · intro c e he hne
    exact h.others c e ((Function.update_of_ne hne _ _).symm.trans he) hne
  · intro c hmem
    exact absurd (h.requests c (by rw [hop]; exact Multiset.mem_cons_of_mem hmem))
      (hrest c _ hmem)
  · exact .inr ⟨call, rfl, hname, Multiset.mem_cons_self _ _⟩
  · intro c call' message hmem
    exact h.finishes c call' message (by rw [hop]; exact Multiset.mem_cons_of_mem hmem)
  · rw [heldCalls, heldCalls, hnone, hop, answering_request]
    show {call} + answering pending = call ::ₘ (0 + answering pending)
    rw [zero_add, Multiset.singleton_add]

/-- `Proceed` runs for an event of a live object. -/
theorem proceed (h : ServerOk name q a d) {tag fresh : ℕ} {events : Multiset (ℕ × Bool)}
    (hev : q.events = (tag, true) ::ₘ events) (hfresh : q.heap fresh = none) {e : CallData κ}
    (hobj : q.heap tag = some e) :
    ∃ a' d', ServerOk name (e.proceed fresh tag (q.take events)) a' d' ∧
      heldCalls (e.proceed fresh tag (q.take events)) d' = heldCalls q d := by
  obtain ⟨hpendingNe, heventsNe⟩ := h.owned.ne_of_event hev
  have htaken := h.owned.take hev
  rcases eq_or_ne tag a with rfl | hne
  · -- the call that was given: a new object listens, and this one answers
    obtain rfl : d = e := Option.some.inj (h.listener.symm.trans hobj)
    have hfreshNe : tag ≠ fresh := by
      rintro rfl
      rw [hfresh] at hobj
      cases hobj
    obtain ⟨call, hcall, hname⟩ : ∃ call, d.call = some call ∧ name call = some d.request := by
      rcases h.listens with ⟨-, hop⟩ | ⟨call, hcall, hname, -⟩
      · exact absurd rfl (hpendingNe tag _ hop)
      · exact ⟨call, hcall, hname⟩
    simp only [CallData.proceed, h.process]
    refine ⟨fresh, { status := .process }, ⟨?_, ?_, rfl, ?_, ?_, ?_, ?_⟩, ?_⟩
    · exact (htaken.new hfresh _ _).resume _ _
    · exact (Function.update_of_ne hfreshNe.symm _ _).trans (Function.update_self ..)
    · intro b e he hb
      rcases eq_or_ne b tag with rfl | hbt
      · cases (Function.update_self ..).symm.trans he
        rfl
      · refine h.others b e (Eq.trans ?_ he) hbt
        exact ((Function.update_of_ne hbt _ _).trans (Function.update_of_ne hb _ _)).symm
    · intro b hmem
      rcases Multiset.mem_cons.mp hmem with heq | hmem
      · cases heq
      · rcases Multiset.mem_cons.mp hmem with heq | hmem
        · cases heq
          rfl
        · exact absurd (h.requests b hmem) (hpendingNe b _ hmem)
    · exact .inl ⟨rfl, Multiset.mem_cons_of_mem (Multiset.mem_cons_self _ _)⟩
    · intro b call' message hmem
      rcases Multiset.mem_cons.mp hmem with heq | hmem
      · cases heq
        exact ⟨hfreshNe, call, d.request, hcall, hname, rfl⟩
      · rcases Multiset.mem_cons.mp hmem with heq | hmem
        · cases heq
        · obtain ⟨x, hx⟩ := h.owned.live_of_pending (k := .finish call' message) hmem
          refine ⟨?_, (h.finishes b call' message hmem).2⟩
          rintro rfl
          rw [hfresh] at hx
          cases hx
    · show 0 + answering ((tag, .finish d.call ("Hello " ++ d.request)) ::ₘ
        (fresh, .requestSayHello) ::ₘ q.pending) = heldCalls q d
      rw [heldCalls, hcall, answering_finish, answering_request, zero_add]
      exact (Multiset.singleton_add _ _).symm
  · -- an answer that was sent: the object deletes itself
    have hfinish : e.status = .finish := h.others tag e hobj hne
    simp only [CallData.proceed, hfinish]
    refine ⟨a, d, ⟨htaken.free, ?_, h.process, ?_, h.requests, ?_, h.finishes⟩, rfl⟩
    · exact (Function.update_of_ne hne.symm _ _).trans h.listener
    · intro b e' he hb
      rcases eq_or_ne b tag with rfl | hbt
      · cases (Function.update_self ..).symm.trans he
      · exact h.others b e' ((Function.update_of_ne hbt _ _).symm.trans he) hb
    · rcases h.listens with hop | ⟨call, hcall, hname, hmem⟩
      · exact .inl hop
      · rw [hev] at hmem
        rcases Multiset.mem_cons.mp hmem with heq | hmem
        · cases heq
          exact absurd rfl hne
        · exact .inr ⟨call, hcall, hname, hmem⟩

/-- An answer has been sent, or could not be. -/
theorem answer (h : ServerOk name q a d) {b : ℕ} {call : κ} {message : String}
    {pending : Multiset (ℕ × Operation κ)} {e : CallData κ}
    (hop : q.pending = (b, .finish (some call) message) ::ₘ pending) (hobj : q.heap b = some e)
    (ok : Bool) :
    ServerOk name (q.complete pending b e ok) a d ∧
      heldCalls q d = call ::ₘ heldCalls (q.complete pending b e ok) d := by
  have hmem : (b, .finish (some call) message) ∈ q.pending := by
    rw [hop]
    exact Multiset.mem_cons_self _ _
  have hb : b ≠ a := (h.finishes b _ message hmem).1
  have hsame : ∀ c, (q.complete pending b e ok).heap c = q.heap c := by
    intro c
    rcases eq_or_ne c b with rfl | hc
    · exact (Function.update_self ..).trans hobj.symm
    · exact Function.update_of_ne hc _ _
  refine ⟨⟨h.owned.complete hop e ok, ?_, h.process, ?_, ?_, ?_, ?_⟩, ?_⟩
  · rw [hsame]
    exact h.listener
  · intro c x hx hne
    rw [hsame] at hx
    exact h.others c x hx hne
  · intro c hc
    exact h.requests c (by rw [hop]; exact Multiset.mem_cons_of_mem hc)
  · rcases h.listens with ⟨hnone, hreq⟩ | ⟨c, hc, hname, hev⟩
    · rw [hop] at hreq
      rcases Multiset.mem_cons.mp hreq with heq | hreq
      · cases heq
      · exact .inl ⟨hnone, hreq⟩
    · exact .inr ⟨c, hc, hname, Multiset.mem_cons_of_mem hev⟩
  · intro c call' message' hc
    exact h.finishes c call' message' (by rw [hop]; exact Multiset.mem_cons_of_mem hc)
  · rw [heldCalls, heldCalls, hop, answering_finish, Multiset.add_cons]
    rfl

/-- With no call and no event the listener is the only object. -/
theorem alone (h : ServerOk name q a d) (hevents : q.events = 0) (hheld : heldCalls q d = 0) :
    ∀ b, b ≠ a → q.heap b = none := by
  intro b hb
  rw [← Option.not_isSome_iff_eq_none, h.owned.live, zero_add, State.tags, hevents,
    Multiset.map_zero, add_zero]
  intro hmem
  obtain ⟨⟨c, op⟩, hop, rfl⟩ := Multiset.mem_map.mp hmem
  cases op with
  | requestSayHello => exact hb (h.requests c hop)
  | finish call message =>
      obtain ⟨-, c', user, rfl, -⟩ := h.finishes c call message hop
      have hanswer : c' ∈ heldCalls q d := Multiset.mem_add.mpr
        (.inr ((Multiset.mem_filterMap _ _).mpr ⟨_, hop, rfl⟩))
      rw [hheld] at hanswer
      exact Multiset.notMem_zero c' hanswer

end ServerOk

end

theorem card_proceed {κ : Type} (fresh this : ℕ) (d : CallData κ) (q : ServerQueue κ) :
    (d.proceed fresh this q).pending.card ≤ q.pending.card + 2 := by
  rw [CallData.proceed]
  cases d.status with
  | create =>
      simp only [CallData.create, State.start, Multiset.card_cons]
      omega
  | process =>
      simp only [CallData.new, CallData.create, State.start, Multiset.card_cons]
      omega
  | finish => exact Nat.le_add_right _ 2

/-! ### The whole system -/

variable {users : ι → List String} {lossy : Prop} {s s' : System ι} {ls : List Unit}

/-- The name that a call carries. -/
def nameOf (users : ι → List String) (call : ι × ℕ) : Option String := (users call.1)[call.2]?

/-- The invariant.  When the server is gone, nothing is known any more of the calls without a result
in flight but that their clients wait. -/
structure Inv (users : ι → List String) (lossy : Prop) (s : System ι) : Prop where
  client : ∀ i, ClientOk (users i) lossy (s.client i)
  waiting : ∀ call user, (call, user) ∈ s.waiting → nameOf users call = some user
  answers : ∀ call result, (call, result) ∈ s.answers → AnswerOk lossy (nameOf users call) result
  calls : ∃ unanswered, Matches s.client (s.answers.map Prod.fst + unanswered) ∧
    (s.server.aborted = false → ∃ a d, ServerOk (nameOf users) s.server.cq a d ∧
      unanswered = s.waiting.map Prod.fst + heldCalls s.server.cq d)
  reliable : ¬ lossy → s.server.aborted = false ∧
    ∀ tag ok, (tag, ok) ∈ s.server.cq.events → ok = true

namespace Inv

theorem init : Inv users lossy System.start where
  client := fun _ => ClientOk.init
  waiting := fun _ _ hmem => absurd hmem (Multiset.notMem_zero _)
  answers := fun _ _ hmem => absurd hmem (Multiset.notMem_zero _)
  calls := ⟨0, fun _ => rfl, fun _ => ⟨0, { status := .process }, ServerOk.start, rfl⟩⟩
  reliable := fun _ => ⟨rfl, fun _ _ hmem => absurd hmem (Multiset.notMem_zero _)⟩

/-- While the server runs, a call that is waited for waits at the server, is held by it, or has its
answer in flight. -/
theorem server (h : Inv users lossy s) (hup : s.server.aborted = false) :
    ∃ a d, ServerOk (nameOf users) s.server.cq a d ∧
      Matches s.client (s.answers.map Prod.fst +
        (s.waiting.map Prod.fst + heldCalls s.server.cq d)) := by
  obtain ⟨unanswered, hmatches, hserver⟩ := h.calls
  obtain ⟨a, d, hok, rfl⟩ := hserver hup
  exact ⟨a, d, hok, hmatches⟩

/-- One client changes. -/
theorem client_update (h : Inv users lossy s) {i : ι} {c : GreeterClient}
    (hc : ClientOk (users i) lossy c) :
    ∀ k, ClientOk (users k) lossy (Function.update s.client i c k) := by
  refine (Function.forall_update_iff s.client fun k c => ClientOk (users k) lossy c).mpr ?_
  exact ⟨hc, fun k _ => h.client k⟩

/-- A call that its client waits for has a name. -/
theorem name_of_pending (h : Inv users lossy s) {i : ι} {j : ℕ} {rest : Multiset (ℕ × Unit)}
    (hcall : (s.client i).calls.pending = (j, ()) ::ₘ rest) :
    ∃ user, nameOf users (i, j) = some user := by
  have hmem : j ∈ (s.client i).calls.tags := by
    rw [State.tags, hcall, Multiset.map_cons, Multiset.cons_add]
    exact Multiset.mem_cons_self _ _
  have hlt := Nat.lt_of_lt_of_le ((h.client i).lt_sent hmem) (h.client i).sent_le
  exact ⟨_, List.getElem?_eq_getElem hlt⟩

/-- The results that a call may have keep its client in order. -/
theorem client_result (h : Inv users lossy s) {i : ι} {j : ℕ} {rest : Multiset (ℕ × Unit)}
    (hcall : (s.client i).calls.pending = (j, ()) ::ₘ rest) {result : Option String}
    (hok : AnswerOk lossy (nameOf users (i, j)) result) (call : AsyncClientCall) :
    ∀ k, ClientOk (users k) lossy
      (Function.update s.client i ((s.client i).result rest j (call.finish result)) k) := by
  obtain ⟨user, huser⟩ := h.name_of_pending hcall
  rw [huser] at hok
  exact h.client_update ((h.client i).result hcall huser (hok.callOk call))

omit [DecidableEq ι] in
/-- A result is put in flight. -/
theorem answers_cons {call : ι × ℕ} {result : Option String}
    {answers : Multiset ((ι × ℕ) × Option String)}
    (h : ∀ c r, (c, r) ∈ answers → AnswerOk lossy (nameOf users c) r)
    (hok : AnswerOk lossy (nameOf users call) result) :
    ∀ c r, (c, r) ∈ (call, result) ::ₘ answers → AnswerOk lossy (nameOf users c) r := by
  intro c r hmem
  rcases Multiset.mem_cons.mp hmem with heq | hmem
  · cases heq
    exact hok
  · exact h c r hmem

/-- **One move.** -/
theorem step (h : Inv users lossy s) (hstep : GreeterStep users lossy () s s') :
    Inv users lossy s' := by
  cases hstep with
  | @sayHello i user huser =>
      obtain ⟨unanswered, hmatches, hserver⟩ := h.calls
      refine ⟨h.client_update ((h.client i).sayHello huser), ?_, h.answers,
        ⟨(i, (s.client i).sent) ::ₘ unanswered, ?_, fun hup => ?_⟩, h.reliable⟩
      · intro call name hmem
        rcases Multiset.mem_cons.mp hmem with heq | hmem
        · cases heq
          exact huser
        · exact h.waiting call name hmem
      · rw [Multiset.add_cons]
        exact hmatches.cons rfl
      · obtain ⟨a, d, hok, rfl⟩ := hserver hup
        exact ⟨a, d, hok, by rw [Multiset.map_cons, Multiset.cons_add]⟩
  | @accept call user waiting a pending d hup hwaiting hop hobj =>
      have hname : nameOf users call = some user :=
        h.waiting call user (by rw [hwaiting]; exact Multiset.mem_cons_self _ _)
      obtain ⟨b, e, hserver, hmatches⟩ := h.server hup
      obtain ⟨haccept, hheld⟩ := hserver.accept hop hobj hname
      refine ⟨h.client, ?_, h.answers, ⟨_, hmatches, fun _ => ⟨b, _, haccept, ?_⟩⟩, ?_⟩
      · intro call' user' hmem
        exact h.waiting call' user' (by rw [hwaiting]; exact Multiset.mem_cons_of_mem hmem)
      · rw [hheld, hwaiting, Multiset.map_cons, Multiset.cons_add, Multiset.add_cons]
      · intro hnot
        refine ⟨hup, fun tag ok hmem => ?_⟩
        rcases Multiset.mem_cons.mp hmem with heq | hmem
        · cases heq
          rfl
        · exact (h.reliable hnot).2 tag ok hmem
  | @turn tag fresh ok events server hup hev hfresh hturn =>
      have hmem : (tag, ok) ∈ s.server.cq.events := by
        rw [hev]
        exact Multiset.mem_cons_self _ _
      obtain ⟨a, d, hserver, hmatches⟩ := h.server hup
      rcases ServerImpl.turn_cases hturn with ⟨rfl, e, hobj, rfl⟩ | ⟨rfl, rfl⟩
      · obtain ⟨a', d', hnext, hheld⟩ := hserver.proceed hev hfresh hobj
        refine ⟨h.client, h.waiting, h.answers,
          ⟨_, hmatches, fun _ => ⟨a', d', hnext, by rw [hheld]⟩⟩,
          fun hnot => ⟨hup, fun tag' ok' hmem' => (h.reliable hnot).2 tag' ok' ?_⟩⟩
        rw [CallData.proceed_events] at hmem'
        rw [hev]
        exact Multiset.mem_cons_of_mem hmem'
      · refine ⟨h.client, h.waiting, h.answers, ⟨_, hmatches, fun hup' => by cases hup'⟩,
          fun hnot => ?_⟩
        -- an event that is not `ok` means that a call broke off
        have hok := (h.reliable hnot).2 tag false hmem
        cases hok
  | @answer a call message pending d hup hop hobj =>
      obtain ⟨b, e, hserver, hmatches⟩ := h.server hup
      obtain ⟨hnext, hheld⟩ := hserver.answer hop hobj true
      refine ⟨h.client, h.waiting, answers_cons h.answers ?_,
        ⟨_, ?_, fun _ => ⟨b, e, hnext, rfl⟩⟩, fun hnot => ⟨hup, fun tag ok hmem => ?_⟩⟩
      · -- the message is made from the name that the call carries
        obtain ⟨-, c, user, hc, huser, hmessage⟩ := hserver.finishes a (some call) message
          (by rw [hop]; exact Multiset.mem_cons_self _ _)
        cases hc
        exact ⟨user, huser, hmessage⟩
      · rw [hheld, Multiset.add_cons, Multiset.add_cons] at hmatches
        rw [Multiset.map_cons, Multiset.cons_add]
        exact hmatches
      · rcases Multiset.mem_cons.mp hmem with heq | hmem
        · cases heq
          rfl
        · exact (h.reliable hnot).2 tag ok hmem
  | @lost a call message pending d hlossy hup hop hobj =>
      obtain ⟨b, e, hserver, hmatches⟩ := h.server hup
      obtain ⟨hnext, hheld⟩ := hserver.answer hop hobj false
      refine ⟨h.client, h.waiting, answers_cons h.answers hlossy,
        ⟨_, ?_, fun _ => ⟨b, e, hnext, rfl⟩⟩, fun hnot => absurd hlossy hnot⟩
      rw [hheld, Multiset.add_cons, Multiset.add_cons] at hmatches
      rw [Multiset.map_cons, Multiset.cons_add]
      exact hmatches
  | @drop call user waiting hlossy hup hwaiting =>
      obtain ⟨a, d, hserver, hmatches⟩ := h.server hup
      refine ⟨h.client, ?_, answers_cons h.answers hlossy,
        ⟨_, ?_, fun _ => ⟨a, d, hserver, rfl⟩⟩, h.reliable⟩
      · intro call' user' hmem
        exact h.waiting call' user' (by rw [hwaiting]; exact Multiset.mem_cons_of_mem hmem)
      · rw [hwaiting, Multiset.map_cons, Multiset.cons_add, Multiset.add_cons] at hmatches
        rw [Multiset.map_cons, Multiset.cons_add]
        exact hmatches
  | @vanish call message answers hlossy hanswer =>
      have hsame : ((call, none) ::ₘ answers).map Prod.fst = s.answers.map Prod.fst := by
        rw [hanswer, Multiset.map_cons, Multiset.map_cons]
      refine ⟨h.client, h.waiting, answers_cons (fun c r hmem => h.answers c r ?_) hlossy, ?_,
        h.reliable⟩
      · rw [hanswer]
        exact Multiset.mem_cons_of_mem hmem
      · rw [hsame]
        exact h.calls
  | @arrive i j result answers rest call hanswer hcall hlive =>
      obtain ⟨unanswered, hmatches, hserver⟩ := h.calls
      rw [hanswer, Multiset.map_cons, Multiset.cons_add] at hmatches
      refine ⟨h.client_result hcall (h.answers _ _ ?_) call, h.waiting,
        fun c r hmem => h.answers c r ?_, ⟨unanswered, hmatches.uncons hcall rfl, hserver⟩,
        h.reliable⟩
      · rw [hanswer]
        exact Multiset.mem_cons_self _ _
      · rw [hanswer]
        exact Multiset.mem_cons_of_mem hmem
  | @down i j rest call hdown hcall hlive hunanswered =>
      have hbroken : AnswerOk lossy (nameOf users (i, j)) none := by
        by_contra hnot
        cases hdown.symm.trans (h.reliable hnot).1
      obtain ⟨unanswered, hmatches, -⟩ := h.calls
      have hmem := (Multiset.mem_add.mp (hmatches.mem_of_pending hcall)).resolve_left hunanswered
      obtain ⟨others, rfl⟩ := Multiset.exists_cons_of_mem hmem
      rw [Multiset.add_cons] at hmatches
      refine ⟨h.client_result hcall hbroken call, h.waiting, h.answers,
        ⟨others, hmatches.uncons hcall rfl, fun hup => ?_⟩, h.reliable⟩
      cases hdown.symm.trans hup
  | @print i j rest call hev hlive =>
      obtain ⟨unanswered, hmatches, hserver⟩ := h.calls
      exact ⟨h.client_update ((h.client i).complete hev hlive), h.waiting, h.answers,
        ⟨unanswered, hmatches.same rfl, hserver⟩, h.reliable⟩

theorem of_run (hrun : Run (GreeterStep users lossy) System.start ls s) : Inv users lossy s := by
  refine hrun.invariant init ?_
  rintro ⟨⟩ a b ha hstep
  exact ha.step hstep

end Inv

end RpcTransport.Greeter
