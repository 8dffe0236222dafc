import RpcTransport.Capnp

/-!
# One Cap'n Proto connection

What one connection sees of the server is its own messages and the object its capability stands for.
`ConnStep` are its moves on these two alone, and `capnpStep_conn` says that the moves of the whole
system on its shared heap are no more than that: no connection reaches the object of another.
`capnpStep_of_conn` is the other way round: what a connection can do by itself, it can do in the
system.
-/

namespace RpcTransport

/-- A connection and the object its capability stands for, once there is one. -/
abbrev ConnView := CapnpConn × Option ReqSvcImpl

/-- The moves of one connection. -/
inductive ConnStep (x : CapnpSetup) : ConnView → ConnView → Prop
  | start {v : CapnpConn} {o : Option ReqSvcImpl} (hconn : v.connected = true)
      (hpc : v.stream = none) :
      ConnStep x (v, o)
        ({ v with stream := some (.send 0), toServer := v.toServer ++ [.reqReply] }, o)
  | send {v : CapnpConn} {o : Option ReqSvcImpl} {k : ℕ} (hconn : v.connected = true)
      (hpc : v.stream = some (.send k)) :
      ConnStep x (v, o)
        ({ v with
          stream := some (sendRequestStream x.request k).1
          toServer := v.toServer ++ (sendRequestStream x.request k).2.map .call }, o)
  | ack {v : CapnpConn} {o : Option ReqSvcImpl} {k : ℕ} (hconn : v.connected = true)
      (hpc : v.stream = some (.sent k)) (hflow : v.toServer.length ≤ x.flow) :
      ConnStep x (v, o) ({ v with stream := some (.send (k + 1)) }, o)
  | receive {v : CapnpConn} {o : Option ReqSvcImpl} {m : ToClient} {ms : List ToClient}
      (hconn : v.connected = true) (hqueue : v.toClient = m :: ms) :
      ConnStep x (v, o) ({ v with toClient := ms }.receive m, o)
  | reqReply {v : CapnpConn} {o : Option ReqSvcImpl} {ms : List ToServer} (n : ℕ)
      (hqueue : v.toServer = .reqReply :: ms) :
      ConnStep x (v, o) ({ v with toServer := ms, reqSvc := some n }, some {})
  | sendChunk {v : CapnpConn} {o : ReqSvcImpl} {chunk : DataBuf} {ms : List ToServer}
      (hqueue : v.toServer = .call (.sendChunk chunk) :: ms) :
      ConnStep x (v, some o) ({ v with toServer := ms }, some (o.sendChunk chunk))
  | done {v : CapnpConn} {o o' : ReqSvcImpl} {ms : List ToServer}
      (hqueue : v.toServer = .call .done :: ms) (hdone : o.done x.rcvFn = .ok o') :
      ConnStep x (v, some o) ({ v with toServer := ms, task := some (.send 0) }, some o')
  | reply {v : CapnpConn} {o : ReqSvcImpl} {k : ℕ} (hconn : v.connected = true)
      (hpc : v.task = some (.send k)) :
      ConnStep x (v, some o)
        ({ v with
          task := some (sendReplyStream o.sndMsg k).1
          toClient := v.toClient ++ (sendReplyStream o.sndMsg k).2.map .call }, some o)
  | ackReply {v : CapnpConn} {o : Option ReqSvcImpl} {k : ℕ} (hconn : v.connected = true)
      (hpc : v.task = some (.sent k)) (hflow : v.toClient.length ≤ x.flow) :
      ConnStep x (v, o) ({ v with task := some (.send (k + 1)) }, o)
  | replyReturned {v : CapnpConn} {o : Option ReqSvcImpl} {ms : List ToServer}
      (hqueue : v.toServer = .replyReturned :: ms) :
      ConnStep x (v, o)
        ({ v with
          toServer := ms
          task := some .finished
          toClient := if v.connected then v.toClient ++ [.returned] else v.toClient }, o)

/-- The connection breaks. -/
inductive ConnBreak : ConnView → ConnView → Prop
  | mk {v : CapnpConn} {o : Option ReqSvcImpl} (j : ℕ) (hconn : v.connected = true) :
      ConnBreak (v, o) ({ v with
        connected := false, toServer := v.toServer.take j, toClient := [] }, o)

/-! ### The shared heap -/

section Heap

variable {ι : Type} [DecidableEq ι]

/-- What connection `i` sees. -/
def CapnpState.view (s : CapnpState ι) (i : ι) : ConnView :=
  (s.conn i, (s.conn i).reqSvc.map s.heap)

/-- Every capability stands for an object of its own that exists, every object whose `done` was
called belongs to a connection, and the server is up. -/
structure HeapOk (s : CapnpState ι) : Prop where
  fresh : ∀ i n, (s.conn i).reqSvc = some n → n < s.next
  own : ∀ i j n, (s.conn i).reqSvc = some n → (s.conn j).reqSvc = some n → i = j
  owned : ∀ n, (s.heap n).calls ≠ [] → ∃ i, (s.conn i).reqSvc = some n
  up : s.down = false

omit [DecidableEq ι] in
theorem HeapOk.init : HeapOk ({} : CapnpState ι) where
  fresh := by intro i n h; cases h
  own := by intro i j n h; cases h
  owned := fun n h => absurd rfl h
  up := rfl

@[simp] theorem CapnpState.set_conn_self (s : CapnpState ι) (i : ι) (v : CapnpConn) :
    (s.set i v).conn i = v := Function.update_self _ _ _

theorem CapnpState.set_conn_of_ne (s : CapnpState ι) {i j : ι} (v : CapnpConn) (h : j ≠ i) :
    (s.set i v).conn j = s.conn j := Function.update_of_ne h _ _

/-- What connection `j` has after a move that replaced connection `i`. -/
theorem CapnpState.set_reqSvc {s : CapnpState ι} {i : ι} {v : CapnpConn}
    (hsame : v.reqSvc = (s.conn i).reqSvc) (j : ι) :
    ((s.set i v).conn j).reqSvc = (s.conn j).reqSvc := by
  rcases eq_or_ne j i with rfl | hne
  · rw [CapnpState.set_conn_self, hsame]
  · rw [CapnpState.set_conn_of_ne s v hne]

/-- A move of the whole system that is the move `R` of connection `i` and its object. -/
def OwnMove (R : ConnView → ConnView → Prop) (i : ι) (s s' : CapnpState ι) : Prop :=
  HeapOk s' ∧ R (s.view i) (s'.view i) ∧ ∀ j, j ≠ i → s'.view j = s.view j

variable {R : ConnView → ConnView → Prop} {s : CapnpState ι} {i : ι} {v : CapnpConn}

/-- A move that touches connection `i` alone. -/
theorem HeapOk.set (h : HeapOk s) (hsame : v.reqSvc = (s.conn i).reqSvc)
    (hmove : R (s.view i) (v, (s.view i).2)) : OwnMove R i s (s.set i v) := by
  have hview : (s.set i v).view i = (v, (s.view i).2) := by
    simp only [CapnpState.view, CapnpState.set_conn_self, hsame]
    rfl
  refine ⟨⟨fun j n hj => ?_, fun j k n hj hk => ?_, fun n hn => ?_, h.up⟩, ?_, fun j hne => ?_⟩
  · rw [CapnpState.set_reqSvc hsame] at hj
    exact h.fresh j n hj
  · rw [CapnpState.set_reqSvc hsame] at hj hk
    exact h.own j k n hj hk
  · obtain ⟨j, hj⟩ := h.owned n hn
    exact ⟨j, by rw [CapnpState.set_reqSvc hsame, hj]⟩
  · rw [hview]
    exact hmove
  · simp only [CapnpState.view, CapnpState.set_conn_of_ne s v hne]
    rfl

/-- A move that also changes the object of connection `i`. -/
theorem HeapOk.setObj (h : HeapOk s) {n : ℕ} {o : ReqSvcImpl} (hcap : (s.conn i).reqSvc = some n)
    (hsame : v.reqSvc = (s.conn i).reqSvc) (hmove : R (s.conn i, some (s.heap n)) (v, some o)) :
    OwnMove R i s { s.set i v with heap := Function.update s.heap n o } := by
  have hobj : s.view i = (s.conn i, some (s.heap n)) := by
    simp only [CapnpState.view, hcap, Option.map_some]
  refine ⟨⟨fun j m hj => ?_, fun j k m hj hk => ?_, fun m hm => ?_, h.up⟩, ?_, fun j hne => ?_⟩
  · exact h.fresh j m ((CapnpState.set_reqSvc hsame j).symm.trans hj)
  · exact h.own j k m ((CapnpState.set_reqSvc hsame j).symm.trans hj)
      ((CapnpState.set_reqSvc hsame k).symm.trans hk)
  · rcases eq_or_ne m n with rfl | hne
    · exact ⟨i, (CapnpState.set_reqSvc hsame i).trans hcap⟩
    · simp only [Function.update_of_ne hne] at hm
      obtain ⟨j, hj⟩ := h.owned m hm
      exact ⟨j, (CapnpState.set_reqSvc hsame j).trans hj⟩
  · rw [hobj]
    simpa only [CapnpState.view, CapnpState.set_conn_self, hsame, hcap, Option.map_some,
      Function.update_self] using hmove
  · have hother : ∀ m, (s.conn j).reqSvc = some m → m ≠ n := by
      rintro m hm rfl
      exact hne (h.own j i m hm hcap)
    simp only [CapnpState.view, CapnpState.set_conn_of_ne s v hne]
    cases hj : (s.conn j).reqSvc with
    | none => rfl
    | some m => simp only [Option.map_some, Function.update_of_ne (hother m hj)]

/-- A move that gives connection `i` a new object. -/
theorem HeapOk.alloc (h : HeapOk s) (hnone : (s.conn i).reqSvc = none)
    (hcap : v.reqSvc = some s.next) (hmove : R (s.view i) (v, some {})) :
    OwnMove R i s
      { s.set i v with heap := Function.update s.heap s.next {}, next := s.next + 1 } := by
  have hself : ∀ m, ((s.set i v).conn i).reqSvc = some m → m = s.next := by
    intro m hm
    rw [CapnpState.set_conn_self, hcap] at hm
    exact (Option.some.inj hm).symm
  have hconn : ∀ j, j ≠ i → (s.set i v).conn j = s.conn j :=
    fun j hne => CapnpState.set_conn_of_ne s v hne
  -- the number of an older object is not the new one
  have hold : ∀ j m, j ≠ i → ((s.set i v).conn j).reqSvc = some m → m < s.next := by
    intro j m hne hm
    rw [hconn j hne] at hm
    exact h.fresh j m hm
  refine ⟨⟨fun j m hj => ?_, fun j k m hj hk => ?_, fun m hm => ?_, h.up⟩, ?_, fun j hne => ?_⟩
  · show m < s.next + 1
    by_cases hji : j = i
    · subst hji
      have := hself m hj
      omega
    · have := hold j m hji hj
      omega
  · by_cases hji : j = i <;> by_cases hki : k = i
    · rw [hji, hki]
    · subst hji
      have := hself m hj
      have := hold k m hki hk
      omega
    · subst hki
      have := hself m hk
      have := hold j m hji hj
      omega
    · have hj' := hj
      have hk' := hk
      simp only [hconn j hji, hconn k hki] at hj' hk'
      exact h.own j k m hj' hk'
  · rcases eq_or_ne m s.next with rfl | hne
    · simp only [Function.update_self] at hm
      exact absurd rfl hm
    · simp only [Function.update_of_ne hne] at hm
      obtain ⟨j, hj⟩ := h.owned m hm
      have hji : j ≠ i := by
        rintro rfl
        rw [hnone] at hj
        cases hj
      exact ⟨j, by simp only [hconn j hji, hj]⟩
  · simpa only [CapnpState.view, CapnpState.set_conn_self, hcap, Option.map_some,
      Function.update_self] using hmove
  · simp only [CapnpState.view, hconn j hne]
    cases hj : (s.conn j).reqSvc with
    | none => rfl
    | some m =>
        have := h.fresh j m hj
        simp only [Option.map_some, Function.update_of_ne (show m ≠ s.next by omega)]

/-- What a connection guarantees about its next message: `reqReply` comes before there is an object,
and `done` when the receive function will return. -/
structure Settled (x : CapnpSetup) (p : ConnView) : Prop where
  alloc : ∀ ms, p.1.toServer = .reqReply :: ms → p.2 = none
  returns : ∀ ms o, p.1.toServer = .call .done :: ms → p.2 = some o →
    ∃ o', o.done x.rcvFn = .ok o'

/-- **The heap keeps connections apart.**  A move of connection `i` is one of its own moves on its
own object, and no other connection sees it. -/
theorem capnpStep_conn {x : ι → CapnpSetup} {s' : CapnpState ι} (h : HeapOk s)
    (hsettled : Settled (x i) (s.view i)) (hstep : CapnpStep x i s s') :
    OwnMove (ConnStep (x i)) i s s' := by
  have hobj : ∀ n, (s.conn i).reqSvc = some n → s.view i = (s.conn i, some (s.heap n)) := by
    intro n hcap
    simp only [CapnpState.view, hcap, Option.map_some]
  cases hstep with
  | start hconn hpc => exact h.set rfl (.start hconn hpc)
  | send hconn hpc => exact h.set rfl (.send hconn hpc)
  | ack hconn hpc hflow => exact h.set rfl (.ack hconn hpc hflow)
  | @receive m ms hconn hqueue =>
      have hsame : ({ s.conn i with toClient := ms }.receive m).reqSvc = (s.conn i).reqSvc := by
        cases m with
        | call c => cases c <;> rfl
        | returned => rfl
      exact h.set hsame (.receive hconn hqueue)
  | reqReply hup hqueue =>
      have hnone : (s.conn i).reqSvc = none := Option.map_eq_none_iff.mp (hsettled.alloc _ hqueue)
      exact h.alloc hnone rfl (.reqReply _ hqueue)
  | sendChunk hup hqueue hcap => exact h.setObj hcap rfl (.sendChunk hqueue)
  | done hup hqueue hcap hdone => exact h.setObj hcap rfl (.done hqueue hdone)
  | abort hup hqueue hcap hdone =>
      obtain ⟨o', ho'⟩ := hsettled.returns _ _ hqueue (congrArg Prod.snd (hobj _ hcap))
      rw [hdone] at ho'
      cases ho'
  | reply hup hconn hpc hcap =>
      refine h.set rfl ?_
      rw [hobj _ hcap]
      exact .reply hconn hpc
  | ackReply hup hconn hpc hflow => exact h.set rfl (.ackReply hconn hpc hflow)
  | replyReturned hup hqueue => exact h.set rfl (.replyReturned hqueue)

/-- Connection `i` breaks, which no other connection sees. -/
theorem disconnect_conn {s' : CapnpState ι} (h : HeapOk s) (hstep : Disconnect i s s') :
    OwnMove ConnBreak i s s' := by
  cases hstep with
  | mk j hconn => exact h.set rfl (.mk j hconn)

/-- What connection `i` can do by itself it can do in the system while the server is up. -/
theorem capnpStep_of_conn {x : ι → CapnpSetup} {p : ConnView} (hup : s.down = false)
    (hstep : ConnStep (x i) (s.view i) p) : ∃ s', CapnpStep x i s s' := by
  generalize hview : s.view i = q at hstep
  have hconn : q.1 = s.conn i := by rw [← hview]; rfl
  have hobj : ∀ o, q.2 = some o → ∃ n, (s.conn i).reqSvc = some n ∧ s.heap n = o := by
    intro o ho
    rw [← hview] at ho
    exact Option.map_eq_some_iff.mp ho
  cases hstep with
  | start hc hpc => subst hconn; exact ⟨_, .start hc hpc⟩
  | send hc hpc => subst hconn; exact ⟨_, .send hc hpc⟩
  | ack hc hpc hflow => subst hconn; exact ⟨_, .ack hc hpc hflow⟩
  | receive hc hqueue => subst hconn; exact ⟨_, .receive hc hqueue⟩
  | reqReply n hqueue => subst hconn; exact ⟨_, .reqReply hup hqueue⟩
  | sendChunk hqueue =>
      subst hconn
      obtain ⟨n, hcap, -⟩ := hobj _ rfl
      exact ⟨_, .sendChunk hup hqueue hcap⟩
  | done hqueue hdone =>
      subst hconn
      obtain ⟨n, hcap, rfl⟩ := hobj _ rfl
      exact ⟨_, .done hup hqueue hcap hdone⟩
  | reply hc hpc =>
      subst hconn
      obtain ⟨n, hcap, -⟩ := hobj _ rfl
      exact ⟨_, .reply hup hc hpc hcap⟩
  | ackReply hc hpc hflow => subst hconn; exact ⟨_, .ackReply hup hc hpc hflow⟩
  | replyReturned hqueue => subst hconn; exact ⟨_, .replyReturned hup hqueue⟩

end Heap

end RpcTransport
