import Mathlib.Algebra.Order.Group.Nat
import Mathlib.Data.List.TakeWhile
import Mathlib.Data.List.Induction

/-!
# The streaming sample: a list that is replayed

`reqReply` of the streaming sample hands out a `ReqSvcImpl` of its own to every client.  The object
keeps every string it is sent; each `done` streams the list back to the `ReplyCallback` it was
given, by index into the live list, while more calls may come in on the object.  A streaming call's
promise is fulfilled when the flow control allows the next one.

* `sendStrings`, `clientCalls` — the recursions of the server and of the client;
* `Step` — one session while its connection holds, any calls in any order;
* `ReplyOk` — where a reply stands: a beginning of the list has been sent, and at its end all that
  was in the list before its own `done`;
* `ReplyOk.append`, `ReplyOk.next`, `ReplyOk.receive` — what a step keeps of it.
-/

namespace RpcTransport.HelloStream

/-! ### The two objects -/

abbrev Text := List Char

/-- A string as a C string: `std::string(chunk.cStr())`, and what `setChunk(str.c_str())` sets. -/
def cStr (t : Text) : Text := t.takeWhile (· != Char.ofNat 0)

@[simp] theorem cStr_cStr (t : Text) : cStr (cStr t) = cStr t := List.takeWhile_idem

/-- The calls of `RequestCallback` and of `ReplyCallback`. -/
inductive Call
  | sendChunk (chunk : Text)
  | done
  deriving DecidableEq

/-- `_vec`, and the lines printed. -/
structure Svc where
  vec : List Text := []
  out : List Text := []

/-- The line for a string that comes in. -/
def receivedLine (who : String) (str : Text) : Text :=
  who.toList ++ " received \"".toList ++ str ++ "\"".toList

/-- The lines of `done`. -/
def doneLines (who : String) (vec : List Text) : List Text :=
  (who.toList ++ " done called:".toList) :: vec.map fun str => "  ".toList ++ str

/-- `sendChunk` of both objects, which differ in the name they print. -/
def Svc.sendChunk (who : String) (o : Svc) (chunk : Text) : Svc where
  vec := o.vec ++ [cStr chunk]
  out := o.out ++ [receivedLine who (cStr chunk)]

/-- `done` of both objects. -/
def Svc.done (who : String) (o : Svc) : Svc :=
  { o with out := o.out ++ doneLines who o.vec }

/-- `ReqSvcImpl::sendChunk`. -/
def ReqSvcImpl.sendChunk : Svc → Text → Svc := Svc.sendChunk "Server"

/-- `ReqSvcImpl::done`, up to the start of the reply. -/
def ReqSvcImpl.done : Svc → Svc := Svc.done "Server"

/-- `ReplySvcImpl::sendChunk`. -/
def ReplySvcImpl.sendChunk : Svc → Text → Svc := Svc.sendChunk "Client"

/-- `ReplySvcImpl::done`. -/
def ReplySvcImpl.done : Svc → Svc := Svc.done "Client"

/-- What a call does to the object of the server. -/
def ReqSvcImpl.call (o : Svc) : Call → Svc
  | .sendChunk chunk => ReqSvcImpl.sendChunk o chunk
  | .done => ReqSvcImpl.done o

/-- The strings of a list of calls. -/
def chunks (calls : List Call) : List Text :=
  calls.filterMap fun
    | .sendChunk chunk => some (cStr chunk)
    | .done => none

@[simp] theorem chunks_append (cs ds : List Call) : chunks (cs ++ ds) = chunks cs ++ chunks ds :=
  List.filterMap_append

@[simp] theorem chunks_done : chunks [.done] = [] := rfl

theorem cStr_of_mem_chunks {calls : List Call} {str : Text} (h : str ∈ chunks calls) :
    cStr str = str := by
  obtain ⟨c, -, hc⟩ := List.mem_filterMap.mp h
  cases c with
  | sendChunk chunk =>
      cases hc
      exact cStr_cStr chunk
  | done => cases hc

/-- An object has kept the strings of the calls that have reached it. -/
theorem vec_foldl (calls : List Call) :
    (calls.foldl ReqSvcImpl.call {}).vec = chunks calls := by
  induction calls using List.reverseRecOn with
  | nil => rfl
  | append_singleton calls c ih =>
      rw [List.foldl_append, chunks_append, ← ih]
      cases c with
      | sendChunk chunk => rfl
      | done => exact (List.append_nil _).symm

/-! ### The session -/

/-- Where the server's side of a reply stands: it waits for the promise of the string at an index,
or of `done`, or is through. -/
inductive ReplyPc
  | sent (strNum : UInt32)
  | doneSent
  | returned
  | outOfRange
  deriving DecidableEq

/-- `sendStrings` of the server: the next string of the list as it is now, or `done` after the last
one. -/
def sendStrings (vec : List Text) (strNum : UInt32) : ReplyPc × List Call :=
  if strNum.toNat = vec.length then (.doneSent, [.done])
  else
    match vec[strNum.toNat]? with
    | some str => (.sent strNum, [.sendChunk (cStr str)])
    | none => (.outOfRange, [])

/-- One `done` of the client: the server's side, the calls under way, the client's object, and
whether its `done` has been called. -/
structure Reply where
  pc : ReplyPc
  wire : List Call
  svc : Svc := {}
  closed : Bool := false

/-- The reply once `sendStrings` has been called for the first time. -/
def Reply.start (vec : List Text) : Reply where
  pc := (sendStrings vec 0).1
  wire := (sendStrings vec 0).2

/-- The continuation of the promise of a string. -/
def Reply.next (vec : List Text) (strNum : UInt32) (r : Reply) : Reply :=
  { r with
    pc := (sendStrings vec (strNum + 1)).1
    wire := r.wire ++ (sendStrings vec (strNum + 1)).2 }

/-- What the client does with a call, when `wire` is what comes after it. -/
def Reply.receive (wire : List Call) (r : Reply) : Call → Reply
  | .sendChunk chunk => { r with wire := wire, svc := ReplySvcImpl.sendChunk r.svc chunk }
  | .done => { r with wire := wire, svc := ReplySvcImpl.done r.svc, closed := true }

/-- The calls the client has still to make, those under way, the object of the server, and the
replies to the `done` calls that have reached it, in order. -/
structure Session where
  toSend : List Call
  toServer : List Call := []
  req : Svc := {}
  replies : List Reply := []

/-- The moves of a session.  `flow` calls may be under way when a promise is fulfilled. -/
inductive Step (flow : ℕ) : Unit → Session → Session → Prop
  | send {s : Session} {c : Call} {cs : List Call} (hnext : s.toSend = c :: cs)
      (hflow : s.toServer.length ≤ flow) :
      Step flow () s { s with toSend := cs, toServer := s.toServer ++ [c] }
  | sendChunk {s : Session} {chunk : Text} {cs : List Call}
      (hqueue : s.toServer = .sendChunk chunk :: cs) :
      Step flow () s { s with toServer := cs, req := ReqSvcImpl.sendChunk s.req chunk }
  | done {s : Session} {cs : List Call} (hqueue : s.toServer = .done :: cs) :
      Step flow () s { s with
        toServer := cs
        req := ReqSvcImpl.done s.req
        replies := s.replies ++ [Reply.start s.req.vec] }
  | next {s : Session} {j : ℕ} {r : Reply} {strNum : UInt32} (hr : s.replies[j]? = some r)
      (hpc : r.pc = .sent strNum) (hflow : r.wire.length ≤ flow) :
      Step flow () s { s with replies := s.replies.set j (r.next s.req.vec strNum) }
  | receive {s : Session} {j : ℕ} {r : Reply} {c : Call} {cs : List Call}
      (hr : s.replies[j]? = some r) (hwire : r.wire = c :: cs) :
      Step flow () s { s with replies := s.replies.set j (r.receive cs c) }
  /-- `ReplyCallback.done` has returned, and so does `done` -/
  | returned {s : Session} {j : ℕ} {r : Reply} (hr : s.replies[j]? = some r)
      (hpc : r.pc = .doneSent) (hclosed : r.closed = true) :
      Step flow () s { s with replies := s.replies.set j { r with pc := .returned } }

/-! ### What a step keeps -/

/-- `pre` are the calls before `done` number `j` of `calls`. -/
def Asked (calls : List Call) (j : ℕ) (pre : List Call) : Prop :=
  ∃ post, calls = pre ++ .done :: post ∧ pre.count .done = j

theorem Asked.append {calls pre : List Call} {j : ℕ} (h : Asked calls j pre) (more : List Call) :
    Asked (calls ++ more) j pre := by
  obtain ⟨post, rfl, hj⟩ := h
  exact ⟨post ++ more, by simp, hj⟩

theorem Asked.length_le {calls pre : List Call} {j : ℕ} (h : Asked calls j pre) :
    (chunks pre).length ≤ (chunks calls).length := by
  obtain ⟨post, rfl, -⟩ := h
  rw [chunks_append, List.length_append]
  exact Nat.le_add_right _ _

/-- The lines of the client's object for the strings it has kept. -/
def received (vec : List Text) : List Text := vec.map (receivedLine "Client")

/-- Reply number `j`, when the calls `calls` have reached the server: what the client has and what
is under way is a beginning of the list, and at the end it has the strings from before its
`done`. -/
inductive ReplyOk (calls : List Call) (j : ℕ) : Reply → Prop
  | streaming {strNum : UInt32} {svc : Svc} {under : List Text} {pre : List Call}
      (hask : Asked calls j pre) (hlt : strNum.toNat < (chunks calls).length)
      (hsent : svc.vec ++ under = (chunks calls).take (strNum.toNat + 1))
      (hout : svc.out = received svc.vec) :
      ReplyOk calls j ⟨.sent strNum, under.map .sendChunk, svc, false⟩
  | closing {svc : Svc} {under : List Text} {pre : List Call} {n : ℕ}
      (hask : Asked calls j pre) (hpre : (chunks pre).length ≤ n) (hle : n ≤ (chunks calls).length)
      (hsent : svc.vec ++ under = (chunks calls).take n) (hout : svc.out = received svc.vec) :
      ReplyOk calls j ⟨.doneSent, under.map .sendChunk ++ [.done], svc, false⟩
  | closed {pc : ReplyPc} {svc : Svc} {pre : List Call} {n : ℕ}
      (hpc : pc = .doneSent ∨ pc = .returned)
      (hask : Asked calls j pre) (hpre : (chunks pre).length ≤ n) (hle : n ≤ (chunks calls).length)
      (hsent : svc.vec = (chunks calls).take n)
      (hout : svc.out = received svc.vec ++ doneLines "Client" svc.vec) :
      ReplyOk calls j ⟨pc, [], svc, true⟩

/-- More calls that reach the server leave a reply as it is. -/
theorem ReplyOk.append {calls : List Call} {j : ℕ} {r : Reply} (h : ReplyOk calls j r)
    (more : List Call) : ReplyOk (calls ++ more) j r := by
  have htake : ∀ {n : ℕ}, n ≤ (chunks calls).length →
      (chunks (calls ++ more)).take n = (chunks calls).take n := by
    intro n hn
    rw [chunks_append, List.take_append_of_le_length hn]
  have hlen : (chunks calls).length ≤ (chunks (calls ++ more)).length := by
    rw [chunks_append, List.length_append]
    exact Nat.le_add_right _ _
  cases h with
  | streaming hask hlt hsent hout =>
      exact .streaming (hask.append more) (hlt.trans_le hlen) (by rw [htake hlt]; exact hsent) hout
  | closing hask hpre hle hsent hout =>
      exact .closing (hask.append more) hpre (hle.trans hlen) (by rw [htake hle]; exact hsent) hout
  | closed hpc hask hpre hle hsent hout =>
      exact .closed hpc (hask.append more) hpre (hle.trans hlen) (by rw [htake hle]; exact hsent)
        hout

/-- What one call of `sendStrings` does, for an index that is not past the end. -/
theorem sendStrings_cases (calls : List Call) (strNum : UInt32)
    (hle : strNum.toNat ≤ (chunks calls).length) :
    (strNum.toNat = (chunks calls).length ∧
      sendStrings (chunks calls) strNum = (.doneSent, [.done])) ∨
    ∃ str, strNum.toNat < (chunks calls).length ∧
      (chunks calls).take (strNum.toNat + 1) = (chunks calls).take strNum.toNat ++ [str] ∧
      sendStrings (chunks calls) strNum = (.sent strNum, [.sendChunk str]) := by
  rw [sendStrings]
  split_ifs with heq
  · exact .inl ⟨heq, rfl⟩
  · have hlt : strNum.toNat < (chunks calls).length := lt_of_le_of_ne hle heq
    refine .inr ⟨(chunks calls)[strNum.toNat], hlt, ?_, ?_⟩
    · rw [List.take_add_one, List.getElem?_eq_getElem hlt]
      rfl
    · rw [List.getElem?_eq_getElem hlt]
      dsimp only
      rw [cStr_of_mem_chunks (List.getElem_mem hlt)]

/-- A new reply. -/
theorem ReplyOk.start {calls pre : List Call} {j : ℕ} (hask : Asked calls j pre)
    (hpre : (chunks pre).length ≤ (chunks calls).length) :
    ReplyOk calls j (Reply.start (chunks calls)) := by
  have hzero : (0 : UInt32).toNat = 0 := rfl
  rw [Reply.start]
  rcases sendStrings_cases calls 0 (Nat.zero_le _) with
    ⟨hend, heq⟩ | ⟨str, hlt, htake, heq⟩
  · rw [heq]
    rw [hzero] at hend
    have hwire : ([.done] : List Call) = ([] : List Text).map .sendChunk ++ [.done] := rfl
    rw [hwire]
    exact .closing hask hpre le_rfl (by rw [← hend]; rfl) rfl
  · rw [heq]
    have hwire : [Call.sendChunk str] = [str].map .sendChunk := rfl
    rw [hwire]
    exact .streaming hask hlt (by rw [htake]; rfl) rfl

/-- The next string, or the end of the list as it is now. -/
theorem ReplyOk.next {calls : List Call} {j : ℕ} {r : Reply} {strNum : UInt32}
    (hsize : (chunks calls).length < 2 ^ 32) (h : ReplyOk calls j r) (hpc : r.pc = .sent strNum) :
    ReplyOk calls j (r.next (chunks calls) strNum) := by
  cases h with
  | @streaming k svc under pre hask hlt hsent hout =>
      cases hpc
      have hsucc : (strNum + 1).toNat = strNum.toNat + 1 := by
        rw [UInt32.toNat_add]
        exact Nat.mod_eq_of_lt (Nat.lt_of_le_of_lt hlt hsize)
      rw [Reply.next]
      rcases sendStrings_cases calls (strNum + 1) (by omega) with
        ⟨hend, heq⟩ | ⟨str, hlt', htake, heq⟩
      · rw [heq]
        refine .closing hask hask.length_le le_rfl ?_ hout
        rw [hsent, ← hsucc, hend]
      · rw [heq]
        have hmap : under.map Call.sendChunk ++ [Call.sendChunk str]
            = (under ++ [str]).map Call.sendChunk := by simp
        rw [hmap]
        refine .streaming hask hlt' ?_ hout
        rw [htake, hsucc, ← hsent, List.append_assoc]
  | closing => cases hpc
  | closed hends =>
      rcases hends with rfl | rfl
      · cases hpc
      · cases hpc

/-- A string that arrives is one of the list. -/
theorem svc_sendChunk {calls : List Call} {svc : Svc} {str : Text} {under : List Text} {n : ℕ}
    (hsent : svc.vec ++ str :: under = (chunks calls).take n) (hout : svc.out = received svc.vec) :
    (ReplySvcImpl.sendChunk svc str).vec ++ under = (chunks calls).take n ∧
      (ReplySvcImpl.sendChunk svc str).out
        = received (ReplySvcImpl.sendChunk svc str).vec := by
  have hmem : str ∈ (chunks calls).take n := by
    rw [← hsent]
    exact List.mem_append_right _ List.mem_cons_self
  have hstr := cStr_of_mem_chunks (List.mem_of_mem_take hmem)
  constructor
  · show (svc.vec ++ [cStr str]) ++ under = _
    rw [hstr, List.append_assoc]
    exact hsent
  · show svc.out ++ [receivedLine "Client" (cStr str)] = received (svc.vec ++ [cStr str])
    rw [hout, received, received, List.map_append]
    rfl

/-- A call that reaches the client. -/
theorem ReplyOk.receive {calls : List Call} {j : ℕ} {r : Reply} {c : Call} {cs : List Call}
    (h : ReplyOk calls j r) (hwire : r.wire = c :: cs) : ReplyOk calls j (r.receive cs c) := by
  cases h with
  | @streaming strNum svc under pre hask hlt hsent hout =>
      cases under with
      | nil => cases hwire
      | cons str under =>
          cases hwire
          obtain ⟨hsent', hout'⟩ := svc_sendChunk hsent hout
          exact .streaming hask hlt hsent' hout'
  | @closing svc under pre n hask hpre hle hsent hout =>
      cases under with
      | nil =>
          cases hwire
          rw [List.append_nil] at hsent
          refine .closed (.inl rfl) hask hpre hle hsent ?_
          show svc.out ++ doneLines "Client" svc.vec = _
          rw [hout]
          rfl
      | cons str under =>
          cases hwire
          obtain ⟨hsent', hout'⟩ := svc_sendChunk hsent hout
          exact .closing hask hpre hle hsent' hout'
  | closed => cases hwire

/-- The client's `done` has returned. -/
theorem ReplyOk.returned {calls : List Call} {j : ℕ} {r : Reply} (h : ReplyOk calls j r)
    (hclosed : r.closed = true) : ReplyOk calls j { r with pc := .returned } := by
  cases h with
  | streaming => cases hclosed
  | closing => cases hclosed
  | closed _ hask hpre hle hsent hout => exact .closed (.inr rfl) hask hpre hle hsent hout

end RpcTransport.HelloStream
