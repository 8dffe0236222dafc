import RpcTransport.Lib.Heap
import RpcTransport.PayloadCreator
import RpcTransport.ProtoWire

/-!
# Who owns the bytes of a message

Elsewhere a `DataBuf` is the bytes it views.  Here it is what it is in the code: an address and a
length, next to a container that owns the string.  Every string object is a cell of the heap, the
local ones included; a view names the cell, whether the string keeps its bytes inline or not, and
reads nothing once the object is gone or the pointer it was taken from is null.

There are seven places that append a buffer.  They copy, move or adopt a string, hand it to the
container, and then take the view from the container or from the raw pointer they kept.

* `AppendSite.run_spec` — one append at any of them;
* `addToMsg_refines` — a message read through its views is the list of byte strings that stands for
  it elsewhere;
* `buffer_views_valid` — any number of appends, in any mix.
-/

namespace RpcTransport.Buffers

open Heap (Store Allocator Owner Vec Owns)

/-- `DataBuf`: the string object viewed, and the length it had. -/
structure View where
  addr : ℕ
  len : ℕ
  deriving DecidableEq, Repr

/-- The bytes behind a view, if the object is there and still as long. -/
def readView (h : Store Bytes) (v : View) : Option Bytes :=
  (h.lookup v.addr).bind fun str => if v.len ≤ str.length then some (str.take v.len) else none

/-- A `MsgDataContainer` and the `Msg` filled along with it, on their heap. -/
structure Bufs where
  heap : Store Bytes
  msgData : Vec Owner
  bufs : Vec View

/-- Both empty, on any heap and with any room reserved. -/
def Bufs.empty (heap : Store Bytes) (dataCap bufsCap : ℕ) : Bufs :=
  ⟨heap, Vec.empty dataCap, Vec.empty bufsCap⟩

/-! ### Strings and pointers to them -/

variable (al : Allocator Bytes)

/-- A new string object with the given bytes. -/
def newString (bytes : Bytes) (h : Store Bytes) : ℕ × Store Bytes :=
  (al.malloc h, h.insert (al.malloc h) bytes)

/-- `std::make_unique<std::string>(std::move(str))`: the new object takes the bytes, `str` is left
empty. -/
def moveString (str : ℕ) (h : Store Bytes) : ℕ × Store Bytes :=
  newString al ((h.lookup str).getD []) (h.insert str [])

/-- `_addr = p->data(); _len = p->size();`. -/
def viewOf (h : Store Bytes) : Owner → Except Fault View
  | none => .error .nullDeref
  | some a =>
      match h.lookup a with
      | some str => .ok ⟨a, str.length⟩
      | none => .error .nullDeref

/-- `msgData.push_back(std::move(p))`. -/
def pushData (p : Owner) (s : Bufs) : Bufs :=
  { s with
    heap := (Heap.pushOwner al s.heap s.msgData p).1
    msgData := (Heap.pushOwner al s.heap s.msgData p).2 }

/-- `msgData.back()`. -/
def back (s : Bufs) : Except Fault Owner :=
  match s.msgData.elems.getLast? with
  | some p => .ok p
  | none => .error .outOfRange

/-- `buf` viewing what `p` points to, and `msg._bufs.push_back(std::move(buf))`. -/
def pushView (p : Owner) (s : Bufs) : Except Fault Bufs := do
  let v ← viewOf s.heap p
  pure { s with bufs := s.bufs.push al v }

/-- Hand a string over to the container, then view what the container's last pointer owns. -/
def pushBack (p : Owner) (s : Bufs) : Except Fault Bufs := do
  let s := pushData al p s
  let last ← back s
  pushView al last s

/-! ### The seven places -/

/-- `PayloadCreator::addToMsg`: the payload is serialized into a new string. -/
def addToMsg (pb : Protobuf) (payload : Payload) (s : Bufs) : Except Fault Bufs :=
  let (str, heap) := newString al [] s.heap
  pushBack al (some str) { s with heap := heap.insert str (pb.ser payload) }

/-- `Read(&msg)` and `msg.release_data()`: the string of the message, which the caller now owns; a
message with no data has none. -/
def readRelease (bytes : Bytes) (h : Store Bytes) : Owner × Store Bytes :=
  if bytes = [] then (none, h) else ((newString al bytes h).1, (newString al bytes h).2)

/-- The read loop of gRPC's `ReqReply`, once. -/
def GrpcServer.reqReply (bytes : Bytes) (s : Bufs) : Except Fault Bufs :=
  let (str, heap) := readRelease al bytes s.heap
  pushBack al str { s with heap }

/-- The read loop of gRPC's `sendReq`, once: the view is taken from the raw pointer. -/
def GrpcClient.sendReq (bytes : Bytes) (s : Bufs) : Except Fault Bufs :=
  let (data, heap) := readRelease al bytes s.heap
  pushView al data (pushData al data { s with heap })

/-- A read loop of FlatBuffers, once: the data is copied to a local string, moved to one the
container owns, and the local string ends its life with the iteration. -/
def flatbuffersAppend (bytes : Bytes) (s : Bufs) : Except Fault Bufs := do
  let (str, heap) := newString al bytes s.heap
  let (strP, heap) := moveString al str heap
  let s ← pushBack al (some strP) { s with heap }
  pure { s with heap := s.heap.erase str }

def FlatbuffersServer.reqReply (bytes : Bytes) (s : Bufs) : Except Fault Bufs :=
  flatbuffersAppend al bytes s

def FlatbuffersClient.sendReq (bytes : Bytes) (s : Bufs) : Except Fault Bufs :=
  flatbuffersAppend al bytes s

/-- A `sendChunk` of Cap'n Proto: the chunk is copied to a string the container owns. -/
def capnprotoAppend (chunk : Bytes) (s : Bufs) : Except Fault Bufs :=
  let (strP, heap) := newString al chunk s.heap
  pushBack al (some strP) { s with heap }

def ReqSvcImpl.sendChunk (chunk : Bytes) (s : Bufs) : Except Fault Bufs :=
  capnprotoAppend al chunk s

def ReplySvcImpl.sendChunk (chunk : Bytes) (s : Bufs) : Except Fault Bufs :=
  capnprotoAppend al chunk s

/-- One append, with what is appended. -/
inductive AppendSite
  | addToMsg (payload : Payload)
  | grpcReqReply (bytes : Bytes)
  | grpcSendReq (bytes : Bytes)
  | flatbuffersReqReply (bytes : Bytes)
  | flatbuffersSendReq (bytes : Bytes)
  | reqSvcSendChunk (chunk : Bytes)
  | replySvcSendChunk (chunk : Bytes)

variable (pb : Protobuf)

def AppendSite.run : AppendSite → Bufs → Except Fault Bufs
  | .addToMsg payload => Buffers.addToMsg al pb payload
  | .grpcReqReply bytes => GrpcServer.reqReply al bytes
  | .grpcSendReq bytes => GrpcClient.sendReq al bytes
  | .flatbuffersReqReply bytes => FlatbuffersServer.reqReply al bytes
  | .flatbuffersSendReq bytes => FlatbuffersClient.sendReq al bytes
  | .reqSvcSendChunk chunk => ReqSvcImpl.sendChunk al chunk
  | .replySvcSendChunk chunk => ReplySvcImpl.sendChunk al chunk

/-- The bytes an append is about. -/
def AppendSite.bytes : AppendSite → Bytes
  | .addToMsg payload => pb.ser payload
  | .grpcReqReply bytes | .grpcSendReq bytes => bytes
  | .flatbuffersReqReply bytes | .flatbuffersSendReq bytes => bytes
  | .reqSvcSendChunk chunk | .replySvcSendChunk chunk => chunk

/-- The read loops of gRPC dereference a null pointer on a message without data. -/
def AppendSite.Admissible : AppendSite → Prop
  | .grpcReqReply bytes | .grpcSendReq bytes => bytes ≠ []
  | _ => True

/-- Any number of appends; the first that fails ends them. -/
def appends : List AppendSite → Bufs → Except Fault Bufs
  | [], s => .ok s
  | op :: ops, s => op.run al pb s >>= appends ops

/-! ### The invariant -/

/-- The container owns the strings `contents`, one each, and the message views them, in order. -/
structure Backed (s : Bufs) (cells : List ℕ) (contents : List Bytes) : Prop where
  owned : s.msgData.elems = cells.map some
  viewed : s.bufs.elems = List.zipWith (fun a str => ⟨a, List.length str⟩) cells contents
  owns : Owns s.heap cells contents

variable {al pb}

theorem Backed.empty (heap : Store Bytes) (dataCap bufsCap : ℕ) :
    Backed (Bufs.empty heap dataCap bufsCap) [] [] := ⟨rfl, rfl, Owns.nil heap⟩

/-- Only the heap changed, and not where the container owns something. -/
theorem Backed.frame {s : Bufs} {cells : List ℕ} {contents : List Bytes}
    (hs : Backed s cells contents) {heap : Store Bytes} (hown : Owns heap cells contents) :
    Backed { s with heap } cells contents := ⟨hs.owned, hs.viewed, hown⟩

/-- What both ways of taking the view leave. -/
def Bufs.add (al : Allocator Bytes) (s : Bufs) (a : ℕ) (str : Bytes) : Bufs where
  heap := s.heap
  msgData := (Heap.pushOwner al s.heap s.msgData (some a)).2
  bufs := s.bufs.push al ⟨a, str.length⟩

/-- A view taken from the raw pointer after the container got hold of the string. -/
theorem pushView_pushData {s : Bufs} {a : ℕ} {str : Bytes} (hstr : s.heap.lookup a = some str) :
    pushView al (some a) (pushData al (some a) s) = .ok (s.add al a str) := by
  have hview : viewOf (pushData al (some a) s).heap (some a) = .ok ⟨a, str.length⟩ := by
    simp only [viewOf, pushData, Heap.pushOwner_heap, hstr]
  rw [pushView, hview]
  simp only [pushData, Heap.pushOwner_heap]
  rfl

/-- A view taken from the container's last pointer is the same. -/
theorem pushBack_eq {s : Bufs} {a : ℕ} {str : Bytes} (hstr : s.heap.lookup a = some str) :
    pushBack al (some a) s = .ok (s.add al a str) := by
  have hback : back (pushData al (some a) s) = .ok (some a) := by
    simp only [back, pushData, Heap.pushOwner_elems, List.getLast?_concat]
  rw [← pushView_pushData hstr, pushBack, hback]
  rfl

theorem Backed.add {s : Bufs} {cells : List ℕ} {contents : List Bytes}
    (hs : Backed s cells contents) {a : ℕ} {str : Bytes} (ha : a ∉ cells)
    (hstr : s.heap.lookup a = some str) :
    Backed (s.add al a str) (cells ++ [a]) (contents ++ [str]) where
  owned := by
    show (Heap.pushOwner al s.heap s.msgData (some a)).2.elems = _
    rw [Heap.pushOwner_elems, hs.owned, List.map_append]
    rfl
  viewed := by
    show (s.bufs.push al _).elems = _
    rw [Vec.push_elems, hs.viewed, List.zipWith_append hs.owns.length_eq]
    rfl
  owns := hs.owns.snoc ha hstr

/-! ### One append -/

variable (al pb)

/-- A new string lies where the container owns nothing, and holds what it was made of. -/
theorem newString_spec {h : Store Bytes} {cells : List ℕ} {contents : List Bytes}
    (hown : Owns h cells contents) (bytes : Bytes) :
    (newString al bytes h).1 ∉ cells ∧
      (newString al bytes h).2.lookup (newString al bytes h).1 = some bytes ∧
      Owns (newString al bytes h).2 cells contents :=
  ⟨hown.malloc_notMem al, Finmap.lookup_insert h, hown.insert (hown.malloc_notMem al) bytes⟩

theorem addToMsg_spec {s : Bufs} {cells : List ℕ} {contents : List Bytes}
    (hs : Backed s cells contents) (payload : Payload) :
    ∃ t a, addToMsg al pb payload s = .ok t ∧
      Backed t (cells ++ [a]) (contents ++ [pb.ser payload]) := by
  obtain ⟨hnew, -, hown⟩ := newString_spec al hs.owns []
  have hown' := hown.insert hnew (pb.ser payload)
  exact ⟨_, (newString al [] s.heap).1, pushBack_eq (Finmap.lookup_insert _),
    (hs.frame hown').add hnew (Finmap.lookup_insert _)⟩

theorem capnprotoAppend_spec {s : Bufs} {cells : List ℕ} {contents : List Bytes}
    (hs : Backed s cells contents) (chunk : Bytes) :
    ∃ t a, capnprotoAppend al chunk s = .ok t ∧ Backed t (cells ++ [a]) (contents ++ [chunk]) := by
  obtain ⟨hnew, hstr, hown⟩ := newString_spec al hs.owns chunk
  exact ⟨_, _, pushBack_eq hstr, (hs.frame hown).add hnew hstr⟩

theorem reqReply_spec {s : Bufs} {cells : List ℕ} {contents : List Bytes}
    (hs : Backed s cells contents) {bytes : Bytes} (hne : bytes ≠ []) :
    ∃ t a, GrpcServer.reqReply al bytes s = .ok t ∧
      Backed t (cells ++ [a]) (contents ++ [bytes]) := by
  obtain ⟨hnew, hstr, hown⟩ := newString_spec al hs.owns bytes
  rw [GrpcServer.reqReply, readRelease, if_neg hne]
  exact ⟨_, _, pushBack_eq hstr, (hs.frame hown).add hnew hstr⟩

theorem sendReq_spec {s : Bufs} {cells : List ℕ} {contents : List Bytes}
    (hs : Backed s cells contents) {bytes : Bytes} (hne : bytes ≠ []) :
    ∃ t a, GrpcClient.sendReq al bytes s = .ok t ∧
      Backed t (cells ++ [a]) (contents ++ [bytes]) := by
  obtain ⟨hnew, hstr, hown⟩ := newString_spec al hs.owns bytes
  rw [GrpcClient.sendReq, readRelease, if_neg hne]
  exact ⟨_, _, pushView_pushData hstr, (hs.frame hown).add hnew hstr⟩

/-- The local string is empty by the time it is destroyed, and it is not the one that is owned. -/
theorem flatbuffersAppend_spec {s : Bufs} {cells : List ℕ} {contents : List Bytes}
    (hs : Backed s cells contents) (bytes : Bytes) :
    ∃ t a, flatbuffersAppend al bytes s = .ok t ∧
      Backed t (cells ++ [a]) (contents ++ [bytes]) := by
  set str := (newString al bytes s.heap).1 with hstrdef
  set heap := (newString al bytes s.heap).2 with hheapdef
  obtain ⟨hnew, hstr, hown⟩ := newString_spec al hs.owns bytes
  rw [← hstrdef] at hnew hstr
  rw [← hheapdef] at hstr hown
  -- the string the container will own is made while `str` is alive, so it is another object
  have hown' : Owns (heap.insert str []) cells contents := hown.insert hnew []
  obtain ⟨hnewP, hstrP, hownP⟩ := newString_spec al hown' bytes
  have hmove : moveString al str heap = newString al bytes (heap.insert str []) := by
    rw [moveString, hstr]
    rfl
  have hne : (newString al bytes (heap.insert str [])).1 ≠ str := by
    intro heq
    have hfresh := al.malloc_fresh (heap.insert str [])
    rw [show al.malloc (heap.insert str []) = str from heq] at hfresh
    exact hfresh (Finmap.mem_insert.mpr (.inl rfl))
  set strP := (newString al bytes (heap.insert str [])).1
  set heapP := (newString al bytes (heap.insert str [])).2
  have hpush : pushBack al (some strP) { s with heap := heapP } = .ok _ := pushBack_eq hstrP
  have hback : Backed (Bufs.add al { s with heap := heapP } strP bytes) (cells ++ [strP])
      (contents ++ [bytes]) := (hs.frame hownP).add hnewP hstrP
  refine ⟨{ (Bufs.add al { s with heap := heapP } strP bytes) with heap := heapP.erase str }, strP,
    ?_, hback.frame (hback.owns.erase ?_)⟩
  · show (do
      let s ← pushBack al (some (moveString al str heap).1)
        { s with heap := (moveString al str heap).2 }
      pure { s with heap := s.heap.erase str }) = _
    rw [hmove, hpush]
    rfl
  · intro hmem
    rcases List.mem_append.mp hmem with hmem | hmem
    · exact hnew hmem
    · exact hne (List.mem_singleton.mp hmem).symm

/-- **One append.**  Whatever the place, the container owns one string more, with the bytes
appended, and the message views it. -/
theorem AppendSite.run_spec {op : AppendSite} (hop : op.Admissible) {s : Bufs} {cells : List ℕ}
    {contents : List Bytes} (hs : Backed s cells contents) :
    ∃ t a, op.run al pb s = .ok t ∧ Backed t (cells ++ [a]) (contents ++ [op.bytes pb]) := by
  cases op with
  | addToMsg payload => exact addToMsg_spec al pb hs payload
  | grpcReqReply bytes => exact reqReply_spec al hs hop
  | grpcSendReq bytes => exact sendReq_spec al hs hop
  | flatbuffersReqReply bytes => exact flatbuffersAppend_spec al hs bytes
  | flatbuffersSendReq bytes => exact flatbuffersAppend_spec al hs bytes
  | reqSvcSendChunk chunk => exact capnprotoAppend_spec al hs chunk
  | replySvcSendChunk chunk => exact capnprotoAppend_spec al hs chunk

/-! ### Any number of appends -/

/-- **Any number of appends.**  They add their strings behind those that are there, which stay the
strings they were. -/
theorem appends_spec : ∀ (ops : List AppendSite), (∀ op ∈ ops, op.Admissible) →
    ∀ {s : Bufs} {cells : List ℕ} {contents : List Bytes}, Backed s cells contents →
      ∃ t more, appends al pb ops s = .ok t ∧
        Backed t (cells ++ more) (contents ++ ops.map (AppendSite.bytes pb)) := by
  intro ops
  induction ops with
  | nil =>
      intro _ s cells contents hs
      exact ⟨s, [], rfl, by simpa using hs⟩
  | cons op ops ih =>
      intro hops s cells contents hs
      obtain ⟨u, a, hrun, hu⟩ := AppendSite.run_spec al pb (hops op (by simp)) hs
      obtain ⟨t, more, hrest, ht⟩ := ih (fun o ho => hops o (List.mem_cons_of_mem op ho)) hu
      refine ⟨t, a :: more, ?_, ?_⟩
      · rw [appends, hrun]
        exact hrest
      · simpa using ht

theorem Backed.getElem?_bufs {s : Bufs} {cells : List ℕ} {contents : List Bytes}
    (hs : Backed s cells contents) {i a : ℕ} {str : Bytes} (ha : cells[i]? = some a)
    (hstr : contents[i]? = some str) : s.bufs.elems[i]? = some ⟨a, str.length⟩ := by
  rw [hs.viewed, List.getElem?_zipWith, ha, hstr]

/-- The message and the container of `s` go together: as many views as pointers, every view of the
string the pointer at its index owns, and no string owned twice. -/
structure Paired (s : Bufs) : Prop where
  length : s.msgData.elems.length = s.bufs.elems.length
  views : ∀ (i : ℕ) (v : View), s.bufs.elems[i]? = some v → s.msgData.elems[i]? = some (some v.addr)
  nodup : s.msgData.elems.Nodup

theorem Backed.paired {s : Bufs} {cells : List ℕ} {contents : List Bytes}
    (hs : Backed s cells contents) : Paired s where
  length := by
    rw [hs.owned, hs.viewed, List.length_map, List.length_zipWith, hs.owns.length_eq, min_self]
  views := by
    intro i v hv
    rw [hs.viewed, List.getElem?_zipWith] at hv
    rw [hs.owned, List.getElem?_map]
    cases ha : cells[i]? with
    | none => simp [ha] at hv
    | some a =>
        cases hstr : contents[i]? with
        | none => simp [ha, hstr] at hv
        | some str =>
            simp only [ha, hstr, Option.some.injEq] at hv
            rw [← hv]
            rfl
  nodup := by
    rw [hs.owned]
    exact hs.owns.nodup.map (Option.some_injective ℕ)

/-- What the message reads as: the list of byte strings that stands for it elsewhere. -/
def Reads (s : Bufs) (msg : Msg) : Prop :=
  s.bufs.elems.map (readView s.heap) = msg.map some

theorem Backed.readView_eq {s : Bufs} {cells : List ℕ} {contents : List Bytes}
    (hs : Backed s cells contents) {i a : ℕ} {str : Bytes} (ha : cells[i]? = some a)
    (hstr : contents[i]? = some str) : readView s.heap ⟨a, str.length⟩ = some str := by
  rw [readView, hs.owns.lookup ha, hstr]
  simp

theorem Backed.reads {s : Bufs} {cells : List ℕ} {contents : List Bytes}
    (hs : Backed s cells contents) : Reads s contents := by
  apply List.ext_getElem?
  intro i
  have hlen := hs.owns.length_eq
  rw [List.getElem?_map, List.getElem?_map]
  rcases Nat.lt_or_ge i cells.length with hlt | hge
  · have ha := List.getElem?_eq_getElem hlt
    have hstr := List.getElem?_eq_getElem (l := contents) (i := i) (by omega)
    rw [hs.getElem?_bufs ha hstr, hstr, Option.map_some, Option.map_some, hs.readView_eq ha hstr]
  · rw [hs.viewed, List.getElem?_eq_none (by rw [List.length_zipWith]; omega),
      List.getElem?_eq_none (by omega)]
    rfl

/-- **The byte-string model is what the buffers read as.**  `addToMsg` on owned strings and views
appends the buffer that `addToMsg` on byte strings appends. -/
theorem addToMsg_refines (verbosity : ℕ) (payload : Payload) {s : Bufs} {cells : List ℕ}
    {msg : Msg} (hs : Backed s cells msg) :
    ∃ t msg', addToMsg al pb payload s = .ok t ∧
      (RpcTransport.addToMsg pb verbosity payload msg).val = .ok msg' ∧ Reads t msg' := by
  obtain ⟨t, a, hrun, ht⟩ := addToMsg_spec al pb hs payload
  exact ⟨t, _, hrun, addToMsg_val pb verbosity payload msg, ht.reads⟩

/-- **Buffer views stay valid.**  For every allocator and every heap, and every sequence of appends
at the seven places in any mix, `ops` so far and `more` later: all of them succeed; after `ops`
there is one view and one pointer for each append, the pairs go together, and each view is still
there after `more` and still reads the bytes that were appended at its index. -/
theorem buffer_views_valid (al : Allocator Bytes) (pb : Protobuf) (heap : Store Bytes)
    (dataCap bufsCap : ℕ) (ops more : List AppendSite) (hops : ∀ op ∈ ops ++ more, op.Admissible) :
    ∃ s t, appends al pb ops (Bufs.empty heap dataCap bufsCap) = .ok s ∧
      appends al pb more s = .ok t ∧ Paired s ∧ s.bufs.elems.length = ops.length ∧
      ∀ (i : ℕ) (op : AppendSite), ops[i]? = some op →
        ∃ v, s.bufs.elems[i]? = some v ∧ t.bufs.elems[i]? = some v ∧
          readView t.heap v = some (op.bytes pb) := by
  have hfirst : ∀ op ∈ ops, op.Admissible := fun op ho => hops op (List.mem_append_left _ ho)
  have hlater : ∀ op ∈ more, op.Admissible := fun op ho => hops op (List.mem_append_right _ ho)
  obtain ⟨s, cells, hrun, hs⟩ := appends_spec al pb ops hfirst
    (Backed.empty heap dataCap bufsCap)
  obtain ⟨t, cells', hrun', ht⟩ := appends_spec al pb more hlater hs
  rw [List.nil_append, List.nil_append] at hs ht
  have hlen := hs.owns.length_eq
  rw [List.length_map] at hlen
  refine ⟨s, t, hrun, hrun', hs.paired, ?_, fun i op hi => ?_⟩
  · rw [← hs.paired.length, hs.owned, List.length_map, hlen]
  · have hlt : i < cells.length := hlen ▸ (List.getElem?_eq_some_iff.mp hi).1
    have ha : cells[i]? = some cells[i] := List.getElem?_eq_getElem hlt
    have hstr : (ops.map (AppendSite.bytes pb))[i]? = some (op.bytes pb) := by
      rw [List.getElem?_map, hi]
      rfl
    have ha' : (cells ++ cells')[i]? = some cells[i] := by
      rw [List.getElem?_append_left hlt, ha]
    have hstr' : (ops.map (AppendSite.bytes pb) ++ more.map (AppendSite.bytes pb))[i]?
        = some (op.bytes pb) := by
      rw [List.getElem?_append_left (by rw [List.length_map]; omega), hstr]
    refine ⟨⟨cells[i], (op.bytes pb).length⟩, hs.getElem?_bufs ha hstr,
      ht.getElem?_bufs ha' hstr', ht.readView_eq ha' hstr'⟩

/-- The place of each kind, one after the other; the first three first. -/
theorem buffer_views_valid_mixed :
    ∃ s t, appends (Heap.bump Bytes) wireProtobuf
        [.addToMsg (.rspHdr .write 7), .grpcReqReply [1], .grpcSendReq [2, 3]]
          (Bufs.empty ∅ 0 0) = .ok s ∧
      appends (Heap.bump Bytes) wireProtobuf
        [.flatbuffersReqReply [], .flatbuffersSendReq [4], .reqSvcSendChunk [5],
          .replySvcSendChunk []] s = .ok t ∧
      Paired s ∧ s.bufs.elems.length = 3 ∧
      ∀ (i : ℕ) (op : AppendSite),
        [AppendSite.addToMsg (.rspHdr .write 7), .grpcReqReply [1], .grpcSendReq [2, 3]][i]?
          = some op → ∃ v, s.bufs.elems[i]? = some v ∧ t.bufs.elems[i]? = some v ∧
            readView t.heap v = some (op.bytes wireProtobuf) :=
  buffer_views_valid (Heap.bump Bytes) wireProtobuf ∅ 0 0
    [.addToMsg (.rspHdr .write 7), .grpcReqReply [1], .grpcSendReq [2, 3]]
    [.flatbuffersReqReply [], .flatbuffersSendReq [4], .reqSvcSendChunk [5],
      .replySvcSendChunk []]
    (by simp [AppendSite.Admissible])

end RpcTransport.Buffers
