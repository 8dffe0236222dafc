import RpcTransport.Benchmark
import RpcTransport.PlottedRuns

/-!
# From the benchmarks to the plots

Each iteration of `run_tests` has one server process and, in `run_client`, one client process for
each count and size.  The script runs these clients one after another, which is one of the
interleavings of `Benchmark`; what they print goes to the file of the iteration's transport, and
`generate_graphs` reads the files.

* `Env.fileRuns` — the runs whose output is in a file, in order;
* `Executed` — an iteration in which every client has come to its end;
* `Executed.exists_runs` — every iteration can get there;
* `parse_outputs` — reading the output of runs that pass is one assignment for each of them;
* `samples_plotted` — the plots show what the last run with each count and size has measured.
-/

namespace RpcTransport.RunTransports

open Assoc RemoteProgram
open Transition (Delivers)

/-! ### The runs of a file -/

/-- A run of the script: the iteration of `run_tests` and the position in the loops of
`run_client`. -/
abbrev Env.RunIx (env : Args) := Fin env.transports.length × Fin (Env.runs env).length

/-- Its count and size. -/
def Env.runAt (env : Args) (p : Env.RunIx env) : Run := (Env.runs env).get p.2

theorem Env.runAt_mem {env : Args} (p : Env.RunIx env) : Env.runAt env p ∈ Env.runs env :=
  List.get_mem _ _

/-- The runs whose output is appended to the file of `t`. -/
def Env.fileRuns (env : Args) (t : Transport) : List (Env.RunIx env) :=
  (List.finRange env.transports.length).flatMap fun j =>
    if env.transports.get j = t then (List.finRange (Env.runs env).length).map fun i => (j, i)
    else []

/-- They are the calls whose output is appended to it. -/
theorem Env.fileRuns_calls (env : Args) (t : Transport) :
    (Env.fileRuns env t).map (Env.runAt env) = Env.calls env t := by
  have hruns : (List.finRange (Env.runs env).length).map (Env.runs env).get = Env.runs env :=
    List.map_get_finRange _
  have hbody : ∀ j, (if env.transports.get j = t then
        (List.finRange (Env.runs env).length).map fun i => (j, i) else []).map (Env.runAt env)
      = if env.transports.get j = t then Env.runs env else [] := by
    intro j
    split_ifs
    · rw [List.map_map]
      exact hruns
    · rfl
  rw [Env.fileRuns, Env.calls, List.map_flatMap]
  simp only [hbody]
  conv_rhs => rw [← List.map_get_finRange env.transports, List.flatMap_map]

theorem Env.mem_fileRuns {env : Args} {t : Transport} {p : Env.RunIx env} :
    p ∈ Env.fileRuns env t ↔ env.transports.get p.1 = t := by
  obtain ⟨j, i⟩ := p
  simp only [Env.fileRuns, List.mem_flatMap, List.mem_finRange, true_and]
  constructor
  · rintro ⟨j', hmem⟩
    split_ifs at hmem with ht
    · obtain ⟨i', -, heq⟩ := List.mem_map.mp hmem
      cases heq
      exact ht
    · cases hmem
  · intro ht
    exact ⟨j, by simp only [if_pos ht, List.mem_map, List.mem_finRange]; exact ⟨i, trivial, rfl⟩⟩

/-! ### The iterations -/

/-- What is not the script's: the inputs of the operations of every client of every iteration, what
its server draws for each of them, what the libraries choose, and which connections may break. -/
structure Met (env : Args) where
  ops : Env.RunIx env → ℕ → OpInput
  server : Env.RunIx env → ℕ → ServerEnv
  links : Env.RunIx env → Links
  limit : Transport → MessageLimit
  breaks : Env.RunIx env → Prop

/-- The client process of a run. -/
def Met.bench {env : Args} (m : Met env) (j : Fin env.transports.length)
    (i : Fin (Env.runs env).length) : Bench where
  flags := Env.flags env (Env.runAt env (j, i))
  ops := m.ops (j, i)
  server := m.server (j, i)

/-- The network of an iteration. -/
def Met.network {env : Args} (m : Met env) (j : Fin env.transports.length) :
    Network (Fin (Env.runs env).length × ℕ) where
  limit := m.limit (env.transports.get j)
  breaks := fun c => m.breaks (j, c.1)

/-- The transports over one bidirectional stream. -/
def Transport.stream : Transport → Option StreamTransport
  | .grpc => some .grpc
  | .flatbuffers => some .flatbuffers
  | .capnproto => none

section Iterations

variable (pb : Protobuf) (verbosity : ℕ) {D : Type} [IntCast D] [Sub D] [Div D] (ovf : ℤ → ℤ)
variable {env : Args} (m : Met env)

/-- The moves of the clients and the server of iteration `j` over a stream transport. -/
def Met.StreamStep (t : StreamTransport) (j : Fin env.transports.length) :=
  Step (fun i => (clientProgram pb 0 ovf (m.bench j i).flags (m.bench j i).ops :
      Program (MainPc D) ℕ (Except Fault Msg)))
    (NetworkStep (m.network j)
      (Bench.streamCalls pb verbosity (m.bench j) t fun i => m.links (j, i)))
    streamAnswer

/-- The moves of the clients and the server of iteration `j` over Cap'n Proto. -/
def Met.CapnpStep (j : Fin env.transports.length) :=
  Step (fun i => (clientProgram pb 0 ovf (m.bench j i).flags (m.bench j i).ops :
      Program (MainPc D) ℕ (Except Fault Msg)))
    (CapnpNetworkStep (m.network j)
      (Bench.capnpCalls pb verbosity (m.bench j) fun i => m.links (j, i)))
    capnpAnswer

/-- The beginning of iteration `j`, on a network `net`. -/
def Met.start {σ : Type} (net : σ) (j : Fin env.transports.length) :
    State (Fin (Env.runs env).length) (MainPc D) σ :=
  ⟨net, fun i => clientStart pb 0 (m.bench j i).flags (m.bench j i).ops⟩

/-- In iteration `j` all clients have met the server and have come to the end of `main`, with
`runs`. -/
inductive Executed (j : Fin env.transports.length) :
    (Fin (Env.runs env).length → ClientRun D) → Prop
  | stream {t : StreamTransport} (ht : (env.transports.get j).stream = some t)
      {ls : List (Fin (Env.runs env).length)}
      {s : State (Fin (Env.runs env).length) (MainPc D) (Fin (Env.runs env).length × ℕ → Session)}
      (hrun : Transition.Run (m.StreamStep pb verbosity ovf t j) (m.start pb (fun _ => {}) j) ls s)
      {runs : Fin (Env.runs env).length → ClientRun D} (hend : ∀ i, s.pos i = .exited (runs i)) :
      Executed j runs
  | capnp (ht : (env.transports.get j).stream = none)
      {ls : List (Fin (Env.runs env).length)}
      {s : State (Fin (Env.runs env).length) (MainPc D)
        (CapnpState (Fin (Env.runs env).length × ℕ))}
      (hrun : Transition.Run (m.CapnpStep pb verbosity ovf j) (m.start pb {} j) ls s)
      {runs : Fin (Env.runs env).length → ClientRun D} (hend : ∀ i, s.pos i = .exited (runs i)) :
      Executed j runs

variable {pb verbosity ovf m}

/-- There is something to measure, the server can serve it, every message of it is within the limit
of each transport, the streams can carry it, and the connections hold. -/
structure Met.Ready (m : Met env) : Prop where
  ops : 0 < env.opCount.toInt
  servable : ∀ run ∈ Env.runs env, (Env.flags env run).Servable
  carried : ∀ t ∈ env.transports, ∀ run ∈ Env.runs env, (m.limit t).Carries (Env.flags env run)
  holds : ∀ p, ¬ m.breaks p
  toServer : ∀ p u, 1 ≤ (m.links p).toServerWindow u
  toClient : ∀ p u, 1 ≤ (m.links p).toClientWindow u

theorem Met.Ready.bench (hm : m.Ready) (j : Fin env.transports.length)
    (i : Fin (Env.runs env).length) : (m.bench j i).flags.Servable :=
  hm.servable _ (Env.runAt_mem (j, i))

theorem Met.Ready.network (hm : m.Ready) (j : Fin env.transports.length) :
    (∀ i, (m.network j).limit.Carries (m.bench j i).flags) ∧ (m.network j).Holds :=
  ⟨fun i => hm.carried _ (List.get_mem _ _) _ (Env.runAt_mem (j, i)), fun c => hm.holds (j, c.1)⟩

theorem Met.Ready.stream (hpb : pb.Lawful) (hm : m.Ready) (t : StreamTransport)
    (j : Fin env.transports.length) (i : Fin (Env.runs env).length) :
    Delivers (m.StreamStep pb verbosity ovf t j) (m.start pb (fun _ => {}) j) i
      ((m.bench j i).flags.opCount.toInt.toNat
        * (4 * (m.bench j i).flags.blockCount.toInt.toNat + 13 + 1))
      (fun s => (s.pos i).pending = none)
      (fun s => s.pos i = .exited ((m.bench j i).passed pb ovf : ClientRun D)) :=
  benchmark_passes hpb ovf (hm.bench j)
    (fun i => 4 * (m.bench j i).flags.blockCount.toInt.toNat + 13)
    (Bench.streamCalls_answered hpb (hm.bench j) _ (hm.network j).1 (hm.network j).2
      (fun i => hm.toServer (j, i)) fun i => hm.toClient (j, i)) i

theorem Met.Ready.capnp (hpb : pb.Lawful) (hm : m.Ready) (j : Fin env.transports.length)
    (i : Fin (Env.runs env).length) :
    Delivers (m.CapnpStep pb verbosity ovf j) (m.start pb {} j) i
      ((m.bench j i).flags.opCount.toInt.toNat
        * (6 * (m.bench j i).flags.blockCount.toInt.toNat + 14 + 1))
      (fun s => (s.pos i).pending = none)
      (fun s => s.pos i = .exited ((m.bench j i).passed pb ovf : ClientRun D)) :=
  benchmark_passes hpb ovf (hm.bench j)
    (fun i => 6 * (m.bench j i).flags.blockCount.toInt.toNat + 14)
    (Bench.capnpCalls_answered hpb (hm.bench j) (hm.network j).1 (hm.network j).2 _) i

theorem Met.Ready.nonneg (hm : m.Ready) (run : Run) (hrun : run ∈ Env.runs env) :
    0 ≤ run.blockCount.toInt ∧ 0 ≤ run.blockSize.toInt :=
  ⟨(hm.servable run hrun).count, (hm.servable run hrun).size⟩

/-- **However an iteration goes, its runs pass**, with the samples of their own operations. -/
theorem Executed.passed (hpb : pb.Lawful) (hm : m.Ready) {j : Fin env.transports.length}
    {runs : Fin (Env.runs env).length → ClientRun D} (h : Executed pb verbosity ovf m j runs)
    (i : Fin (Env.runs env).length) : runs i = (m.bench j i).passed pb ovf := by
  have hend : ∀ {pc : MainPc D} {run : ClientRun D}, pc = .exited run → pc.pending = none := by
    rintro pc run rfl
    rfl
  cases h with
  | stream ht hrun hall =>
      have hdone := (hm.stream hpb _ j i).correct _ _ hrun (hend (hall i))
      exact MainPc.exited.inj ((hall i).symm.trans hdone)
  | capnp ht hrun hall =>
      have hdone := (hm.capnp hpb j i).correct _ _ hrun (hend (hall i))
      exact MainPc.exited.inj ((hall i).symm.trans hdone)

/-- Every iteration can get to its end. -/
theorem Executed.exists_runs (hpb : pb.Lawful) (hm : m.Ready) (j : Fin env.transports.length) :
    ∃ runs : Fin (Env.runs env).length → ClientRun D, Executed pb verbosity ovf m j runs := by
  refine ⟨fun i => (m.bench j i).passed pb ovf, ?_⟩
  cases ht : (env.transports.get j).stream with
  | some t =>
      obtain ⟨ls, s, hrun, hall⟩ := Delivers.exists_all_done (hm.stream (D := D) hpb t j)
        (fun _ _ _ _ hend hstep => hstep.pending_none hend) (List.finRange _)
      exact .stream ht hrun fun i => hall i (List.mem_finRange i)
  | none =>
      obtain ⟨ls, s, hrun, hall⟩ := Delivers.exists_all_done (hm.capnp (D := D) hpb j)
        (fun _ _ _ _ hend hstep => hstep.pending_none hend) (List.finRange _)
      exact .capnp ht hrun fun i => hall i (List.mem_finRange i)

/-! ### What they print -/

/-- The figures of a run of the script. -/
def Met.figures (pb : Protobuf) (ovf : ℤ → ℤ) (m : Met env) (mean deviation : List D → ℚ≥0)
    (p : Env.RunIx env) : Figures :=
  ((m.bench p.1 p.2).passed pb ovf : ClientRun D).final.figures mean deviation

theorem Met.figures_printed (mean deviation : List D → ℚ≥0) (p : Env.RunIx env) :
    (m.figures pb ovf mean deviation p).Printed :=
  ⟨Decimal.defaultFormat_chars _, Decimal.defaultFormat_chars _, Decimal.defaultFormat_chars _,
    Decimal.defaultFormat_chars _⟩

/-- A run that passes prints the five lines. -/
theorem passed_output (b : Bench) (transport : String) (mean deviation : List D → ℚ≥0) :
    (b.passed pb ovf : ClientRun D).output transport b.flags mean deviation
      = clientOutput transport b.flags
          ((b.passed pb ovf : ClientRun D).final.figures mean deviation) := by
  simp [ClientRun.output, clientOutput, Bench.passed, ClientRun.ofLoop, Line.text,
    ClientState.figures]

end Iterations

/-! ### Reading them -/

variable {F : Type} (py : Python F)

section Read

variable [LinearOrder F] {α : Type}

/-- **Reading the output of runs that pass** assigns the record of each to its key, in order,
whether or not the patterns can read its figures. -/
theorem parse_outputs (env : Args) (t : Transport) (run : α → Run) (fig : α → Figures)
    (hprinted : ∀ x, (fig x).Printed) : ∀ (xs : List α)
    (_ : ∀ x ∈ xs, 0 ≤ (run x).blockCount.toInt ∧ 0 ≤ (run x).blockSize.toInt) (st : ParseState F),
    ∃ s, (xs.flatMap fun x => clientOutput t.name (Env.flags env (run x)) (fig x)).foldlM
        (parseLine py env.bcIsKey) st
      = .ok { stats := assignAll (fun x => (run x).key py env)
                (fun x => Stats.ofRun py (Env.flags env (run x)) (fig x)) st.stats xs
              s := s } := by
  intro xs
  induction xs with
  | nil => exact fun _ st => ⟨st.s, rfl⟩
  | cons x xs ih =>
      intro hpos st
      rw [List.forall_mem_cons] at hpos
      rw [List.flatMap_cons, List.foldlM_append, parse_clientOutput py env.bcIsKey
        (Env.flags env (run x)) hpos.1.1 hpos.1.2 (hprinted x) t st]
      exact ih hpos.2 _

end Read

/-! ### The plots -/

section Plots

variable [LinearOrder F] {D : Type} [IntCast D] [Sub D] [Div D]

/-- The dictionary that is read from the file of `t`. -/
noncomputable def Met.records (pb : Protobuf) (ovf : ℤ → ℤ) {env : Args} (m : Met env)
    (mean deviation : List D → ℚ≥0) (t : Transport) : Dict F (Stats F) :=
  assignAll (fun p => (Env.runAt env p).key py env)
    (fun p => Stats.ofRun py (Env.flags env (Env.runAt env p)) (m.figures pb ovf mean deviation p))
    ∅ (Env.fileRuns env t)

theorem parseFile_executed {pb : Protobuf} (hpb : pb.Lawful) {verbosity : ℕ} {ovf : ℤ → ℤ}
    {env : Args} {m : Met env} (hm : m.Ready)
    {runs : Fin env.transports.length → Fin (Env.runs env).length → ClientRun D}
    (hexec : ∀ j, Executed pb verbosity ovf m j (runs j)) (mean deviation : List D → ℚ≥0)
    (t : Transport) {file : List TextLine}
    (hfile : Interspersed (Unmatched py)
      ((Env.fileRuns env t).flatMap fun p => (runs p.1 p.2).output t.name
        (Env.flags env (Env.runAt env p)) mean deviation) file) :
    Env.parseFile py env file = .ok (m.records py pb ovf mean deviation t) := by
  have hlines : (fun p : Env.RunIx env =>
      (runs p.1 p.2).output t.name (Env.flags env (Env.runAt env p)) mean deviation)
      = fun p => clientOutput t.name (Env.flags env (Env.runAt env p))
        (m.figures pb ovf mean deviation p) := by
    funext p
    rw [(hexec p.1).passed hpb hm p.2]
    exact passed_output (m.bench p.1 p.2) t.name mean deviation
  rw [hlines] at hfile
  have hpos : ∀ p ∈ Env.fileRuns env t,
      0 ≤ (Env.runAt env p).blockCount.toInt ∧ 0 ≤ (Env.runAt env p).blockSize.toInt :=
    fun p _ => hm.nonneg _ (Env.runAt_mem p)
  obtain ⟨s, hs⟩ := parse_outputs py env t (Env.runAt env) (m.figures pb ovf mean deviation)
    (m.figures_printed mean deviation) (Env.fileRuns env t) hpos {}
  rw [Env.parseFile, foldlM_interspersed py env.bcIsKey hfile, hs]
  rfl

/-- The x values of a plot are the keys of the script's runs.  Only one count and size has the key;
the point at it is what the patterns read of the figures of the last run with this count and size
over this transport. -/
structure SamplesPlotted (pb : Protobuf) (ovf : ℤ → ℤ) {env : Args} (m : Met env)
    (mean deviation : List D → ℚ≥0) (pts : Points F) : Prop where
  strict : pts.xVals.Pairwise (· < ·)
  keys : ∀ k, k ∈ pts.xVals ↔ ∃ run ∈ Env.runs env, run.key py env = k
  values : ∀ (x : ℕ) (k : F), pts.xVals[x]? = some k → ∃ p,
    IsLast (fun p => (Env.runAt env p).key py env) (Env.fileRuns env pts.label) k p ∧
    (∀ run ∈ Env.runs env, run.key py env = k → run = Env.runAt env p) ∧
    let s : Stats F := Stats.ofRun py (Env.flags env (Env.runAt env p))
      (m.figures pb ovf mean deviation p)
    pts.tput.yVals[x]? = some s.tputAvg ∧ pts.tput.eVals[x]? = some s.tputDev ∧
    pts.lat.yVals[x]? = some s.latAvg ∧ pts.lat.eVals[x]? = some s.latDev

theorem records_plotted {pb : Protobuf} {ovf : ℤ → ℤ} {args env : Args}
    (hinit : Env.init args = .ok env) {m : Met env} (hm : m.Ready) (mean deviation : List D → ℚ≥0)
    {t : Transport} (ht : t ∈ env.transports) :
    SamplesPlotted py pb ovf m mean deviation
      (plotPoints t (m.records py pb ovf mean deviation t)) := by
  have haligned := plotPoints_aligned t (m.records py pb ovf mean deviation t)
  refine ⟨haligned.strict, fun k => ?_, fun x k hk => ?_⟩
  · rw [haligned.keys, Met.records, mem_assignAll]
    constructor
    · rintro ⟨p, -, hkey⟩
      exact ⟨_, Env.runAt_mem p, hkey⟩
    · rintro ⟨run, hrun, hkey⟩
      obtain ⟨j, hj⟩ := List.get_of_mem ht
      obtain ⟨i, hi⟩ := List.get_of_mem hrun
      exact ⟨(j, i), Env.mem_fileRuns.mpr hj, by rw [Env.runAt, hi]; exact hkey⟩
  · obtain ⟨s, hlookup, hvalues⟩ := haligned.values x k hk
    obtain ⟨p, hlast, rfl⟩ := lookup_assignAll hlookup
    refine ⟨p, hlast, fun run hrun hkey => ?_, hvalues⟩
    exact Run.key_injective py (Env.init_ok hinit).2.2 hrun (Env.runAt_mem p) (hm.nonneg _ hrun)
      (hm.nonneg _ (Env.runAt_mem p)) (hkey.trans hlast.key_eq.symm)

/-- The last run with each key has printed its figures with a decimal point, over every
transport. -/
def Met.AllRead (pb : Protobuf) (ovf : ℤ → ℤ) {env : Args} (m : Met env)
    (mean deviation : List D → ℚ≥0) : Prop :=
  ∀ t ∈ env.transports, ∀ k p,
    IsLast (fun p => (Env.runAt env p).key py env) (Env.fileRuns env t) k p →
      (m.figures pb ovf mean deviation p).TputDecimal ∧
      (m.figures pb ovf mean deviation p).LatDecimal

/-- The records of a file can be drawn when its last runs could be read. -/
theorem records_draw_iff {pb : Protobuf} {ovf : ℤ → ℤ} {env : Args} (m : Met env)
    (mean deviation : List D → ℚ≥0) (t : Transport) :
    (plotPoints t (m.records py pb ovf mean deviation t)).draw = .ok () ↔
      ∀ k p, IsLast (fun p => (Env.runAt env p).key py env) (Env.fileRuns env t) k p →
        (m.figures pb ovf mean deviation p).TputDecimal ∧
        (m.figures pb ovf mean deviation p).LatDecimal := by
  rw [plotPoints_draw_iff]
  constructor
  · intro hall k p hlast
    exact (Stats.ofRun_complete py _ _).mp (hall k _ hlast.lookup)
  · intro hall k s hlookup
    obtain ⟨p, hlast, rfl⟩ := lookup_assignAll hlookup
    exact (Stats.ofRun_complete py _ _).mpr (hall k p hlast)

/-- **The plots show what was measured.**  For every command line the script accepts whose runs can
be served within the limits of the transports, over every transport and connections that hold, in
every interleaving of the clients' and the server's moves, and with any other lines in the files.
`mean` and `deviation` are what the accumulators compute, as long as this is finite and not
negative.  Plotting itself goes through exactly when all the figures could be read. -/
theorem samples_plotted {pb : Protobuf} (hpb : pb.Lawful) {verbosity : ℕ} {ovf : ℤ → ℤ}
    {args env : Args} (hinit : Env.init args = .ok env) {m : Met env} (hm : m.Ready)
    {runs : Fin env.transports.length → Fin (Env.runs env).length → ClientRun D}
    (hexec : ∀ j, Executed pb verbosity ovf m j (runs j)) (mean deviation : List D → ℚ≥0)
    {files : Transport → List TextLine}
    (hfiles : ∀ t ∈ env.transports, Interspersed (Unmatched py)
      ((Env.fileRuns env t).flatMap fun p => (runs p.1 p.2).output t.name
        (Env.flags env (Env.runAt env p)) mean deviation) (files t)) :
    ∃ plots, Env.generateGraphs py env files = .ok plots ∧
      (plots.map Points.label).Pairwise (· < ·) ∧
      (∀ t, t ∈ plots.map Points.label ↔ t ∈ env.transports) ∧
      (∀ pts ∈ plots, SamplesPlotted py pb ovf m mean deviation pts) ∧
      (drawPlots plots = .ok () ↔ m.AllRead py pb ovf mean deviation) := by
  obtain ⟨plots, hok, hlabels, hmem, hpoints⟩ := generateGraphs_ok py
    fun t ht => parseFile_executed py hpb hm hexec mean deviation t (hfiles t ht)
  refine ⟨plots, hok, hlabels, hmem, fun pts hpts => ?_, ?_⟩
  · rw [hpoints pts hpts]
    exact records_plotted py hinit hm mean deviation ((hmem _).mp (List.mem_map_of_mem hpts))
  · rw [drawPlots_ok_iff]
    constructor
    · intro hall t ht
      obtain ⟨pts, hpts, rfl⟩ := List.mem_map.mp ((hmem t).mpr ht)
      refine (records_draw_iff py m mean deviation pts.label).mp ?_
      rw [← hpoints pts hpts]
      exact hall pts hpts
    · intro hall pts hpts
      rw [hpoints pts hpts]
      exact (records_draw_iff py m mean deviation pts.label).mpr
        (hall _ ((hmem _).mp (List.mem_map_of_mem hpts)))

/-! ### Two transports -/

/-- Two sizes over each transport, two operations in every run. -/
def twoTransports : Args := ⟨[.capnproto, .grpc], .write, 2, [16], [512, 4096]⟩

theorem twoTransports_init : Env.init twoTransports = .ok twoTransports := by
  have hsort : sortInts [512, 4096] = [512, 4096] := List.mergeSort_of_pairwise (by decide)
  show Except.ok ({ twoTransports with blockSize := sortInts [512, 4096] } : Args) = _
  rw [hsort]
  rfl

theorem twoTransports_runs {run : Run} (hrun : run ∈ Env.runs twoTransports) :
    run = ⟨16, 512⟩ ∨ run = ⟨16, 4096⟩ := by
  simpa [Env.runs, twoTransports] using hrun

/-- The second operation of a run takes longer. -/
def twoMet : Met twoTransports where
  ops := fun _ k => ⟨fun i j => UInt8.ofNat (i + j + k), 0, 50000 + 1000 * k, fun _ _ => 0⟩
  server := fun _ k => ⟨fun i j => UInt8.ofNat (i * j + k), 1000, 43000⟩
  links := fun _ => narrowLinks
  limit := fun t => if t = .capnproto then .capnp else .grpc
  breaks := fun _ => False

theorem twoMet_ready : twoMet.Ready where
  ops := by decide
  servable := by
    intro run hrun
    rcases twoTransports_runs hrun with rfl | rfl
    · exact ⟨by decide, by decide, by decide, by decide⟩
    · exact ⟨by decide, by decide, by decide, by decide⟩
  carried := by
    intro t _ run hrun
    have hlim : (twoMet.limit t).Takes 4102 := by cases t <;> decide
    rcases twoTransports_runs hrun with rfl | rfl
    · exact ⟨hlim.of_le (by decide), hlim.of_le (by decide)⟩
    · exact ⟨hlim.of_le (by decide), hlim.of_le (by decide)⟩
  holds := fun _ => id
  toServer := fun _ _ => le_rfl
  toClient := fun _ _ => le_rfl

/-- The mean of samples. -/
def meanOf (xs : List ℚ) : ℚ≥0 := (xs.sum / xs.length).toNNRat

/-- The deviation of two samples. -/
def deviationOfTwo (xs : List ℚ) : ℚ≥0 := (|xs.getD 0 0 - xs.getD 1 0| / 2).toNNRat

theorem samples_plotted_two :
    ∃ runs : Fin twoTransports.transports.length → Fin (Env.runs twoTransports).length →
        ClientRun ℚ,
      (∀ j, Executed wireProtobuf 0 id twoMet j (runs j)) ∧
      ∃ plots, Env.generateGraphs Python.exact twoTransports (fun t =>
          (Env.fileRuns twoTransports t).flatMap fun p => (runs p.1 p.2).output t.name
            (Env.flags twoTransports (Env.runAt twoTransports p)) meanOf deviationOfTwo)
          = .ok plots ∧
        (plots.map Points.label).Pairwise (· < ·) ∧
        (∀ t, t ∈ plots.map Points.label ↔ t ∈ twoTransports.transports) ∧
        (∀ pts ∈ plots, SamplesPlotted Python.exact wireProtobuf id twoMet meanOf deviationOfTwo
          pts) ∧
        (drawPlots plots = .ok () ↔
          twoMet.AllRead Python.exact wireProtobuf id meanOf deviationOfTwo) := by
  have hends : ∀ j, ∃ runs : Fin (Env.runs twoTransports).length → ClientRun ℚ,
      Executed wireProtobuf 0 id twoMet j runs :=
    Executed.exists_runs wireProtobuf_lawful twoMet_ready
  choose runs hexec using hends
  exact ⟨runs, hexec, samples_plotted Python.exact wireProtobuf_lawful twoTransports_init
    twoMet_ready hexec meanOf deviationOfTwo fun _ _ => .refl _ _⟩

end Plots

end RpcTransport.RunTransports
