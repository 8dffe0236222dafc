import RpcTransport.OutputLines

/-!
# Which run a plotted point belongs to

All runs of a transport append to one file.  A passed run writes the five lines of `clientOutput`, a
failed one any number of them but the last, and lines of any other kind may stand anywhere.

* `parse_history` — reading the file is one assignment for each passed run, in order;
* `Run.key_injective` — the check of the arguments makes a key stand for one run only;
* `plotPoints_aligned` — the points of a plot line up with its x values;
* `plotted_points_attributed` — the whole way from the arguments to the plots.
-/

namespace RpcTransport.RunTransports

open Regex Assoc Decimal

variable {F : Type} (py : Python F)

/-! ### What stands in a file -/

/-- Four numbers in the form digits, point, digits. -/
structure PlainFigures extends Figures where
  tput : toFigures.TputDecimal
  lat : toFigures.LatDecimal

theorem PlainFigures.printed (fig : PlainFigures) : fig.toFigures.Printed :=
  ⟨numChar_of_isDecimal fig.tput.1, numChar_of_isDecimal fig.tput.2,
    numChar_of_isDecimal fig.lat.1, numChar_of_isDecimal fig.lat.2⟩

/-- How a run ends: it passes, or it fails after the first `n` lines of what it would have
printed. -/
inductive Outcome
  | passed (fig : PlainFigures)
  | failed (fig : PlainFigures) (n : ℕ) (hn : n ≤ 4)

/-- The lines a run writes. -/
def Outcome.lines (t : Transport) (flags : ClientFlags) : Outcome → List TextLine
  | .passed fig => clientOutput t.name flags fig.toFigures
  | .failed fig n _ => (clientOutput t.name flags fig.toFigures).take n

/-- The runs of a file with their outcomes. -/
abbrev History := List (Run × Outcome)

/-- The lines the runs write. -/
def History.lines (env : Args) (t : Transport) (history : History) : List TextLine :=
  history.flatMap fun h => h.2.lines t (Env.flags env h.1)

/-- `file` is `lines` with lines of the kind `noise` anywhere between them. -/
inductive Interspersed (noise : TextLine → Prop) : List TextLine → List TextLine → Prop
  | nil : Interspersed noise [] []
  | keep (line : TextLine) {lines file : List TextLine} (h : Interspersed noise lines file) :
      Interspersed noise (line :: lines) (line :: file)
  | noise (line : TextLine) {lines file : List TextLine} (hline : noise line)
      (h : Interspersed noise lines file) : Interspersed noise lines (line :: file)

/-- The passed runs, in order. -/
def History.passedRuns (history : History) : List (Run × PlainFigures) :=
  history.filterMap fun h =>
    match h.2 with
    | .passed fig => some (h.1, fig)
    | .failed _ _ _ => none

/-- What a passed run prints: its count and size and its four numbers. -/
def entryOf (p : Run × PlainFigures) : Stats F where
  blockCount := py.float (intText p.1.blockCount.toInt)
  blockSize := py.float (intText p.1.blockSize.toInt)
  tputAvg := some (py.float p.2.tputAvg)
  tputDev := some (py.float p.2.tputDev)
  latAvg := some (py.float p.2.latAvg)
  latDev := some (py.float p.2.latDev)

theorem ofRun_plain (env : Args) (run : Run) (fig : PlainFigures) :
    Stats.ofRun py (Env.flags env run) fig.toFigures = entryOf py (run, fig) := by
  rw [Stats.ofRun, Stats.readTput, if_pos fig.tput, Stats.readLat, if_pos fig.lat]
  rfl

/-! ### Reading a file -/

section Parse

variable [LinearOrder F]

/-- Lines that match no pattern do not count. -/
theorem foldlM_interspersed (bcIsKey : Bool) {lines file : List TextLine}
    (h : Interspersed (Unmatched py) lines file) (st : ParseState F) :
    file.foldlM (parseLine py bcIsKey) st = lines.foldlM (parseLine py bcIsKey) st := by
  induction h generalizing st with
  | nil => rfl
  | keep line h ih =>
      rw [List.foldlM_cons, List.foldlM_cons]
      congr 1
      funext st'
      exact ih st'
  | noise line hline h ih => rw [foldlM_cons_of (parseLine_unmatched py bcIsKey hline st), ih]

/-- **Reading the output of any runs** assigns the record of each passed run to its key, in order,
whatever record the file begins with. -/
theorem parse_history (env : Args) (t : Transport) (history : History)
    (hruns : ∀ h ∈ history, 0 ≤ h.1.blockCount.toInt ∧ 0 ≤ h.1.blockSize.toInt)
    (st : ParseState F) :
    ∃ s, (history.lines env t).foldlM (parseLine py env.bcIsKey) st
      = .ok { stats := assignAll (fun p => p.1.key py env) (entryOf py) st.stats history.passedRuns
              s := s } := by
  induction history generalizing st with
  | nil => exact ⟨st.s, rfl⟩
  | cons h history ih =>
      obtain ⟨run, outcome⟩ := h
      rw [List.forall_mem_cons] at hruns
      obtain ⟨⟨hcount, hsize⟩, hrest⟩ := hruns
      rw [History.lines, List.flatMap_cons, List.foldlM_append]
      cases outcome with
      | passed fig =>
          rw [Outcome.lines, parse_clientOutput py env.bcIsKey (Env.flags env run) hcount hsize
            fig.printed t st, ofRun_plain]
          exact ih hrest _
      | failed fig n hn =>
          obtain ⟨s, hs⟩ := parse_take py env.bcIsKey (Env.flags env run) hcount hsize
            fig.printed t hn st
          rw [Outcome.lines, hs]
          exact ih hrest _

theorem parseFile_history (env : Args) (t : Transport) {history : History}
    (hruns : ∀ h ∈ history, 0 ≤ h.1.blockCount.toInt ∧ 0 ≤ h.1.blockSize.toInt)
    {file : List TextLine} (hfile : Interspersed (Unmatched py) (history.lines env t) file) :
    Env.parseFile py env file
      = .ok (assignAll (fun p => p.1.key py env) (entryOf py) ∅ history.passedRuns) := by
  obtain ⟨s, hs⟩ := parse_history py env t history hruns {}
  rw [Env.parseFile, foldlM_interspersed py env.bcIsKey hfile, hs]
  rfl

end Parse

/-! ### One key, one run -/

theorem length_sortInts (xs : List Int32) : (sortInts xs).length = xs.length :=
  List.length_mergeSort xs

theorem mem_sortInts {x : Int32} {xs : List Int32} : x ∈ sortInts xs ↔ x ∈ xs :=
  List.mem_mergeSort

/-- What the check lets through: the same values, and several counts only for a single size. -/
theorem Env.init_ok {args env : Args} (h : Env.init args = .ok env) :
    (∀ c, c ∈ env.blockCount ↔ c ∈ args.blockCount) ∧
    (∀ c, c ∈ env.blockSize ↔ c ∈ args.blockSize) ∧
    (1 < env.blockCount.length → env.blockSize.length = 1) := by
  rw [Env.init] at h
  split_ifs at h with hboth hkey hempty
  · cases h
    refine ⟨fun c => mem_sortInts, fun c => Iff.rfl, fun hlen => ?_⟩
    have hlen' : 1 < args.blockCount.length := length_sortInts args.blockCount ▸ hlen
    show args.blockSize.length = 1
    omega
  · cases h
    refine ⟨fun c => Iff.rfl, fun c => mem_sortInts, fun hlen => ?_⟩
    rw [Args.bcIsKey, decide_eq_true_eq] at hkey
    exact absurd hlen hkey

theorem Env.mem_runs {env : Args} {run : Run} :
    run ∈ Env.runs env ↔ run.blockCount ∈ env.blockCount ∧ run.blockSize ∈ env.blockSize := by
  simp only [Env.runs, List.mem_flatMap, List.mem_map]
  constructor
  · rintro ⟨bc, hbc, bs, hbs, rfl⟩
    exact ⟨hbc, hbs⟩
  · rintro ⟨hbc, hbs⟩
    exact ⟨_, hbc, _, hbs, rfl⟩

theorem Env.mem_calls {env : Args} {t : Transport} {run : Run} (h : run ∈ Env.calls env t) :
    run ∈ Env.runs env := by
  obtain ⟨t', -, hrun⟩ := List.mem_flatMap.mp h
  split_ifs at hrun
  · exact hrun
  · cases hrun

/-- A list of at most one element has no two of them. -/
theorem eq_of_length_le_one {α : Type} {xs : List α} (hlen : xs.length ≤ 1) {x y : α} (hx : x ∈ xs)
    (hy : y ∈ xs) : x = y := by
  match xs, hlen with
  | [z], _ => rw [List.mem_singleton.mp hx, List.mem_singleton.mp hy]

/-- `float` tells the values of two flags apart. -/
theorem Python.float_flag {x y : Int32} (hx : 0 ≤ x.toInt) (hy : 0 ≤ y.toInt)
    (h : py.float (intText x.toInt) = py.float (intText y.toInt)) : x = y := by
  have hx' := Int32.toInt_lt x
  have hy' := Int32.toInt_lt y
  rw [intText, if_neg (by omega), intText, if_neg (by omega)] at h
  have hnat := py.float_inj _ _ (by omega) (by omega) h
  exact Int32.toInt_inj.mp (by omega)

/-- **A key stands for one run.** -/
theorem Run.key_injective {env : Args} (hone : 1 < env.blockCount.length → env.blockSize.length = 1)
    {r₁ r₂ : Run} (h₁ : r₁ ∈ Env.runs env) (h₂ : r₂ ∈ Env.runs env)
    (hpos₁ : 0 ≤ r₁.blockCount.toInt ∧ 0 ≤ r₁.blockSize.toInt)
    (hpos₂ : 0 ≤ r₂.blockCount.toInt ∧ 0 ≤ r₂.blockSize.toInt)
    (hkey : r₁.key py env = r₂.key py env) : r₁ = r₂ := by
  obtain ⟨hbc₁, hbs₁⟩ := Env.mem_runs.mp h₁
  obtain ⟨hbc₂, hbs₂⟩ := Env.mem_runs.mp h₂
  obtain ⟨bc₁, bs₁⟩ := r₁
  obtain ⟨bc₂, bs₂⟩ := r₂
  by_cases hlen : 1 < env.blockCount.length
  · -- the counts vary and are the key, the size is the only one
    have hbc : bc₁ = bc₂ := py.float_flag hpos₁.1 hpos₂.1 (by
      simpa [Run.key, Stats.key, Stats.fresh, Env.flags, Args.bcIsKey, hlen] using hkey)
    have hbs : bs₁ = bs₂ := eq_of_length_le_one (hone hlen).le hbs₁ hbs₂
    rw [hbc, hbs]
  · have hbc : bc₁ = bc₂ := eq_of_length_le_one (not_lt.mp hlen) hbc₁ hbc₂
    have hbs : bs₁ = bs₂ := py.float_flag hpos₁.2 hpos₂.2 (by
      simpa [Run.key, Stats.key, Stats.fresh, Env.flags, Args.bcIsKey, hlen] using hkey)
    rw [hbc, hbs]

/-! ### The points -/

section Plots

variable [LinearOrder F]

/-- The x values increase, are the keys of the dictionary, and the values and errors at each
position of both plots are those stored under the x value there. -/
structure Aligned (stats : Dict F (Stats F)) (pts : Points F) : Prop where
  strict : pts.xVals.Pairwise (· < ·)
  keys : ∀ k, k ∈ pts.xVals ↔ k ∈ stats
  lengths : ∀ ys ∈ [pts.tput.yVals, pts.tput.eVals, pts.lat.yVals, pts.lat.eVals],
    ys.length = pts.xVals.length
  values : ∀ (i : ℕ) (k : F), pts.xVals[i]? = some k → ∃ s, stats.lookup k = some s ∧
    pts.tput.yVals[i]? = some s.tputAvg ∧ pts.tput.eVals[i]? = some s.tputDev ∧
    pts.lat.yVals[i]? = some s.latAvg ∧ pts.lat.eVals[i]? = some s.latDev

/-- **The two sorts of `generate_graphs` line up.** -/
theorem plotPoints_aligned (label : Transport) (stats : Dict F (Stats F)) :
    Aligned stats (plotPoints label stats) where
  strict := sortedKeys_strict stats
  keys := fun k => List.mem_mergeSort
  lengths := by
    have hlen : (sortedItems stats).length = (sortedKeys stats).length := by
      rw [← sortedItems_keys, List.length_map]
    simp [plotPoints, hlen]
  values := by
    intro i k hk
    rw [plotPoints, ← sortedItems_keys, List.getElem?_map, Option.map_eq_some_iff] at hk
    obtain ⟨⟨k', s⟩, hi, rfl⟩ := hk
    refine ⟨s, mem_sortedItems.mp (List.mem_of_getElem? hi), ?_⟩
    simp [plotPoints, hi]

/-- With every file read, the data of all transports is there. -/
theorem transportData_ok {env : Args} {files : Transport → List TextLine}
    {stats : Transport → Dict F (Stats F)}
    (h : ∀ t ∈ env.transports, Env.parseFile py env (files t) = .ok (stats t)) :
    Env.transportData py env files = .ok (assignAll id stats ∅ env.transports) := by
  rw [Env.transportData, assignAll]
  generalize (∅ : Dict Transport (Dict F (Stats F))) = d
  revert h
  generalize env.transports = ts
  intro h
  induction ts generalizing d with
  | nil => rfl
  | cons t ts ih =>
      rw [List.forall_mem_cons] at h
      have hstep : (Env.parseFile py env (files t) >>= fun d' => pure (d.insert t d'))
          = Except.ok (d.insert t (stats t)) := by
        rw [h.1]
        rfl
      rw [foldlM_cons_of hstep, List.foldl_cons]
      exact ih _ h.2

/-- The keys of the dictionary are those of the passed runs; under each key is what the last passed
run with it printed, and no other run has that key. -/
structure Attributed (env : Args) (history : History) (stats : Dict F (Stats F)) : Prop where
  keys : ∀ k, k ∈ stats ↔ ∃ p ∈ history.passedRuns, p.1.key py env = k
  entries : ∀ k s, stats.lookup k = some s → ∃ p,
    IsLast (fun p : Run × PlainFigures => p.1.key py env) history.passedRuns k p ∧
    s = entryOf py p ∧ ∀ run ∈ Env.runs env, run.key py env = k → run = p.1

/-- Every file is read as `Attributed` says, and every transport is plotted once, with points that
line up with what was read of its file. -/
structure PlotsAttributed (env : Args) (history : Transport → History)
    (files : Transport → List TextLine) : Prop where
  parsed : ∀ t ∈ env.transports, ∃ stats, Env.parseFile py env (files t) = .ok stats ∧
    Attributed py env (history t) stats
  plotted : ∃ plots, Env.generateGraphs py env files = .ok plots ∧
    (plots.map Points.label).Pairwise (· < ·) ∧
    (∀ t, t ∈ plots.map Points.label ↔ t ∈ env.transports) ∧
    ∀ pts ∈ plots, ∃ stats, Env.parseFile py env (files pts.label) = .ok stats ∧ Aligned stats pts

theorem mem_passedRuns {history : History} {p : Run × PlainFigures} (h : p ∈ history.passedRuns) :
    p.1 ∈ history.map Prod.fst := by
  obtain ⟨⟨run, outcome⟩, hmem, hsome⟩ := List.mem_filterMap.mp h
  cases outcome with
  | passed fig =>
      cases hsome
      exact List.mem_map_of_mem hmem
  | failed fig n hn => cases hsome

/-- The dictionary of a file whose runs are calls of the script. -/
theorem attributed_history {env : Args} {history : History}
    (hone : 1 < env.blockCount.length → env.blockSize.length = 1)
    (hpos : ∀ run ∈ Env.runs env, 0 ≤ run.blockCount.toInt ∧ 0 ≤ run.blockSize.toInt)
    (hruns : ∀ run ∈ history.map Prod.fst, run ∈ Env.runs env) :
    Attributed py env history
      (assignAll (fun p => p.1.key py env) (entryOf py) ∅ history.passedRuns) where
  keys := fun k => mem_assignAll
  entries := by
    intro k s hlookup
    obtain ⟨p, hlast, rfl⟩ := lookup_assignAll hlookup
    refine ⟨p, hlast, rfl, fun run hrun hkey => ?_⟩
    have hp := hruns _ (mem_passedRuns hlast.mem)
    exact Run.key_injective py hone hrun hp (hpos _ hrun) (hpos _ hp) (hkey.trans hlast.key_eq.symm)

/-- The plots of files that are all read. -/
theorem generateGraphs_ok {env : Args} {files : Transport → List TextLine}
    {stats : Transport → Dict F (Stats F)}
    (h : ∀ t ∈ env.transports, Env.parseFile py env (files t) = .ok (stats t)) :
    ∃ plots, Env.generateGraphs py env files = .ok plots ∧
      (plots.map Points.label).Pairwise (· < ·) ∧
      (∀ t, t ∈ plots.map Points.label ↔ t ∈ env.transports) ∧
      ∀ pts ∈ plots, pts = plotPoints pts.label (stats pts.label) := by
  have hdata := transportData_ok py h
  refine ⟨_, by rw [Env.generateGraphs, hdata]; rfl, ?_, ?_, ?_⟩
  · rw [List.map_map]
    show ((sortedItems _).map Sigma.fst).Pairwise (· < ·)
    rw [sortedItems_keys]
    exact sortedKeys_strict _
  · intro t
    rw [List.map_map]
    show t ∈ (sortedItems _).map Sigma.fst ↔ _
    rw [sortedItems_keys, sortedKeys, List.mem_mergeSort]
    show t ∈ assignAll id stats ∅ env.transports ↔ _
    rw [mem_assignAll]
    simp
  · intro pts hpts
    obtain ⟨⟨t, d⟩, hitem, rfl⟩ := List.mem_map.mp hpts
    obtain ⟨t', hlast, rfl⟩ := lookup_assignAll (mem_sortedItems.mp hitem)
    obtain rfl : t' = t := hlast.key_eq
    rfl

/-- All four numbers of a record were read. -/
def Stats.Complete (s : Stats F) : Prop :=
  (s.tputAvg.isSome ∧ s.tputDev.isSome) ∧ s.latAvg.isSome ∧ s.latDev.isSome

omit [LinearOrder F] in
/-- That is when the patterns can read the figures of its run. -/
theorem Stats.ofRun_complete (flags : ClientFlags) (fig : Figures) :
    (Stats.ofRun py flags fig).Complete ↔ fig.TputDecimal ∧ fig.LatDecimal := by
  by_cases htput : fig.TputDecimal <;> by_cases hlat : fig.LatDecimal <;>
    simp [Stats.Complete, Stats.ofRun, Stats.readTput, Stats.readLat, Stats.fresh, htput, hlat]

omit [LinearOrder F] in
theorem Series.errorbar_ok_iff (s : Series F) :
    s.errorbar = .ok () ↔ (∀ y ∈ s.yVals, y.isSome) ∧ ∀ e ∈ s.eVals, e.isSome := by
  rw [Series.errorbar, List.all_append, ← List.all_eq_true, ← List.all_eq_true]
  cases s.yVals.all Option.isSome <;> cases s.eVals.all Option.isSome <;> simp

/-- Two statements in a row go through when both do. -/
theorem andThen_ok_iff {ε : Type} (a b : Except ε Unit) :
    (a >>= fun _ => b) = .ok () ↔ a = .ok () ∧ b = .ok () := by
  cases a with
  | error e => exact ⟨(fun h => by cases h), fun h => by cases h.1⟩
  | ok u => exact ⟨fun h => ⟨rfl, h⟩, fun h => h.2⟩

/-- A transport can be plotted when all records of its file are complete. -/
theorem plotPoints_draw_iff (label : Transport) (stats : Dict F (Stats F)) :
    (plotPoints label stats).draw = .ok () ↔ ∀ k s, stats.lookup k = some s → s.Complete := by
  rw [Points.draw, andThen_ok_iff, Series.errorbar_ok_iff, Series.errorbar_ok_iff]
  simp only [plotPoints, List.forall_mem_map]
  constructor
  · rintro ⟨⟨htputAvg, htputDev⟩, hlatAvg, hlatDev⟩ k s hlookup
    have hitem := mem_sortedItems.mpr hlookup
    exact ⟨⟨htputAvg _ hitem, htputDev _ hitem⟩, hlatAvg _ hitem, hlatDev _ hitem⟩
  · intro hall
    have hitems : ∀ kv ∈ sortedItems stats, kv.2.Complete :=
      fun kv hkv => hall kv.1 kv.2 (mem_sortedItems.mp hkv)
    exact ⟨⟨fun kv hkv => (hitems kv hkv).1.1, fun kv hkv => (hitems kv hkv).1.2⟩,
      fun kv hkv => (hitems kv hkv).2.1, fun kv hkv => (hitems kv hkv).2.2⟩

omit [LinearOrder F] in
/-- All transports can be plotted when each of them can. -/
theorem drawPlots_ok_iff (plots : List (Points F)) :
    drawPlots plots = .ok () ↔ ∀ pts ∈ plots, pts.draw = .ok () := by
  induction plots with
  | nil => simp [drawPlots, pure, Except.pure]
  | cons pts plots ih =>
      rw [List.forall_mem_cons, ← ih]
      exact andThen_ok_iff _ _

end Plots

/-! ### A sample -/

theorem Interspersed.refl (noise : TextLine → Prop) (lines : List TextLine) :
    Interspersed noise lines lines := by
  induction lines with
  | nil => exact .nil
  | cons line lines ih => exact .keep line ih

/-- Two block sizes. -/
def sampleArgs : Args := ⟨[.grpc], .write, 35, [16], [512, 4096]⟩

def sampleFigures : PlainFigures where
  tputAvg := "812.5".toList
  tputDev := "3.25".toList
  latAvg := "0.25".toList
  latDev := "0.5".toList
  count := 35
  tput := ⟨⟨"812".toList, "5".toList, ⟨by simp, by simp⟩, ⟨by simp, by simp⟩, rfl⟩,
    ⟨"3".toList, "25".toList, ⟨by simp, by simp⟩, ⟨by simp, by simp⟩, rfl⟩⟩
  lat := ⟨⟨"0".toList, "25".toList, ⟨by simp, by simp⟩, ⟨by simp, by simp⟩, rfl⟩,
    ⟨"0".toList, "5".toList, ⟨by simp, by simp⟩, ⟨by simp, by simp⟩, rfl⟩⟩

/-- The second run stops before it prints its latency. -/
def sampleHistory : History :=
  [(⟨16, 512⟩, .passed sampleFigures), (⟨16, 4096⟩, .failed sampleFigures 3 (by decide))]

/-- A log line, then the output of both runs. -/
def sampleFile (t : Transport) : List TextLine :=
  "Connected\n".toList :: sampleHistory.lines sampleArgs t

theorem sampleArgs_init : Env.init sampleArgs = .ok sampleArgs := by
  have hsort : sortInts [512, 4096] = [512, 4096] := List.mergeSort_of_pairwise (by decide)
  show Except.ok ({ sampleArgs with blockSize := sortInts [512, 4096] } : Args) = _
  rw [hsort]
  rfl

theorem unmatched_log : Unmatched Python.exact "Connected\n".toList :=
  ⟨header_none_of_notMem _ (by decide), stats_none_of_other_start _ _ (by decide),
    stats_none_of_other_start _ _ (by decide),
    Re.search_lit_none (c := 'T') (by decide) (by decide)⟩

/-! ### From the arguments to the plots -/

/-- **Every plotted point belongs to the right run.**  For every command line the script accepts,
every outcome of every run, and files with any other lines between those of the runs. -/
theorem plotted_points_attributed [LinearOrder F] {args env : Args}
    (hinit : Env.init args = .ok env)
    (hcount : ∀ c ∈ args.blockCount, 0 < c.toInt) (hsize : ∀ c ∈ args.blockSize, 0 < c.toInt)
    (history : Transport → History) (files : Transport → List TextLine)
    (hruns : ∀ t ∈ env.transports, (history t).map Prod.fst = Env.calls env t)
    (hfiles : ∀ t ∈ env.transports,
      Interspersed (Unmatched py) ((history t).lines env t) (files t)) :
    PlotsAttributed py env history files := by
  obtain ⟨hcounts, hsizes, hone⟩ := Env.init_ok hinit
  have hpos : ∀ run ∈ Env.runs env, 0 ≤ run.blockCount.toInt ∧ 0 ≤ run.blockSize.toInt := by
    intro run hrun
    obtain ⟨hbc, hbs⟩ := Env.mem_runs.mp hrun
    exact ⟨(hcount _ ((hcounts _).mp hbc)).le, (hsize _ ((hsizes _).mp hbs)).le⟩
  have hcalls : ∀ t ∈ env.transports, ∀ run ∈ (history t).map Prod.fst, run ∈ Env.runs env :=
    fun t ht run hrun => Env.mem_calls (hruns t ht ▸ hrun)
  have hparse : ∀ t ∈ env.transports, Env.parseFile py env (files t)
      = .ok (assignAll (fun p => p.1.key py env) (entryOf py) ∅ (history t).passedRuns) :=
    fun t ht => parseFile_history py env t
      (fun h hh => hpos _ (hcalls t ht _ (List.mem_map_of_mem hh))) (hfiles t ht)
  obtain ⟨plots, hok, hlabels, hmem, hpoints⟩ := generateGraphs_ok py hparse
  refine ⟨fun t ht => ⟨_, hparse t ht, attributed_history py hone hpos (hcalls t ht)⟩,
    plots, hok, hlabels, hmem, fun pts hpts => ?_⟩
  have hlabel : pts.label ∈ env.transports := (hmem _).mp (List.mem_map_of_mem hpts)
  refine ⟨_, hparse _ hlabel, ?_⟩
  rw [hpoints pts hpts]
  exact plotPoints_aligned _ _

/-- Two sizes, of which the second run fails. -/
theorem plotted_points_attributed_sample :
    PlotsAttributed Python.exact sampleArgs (fun _ => sampleHistory) sampleFile :=
  plotted_points_attributed Python.exact sampleArgs_init (by simp [sampleArgs])
    (by simp [sampleArgs])
    (fun _ => sampleHistory) sampleFile
    (fun t ht => by rw [List.mem_singleton.mp ht]; rfl)
    (fun t _ => .noise _ unmatched_log (.refl _ _))

end RpcTransport.RunTransports
