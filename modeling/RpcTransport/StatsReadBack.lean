import RpcTransport.OutputLines

/-!
# Which printed statistics are read back

The client prints its four figures with `std::ostream`'s default format, which writes a whole
number without a point and a very small or large one with an exponent; the script's patterns ask
for digits, a point, and digits.

* `parse_without_header` — a file without a header line is an error as soon as a run passes in it;
* `readBack_iff` — the output of a run is read back exactly when no flag has a sign and all four
  texts have the shape the patterns ask for;
* `statistics_read_iff` — which numbers these are.
-/

namespace RpcTransport.RunTransports

open Regex Assoc Decimal

variable {F : Type} (py : Python F)

/-! ### Files without a header -/

/-- Without a record, a statistics pattern either does not match or the script fails. -/
theorem tryStats_no_record (re : Re) (attr : String) (set : F → F → Stats F → Stats F)
    (line : TextLine) : tryStats py re attr set line none = .ok none ∨
      tryStats py re attr set line none = .error (.attributeError attr) := by
  rw [tryStats]
  cases re.groups line with
  | none => exact Or.inl rfl
  | some groups => exact Or.inr rfl

section NoRecord

variable [LinearOrder F] (bcIsKey : Bool)

/-- A line that is no header leaves the script without a record, or fails. -/
theorem parseLine_no_record {line : TextLine} (h : (reHeader py).groups line = none)
    (d : Dict F (Stats F)) :
    parseLine py bcIsKey { stats := d } line = .ok { stats := d } ∧ rePassed.search line = none ∨
      ∃ attr, parseLine py bcIsKey { stats := d } line = .error (.attributeError attr) := by
  have hstep : parseLine py bcIsKey { stats := d } line
      = (tryTput py line none >>= fun s => tryLat py line s >>= fun s =>
          tryPassed bcIsKey line { stats := d, s := s }) := by
    show (tryTput py line (tryHeader py line none) >>= _) = _
    rw [tryHeader_none py h]
  rw [hstep]
  rcases tryStats_no_record py (reTput py) "tput_avg"
    (fun avg dev s => { s with tputAvg := avg, tputDev := dev }) line with htput | htput
  · rw [tryTput, htput]
    show (tryLat py line none >>= _) = _ ∧ _ ∨ ∃ attr, (tryLat py line none >>= _) = _
    rcases tryStats_no_record py (reLat py) "lat_avg"
      (fun avg dev s => { s with latAvg := avg, latDev := dev }) line with hlat | hlat
    · rw [tryLat, hlat]
      show tryPassed bcIsKey line _ = _ ∧ _ ∨ ∃ attr, tryPassed bcIsKey line _ = _
      rw [tryPassed]
      cases rePassed.search line with
      | none => exact Or.inl ⟨rfl, rfl⟩
      | some groups => exact Or.inr ⟨_, rfl⟩
    · rw [tryLat, hlat]
      exact Or.inr ⟨_, rfl⟩
  · rw [tryTput, htput]
    exact Or.inr ⟨_, rfl⟩

/-- **A run that passes in a file without a header** makes the script fail. -/
theorem parse_without_header (lines : List TextLine) (d : Dict F (Stats F))
    (hheader : ∀ line ∈ lines, (reHeader py).groups line = none)
    (hpassed : ∃ line ∈ lines, rePassed.search line ≠ none) :
    ∃ attr, lines.foldlM (parseLine py bcIsKey) { stats := d } = .error (.attributeError attr) := by
  induction lines with
  | nil =>
      obtain ⟨line, hline, -⟩ := hpassed
      cases hline
  | cons line lines ih =>
      rw [List.forall_mem_cons] at hheader
      rcases parseLine_no_record py bcIsKey hheader.1 d with ⟨hok, hnone⟩ | ⟨attr, herr⟩
      · rw [foldlM_cons_of hok]
        apply ih hheader.2
        obtain ⟨line', hline', hsome⟩ := hpassed
        rcases List.mem_cons.mp hline' with rfl | hmem
        · exact absurd hnone hsome
        · exact ⟨line', hmem, hsome⟩
      · rw [List.foldlM_cons, herr]
        exact ⟨attr, rfl⟩

end NoRecord

/-! ### The output of one run -/

/-- The numbers a passed run stores are the printed ones when the patterns can read them, and stay
unset otherwise. -/
theorem Stats.ofRun_values (flags : ClientFlags) (fig : Figures) :
    ((Stats.ofRun py flags fig).tputAvg = some (py.float fig.tputAvg) ∧
      (Stats.ofRun py flags fig).tputDev = some (py.float fig.tputDev) ∧
      (Stats.ofRun py flags fig).latAvg = some (py.float fig.latAvg) ∧
      (Stats.ofRun py flags fig).latDev = some (py.float fig.latDev)) ↔
    fig.TputDecimal ∧ fig.LatDecimal := by
  by_cases htput : fig.TputDecimal
  · by_cases hlat : fig.LatDecimal
    · simp [Stats.ofRun, Stats.readTput, Stats.readLat, htput, hlat]
    · simp [Stats.ofRun, Stats.readTput, Stats.readLat, Stats.fresh, htput, hlat]
  · by_cases hlat : fig.LatDecimal
    · simp [Stats.ofRun, Stats.readTput, Stats.readLat, Stats.fresh, htput, hlat]
    · simp [Stats.ofRun, Stats.readTput, Stats.readLat, Stats.fresh, htput, hlat]

/-- No line of the output is a header when one of the flags has a sign. -/
theorem clientOutput_header (flags : ClientFlags)
    (hsign : ¬ (0 ≤ flags.blockCount.toInt ∧ 0 ≤ flags.blockSize.toInt)) {fig : Figures}
    (h : fig.Printed) (t : Transport) :
    ∀ line ∈ clientOutput t.name flags fig, (reHeader py).groups line = none := by
  simp only [clientOutput, List.forall_mem_cons]
  exact ⟨(unmatched_transportLine py t).header, header_none py hsign,
    printStats_header py _ (by decide) h.tputAvg h.tputDev fig.count,
    printStats_header py _ (by decide) h.latAvg h.latDev fig.count,
    header_none_of_notMem py (by decide), fun line hline => by cases hline⟩

section ReadBack

variable [LinearOrder F]

/-- The file's only record is that of the run and holds all four printed values. -/
def ReadBack (env : Args) (run : Run) (fig : Figures)
    (result : Except ScriptError (Dict F (Stats F))) : Prop :=
  ∃ stats s, result = .ok stats ∧ stats.keys = [run.key py env] ∧
    stats.lookup (run.key py env) = some s ∧
    s.tputAvg = some (py.float fig.tputAvg) ∧ s.tputDev = some (py.float fig.tputDev) ∧
    s.latAvg = some (py.float fig.latAvg) ∧ s.latDev = some (py.float fig.latDev)

/-- **What is read back of a run**, in terms of the texts. -/
theorem readBack_iff (env : Args) (t : Transport) (run : Run) {fig : Figures} (h : fig.Printed) :
    ReadBack py env run fig (Env.parseFile py env (clientOutput t.name (Env.flags env run) fig)) ↔
      (0 ≤ run.blockCount.toInt ∧ 0 ≤ run.blockSize.toInt) ∧ fig.TputDecimal ∧ fig.LatDecimal := by
  by_cases hsign : 0 ≤ run.blockCount.toInt ∧ 0 ≤ run.blockSize.toInt
  · rw [and_iff_right hsign, ← Stats.ofRun_values py (Env.flags env run) fig]
    have hparse : Env.parseFile py env (clientOutput t.name (Env.flags env run) fig)
        = .ok ((∅ : Dict F (Stats F)).insert (run.key py env)
          (Stats.ofRun py (Env.flags env run) fig)) := by
      rw [Env.parseFile,
        parse_clientOutput py env.bcIsKey (Env.flags env run) hsign.1 hsign.2 h t {}]
      rfl
    rw [hparse]
    constructor
    · rintro ⟨stats, s, hok, -, hlookup, hvalues⟩
      obtain rfl := Except.ok.inj hok
      rw [AList.lookup_insert, Option.some.injEq] at hlookup
      rw [hlookup]
      exact hvalues
    · intro hvalues
      exact ⟨_, _, rfl, rfl, AList.lookup_insert _, hvalues⟩
  · have hpassed : ∃ line ∈ clientOutput t.name (Env.flags env run) fig,
        rePassed.search line ≠ none := by
      obtain ⟨groups, hgroups⟩ := testPassedLine_passed
      exact ⟨testPassedLine, by simp [clientOutput], by simp [hgroups]⟩
    obtain ⟨attr, herr⟩ := parse_without_header py env.bcIsKey _ ∅
      (clientOutput_header py (Env.flags env run) hsign h t) hpassed
    have hparse : Env.parseFile py env (clientOutput t.name (Env.flags env run) fig)
        = .error (.attributeError attr) := by
      rw [Env.parseFile, herr]
      rfl
    rw [hparse]
    constructor
    · rintro ⟨stats, s, hok, -⟩
      cases hok
    · intro hread
      exact absurd hread.1 hsign

/-! ### The numbers -/

/-- The four figures of a run, and how many samples they are of.  A finite `double` that is not
negative is such a number. -/
structure Values where
  tputAvg : ℚ≥0
  tputDev : ℚ≥0
  latAvg : ℚ≥0
  latDev : ℚ≥0
  count : ℕ

/-- The texts the client prints. -/
def Values.figures (v : Values) : Figures where
  tputAvg := doubleText v.tputAvg
  tputDev := doubleText v.tputDev
  latAvg := doubleText v.latAvg
  latDev := doubleText v.latDev
  count := v.count

theorem Values.printed (v : Values) : v.figures.Printed :=
  ⟨defaultFormat_chars _, defaultFormat_chars _, defaultFormat_chars _, defaultFormat_chars _⟩

/-- **Which printed statistics are read back.**  For every run and any four figures. -/
theorem statistics_read_iff (env : Args) (t : Transport) (run : Run) (v : Values) :
    ReadBack py env run v.figures
        (Env.parseFile py env (clientOutput t.name (Env.flags env run) v.figures)) ↔
      (0 ≤ run.blockCount.toInt ∧ 0 ≤ run.blockSize.toInt) ∧
      ((round6 v.tputAvg).Fractional ∧ (round6 v.tputDev).Fractional) ∧
      (round6 v.latAvg).Fractional ∧ (round6 v.latDev).Fractional := by
  rw [readBack_iff py env t run v.printed, Figures.TputDecimal, Figures.LatDecimal]
  simp only [Values.figures, doubleText, isDecimal_defaultFormat]

end ReadBack

/-- One operation: a deviation of zero is printed as `0`, and neither throughput is read. -/
theorem single_op_unread :
    ¬ ReadBack Python.exact ⟨[.grpc], .write, 1, [16], [4096]⟩ ⟨16, 4096⟩
      (Values.figures ⟨1625 / 2, 0, 1 / 4, 0, 1⟩)
      (Env.parseFile Python.exact ⟨[.grpc], .write, 1, [16], [4096]⟩
        (clientOutput Transport.grpc.name (Env.flags ⟨[.grpc], .write, 1, [16], [4096]⟩ ⟨16, 4096⟩)
          (Values.figures ⟨1625 / 2, 0, 1 / 4, 0, 1⟩))) := by
  intro hread
  obtain ⟨-, ⟨-, hdev⟩, -⟩ := (readBack_iff _ _ _ _ (Values.printed _)).mp hread
  have hzero : (Values.figures ⟨1625 / 2, 0, 1 / 4, 0, 1⟩).tputDev = ['0'] := by
    simp [Values.figures, doubleText, round6, defaultFormat]
  rw [hzero] at hdev
  exact not_isDecimal_of_isDigits (by simp) hdev

end RpcTransport.RunTransports
