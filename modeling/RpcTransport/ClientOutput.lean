import RpcTransport.ClientRuns
import RpcTransport.Lib.Decimal

/-!
# The lines the client prints

What `main` of the client writes to its standard output, as text: two lines before the loop, and
after it the two statistics and `Test passed`.  Numbers are printed by `std::ostream` in its default
format.

* `clientOutput` — the five lines of a run that passes;
* `clientMain_text` — the lines of a run of `clientMain` are these five, or the first two.
-/

namespace RpcTransport

open Decimal

/-- A line of text with its line end. -/
abbrev TextLine := List Char

/-- An `int` as `std::ostream` prints it. -/
def intText (n : ℤ) : List Char :=
  if n < 0 then '-' :: Nat.toDigits 10 n.natAbs else Nat.toDigits 10 n.natAbs

/-- A finite `double` that is not negative, as `std::ostream` prints it. -/
def doubleText (x : ℚ≥0) : List Char := defaultFormat (round6 x)

/-- The text of `--workload`. -/
def Workload.name : Workload → String
  | .write => "write"
  | .read => "read"
  | .echo => "echo"

def transportLine (transport : String) : TextLine :=
  "Transport=".toList ++ transport.toList ++ "\n".toList

def sendingLine (flags : ClientFlags) : TextLine :=
  "Sending ".toList ++ intText flags.opCount.toInt ++ " ".toList ++ flags.workload.name.toList
    ++ " op(s), each for ".toList ++ intText flags.blockCount.toInt ++ " blocks of size ".toList
    ++ intText flags.blockSize.toInt ++ " bytes\n".toList

/-- `printStats`, of a label, the texts of the average and the deviation, and the count. -/
def printStats (label : String) (avg dev : List Char) (count : ℕ) : TextLine :=
  label.toList ++ ": avg=".toList ++ avg ++ " dev=".toList ++ dev ++ " count=".toList
    ++ Nat.toDigits 10 count ++ "\n".toList

def testPassedLine : TextLine := "Test passed\n".toList

/-- What the two statistics of a run print: the texts of the averages and deviations, and how many
samples there are. -/
structure Figures where
  tputAvg : List Char
  tputDev : List Char
  latAvg : List Char
  latDev : List Char
  count : ℕ

/-- The texts hold nothing but characters of numbers. -/
structure Figures.Printed (fig : Figures) : Prop where
  tputAvg : ∀ c ∈ fig.tputAvg, NumChar c
  tputDev : ∀ c ∈ fig.tputDev, NumChar c
  latAvg : ∀ c ∈ fig.latAvg, NumChar c
  latDev : ∀ c ∈ fig.latDev, NumChar c

/-- Both throughput numbers are digits, a point, and digits. -/
def Figures.TputDecimal (fig : Figures) : Prop := IsDecimal fig.tputAvg ∧ IsDecimal fig.tputDev

/-- Both latency numbers are digits, a point, and digits. -/
def Figures.LatDecimal (fig : Figures) : Prop := IsDecimal fig.latAvg ∧ IsDecimal fig.latDev

/-- The output of a run that passes. -/
def clientOutput (transport : String) (flags : ClientFlags) (fig : Figures) : List TextLine :=
  [transportLine transport, sendingLine flags,
    printStats "Throughput (Mbps)" fig.tputAvg fig.tputDev fig.count,
    printStats "Latency (ms)" fig.latAvg fig.latDev fig.count, testPassedLine]

/-! ### The lines of a run of `main` -/

section Samples

variable {D : Type} [IntCast D] [Sub D] [Div D]

/-- The text of a line; `mean` and `deviation` are what the accumulators compute of the samples. -/
def Line.text (mean deviation : List D → ℚ≥0) : Line D → TextLine
  | .stats label acc =>
      printStats label (doubleText (mean acc)) (doubleText (deviation acc)) acc.length
  | .testPassed => testPassedLine

/-- What the accumulators print at the end of a run. -/
def ClientState.figures (mean deviation : List D → ℚ≥0) (st : ClientState D) : Figures where
  tputAvg := doubleText (mean st.tput)
  tputDev := doubleText (deviation st.tput)
  latAvg := doubleText (mean st.lat)
  latDev := doubleText (deviation st.lat)
  count := st.tput.length

/-- Everything `main` prints: the lines before the loop and those after it. -/
def ClientRun.output (transport : String) (flags : ClientFlags) (mean deviation : List D → ℚ≥0)
    (run : ClientRun D) : List TextLine :=
  transportLine transport :: sendingLine flags :: run.stdout.map (Line.text mean deviation)

/-- **The output of a run** is the whole of `clientOutput` when the run passes, and the two lines
before the loop when it does not. -/
theorem clientMain_text (pb : Protobuf) (ovf : ℤ → ℤ) (flags : ClientFlags) (ops : ℕ → OpEnv)
    (transport : String) (mean deviation : List D → ℚ≥0) :
    let run : ClientRun D := clientMain pb 0 ovf flags ops
    let whole := clientOutput transport flags (run.final.figures mean deviation)
    (.testPassed ∈ run.stdout → run.output transport flags mean deviation = whole) ∧
    (.testPassed ∉ run.stdout → run.output transport flags mean deviation = whole.take 2) := by
  have hend := clientMain_end (D := D) pb ovf flags ops
  generalize (clientMain pb 0 ovf flags ops : ClientRun D) = run at hend ⊢
  cases hend with
  | passed h =>
      refine ⟨fun _ => ?_, fun hnot => absurd (by simp) hnot⟩
      have hlen := h.lat_length.trans h.tput_length.symm
      simp only [ClientRun.output, clientOutput, List.map_cons, List.map_nil, Line.text,
        ClientState.figures, hlen]
  | failed k hk hbefore hfail hsent =>
      exact ⟨fun hpassed => (nomatch hpassed), fun _ => rfl⟩

end Samples

end RpcTransport
