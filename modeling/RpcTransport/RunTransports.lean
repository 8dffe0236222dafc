import RpcTransport.ClientOutput
import RpcTransport.Lib.Dict
import RpcTransport.Lib.Regex
import Mathlib.Data.String.Basic

/-!
# The script `run_transports.py`

The script runs the client once for each block count and block size, all runs of a transport
appending to one file, reads the statistics back from the files and plots them.

* `Env.init` — the check of the arguments, and the sort of the list that varies;
* `Env.runs`, `Env.calls` — the runs, in the order of the loops of `run_client` and `run_tests`;
* `Env.parseFile` — one file, line by line, with the current record and the dictionary so far;
* `Env.generateGraphs`, `drawPlots` — the points of the plots, and plotting them.
-/

namespace RpcTransport.RunTransports

open Regex Assoc

/-! ### Arguments -/

/-- The exceptions of the script's own making, and that of `errorbar`. -/
inductive ScriptError
  | runtimeError (text : String)
  | indexError
  /-- an attribute of `None` was set or read -/
  | attributeError (attr : String)
  /-- a `None` was among the values to plot -/
  | errorbar
  deriving DecidableEq

/-- The choices of `--transports`. -/
inductive Transport
  | grpc
  | flatbuffers
  | capnproto

def Transport.name : Transport → String
  | .grpc => "grpc"
  | .flatbuffers => "flatbuffers"
  | .capnproto => "capnproto"

theorem Transport.name_injective : Function.Injective Transport.name := by
  intro a b h
  cases a <;> cases b <;> first | rfl | exact absurd h (by decide)

/-- Transports are sorted by name. -/
instance : LinearOrder Transport := LinearOrder.lift' Transport.name Transport.name_injective

/-- The parsed command line. -/
structure Args where
  transports : List Transport
  workload : Workload
  opCount : Int32
  blockCount : List Int32
  blockSize : List Int32

/-- `len(self.args.block_count) > 1`. -/
def Args.bcIsKey (args : Args) : Bool := 1 < args.blockCount.length

/-- `list.sort(key=lambda x: int(x))`. -/
def sortInts (xs : List Int32) : List Int32 := xs.mergeSort fun a b => decide (a.toInt ≤ b.toInt)

/-- `Env.__init__`: the check, then `get_file_prefix`, which sorts the list that is the key and
reads its ends. -/
def Env.init (args : Args) : Except ScriptError Args :=
  if args.blockCount.length ≠ 1 ∧ args.blockSize.length ≠ 1 then
    .error (.runtimeError "block count or block size must be one")
  else if args.bcIsKey then
    .ok { args with blockCount := sortInts args.blockCount }
  else if args.blockSize = [] then .error .indexError
  else .ok { args with blockSize := sortInts args.blockSize }

/-- One call of the client. -/
structure Run where
  blockCount : Int32
  blockSize : Int32
  deriving DecidableEq

/-- The calls of `run_client`, in order. -/
def Env.runs (env : Args) : List Run :=
  env.blockCount.flatMap fun bc => env.blockSize.map fun bs => ⟨bc, bs⟩

/-- The calls whose output is appended to the file of `t` in the loop of `run_tests`: a transport
given twice is run twice. -/
def Env.calls (env : Args) (t : Transport) : List Run :=
  env.transports.flatMap fun t' => if t' = t then Env.runs env else []

/-- The command line of a call. -/
def Env.flags (env : Args) (run : Run) : ClientFlags where
  workload := env.workload
  blockSize := run.blockSize
  blockCount := run.blockCount
  opCount := env.opCount

/-! ### Reading a file -/

/-- What the script takes from Python: the class `\d`, which on ASCII is the digits, and `float`,
which tells 32-bit integers apart. -/
structure Python (F : Type) where
  isDigit : Char → Bool
  isDigit_ascii : ∀ c : Char, c.toNat < 128 → isDigit c = c.isDigit
  float : List Char → F
  float_inj : ∀ m n : ℕ, m < 2 ^ 31 → n < 2 ^ 31 →
    float (Nat.toDigits 10 m) = float (Nat.toDigits 10 n) → m = n

/-- `float` of digits, or of digits, a point, and digits, with no rounding of a long fraction. -/
def exactFloat (t : List Char) : ℚ :=
  let whole := t.takeWhile (· != '.')
  let frac := t.drop (whole.length + 1)
  Nat.ofDigitChars 10 whole 0 + Nat.ofDigitChars 10 frac 0 / 10 ^ frac.length

theorem exactFloat_toDigits (n : ℕ) : exactFloat (Nat.toDigits 10 n) = n := by
  have hwhole : (Nat.toDigits 10 n).takeWhile (· != '.') = Nat.toDigits 10 n := by
    rw [List.takeWhile_eq_self_iff]
    intro c hc
    have hdigit : c.isDigit = true := Nat.isDigit_of_mem_toDigits (by decide) le_rfl hc
    rw [bne_iff_ne]
    rintro rfl
    exact absurd hdigit (by decide)
  rw [exactFloat, hwhole, List.drop_eq_nil_of_le (Nat.le_succ _), Nat.ofDigitChars_ten_toDigits]
  simp

/-- Python on ASCII text and exact numbers. -/
def Python.exact : Python ℚ where
  isDigit := Char.isDigit
  isDigit_ascii := fun _ _ => rfl
  float := exactFloat
  float_inj := by
    intro m n _ _ h
    rw [exactFloat_toDigits, exactFloat_toDigits] at h
    exact_mod_cast h

example : exactFloat "812.5".toList = 1625 / 2 := by decide +kernel

variable {F : Type}

/-- `Stats`.  A record is only made for a matched header, which sets the first two fields. -/
structure Stats (F : Type) where
  blockCount : F
  blockSize : F
  tputAvg : Option F := none
  tputDev : Option F := none
  latAvg : Option F := none
  latDev : Option F := none

/-- `.`, which is any character but the line end. -/
def dot (c : Char) : Bool := c != '\n'

/-- `.* for (\d+) blocks of size (\d+) .*`. -/
def reHeader (py : Python F) : Re :=
  .seq (.star dot) (.seq (.lit " for ".toList) (.seq (.group (.plus py.isDigit))
    (.seq (.lit " blocks of size ".toList) (.seq (.group (.plus py.isDigit))
      (.seq (.lit " ".toList) (.star dot))))))

/-- `\d+\.\d+`. -/
def reNumber (py : Python F) : Re :=
  .seq (.plus py.isDigit) (.seq (.lit ".".toList) (.plus py.isDigit))

/-- `<label>.* avg=(\d+\.\d+) dev=(\d+\.\d+) .*`. -/
def reStats (py : Python F) (label : String) : Re :=
  .seq (.lit label.toList) (.seq (.star dot) (.seq (.lit " avg=".toList)
    (.seq (.group (reNumber py)) (.seq (.lit " dev=".toList) (.seq (.group (reNumber py))
      (.seq (.lit " ".toList) (.star dot)))))))

def reTput (py : Python F) : Re := reStats py "Throughput"

def reLat (py : Python F) : Re := reStats py "Latency"

def rePassed : Re := .lit "Test passed".toList

/-- `tuple(float(i) for i in m.group(1, 2))`. -/
def floats (py : Python F) (groups : List (List Char)) : F × F :=
  (py.float (groups.getD 0 []), py.float (groups.getD 1 []))

/-- The record after the header pattern was tried on a line. -/
def tryHeader (py : Python F) (line : TextLine) (s : Option (Stats F)) : Option (Stats F) :=
  match (reHeader py).groups line with
  | none => s
  | some groups =>
      let (count, size) := floats py groups
      some { blockCount := count, blockSize := size }

/-- The record after one of the statistics patterns was tried on a line; `attr` is the first
attribute the branch sets. -/
def tryStats (py : Python F) (re : Re) (attr : String) (set : F → F → Stats F → Stats F)
    (line : TextLine) (s : Option (Stats F)) : Except ScriptError (Option (Stats F)) :=
  match re.groups line with
  | none => .ok s
  | some groups =>
      let (avg, dev) := floats py groups
      match s with
      | none => .error (.attributeError attr)
      | some s => .ok (some (set avg dev s))

def tryTput (py : Python F) : TextLine → Option (Stats F) →
    Except ScriptError (Option (Stats F)) :=
  tryStats py (reTput py) "tput_avg" fun avg dev s => { s with tputAvg := avg, tputDev := dev }

def tryLat (py : Python F) : TextLine → Option (Stats F) →
    Except ScriptError (Option (Stats F)) :=
  tryStats py (reLat py) "lat_avg" fun avg dev s => { s with latAvg := avg, latDev := dev }

variable [LinearOrder F]

/-- The dictionary so far and the current record. -/
structure ParseState (F : Type) [LinearOrder F] where
  stats : Dict F (Stats F) := ∅
  s : Option (Stats F) := none

/-- The key a record is stored under. -/
def Stats.key (bcIsKey : Bool) (s : Stats F) : F := if bcIsKey then s.blockCount else s.blockSize

/-- The last branch of the loop.  Nothing else refers to a record once it is stored. -/
def tryPassed (bcIsKey : Bool) (line : TextLine) (st : ParseState F) :
    Except ScriptError (ParseState F) :=
  match rePassed.search line with
  | none => .ok st
  | some _ =>
      match st.s with
      | none => .error (.attributeError (if bcIsKey then "block_count" else "block_size"))
      | some s => .ok { stats := st.stats.insert (s.key bcIsKey) s, s := none }

/-- The body of the loop over the lines. -/
def parseLine (py : Python F) (bcIsKey : Bool) (st : ParseState F) (line : TextLine) :
    Except ScriptError (ParseState F) := do
  let s ← tryTput py line (tryHeader py line st.s)
  let s ← tryLat py line s
  tryPassed bcIsKey line { st with s := s }

/-- `parse_file`, of the lines of the file. -/
def Env.parseFile (py : Python F) (env : Args) (lines : List TextLine) :
    Except ScriptError (Dict F (Stats F)) := do
  let st ← lines.foldlM (parseLine py env.bcIsKey) {}
  pure st.stats

/-! ### Plotting -/

/-- What `errorbar` is given for one plot: the values and their errors. -/
structure Series (F : Type) where
  yVals : List (Option F)
  eVals : List (Option F)

/-- The points of one transport in both plots. -/
structure Points (F : Type) where
  label : Transport
  xVals : List F
  tput : Series F
  lat : Series F

/-- The body of the loop over the transports. -/
def plotPoints (label : Transport) (stats : Dict F (Stats F)) : Points F where
  label := label
  xVals := sortedKeys stats
  tput := ⟨(sortedItems stats).map fun kv => kv.2.tputAvg,
    (sortedItems stats).map fun kv => kv.2.tputDev⟩
  lat := ⟨(sortedItems stats).map fun kv => kv.2.latAvg,
    (sortedItems stats).map fun kv => kv.2.latDev⟩

/-- The dictionary of dictionaries, from the file of each transport. -/
def Env.transportData (py : Python F) (env : Args) (files : Transport → List TextLine) :
    Except ScriptError (Dict Transport (Dict F (Stats F))) :=
  env.transports.foldlM (fun data t => do
    let stats ← Env.parseFile py env (files t)
    pure (data.insert t stats)) ∅

/-- `generate_graphs`, up to the calls of the plotting library: what it will hand to them.  A
statistic that was not read is a `None` there, which `errorbar` refuses. -/
def Env.generateGraphs (py : Python F) (env : Args) (files : Transport → List TextLine) :
    Except ScriptError (List (Points F)) := do
  let data ← Env.transportData py env files
  pure ((sortedItems data).map fun kv => plotPoints kv.1 kv.2)

/-- `ax.errorbar`, which can plot numbers only. -/
def Series.errorbar (s : Series F) : Except ScriptError Unit :=
  if (s.yVals ++ s.eVals).all Option.isSome then .ok () else .error .errorbar

/-- The points of one transport go into both plots. -/
def Points.draw (pts : Points F) : Except ScriptError Unit := do
  pts.tput.errorbar
  pts.lat.errorbar

/-- The calls of `errorbar` in `generate_graphs`, in order. -/
def drawPlots (plots : List (Points F)) : Except ScriptError Unit := plots.forM Points.draw

end RpcTransport.RunTransports
