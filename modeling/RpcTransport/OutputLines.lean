import RpcTransport.RunTransports

/-!
# What the script reads in the client's lines

Each of the five lines the client prints, under the four patterns of `parse_file`.

* `header_groups`, `header_none` — the header pattern reads both numbers of the `Sending` line,
  unless one has a sign;
* `stats_groups`, `stats_none` — a statistics pattern reads the two numbers of its own line exactly
  when both are digits, a point, and digits;
* `unmatched_transportLine`, `parseLine_sending` … `parseLine_passed` — the step of the loop on each
  line;
* `parse_clientOutput`, `parse_take` — the loop on the output of a run that passes, and of one that
  fails.
-/

namespace RpcTransport.RunTransports

open Regex Assoc Decimal

variable {F : Type} (py : Python F)

/-! ### Characters -/

theorem digit_ascii {c : Char} (hc : c.isDigit = true) : c.toNat < 128 := by
  have hrange := (Char.isDigit_iff_toNat.mp hc).2
  have hnine : '9'.toNat = 57 := rfl
  omega

theorem numChar_ascii {c : Char} (hc : NumChar c) : c.toNat < 128 := by
  rcases hc with hc | hc
  · exact digit_ascii hc
  · simp only [List.mem_cons, List.not_mem_nil, or_false] at hc
    rcases hc with rfl | rfl | rfl | rfl <;> decide

/-- On ASCII text, `\d+` takes what is digits only. -/
theorem digits_iff {t : List Char} (ht : ∀ c ∈ t, c.toNat < 128) :
    (t ≠ [] ∧ ∀ c ∈ t, py.isDigit c = true) ↔ IsDigits t := by
  refine and_congr_right fun _ => forall₂_congr fun c hc => ?_
  rw [py.isDigit_ascii c (ht c hc)]

/-- `\d` does not match an ASCII character that is no digit. -/
theorem notMem_digits {t : List Char} {c : Char} (ht : ∀ c ∈ t, py.isDigit c = true)
    (hascii : c.toNat < 128) (hc : c.isDigit = false) : c ∉ t := by
  intro hmem
  have hdigit := ht c hmem
  rw [py.isDigit_ascii c hascii, hc] at hdigit
  cases hdigit

theorem numChar_intText (n : ℤ) : ∀ c ∈ intText n, NumChar c := by
  intro c hc
  rw [intText] at hc
  split_ifs at hc
  · rcases List.mem_cons.mp hc with rfl | hc
    · exact Or.inr (by decide)
    · exact Or.inl ((isDigits_toDigits _).2 c hc)
  · exact Or.inl ((isDigits_toDigits _).2 c hc)

/-- The text of an `int` is digits only unless it has a sign. -/
theorem isDigits_intText (n : ℤ) : IsDigits (intText n) ↔ 0 ≤ n := by
  rw [intText]
  split_ifs with h
  · refine ⟨fun hdig => ?_, fun h0 => by omega⟩
    exact absurd (hdig.2 '-' List.mem_cons_self) (by decide)
  · exact ⟨fun _ => by omega, fun _ => isDigits_toDigits _⟩

/-- A character that is none of a number's does not occur in one. -/
theorem notMem_numChars {t : List Char} (ht : ∀ c ∈ t, NumChar c) {c : Char} (hc : ¬ NumChar c) :
    c ∉ t := fun hmem => hc (ht c hmem)

instance (c : Char) : Decidable (NumChar c) := inferInstanceAs (Decidable (_ ∨ _))

theorem numChar_toDigits (n : ℕ) : ∀ c ∈ Nat.toDigits 10 n, NumChar c :=
  fun c hc => Or.inl ((isDigits_toDigits n).2 c hc)

theorem numChar_of_isDecimal {t : List Char} (ht : IsDecimal t) : ∀ c ∈ t, NumChar c := by
  intro c hc
  rcases mem_isDecimal ht hc with hdigit | rfl
  · exact Or.inl hdigit
  · decide

theorem dot_of_notMem {t : List Char} (ht : '\n' ∉ t) : ∀ c ∈ t, dot c = true := by
  intro c hc
  rw [dot, bne_iff_ne]
  rintro rfl
  exact ht hc

/-- What `\d+` takes. -/
def Digits (t : List Char) : Prop := t ≠ [] ∧ ∀ c ∈ t, py.isDigit c = true

/-- What `\d+\.\d+` takes. -/
def Decimals (t : List Char) : Prop := ∃ x y, Digits py x ∧ Digits py y ∧ t = x ++ '.' :: y

theorem plus_no_groups (t : List Char) (cs : List (List Char))
    (h : (Re.plus py.isDigit).Fits t cs) : cs = [] := h.2

theorem reNumber_fits {t : List Char} {cs : List (List Char)} :
    (reNumber py).Fits t cs ↔ Decimals py t ∧ cs = [] := by
  constructor
  · rintro ⟨x, _, u, _, ⟨hx, rfl⟩, ⟨_, _, y, _, ⟨rfl, rfl⟩, ⟨hy, rfl⟩, rfl, rfl⟩, rfl, rfl⟩
    exact ⟨⟨x, y, hx, hy, rfl⟩, rfl⟩
  · rintro ⟨⟨x, y, hx, hy, rfl⟩, rfl⟩
    exact ⟨x, [], _, [], ⟨hx, rfl⟩, ⟨_, [], y, [], ⟨rfl, rfl⟩, ⟨hy, rfl⟩, rfl, rfl⟩, rfl, rfl⟩

/-! ### The header pattern -/

theorem reHeader_fits {t : List Char} {cs : List (List Char)} :
    (reHeader py).Fits t cs ↔ ∃ pre count size post, (∀ c ∈ pre, dot c = true) ∧ Digits py count ∧
      Digits py size ∧ (∀ c ∈ post, dot c = true) ∧
      t = pre ++ (" for ".toList ++ (count ++ (" blocks of size ".toList ++ (size
        ++ (" ".toList ++ post))))) ∧ cs = [count, size] := by
  simp only [reHeader, Re.fits_seq_star, Re.fits_seq_lit, Re.fits_seq_group (plus_no_groups py)]
  constructor
  · rintro ⟨pre, _, hpre, ⟨_, ⟨count, _, _, hcount, ⟨_, ⟨size, _, _, hsize, ⟨post, hpost, rfl⟩, rfl,
      rfl⟩, rfl⟩, rfl, rfl⟩, rfl⟩, rfl⟩
    exact ⟨pre, count, size, post, hpre, hcount.1, hsize.1, hpost.1, rfl, by rw [hpost.2]⟩
  · rintro ⟨pre, count, size, post, hpre, hcount, hsize, hpost, rfl, rfl⟩
    exact ⟨pre, _, hpre, ⟨_, ⟨count, _, _, ⟨hcount, rfl⟩, ⟨_, ⟨size, _, _, ⟨hsize, rfl⟩, ⟨post,
      ⟨hpost, rfl⟩, rfl⟩, rfl, rfl⟩, rfl⟩, rfl, rfl⟩, rfl⟩, rfl⟩

/-- The `Sending` line, cut around its two numbers and at its only `k`. -/
theorem sendingLine_cut (flags : ClientFlags) :
    sendingLine flags
      = (("Sending ".toList ++ intText flags.opCount.toInt ++ " ".toList
            ++ flags.workload.name.toList ++ " op(s), each for".toList)
            ++ ' ' :: intText flags.blockCount.toInt) ++ " bloc".toList
        ++ 'k' :: ("s of size ".toList ++ (intText flags.blockSize.toInt
          ++ ' ' :: "bytes\n".toList)) := by
  unfold sendingLine
  simp

/-- Every match of the header pattern on the `Sending` line takes both numbers whole. -/
theorem header_fit (flags : ClientFlags) {t r : List Char} {cs : List (List Char)}
    (hfit : (reHeader py).Fits t cs) (hline : sendingLine flags = t ++ r) :
    cs = [intText flags.blockCount.toInt, intText flags.blockSize.toInt] ∧
      0 ≤ flags.blockCount.toInt ∧ 0 ≤ flags.blockSize.toInt := by
  obtain ⟨t₁, X, Y, w, -, hX, hY, -, rfl, rfl⟩ := (reHeader_fits py).mp hfit
  have hC := numChar_intText flags.blockCount.toInt
  have hS := numChar_intText flags.blockSize.toInt
  have hspace : ∀ {t : List Char}, (∀ c ∈ t, py.isDigit c = true) → ' ' ∉ t :=
    fun ht => notMem_digits py ht (by decide) (by decide)
  have hcut : ((t₁ ++ " for".toList) ++ ' ' :: X) ++ " bloc".toList
      ++ 'k' :: ("s of size ".toList ++ (Y ++ ' ' :: (w ++ r))) = sendingLine flags := by
    rw [hline]
    simp
  -- the only `k` separates the two numbers
  rw [sendingLine_cut] at hcut
  have hk₁ : 'k' ∉ (("Sending ".toList ++ intText flags.opCount.toInt ++ " ".toList
      ++ flags.workload.name.toList ++ " op(s), each for".toList)
      ++ ' ' :: intText flags.blockCount.toInt) ++ " bloc".toList := by
    have hname : 'k' ∉ flags.workload.name.toList := by cases flags.workload <;> decide
    have hN := notMem_numChars (numChar_intText flags.opCount.toInt) (c := 'k') (by decide)
    have hC' := notMem_numChars hC (c := 'k') (by decide)
    simp [hname, hN, hC']
  have hk₂ : 'k' ∉ "s of size ".toList ++ (intText flags.blockSize.toInt
      ++ ' ' :: "bytes\n".toList) := by
    have hS' := notMem_numChars hS (c := 'k') (by decide)
    simp [hS']
  obtain ⟨hleft, -, hright⟩ := (List.append_cons_inj_of_notMem hk₁ hk₂).mp hcut.symm
  -- the last space before it begins the first number, the first space after the second ends it
  obtain ⟨-, hXC⟩ := append_cons_inj_last (notMem_numChars hC (by decide)) (hspace hX.2)
    (List.append_cancel_right hleft)
  obtain ⟨hYS, -⟩ := append_cons_inj_first (notMem_numChars hS (by decide)) (hspace hY.2)
    (List.append_cancel_left hright)
  subst hXC hYS
  refine ⟨rfl, ?_, ?_⟩
  · exact (isDigits_intText _).mp ((digits_iff py fun c hc => numChar_ascii (hC c hc)).mp hX)
  · exact (isDigits_intText _).mp ((digits_iff py fun c hc => numChar_ascii (hS c hc)).mp hY)

/-- **The header pattern on the `Sending` line.** -/
theorem header_groups {flags : ClientFlags} (hcount : 0 ≤ flags.blockCount.toInt)
    (hsize : 0 ≤ flags.blockSize.toInt) :
    (reHeader py).groups (sendingLine flags)
      = some [intText flags.blockCount.toInt, intText flags.blockSize.toInt] := by
  have hdigits : ∀ {n : ℤ}, 0 ≤ n → intText n ≠ [] ∧ ∀ c ∈ intText n, py.isDigit c = true :=
    fun h => (digits_iff py fun c hc => numChar_ascii (numChar_intText _ c hc)).mpr
      ((isDigits_intText _).mpr h)
  refine Re.groups_eq_some ((reHeader_fits py).mpr ⟨"Sending ".toList
    ++ intText flags.opCount.toInt ++ " ".toList ++ flags.workload.name.toList
    ++ " op(s), each".toList, _, _, "bytes".toList, dot_of_notMem ?_, hdigits hcount, hdigits hsize,
    dot_of_notMem (by decide), rfl, rfl⟩) (r := "\n".toList) ?_ ?_
  · have hname : '\n' ∉ flags.workload.name.toList := by cases flags.workload <;> decide
    have hN := notMem_numChars (numChar_intText flags.opCount.toInt) (c := '\n') (by decide)
    simp [hname, hN]
  · unfold sendingLine
    simp
  · intro t' cs' r' hfit hline
    exact (header_fit py flags hfit hline).1

/-- A sign keeps the header pattern from matching. -/
theorem header_none {flags : ClientFlags}
    (h : ¬ (0 ≤ flags.blockCount.toInt ∧ 0 ≤ flags.blockSize.toInt)) :
    (reHeader py).groups (sendingLine flags) = none := by
  apply Re.groups_eq_none_iff.mpr
  intro t cs r hfit hline
  exact h (header_fit py flags hfit hline).2

/-! ### The statistics patterns -/

theorem number_no_groups (t : List Char) (cs : List (List Char)) (h : (reNumber py).Fits t cs) :
    cs = [] := ((reNumber_fits py).mp h).2

theorem reStats_fits {word : String} {t : List Char} {cs : List (List Char)} :
    (reStats py word).Fits t cs ↔ ∃ pre avg dev post, (∀ c ∈ pre, dot c = true) ∧ Decimals py avg ∧
      Decimals py dev ∧ (∀ c ∈ post, dot c = true) ∧
      t = word.toList ++ (pre ++ (" avg=".toList ++ (avg ++ (" dev=".toList ++ (dev
        ++ (" ".toList ++ post)))))) ∧ cs = [avg, dev] := by
  simp only [reStats, Re.fits_seq_star, Re.fits_seq_lit, Re.fits_seq_group (number_no_groups py),
    reNumber_fits]
  constructor
  · rintro ⟨_, ⟨pre, _, hpre, ⟨_, ⟨avg, _, _, havg, ⟨_, ⟨dev, _, _, hdev, ⟨post, hpost, rfl⟩, rfl,
      rfl⟩, rfl⟩, rfl, rfl⟩, rfl⟩, rfl⟩, rfl⟩
    exact ⟨pre, avg, dev, post, hpre, havg.1, hdev.1, hpost.1, rfl, by rw [hpost.2]⟩
  · rintro ⟨pre, avg, dev, post, hpre, havg, hdev, hpost, rfl, rfl⟩
    exact ⟨_, ⟨pre, _, hpre, ⟨_, ⟨avg, _, _, ⟨havg, trivial⟩, ⟨_, ⟨dev, _, _, ⟨hdev, trivial⟩,
      ⟨post, ⟨hpost, rfl⟩, rfl⟩, rfl, rfl⟩, rfl⟩, rfl, rfl⟩, rfl⟩, rfl⟩, rfl⟩

/-- On ASCII text, `\d+\.\d+` takes what is digits, a point, and digits. -/
theorem decimals_iff {t : List Char} (ht : ∀ c ∈ t, c.toNat < 128) :
    Decimals py t ↔ IsDecimal t := by
  constructor
  · rintro ⟨x, y, hx, hy, rfl⟩
    refine ⟨x, y, (digits_iff py fun c hc => ht c ?_).mp hx,
      (digits_iff py fun c hc => ht c ?_).mp hy, rfl⟩
    · exact List.mem_append_left _ hc
    · exact List.mem_append_right _ (List.mem_cons_of_mem _ hc)
  · rintro ⟨x, y, hx, hy, rfl⟩
    exact ⟨x, y, (digits_iff py fun c hc => digit_ascii (hx.2 c hc)).mpr hx,
      (digits_iff py fun c hc => digit_ascii (hy.2 c hc)).mpr hy, rfl⟩

theorem notMem_decimals {t : List Char} (ht : Decimals py t) : ' ' ∉ t := by
  obtain ⟨x, y, hx, hy, rfl⟩ := ht
  have hx' := notMem_digits py hx.2 (c := ' ') (by decide) (by decide)
  have hy' := notMem_digits py hy.2 (c := ' ') (by decide) (by decide)
  simp [hx', hy']

/-- A statistics line behind the word its pattern begins with, cut around its two numbers and at its
only `a`. -/
theorem printStats_cut {label word : String} {tail : List Char}
    (hlabel : label.toList = word.toList ++ tail) (avg dev : List Char) (count : ℕ) :
    printStats label avg dev count = word.toList ++ ((tail ++ ": ".toList) ++ 'a' :: ("vg=".toList
      ++ (avg ++ ' ' :: ("dev=".toList ++ (dev ++ ' ' :: ("count=".toList ++ (Nat.toDigits 10 count
        ++ "\n".toList))))))) := by
  unfold printStats
  rw [hlabel]
  simp

/-- Every match of a statistics pattern on its own line takes both numbers whole. -/
theorem stats_fit {label word : String} {tail : List Char}
    (hlabel : label.toList = word.toList ++ tail) (htail : 'a' ∉ tail) {avg dev : List Char}
    (havg : ∀ c ∈ avg, NumChar c) (hdev : ∀ c ∈ dev, NumChar c) {count : ℕ} {t r : List Char}
    {cs : List (List Char)} (hfit : (reStats py word).Fits t cs)
    (hline : printStats label avg dev count = t ++ r) :
    cs = [avg, dev] ∧ IsDecimal avg ∧ IsDecimal dev := by
  obtain ⟨t₁, X, Y, w, -, hX, hY, -, rfl, rfl⟩ := (reStats_fits py).mp hfit
  have hcut : word.toList ++ ((t₁ ++ " ".toList) ++ 'a' :: ("vg=".toList ++ (X ++ ' ' ::
      ("dev=".toList ++ (Y ++ ' ' :: (w ++ r)))))) = printStats label avg dev count := by
    rw [hline]
    simp
  rw [printStats_cut hlabel] at hcut
  have ha₁ : 'a' ∉ tail ++ ": ".toList := by simp [htail]
  have ha₂ : 'a' ∉ "vg=".toList ++ (avg ++ ' ' :: ("dev=".toList ++ (dev ++ ' ' ::
      ("count=".toList ++ (Nat.toDigits 10 count ++ "\n".toList))))) := by
    have hA := notMem_numChars havg (c := 'a') (by decide)
    have hD := notMem_numChars hdev (c := 'a') (by decide)
    have hN := notMem_numChars (numChar_toDigits count) (c := 'a') (by decide)
    simp [hA, hD, hN]
  obtain ⟨-, -, hright⟩ :=
    (List.append_cons_inj_of_notMem ha₁ ha₂).mp (List.append_cancel_left hcut).symm
  -- each number ends at the next space
  obtain ⟨hXA, hrest⟩ := append_cons_inj_first (notMem_numChars havg (by decide))
    (notMem_decimals py hX) (List.append_cancel_left hright)
  obtain ⟨hYD, -⟩ := append_cons_inj_first (notMem_numChars hdev (by decide))
    (notMem_decimals py hY) (List.append_cancel_left hrest)
  subst hXA hYD
  exact ⟨rfl, (decimals_iff py fun c hc => numChar_ascii (havg c hc)).mp hX,
    (decimals_iff py fun c hc => numChar_ascii (hdev c hc)).mp hY⟩

/-- **A statistics pattern on its own line**, with two numbers it can read. -/
theorem stats_groups {label word : String} (tail : List Char)
    (hlabel : label.toList = word.toList ++ tail) (htail : 'a' ∉ tail) (hend : '\n' ∉ tail)
    {avg dev : List Char} (havg : IsDecimal avg) (hdev : IsDecimal dev) (count : ℕ) :
    (reStats py word).groups (printStats label avg dev count) = some [avg, dev] := by
  have hread : ∀ {t : List Char}, IsDecimal t → Decimals py t := fun ht =>
    (decimals_iff py fun c hc => numChar_ascii (numChar_of_isDecimal ht c hc)).mpr ht
  refine Re.groups_eq_some ((reStats_fits py).mpr ⟨tail ++ ":".toList, avg, dev,
    "count=".toList ++ Nat.toDigits 10 count, dot_of_notMem ?_, hread havg, hread hdev,
    dot_of_notMem ?_, rfl, rfl⟩) (r := "\n".toList) ?_ ?_
  · simp [hend]
  · have hN := notMem_numChars (numChar_toDigits count) (c := '\n') (by decide)
    simp [hN]
  · rw [printStats_cut hlabel]
    simp
  · intro t' cs' r' hfit hline
    exact (stats_fit py hlabel htail (numChar_of_isDecimal havg) (numChar_of_isDecimal hdev) hfit
      hline).1

/-- And with one it cannot read. -/
theorem stats_none {label word : String} (tail : List Char)
    (hlabel : label.toList = word.toList ++ tail) (htail : 'a' ∉ tail) {avg dev : List Char}
    (havg : ∀ c ∈ avg, NumChar c) (hdev : ∀ c ∈ dev, NumChar c)
    (h : ¬ (IsDecimal avg ∧ IsDecimal dev)) (count : ℕ) :
    (reStats py word).groups (printStats label avg dev count) = none := by
  apply Re.groups_eq_none_iff.mpr
  intro t cs r hfit hline
  exact h (stats_fit py hlabel htail havg hdev hfit hline).2

/-! ### One step of the loop -/

/-- A line none of the four patterns matches. -/
structure Unmatched (line : TextLine) : Prop where
  header : (reHeader py).groups line = none
  tput : (reTput py).groups line = none
  lat : (reLat py).groups line = none
  passed : rePassed.search line = none

theorem tryHeader_none {line : TextLine} (h : (reHeader py).groups line = none)
    (s : Option (Stats F)) : tryHeader py line s = s := by
  rw [tryHeader, h]

theorem tryStats_none {re : Re} {line : TextLine} (h : re.groups line = none) (attr : String)
    (set : F → F → Stats F → Stats F) (s : Option (Stats F)) :
    tryStats py re attr set line s = .ok s := by
  rw [tryStats, h]

theorem tryStats_some {re : Re} {line : TextLine} {avg dev : List Char}
    (h : re.groups line = some [avg, dev]) (attr : String) (set : F → F → Stats F → Stats F)
    (s : Stats F) :
    tryStats py re attr set line (some s) = .ok (some (set (py.float avg) (py.float dev) s)) := by
  rw [tryStats, h]
  rfl

/-! ### Which patterns leave a line alone -/

/-- The transport line. -/
theorem unmatched_transportLine (t : Transport) : Unmatched py (transportLine t.name) := by
  have hspace : ' ' ∉ transportLine t.name := by cases t <;> decide
  have hnone : ∀ {re : Re}, ' ' ∈ re.letters → re.groups (transportLine t.name) = none :=
    fun h => Re.groups_eq_none_of_letter h hspace
  refine ⟨hnone ?_, hnone ?_, hnone ?_, Re.search_lit_none (by decide) hspace⟩
  · simp [reHeader, Re.letters]
  · simp [reTput, reStats, Re.letters]
  · simp [reLat, reStats, Re.letters]

/-- Neither statistics pattern matches a line that begins with another word. -/
theorem stats_none_of_other_start (word : String) {line : TextLine} (h : ¬ word.toList <+: line) :
    (reStats py word).groups line = none := Re.groups_eq_none_of_other_start h

/-- The header pattern needs a `k`. -/
theorem header_none_of_notMem {line : TextLine} (h : 'k' ∉ line) :
    (reHeader py).groups line = none :=
  Re.groups_eq_none_of_letter (by simp [reHeader, Re.letters]) h

theorem sendingLine_passed (flags : ClientFlags) : rePassed.search (sendingLine flags) = none := by
  apply Re.search_lit_none (c := 'T') (by decide)
  have hname : 'T' ∉ flags.workload.name.toList := by cases flags.workload <;> decide
  have hnum := fun n => notMem_numChars (numChar_intText n) (c := 'T') (by decide)
  unfold sendingLine
  simp [hname, hnum]

/-- A character of neither the label, the numbers nor the words between them. -/
theorem notMem_printStats {c : Char} {label : String} {avg dev : List Char}
    (hlabel : c ∉ label.toList) (hwords : c ∉ ": avg= dev= count=\n".toList) (hnum : ¬ NumChar c)
    (havg : ∀ c ∈ avg, NumChar c) (hdev : ∀ c ∈ dev, NumChar c) (count : ℕ) :
    c ∉ printStats label avg dev count := by
  have hA := notMem_numChars havg hnum
  have hD := notMem_numChars hdev hnum
  have hN := notMem_numChars (numChar_toDigits count) hnum
  unfold printStats
  simp only [String.reduceToList, List.mem_append, List.mem_cons, not_or] at hwords ⊢
  simp [hlabel, hA, hD, hN, hwords]

theorem printStats_header (label : String) (hlabel : 'k' ∉ label.toList) {avg dev : List Char}
    (havg : ∀ c ∈ avg, NumChar c) (hdev : ∀ c ∈ dev, NumChar c) (count : ℕ) :
    (reHeader py).groups (printStats label avg dev count) = none :=
  header_none_of_notMem py
    (notMem_printStats hlabel (by decide) (by decide) havg hdev count)

theorem printStats_lat_passed {avg dev : List Char} (havg : ∀ c ∈ avg, NumChar c)
    (hdev : ∀ c ∈ dev, NumChar c) (count : ℕ) :
    rePassed.search (printStats "Latency (ms)" avg dev count) = none :=
  Re.search_lit_none (c := 'T') (by decide)
    (notMem_printStats (by decide) (by decide) (by decide) havg hdev count)

/-- The only `T` of a throughput line is not followed by an `e`. -/
theorem printStats_tput_passed {avg dev : List Char} (havg : ∀ c ∈ avg, NumChar c)
    (hdev : ∀ c ∈ dev, NumChar c) (count : ℕ) :
    rePassed.search (printStats "Throughput (Mbps)" avg dev count) = none := by
  rw [← Option.not_isSome_iff_eq_none, rePassed, Re.search_lit]
  rintro ⟨u, v, huv⟩
  have hA := notMem_numChars havg (c := 'T') (by decide)
  have hD := notMem_numChars hdev (c := 'T') (by decide)
  have hN := notMem_numChars (numChar_toDigits count) (c := 'T') (by decide)
  have hline : printStats "Throughput (Mbps)" avg dev count
      = [] ++ 'T' :: ("hroughput (Mbps): avg=".toList ++ avg ++ " dev=".toList ++ dev
        ++ " count=".toList ++ Nat.toDigits 10 count ++ "\n".toList) := by
    unfold printStats
    simp
  have hcut : u ++ 'T' :: ("est passed".toList ++ v)
      = printStats "Throughput (Mbps)" avg dev count := by
    rw [← huv]
    simp
  rw [hline] at hcut
  have htail : 'T' ∉ "hroughput (Mbps): avg=".toList ++ avg ++ " dev=".toList ++ dev
      ++ " count=".toList ++ Nat.toDigits 10 count ++ "\n".toList := by
    simp [hA, hD, hN]
  obtain ⟨-, -, hrest⟩ := (List.append_cons_inj_of_notMem List.not_mem_nil htail).mp hcut.symm
  simp at hrest

theorem testPassedLine_passed : ∃ groups, rePassed.search testPassedLine = some groups :=
  Option.isSome_iff_exists.mp (Re.search_lit.mpr (List.prefix_append _ "\n".toList).isInfix)

/-! ### The record of a run -/

/-- The record a `Sending` line begins. -/
def Stats.fresh (flags : ClientFlags) : Stats F where
  blockCount := py.float (intText flags.blockCount.toInt)
  blockSize := py.float (intText flags.blockSize.toInt)

open Classical in
/-- The record after the throughput line. -/
noncomputable def Stats.readTput (fig : Figures) (s : Stats F) : Stats F :=
  if fig.TputDecimal then
    { s with tputAvg := py.float fig.tputAvg, tputDev := py.float fig.tputDev }
  else s

open Classical in
/-- The record after the latency line. -/
noncomputable def Stats.readLat (fig : Figures) (s : Stats F) : Stats F :=
  if fig.LatDecimal then
    { s with latAvg := py.float fig.latAvg, latDev := py.float fig.latDev }
  else s

/-- The record a run leaves behind when it passes. -/
noncomputable def Stats.ofRun (flags : ClientFlags) (fig : Figures) : Stats F :=
  ((Stats.fresh py flags).readTput py fig).readLat py fig

theorem Stats.readTput_key (bcIsKey : Bool) (fig : Figures) (s : Stats F) :
    (s.readTput py fig).key bcIsKey = s.key bcIsKey := by
  rw [Stats.readTput]
  split_ifs <;> rfl

theorem Stats.readLat_key (bcIsKey : Bool) (fig : Figures) (s : Stats F) :
    (s.readLat py fig).key bcIsKey = s.key bcIsKey := by
  rw [Stats.readLat]
  split_ifs <;> rfl

theorem Stats.ofRun_key (bcIsKey : Bool) (flags : ClientFlags) (fig : Figures) :
    (Stats.ofRun py flags fig).key bcIsKey = (Stats.fresh py flags).key bcIsKey :=
  (Stats.readLat_key py bcIsKey fig _).trans (Stats.readTput_key py bcIsKey fig _)

/-- The key a run is stored under. -/
def Run.key (env : Args) (run : Run) : F := (Stats.fresh py (Env.flags env run)).key env.bcIsKey

/-! ### The loop -/

section Loop

variable [LinearOrder F] (bcIsKey : Bool)

theorem foldlM_cons_of {E S L : Type} {f : S → L → Except E S} {s s' : S} {x : L} {xs : List L}
    (h : f s x = .ok s') : (x :: xs).foldlM f s = xs.foldlM f s' := by
  rw [List.foldlM_cons, h]
  rfl

theorem parseLine_of {st : ParseState F} {line : TextLine} {s₁ s₂ : Option (Stats F)}
    (htput : tryTput py line (tryHeader py line st.s) = .ok s₁)
    (hlat : tryLat py line s₁ = .ok s₂) :
    parseLine py bcIsKey st line = tryPassed bcIsKey line { st with s := s₂ } := by
  show (tryTput py line (tryHeader py line st.s) >>= fun s => tryLat py line s >>= fun s =>
    tryPassed bcIsKey line { st with s := s }) = _
  rw [htput]
  show (tryLat py line s₁ >>= fun s => tryPassed bcIsKey line { st with s := s }) = _
  rw [hlat]
  rfl

/-- A line without statistics, header or not, leaves the dictionary alone. -/
theorem parseLine_header {st : ParseState F} {line : TextLine}
    (htput : (reTput py).groups line = none) (hlat : (reLat py).groups line = none)
    (hpassed : rePassed.search line = none) :
    parseLine py bcIsKey st line = .ok { st with s := tryHeader py line st.s } := by
  rw [parseLine_of py bcIsKey (tryStats_none py htput _ _ _) (tryStats_none py hlat _ _ _),
    tryPassed, hpassed]

theorem parseLine_unmatched {line : TextLine} (h : Unmatched py line) (st : ParseState F) :
    parseLine py bcIsKey st line = .ok st := by
  rw [parseLine_header py bcIsKey h.tput h.lat h.passed, tryHeader_none py h.header]

theorem parseLine_sending {flags : ClientFlags} (hcount : 0 ≤ flags.blockCount.toInt)
    (hsize : 0 ≤ flags.blockSize.toInt) (st : ParseState F) :
    parseLine py bcIsKey st (sendingLine flags)
      = .ok { st with s := some (Stats.fresh py flags) } := by
  have htput : (reTput py).groups (sendingLine flags) = none :=
    stats_none_of_other_start py _ (by unfold sendingLine; simp)
  have hlat : (reLat py).groups (sendingLine flags) = none :=
    stats_none_of_other_start py _ (by unfold sendingLine; simp)
  rw [parseLine_header py bcIsKey htput hlat (sendingLine_passed flags), tryHeader,
    header_groups py hcount hsize]
  rfl

theorem parseLine_tput {fig : Figures} (h : fig.Printed) (d : Dict F (Stats F)) (s : Stats F) :
    parseLine py bcIsKey { stats := d, s := some s }
        (printStats "Throughput (Mbps)" fig.tputAvg fig.tputDev fig.count)
      = .ok { stats := d, s := some (s.readTput py fig) } := by
  have hheader := printStats_header py "Throughput (Mbps)" (by decide) h.tputAvg
    h.tputDev fig.count
  have hlat : (reLat py).groups (printStats "Throughput (Mbps)" fig.tputAvg fig.tputDev fig.count)
      = none := stats_none_of_other_start py _ (by unfold printStats; simp)
  have htput : tryTput py (printStats "Throughput (Mbps)" fig.tputAvg fig.tputDev fig.count)
      (some s) = .ok (some (s.readTput py fig)) := by
    rw [Stats.readTput]
    split_ifs with hread
    · exact tryStats_some py (stats_groups py " (Mbps)".toList (by decide) (by decide)
        (by decide) hread.1 hread.2 fig.count) _ _ s
    · exact tryStats_none py (stats_none py " (Mbps)".toList (by decide) (by decide)
        h.tputAvg h.tputDev hread fig.count) _ _ _
  rw [parseLine_of py bcIsKey (by rw [tryHeader_none py hheader]; exact htput)
    (tryStats_none py hlat _ _ _), tryPassed, printStats_tput_passed h.tputAvg h.tputDev]

theorem parseLine_lat {fig : Figures} (h : fig.Printed) (d : Dict F (Stats F)) (s : Stats F) :
    parseLine py bcIsKey { stats := d, s := some s }
        (printStats "Latency (ms)" fig.latAvg fig.latDev fig.count)
      = .ok { stats := d, s := some (s.readLat py fig) } := by
  have hheader := printStats_header py "Latency (ms)" (by decide) h.latAvg h.latDev
    fig.count
  have htput : (reTput py).groups (printStats "Latency (ms)" fig.latAvg fig.latDev fig.count)
      = none := stats_none_of_other_start py _ (by unfold printStats; simp)
  have hlat : tryLat py (printStats "Latency (ms)" fig.latAvg fig.latDev fig.count) (some s)
      = .ok (some (s.readLat py fig)) := by
    rw [Stats.readLat]
    split_ifs with hread
    · exact tryStats_some py (stats_groups py " (ms)".toList (by decide) (by decide)
        (by decide) hread.1 hread.2 fig.count) _ _ s
    · exact tryStats_none py (stats_none py " (ms)".toList (by decide) (by decide)
        h.latAvg h.latDev hread fig.count) _ _ _
  rw [parseLine_of py bcIsKey (tryStats_none py htput _ _ _)
    (by rw [tryHeader_none py hheader]; exact hlat), tryPassed,
    printStats_lat_passed h.latAvg h.latDev]

theorem parseLine_passed (d : Dict F (Stats F)) (s : Stats F) :
    parseLine py bcIsKey { stats := d, s := some s } testPassedLine
      = .ok { stats := d.insert (s.key bcIsKey) s, s := none } := by
  obtain ⟨groups, hgroups⟩ := testPassedLine_passed
  rw [parseLine_of py bcIsKey
    (tryStats_none py (stats_none_of_other_start py "Throughput" (by decide)) _ _ _)
    (tryStats_none py (stats_none_of_other_start py "Latency" (by decide)) _ _ _),
    tryHeader_none py (header_none_of_notMem py (by decide)), tryPassed, hgroups]

/-! ### The output of a run -/

/-- **A run that passes** stores its record, whatever record an earlier run left unfinished. -/
theorem parse_clientOutput (flags : ClientFlags) (hcount : 0 ≤ flags.blockCount.toInt)
    (hsize : 0 ≤ flags.blockSize.toInt) {fig : Figures} (h : fig.Printed) (t : Transport)
    (st : ParseState F) :
    (clientOutput t.name flags fig).foldlM (parseLine py bcIsKey) st
      = .ok { stats := st.stats.insert ((Stats.fresh py flags).key bcIsKey)
                (Stats.ofRun py flags fig)
              s := none } := by
  rw [clientOutput,
    foldlM_cons_of (parseLine_unmatched py bcIsKey (unmatched_transportLine py t) st),
    foldlM_cons_of (parseLine_sending py bcIsKey hcount hsize st),
    foldlM_cons_of (parseLine_tput py bcIsKey h _ _),
    foldlM_cons_of (parseLine_lat py bcIsKey h _ _),
    foldlM_cons_of (parseLine_passed py bcIsKey _ _), ← Stats.ofRun, Stats.ofRun_key]
  rfl

/-- **A run that fails** leaves the dictionary alone, wherever its output ends. -/
theorem parse_take (flags : ClientFlags) (hcount : 0 ≤ flags.blockCount.toInt)
    (hsize : 0 ≤ flags.blockSize.toInt) {fig : Figures} (h : fig.Printed) (t : Transport)
    {n : ℕ} (hn : n ≤ 4) (st : ParseState F) :
    ∃ s, ((clientOutput t.name flags fig).take n).foldlM (parseLine py bcIsKey) st
      = .ok { stats := st.stats, s := s } := by
  have h₁ := parseLine_unmatched py bcIsKey (unmatched_transportLine py t) st
  have h₂ := parseLine_sending py bcIsKey hcount hsize st
  have h₃ := parseLine_tput py bcIsKey h st.stats (Stats.fresh py flags)
  have h₄ := parseLine_lat py bcIsKey h st.stats ((Stats.fresh py flags).readTput py fig)
  rw [clientOutput]
  rcases n with - | - | - | - | - | n
  · exact ⟨st.s, rfl⟩
  · refine ⟨st.s, ?_⟩
    rw [List.take_succ_cons, foldlM_cons_of h₁]
    rfl
  · refine ⟨some (Stats.fresh py flags), ?_⟩
    rw [List.take_succ_cons, foldlM_cons_of h₁, List.take_succ_cons, foldlM_cons_of h₂]
    rfl
  · refine ⟨some ((Stats.fresh py flags).readTput py fig), ?_⟩
    rw [List.take_succ_cons, foldlM_cons_of h₁, List.take_succ_cons, foldlM_cons_of h₂,
      List.take_succ_cons, foldlM_cons_of h₃]
    rfl
  · refine ⟨some (Stats.ofRun py flags fig), ?_⟩
    rw [List.take_succ_cons, foldlM_cons_of h₁, List.take_succ_cons, foldlM_cons_of h₂,
      List.take_succ_cons, foldlM_cons_of h₃, List.take_succ_cons, foldlM_cons_of h₄]
    rfl
  · omega

end Loop

end RpcTransport.RunTransports
