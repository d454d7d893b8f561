import NeuralMesh.Macos.GpuDetect

/-!
# The statistics dictionary

`ioreg` prints a property on a line, and the statistics as a dictionary on one such line. The first
line with the key is read as a whole, from its first `=` on, and the dictionary as a whole is no
number. A key of the dictionary is therefore found only where a line before it has the key too, and
otherwise the GPU counts as idle.
-/

namespace NeuralMesh.Macos

open Text

/-- A line without its end. -/
abbrev Line := { line : List Char // '\n' ∉ line ∧ line.getLast? ≠ some '\r' }

abbrev Key := { key : String // '\n' ∉ key.toList }

/-- `"key"=value` -/
def entryText (entry : Key × Int) : List Char :=
  '"' :: (entry.1.val.toList ++ '"' :: '=' :: entry.2.repr.toList)

def joinEntries : List (Key × Int) → List Char
  | [] => []
  | [entry] => entryText entry
  | entry :: rest => entryText entry ++ ',' :: joinEntries rest

/-- What `ioreg` prints: the line of the statistics, and all the others. -/
structure Printout where
  before : List Line
  indent : List Char
  entries : List (Key × Int)
  after : List Line
  noEquals : '=' ∉ indent
  noBreak : '\n' ∉ indent

namespace Printout

/-- `"PerformanceStatistics" = {...}` -/
def statistics (printout : Printout) : List Char :=
  printout.indent ++ "\"PerformanceStatistics\" = ".toList ++
    '{' :: (joinEntries printout.entries ++ ['}'])

def lines (printout : Printout) : List (List Char) :=
  printout.before.map Subtype.val ++ printout.statistics :: printout.after.map Subtype.val

def text (printout : Printout) : String :=
  String.ofList (printout.lines.flatMap (· ++ ['\n']))

end Printout

/-! ### The dictionary -/

theorem mem_intRepr {n : Int} {c : Char} (hc : c ∈ n.repr.toList) : c = '-' ∨ c.isDigit := by
  rw [Int.repr_eq_if] at hc
  split at hc
  · exact .inr (isDigit_of_mem_repr hc)
  · rw [String.toList_append] at hc
    rcases List.mem_append.mp hc with hminus | hdigit
    · exact .inl (List.mem_singleton.mp hminus)
    · exact .inr (isDigit_of_mem_repr hdigit)

theorem newline_not_mem_entryText (entry : Key × Int) : '\n' ∉ entryText entry := by
  have hvalue : '\n' ∉ entry.2.repr.toList := by
    intro hmem
    rcases mem_intRepr hmem with h | h
    · exact absurd h (by decide)
    · exact absurd h (by decide)
  simp [entryText, entry.1.property, hvalue]

theorem newline_not_mem_joinEntries (entries : List (Key × Int)) : '\n' ∉ joinEntries entries := by
  fun_induction joinEntries entries with
  | case1 => exact List.not_mem_nil
  | case2 entry => exact newline_not_mem_entryText entry
  | case3 entry rest _ ih => simp [newline_not_mem_entryText, ih]

theorem entryText_isInfix {entry : Key × Int} {entries : List (Key × Int)} (hmem : entry ∈ entries) :
    entryText entry <:+: joinEntries entries := by
  fun_induction joinEntries entries with
  | case1 => cases hmem
  | case2 other => rw [List.mem_singleton.mp hmem]
  | case3 other rest _ ih =>
      rcases List.mem_cons.mp hmem with rfl | hmem
      · exact (List.prefix_append _ _).isInfix
      · exact (ih hmem).trans ((List.suffix_cons _ _).isInfix.trans (List.suffix_append _ _).isInfix)

theorem key_infix_entryText (entry : Key × Int) : entry.1.val.toList <:+: entryText entry :=
  (List.prefix_append _ _).isInfix.trans (List.suffix_cons _ _).isInfix

namespace Printout

variable (printout : Printout)

theorem newline_not_mem_statistics : '\n' ∉ printout.statistics := by
  have hentries := newline_not_mem_joinEntries printout.entries
  rw [statistics, List.mem_append, List.mem_append, List.mem_cons, List.mem_append]
  simp [printout.noBreak, hentries]

theorem key_infix_statistics {key : Key} {n : Int} (hpair : (key, n) ∈ printout.entries) :
    key.val.toList <:+: printout.statistics := by
  have hentries : key.val.toList <:+: joinEntries printout.entries :=
    (key_infix_entryText (key, n)).trans (entryText_isInfix hpair)
  have hbraces : joinEntries printout.entries <:+: '{' :: (joinEntries printout.entries ++ ['}']) :=
    ⟨['{'], ['}'], rfl⟩
  exact hentries.trans (hbraces.trans (List.suffix_append _ _).isInfix)

/-- What is read of the line is the whole dictionary. -/
theorem afterFirst_statistics : afterFirst '=' printout.statistics =
    some (' ' :: '{' :: (joinEntries printout.entries ++ ['}'])) := by
  have hname : '=' ∉ printout.indent ++ "\"PerformanceStatistics\" ".toList := by
    rw [List.mem_append, not_or]
    exact ⟨printout.noEquals, by decide⟩
  have hsplit : printout.statistics = (printout.indent ++ "\"PerformanceStatistics\" ".toList) ++
      '=' :: ' ' :: '{' :: (joinEntries printout.entries ++ ['}']) := by
    have hlabel : "\"PerformanceStatistics\" = ".toList =
        "\"PerformanceStatistics\" ".toList ++ ['=', ' '] := by decide
    rw [statistics, hlabel, ← List.append_assoc, List.append_assoc]
    rfl
  rw [hsplit, afterFirst_append hname]

theorem trim_dictionary (middle : List Char) :
    trimMatches (· = '"') (trim (' ' :: '{' :: (middle ++ ['}']))) = '{' :: (middle ++ ['}']) := by
  have htrim : trim (' ' :: '{' :: (middle ++ ['}'])) = '{' :: (middle ++ ['}']) :=
    (@trimMatches_append _ _ [' '] (List.forall_mem_singleton.mpr rfl)).trans
      (trimMatches_of_ends (by decide) (by decide) middle)
  rw [htrim]
  exact trimMatches_of_ends (by decide) (by decide) middle

theorem stripReturn_of_line (line : Line) : stripReturn line.val = line.val :=
  if_neg line.property.2

theorem lines_text : Text.lines printout.text.toList = printout.lines := by
  have hlines : ∀ line ∈ printout.lines, '\n' ∉ line := by
    intro line hmem
    rcases List.mem_append.mp hmem with hmem | hmem
    · obtain ⟨l, _, rfl⟩ := List.mem_map.mp hmem
      exact l.property.1
    · rcases List.mem_cons.mp hmem with rfl | hmem
      · exact printout.newline_not_mem_statistics
      · obtain ⟨l, _, rfl⟩ := List.mem_map.mp hmem
        exact l.property.1
  have hstatistics : stripReturn printout.statistics = printout.statistics := by
    refine if_neg ?_
    rw [statistics, ← List.cons_append, ← List.append_assoc, List.getLast?_concat]
    decide
  rw [text, String.toList_ofList, lines_flatMap hlines, Printout.lines, List.map_append, List.map_cons,
    List.map_map, List.map_map, hstatistics]
  simp only [Function.comp_def, stripReturn_of_line]

end Printout

/-! ### The line that decides -/

/-- The line has the key and an `=`. -/
def Names (key line : List Char) : Prop := key <:+: line ∧ '=' ∈ line

instance (key line : List Char) : Decidable (Names key line) := inferInstanceAs (Decidable (_ ∧ _))

section Lines

variable {α : Type} {parse : List Char → Option α} {key : List Char} {v : α}

/-- What the line has after its first `=`, without blanks and quotes around it, stands for `v`. -/
def Gives (parse : List Char → Option α) (line : List Char) (v : α) : Prop :=
  ∃ value, afterFirst '=' line = some value ∧ parse (trimMatches (· = '"') (trim value)) = some v

/-- A line before the statistics has the key, and the first such line gives `v`. -/
def Printout.GivenBefore (printout : Printout) (parse : List Char → Option α) (key : String) (v : α) :
    Prop :=
  ∃ line, (printout.before.map Subtype.val).find? (fun line => decide (Names key.toList line)) = some line ∧
    Gives parse line v

theorem parseIoregLines_of_names {line : List Char} {rest : List (List Char)} (hnames : Names key line) :
    parseIoregLines parse key (line :: rest) = some v ↔ Gives parse line v := by
  have hsome : afterFirst '=' line ≠ none := fun hnone => afterFirst_eq_none.mp hnone hnames.2
  obtain ⟨value, hvalue⟩ := Option.ne_none_iff_exists'.mp hsome
  rw [parseIoregLines, if_pos hnames.1, Gives, hvalue]
  constructor
  · intro hparse
    exact ⟨value, rfl, hparse⟩
  · rintro ⟨_, heq, hparse⟩
    rw [← Option.some.inj heq] at hparse
    exact hparse

theorem parseIoregLines_of_not_names {line : List Char} {rest : List (List Char)}
    (hnames : ¬ Names key line) :
    parseIoregLines parse key (line :: rest) = parseIoregLines parse key rest := by
  rw [parseIoregLines]
  split
  · rename_i hkey
    rw [afterFirst_eq_none.mpr fun hmem => hnames ⟨hkey, hmem⟩]
  · rfl

/-- The first line with the key decides, if it comes before one that cannot be read. -/
theorem parseIoregLines_append {before after : List (List Char)} {statistics : List Char}
    (hnames : Names key statistics) (hunread : ∀ v, ¬ Gives parse statistics v) :
    parseIoregLines parse key (before ++ statistics :: after) = some v ↔
      ∃ line, before.find? (fun line => decide (Names key line)) = some line ∧ Gives parse line v := by
  induction before with
  | nil =>
      rw [List.nil_append, parseIoregLines_of_names hnames]
      exact iff_of_false (hunread v) (by simp)
  | cons line before ih =>
      rw [List.cons_append]
      by_cases hline : Names key line
      · rw [parseIoregLines_of_names hline]
        simp [hline]
      · rw [parseIoregLines_of_not_names hline, ih, List.find?_cons_of_neg (by simpa using hline)]

variable (printout : Printout)

theorem Printout.not_gives (hbrace : ∀ rest, parse ('{' :: rest) = none) (v : α) :
    ¬ Gives parse printout.statistics v := by
  rintro ⟨value, hvalue, hparse⟩
  rw [printout.afterFirst_statistics] at hvalue
  rw [← Option.some.inj hvalue, Printout.trim_dictionary, hbrace] at hparse
  cases hparse

/-- A parser of numbers refuses the dictionary, so the key counts only in a line before it. -/
theorem parseIoreg_eq_some (hbrace : ∀ rest, parse ('{' :: rest) = none) {key : Key} {n : Int}
    (hpair : (key, n) ∈ printout.entries) :
    parseIoreg parse key.val.toList printout.text = some v ↔ printout.GivenBefore parse key v := by
  have hafter := printout.afterFirst_statistics
  have hnames : Names key.val.toList printout.statistics := by
    refine ⟨printout.key_infix_statistics hpair, ?_⟩
    by_contra hnot
    rw [afterFirst_eq_none.mpr hnot] at hafter
    cases hafter
  rw [parseIoreg, printout.lines_text]
  exact parseIoregLines_append hnames (printout.not_gives hbrace)

end Lines

theorem f32_fromStr_brace (rest : List Char) : F32.fromStr ('{' :: rest) = none := by
  have hne : ∀ name : String, name.toList.head? ≠ some '{' →
      String.ofList ('{' :: rest.map Char.toLower) ≠ name := by
    rintro _ hhead rfl
    rw [String.toList_ofList] at hhead
    exact hhead rfl
  show (if String.ofList ('{' :: rest.map Char.toLower) = "inf" ∨
      String.ofList ('{' :: rest.map Char.toLower) = "infinity" then _ else
    if String.ofList ('{' :: rest.map Char.toLower) = "nan" then _ else _) = none
  rw [if_neg (not_or.mpr ⟨hne _ (by decide), hne _ (by decide)⟩), if_neg (hne _ (by decide))]
  rfl

theorem u64FromStr_brace (rest : List Char) : u64FromStr ('{' :: rest) = none := by
  have hdigits : ('{' :: rest).all Char.isDigit = false := rfl
  simp [u64FromStr, hdigits]

/-- A key of the dictionary is read with its value exactly where a line before the dictionary has the
key and the first such line gives the same value. -/
theorem parseIoreg_statistics_iff (printout : Printout) (key : Key) (n : Int)
    (hpair : (key, n) ∈ printout.entries) :
    (parseIoregFloat printout.text key = some (F32.round n) ↔
      printout.GivenBefore F32.fromStr key (F32.round n)) ∧
    ((∃ m : Nat, (m : Int) = n ∧ parseIoregU64 printout.text key = some m) ↔
      ∃ m : Nat, (m : Int) = n ∧ printout.GivenBefore u64FromStr key m) := by
  constructor
  · exact parseIoreg_eq_some printout f32_fromStr_brace hpair
  · exact exists_congr fun m => and_congr_right fun _ =>
      parseIoreg_eq_some printout u64FromStr_brace hpair

/-! ### A property of its own -/

/-- `"name" = n` -/
def propertyLine (name : String) (n : Int) : List Char :=
  '"' :: (name.toList ++ "\" = ".toList ++ n.repr.toList)

theorem isWhitespace_of_isDigit {c : Char} (hc : c.isDigit = true) : isWhitespace c = false := by
  simp only [Char.isDigit, Bool.and_eq_true, decide_eq_true_eq] at hc
  have hlow : 48 ≤ c.toNat := UInt32.le_iff_toNat_le.mp hc.1
  have hhigh : c.toNat ≤ 57 := UInt32.le_iff_toNat_le.mp hc.2
  rw [isWhitespace, decide_eq_false_iff_not]
  simp only [List.mem_cons, List.not_mem_nil, or_false]
  omega

/-- A number that is the value of a property is read as it is written. -/
theorem gives_propertyLine {α : Type} {parse : List Char → Option α} {name : String}
    (hname : '=' ∉ name.toList) {n : Int} {v : α} (hparse : parse n.repr.toList = some v) :
    Gives parse (propertyLine name n) v := by
  have hvalue : afterFirst '=' (propertyLine name n) = some (' ' :: n.repr.toList) := by
    have hfront : '=' ∉ '"' :: (name.toList ++ "\" ".toList) := by
      simp [hname]
    have hsplit : propertyLine name n =
        ('"' :: (name.toList ++ "\" ".toList)) ++ '=' :: (' ' :: n.repr.toList) := by
      simp [propertyLine]
    rw [hsplit, afterFirst_append hfront]
  have hblank : ∀ c ∈ n.repr.toList, isWhitespace c = false := by
    intro c hc
    rcases mem_intRepr hc with rfl | hdigit
    · decide
    · exact isWhitespace_of_isDigit hdigit
  have hquote : ∀ c ∈ n.repr.toList, decide (c = '"') = false := by
    intro c hc
    refine decide_eq_false fun heq => ?_
    rcases mem_intRepr (heq ▸ hc) with h | h
    · exact absurd h (by decide)
    · exact absurd h (by decide)
  refine ⟨_, hvalue, ?_⟩
  rw [trim, show ' ' :: n.repr.toList = [' '] ++ n.repr.toList from rfl,
    trimMatches_append (List.forall_mem_singleton.mpr rfl), trimMatches_eq_self hblank,
    trimMatches_eq_self hquote, hparse]

/-- Where a line of its own before the statistics repeats the value, it is read. -/
theorem parseIoreg_of_propertyLine {α : Type} {parse : List Char → Option α} {v : α}
    {printout : Printout} {key : Key} {n : Int} (hbrace : ∀ rest, parse ('{' :: rest) = none)
    (hpair : (key, n) ∈ printout.entries) (hname : '=' ∉ key.val.toList)
    (hfirst : (printout.before.map Subtype.val).find?
      (fun line => decide (Names key.val.toList line)) = some (propertyLine key n))
    (hparse : parse n.repr.toList = some v) :
    parseIoreg parse key.val.toList printout.text = some v :=
  (parseIoreg_eq_some printout hbrace hpair).mpr ⟨_, hfirst, gives_propertyLine hname hparse⟩

section PropertyLine

variable {printout : Printout} {key : Key}

theorem parseIoregFloat_of_propertyLine {n : Int} (hpair : (key, n) ∈ printout.entries)
    (hname : '=' ∉ key.val.toList)
    (hfirst : (printout.before.map Subtype.val).find?
      (fun line => decide (Names key.val.toList line)) = some (propertyLine key n)) :
    parseIoregFloat printout.text key = some (F32.round n) :=
  parseIoreg_of_propertyLine f32_fromStr_brace hpair hname hfirst (F32.fromStr_repr n)

theorem parseIoregU64_of_propertyLine {n : Nat} (hpair : (key, (n : Int)) ∈ printout.entries)
    (hname : '=' ∉ key.val.toList)
    (hfirst : (printout.before.map Subtype.val).find?
      (fun line => decide (Names key.val.toList line)) = some (propertyLine key n))
    (hn : n < 2 ^ 64) : parseIoregU64 printout.text key = some n :=
  parseIoreg_of_propertyLine u64FromStr_brace hpair hname hfirst (u64FromStr_repr hn)

end PropertyLine

/-! ### A busy GPU -/

theorem parseIoregLines_eq_none {α : Type} {parse : List Char → Option α} {key : List Char}
    {ls : List (List Char)} (hnames : ∀ line ∈ ls, ¬ Names key line) :
    parseIoregLines parse key ls = none := by
  induction ls with
  | nil => rfl
  | cons line ls ih =>
      rw [parseIoregLines_of_not_names (hnames line List.mem_cons_self)]
      exact ih fun l hl => hnames l (List.mem_cons_of_mem _ hl)

/-- Whatever the dictionary holds, nothing is read of a key that no other line has. -/
theorem parseIoregFloat_eq_none (printout : Printout) {key : String}
    (hothers : ∀ line ∈ printout.before ++ printout.after, ¬ Names key.toList line.val) :
    parseIoregFloat printout.text key = none := by
  have hbefore : ∀ line ∈ printout.before.map Subtype.val, ¬ Names key.toList line := by
    intro line hmem
    obtain ⟨l, hl, rfl⟩ := List.mem_map.mp hmem
    exact hothers l (List.mem_append_left _ hl)
  have hafter : ∀ line ∈ printout.after.map Subtype.val, ¬ Names key.toList line := by
    intro line hmem
    obtain ⟨l, hl, rfl⟩ := List.mem_map.mp hmem
    exact hothers l (List.mem_append_right _ hl)
  rw [parseIoregFloat, parseIoreg, printout.lines_text, Printout.lines]
  by_cases hnames : Names key.toList printout.statistics
  · rw [Option.eq_none_iff_forall_ne_some]
    intro v hread
    obtain ⟨line, hfind, _⟩ :=
      (parseIoregLines_append hnames (printout.not_gives f32_fromStr_brace)).mp hread
    have hnamed := List.find?_some hfind
    exact hbefore line (List.mem_of_find?_eq_some hfind) (of_decide_eq_true hnamed)
  · refine parseIoregLines_eq_none fun line hmem => ?_
    rcases List.mem_append.mp hmem with hmem | hmem
    · exact hbefore line hmem
    · rcases List.mem_cons.mp hmem with rfl | hmem
      · exact hnames
      · exact hafter line hmem

/-- A GPU whose use stands in the dictionary alone is compared with the threshold as if it did
nothing. -/
theorem isGpuIdle_eq (printout : Printout) (memsize : Option Nat) (thresholdPct : F32)
    (hothers : ∀ line ∈ printout.before ++ printout.after,
      ¬ Names "Device Utilization %".toList line.val ∧ ¬ Names "GPU Activity(%)".toList line.val) :
    isGpuIdle thresholdPct { ioreg := some printout.text, memsize } = (F32.finite 0).lt thresholdPct := by
  have hdevice := parseIoregFloat_eq_none printout fun line hmem => (hothers line hmem).1
  have hactivity := parseIoregFloat_eq_none printout fun line hmem => (hothers line hmem).2
  rw [isGpuIdle, sampleGpuUtilization]
  simp only [Option.bind_eq_bind, Option.bind_some, hdevice, hactivity]
  rfl

def utilizationKey : Key := ⟨"Device Utilization %", by decide⟩

/-- With the use on a line of its own too, it is what is compared. -/
theorem isGpuIdle_of_propertyLine {printout : Printout} {n : Int} (memsize : Option Nat)
    (threshold : ℚ) (hn : |n| ≤ 2 ^ 24) (hpair : (utilizationKey, n) ∈ printout.entries)
    (hfirst : (printout.before.map Subtype.val).find?
      (fun line => decide (Names utilizationKey.val.toList line)) =
        some (propertyLine utilizationKey n)) :
    isGpuIdle (.finite threshold) { ioreg := some printout.text, memsize } =
      decide ((n : ℚ) < threshold) := by
  have hname : '=' ∉ utilizationKey.val.toList := by decide
  have hdevice : parseIoregFloat printout.text "Device Utilization %" = some (.finite n) :=
    (parseIoregFloat_of_propertyLine hpair hname hfirst).trans
      (congrArg some (F32.round_intCast hn))
  rw [isGpuIdle, sampleGpuUtilization]
  simp only [Option.bind_eq_bind, Option.bind_some, hdevice]
  rfl

/-- The GPU is in use at 97 per cent. -/
def busyGpu : Printout where
  before := []
  indent := "    ".toList
  entries := [(⟨"Tiler Utilization %", by decide⟩, 12), (utilizationKey, 97)]
  after := []
  noEquals := by decide
  noBreak := by decide

theorem parseIoreg_busyGpu : ((utilizationKey, 97) ∈ busyGpu.entries) ∧
    (parseIoregFloat busyGpu.text utilizationKey = some (F32.round (97 : Int)) ↔
      busyGpu.GivenBefore F32.fromStr utilizationKey (F32.round (97 : Int))) ∧
    ((∃ m : Nat, (m : Int) = 97 ∧ parseIoregU64 busyGpu.text utilizationKey = some m) ↔
      ∃ m : Nat, (m : Int) = 97 ∧ busyGpu.GivenBefore u64FromStr utilizationKey m) := by
  have hpair : (utilizationKey, 97) ∈ busyGpu.entries := List.mem_cons_of_mem _ List.mem_cons_self
  exact ⟨hpair, parseIoreg_statistics_iff busyGpu utilizationKey 97 hpair⟩

theorem isGpuIdle_busyGpu : ((utilizationKey, 97) ∈ busyGpu.entries) ∧
    parseIoregFloat busyGpu.text "Device Utilization %" = none ∧
    isGpuIdle (.finite 10) { ioreg := some busyGpu.text, memsize := none } = true := by
  refine ⟨List.mem_cons_of_mem _ List.mem_cons_self, ?_, ?_⟩
  · exact parseIoregFloat_eq_none busyGpu fun line hmem => by cases hmem
  · rw [isGpuIdle_eq busyGpu none _ fun line hmem => by cases hmem]
    show decide ((0 : ℚ) < 10) = true
    norm_num

end NeuralMesh.Macos
