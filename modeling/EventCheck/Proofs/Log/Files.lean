import EventCheck.Log.Files
import EventCheck.Proofs.Log.Data

/-! # Log files mirror the records

    Every record goes to the common log, and one that names a test to the log of that
    test as well, as long as it can be written.

    - `Lines.split_join`: lines that are written one after the other are read as they were.
    - `Row.text`: the line of a record as text. `Row.line_eq_text`: a record that is
      writable has it, and writes its JSON value in it.
    - `run_mirror_of_writable` and `run_mirror_of_unwritable` say what becomes of one record.
    - `Gained`: each file has the lines of its records at its end, in order.
      `gained_step` is for one record, `gained_run` for any number; `stopped_run` is for
      records of which one cannot be written.
    - `Mirrored`: what that is for the common file, for those of tests and for others.
    - `files_mirror_iff`: the files mirror the records exactly if all can be written.
-/

namespace EventCheck

/-! ## Section 1: Lines -/

namespace Lines

/-- A text in which no line ends with a carriage return stays as it is. -/
theorem unifyChars_of_no_return {cs : List Char} (h : '\r' ∉ cs) : unifyChars cs = cs := by
  induction cs with
  | nil => rfl
  | cons c rest ih =>
    simp only [List.mem_cons, not_or] at h
    have hc : c ≠ '\r' := fun heq => h.1 heq.symm
    rw [unifyChars]
    · rw [ih h.2]
    · exact fun _ heq => absurd heq hc
    · exact hc

/-- **What is unbroken up to a line feed is the first line.** -/
theorem splitChars_line {cs : List Char} (h : Json.Unbroken cs) (rest : List Char) :
    splitChars (· == '\n') false (cs ++ '\n' :: rest) =
      (cs ++ ['\n']) :: splitChars (· == '\n') false rest := by
  induction cs with
  | nil =>
    rw [List.nil_append, splitChars]
    · rfl
    · intro _ heq
      cases heq
  | cons c cs ih =>
    obtain ⟨hc, hcs⟩ := Json.unbroken_cons.mp h
    simp only [Json.isBreak, Bool.or_eq_false_iff, beq_eq_false_iff_ne] at hc
    rw [List.cons_append, splitChars]
    · rw [if_neg (by simp [hc.1]), ih hcs]
      rfl
    · intro _ heq
      exact absurd heq hc.2

/-- **Lines that are written one after the other are read as they were.** -/
theorem split_join {lines : List String}
    (h : ∀ line ∈ lines, ∃ text, Json.Unbroken text ∧ line.toList = text ++ ['\n']) :
    split (unify (String.join lines)) = lines := by
  have hreturn : '\r' ∉ (String.join lines).toList := by
    intro hin
    rw [String.toList_join] at hin
    obtain ⟨line, hline, hin⟩ := List.mem_flatMap.mp hin
    obtain ⟨text, htext, heq⟩ := h line hline
    rw [heq, List.mem_append] at hin
    rcases hin with hin | hin
    · exact absurd (htext _ hin) (by decide)
    · exact absurd hin (by decide)
  unfold split unify
  rw [unifyChars_of_no_return hreturn, String.toList_ofList]
  -- what is left to show is about the lines one by one
  clear hreturn
  induction lines with
  | nil => rfl
  | cons line rest ih =>
    obtain ⟨text, htext, heq⟩ := h line List.mem_cons_self
    have hrest := ih fun l hl => h l (List.mem_cons_of_mem _ hl)
    rw [String.join_cons, String.toList_append, heq, List.append_assoc, List.singleton_append,
      splitChars_line htext, List.map_cons, hrest, ← heq, String.ofList_toList]

end Lines

namespace Log

/-! ## Section 2: Names of files -/

/-- **The name of something that lies directly in a directory**: no separator stands in it, and it
    is not one of those that lead elsewhere. -/
def DirectName (name : String) : Prop :=
  '/' ∉ name.toList ∧ name ≠ "" ∧ name ≠ "." ∧ name ≠ ".."

/-- The tests have the same name in the names of files. -/
def SameName (test test' : String) : Prop := test.toList.map fileChar = test'.toList.map fileChar

theorem toList_testFile (test : String) : (testFile test).toList =
    't' :: 'e' :: 's' :: 't' :: '_' :: (test.toList.map fileChar ++ ['.', 'l', 'o', 'g']) := by
  unfold testFile
  simp [String.toList_append, String.toList_ofList]

/-- Two tests share a file if and only if their names are the same there. -/
theorem testFile_eq_iff {test test' : String} :
    testFile test = testFile test' ↔ SameName test test' := by
  rw [← String.toList_inj, toList_testFile, toList_testFile]
  simp [SameName]

theorem testFile_ne_commonFile (test : String) : testFile test ≠ commonFile := by
  intro heq
  have hchars := congrArg String.toList heq
  rw [toList_testFile] at hchars
  simp [commonFile] at hchars

/-- No separator is left of a name. -/
theorem fileChar_ne_separator (c : Char) : fileChar c ≠ '/' := by
  unfold fileChar
  split
  · decide
  · next h =>
    intro heq
    exact h (by simp [heq])

/-- **Whatever a test is called, its file lies directly in the directory.** -/
theorem directName_testFile (test : String) : DirectName (testFile test) := by
  have hlength : 5 ≤ (testFile test).toList.length := by
    rw [toList_testFile]
    simp
  refine ⟨?_, ?_, ?_, ?_⟩
  · -- neither the letters around the name nor what is left of it
    rw [toList_testFile]
    simp only [List.mem_cons, List.mem_append, List.mem_map, not_or, not_exists, not_and]
    refine ⟨by decide, by decide, by decide, by decide, by decide, ?_, by simp⟩
    intro c _
    exact fileChar_ne_separator c
  all_goals
    intro heq
    rw [heq] at hlength
    simp at hlength

theorem directName_commonFile : DirectName commonFile := by
  refine ⟨?_, ?_, ?_, ?_⟩ <;> simp [commonFile]

/-! ## Section 3: Lines of records -/

variable {row : Row}

namespace Row

/-- The JSON value of a record, if it is writable. -/
def json? (row : Row) : Option Json := row.datum.json?

/-- The line of a record as text. One that is not writable has none. -/
def text (row : Row) : String :=
  match row.json? with
  | some v => v.text ++ "\n"
  | none => ""

theorem json?_isSome (row : Row) : row.json?.isSome = row.isWritable := Datum.json?_isSome _

theorem text_of_json? {v : Json} (h : row.json? = some v) : row.text = v.text ++ "\n" := by
  rw [text, h]

theorem line_of_json? {v : Json} (h : row.json? = some v) :
    row.line = .ok (.ofString (v.text ++ "\n")) := by
  rw [line, Datum.dump_of_json? _ h]
  show Except.ok _ = _
  rw [Text.ofString, Text.ofString, String.toList_append, List.map_append]
  rfl

theorem exists_json? (h : row.isWritable = true) : ∃ v, row.json? = some v :=
  Option.isSome_iff_exists.mp (row.json?_isSome.trans h)

/-- **A record that is writable has its text for a line.** -/
theorem line_eq_text (h : row.isWritable = true) : row.line = .ok (.ofString row.text) := by
  obtain ⟨v, hv⟩ := exists_json? h
  rw [text_of_json? hv, line_of_json? hv]

/-- **The line of a record that is not writable** is not there, or cannot be encoded. -/
theorem line_of_unwritable (h : row.isWritable = false) :
    (∃ obstacle, row.line = .error obstacle) ∨
      ∃ line halves, row.line = .ok line ∧ line.encode = .error halves := by
  have hno : ¬ Clear row.datum.dump := by
    rw [← Datum.isWritable_iff]
    exact Bool.eq_false_iff.mp h
  unfold line
  cases hdump : row.datum.dump with
  | error obstacle => exact .inl ⟨obstacle, rfl⟩
  | ok dumped =>
    right
    refine ⟨dumped ++ [.char '\n'], ?_⟩
    rw [hdump, clear_ok] at hno
    cases hencode : (dumped ++ [Mark.char '\n']).encode with
    | error halves => exact ⟨halves, rfl, rfl⟩
    | ok s =>
      have hplain := Text.isPlain_iff_encode.mpr ⟨s, hencode⟩
      rw [Text.isPlain_append, Bool.and_eq_true] at hplain
      exact absurd hplain.1 hno

/-- The text of a record is unbroken up to its end. -/
theorem unbroken_text (h : row.isWritable = true) :
    ∃ text, Json.Unbroken text ∧ row.text.toList = text ++ ['\n'] := by
  obtain ⟨v, hv⟩ := exists_json? h
  refine ⟨_, Json.unbroken_write false v, ?_⟩
  rw [text_of_json? hv, String.toList_append]
  rfl

/-- **The line of a record writes the record**, if the record keeps the limits of texts. -/
theorem read?_text {v : Json} (hv : row.json? = some v) (h : v.Legible Json.maxNesting) :
    Json.read? row.text = some v := by
  have hbegins := Json.beginsValue_written false v
  have hchars : row.text.toList = (v.write false).toList ++ ['\n'] := by
    rw [text_of_json? hv, String.toList_append]
    rfl
  have hends : Json.EndsNumber ['\n'] := Json.endsNumber_cons (by decide) []
  have hreads := Json.returns_of_legible false h ['\n'] hends
  rw [← hchars] at hreads
  have hstart : Json.BeginsValue row.text.toList := hchars ▸ hbegins.append ['\n']
  rw [← hstart.skipBlanks_eq] at hreads
  refine Json.read?_iff.mpr ⟨?_, ['\n'], hreads, rfl⟩
  obtain ⟨c, r, hc, -, -, -, hmark⟩ := hstart
  rw [hc]
  simpa using hmark

end Row

/-! ## Section 4: What becomes of a record -/

variable {files files' : Files}

/-- A file that is opened and then written is as if it had been written at once. -/
theorem addTo_addTo_empty (files : Files) (name text : String) :
    addTo (addTo files name "") name text = addTo files name text := by
  induction files with
  | nil => simp [addTo]
  | cons file rest ih =>
    obtain ⟨n, content⟩ := file
    by_cases hn : n = name
    · simp [addTo, hn]
    · simp [addTo, hn, ih]

/-- **How a line is added to a file.** -/
theorem run_append (line : Text) (name : String) : (append line name).run files =
    if name.toList.contains '\x00' then .error .nul files
    else if maxNameBytes < name.utf8ByteSize then .error .refused files
    else
      match line.encode with
      | .ok text => .ok () (addTo files name text)
      | .error halves => .error (.unencodable halves) (addTo files name "") := by
  rw [append, EStateM.run_bind]
  unfold openFile
  by_cases hnul : name.toList.contains '\x00' = true
  · rw [if_pos hnul, if_pos hnul]
    rfl
  rw [if_neg hnul, if_neg hnul]
  by_cases hlength : maxNameBytes < name.utf8ByteSize
  · rw [if_pos hlength, if_pos hlength]
    rfl
  rw [if_neg hlength, if_neg hlength]
  cases line.encode with
  | ok text => exact congrArg _ (addTo_addTo_empty files name text)
  | error halves => rfl

/-- The common file can always be opened. -/
theorem run_append_commonFile (line : Text) : (append line commonFile).run files =
    match line.encode with
    | .ok text => .ok () (addTo files commonFile text)
    | .error halves => .error (.unencodable halves) (addTo files commonFile "") := by
  have hnul : ¬ commonFile.toList.contains '\x00' = true := by simp [commonFile]
  have hlength : ¬ maxNameBytes < commonFile.utf8ByteSize := by decide
  rw [run_append, if_neg hnul, if_neg hlength]

theorem run_forM_append_cons (line : Text) (name : String) (rest : List String) :
    ((name :: rest).forM (append line)).run files =
      match (append line name).run files with
      | .ok _ files' => (rest.forM (append line)).run files'
      | .error fault files' => .error fault files' := by
  show (append line name >>= fun _ => rest.forM (append line)).run files = _
  rw [EStateM.run_bind]
  cases (append line name).run files <;> rfl

theorem run_mirror_of_no_line {obstacle : Obstacle} (hline : row.line = .error obstacle)
    (blocked : Bool) : (mirror blocked row).run files = .error (.unwritable obstacle) files := by
  rw [mirror, hline]
  rfl

/-- What the file system refuses is left out, and any other fault stops the record. -/
theorem run_mirror_of_line {line : Text} (hline : row.line = .ok line) (blocked : Bool) :
    (mirror blocked row).run files =
      match (appendAll blocked line (targets row)).run files with
      | .ok _ files' => .ok row files'
      | .error .refused files' => .ok row files'
      | .error fault files' => .error fault files' := by
  rw [mirror, hline]
  dsimp only
  rw [EStateM.run_bind, EStateM.run_tryCatch]
  cases (appendAll blocked line (targets row)).run files with
  | ok _ files' => rfl
  | error fault files' => cases fault <;> rfl

/-- **Where the directory cannot be made nothing is written**, and only a record without a line is
    stopped. -/
theorem run_mirror_blocked : (mirror true row).run files =
    match row.line with
    | .ok _ => .ok row files
    | .error obstacle => .error (.unwritable obstacle) files := by
  cases hline : row.line with
  | error obstacle => exact run_mirror_of_no_line hline true
  | ok line =>
    rw [run_mirror_of_line hline]
    rfl

/-- **A record that is not writable is stopped**, and no more than an empty common file is left of
    it. -/
theorem run_mirror_of_unwritable (h : row.isWritable = false) (files : Files) :
    ∃ fault files', (mirror false row).run files = .error fault files' ∧
      (files' = files ∨ files' = addTo files commonFile "") := by
  rcases Row.line_of_unwritable h with ⟨obstacle, hline⟩ | ⟨line, halves, hline, hencode⟩
  · exact ⟨_, files, run_mirror_of_no_line hline false, .inl rfl⟩
  · refine ⟨.unencodable halves, addTo files commonFile "", ?_, .inr rfl⟩
    -- the common file comes first, whatever the record names
    obtain ⟨rest, htargets⟩ : ∃ rest, targets row = commonFile :: rest := by
      unfold targets
      cases row.test? with
      | none => exact ⟨[], rfl⟩
      | some test => exact ⟨[testFile test], rfl⟩
    rw [run_mirror_of_line hline, htargets, appendAll, if_neg Bool.false_ne_true,
      run_forM_append_cons, run_append_commonFile, hencode]

/-- **What becomes of a record that is writable**: its line is added to its files. -/
theorem run_mirror_of_writable (h : row.isWritable = true) (files : Files) :
    (mirror false row).run files =
      match row.test? with
      | none => .ok row (addTo files commonFile row.text)
      | some test =>
        if (testFile test).toList.contains '\x00' then
          .error .nul (addTo files commonFile row.text)
        else if maxNameBytes < (testFile test).utf8ByteSize then
          .ok row (addTo files commonFile row.text)
        else .ok row (addTo (addTo files commonFile row.text) (testFile test) row.text) := by
  rw [run_mirror_of_line (Row.line_eq_text h), appendAll, if_neg Bool.false_ne_true]
  unfold targets
  cases row.test? with
  | none =>
    dsimp only
    rw [run_forM_append_cons, run_append_commonFile, Text.encode_ofString]
    rfl
  | some test =>
    -- the common file has its line by now, whatever becomes of the file of the test
    dsimp only
    rw [run_forM_append_cons, run_append_commonFile, Text.encode_ofString]
    dsimp only
    rw [run_forM_append_cons, run_append, Text.encode_ofString]
    by_cases hnul : (testFile test).toList.contains '\x00' = true
    · rw [if_pos hnul, if_pos hnul]
    rw [if_neg hnul, if_neg hnul]
    by_cases hlength : maxNameBytes < (testFile test).utf8ByteSize
    · rw [if_pos hlength, if_pos hlength]
    · rw [if_neg hlength, if_neg hlength]
      rfl

theorem run_mirrorAll_cons (blocked : Bool) (rest : List Row) :
    (mirrorAll blocked (row :: rest)).run files =
      match (mirror blocked row).run files with
      | .error fault files' => .error fault files'
      | .ok passed files' =>
        match (mirrorAll blocked rest).run files' with
        | .error fault files'' => .error fault files''
        | .ok others files'' => .ok (passed :: others) files'' := by
  rw [mirrorAll, EStateM.run_bind]
  cases (mirror blocked row).run files with
  | error fault files' => rfl
  | ok passed files' =>
    dsimp only
    rw [EStateM.run_bind]
    cases (mirrorAll blocked rest).run files' <;> rfl

/-! ## Section 5: What the files hold -/

/-- **What a file holds with some more lines at its end.** It comes to be with its first line. -/
def addLines (held : Option String) (lines : List String) : Option String :=
  if lines = [] then held else some (held.getD "" ++ String.join lines)

@[simp] theorem addLines_nil (held : Option String) : addLines held [] = held := if_pos rfl

theorem addLines_append (held : Option String) (lines more : List String) :
    addLines held (lines ++ more) = addLines (addLines held lines) more := by
  unfold addLines
  by_cases hlines : lines = []
  · simp [hlines]
  by_cases hmore : more = []
  · simp [hmore]
  · simp [hlines, hmore, String.append_assoc]

theorem get?_addTo (files : Files) (name text other : String) :
    Keyed.get? (addTo files name text) other =
      addLines (Keyed.get? files other) (if name = other then [text] else []) := by
  induction files with
  | nil =>
    by_cases hname : name = other
    · simp [addTo, Keyed.get?, addLines, hname]
    · simp [addTo, Keyed.get?, hname]
  | cons file rest ih =>
    obtain ⟨n, content⟩ := file
    rw [addTo]
    by_cases hn : n = name
    · subst hn
      by_cases hother : n = other
      · simp [Keyed.get?, addLines, hother]
      · simp [Keyed.get?, hother]
    · rw [if_neg hn]
      by_cases hother : n = other
      · -- the file in front is another one
        have hname : ¬ name = other := fun heq => hn (hother.trans heq.symm)
        simp [Keyed.get?, hother, hname]
      · rw [Keyed.get?, if_neg hother, ih, Keyed.get?, if_neg hother]

/-- **The record names this test**: a text that is not empty stands under the key. -/
def Names (row : Row) (test : String) : Prop :=
  Keyed.get? row "test" = some (.text (.ofString test)) ∧ test ≠ ""

theorem Text.ofString_inj {s s' : String} : ofString s = ofString s' ↔ s = s' := by
  constructor
  · intro h
    have hencode := congrArg encode h
    rw [encode_ofString, encode_ofString] at hencode
    exact Except.ok.inj hencode
  · rintro rfl
    rfl

theorem Row.test?_eq_some_iff {test : String} : row.test? = some test ↔ Names row test := by
  unfold test? Names
  split
  · next t ht =>
    rw [ht]
    simp only [Option.some.injEq, Datum.text.injEq]
    cases hencode : t.encode with
    | error halves =>
      -- such a text is that of no string
      simp only [reduceCtorEq, false_iff, not_and]
      rintro rfl
      rw [Text.encode_ofString] at hencode
      cases hencode
    | ok named =>
      obtain rfl := Text.encode_eq_ok_iff.mp hencode
      dsimp only
      rw [Text.ofString_inj]
      by_cases hempty : named.isEmpty = true
      · rw [if_pos hempty]
        rw [String.isEmpty_iff] at hempty
        simp only [reduceCtorEq, false_iff, not_and, not_not]
        rintro rfl
        exact hempty
      · rw [if_neg hempty, Option.some.injEq]
        rw [String.isEmpty_iff] at hempty
        constructor
        · rintro rfl
          exact ⟨rfl, hempty⟩
        · intro h
          exact h.1
  · next hno =>
    simp only [reduceCtorEq, false_iff, not_and]
    intro heq
    exact absurd heq (hno _)

/-- A file system can hold the file of this test: no NUL character stands in its name, and the name
    is not too long. -/
def Holdable (test : String) : Prop :=
  '\x00' ∉ test.toList ∧ (testFile test).utf8ByteSize ≤ maxNameBytes

theorem nul_mem_testFile_iff {test : String} :
    '\x00' ∈ (testFile test).toList ↔ '\x00' ∈ test.toList := by
  have hchar : ∀ c, fileChar c = '\x00' ↔ c = '\x00' := by
    intro c
    unfold fileChar
    split
    · next h =>
      simp only [Bool.or_eq_true, beq_iff_eq] at h
      constructor
      · intro heq
        exact absurd heq (by decide)
      · rintro rfl
        revert h
        decide
    · rfl
  rw [toList_testFile]
  simp [hchar]

/-- The lines of the records that go to a file. -/
def linesFor (name : String) (rows : List Row) : List String :=
  (rows.filter fun row => name ∈ targets row).map Row.text

theorem linesFor_cons (name : String) (rest : List Row) :
    linesFor name (row :: rest) = linesFor name [row] ++ linesFor name rest := by
  unfold linesFor
  rw [← List.map_append, ← List.filter_append, List.singleton_append]

theorem linesFor_singleton (name : String) : linesFor name [row] =
    if name ∈ targets row then [row.text] else [] := by
  unfold linesFor
  by_cases hname : name ∈ targets row <;> simp [hname]

/-- **The files have gained these records**: each one has the lines of its records at its end, in
    order. -/
def Gained (files : Files) (rows : List Row) (files' : Files) : Prop :=
  ∀ name, Keyed.get? files' name = addLines (Keyed.get? files name) (linesFor name rows)

theorem gained_nil (files : Files) : Gained files [] files := by
  intro name
  exact (addLines_nil _).symm

/-- What is gained by one record and what is gained by those behind it. -/
theorem Gained.cons {files₁ : Files} {rest : List Row} (hfirst : Gained files [row] files₁)
    (hrest : Gained files₁ rest files') : Gained files (row :: rest) files' := by
  intro name
  rw [hrest, hfirst, ← addLines_append, ← linesFor_cons]

/-- **One record that is writable** is passed on: its line is added to each of its files, and no
    other file changes. -/
theorem gained_step (hrow : row.isWritable = true) (h : ∀ test, Names row test → Holdable test)
    (files : Files) :
    ∃ files', (mirror false row).run files = .ok row files' ∧ Gained files [row] files' := by
  unfold Gained
  simp only [linesFor_singleton]
  rw [run_mirror_of_writable hrow]
  unfold targets
  cases htest : row.test? with
  | none =>
    refine ⟨_, rfl, ?_⟩
    intro name
    rw [get?_addTo]
    simp only [List.mem_singleton, eq_comm]
  | some test =>
    obtain ⟨hnul, hlength⟩ := h test (Row.test?_eq_some_iff.mp htest)
    have hno : ¬ (testFile test).toList.contains '\x00' = true := by
      simpa [nul_mem_testFile_iff] using hnul
    dsimp only
    rw [if_neg hno, if_neg (Nat.not_lt.mpr hlength)]
    refine ⟨_, rfl, ?_⟩
    intro name
    rw [get?_addTo, get?_addTo]
    -- the file is the common one, that of the test, or neither
    by_cases hcommon : name = commonFile
    · subst hcommon
      simp [testFile_ne_commonFile test]
    · by_cases htestFile : name = testFile test
      · subst htestFile
        simp [(testFile_ne_commonFile test).symm]
      · simp [hcommon, htestFile, Ne.symm hcommon, Ne.symm htestFile]

/-- The file system can hold the files of all tests that the records name. -/
def AllHoldable (rows : List Row) : Prop :=
  ∀ row ∈ rows, ∀ test, Names row test → Holdable test

theorem AllHoldable.front {front rest : List Row} (h : AllHoldable (front ++ rest)) :
    AllHoldable front := fun row hin => h row (List.mem_append_left _ hin)

/-- **Any number of records that are writable**: all of them are passed on, and the files have
    gained them. By induction on the records, over any files to start with. -/
theorem gained_run {rows : List Row} (hrows : ∀ row ∈ rows, row.isWritable = true)
    (h : AllHoldable rows) (files : Files) :
    ∃ files', (mirrorAll false rows).run files = .ok rows files' ∧ Gained files rows files' := by
  induction rows generalizing files with
  | nil => exact ⟨files, rfl, gained_nil files⟩
  | cons row rest ih =>
    obtain ⟨files₁, hwritten, hfirst⟩ :=
      gained_step (hrows row List.mem_cons_self) (h row List.mem_cons_self) files
    obtain ⟨files', hrun, hrest⟩ := ih (fun r hin => hrows r (List.mem_cons_of_mem _ hin))
      (fun r hin => h r (List.mem_cons_of_mem _ hin)) files₁
    refine ⟨files', ?_, hfirst.cons hrest⟩
    rw [run_mirrorAll_cons, hwritten]
    dsimp only
    rw [hrun]

/-- **Records of which one is not writable** stop there: the files have gained those in front of it,
    and at most an empty common file more. -/
theorem stopped_run {front : List Row} (rest : List Row) (hfront : ∀ row ∈ front, row.isWritable = true)
    (hrow : row.isWritable = false) (h : AllHoldable front) (files : Files) :
    ∃ fault files₁ files', (mirrorAll false (front ++ row :: rest)).run files = .error fault files' ∧
      Gained files front files₁ ∧ (files' = files₁ ∨ files' = addTo files₁ commonFile "") := by
  induction front generalizing files with
  | nil =>
    obtain ⟨fault, files', hrun, hfiles⟩ := run_mirror_of_unwritable hrow files
    refine ⟨fault, files, files', ?_, gained_nil files, hfiles⟩
    rw [List.nil_append, run_mirrorAll_cons, hrun]
  | cons first front ih =>
    obtain ⟨files₀, hwritten, hfirst⟩ :=
      gained_step (hfront first List.mem_cons_self) (h first List.mem_cons_self) files
    obtain ⟨fault, files₁, files', hrun, hgained, hfiles⟩ :=
      ih (fun r hin => hfront r (List.mem_cons_of_mem _ hin))
        (fun r hin => h r (List.mem_cons_of_mem _ hin)) files₀
    refine ⟨fault, files₁, files', ?_, hfirst.cons hgained, hfiles⟩
    rw [List.cons_append, run_mirrorAll_cons, hwritten]
    dsimp only
    rw [hrun]

/-- **Where the directory cannot be made** no file changes: all records are passed on, or one has
    no line. -/
theorem run_mirrorAll_blocked (files : Files) (rows : List Row) :
    (mirrorAll true rows).run files = .ok rows files ∧ (∀ row ∈ rows, ∃ line, row.line = .ok line) ∨
      ∃ obstacle, (mirrorAll true rows).run files = .error (.unwritable obstacle) files ∧
        ∃ row ∈ rows, row.line = .error obstacle := by
  induction rows with
  | nil => exact .inl ⟨rfl, nofun⟩
  | cons row rest ih =>
    rw [run_mirrorAll_cons, run_mirror_blocked]
    cases hline : row.line with
    | error obstacle =>
      right
      exact ⟨obstacle, rfl, row, List.mem_cons_self, hline⟩
    | ok line =>
      dsimp only
      rcases ih with ⟨hrun, hlines⟩ | ⟨obstacle, hrun, row', hin, hrow'⟩
      · left
        rw [hrun]
        exact ⟨rfl, List.forall_mem_cons.mpr ⟨⟨line, hline⟩, hlines⟩⟩
      · right
        rw [hrun]
        exact ⟨obstacle, rfl, row', List.mem_cons_of_mem _ hin, hrow'⟩

/-! ## Section 6: Records and their files -/

/-- The record names a test whose name is the same in the names of files. -/
def GoesTo (test : String) (row : Row) : Prop :=
  ∃ test', Names row test' ∧ SameName test' test

theorem goesTo_iff {test : String} : GoesTo test row ↔ testFile test ∈ targets row := by
  have hcommon := testFile_ne_commonFile test
  unfold GoesTo targets
  cases htest : row.test? with
  | none =>
    simp only [List.mem_singleton, hcommon, iff_false]
    rintro ⟨test', hnames, -⟩
    rw [Row.test?_eq_some_iff.mpr hnames] at htest
    cases htest
  | some named =>
    have hnamed := Row.test?_eq_some_iff.mp htest
    simp only [List.mem_cons, hcommon, false_or, List.not_mem_nil, or_false]
    constructor
    · rintro ⟨test', hnames, hsame⟩
      rw [Row.test?_eq_some_iff.mpr hnames] at htest
      cases htest
      exact (testFile_eq_iff.mpr hsame).symm
    · intro heq
      exact ⟨named, hnamed, testFile_eq_iff.mp heq.symm⟩

instance (test : String) (row : Row) : Decidable (GoesTo test row) :=
  decidable_of_iff _ goesTo_iff.symm

/-- **The files mirror the records.** They held something before, and hold something now.

    * `common`: the common file has the lines of all records at its end, in order.
    * `test`: the file of a test has the lines of those records at its end, in order, which name
      a test of the same name there.
    * `others`: no other file is touched.
    * `direct`: each file that was written lies directly in the directory. -/
structure Mirrored (files : Files) (rows : List Row) (files' : Files) : Prop where
  common : Keyed.get? files' commonFile =
    addLines (Keyed.get? files commonFile) (rows.map Row.text)
  test : ∀ test, Keyed.get? files' (testFile test) =
    addLines (Keyed.get? files (testFile test))
      ((rows.filter fun row => GoesTo test row).map Row.text)
  others : ∀ name, name ≠ commonFile →
    (∀ row ∈ rows, ∀ test, Names row test → name ≠ testFile test) →
    Keyed.get? files' name = Keyed.get? files name
  direct : ∀ name, Keyed.get? files' name ≠ Keyed.get? files name → DirectName name

/-- A file is one of those a record goes to if it is the common one or that of its test. -/
theorem mem_targets_iff {name : String} : name ∈ targets row ↔
    name = commonFile ∨ ∃ test, Names row test ∧ name = testFile test := by
  unfold targets
  cases htest : row.test? with
  | none =>
    simp only [List.mem_singleton, ← Row.test?_eq_some_iff, htest]
    simp
  | some test =>
    simp only [List.mem_cons, List.not_mem_nil, or_false, ← Row.test?_eq_some_iff, htest]
    simp

/-- Files that have gained the records mirror them. -/
theorem Gained.mirrored {rows : List Row} (h : Gained files rows files') :
    Mirrored files rows files' := by
  constructor
  case common =>
    have hall : linesFor commonFile rows = rows.map Row.text := by
      unfold linesFor
      rw [List.filter_eq_self.mpr]
      intro row _
      simp [mem_targets_iff]
    rw [h, hall]
  case test =>
    intro test
    rw [h, linesFor]
    simp only [goesTo_iff]
  case others =>
    intro name hcommon htests
    have hnone : linesFor name rows = [] := by
      unfold linesFor
      rw [List.filter_eq_nil_iff.mpr, List.map_nil]
      intro row hin
      simp only [decide_eq_true_eq, mem_targets_iff, hcommon, false_or, not_exists, not_and]
      exact htests row hin
    rw [h, hnone, addLines_nil]
  case direct =>
    intro name hchanged
    -- a file that has changed is one that a record went to
    have hsome : linesFor name rows ≠ [] := by
      intro hnone
      rw [h, hnone, addLines_nil] at hchanged
      exact hchanged rfl
    obtain ⟨text, hin⟩ := List.exists_mem_of_ne_nil _ hsome
    obtain ⟨row, hrow, -⟩ := List.mem_map.mp hin
    have htarget := (List.mem_filter.mp hrow).2
    rcases mem_targets_iff.mp (by simpa using htarget) with rfl | ⟨test, -, rfl⟩
    · exact directName_commonFile
    · exact directName_testFile test

/-! ## Section 7: Exactly what can be written -/

/-- If not all records are writable there is a first that is not. -/
theorem exists_first_unwritable {rows : List Row} (h : ¬ ∀ row ∈ rows, row.isWritable = true) :
    ∃ front row rest, rows = front ++ row :: rest ∧ (∀ r ∈ front, r.isWritable = true) ∧
      row.isWritable = false := by
  induction rows with
  | nil => exact absurd nofun h
  | cons first rest ih =>
    cases hfirst : first.isWritable with
    | false => exact ⟨[], first, rest, rfl, nofun, hfirst⟩
    | true =>
      rw [List.forall_mem_cons, not_and] at h
      obtain ⟨front, row, rest', rfl, hfront, hrow⟩ := ih (h hfirst)
      exact ⟨first :: front, row, rest', rfl, List.forall_mem_cons.mpr ⟨hfirst, hfront⟩, hrow⟩

/-- **The log files mirror the records exactly if all records are writable**, whatever the files held
    before.

    * Where the directory can be made and the file system can hold the files of the tests, all
      records are passed on and the files mirror them if and only if each of them is writable.
      Otherwise the run ends at the first that is not: the files mirror those in front of it, and
      nothing of it or of those behind it is written.
    * Where the directory cannot be made no file changes. All records are passed on if and only
      if each of them has a line.
    * A record that is writable has a JSON value and its text for a line. The lines are read as
      they were written, one for each record, and each writes its record. -/
theorem files_mirror_iff (files : Files) (rows : List Row) :
    (AllHoldable rows →
      ((∃ files', (mirrorAll false rows).run files = .ok rows files' ∧ Mirrored files rows files') ↔
        ∀ row ∈ rows, row.isWritable = true) ∧
      ∀ front row rest, rows = front ++ row :: rest → (∀ r ∈ front, r.isWritable = true) →
        row.isWritable = false →
        ∃ fault files₁ files', (mirrorAll false rows).run files = .error fault files' ∧
          Mirrored files front files₁ ∧ (files' = files₁ ∨ files' = addTo files₁ commonFile "")) ∧
    ((mirrorAll true rows).run files = .ok rows files ↔
      ∀ row ∈ rows, ∃ line, row.line = .ok line) ∧
    (∀ fault files', (mirrorAll true rows).run files = .error fault files' → files' = files) ∧
    (∀ row : Row, row.isWritable = true →
      ∃ v, row.json? = some v ∧ row.text = v.text ++ "\n" ∧ row.line = .ok (.ofString row.text) ∧
        (v.Legible Json.maxNesting → Json.read? row.text = some v)) ∧
    (∀ part : List Row, (∀ row ∈ part, row.isWritable = true) →
      Lines.split (Lines.unify (String.join (part.map Row.text))) = part.map Row.text) := by
  have hblocked := run_mirrorAll_blocked files rows
  refine ⟨?_, ?_, ?_, ?_, ?_⟩
  · intro h
    have hstopped : ∀ front row rest, rows = front ++ row :: rest →
        (∀ r ∈ front, r.isWritable = true) → row.isWritable = false →
        ∃ fault files₁ files', (mirrorAll false rows).run files = .error fault files' ∧
          Mirrored files front files₁ ∧ (files' = files₁ ∨ files' = addTo files₁ commonFile "") := by
      rintro front row rest rfl hfront hrow
      obtain ⟨fault, files₁, files', hrun, hgained, hfiles⟩ :=
        stopped_run rest hfront hrow h.front files
      exact ⟨fault, files₁, files', hrun, hgained.mirrored, hfiles⟩
    refine ⟨⟨?_, ?_⟩, hstopped⟩
    · -- a run that ends well has met no record that is not writable
      rintro ⟨files', hrun, -⟩
      by_contra hno
      obtain ⟨front, row, rest, heq, hfront, hrow⟩ := exists_first_unwritable hno
      obtain ⟨fault, -, files'', hstop, -⟩ := hstopped front row rest heq hfront hrow
      rw [hrun] at hstop
      cases hstop
    · intro hrows
      obtain ⟨files', hrun, hgained⟩ := gained_run hrows h files
      exact ⟨files', hrun, hgained.mirrored⟩
  · rcases hblocked with ⟨hrun, hlines⟩ | ⟨obstacle, hrun, row, hin, hrow⟩
    · exact iff_of_true hrun hlines
    · refine iff_of_false ?_ ?_
      · rw [hrun]
        exact nofun
      · intro hlines
        obtain ⟨line, hline⟩ := hlines row hin
        rw [hrow] at hline
        cases hline
  · intro fault files' hrun'
    rcases hblocked with ⟨hrun, -⟩ | ⟨obstacle, hrun, -⟩
    · rw [hrun] at hrun'
      cases hrun'
    · rw [hrun] at hrun'
      cases hrun'
      rfl
  · intro row hrow
    obtain ⟨v, hv⟩ := Row.exists_json? hrow
    exact ⟨v, hv, Row.text_of_json? hv, Row.line_eq_text hrow, Row.read?_text hv⟩
  · intro part hpart
    apply Lines.split_join
    intro text hin
    obtain ⟨row, hrow, rfl⟩ := List.mem_map.mp hin
    exact Row.unbroken_text (hpart row hrow)

/-- A record whose only text is half of a surrogate pair. -/
def halfRow : Row := [("event", .text [.half 0])]

/-- **A record that is lost**: it names no test, so the file system can hold its files. Its line
    cannot be encoded, so what is left of it is an empty file and an error. -/
theorem halfRow_lost : AllHoldable [halfRow] ∧
    (mirrorAll false [halfRow]).run [] =
      .error (.unencodable ⟨0, 11, 11⟩) [("framework.log", "")] ∧
    ¬ ∃ files', (mirrorAll false [halfRow]).run [] = .ok [halfRow] files' := by
  have hrun : (mirrorAll false [halfRow]).run [] =
      .error (.unencodable ⟨0, 11, 11⟩) [("framework.log", "")] := by rfl
  refine ⟨?_, hrun, ?_⟩
  · intro row hrow test hnames
    obtain rfl := List.mem_singleton.mp hrow
    cases hnames.1
  · rw [hrun]
    rintro ⟨files', h⟩
    cases h

/-- Two tests whose names differ in a separator share a file, and a line feed in a value ends no
    line of it. -/
example : writeAll false
    [[("test", .text (.ofString "a/b"))],
      [("test", .text (.ofString "a b")), ("x", .text (.ofString "1\n2"))], []] =
    .ok [("framework.log",
        "\x7b\"test\": \"a/b\"\x7d\n\x7b\"test\": \"a b\", \"x\": \"1\\n2\"\x7d\n\x7b\x7d\n"),
      ("test_a_b.log",
        "\x7b\"test\": \"a/b\"\x7d\n\x7b\"test\": \"a b\", \"x\": \"1\\n2\"\x7d\n")] := by
  rfl

end Log

end EventCheck
