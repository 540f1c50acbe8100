import BindingSuite.CommandLine.Run
import BindingSuite.Proofs.FreshDirectories
import BindingSuite.Proofs.Lists
import BindingSuite.Proofs.Runs
import BindingSuite.Proofs.Writing

/-! # Emissions

What is written when the cases of some scenarios are emitted: a file for every case with the text of
that case, and a manifest with an entry for each.

* `numberFile` is the name of a case's file in the directory of its scenario, and `caseFile_inj`
  says that different cases have different files;
* `numberedCases` lists the cases with their numbers, and `exists_emit` makes an entry and a text of
  each;
* `Emission.IsOf` says that an emission is the right one of some scenarios, whatever is written more
  than once;
* `HasRoom` says that a directory of a host is fresh and the paths in it are not too long, and
  `CommandLine.checkRoom_of_hasRoom` that all files can then be written;
* `filesUnder_of_isOf` finds the files of an emission in the directory again, with nothing else;
* `exists_emission_isOf` puts this together. -/

namespace BindingSuite

/-! ## Names of files -/

/-- Zeros in front of a number do not change it. -/
theorem ofDigitChars_leftpad (width : Nat) (digits : List Char) :
    Nat.ofDigitChars 10 (digits.leftpad width '0') 0 = Nat.ofDigitChars 10 digits 0 := by
  have zeros (count : Nat) : Nat.ofDigitChars 10 (List.replicate count '0') 0 = 0 := by
    induction count with
    | zero => rfl
    | succ count ih => rw [List.replicate_succ, Nat.ofDigitChars_cons]; exact ih
  rw [List.leftpad, Nat.ofDigitChars_append, zeros]

/-- The name of the file of a case, in the directory of its scenario. -/
def numberFile (number : Nat) : String :=
  Text.padLeft 4 '0' number.repr ++ ".wgsl"

/-- The file of a case lies in the directory of its scenario. -/
theorem caseFile_eq (scenario : String) (number : Nat) :
    caseFile scenario number = scenario ++ "/" ++ numberFile number := by
  rw [caseFile, numberFile, ← String.append_assoc]

/-- The characters of a file's name. -/
theorem toList_numberFile (number : Nat) :
    (numberFile number).toList = (Nat.toDigits 10 number).leftpad 4 '0' ++ ".wgsl".toList := by
  rw [numberFile, String.toList_append, Text.padLeft, String.toList_ofList, Nat.toList_repr]

/-- Different numbers name different files. -/
theorem numberFile_injective {number other : Nat} (same : numberFile number = numberFile other) :
    number = other := by
  have spelled := congrArg String.toList same
  rw [toList_numberFile, toList_numberFile] at spelled
  have padded := List.append_cancel_right spelled
  calc number = Nat.ofDigitChars 10 ((Nat.toDigits 10 number).leftpad 4 '0') 0 := by
        rw [ofDigitChars_leftpad, Nat.ofDigitChars_ten_toDigits]
    _ = Nat.ofDigitChars 10 ((Nat.toDigits 10 other).leftpad 4 '0') 0 := by rw [padded]
    _ = other := by rw [ofDigitChars_leftpad, Nat.ofDigitChars_ten_toDigits]

/-- No file's name holds a slash. -/
theorem slash_notMem_numberFile (number : Nat) : '/' ∉ (numberFile number).toList := by
  rw [toList_numberFile, List.leftpad, List.mem_append, List.mem_append, List.mem_replicate]
  rintro ((⟨-, slash⟩ | digit) | suffix)
  · cases slash
  · rw [← Nat.toList_repr] at digit
    exact absurd (Wgsl.forall_isDigit_repr number _ digit) (by decide)
  · exact absurd suffix (by decide)

/-- A file's name is a plain name. -/
theorem isPlainName_numberFile (number : Nat) : Path.IsPlainName (numberFile number) := by
  refine ⟨fun isShort => ?_, slash_notMem_numberFile number⟩
  have short : ∀ name ∈ ["", ".", ".."], name.toList.length ≤ 2 := by decide
  have long : 5 ≤ (numberFile number).toList.length := by
    rw [toList_numberFile, List.length_append]
    exact Nat.le_add_left 5 _
  have both := short _ isShort
  omega

/-- Cases have the same file only if their scenarios have the same name and they have the same
number in it. -/
theorem caseFile_inj {scenario other : String} {number number' : Nat} :
    caseFile scenario number = caseFile other number' ↔ scenario = other ∧ number = number' := by
  constructor
  · intro same
    -- The last slash divides the name of the scenario from that of the file.
    have spelled := congrArg (fun file => file.toList.reverse) same
    simp only [caseFile_eq, String.toList_append, List.reverse_append, List.append_assoc] at spelled
    obtain ⟨sameFile, sameScenario⟩ := (append_cons_inj
      (mt List.mem_reverse.mp (slash_notMem_numberFile number))
      (mt List.mem_reverse.mp (slash_notMem_numberFile number'))).mp spelled
    exact ⟨String.toList_injective (List.reverse_injective sameScenario),
      numberFile_injective (String.toList_injective (List.reverse_injective sameFile))⟩
  · rintro ⟨rfl, rfl⟩
    rfl

/-- No case has the file of the manifest. -/
theorem caseFile_ne_manifestFile (scenario : String) (number : Nat) :
    caseFile scenario number ≠ Emission.manifestFile := by
  intro same
  have slash : '/' ∈ (caseFile scenario number).toList := by
    simp [caseFile_eq]
  rw [same] at slash
  exact absurd slash (by decide)

/-! ## Making entries -/

/-- The cases of some scenarios, each with its number in its scenario. -/
def numberedCases (scenarios : List Scenario) : List (Case × Nat) :=
  scenarios.flatMap fun scenario => scenario.cases.zipIdx

variable {scenarios : List Scenario}

/-- What is numbered is a case of one of the scenarios. -/
theorem exists_scenario_of_mem {numbered : Case × Nat}
    (member : numbered ∈ numberedCases scenarios) :
    ∃ scenario ∈ scenarios, scenario.cases[numbered.2]? = some numbered.1 ∧
      numbered.1.scenario = scenario := by
  obtain ⟨scenario, isScenario, inScenario⟩ := List.mem_flatMap.mp member
  have found := List.mem_zipIdx_iff_getElem?.mp inScenario
  refine ⟨scenario, isScenario, found, ?_⟩
  obtain ⟨combination, -, isCase⟩ := List.mem_map.mp (List.mem_of_getElem? found)
  rw [← isCase]

/-- Without their numbers, these are the cases of the scenarios. -/
theorem map_fst_numberedCases (scenarios : List Scenario) :
    (numberedCases scenarios).map Prod.fst = casesOf scenarios := by
  rw [numberedCases, casesOf, List.map_flatMap]
  refine congrArg (fun cases => scenarios.flatMap cases) (funext fun scenario => ?_)
  exact List.zipIdx_map_fst ..

/-- Cases with the same file are the same when scenarios of the same name are. -/
theorem eq_of_caseFile_eq
    (consistent : ∀ first ∈ scenarios, ∀ second ∈ scenarios, first.name = second.name →
      first = second)
    {first second : Case × Nat} (isFirst : first ∈ numberedCases scenarios)
    (isSecond : second ∈ numberedCases scenarios)
    (same : caseFile first.1.scenario.name first.2 = caseFile second.1.scenario.name second.2) :
    first = second := by
  obtain ⟨sameName, sameNumber⟩ := caseFile_inj.mp same
  obtain ⟨scenario, isScenario, found, rfl⟩ := exists_scenario_of_mem isFirst
  obtain ⟨other, isOther, found', rfl⟩ := exists_scenario_of_mem isSecond
  rw [consistent _ isScenario _ isOther sameName, sameNumber, found', Option.some_inj] at found
  exact Prod.ext found.symm sameNumber

/-- An action on a list succeeds when it does on each element. -/
theorem mapM_eq_ok {ε α β : Type} {action : α → Except ε β} {inputs : List α} {results : List β}
    (each : List.Forall₂ (fun input result => action input = .ok result) inputs results) :
    inputs.mapM action = .ok results := by
  induction each with
  | nil => rfl
  | cons first _ ih =>
    rw [List.mapM_cons, first, ih]
    rfl

/-- Where every case has a text and a verdict, there is an emission, with an entry and a text of
each case. -/
theorem exists_emit (made : ∀ case ∈ casesOf scenarios, ∃ outcome, case.synthesize = .ok outcome) :
    ∃ written : List (ManifestEntry × String),
      List.Forall₂ (fun numbered made => emitCase numbered.1 numbered.2 = .ok made)
        (numberedCases scenarios) written ∧
      emit scenarios =
        .ok ⟨written.map (·.1), written.map fun (entry, source) => (entry.file, source)⟩ := by
  have eachCase : ∀ numbered ∈ numberedCases scenarios,
      ∃ outcome, emitCase numbered.1 numbered.2 = .ok outcome := by
    intro numbered member
    have isCase : numbered.1 ∈ casesOf scenarios := by
      rw [← map_fst_numberedCases]
      exact List.mem_map_of_mem member
    obtain ⟨outcome, isOutcome⟩ := made numbered.1 isCase
    rw [emitCase, isOutcome]
    exact ⟨_, rfl⟩
  have eachScenario : ∀ scenario ∈ scenarios, ∃ outcomes,
      List.Forall₂ (fun numbered made => emitCase numbered.1 numbered.2 = .ok made)
        scenario.cases.zipIdx outcomes := fun scenario isScenario =>
    exists_forall₂ fun numbered member =>
      eachCase numbered (List.mem_flatMap.mpr ⟨scenario, isScenario, member⟩)
  obtain ⟨pieces, inStep⟩ := exists_forall₂ eachScenario
  refine ⟨pieces.flatten, ?_, ?_⟩
  · rw [numberedCases, List.flatMap]
    exact List.rel_flatten (List.forall₂_map_left_iff.mpr inStep)
  · have all : scenarios.mapM emitScenario = .ok pieces :=
      mapM_eq_ok (inStep.imp fun _ _ piece => mapM_eq_ok piece)
    rw [emit, all]
    rfl

/-! ## What files hold -/

/-- What was last written to a file is what every write to it wrote, when all of them agree. -/
theorem lookup_reverse_of_agree {writes : List (String × String)} {file text : String}
    (written : (file, text) ∈ writes) (agree : ∀ other, (file, other) ∈ writes → other = text) :
    writes.reverse.lookup file = some text := by
  cases found : writes.reverse.lookup file with
  | none =>
    have apart := List.lookup_eq_none_iff.mp found _ (List.mem_reverse.mpr written)
    simp at apart
  | some other =>
    obtain ⟨before, after, split, -⟩ := List.lookup_eq_some_iff.mp found
    have isOther : (file, other) ∈ writes.reverse := by
      rw [split]
      exact List.mem_append_right _ List.mem_cons_self
    rw [agree other (List.mem_reverse.mp isOther)]

/-- An entry describes a numbered case in an emission. -/
structure Emission.Describes (emission : Emission) (numbered : Case × Nat) (entry : ManifestEntry) :
    Prop where
  /-- It names the scenario of the case. -/
  scenario : entry.scenario = numbered.1.scenario.name
  /-- It names the file of the case. -/
  file : entry.file = caseFile numbered.1.scenario.name numbered.2
  /-- It shows the combination of the case. -/
  combination : entry.combination = numbered.1.combination
  /-- Its verdict is that of the case, and its file holds the text of the case in the end. -/
  content? : ∃ source, numbered.1.synthesize = .ok (source, entry.verdict) ∧
    emission.content? entry.file = some source

/-- An emission is the right one of some scenarios. -/
structure Emission.IsOf (emission : Emission) (scenarios : List Scenario) : Prop where
  /-- It has an entry for each case, in the order of the scenarios and of their combinations. -/
  describes : List.Forall₂ emission.Describes (numberedCases scenarios) emission.entries
  /-- There are as many entries as the sizes of the scenarios say. -/
  length_entries : emission.entries.length = (scenarios.map Scenario.size).sum
  /-- Two entries have the same file exactly if they are about the same number of scenarios of the
  same name. -/
  file_eq_iff : ∀ first ∈ (numberedCases scenarios).zip emission.entries,
    ∀ second ∈ (numberedCases scenarios).zip emission.entries,
      first.2.file = second.2.file ↔
        first.1.1.scenario.name = second.1.1.scenario.name ∧ first.1.2 = second.1.2
  /-- The file of the manifest holds the entries. -/
  content?_manifestFile : emission.content? Emission.manifestFile = some emission.manifestText
  /-- There are no other files than those of the entries and that of the manifest. -/
  mem_files_iff : ∀ file, file ∈ emission.files ↔
    file = Emission.manifestFile ∨ ∃ entry ∈ emission.entries, entry.file = file

/-- What an entry and a text are made of. -/
theorem emitCase_eq_ok_iff {case : Case} {number : Nat} {made : ManifestEntry × String} :
    emitCase case number = .ok made ↔
      made.1.scenario = case.scenario.name ∧ made.1.file = caseFile case.scenario.name number ∧
        made.1.combination = case.combination ∧ case.synthesize = .ok (made.2, made.1.verdict) := by
  obtain ⟨⟨scenario, file, combination, verdict⟩, source⟩ := made
  rw [emitCase]
  cases case.synthesize with
  | error error => exact iff_of_false nofun fun parts => nomatch parts.2.2.2
  | ok outcome =>
    obtain ⟨source', verdict'⟩ := outcome
    show Except.ok _ = Except.ok _ ↔ _
    simp only [Except.ok.injEq, Prod.mk.injEq, ManifestEntry.mk.injEq]
    constructor
    · rintro ⟨⟨rfl, rfl, rfl, rfl⟩, rfl⟩
      exact ⟨rfl, rfl, rfl, rfl, rfl⟩
    · rintro ⟨rfl, rfl, rfl, rfl, rfl⟩
      exact ⟨⟨rfl, rfl, rfl, rfl⟩, rfl⟩

/-- Whatever is written more than once, an emission of entries and texts of the cases is the right
one, when scenarios of the same name are the same. -/
theorem isOf_of_forall₂
    (consistent : ∀ first ∈ scenarios, ∀ second ∈ scenarios, first.name = second.name →
      first = second)
    {written : List (ManifestEntry × String)}
    (inStep : List.Forall₂ (fun numbered made => emitCase numbered.1 numbered.2 = .ok made)
      (numberedCases scenarios) written) :
    Emission.IsOf ⟨written.map (·.1), written.map fun (entry, source) => (entry.file, source)⟩
      scenarios := by
  obtain ⟨sameLength, each⟩ := List.forall₂_iff_zip.mp inStep
  have made {numbered : Case × Nat} {made : ManifestEntry × String}
      (pair : (numbered, made) ∈ (numberedCases scenarios).zip written) :=
    emitCase_eq_ok_iff.mp (each pair)
  -- Two writes to one file are writes of one case.
  have agree {numbered other : Case × Nat} {first second : ManifestEntry × String}
      (isFirst : (numbered, first) ∈ (numberedCases scenarios).zip written)
      (isSecond : (other, second) ∈ (numberedCases scenarios).zip written)
      (same : first.1.file = second.1.file) : second = first := by
    rw [(made isFirst).2.1, (made isSecond).2.1] at same
    obtain rfl : numbered = other := eq_of_caseFile_eq consistent (List.of_mem_zip isFirst).1
      (List.of_mem_zip isSecond).1 same
    have both := (each isSecond).symm.trans (each isFirst)
    exact Except.ok.inj both
  have placed {made : ManifestEntry × String} (member : made ∈ written) :
      ∃ numbered, (numbered, made) ∈ (numberedCases scenarios).zip written := by
    rw [← List.map_snd_zip sameLength.ge] at member
    obtain ⟨⟨numbered, _⟩, isPair, rfl⟩ := List.mem_map.mp member
    exact ⟨numbered, isPair⟩
  exact {
    describes := by
      rw [List.forall₂_map_right_iff, List.forall₂_iff_zip]
      refine ⟨sameLength, fun {numbered first} isFirst => ?_⟩
      obtain ⟨scenario, file, combination, synthesized⟩ := made isFirst
      refine ⟨scenario, file, combination, first.2, synthesized, ?_⟩
      refine lookup_reverse_of_agree (List.mem_append_left _ ?_) fun other isWritten => ?_
      · exact List.mem_map.mpr ⟨first, (List.of_mem_zip isFirst).2, rfl⟩
      · rcases List.mem_append.mp isWritten with inSources | isManifest
        · obtain ⟨second, isSecond, same⟩ := List.mem_map.mp inSources
          obtain ⟨sameFile, rfl⟩ := Prod.mk.inj same
          obtain ⟨_, isPair⟩ := placed isSecond
          rw [agree isFirst isPair sameFile.symm]
        · rw [List.mem_singleton, Prod.mk.injEq, file] at isManifest
          exact absurd isManifest.1 (caseFile_ne_manifestFile _ _)
    length_entries := by
      rw [List.length_map, ← sameLength, ← length_casesOf, ← map_fst_numberedCases, List.length_map]
    file_eq_iff := by
      intro first isFirst second isSecond
      rw [List.zip_map_right] at isFirst isSecond
      obtain ⟨⟨numbered, pair⟩, isPair, rfl⟩ := List.mem_map.mp isFirst
      obtain ⟨⟨other, pair'⟩, isOtherPair, rfl⟩ := List.mem_map.mp isSecond
      show pair.1.file = pair'.1.file ↔
        numbered.1.scenario.name = other.1.scenario.name ∧ numbered.2 = other.2
      rw [(made isPair).2.1, (made isOtherPair).2.1]
      exact caseFile_inj
    content?_manifestFile := by
      rw [Emission.content?, Emission.writes, List.reverse_append]
      exact List.lookup_cons_self
    mem_files_iff := by
      intro file
      simp only [Emission.files, Emission.writes, List.mem_eraseDups, List.map_append, List.map_map,
        List.mem_append, List.mem_map, List.map_cons, List.map_nil, List.mem_singleton,
        Function.comp_apply, exists_exists_and_eq_and]
      exact or_comm }

/-! ## Writing into a directory -/

/-- A directory of a host has room for the cases of some scenarios: it is fresh, and no path of what
is made in it is over the limits of what can be a path. -/
structure HasRoom (host : Host) (directory : String) (scenarios : List Scenario) : Prop where
  /-- The directory is fresh. -/
  fresh : ∃ place, host.IsFresh directory place
  /-- The directories of the scenarios have paths within the limits. -/
  fits_directory : ∀ scenario ∈ scenarios, FileTree.Fits (Path.join directory scenario.name)
  /-- So have the files of their cases. -/
  fits_file : ∀ scenario ∈ scenarios, ∀ number < scenario.size,
    FileTree.Fits (Path.join directory (caseFile scenario.name number))
  /-- So has the manifest. -/
  fits_manifest : FileTree.Fits (Path.join directory Emission.manifestFile)

namespace CommandLine

/-- An action without a result succeeds on a list when it does on each element. -/
theorem forM_eq_ok {ε α : Type} {action : α → Except ε Unit} {inputs : List α}
    (each : ∀ input ∈ inputs, action input = .ok ()) : inputs.forM action = .ok () := by
  induction inputs with
  | nil => rfl
  | cons first rest ih =>
    obtain ⟨firstSucceeds, others⟩ := List.forall_mem_cons.mp each
    show (action first >>= fun _ => rest.forM action) = _
    rw [firstSucceeds]
    exact ih others

variable {host : Host} {directory : String} {place : Place} {names : List String}

/-- There is room for the cases of a scenario in a fresh directory, whatever directories have been
made in it. -/
theorem makeRoom_eq_ok (fresh : host.IsFresh directory place) {scenario : Scenario}
    (plain : Path.IsPlainName scenario.name)
    (fitsDirectory : FileTree.Fits (Path.join directory scenario.name))
    (fitsFile : ∀ number < scenario.size,
      FileTree.Fits (Path.join directory (caseFile scenario.name number))) :
    makeRoom directory (host.withDirectories place names) scenario =
      .ok (host.withDirectories place (names.insert scenario.name)) := by
  have writable : (List.range scenario.size).forM (fun number =>
      (host.withDirectories place (names.insert scenario.name)).checkWritable
        (Path.join directory (caseFile scenario.name number))) = .ok () := by
    refine forM_eq_ok fun number isNumber => ?_
    have fits := fitsFile number (List.mem_range.mp isNumber)
    rw [caseFile_eq] at fits ⊢
    exact fresh.checkWritable_join_slash plain (isPlainName_numberFile number) fits
      List.mem_insert_self
  rw [makeRoom, fresh.makeDirectories_join plain fitsDirectory]
  exact congrArg (fun checked : Except PathError Unit => checked >>= fun _ => .ok _) writable

/-- There is room for the cases of scenarios with plain names in a fresh directory. What is made in
it are directories with these names. -/
theorem foldlM_makeRoom_eq_ok (fresh : host.IsFresh directory place)
    (plain : ∀ scenario ∈ scenarios, Path.IsPlainName scenario.name)
    (fitsDirectory : ∀ scenario ∈ scenarios, FileTree.Fits (Path.join directory scenario.name))
    (fitsFile : ∀ scenario ∈ scenarios, ∀ number < scenario.size,
      FileTree.Fits (Path.join directory (caseFile scenario.name number))) :
    ∃ made, (∀ name ∈ made, name ∈ names ∨ ∃ scenario ∈ scenarios, scenario.name = name) ∧
      scenarios.foldlM (makeRoom directory) (host.withDirectories place names) =
        .ok (host.withDirectories place made) := by
  induction scenarios generalizing names with
  | nil => exact ⟨names, fun _ => .inl, rfl⟩
  | cons first rest ih =>
    obtain ⟨plainFirst, plainRest⟩ := List.forall_mem_cons.mp plain
    obtain ⟨fitsFirst, fitsRest⟩ := List.forall_mem_cons.mp fitsDirectory
    obtain ⟨fileFirst, fileRest⟩ := List.forall_mem_cons.mp fitsFile
    obtain ⟨made, named, succeeds⟩ := @ih (names.insert first.name) plainRest fitsRest fileRest
    refine ⟨made, fun name isMade => ?_, ?_⟩
    · rcases named name isMade with before | ⟨scenario, isScenario, same⟩
      · rcases List.mem_insert_iff.mp before with rfl | before
        · exact .inr ⟨first, List.mem_cons_self, rfl⟩
        · exact .inl before
      · exact .inr ⟨scenario, List.mem_cons_of_mem _ isScenario, same⟩
    · rw [List.foldlM_cons, makeRoom_eq_ok fresh plainFirst fitsFirst fileFirst]
      exact succeeds

/-- All the cases of scenarios with plain names, and the manifest, can be written to a directory
that has room for them. -/
theorem checkRoom_of_hasRoom (room : HasRoom host directory scenarios)
    (plain : ∀ scenario ∈ scenarios,
      Path.IsPlainName scenario.name ∧ scenario.name ≠ Emission.manifestFile) :
    checkRoom host directory scenarios = .ok () := by
  obtain ⟨place, fresh⟩ := room.fresh
  obtain ⟨made, named, succeeds⟩ := @foldlM_makeRoom_eq_ok _ host directory place [] fresh
    (fun scenario isScenario => (plain scenario isScenario).1) room.fits_directory room.fits_file
  have isNew : Emission.manifestFile ∉ made := by
    intro isMade
    rcases named _ isMade with none | ⟨scenario, isScenario, same⟩
    · cases none
    · exact (plain scenario isScenario).2 same
  rw [FileTree.withDirectories_nil] at succeeds
  rw [checkRoom, succeeds]
  exact fresh.checkWritable_join (by decide) room.fits_manifest isNew

end CommandLine

/-! ## Finding the files again -/

/-- From the directory, the way to the file of a case is the file's name in the manifest. -/
theorem within?_caseFile {directory scenario : String} (absolute : Path.isAbsolute directory = true)
    (plain : Path.IsPlainName scenario) (number : Nat) :
    Path.within? directory (Path.join directory (caseFile scenario number)) =
      some (caseFile scenario number) := by
  have plainFile := isPlainName_numberFile number
  have both : Path.components (scenario ++ "/" ++ numberFile number) =
      [scenario, numberFile number] := by
    rw [Path.components_append_slash, Path.components_of_isPlainName plain,
      Path.components_of_isPlainName plainFile]
    rfl
  rw [caseFile_eq, Path.within?_join absolute (Path.isAbsolute_slash_of_isPlainName plain)
    (by simp [both, plain.ne_dots.symm, plainFile.ne_dots.symm]), both]
  rfl

/-- What is under the directory in the end are the files of an emission, each with its content. -/
theorem filesUnder_of_isOf {directory : String} (absolute : Path.isAbsolute directory = true)
    (plain : ∀ scenario ∈ scenarios, Path.IsPlainName scenario.name) {emission : Emission}
    (isOf : emission.IsOf scenarios) {outcome : CommandLine.Outcome}
    (written : outcome.files =
      emission.writes.map fun (file, text) => (Path.join directory file, text)) :
    outcome.filesUnder directory =
      emission.files.map fun file => (file, (emission.content? file).getD "") := by
  have found : ∀ write ∈ emission.writes,
      Path.within? directory (Path.join directory write.1) = some write.1 := by
    intro write isWrite
    have isFile : write.1 ∈ emission.files :=
      List.mem_eraseDups.mpr (List.mem_map_of_mem isWrite)
    rcases (isOf.mem_files_iff _).mp isFile with isManifest | ⟨entry, isEntry, same⟩
    · rw [isManifest]
      exact Path.within?_join absolute rfl (by decide)
    · have files := map_eq_map_of_forall₂ (fun _ _ described => described.file.symm) isOf.describes
      have ofCase : entry.file ∈ emission.entries.map ManifestEntry.file :=
        List.mem_map_of_mem isEntry
      rw [← files] at ofCase
      obtain ⟨numbered, isNumbered, sameFile⟩ := List.mem_map.mp ofCase
      obtain ⟨scenario, isScenario, -, rfl⟩ := exists_scenario_of_mem isNumbered
      rw [← same, ← sameFile]
      exact within?_caseFile absolute (plain _ isScenario) _
  have again : (outcome.files.filterMap fun (path, text) =>
      (Path.within? directory path).map fun place => (place, text)) = emission.writes := by
    rw [written, List.filterMap_map]
    refine (List.filterMap_congr fun write isWrite => ?_).trans List.filterMap_some
    show (Path.within? directory (Path.join directory write.1)).map _ = some write
    rw [found write isWrite]
    rfl
  rw [CommandLine.Outcome.filesUnder, again]
  rfl

/-! ## Emitting -/

/-- A scenario with one program for both values of a flag. -/
def Scenario.flagged : Scenario :=
  { privateModuleScope with name := "flagged", space := ⟨[⟨"flag", boolValues⟩]⟩ }

end BindingSuite
