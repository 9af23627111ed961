import Metastring.CommandLine
import Metastring.Proofs.Encoding
import Metastring.Proofs.Numerals

/-!
# Compiling several files

The compile command treats its files one after the other and each by itself.  A
file that compiles gives one line of output, a file that fails gives one
message, and in the end the failures are counted.  Between them there may be log
records, which depend on the log filter; the output and the exit status do not.
-/

namespace Metastring

section Files

/-- The maximum for unbounded sequences: the one that is given, else the one of
the environment, else the default. -/
def Environment.effectiveMaximum (environment : Environment)
    (given : Option UInt64) : UInt64 :=
  (given <|> environment.text? .unboundedMaximum >>=
    Settings.readMaximum?).getD 128

variable (content : Path → Except FileFault (List UInt8)) (options : Options)

/-- The metastring of a file that is compiled by itself, or the cause of its
failure. -/
def compileAlone (path : Path) : Except String String :=
  match loadSpec path (content path) with
  | .error error => .error error.message
  | .ok spec =>
    (spec.tryCompile options).outcome.mapError fun error =>
      "compiling " ++ spec.type.name ++ ": " ++ error.message

/-- What is logged when a file is compiled by itself. -/
def recordsOf (path : Path) : List LogRecord :=
  match loadSpec path (content path) with
  | .error _ => []
  | .ok spec =>
    spec.loadedRecord ::
      (spec.tryCompile options).events.map LogEvent.logRecord

end Files

section Lines

/-- The line of output for a file that compiles. -/
def resultLine (path : Path) : Except String String → String
  | .ok metastring => Utf8.decodeLossy path ++ ": " ++ metastring ++ "\n"
  | .error _ => ""

/-- The message for a file that fails. -/
def failureLine (path : Path) : Except String String → String
  | .ok _ => ""
  | .error cause => "[ERROR] " ++ Utf8.decodeLossy path ++ ": " ++ cause ++ "\n"

/-- The last message, if some of the files fail. -/
def failureCount (failures files : Nat) : String :=
  if failures = 0 then ""
  else "Error: " ++ (decimal failures ++ " of " ++ decimal files ++
    " files failed") ++ "\n"

end Lines

namespace Workplace

/-- What a file leaves behind that is compiled by itself. -/
theorem compileFile_eq (place : Workplace) (path : Path) :
    place.compileFile path =
      let compiled := compileAlone place.content place.options path
      ⟨if compiled.isOk then 0 else 1, resultLine path compiled,
        place.filter.written (recordsOf place.content place.options path) ++
          failureLine path compiled⟩ := by
  unfold compileFile compileAlone recordsOf
  cases loadSpec path (place.content path) with
  | error error => rfl
  | ok spec =>
      dsimp only
      cases (spec.tryCompile place.options).outcome with
      | ok text =>
          exact congrArg (Outcome.mk 0 _) String.append_empty.symm
      | error error => rfl

theorem foldr_append (outcomes : List Outcome) (last : Outcome) :
    outcomes.foldr Outcome.append last =
      ⟨last.status, String.join (outcomes.map (·.output)) ++ last.output,
        String.join (outcomes.map (·.messages)) ++ last.messages⟩ := by
  induction outcomes with
  | nil => simp
  | cons outcome outcomes ih =>
      rw [List.foldr_cons, ih]
      simp [Outcome.append, String.append_assoc]

/-- The files of a command are compiled in their order, each by itself, and the
failures are counted. -/
theorem compileFiles_eq (place : Workplace) (files : List Path) :
    place.compileFiles files =
      let compiled := compileAlone place.content place.options
      let failures := files.countP fun path => !(compiled path).isOk
      ⟨if failures = 0 then 0 else 1,
        String.join (files.map fun path => resultLine path (compiled path)),
        String.join (files.map fun path =>
          place.filter.written (recordsOf place.content place.options path) ++
            failureLine path (compiled path)) ++
          failureCount failures files.length⟩ := by
  have counted : (files.map place.compileFile).countP (·.status ≠ 0) =
      files.countP fun path =>
        !(compileAlone place.content place.options path).isOk := by
    rw [List.countP_map]
    refine List.countP_congr fun path _ => ?_
    rw [Function.comp_apply, compileFile_eq]
    cases compileAlone place.content place.options path <;> simp [Except.isOk,
      Except.toBool]
  unfold compileFiles
  dsimp only
  rw [foldr_append, counted, List.map_map, List.map_map]
  simp only [Function.comp_def, compileFile_eq]
  unfold failureCount
  split <;> simp [Outcome.success, Outcome.failure]

end Workplace

section CommandLines

/-- The arguments that give a maximum. -/
def maximumArguments : Option UInt64 → List (List UInt8)
  | none => []
  | some maximum =>
    [Arguments.maximumName, Utf8.encode (decimal maximum.toNat)]

/-- A command line that begins with the name of the compile command and the
arguments that give a maximum. -/
def compileLine (maximum : Option UInt64) (rest : List (List UInt8)) :
    List (List UInt8) :=
  Utf8.encode "compile" :: (maximumArguments maximum ++ rest)

namespace Arguments

theorem read_hyphens (operands : List (List UInt8)) :
    read (Utf8.encode "--" :: operands) = some { operands } := by
  cases operands <;> exact if_pos rfl

theorem read_operands {operands : List (List UInt8)}
    (plain : ∀ operand ∈ operands, isOption operand = false) :
    read operands = some { operands } := by
  induction operands with
  | nil => rfl
  | cons operand operands ih =>
      obtain ⟨first, others⟩ := List.forall_mem_cons.mp plain
      have noHyphens : operand ≠ Utf8.encode "--" := by
        rintro rfl
        exact absurd first (by decide)
      rw [read.eq_def]
      simp only [if_neg noHyphens, first, ih others]
      rfl

theorem isOption_decimal (number : Nat) :
    isOption (Utf8.encode (decimal number)) = false := by
  have areDigits (letter : Char)
      (isMember : letter ∈ Nat.toDigits 10 number) : letter.isDigit :=
    isDigit_of_mem_toDigits isMember
  rw [isOption, Utf8.encode, decimal_toList]
  generalize Nat.toDigits 10 number = letters at areDigits
  cases letters with
  | nil => rfl
  | cons letter letters =>
      have isDigit := areDigits letter List.mem_cons_self
      rw [Char.isDigit_iff_toNat] at isDigit
      have ascii : letter.toNat < 0x80 :=
        Nat.lt_of_le_of_lt isDigit.2 (by decide)
      have noHyphen : UInt8.ofNat letter.toNat ≠ 45 := by
        intro isHyphen
        have value := congrArg UInt8.toNat isHyphen
        rw [Utf8.toNat_byte (by omega)] at value
        exact absurd isDigit.1 (by rw [value]; decide)
      simp [Utf8.encodeChar_eq, Utf8.numberBytes, ascii, noHyphen]

theorem read_maximumArguments {rest operands : List (List UInt8)}
    (readRest : read rest = some { operands }) (maximum : Option UInt64) :
    read (maximumArguments maximum ++ rest) = some ⟨operands, maximum⟩ := by
  cases maximum with
  | none => exact readRest
  | some maximum =>
      have noHyphens : maximumName ≠ Utf8.encode "--" := by decide
      have isOption_name : (!isOption maximumName) = false := by decide
      rw [maximumArguments, List.cons_append, List.singleton_append, read,
        if_neg noHyphens, isOption_name, if_neg Bool.false_ne_true, if_pos rfl,
        isOption_decimal, if_neg Bool.false_ne_true, readRest]
      simp only [Option.bind_eq_bind, Option.bind_some, setMaximum,
        Utf8.decode_encode, Except.toOption, decimal_toList, readSize?_toDigits,
        Option.isSome_none, Bool.false_eq_true, if_false]
      rfl

end Arguments

/-- A maximum and files make up a compile command. -/
theorem Command.read_compileLine {files : List Path}
    {rest : List (List UInt8)} (maximum : Option UInt64)
    (someFile : files ≠ []) (noEmpty : [] ∉ files)
    (readRest : Arguments.read rest = some { operands := files }) :
    Command.read (compileLine maximum rest) =
      some (.compile files maximum) := by
  have noVersion : asksVersion (Utf8.encode "compile") = false := by decide
  rw [compileLine, Command.read, noVersion, if_neg Bool.false_ne_true,
    Arguments.read_maximumArguments readRest maximum, Option.bind_eq_bind,
    Option.bind_some, named, if_pos rfl]
  simp [someFile, noEmpty]

end CommandLines

section Runs

/-- The log filter of a run, with what is wrong with it. -/
def Environment.runFilter (environment : Environment) :
    LogFilter × List LogFilterFault :=
  ((Settings.load environment).applyLogLevel environment).logFilter

theorem Settings.optionsWith_load (environment : Environment)
    (given : Option UInt64) :
    (Settings.load environment).optionsWith given =
      ⟨environment.effectiveMaximum given⟩ := by
  unfold Settings.optionsWith Settings.options Environment.effectiveMaximum
  cases given with
  | some maximum => rfl
  | none =>
      dsimp only [Settings.load]
      cases environment.text? .unboundedMaximum >>= readMaximum? <;> rfl

/-- A run combines the files of a compile command: its output is the lines of
the files that compile, its messages are those of the files that fail, with log
records between them and the number of failures behind them, and its exit
status tells whether any file fails.

The messages are given up to what is left out of them: the time of a log record,
the place of a fault in the text of a file, and the explanation of malformed
text. -/
structure Outcome.CombinesFiles (outcome : Outcome)
    (content : Path → Except FileFault (List UInt8))
    (environment : Environment) (files : List Path)
    (maximum : Option UInt64) : Prop where
  output_eq : outcome.output = String.join (files.map fun path =>
    resultLine path
      (compileAlone content ⟨environment.effectiveMaximum maximum⟩ path))
  messages_eq : outcome.messages =
    String.join (environment.runFilter.2.map LogFilterFault.warning) ++
      (String.join (files.map fun path =>
        environment.runFilter.1.written (recordsOf content
          ⟨environment.effectiveMaximum maximum⟩ path) ++
        failureLine path (compileAlone content
          ⟨environment.effectiveMaximum maximum⟩ path)) ++
        failureCount
          (files.countP fun path => !(compileAlone content
            ⟨environment.effectiveMaximum maximum⟩ path).isOk)
          files.length)
  status_eq_zero_iff : outcome.status = 0 ↔ ∀ path ∈ files,
    (compileAlone content ⟨environment.effectiveMaximum maximum⟩ path).isOk
  status_le_one : outcome.status ≤ 1

theorem runProgram_combinesFiles
    (content : Path → Except FileFault (List UInt8))
    (environment : Environment) (files : List Path) {maximum : Option UInt64}
    (positive : maximum ≠ some 0) :
    (runProgram content environment (some (.compile files maximum))).CombinesFiles
      content environment files maximum := by
  unfold runProgram
  simp only [Workplace.run, if_neg positive, Outcome.append,
    Workplace.compileFiles_eq, Settings.optionsWith_load]
  refine ⟨String.empty_append, rfl, ?_, ?_⟩
  · simp
  · dsimp only
    split <;> simp

/-- The output and the exit status of a compile command depend on nothing in the
environment but the maximum for unbounded sequences. -/
theorem runProgram_congr_environment
    (content : Path → Except FileFault (List UInt8)) (files : List Path)
    (maximum : Option UInt64) {environment environment' : Environment}
    (same : environment'.value .unboundedMaximum =
      environment.value .unboundedMaximum) :
    (runProgram content environment' (some (.compile files maximum))).output =
        (runProgram content environment (some (.compile files maximum))).output ∧
      (runProgram content environment' (some (.compile files maximum))).status =
        (runProgram content environment
          (some (.compile files maximum))).status := by
  have sameOptions : (Settings.load environment').optionsWith maximum =
      (Settings.load environment).optionsWith maximum := by
    simp only [Settings.optionsWith_load, Environment.effectiveMaximum,
      Environment.text?, same]
  unfold runProgram
  simp only [Workplace.run, Outcome.append, sameOptions]
  by_cases zero : maximum = some 0
  · simp only [if_pos zero, and_self]
  · simp only [if_neg zero, Workplace.compileFiles_eq, and_self]

/-- The compile command combines what its files give when each is compiled by
itself, in the order of the command line.  A maximum of zero is refused without a
look at any file. -/
theorem compile_command_combines_files
    (content : Path → Except FileFault (List UInt8))
    (environment : Environment) {files : List Path} (someFile : files ≠ [])
    (noEmpty : [] ∉ files) (maximum : Option UInt64) :
    Command.read (compileLine maximum (Utf8.encode "--" :: files)) =
        some (.compile files maximum) ∧
      ((∀ path ∈ files, Arguments.isOption path = false) →
        Command.read (compileLine maximum files) =
          some (.compile files maximum)) ∧
      ∀ arguments, Command.read arguments = some (.compile files maximum) →
        let outcome := runProgram content environment (Command.read arguments)
        (maximum ≠ some 0 →
          outcome.CombinesFiles content environment files maximum) ∧
        (maximum = some 0 → outcome.status = 1 ∧ outcome.output = "" ∧
          ∀ content', runProgram content' environment
            (Command.read arguments) = outcome) ∧
        ∀ environment' : Environment,
          environment'.value .unboundedMaximum =
              environment.value .unboundedMaximum →
            let outcome' :=
              runProgram content environment' (Command.read arguments)
            outcome'.output = outcome.output ∧
              outcome'.status = outcome.status := by
  refine ⟨Command.read_compileLine maximum someFile noEmpty
      (Arguments.read_hyphens files),
    fun plain => Command.read_compileLine maximum someFile noEmpty
      (Arguments.read_operands plain), fun arguments given => ?_⟩
  rw [given]
  refine ⟨runProgram_combinesFiles content environment files, ?_,
    fun environment' => runProgram_congr_environment content files maximum⟩
  rintro rfl
  exact ⟨rfl, rfl, fun content' => rfl⟩

/-- A folder with one file, which compiles. -/
def oneFile : Folder :=
  .ofPaths [(Utf8.encode "a.json",
    .file (Utf8.encode "\x7b\"name\":\"A\"\x7d"))]

/-- Two names of the file, with a name of no file between them. -/
def threeNames : List Path :=
  [Utf8.encode "a.json", Utf8.encode "b", Utf8.encode "./a.json"]

theorem compileAlone_oneFile (path : Path)
    (found : oneFile.read path =
      .ok (Utf8.encode "\x7b\"name\":\"A\"\x7d"))
    (form : FileForm.ofPath path = .json) :
    compileAlone oneFile.read ⟨128⟩ path =
      .ok "v1\x7b(type=dds_::A_,member=0)" := by
  have decoded : Utf8.decode (Utf8.encode "\x7b\"name\":\"A\"\x7d") =
      .ok "\x7b\"name\":\"A\"\x7d" := by decide +kernel
  have read : Json.readSpec "\x7b\"name\":\"A\"\x7d" =
      .ok (.mk ⟨⟨"", "A"⟩, []⟩) := rfl
  have compiled : ((MessageSpec.mk ⟨⟨"", "A"⟩, []⟩).tryCompile ⟨128⟩).outcome =
      .ok "v1\x7b(type=dds_::A_,member=0)" := by cbv
  simp only [compileAlone, loadSpec, found, decoded, form, FileForm.readSpec,
    read, Except.mapError, compiled]

/-- A file that is missing leaves the two names of another one alone. -/
theorem compile_command_combines_files_threeNames :
    threeNames ≠ [] ∧ [] ∉ threeNames ∧
      (∀ path ∈ threeNames, Arguments.isOption path = false) ∧
      let outcome := runProgram oneFile.read .empty
        (Command.read (compileLine none threeNames))
      outcome.status = 1 ∧
        outcome.output = "a.json: v1\x7b(type=dds_::A_,member=0)\n" ++
          "./a.json: v1\x7b(type=dds_::A_,member=0)\n" := by
  have someFile : threeNames ≠ [] := List.cons_ne_nil _ _
  have noEmpty : [] ∉ threeNames := by decide
  have plain : ∀ path ∈ threeNames, Arguments.isOption path = false := by decide
  obtain ⟨-, read, combines⟩ := compile_command_combines_files oneFile.read .empty
    someFile noEmpty none
  obtain ⟨combined, -⟩ := combines _ (read plain)
  obtain ⟨output, -, status, atMostOne⟩ := combined nofun
  have first := compileAlone_oneFile (Utf8.encode "a.json")
    (by decide) (by decide)
  have second : compileAlone oneFile.read ⟨128⟩ (Utf8.encode "b") =
      .error "descriptor file: b: No such file or directory (os error 2)" := by
    have missing : oneFile.read (Utf8.encode "b") = .error .missing := by decide
    simp only [compileAlone, loadSpec, missing]
    decide +kernel
  have third := compileAlone_oneFile (Utf8.encode "./a.json")
    (by decide) (by decide)
  have maximum : Environment.empty.effectiveMaximum none = 128 := rfl
  rw [maximum] at output status
  refine ⟨someFile, noEmpty, plain, ?_, ?_⟩
  · refine Nat.le_antisymm atMostOne (Nat.pos_of_ne_zero fun succeeds => ?_)
    have compiles := status.mp succeeds (Utf8.encode "b") (by decide)
    rw [second] at compiles
    exact Bool.false_ne_true compiles
  · rw [output]
    have shownFirst : Utf8.decodeLossy (Utf8.encode "a.json") = "a.json" := by
      decide +kernel
    have shownThird : Utf8.decodeLossy (Utf8.encode "./a.json") = "./a.json" := by
      decide +kernel
    simp only [threeNames, List.map_cons, List.map_nil, first, second, third,
      resultLine, shownFirst, shownThird, String.join_cons, String.join_nil,
      String.empty_append, String.append_empty]
    rfl

end Runs

end Metastring
