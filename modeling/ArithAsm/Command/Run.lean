import ArithAsm.Assembly.Compile
import ArithAsm.Build.Toolchain
import ArithAsm.Command.Invocation
import ArithAsm.Command.Limit
import ArithAsm.Command.Output
import ArithAsm.Simulation
import ArithAsm.Text.Grid

/-! A run of the command, from its arguments to what it prints, the files it
leaves and its exit code. -/
namespace ArithAsm

/-- How a run ends. -/
inductive Ending where
  | exited (code : Nat)
  /-- The arguments lead to no run; a notice about them is printed. -/
  | refused (code : Nat)
  | aborted (abort : Abort)
deriving DecidableEq, Repr

/-- Everything that can be seen of a run. -/
structure Outcome where
  ending : Ending
  stdout : String
  /-- The records that are shown, in order. -/
  records : List Record
  tree : FileTree
  calls : List Call

/-- A command that went its way: what it printed and what it did. -/
structure Session where
  stdout : String
  effect : Effect Unit

/-- A session that changed nothing. -/
def Session.idle (host : Host) (stdout : String) (records : List Record)
    (result : Except Error Unit) : Session :=
  ⟨stdout, ⟨host.tree, [], records, result⟩⟩

/-! ## Displays -/

/-- The tokens of a source, with their spans and texts in columns. -/
def tokenGrid (source : Bytes) : String :=
  Text.grid ((tokens source).map fun token =>
    [s!"{token.start}..{token.stop}", token.lexeme.label, token.lexeme.text])

/-- The number of a line: at least four upper-case hexadecimal digits. -/
def lineNumber (index : Nat) : String :=
  let digits := (Nat.toDigits 16 index).map Char.toUpper
  String.ofList ("0x".toList ++ List.replicate (4 - digits.length) '0' ++ digits ++ [':'])

/-- The lines of a listing, numbered from zero, in columns. -/
def lineGrid (listing : Listing) : String :=
  Text.grid (listing.lines.toList.zipIdx.map fun (line, index) =>
    [lineNumber index, String.ofList (Text.trimBlanks line.toList)])

/-! ## The two commands -/

/-- The text of an argument's value. There is no going on without one. -/
def textOf (value : Bytes) : Except Abort String :=
  (Utf8.decode? value).elim (.error .notText) .ok

namespace Invocation

/-- The path of the input. -/
def inputPath (invocation : Invocation) : Path :=
  invocation.input

/-- The path that the assembly goes to, `output.asm` unless another is given. -/
def outputPath (invocation : Invocation) : Path :=
  invocation.output.getD (Utf8.encode "output.asm")

/-- The paths that are given. They are asked for as texts. -/
def givenPaths (invocation : Invocation) : List Bytes :=
  match invocation.mode with
  | .simulate => [invocation.input]
  | .compile => invocation.input :: invocation.output.toList

/-- The largest source accepted. It is asked for as a text if it is given. -/
def limit (invocation : Invocation) : Except Abort (Except LimitError UInt64) :=
  match invocation.maxSize with
  | none => .ok (.ok defaultLimit)
  | some value => (textOf value).map readLimit

/-- The records that are shown at the verbosity asked for. -/
def shown (invocation : Invocation) (records : List Record) : List Record :=
  shownRecords (Level.ofVerbosity invocation.verbosity) records

/-- What a compilation records about its arguments. -/
def openingRecords (invocation : Invocation) : List Record :=
  match invocation.mode with
  | .simulate => []
  | .compile =>
    let lines :=
      ["Arguments:",
       s!"\tInfile: {Utf8.lossy invocation.inputPath}",
       s!"\tOutfile: {Utf8.lossy invocation.outputPath}",
       s!"\tAssembly only: {invocation.assemblyOnly}",
       s!"\tPrint tokens: {invocation.showTokens}",
       s!"\tPrint debug: {invocation.showLines}"]
    [⟨.debug, .command, "\n".intercalate lines⟩]

/-- Simulates a source that has been read. -/
def simulateSource (host : Host) (source : Bytes) : Session :=
  let simulation := Simulation.of source
  Session.idle host
    s!"{simulation.text}:{simulation.length}\nReturning with value {simulation.value}\n"
    [simulation.record] (.ok ())

/-- Compiles a source that has been read. The assembly is complete in memory
before the output file is touched. -/
def compileSource (invocation : Invocation) (host : Host) (source : Bytes) : Session :=
  let tokenText := if invocation.showTokens then tokenGrid source else ""
  let compilation := compile Listing.sink .empty source
  match compilation.result with
  | .error error => Session.idle host tokenText compilation.records (.error error)
  | .ok core =>
    let stdout := tokenText ++ if invocation.showLines then lineGrid core else ""
    let path := invocation.outputPath
    match host.writeListing path compilation.state with
    | (tree, some cause) =>
      ⟨stdout, ⟨tree, [], compilation.records, .error (.writeOutput path cause)⟩⟩
    | (tree, none) =>
      let records := compilation.records ++ [⟨.info, .command, s!"wrote `{Utf8.lossy path}`"⟩]
      if invocation.assemblyOnly then ⟨stdout, ⟨tree, [], records, .ok ()⟩⟩
      else
        let built := Toolchain.standard.build { host with tree } (Artifacts.ofAssembly path)
        ⟨stdout, { built with records := records ++ built.records }⟩

/-- Carries out the command on a source that has been read. -/
def process (invocation : Invocation) (host : Host) (source : Bytes) : Session :=
  match invocation.mode with
  | .simulate => simulateSource host source
  | .compile => invocation.compileSource host source

/-- Reads the source and carries out the command. -/
def perform (invocation : Invocation) (host : Host) (limit : UInt64) : Except Abort Session :=
  (readSource host.tree invocation.inputPath limit).map fun (records, result) =>
    match result with
    | .error error => Session.idle host "" records (.error error)
    | .ok source =>
      let session := invocation.process host source
      { session with effect := { session.effect with records := records ++ session.effect.records } }

end Invocation

/-! ## The run -/

/-- The record that a run gives up, and why. -/
def fatalRecord (reason : String) : Record :=
  ⟨.error, .command, s!"fatal: {reason}"⟩

/-- What is printed when the version is asked for. Only the command as a whole
has a version number. -/
def versionText : Option Mode → String
  | none => "krisp 0.1.0\n"
  | some mode => s!"krisp-{mode.word} \n"

/-- The outcome when the arguments lead to no run. -/
def Stop.outcome (stop : Stop) (host : Host) : Outcome :=
  match stop with
  | .usage => ⟨.refused 1, "", [], host.tree, []⟩
  | .help _ => ⟨.refused 0, "", [], host.tree, []⟩
  | .version mode => ⟨.exited 0, versionText mode, [], host.tree, []⟩
  | .notText => ⟨.aborted .notText, "", [], host.tree, []⟩

/-- The outcome of an invocation whose values are texts, with the limit that these give. -/
def Invocation.runWithin (invocation : Invocation) (host : Host) :
    Except LimitError UInt64 → Outcome
  | .error cause =>
    let fatal := fatalRecord s!"invalid --max-size: {cause.message}"
    ⟨.exited 1, "", invocation.shown (invocation.openingRecords ++ [fatal]), host.tree, []⟩
  | .ok limit =>
    match invocation.perform host limit with
    | .error abort => ⟨.aborted abort, "", invocation.shown invocation.openingRecords, host.tree, []⟩
    | .ok session =>
      let records := invocation.openingRecords ++ session.effect.records
      match session.effect.result with
      | .ok () =>
        ⟨.exited 0, session.stdout, invocation.shown records, session.effect.tree,
          session.effect.calls⟩
      | .error error =>
        ⟨.exited 1, session.stdout, invocation.shown (records ++ [fatalRecord error.message]),
          session.effect.tree, session.effect.calls⟩

/-- The outcome of an invocation. The paths are asked for before anything is recorded, and the
limit when a record has been made of them. -/
def Invocation.run (invocation : Invocation) (host : Host) : Outcome :=
  match invocation.givenPaths.mapM textOf with
  | .error abort => ⟨.aborted abort, "", [], host.tree, []⟩
  | .ok _ =>
    match invocation.limit with
    | .error abort => ⟨.aborted abort, "", invocation.shown invocation.openingRecords, host.tree, []⟩
    | .ok limit => invocation.runWithin host limit

/-- Runs the command with arguments. -/
def run (host : Host) (arguments : List Bytes) : Outcome :=
  match Invocation.ofArguments arguments with
  | .error stop => stop.outcome host
  | .ok invocation => invocation.run host

end ArithAsm
