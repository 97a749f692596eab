import ArithAsm.Text.Utf8

/-! What the arguments of a command ask for. Arguments are byte strings and need not
be texts. The command word may have flags in
front of it and has its own options and one input behind it. Short flags can be
joined, a short option takes its value joined or as the next argument, a long
option behind `=` or as the next argument, and `--` ends the options. -/
namespace ArithAsm

/-- What to do with the input. -/
inductive Mode where
  | simulate
  | compile
deriving DecidableEq, Repr

/-- The command word for a mode. -/
def Mode.word : Mode → String
  | simulate => "sim"
  | compile => "comp"

/-- The mode that a command word stands for. -/
def Mode.ofWord? (word : Bytes) : Option Mode :=
  [Mode.simulate, Mode.compile].find? (Utf8.encode ·.word == word)

/-- Options without a value. -/
inductive Flag where
  | assemblyOnly
  | showTokens
  | showLines
  | verbose
deriving DecidableEq, Repr

/-- Options with a value. -/
inductive Setting where
  | output
  | maxSize
deriving DecidableEq, Repr

/-- Something that the arguments hold. -/
inductive Item where
  | input (value : Bytes)
  | flag (flag : Flag)
  /-- The value is missing when the next argument cannot be one. -/
  | setting (setting : Setting) (value : Option Bytes)
deriving DecidableEq, Repr

/-- Why the arguments lead to no run. The mode is the one whose version or help
is asked for, if a command word came before. -/
inductive Stop where
  | usage
  | version (mode : Option Mode)
  | help (mode : Option Mode)
  /-- An argument that a notice is to show is no text. -/
  | notText
deriving DecidableEq, Repr

/-- The word that asks for help, in the place of a command word. -/
def helpWord : Bytes := Utf8.encode "help"

/-- The argument that ends the options. -/
def endOfOptions : Bytes := Utf8.encode "--"

/-- What asking for help about `topics` comes to. There is help about the command
as a whole, about each mode and about the asking itself; an option is no topic. -/
def Stop.ofHelp : List Bytes → Stop
  | [] => .help none
  | [topic] =>
    match Mode.ofWord? topic with
    | some mode => .help (some mode)
    | none => if topic = helpWord then .help none else .usage
  | _ => .usage

/-- What a long option that is unknown comes to. Its name and the arguments after
it are looked at as texts. -/
def Stop.ofUnknown (name : Bytes) (rest : List Bytes) : Stop :=
  if (name :: rest).all Utf8.isText then .usage else .notText

/-! ## Options by name -/

/-- The flag behind a short name. In front of the command word there is only
`-v`. -/
def Flag.ofShort? : Option Mode → Char → Option Flag
  | _, 'v' => some .verbose
  | some .compile, 'S' => some .assemblyOnly
  | some .compile, 't' => some .showTokens
  | some .compile, 'd' => some .showLines
  | _, _ => none

/-- The flag behind a long name. -/
def Flag.ofLong? (mode : Option Mode) (name : Bytes) : Option Flag :=
  if mode = some .compile ∧ name = Utf8.encode "tokens" then some .showTokens else none

/-- The setting behind a short name. -/
def Setting.ofShort? : Option Mode → Char → Option Setting
  | some .compile, 'o' => some .output
  | _, _ => none

/-- The setting behind a long name. -/
def Setting.ofLong? (mode : Option Mode) (name : Bytes) : Option Setting :=
  if mode.isSome ∧ name = Utf8.encode "max-size" then some .maxSize else none

/-! ## Arguments one by one -/

/-- What an argument brings: items, and a setting whose value comes next. -/
abbrev Brought := List Item × Option Setting

/-- The items of joined short options. A setting takes the rest for its value,
without equals signs in front of it. Every short name is a single byte, and a byte
of a longer character is none. -/
def readShort (mode : Option Mode) : Bytes → Except Stop Brought
  | [] => .ok ([], none)
  | byte :: rest =>
    let c := Char.ofNat byte.toNat
    match Setting.ofShort? mode c with
    | some setting =>
      if rest.isEmpty then .ok ([], some setting)
      else .ok ([.setting setting (some (rest.dropWhile (· == Byte.equals)))], none)
    | none =>
      match Flag.ofShort? mode c with
      | some flag => (readShort mode rest).map fun (items, next) => (.flag flag :: items, next)
      | none =>
        if c = 'V' then .error (.version mode)
        else if c = 'h' then .error (.help mode)
        else .error .usage

/-- The item of a long option, whose name is what stands before the first equals
sign. A flag has no use for what stands after it. The arguments in `rest` come
after the option. -/
def readLong (mode : Option Mode) (text : Bytes) (rest : List Bytes) : Except Stop Brought :=
  let text := text.dropWhile (· == Byte.dash)
  let name := text.takeWhile (· != Byte.equals)
  match Setting.ofLong? mode name with
  | some setting =>
    if text.contains Byte.equals then
      let value := (text.dropWhile (· != Byte.equals)).dropWhile (· == Byte.equals)
      .ok ([.setting setting (some value)], none)
    else .ok ([], some setting)
  | none =>
    match Flag.ofLong? mode name with
    | some flag => .ok ([.flag flag], none)
    | none =>
      if name = Utf8.encode "version" then .error (.version mode)
      else if name = Utf8.encode "help" then .error (.help mode)
      else .error (.ofUnknown name rest)

/-- What has been gathered from the arguments behind the command word. -/
structure Gathered where
  items : List Item
  /-- A setting whose value is the next argument. -/
  awaited : Option Setting
  /-- Whether `--` has ended the options. -/
  inputsOnly : Bool
deriving DecidableEq, Repr

namespace Gathered

/-- Nothing yet. -/
def start : Gathered :=
  ⟨[], none, false⟩

/-- A setting that still waits gets no value. -/
def giveUp (gathered : Gathered) : Gathered :=
  match gathered.awaited with
  | none => gathered
  | some setting =>
    { gathered with items := gathered.items ++ [.setting setting none], awaited := none }

/-- Takes in what an option brings. -/
def bring (gathered : Gathered) (brought : Brought) : Gathered :=
  let gathered := gathered.giveUp
  { gathered with items := gathered.items ++ brought.1, awaited := brought.2 }

/-- Takes in the input. There is only one. -/
def addInput (gathered : Gathered) (value : Bytes) : Except Stop Gathered :=
  if gathered.items.any fun item => item matches .input _ then .error .usage
  else .ok { gathered with items := gathered.items ++ [.input value] }

/-- Takes in one argument, after which those in `rest` come. A dash alone is no
option. -/
def step (mode : Mode) (gathered : Gathered) (argument : Bytes) (rest : List Bytes) :
    Except Stop Gathered :=
  if gathered.inputsOnly then gathered.addInput argument
  else if argument = endOfOptions then .ok { gathered.giveUp with inputsOnly := true }
  else
    match argument with
    | 0x2D :: 0x2D :: text => (readLong (some mode) text rest).map gathered.bring
    | 0x2D :: byte :: text => (readShort (some mode) (byte :: text)).map gathered.bring
    | _ =>
      match gathered.awaited with
      | some setting => .ok { gathered with
          items := gathered.items ++ [.setting setting (some argument)], awaited := none }
      | none => gathered.addInput argument

/-- Takes in arguments in order. -/
def steps (mode : Mode) (gathered : Gathered) : List Bytes → Except Stop Gathered
  | [] => .ok gathered.giveUp
  | argument :: rest => (gathered.step mode argument rest).bind (·.steps mode rest)

end Gathered

/-! ## The invocation -/

/-- What is asked for. -/
structure Invocation where
  mode : Mode
  input : Bytes
  output : Option Bytes
  maxSize : Option Bytes
  assemblyOnly : Bool
  showTokens : Bool
  showLines : Bool
  /-- How often more commentary is asked for. -/
  verbosity : Nat
deriving DecidableEq, Repr

/-- How often a flag stands among the items. -/
def flagCount (flag : Flag) (items : List Item) : Nat :=
  items.count (.flag flag)

/-- A flag that may be given once. -/
def oneFlag (flag : Flag) (items : List Item) : Except Stop Bool :=
  match flagCount flag items with
  | 0 => .ok false
  | 1 => .ok true
  | _ => .error .usage

/-- The value of a setting, which may be given once and needs its value. -/
def oneValue (setting : Setting) (items : List Item) : Except Stop (Option Bytes) :=
  let values := items.filterMap fun item =>
    match item with
    | .setting given value => if given = setting then some value else none
    | _ => none
  match values with
  | [] => .ok none
  | [some value] => .ok (some value)
  | _ => .error .usage

/-- The input, which must be given. -/
def theInput (items : List Item) : Except Stop Bytes :=
  let inputs := items.filterMap fun item =>
    match item with
    | .input value => some value
    | _ => none
  match inputs with
  | [input] => .ok input
  | _ => .error .usage

/-- How often a flag that can stand on either side of the command word counts in
front of it and behind it. What is given behind the word counts on both sides, and
what is given in front does if there is nothing behind. -/
def sharedCount (inFront inBehind : Nat) : Nat × Nat :=
  let given := if inBehind = 0 then inFront else inBehind
  (given, given)

namespace Invocation

/-- The invocation that items behind a command word make up, after `verboseBefore`
requests for more commentary in front of it. -/
def ofItems (mode : Mode) (verboseBefore : Nat) (items : List Item) : Except Stop Invocation := do
  let input ← theInput items
  let output ← oneValue .output items
  let maxSize ← oneValue .maxSize items
  let assemblyOnly ← oneFlag .assemblyOnly items
  let showTokens ← oneFlag .showTokens items
  let showLines ← oneFlag .showLines items
  let counts := sharedCount verboseBefore (flagCount .verbose items)
  return {
    mode, input, output, maxSize, assemblyOnly, showTokens, showLines
    verbosity := max counts.2 counts.1 }

/-- How often one argument in front of the command word, after which those in `rest`
come, asks for more commentary. -/
def verboseIn (argument : Bytes) (rest : List Bytes) : Except Stop Nat :=
  if argument = endOfOptions then .error .usage
  else
    match argument with
    | 0x2D :: 0x2D :: text => (readLong none text rest).map fun brought => flagCount .verbose brought.1
    | 0x2D :: byte :: text => (readShort none (byte :: text)).map fun brought => flagCount .verbose brought.1
    | _ => .error .usage

/-- What arguments ask for, after `verbose` requests for more commentary. -/
def ofArgumentsAfter (verbose : Nat) : List Bytes → Except Stop Invocation
  | [] => .error .usage
  | argument :: rest =>
    match Mode.ofWord? argument with
    | some mode =>
      (Gathered.start.steps mode rest).bind fun gathered => ofItems mode verbose gathered.items
    | none =>
      if argument = helpWord then .error (.ofHelp rest)
      else (verboseIn argument rest).bind fun more => ofArgumentsAfter (verbose + more) rest

/-- What the arguments ask for. -/
def ofArguments (arguments : List Bytes) : Except Stop Invocation :=
  ofArgumentsAfter 0 arguments

end Invocation
end ArithAsm
