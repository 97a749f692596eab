/-! The running commentary: records of what is being done, each with a level
and the part of the program that it comes from. -/
namespace ArithAsm

/-- How much a record matters. -/
inductive Level where
  | error
  | warn
  | info
  | debug
  | trace
deriving DecidableEq, Repr

namespace Level

/-- Zero for the most severe level, more for every level below it. -/
def rank : Level → Nat
  | error => 0
  | warn => 1
  | info => 2
  | debug => 3
  | trace => 4

/-- The level as a record shows it. -/
def label : Level → String
  | error => "ERROR"
  | warn => "WARN"
  | info => "INFO"
  | debug => "DEBUG"
  | trace => "TRACE"

/-- The least severe level to be shown, for a number of requests for more. -/
def ofVerbosity : Nat → Level
  | 0 => error
  | 1 => warn
  | 2 => info
  | 3 => debug
  | _ => trace

end Level

/-- The part of the program that makes a record. -/
inductive Origin where
  | command
  | reader
  | emitter
  | compiler
  | source
  | simulator
  | toolchain
deriving DecidableEq, Repr

/-- The part's name as a record shows it. -/
def Origin.label : Origin → String
  | command => "krisp"
  | reader => "krisp::compiler::parser"
  | emitter => "krisp::compiler::codegen"
  | compiler => "krisp::compiler"
  | source => "krisp::source"
  | simulator => "krisp::simulator"
  | toolchain => "krisp::toolchain"

/-- One entry of the commentary. -/
structure Record where
  level : Level
  origin : Origin
  message : String
deriving DecidableEq, Repr

/-- Whether the record is shown when `least` is the least severe level shown. -/
def Record.shownAt (record : Record) (least : Level) : Bool :=
  record.level.rank ≤ least.rank

/-- The record as it is printed. -/
def Record.text (record : Record) : String :=
  s!"[{record.origin.label}][{record.level.label}] {record.message}"

/-- The records, in order, that are shown when `least` is the least severe
level shown. -/
def shownRecords (least : Level) (records : List Record) : List Record :=
  records.filter (·.shownAt least)

end ArithAsm
