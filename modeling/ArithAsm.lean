import ArithAsm.Assembly.Boilerplate
import ArithAsm.Assembly.Compile
import ArithAsm.Assembly.Emitter
import ArithAsm.Assembly.Line
import ArithAsm.Assembly.Sink
import ArithAsm.Build.Artifacts
import ArithAsm.Build.Toolchain
import ArithAsm.Command.Invocation
import ArithAsm.Command.Limit
import ArithAsm.Command.Output
import ArithAsm.Command.Run
import ArithAsm.Error
import ArithAsm.Form
import ArithAsm.Form.Commentary
import ArithAsm.Form.Read
import ArithAsm.Host.BufferedWriter
import ArithAsm.Host.FileTree
import ArithAsm.Host.Path
import ArithAsm.Host.Status
import ArithAsm.Host.Tool
import ArithAsm.Log
import ArithAsm.Main
import ArithAsm.Simulation
import ArithAsm.Source.Location
import ArithAsm.Source.Reading
import ArithAsm.Source.Span
import ArithAsm.Text.Blank
import ArithAsm.Text.Bytes
import ArithAsm.Text.Grid
import ArithAsm.Text.Printable
import ArithAsm.Text.Quoted
import ArithAsm.Text.Utf8
import ArithAsm.Token
import ArithAsm.Token.Scan
import ArithAsm.Proofs.Machine.Instruction
import ArithAsm.Proofs.Machine.Run
import ArithAsm.Proofs.Processor.Instruction
import ArithAsm.Proofs.Processor.Run
import ArithAsm.Proofs.Feeding
import ArithAsm.Proofs.Emission
import ArithAsm.Proofs.Meaning
import ArithAsm.Proofs.CompiledRun
import ArithAsm.Proofs.Grammar
import ArithAsm.Proofs.Reading.Soundness
import ArithAsm.Proofs.Reading.Completeness
import ArithAsm.Proofs.Reading.Exactness
import ArithAsm.Proofs.Printing
import ArithAsm.Proofs.DumpRoutine.Digits
import ArithAsm.Proofs.DumpRoutine.Frame
import ArithAsm.Proofs.DumpRoutine.Parts
import ArithAsm.Proofs.DumpRoutine
import ArithAsm.Proofs.Placement
import ArithAsm.Proofs.RoundTrip
import ArithAsm.Proofs.Positions
import ArithAsm.Proofs.Reading.Refusal
import ArithAsm.Proofs.Reading.Depth
import ArithAsm.Proofs.Reading.Prospects
import ArithAsm.Proofs.Refusals
import ArithAsm.Proofs.Conservation
import ArithAsm.Proofs.Reading.Likeness
import ArithAsm.Proofs.Spelling
import ArithAsm.Proofs.Slicing
import ArithAsm.Proofs.Tokenization
import ArithAsm.Proofs.Spacing
import ArithAsm.Proofs.TokenStream
import ArithAsm.Proofs.Enclosure
import ArithAsm.Proofs.Reading.Blame
import ArithAsm.Proofs.Concatenation
import ArithAsm.Proofs.Surroundings
import ArithAsm.Proofs.SourceSpans
import ArithAsm.Proofs.Parenthesizing
import ArithAsm.Proofs.FileEffects
import ArithAsm.Proofs.BufferedWriting
import ArithAsm.Proofs.SourceSupply
import ArithAsm.Proofs.Building
import ArithAsm.Proofs.Command.Values
import ArithAsm.Proofs.Command.Course
import ArithAsm.Proofs.Command.InputSafety
import ArithAsm.Proofs.Command.Endings
import ArithAsm.Proofs.Reading.Descent
import ArithAsm.Proofs.Reading.Nesting
import ArithAsm.Proofs.LimitedRoom
import ArithAsm.Proofs.Copying
import ArithAsm.Proofs.BoundedReading
import ArithAsm.Proofs.Path.Parts
import ArithAsm.Proofs.Path.Extension
import ArithAsm.Proofs.Walks
import ArithAsm.Proofs.ArtifactNames
import ArithAsm.Proofs.BuildCourse
import ArithAsm.Proofs.LossyText
import ArithAsm.Proofs.LastPiece
import ArithAsm.Proofs.LeadingNumber
import ArithAsm.Proofs.Command.Verbosity
import ArithAsm.Proofs.Pulling
import ArithAsm.Proofs.SourceLines
