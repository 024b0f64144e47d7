import Photoplot.Main
import Photoplot.Progress
import Photoplot.Proofs.Command.Grammar
import Photoplot.Proofs.Command.Progress
import Photoplot.Proofs.Command.Spelling
import Photoplot.Proofs.CommandLine.Failures
import Photoplot.Proofs.CommandLine.Options
import Photoplot.Proofs.CommandLine.Separately
import Photoplot.Proofs.CommandLine.Together
import Photoplot.Proofs.Configuration.Settings
import Photoplot.Proofs.Conversion.Aborted
import Photoplot.Proofs.Conversion.Concatenation
import Photoplot.Proofs.Conversion.Inputs
import Photoplot.Proofs.Conversion.Numbers
import Photoplot.Proofs.Interpreter.Conservation
import Photoplot.Proofs.Interpreter.Diagnostics
import Photoplot.Proofs.Interpreter.Ending
import Photoplot.Proofs.Interpreter.Independence
import Photoplot.Proofs.Interpreter.Session
import Photoplot.Proofs.Interpreter.Timeline
import Photoplot.Proofs.Interpreter.ToolState
import Photoplot.Proofs.Script.Attachment
import Photoplot.Proofs.Script.Decoding
import Photoplot.Proofs.Script.Trailer
