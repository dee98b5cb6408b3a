import Nameless.CommandLine
import Nameless.Conversion
import Nameless.Definitions
import Nameless.Fault
import Nameless.FileSystem
import Nameless.Identifier
import Nameless.Indexed.Basic
import Nameless.Indexed.Bounded
import Nameless.Indexed.Reduction
import Nameless.Indexed.Substitution
import Nameless.Leaf
import Nameless.Main
import Nameless.Named.Basic
import Nameless.Named.Numeral
import Nameless.Named.Parser
import Nameless.Named.Printer
import Nameless.Pattern.Basic
import Nameless.Pattern.CharSet
import Nameless.Pattern.Escape
import Nameless.Pattern.Fault
import Nameless.Pattern.Match
import Nameless.Pattern.Parser
import Nameless.Pattern.Reader
import Nameless.Program
import Nameless.Proofs.BinderName
import Nameless.Proofs.Bounded
import Nameless.Proofs.Conversion
import Nameless.Proofs.Enumeration
import Nameless.Proofs.Height
import Nameless.Proofs.Identifier
import Nameless.Proofs.Indexed.Beta
import Nameless.Proofs.Indexed.Bounded
import Nameless.Proofs.Indexed.CallByName
import Nameless.Proofs.Indexed.Church
import Nameless.Proofs.Indexed.NormalOrder
import Nameless.Proofs.Indexed.Scoping
import Nameless.Proofs.Indexed.Standardization
import Nameless.Proofs.Indexed.SubstitutionLaws
import Nameless.Proofs.Indexed.UniqueReading
import Nameless.Proofs.Line
import Nameless.Proofs.Mishap
import Nameless.Proofs.Named.Calculus
import Nameless.Proofs.Named.FirstFault
import Nameless.Proofs.Named.FreeVariables
import Nameless.Proofs.Named.Grammar
import Nameless.Proofs.Named.Leaves
import Nameless.Proofs.Named.Locality
import Nameless.Proofs.Named.Offset
import Nameless.Proofs.Named.Place
import Nameless.Proofs.Named.Reading
import Nameless.Proofs.Named.Scope
import Nameless.Proofs.Named.Token
import Nameless.Proofs.Named.WellNamed
import Nameless.Proofs.Numeral
import Nameless.Proofs.Program
import Nameless.Proofs.Reduction
import Nameless.Proofs.Reporter
import Nameless.Proofs.Results
import Nameless.Proofs.RoundTrip
import Nameless.Proofs.Session.Arithmetic
import Nameless.Proofs.Session.Composition
import Nameless.Proofs.Session.Diagnosis
import Nameless.Proofs.Session.Failures
import Nameless.Proofs.Session.Hygiene
import Nameless.Proofs.Session.Independence
import Nameless.Proofs.Session.Intact
import Nameless.Proofs.Session.Loading
import Nameless.Proofs.Session.Notice
import Nameless.Proofs.Session.Operations
import Nameless.Proofs.Session.Reachable
import Nameless.Proofs.Session.Readback
import Nameless.Proofs.Session.Sharing
import Nameless.Proofs.Session.Unknown
import Nameless.Proofs.Shell.Agreement
import Nameless.Proofs.Shell.Entry
import Nameless.Proofs.Shell.Listing
import Nameless.Proofs.Shell.Survival
import Nameless.Proofs.Text.Brace
import Nameless.Proofs.Text.Template
import Nameless.Proofs.Trace
import Nameless.Raw
import Nameless.Report
import Nameless.Reporter
import Nameless.Session.Basic
import Nameless.Session.Evaluate
import Nameless.Session.Line
import Nameless.Session.Load
import Nameless.Shell
import Nameless.Text.Blank
import Nameless.Text.Case
import Nameless.Text.Digit
import Nameless.Text.Layout
import Nameless.Text.Phrase
import Nameless.Text.Printable
import Nameless.Text.Quoted
import Nameless.Text.Slice
import Nameless.Text.Style
import Nameless.Text.Template.Fault
import Nameless.Text.Template.Fill
import Nameless.Text.Template.Piece
import Nameless.Text.Template.Selector
import Nameless.Text.Utf8
import Nameless.Text.Word
