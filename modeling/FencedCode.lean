import FencedCode.FileTree
import FencedCode.Main
import FencedCode.Proofs.Document.LineEnds
import FencedCode.Proofs.Document.Newlines
import FencedCode.Proofs.Language.Opening
import FencedCode.Proofs.Output.Drawing
import FencedCode.Proofs.Output.Encoding
import FencedCode.Proofs.Output.JsonReading
import FencedCode.Proofs.Output.Limits
import FencedCode.Proofs.Scan.Concatenation
import FencedCode.Proofs.Scan.Endings
import FencedCode.Proofs.Scan.Layout
import FencedCode.Proofs.Scan.Openers
import FencedCode.Proofs.Scan.Restart
import FencedCode.Proofs.Scan.Trace
import FencedCode.Proofs.Text.Reading
import FencedCode.Proofs.Text.Terminated
import FencedCode.Proofs.Text.Written
import FencedCode.Proofs.Output.JsonLines
import FencedCode.Proofs.Output.Records
import FencedCode.Proofs.CommandLine.Refinement
import FencedCode.Proofs.Scan.Accounting
import FencedCode.Proofs.Scan.Calls
import FencedCode.Proofs.Toml.DistinctKeys
import FencedCode.Proofs.Config.Settings
import FencedCode.Proofs.Config.Acceptance
import FencedCode.Proofs.CommandLine.Diagnostics
import FencedCode.Proofs.Text.LetterCase
import FencedCode.Proofs.Language.Grammar
import FencedCode.Proofs.Language.TagSets
import FencedCode.Proofs.Scan.Resumption
import FencedCode.Proofs.Config.Validity
import FencedCode.Proofs.CommandLine.ScanStart
import FencedCode.Proofs.Language.Markers
import FencedCode.Proofs.Scan.Renumbering
import FencedCode.Proofs.Scan.Edits
import FencedCode.Proofs.Scan.Remarks
import FencedCode.Proofs.Output.LazyWriting
import FencedCode.Proofs.Output.RecordReading
import FencedCode.Proofs.Text.Trimming
import FencedCode.Proofs.Block.Words
import FencedCode.Proofs.Document.NormalForm
import FencedCode.Proofs.Toml.Strings
import FencedCode.Proofs.Toml.Assignments
import FencedCode.Proofs.Config.Layout
import FencedCode.Proofs.Config.FirstFault
import FencedCode.Proofs.Config.UselessTags
import FencedCode.Proofs.Output.FullDevice
import FencedCode.Proofs.CommandLine.FullOutput
import FencedCode.Proofs.CommandLine.Arrangements
import FencedCode.Proofs.CommandLine.Logging
