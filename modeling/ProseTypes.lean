import ProseTypes.Main
import ProseTypes.Proofs.Compilation.Consistency
import ProseTypes.Proofs.Compilation.Ends
import ProseTypes.Proofs.Compilation.History
import ProseTypes.Proofs.Document.Coverage
import ProseTypes.Proofs.Document.Descent
import ProseTypes.Proofs.Compilation.Origins
import ProseTypes.Proofs.Compilation.Order
import ProseTypes.Proofs.Compilation.LinkedOnly
import ProseTypes.Proofs.TypeTree.Meaning
import ProseTypes.Proofs.Declaration.Reader
import ProseTypes.Proofs.Declaration.Roundtrip
import ProseTypes.Proofs.Compilation.Declarations
import ProseTypes.Proofs.Rendering.Modules
import ProseTypes.Proofs.Registry.Growth
import ProseTypes.Proofs.Compilation.Session
import ProseTypes.Proofs.Compilation.Provenance
import ProseTypes.Proofs.Compilation.Takings
import ProseTypes.Proofs.Compilation.Ledger
import ProseTypes.Proofs.Compilation.SharedTables
import ProseTypes.Proofs.Module.Steps
import ProseTypes.Proofs.Compilation.Requests
import ProseTypes.Proofs.Compilation.Complete
import ProseTypes.Proofs.Phrase.Linkless
import ProseTypes.Proofs.Phrase.Trailing
import ProseTypes.Proofs.Module.Specifier
import ProseTypes.Proofs.Document.FirstMatch
import ProseTypes.Proofs.Document.Locality
import ProseTypes.Proofs.Document.Columns
import ProseTypes.Proofs.Document.Levels
import ProseTypes.Proofs.Document.Chunks
import ProseTypes.Proofs.Document.TextBlocks
import ProseTypes.Proofs.Document.NormalForm
import ProseTypes.Proofs.Document.Rows
import ProseTypes.Proofs.Phrase.Printing
import ProseTypes.Proofs.Request.Template
import ProseTypes.Proofs.Request.Response
import ProseTypes.Proofs.FileTree.Spelling
import ProseTypes.Proofs.TypeTree.Refs
import ProseTypes.Proofs.CommandLine.Delivery
import ProseTypes.Proofs.CommandLine.ModuleFiles
import ProseTypes.Proofs.CommandLine.Run
import ProseTypes.Proofs.Structure.Marks
