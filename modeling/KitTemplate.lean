import KitTemplate.Command.Pipeline
import KitTemplate.Main
import KitTemplate.Settings.Local
import KitTemplate.Proofs.Expansion.Variables
import KitTemplate.Proofs.Compilation.Location
import KitTemplate.Proofs.FileTree.Growth
import KitTemplate.Proofs.Charset.Repertoire
import KitTemplate.Proofs.Expansion.Characters
import KitTemplate.Proofs.Compilation.Writing
import KitTemplate.Proofs.Compilation.Atomicity
import KitTemplate.Proofs.FileTree.Within
import KitTemplate.Proofs.Compilation.Effect
import KitTemplate.Proofs.Site.Frame
import KitTemplate.Proofs.Site.Guard
import KitTemplate.Proofs.Compilation.Escape
import KitTemplate.Proofs.Charset.Roundtrip
import KitTemplate.Proofs.Source.Ordinary
import KitTemplate.Proofs.Compilation.Copying
import KitTemplate.Proofs.Compilation.Overwriting
import KitTemplate.Proofs.Source.Comment
import KitTemplate.Proofs.Site.Pages
import KitTemplate.Proofs.Site.Report
import KitTemplate.Proofs.Compilation.Persistence
import KitTemplate.Proofs.Site.Accounting
import KitTemplate.Proofs.Source.Opening
import KitTemplate.Proofs.Source.Resumption
import KitTemplate.Proofs.Expansion.Displacement
import KitTemplate.Proofs.Expansion.Decomposition
import KitTemplate.Proofs.Expansion.Independence
import KitTemplate.Proofs.Import.Folders
import KitTemplate.Proofs.Expansion.Ancestry
import KitTemplate.Proofs.Command.Verbosity
import KitTemplate.Proofs.Site.Clean
import KitTemplate.Proofs.Source.Reading
import KitTemplate.Proofs.Expansion.Store
import KitTemplate.Proofs.Expansion.Assignment
import KitTemplate.Proofs.Expansion.Layout
import KitTemplate.Proofs.Text.LetterCase
import KitTemplate.Proofs.Import.Entry
import KitTemplate.Proofs.Expansion.ImportList
import KitTemplate.Proofs.Expansion.Tagging
import KitTemplate.Proofs.Site.Date
import KitTemplate.Proofs.Site.Collection
import KitTemplate.Proofs.Text.Pattern
import KitTemplate.Proofs.Text.Words
import KitTemplate.Proofs.Site.Title
import KitTemplate.Proofs.Compilation.Rereading
import KitTemplate.Proofs.Source.LineCount
import KitTemplate.Proofs.Source.Segmentation
import KitTemplate.Proofs.Import.Respelling
import KitTemplate.Proofs.Registry
