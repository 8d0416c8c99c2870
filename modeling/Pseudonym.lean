import Pseudonym.Command.Arguments
import Pseudonym.Command.Directory
import Pseudonym.Command.Host
import Pseudonym.Command.LogFormat
import Pseudonym.Command.Path
import Pseudonym.Command.Run
import Pseudonym.Command.Settings
import Pseudonym.Glob.Basic
import Pseudonym.Glob.Lexeme
import Pseudonym.Glob.Matching
import Pseudonym.Glob.Parse
import Pseudonym.Json.Basic
import Pseudonym.Json.Printer
import Pseudonym.Json.Quoted
import Pseudonym.Json.Reader
import Pseudonym.Json.Token
import Pseudonym.Json.Tree
import Pseudonym.Main
import Pseudonym.Misuse
import Pseudonym.Model.Arena
import Pseudonym.Model.Basic
import Pseudonym.Model.File
import Pseudonym.Name.Fold
import Pseudonym.Name.Sequence
import Pseudonym.Name.Short
import Pseudonym.Name.Syntax
import Pseudonym.Name.WordList
import Pseudonym.Naming.Namespaces
import Pseudonym.Naming.Registry
import Pseudonym.Naming.Scopes
import Pseudonym.Naming.Seeding
import Pseudonym.Naming.Types
import Pseudonym.Proofs.Model.Growth
import Pseudonym.Proofs.Name.Draws
import Pseudonym.Proofs.Name.Folds
import Pseudonym.Proofs.Name.Numbering
import Pseudonym.Proofs.Name.Prefixes
import Pseudonym.Proofs.Naming.Extension
import Pseudonym.Proofs.Naming.Forms
import Pseudonym.Proofs.Naming.FreshNames
import Pseudonym.Proofs.Naming.Seeding
import Pseudonym.Proofs.Naming.Steps
import Pseudonym.Proofs.NestedNames
import Pseudonym.Proofs.Renaming.Chain
import Pseudonym.Proofs.Renaming.Pass
import Pseudonym.Proofs.Renaming.Requests
import Pseudonym.Proofs.Renaming.Types
import Pseudonym.Proofs.RetainedNamespaces
import Pseudonym.Proofs.SettledNamespaces
import Pseudonym.Proofs.UniqueNames
import Pseudonym.Renaming.Enclosing
import Pseudonym.Renaming.Mapping
import Pseudonym.Renaming.Members
import Pseudonym.Renaming.Metadata
import Pseudonym.Renaming.Pass
import Pseudonym.Renaming.Types
import Pseudonym.Retention.Pattern
import Pseudonym.Retention.Rules
import Pseudonym.Text.Lines
import Pseudonym.Text.Lowercase
import Pseudonym.Unicode.Alphabetic
import Pseudonym.Unicode.Cased
import Pseudonym.Unicode.Lowercase
import Pseudonym.Unicode.Numeric
import Pseudonym.Unicode.Stretch
import Pseudonym.Unicode.Uppercase
import Pseudonym.Unicode.WhiteSpace
import Pseudonym.Proofs.Renaming.Creations
import Pseudonym.Proofs.CreatedNamespaces
import Pseudonym.Proofs.SteadyNamespaces
import Pseudonym.Proofs.Naming.Rewinding
import Pseudonym.Proofs.SequencePositions
import Pseudonym.Proofs.Renaming.Outside
import Pseudonym.Proofs.RepackagedNamespaces
import Pseudonym.Proofs.RecordedNamespaces
import Pseudonym.Proofs.KeptNamespaces
import Pseudonym.Proofs.Naming.Loops
import Pseudonym.Proofs.Renaming.Phases
import Pseudonym.Proofs.PassEnds
import Pseudonym.Proofs.Renaming.Outcome
import Pseudonym.Proofs.Model.Arena
import Pseudonym.Proofs.Json.Tokens
import Pseudonym.Proofs.Json.Reading
import Pseudonym.Proofs.Model.File
import Pseudonym.Proofs.RepeatedPasses
import Pseudonym.Proofs.Renaming.NamingOrder
import Pseudonym.Proofs.Renaming.Actions
import Pseudonym.Proofs.Renaming.Performing
import Pseudonym.Proofs.WrittenNames
import Pseudonym.Proofs.Renaming.Embedding
import Pseudonym.Proofs.AppendedTypes
import Pseudonym.Proofs.LayoutIndependence
import Pseudonym.Proofs.MappingText
import Pseudonym.Proofs.Renaming.Unseen
import Pseudonym.Proofs.SeparatePhases
import Pseudonym.Proofs.CaseOfNamespaces
import Pseudonym.Proofs.MemberNames
import Pseudonym.Proofs.CaseFolding
import Pseudonym.Proofs.Glob.Languages
import Pseudonym.Proofs.Glob.Reading
import Pseudonym.Proofs.Retention.Expansion
import Pseudonym.Proofs.Retention.Description
import Pseudonym.Proofs.DoubleStars
import Pseudonym.Proofs.IdleRecords
import Pseudonym.Proofs.RecursiveNaming
import Pseudonym.Proofs.MetadataNames
import Pseudonym.Proofs.ScopeNames
import Pseudonym.Proofs.IdentifierTexts
import Pseudonym.Proofs.ShortNames
import Pseudonym.Proofs.ByteOrder
import Pseudonym.Proofs.Model.History
import Pseudonym.Proofs.MappingLookup
import Pseudonym.Proofs.FactorySequences
import Pseudonym.Proofs.QualifiedNames
import Pseudonym.Proofs.RetentionLists
import Pseudonym.Proofs.Model.Index
import Pseudonym.Proofs.Model.Filing
import Pseudonym.Proofs.ModelIntegrity
