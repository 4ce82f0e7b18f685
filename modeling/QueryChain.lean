import QueryChain.Connection.Logged
import QueryChain.Connection.Recorder
import QueryChain.Postgres.Rehearsal
import QueryChain.Query.Run
import QueryChain.Records.Selection
import QueryChain.Settings.Document
import QueryChain.Settings.Environment
import QueryChain.Sqlite.Statement
import QueryChain.Sqlite.Store
import QueryChain.Table
import QueryChain.Proofs.Chain
import QueryChain.Proofs.Scanning
import QueryChain.Proofs.Sections
import QueryChain.Proofs.Trimming
import QueryChain.Proofs.Places
import QueryChain.Proofs.Alignment
import QueryChain.Proofs.Pieces
import QueryChain.Proofs.Target
import QueryChain.Proofs.Levels
import QueryChain.Proofs.TableQuery
import QueryChain.Proofs.Insertion
import QueryChain.Proofs.Composition
import QueryChain.Proofs.Guarding
import QueryChain.Proofs.Naming
import QueryChain.Proofs.Endings
import QueryChain.Proofs.Shapes
import QueryChain.Proofs.Landing
import QueryChain.Proofs.Windows
import QueryChain.Proofs.Paging
import QueryChain.Proofs.Truth
import QueryChain.Proofs.Agreement
import QueryChain.Proofs.Silence
import QueryChain.Proofs.Layout
import QueryChain.Proofs.Reopening
import QueryChain.Proofs.Refusal
import QueryChain.Proofs.Transcript
import QueryChain.Proofs.Writing
import QueryChain.Proofs.Uniqueness
import QueryChain.Proofs.Numerals
import QueryChain.Proofs.JsonGrammar
import QueryChain.Proofs.JsonText
import QueryChain.Proofs.Storage
import QueryChain.Proofs.Conversion
import QueryChain.Proofs.StoredArrays
import QueryChain.Proofs.Interleaving
import QueryChain.Proofs.Transparency
import QueryChain.Proofs.Acceptance
import QueryChain.Proofs.Bindings
import QueryChain.Proofs.Representations
import QueryChain.Proofs.IntegerColumns
import QueryChain.Proofs.Wildcards
import QueryChain.Proofs.Sorting
import QueryChain.Proofs.Shares
import QueryChain.Proofs.Addressing
import QueryChain.Proofs.Sources
import QueryChain.Proofs.Ambiguity
import QueryChain.Proofs.Relations
import QueryChain.Proofs.Subranges
import QueryChain.Proofs.NegativeLimits
import QueryChain.Proofs.Standing
import QueryChain.Proofs.RowBounds
import QueryChain.Proofs.OuterBounds
import QueryChain.Proofs.Keys
import QueryChain.Proofs.Searching
import QueryChain.Proofs.Lowering
import QueryChain.Proofs.Widening
import QueryChain.Proofs.Tokens
import QueryChain.Proofs.ParameterNumbers
import QueryChain.Proofs.DefinitionTokens
import QueryChain.Proofs.Quotation
import QueryChain.Proofs.Vetting
import QueryChain.Proofs.Nesting
import QueryChain.Proofs.References
import QueryChain.Proofs.TimeFormats
import QueryChain.Proofs.IsoText
import QueryChain.Proofs.Rounding
import QueryChain.Proofs.LooseEquality
import QueryChain.Proofs.NumericOrder
import QueryChain.Proofs.Scalars
import QueryChain.Proofs.FixedForms
import QueryChain.Proofs.LookupAlgebra
import QueryChain.Proofs.RepeatedColumns
import QueryChain.Proofs.Expansion
import QueryChain.Proofs.CharacterClasses
import QueryChain.Proofs.Boundaries
import QueryChain.Proofs.Truncation
import QueryChain.Proofs.Octets
import QueryChain.Proofs.Division
import QueryChain.Proofs.Groups
