import EntityForge.Archive.BitReader
import EntityForge.Archive.ByteStream
import EntityForge.Archive.Bytes
import EntityForge.Archive.CodePage
import EntityForge.Archive.Crc32
import EntityForge.Archive.Decoded
import EntityForge.Archive.Huffman
import EntityForge.Archive.Inflate
import EntityForge.Archive.Read
import EntityForge.Archive.Zip.Directory
import EntityForge.Archive.Zip.Header
import EntityForge.Archive.Zip.Open
import EntityForge.Archive.Zip.Write
import EntityForge.Change
import EntityForge.CommandLine.Arguments
import EntityForge.CommandLine.Files
import EntityForge.CommandLine.Invocation
import EntityForge.CommandLine.Parameter
import EntityForge.CommandLine.Run
import EntityForge.Dbml.Declaration
import EntityForge.Dbml.Error
import EntityForge.Dbml.Fence
import EntityForge.Dbml.Lexer
import EntityForge.Dbml.Parser.Basic
import EntityForge.Dbml.Parser.Column
import EntityForge.Dbml.Parser.Document
import EntityForge.Dbml.Parser.Reference
import EntityForge.Dbml.Parser.Table
import EntityForge.Dbml.Token
import EntityForge.Embedding
import EntityForge.Entity.Associations
import EntityForge.Entity.Basic
import EntityForge.Entity.Compile
import EntityForge.Entity.Render
import EntityForge.FileTree.Basic
import EntityForge.FileTree.Build
import EntityForge.FileTree.Language
import EntityForge.Java.Cleaning
import EntityForge.Java.SourceUnit
import EntityForge.Java.Statement
import EntityForge.Json.Basic
import EntityForge.Json.Encode
import EntityForge.Main
import EntityForge.Naming
import EntityForge.Project
import EntityForge.Proofs.Archive.Contents
import EntityForge.Proofs.Archive.Directory
import EntityForge.Proofs.Archive.Headers
import EntityForge.Proofs.Archive.Layout
import EntityForge.Proofs.Archive.Limits
import EntityForge.Proofs.Archive.RaisedLimits
import EntityForge.Proofs.Archive.ReadBack
import EntityForge.Proofs.Archive.Streams
import EntityForge.Proofs.Archive.Written
import EntityForge.Proofs.Change.Partition
import EntityForge.Proofs.Change.Recovery
import EntityForge.Proofs.Dbml.Canonical
import EntityForge.Proofs.Dbml.Composition
import EntityForge.Proofs.Dbml.Continued
import EntityForge.Proofs.Dbml.Declared
import EntityForge.Proofs.Dbml.Exchange
import EntityForge.Proofs.Dbml.Fenced
import EntityForge.Proofs.Dbml.Grammar.Basic
import EntityForge.Proofs.Dbml.Grammar.Column
import EntityForge.Proofs.Dbml.Grammar.Document
import EntityForge.Proofs.Dbml.Grammar.Reference
import EntityForge.Proofs.Dbml.Grammar.Table
import EntityForge.Proofs.Dbml.JoinedText
import EntityForge.Proofs.Dbml.Locality.Basic
import EntityForge.Proofs.Dbml.Locality.Column
import EntityForge.Proofs.Dbml.Locality.Document
import EntityForge.Proofs.Dbml.Locality.Reference
import EntityForge.Proofs.Dbml.Locality.Table
import EntityForge.Proofs.Dbml.Progress
import EntityForge.Proofs.Dbml.Promotion
import EntityForge.Proofs.Dbml.Relocation
import EntityForge.Proofs.Dbml.Spelling
import EntityForge.Proofs.Dbml.Truncation.Basic
import EntityForge.Proofs.Dbml.Truncation.Column
import EntityForge.Proofs.Dbml.Truncation.Document
import EntityForge.Proofs.Dbml.Truncation.Table
import EntityForge.Proofs.Dbml.Written
import EntityForge.Proofs.Entity.BrokenReferences
import EntityForge.Proofs.Entity.Columns
import EntityForge.Proofs.Entity.GeneratedKeys
import EntityForge.Proofs.Entity.Imports
import EntityForge.Proofs.Entity.Members
import EntityForge.Proofs.Entity.Names
import EntityForge.Proofs.Entity.Readback
import EntityForge.Proofs.Entity.SchemaEntities
import EntityForge.Proofs.Entity.Symmetry
import EntityForge.Proofs.Entity.Unrelated
import EntityForge.Proofs.FileTree.Acceptance
import EntityForge.Proofs.FileTree.ChildNames
import EntityForge.Proofs.FileTree.Children
import EntityForge.Proofs.FileTree.Flattened
import EntityForge.Proofs.FileTree.NodePaths
import EntityForge.Proofs.FileTree.Placed
import EntityForge.Proofs.FileTree.PrefixTree
import EntityForge.Proofs.FileTree.Routes
import EntityForge.Proofs.FileTree.Unchanged
import EntityForge.Proofs.Java.Acceptance
import EntityForge.Proofs.Java.Annotated
import EntityForge.Proofs.Java.Bodies
import EntityForge.Proofs.Java.CanonicalTypes
import EntityForge.Proofs.Java.CleanText
import EntityForge.Proofs.Java.Cleaned
import EntityForge.Proofs.Java.ClosedCode
import EntityForge.Proofs.Java.Declarations
import EntityForge.Proofs.Java.DeclaratorGaps
import EntityForge.Proofs.Java.Declarators
import EntityForge.Proofs.Java.Gaps
import EntityForge.Proofs.Java.HeldBraces
import EntityForge.Proofs.Java.Initializers
import EntityForge.Proofs.Java.Inserted
import EntityForge.Proofs.Java.Lines
import EntityForge.Proofs.Java.Lockstep
import EntityForge.Proofs.Java.Modifiers
import EntityForge.Proofs.Java.OpenParts
import EntityForge.Proofs.Java.Reading
import EntityForge.Proofs.Java.Reformatted
import EntityForge.Proofs.Java.SameStatement
import EntityForge.Proofs.Java.Scanned
import EntityForge.Proofs.Java.StrayBraces
import EntityForge.Proofs.Java.TypeGaps
import EntityForge.Proofs.Java.TypeSyntax
import EntityForge.Proofs.Keyed
import EntityForge.Proofs.Naming
import EntityForge.Proofs.Project.Closure
import EntityForge.Proofs.Project.Paths
import EntityForge.Proofs.Project.Preview
import EntityForge.Proofs.Schema.Identity
import EntityForge.Proofs.Schema.Merge
import EntityForge.Proofs.Schema.WellFormed
import EntityForge.Proofs.Settings.Overrides
import EntityForge.Proofs.Text.Brackets
import EntityForge.Proofs.Text.ByteOrder
import EntityForge.Proofs.Text.Pieces
import EntityForge.Proofs.Text.Search
import EntityForge.Proofs.Text.Utf8
import EntityForge.Proofs.Unicode.CaseMaps
import EntityForge.Proofs.Unicode.Classes
import EntityForge.Schema.Basic
import EntityForge.Schema.Lookup
import EntityForge.Settings.Basic
import EntityForge.Settings.Document
import EntityForge.TargetType
import EntityForge.Text.Ascii
import EntityForge.Text.Quoted
import EntityForge.Text.Search
import EntityForge.Text.Split
import EntityForge.Text.Utf8
import EntityForge.Unicode.Blank
import EntityForge.Unicode.CaseMap
import EntityForge.Unicode.Letter
import EntityForge.Unicode.Lowercase
import EntityForge.Unicode.Printable
import EntityForge.Unicode.RangeSet
import EntityForge.Yaml.Character
import EntityForge.Yaml.Document
import EntityForge.Yaml.Error
import EntityForge.Yaml.Layout
import EntityForge.Yaml.Node.Basic
import EntityForge.Yaml.Node.Parser
import EntityForge.Yaml.Property
import EntityForge.Yaml.Scalar.Block
import EntityForge.Yaml.Scalar.Gap
import EntityForge.Yaml.Scalar.Plain
import EntityForge.Yaml.Scalar.Quoted
import EntityForge.Yaml.Token
