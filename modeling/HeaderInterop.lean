import HeaderInterop.Ast.Decode
import HeaderInterop.Ast.Node
import HeaderInterop.CType.Basic
import HeaderInterop.CType.Normal
import HeaderInterop.CType.Parser
import HeaderInterop.CType.Printer
import HeaderInterop.CType.Token
import HeaderInterop.CType.Word
import HeaderInterop.Cli.Arguments
import HeaderInterop.Cli.Session
import HeaderInterop.Code.File
import HeaderInterop.Code.Writer
import HeaderInterop.Collection
import HeaderInterop.Compiler
import HeaderInterop.Config.Basic
import HeaderInterop.Config.Decode
import HeaderInterop.Config.Default
import HeaderInterop.Config.Encode
import HeaderInterop.Config.KeyPath
import HeaderInterop.Config.Load
import HeaderInterop.Config.Value
import HeaderInterop.Constant.Basic
import HeaderInterop.Constant.Literal
import HeaderInterop.Decimal.Binary64
import HeaderInterop.Decl.Basic
import HeaderInterop.Decl.Naming
import HeaderInterop.Decl.OfNode
import HeaderInterop.Emit.Commands
import HeaderInterop.Emit.Constants
import HeaderInterop.Emit.Enums
import HeaderInterop.Emit.Handles
import HeaderInterop.Emit.Output
import HeaderInterop.Emit.Structs
import HeaderInterop.FileSystem
import HeaderInterop.Header
import HeaderInterop.Json.Basic
import HeaderInterop.Json.Number
import HeaderInterop.Json.Printer
import HeaderInterop.Json.Reader
import HeaderInterop.Log
import HeaderInterop.Macro.Basic
import HeaderInterop.Macro.Dump
import HeaderInterop.Macro.Token
import HeaderInterop.Main
import HeaderInterop.Path
import HeaderInterop.Proofs.CType.Grammar
import HeaderInterop.Proofs.CType.Lexemes
import HeaderInterop.Proofs.Except
import HeaderInterop.Registry
import HeaderInterop.Run
import HeaderInterop.Text.Alphabetic
import HeaderInterop.Text.Class
import HeaderInterop.Text.Hidden
import HeaderInterop.Text.Lines
import HeaderInterop.Text.Numeral
import HeaderInterop.Text.Numeric
import HeaderInterop.Text.Quoted
import HeaderInterop.Toml.Basic
import HeaderInterop.Toml.Document
import HeaderInterop.Toml.Quoted
import HeaderInterop.Toml.Reader
import HeaderInterop.Toml.Scalar
import HeaderInterop.TypeMap
import HeaderInterop.Worklist
import HeaderInterop.Proofs.CType.NormalForm
import HeaderInterop.Proofs.CType.RoundTrip
import HeaderInterop.Proofs.Collection
import HeaderInterop.Proofs.Decl.EnumValues
import HeaderInterop.Proofs.Decl.Naming
import HeaderInterop.Proofs.Decl.Records
import HeaderInterop.Proofs.Registry
import HeaderInterop.Proofs.Definitions
import HeaderInterop.Proofs.TypeMap.Acyclic
import HeaderInterop.Proofs.TypeMap.Levels
import HeaderInterop.Proofs.TypeMap.Tags
import HeaderInterop.Proofs.Emit.Fields
import HeaderInterop.Proofs.Code.Endings
import HeaderInterop.Proofs.Code.Texts
import HeaderInterop.Proofs.Emit.Aliases
import HeaderInterop.Proofs.Collection.Order
import HeaderInterop.Proofs.Output
import HeaderInterop.Proofs.Compiler
import HeaderInterop.Proofs.Run
import HeaderInterop.Proofs.Collection.Enums
import HeaderInterop.Proofs.Emit.Skipping
import HeaderInterop.Proofs.Emit.Members
import HeaderInterop.Proofs.Emit.Traces
import HeaderInterop.Proofs.Emit.Attributes
import HeaderInterop.Proofs.Emit.Mentions
import HeaderInterop.Proofs.Constant.Rules
import HeaderInterop.Proofs.Constant.Parentheses
import HeaderInterop.Proofs.Macro.Numbers
import HeaderInterop.Proofs.Macro.Boundaries
import HeaderInterop.Proofs.Macro.Tokens
import HeaderInterop.Proofs.Constant.Joining
import HeaderInterop.Proofs.Macro.LineForms
import HeaderInterop.Proofs.Macro.Directives
import HeaderInterop.Proofs.Macro.Standing
import HeaderInterop.Proofs.Text.Numerals
import HeaderInterop.Proofs.Constant.Kinds
import HeaderInterop.Proofs.Constant.Integers
import HeaderInterop.Proofs.Constant.EnumMembers
import HeaderInterop.Proofs.Collection.PointerHandles
import HeaderInterop.Proofs.Decl.SelfTypedefs
import HeaderInterop.Proofs.Decl.TakenNames
import HeaderInterop.Proofs.TypeMap.Stars
import HeaderInterop.Proofs.TypeMap.Substituted
import HeaderInterop.Proofs.TypeMap.Qualifiers
import HeaderInterop.Proofs.TypeMap.Signatures
import HeaderInterop.Proofs.TypeMap.TruthValues
import HeaderInterop.Proofs.Emit.Elements
import HeaderInterop.Proofs.Decl.InlineRecords
import HeaderInterop.Proofs.Header
import HeaderInterop.Proofs.Decl.Numbering
import HeaderInterop.Proofs.Constant.ManagedIntegers
import HeaderInterop.Proofs.Constant.QuotedText
import HeaderInterop.Proofs.Constant.Names
import HeaderInterop.Proofs.Constant.NamesRead
import HeaderInterop.Proofs.Constant.Spelling
import HeaderInterop.Proofs.Constant.StringLiterals
import HeaderInterop.Proofs.Collection.Repetition
import HeaderInterop.Proofs.Emit.Flags
import HeaderInterop.Proofs.Emit.EnumTypes
import HeaderInterop.Proofs.Constant.Inherited
import HeaderInterop.Proofs.Emit.Inheritance
import HeaderInterop.Proofs.Code.Indentation
import HeaderInterop.Proofs.CType.Seams
import HeaderInterop.Proofs.CType.SpecifierOrder
import HeaderInterop.Proofs.CType.IgnoredWords
import HeaderInterop.Proofs.CType.VectorTypes
import HeaderInterop.Proofs.OutputDirectory
import HeaderInterop.Proofs.MadeNames
import HeaderInterop.Proofs.TypeMap.Identifiers
import HeaderInterop.Proofs.Emit.Parameters
import HeaderInterop.Proofs.Emit.FieldNames
import HeaderInterop.Proofs.Code.Lines
import HeaderInterop.Proofs.Emit.DeclaredNames
import HeaderInterop.Proofs.TypeMap.Calls
import HeaderInterop.Proofs.TypeMap.Answers
import HeaderInterop.Proofs.TypeMap.Parts
import HeaderInterop.Proofs.Constant.Nesting
import HeaderInterop.Proofs.Macro.Markers
import HeaderInterop.Proofs.Text.Positions
import HeaderInterop.Proofs.CType.Positions
import HeaderInterop.Proofs.Macro.Positions
import HeaderInterop.Proofs.Positions
