import SchemaCompiler.CommandLine.Fixtures
import SchemaCompiler.Config.OfText
import SchemaCompiler.Main
import SchemaCompiler.Proofs.Arguments
import SchemaCompiler.Proofs.Bindings
import SchemaCompiler.Proofs.Config
import SchemaCompiler.Proofs.DocComment
import SchemaCompiler.Proofs.DocumentOrder
import SchemaCompiler.Proofs.Exports
import SchemaCompiler.Proofs.Identifiers
import SchemaCompiler.Proofs.Inline.Objects
import SchemaCompiler.Proofs.Interfaces
import SchemaCompiler.Proofs.Load.Closure
import SchemaCompiler.Proofs.Load.SourceOrder
import SchemaCompiler.Proofs.Names
import SchemaCompiler.Proofs.Path.Imports
import SchemaCompiler.Proofs.Path.Meaning
import SchemaCompiler.Proofs.Positions
import SchemaCompiler.Proofs.Quoting
import SchemaCompiler.Proofs.Reexport.Forms
import SchemaCompiler.Proofs.References
import SchemaCompiler.Proofs.ScalarCompleteness
import SchemaCompiler.Proofs.ScalarOrder
import SchemaCompiler.Proofs.ScalarSides
import SchemaCompiler.Proofs.Schema.Extensions
import SchemaCompiler.Proofs.Schema.Members
import SchemaCompiler.Proofs.Schema.Merging
import SchemaCompiler.Proofs.Schema.Pruning
import SchemaCompiler.Proofs.Schema.Targets
import SchemaCompiler.Proofs.Schema.ValidationOrder
import SchemaCompiler.Proofs.Schema.Values
import SchemaCompiler.Proofs.Sdl.Agreement
import SchemaCompiler.Proofs.Shape.Agreement
import SchemaCompiler.Proofs.Shape.Distances
import SchemaCompiler.Proofs.Shape.FieldTypes
import SchemaCompiler.Proofs.Shape.Nullability
import SchemaCompiler.Proofs.Shape.Parentheses
import SchemaCompiler.Proofs.Shape.Sides
import SchemaCompiler.Proofs.Text.Snake
import SchemaCompiler.Proofs.TypeImports
import SchemaCompiler.Proofs.Types.Accounts
import SchemaCompiler.Proofs.Types.EnumValues
import SchemaCompiler.Proofs.Types.OneOf
import SchemaCompiler.Proofs.Wiring
