import SchemaAssembly.Main
import SchemaAssembly.Proofs.Keyed
import SchemaAssembly.Proofs.Resolver.Reference
import SchemaAssembly.Proofs.Field.Binding
import SchemaAssembly.Proofs.Resolver.History
import SchemaAssembly.Proofs.Resolver.Invocation
import SchemaAssembly.Proofs.Grammar.Layout
import SchemaAssembly.Proofs.Grammar.Numeral
import SchemaAssembly.Proofs.Grammar.Lexing
import SchemaAssembly.Proofs.Grammar.Phrase
import SchemaAssembly.Proofs.Grammar.TypeRef
import SchemaAssembly.Proofs.Grammar.Constant
import SchemaAssembly.Proofs.Grammar.Signature
import SchemaAssembly.Proofs.Grammar.BareLayout
import SchemaAssembly.Proofs.Grammar.TypeText
import SchemaAssembly.Proofs.Grammar.ConstantText
import SchemaAssembly.Proofs.Grammar.TextLiteral
import SchemaAssembly.Proofs.Field.Configuration
import SchemaAssembly.Proofs.Field.InlineArguments
import SchemaAssembly.Proofs.Field.Reached
import SchemaAssembly.Proofs.ObjectType.Building
import SchemaAssembly.Proofs.ObjectType.Reached
import SchemaAssembly.Proofs.Model.Reached
import SchemaAssembly.Proofs.Field.Lookup
import SchemaAssembly.Proofs.ObjectType.Lookup
import SchemaAssembly.Proofs.Field.Validation
import SchemaAssembly.Proofs.ObjectType.Reporting
import SchemaAssembly.Proofs.Catalog.Lookup
import SchemaAssembly.Proofs.Catalog.Inheritance
import SchemaAssembly.Proofs.Model.AllFields
import SchemaAssembly.Proofs.ObjectType.Merging
import SchemaAssembly.Proofs.Field.Attributes
import SchemaAssembly.Proofs.Model.OperationField
import SchemaAssembly.Proofs.Model.FirstAddition
import SchemaAssembly.Proofs.Field.Reapplication
import SchemaAssembly.Proofs.Field.EntryOrder
import SchemaAssembly.Proofs.Grammar.ArgumentList
import SchemaAssembly.Proofs.Grammar.ErrorPosition
import SchemaAssembly.Proofs.Grammar.BlockLayout
import SchemaAssembly.Proofs.Grammar.BlockText
import SchemaAssembly.Proofs.Catalog.Ancestry
import SchemaAssembly.Proofs.Catalog.FirstLetter
import SchemaAssembly.Proofs.Model.BulkAddition
import SchemaAssembly.Proofs.CommandLine.Sections
import SchemaAssembly.Proofs.Report
import SchemaAssembly.Proofs.Json.Conversion
import SchemaAssembly.Proofs.Grammar.Descent
