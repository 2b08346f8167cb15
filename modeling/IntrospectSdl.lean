import IntrospectSdl.Command.Arguments
import IntrospectSdl.Command.Directory
import IntrospectSdl.Command.Report
import IntrospectSdl.Command.Run
import IntrospectSdl.Convert
import IntrospectSdl.Introspection.FromJson
import IntrospectSdl.Introspection.Import
import IntrospectSdl.Introspection.ImportError
import IntrospectSdl.Introspection.KindName
import IntrospectSdl.Introspection.Payload
import IntrospectSdl.Introspection.Record
import IntrospectSdl.Introspection.ShapeError
import IntrospectSdl.Introspection.ToJson
import IntrospectSdl.Json.Numeral
import IntrospectSdl.Json.Reader
import IntrospectSdl.Json.SyntaxError
import IntrospectSdl.Json.Value
import IntrospectSdl.Main
import IntrospectSdl.Number.Binary64
import IntrospectSdl.Number.Shortest
import IntrospectSdl.Number.Style
import IntrospectSdl.Schema.Basic
import IntrospectSdl.Schema.Definition
import IntrospectSdl.Schema.Location
import IntrospectSdl.Schema.Site
import IntrospectSdl.Schema.TypeRef
import IntrospectSdl.Schema.TypeTable
import IntrospectSdl.Sdl.BlockString
import IntrospectSdl.Sdl.DescriptionPattern
import IntrospectSdl.Sdl.Document
import IntrospectSdl.Sdl.InterfaceCycle
import IntrospectSdl.Sdl.Layout
import IntrospectSdl.Sdl.Pattern
import IntrospectSdl.Sdl.PrintError
import IntrospectSdl.Sdl.Printer
import IntrospectSdl.Sdl.References
import IntrospectSdl.Sdl.StringLiteral
import IntrospectSdl.Sdl.Stripping
import IntrospectSdl.Text.Blank
import IntrospectSdl.Text.Hidden
import IntrospectSdl.Text.Lines
import IntrospectSdl.Text.Quoted
import IntrospectSdl.Proofs.Chains
import IntrospectSdl.Proofs.Lines
import IntrospectSdl.Proofs.Declarations
import IntrospectSdl.Proofs.Declarations.History
import IntrospectSdl.Proofs.BlockString.Fences
import IntrospectSdl.Proofs.BlockString.Indentation
import IntrospectSdl.Proofs.BlockString.Layout
import IntrospectSdl.Proofs.BlockString.Survival
import IntrospectSdl.Proofs.StringLiteral.Reading
import IntrospectSdl.Proofs.Printing.Acceptance
import IntrospectSdl.Proofs.Printing.Names
import IntrospectSdl.Proofs.Printing.OneLine
import IntrospectSdl.Proofs.Legibility.Basic
import IntrospectSdl.Proofs.TypeRefs
import IntrospectSdl.Proofs.Legibility.Atoms
import IntrospectSdl.Proofs.Legibility.Members
import IntrospectSdl.Proofs.Legibility.Definitions
import IntrospectSdl.Proofs.Legibility.Schema
import IntrospectSdl.Proofs.Legibility.Roots
import IntrospectSdl.Proofs.Legibility.Closure
import IntrospectSdl.Proofs.Stripping.Description
import IntrospectSdl.Proofs.Stripping.Progress
import IntrospectSdl.Proofs.Stripping.Schema
import IntrospectSdl.Proofs.Stripping.Quiet
import IntrospectSdl.Proofs.Stripping.Undescribed
import IntrospectSdl.Proofs.Stripping.LastLine
import IntrospectSdl.Proofs.Stripping.Ending
import IntrospectSdl.Proofs.Stripping.Idempotence
import IntrospectSdl.Proofs.Patterns.Ends
import IntrospectSdl.Proofs.Patterns.Content
import IntrospectSdl.Proofs.Patterns.Removal
import IntrospectSdl.Proofs.Patterns.Descriptions
import IntrospectSdl.Proofs.Import.Violations
import IntrospectSdl.Proofs.Import.FirstViolation
import IntrospectSdl.Proofs.Import.Resolution
import IntrospectSdl.Proofs.Import.RoundTrip
import IntrospectSdl.Proofs.Interfaces.Search
import IntrospectSdl.Proofs.Interfaces.Cycles
import IntrospectSdl.Proofs.Interfaces.Steps
import IntrospectSdl.Proofs.Printing.Printable
import IntrospectSdl.Proofs.Interfaces.Reporting
import IntrospectSdl.Proofs.Printing.Extension
import IntrospectSdl.Proofs.Conversion
import IntrospectSdl.Proofs.Wire.Structures
import IntrospectSdl.Proofs.Wire.RoundTrip
import IntrospectSdl.Proofs.Wire.Edits
import IntrospectSdl.Proofs.Wire.Tolerance
import IntrospectSdl.Proofs.Command.Expansion
import IntrospectSdl.Proofs.Command.Files
import IntrospectSdl.Proofs.Command.Stages
import IntrospectSdl.Proofs.Command.Outcome
