import SceneReader.Algebra.Inverse
import SceneReader.Algebra.Matrix
import SceneReader.Algebra.Scalar
import SceneReader.Algebra.Vector
import SceneReader.Command.Arguments
import SceneReader.Command.Report
import SceneReader.Command.Run
import SceneReader.Diagnostic.Basic
import SceneReader.Diagnostic.Cause
import SceneReader.Diagnostic.Report
import SceneReader.Diagnostic.Reported
import SceneReader.Directive.Basic
import SceneReader.Directive.Name
import SceneReader.Directive.Parser
import SceneReader.Document
import SceneReader.Engine.Action
import SceneReader.Engine.Admission
import SceneReader.Engine.Event
import SceneReader.Engine.Execution
import SceneReader.Engine.Known
import SceneReader.Engine.State
import SceneReader.Engine.Statistics
import SceneReader.File.Archive
import SceneReader.File.Encoding
import SceneReader.File.Path
import SceneReader.File.Tree
import SceneReader.Include.Directories
import SceneReader.Include.Expansion
import SceneReader.Main
import SceneReader.Number.Binary
import SceneReader.Number.Decimal
import SceneReader.Number.Reading
import SceneReader.Number.Shortest
import SceneReader.Number.Significant
import SceneReader.Options.Basic
import SceneReader.Options.Loading
import SceneReader.Options.Yaml
import SceneReader.Packed.Bits
import SceneReader.Packed.Code
import SceneReader.Packed.Deflate
import SceneReader.Packed.Gzip
import SceneReader.Packed.Tape
import SceneReader.Param.Map
import SceneReader.Param.Property
import SceneReader.Proofs.Algebra.Elimination
import SceneReader.Proofs.Algebra.ExactScalar
import SceneReader.Proofs.Algebra.MatrixLaws
import SceneReader.Proofs.Algebra.RealScalar
import SceneReader.Proofs.Command.SameScene
import SceneReader.Proofs.Directive.Arguments
import SceneReader.Proofs.Directive.Declarations
import SceneReader.Proofs.Directive.Grammar
import SceneReader.Proofs.Directive.Joining
import SceneReader.Proofs.Directive.NumbersRead
import SceneReader.Proofs.Directive.Places
import SceneReader.Proofs.Directive.Printable
import SceneReader.Proofs.Directive.Recognition
import SceneReader.Proofs.Directive.RoundTrip
import SceneReader.Proofs.Directive.Splitting
import SceneReader.Proofs.Directive.Statements
import SceneReader.Proofs.Directive.Strictness
import SceneReader.Proofs.Directive.Substitution
import SceneReader.Proofs.Directive.WrittenArguments
import SceneReader.Proofs.Directive.WrittenParameters
import SceneReader.Proofs.Engine.Acceptance
import SceneReader.Proofs.Engine.Accepted
import SceneReader.Proofs.Engine.AreaLight
import SceneReader.Proofs.Engine.Blocks
import SceneReader.Proofs.Engine.Declared
import SceneReader.Proofs.Engine.Definition
import SceneReader.Proofs.Engine.DefinitionSite
import SceneReader.Proofs.Engine.Effect
import SceneReader.Proofs.Engine.EndlessTurn
import SceneReader.Proofs.Engine.FilesOnce
import SceneReader.Proofs.Engine.Halves
import SceneReader.Proofs.Engine.Handling
import SceneReader.Proofs.Engine.Held
import SceneReader.Proofs.Engine.ImplicitEnd
import SceneReader.Proofs.Engine.LastDefinition
import SceneReader.Proofs.Engine.Lookup
import SceneReader.Proofs.Engine.MaterialScope
import SceneReader.Proofs.Engine.NamedFiles
import SceneReader.Proofs.Engine.Noting
import SceneReader.Proofs.Engine.Objects
import SceneReader.Proofs.Engine.PendingLight
import SceneReader.Proofs.Engine.Places
import SceneReader.Proofs.Engine.Protocol
import SceneReader.Proofs.Engine.Reachable
import SceneReader.Proofs.Engine.Recording
import SceneReader.Proofs.Engine.Redefinition
import SceneReader.Proofs.Engine.References
import SceneReader.Proofs.Engine.Refusal
import SceneReader.Proofs.Engine.ReportedBlocks
import SceneReader.Proofs.Engine.Restoration
import SceneReader.Proofs.Engine.ShapeNames
import SceneReader.Proofs.Engine.Stacks
import SceneReader.Proofs.Engine.TrueInverse
import SceneReader.Proofs.Engine.WorldStart
import SceneReader.Proofs.File.Following
import SceneReader.Proofs.File.PathText
import SceneReader.Proofs.File.SceneChoice
import SceneReader.Proofs.File.Unpacking
import SceneReader.Proofs.Include.Again
import SceneReader.Proofs.Include.Chains
import SceneReader.Proofs.Include.Frame
import SceneReader.Proofs.Include.Origin
import SceneReader.Proofs.Include.ParameterEnd
import SceneReader.Proofs.Include.Reference
import SceneReader.Proofs.Include.TextAtHand
import SceneReader.Proofs.Include.TokenExpansion
import SceneReader.Proofs.Include.UnreadFile
import SceneReader.Proofs.Include.ValueLists
import SceneReader.Proofs.Number.Packing
import SceneReader.Proofs.Number.Padding
import SceneReader.Proofs.Number.Rounding
import SceneReader.Proofs.Number.Text
import SceneReader.Proofs.Packed.Stored
import SceneReader.Proofs.Param.Coercion
import SceneReader.Proofs.Param.Keys
import SceneReader.Proofs.Param.Names
import SceneReader.Proofs.Param.OrderedMap
import SceneReader.Proofs.Rotation.Composition
import SceneReader.Proofs.Rotation.Extraction
import SceneReader.Proofs.Rotation.Proper
import SceneReader.Proofs.Rotation.Recomposition
import SceneReader.Proofs.Scene.Agreement
import SceneReader.Proofs.Scene.ArchivedScene
import SceneReader.Proofs.Scene.Attachment
import SceneReader.Proofs.Scene.BuiltGraph
import SceneReader.Proofs.Scene.Completion
import SceneReader.Proofs.Scene.Contents
import SceneReader.Proofs.Scene.Directories
import SceneReader.Proofs.Scene.Failure
import SceneReader.Proofs.Scene.Flattening
import SceneReader.Proofs.Scene.Forest
import SceneReader.Proofs.Scene.Growth
import SceneReader.Proofs.Scene.InstancePlacement
import SceneReader.Proofs.Scene.LightPlacement
import SceneReader.Proofs.Scene.Motion
import SceneReader.Proofs.Scene.OpenNodes
import SceneReader.Proofs.Scene.Placement
import SceneReader.Proofs.Scene.QuotedLines
import SceneReader.Proofs.Scene.Resolution
import SceneReader.Proofs.Scene.SourceOrder
import SceneReader.Proofs.Scene.Walk
import SceneReader.Proofs.Scene.WorldMatrix
import SceneReader.Proofs.Scene.WorldPlacement
import SceneReader.Proofs.Source.StrippedText
import SceneReader.Proofs.Success
import SceneReader.Proofs.Token.Boundary
import SceneReader.Proofs.Token.Quotation
import SceneReader.Proofs.Token.Reading
import SceneReader.Proofs.Token.Regions
import SceneReader.Proofs.Token.Separation
import SceneReader.Proofs.Token.Stripping
import SceneReader.Proofs.Token.Tiling
import SceneReader.Proofs.Token.Words
import SceneReader.Proofs.Transform.DirectionFrame
import SceneReader.Proofs.Transform.LookAt
import SceneReader.Proofs.Transform.Rigid
import SceneReader.Proofs.Transform.Sound
import SceneReader.Rotation.Decomposition
import SceneReader.Rotation.Polar
import SceneReader.Rotation.Quaternion
import SceneReader.Scene.Builder
import SceneReader.Scene.Component
import SceneReader.Scene.Graph
import SceneReader.Scene.Loading
import SceneReader.Scene.Resource
import SceneReader.Source.Comment
import SceneReader.Source.Position
import SceneReader.Table
import SceneReader.Text.Blank
import SceneReader.Text.Digit
import SceneReader.Text.Letter
import SceneReader.Text.LetterCase
import SceneReader.Text.Lines
import SceneReader.Text.Literal
import SceneReader.Text.Naming
import SceneReader.Text.Ranges
import SceneReader.Token.Basic
import SceneReader.Token.Lexer
import SceneReader.Transform.Basic
import SceneReader.Transform.Frame
import SceneReader.Value
