import ShaderNodes.SortedMap
import ShaderNodes.Socket
import ShaderNodes.Definition
import ShaderNodes.Literal
import ShaderNodes.Graph.Check
import ShaderNodes.Draft.Program
import ShaderNodes.Kind
import ShaderNodes.Palette
import ShaderNodes.Compiler.Engine
import ShaderNodes.Sample
import ShaderNodes.Main
import ShaderNodes.Proofs.Graph.Placement
import ShaderNodes.Proofs.Graph.Walk
import ShaderNodes.Proofs.Graph.Links
import ShaderNodes.Proofs.Graph.Check
import ShaderNodes.Proofs.Compiler.Dataflow
import ShaderNodes.Proofs.Compiler.Run
import ShaderNodes.Proofs.Compiler.History
import ShaderNodes.Proofs.Text.Mangled
import ShaderNodes.Proofs.Text.Identifier
import ShaderNodes.Proofs.Names
import ShaderNodes.Proofs.Palette
import ShaderNodes.Proofs.Compiler.Declarations
import ShaderNodes.Proofs.Draft.Scope
import ShaderNodes.Proofs.Literal
import ShaderNodes.Proofs.Kind.Scope
import ShaderNodes.Proofs.Compiler.Scope
import ShaderNodes.Proofs.Compiler.Start
import ShaderNodes.Proofs.Compiler.Turns
import ShaderNodes.Proofs.Compiler.Lifecycle
import ShaderNodes.Proofs.Compiler.Engine
import ShaderNodes.Proofs.Compiler.Edited
import ShaderNodes.Proofs.Kind.Effect
import ShaderNodes.Proofs.Grammar.Signature
import ShaderNodes.Proofs.Definition
import ShaderNodes.Proofs.Grammar.Struct
import ShaderNodes.Proofs.Compiler.Calls
import ShaderNodes.Proofs.Graph.Listing
import ShaderNodes.Proofs.Graph.Edit
import ShaderNodes.Proofs.Graph.Validity
import ShaderNodes.Proofs.Compiler.Independence
import ShaderNodes.Proofs.Graph.Matched
import ShaderNodes.Proofs.Kind.Views
import ShaderNodes.Proofs.Compiler.Matched
import ShaderNodes.Proofs.Compiler.Noninterference
import ShaderNodes.Proofs.Kind.Confined
import ShaderNodes.Proofs.Compiler.Containment
import ShaderNodes.Proofs.Draft.Sections
import ShaderNodes.Proofs.Compiler.Features
import ShaderNodes.Proofs.Kind.Interface
import ShaderNodes.Proofs.Compiler.Interface
import ShaderNodes.Proofs.Kind.Reads
import ShaderNodes.Proofs.Compiler.Resources
import ShaderNodes.Proofs.Compiler.Unwired
import ShaderNodes.Proofs.Compiler.Fragment
import ShaderNodes.Proofs.Draft.Edits
import ShaderNodes.Proofs.Draft.Functions
import ShaderNodes.Proofs.Draft.Interleaving
import ShaderNodes.Proofs.Grammar.Number
import ShaderNodes.Proofs.Grammar.Block
import ShaderNodes.Proofs.Inputs
