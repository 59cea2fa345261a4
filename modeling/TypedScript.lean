import TypedScript.Main
import TypedScript.Proofs.Cutting.Assignments
import TypedScript.Proofs.Cutting.Literals
import TypedScript.Proofs.Cutting.Sections
import TypedScript.Proofs.Emitted.Asynchrony
import TypedScript.Proofs.Emitted.Prelude
import TypedScript.Proofs.Exchange.Commuting
import TypedScript.Proofs.Generation.Effects
import TypedScript.Proofs.Generation.Members
import TypedScript.Proofs.Generation.Refusals
import TypedScript.Proofs.Json.Declared
import TypedScript.Proofs.Lines.Calls
import TypedScript.Proofs.Lines.Existing
import TypedScript.Proofs.Number.Literals
import TypedScript.Proofs.Parsing.Termination
import TypedScript.Proofs.Scoping.Bindings
import TypedScript.Proofs.Scoping.Reached
import TypedScript.Proofs.Splitting.Comments
import TypedScript.Proofs.Splitting.Conservation
import TypedScript.Proofs.Splitting.Rejoin
import TypedScript.Proofs.Typing.Assignability
import TypedScript.Proofs.Typing.Canonical
import TypedScript.Proofs.Typing.Categories
import TypedScript.Proofs.Typing.Loosening
import TypedScript.Proofs.Typing.Parentheses
import TypedScript.Proofs.Typing.Refinement
