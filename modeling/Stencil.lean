import Stencil.Main
import Stencil.Node.Draft
import Stencil.Render.Session
import Stencil.Proofs.Command.Printing
import Stencil.Proofs.Node.NormalForm
import Stencil.Proofs.Node.Places
import Stencil.Proofs.Node.Refusal
import Stencil.Proofs.Node.Resumption
import Stencil.Proofs.Node.RoundTrip
import Stencil.Proofs.Number.Grouping
import Stencil.Proofs.Profile.Typing
import Stencil.Proofs.Render.Concatenation
import Stencil.Proofs.Render.Expression
import Stencil.Proofs.Render.Frame
import Stencil.Proofs.Render.Inert
import Stencil.Proofs.Render.Locality
import Stencil.Proofs.Render.ScopesApart
import Stencil.Proofs.Render.SinkAgreement
import Stencil.Proofs.Render.Transcript
import Stencil.Proofs.Render.WellScoped
import Stencil.Proofs.Tag.Splitting
import Stencil.Proofs.Token.Slices
import Stencil.Proofs.Value.Coercion
import Stencil.Proofs.Value.StackFamily
