import Stencil.Options.Json
import Stencil.Options.Yaml
import Stencil.Proofs.Accessor.Description
import Stencil.Proofs.Accessor.NormalForm
import Stencil.Proofs.Accessor.Paths
import Stencil.Proofs.Accessor.Views
import Stencil.Proofs.Json.Floats
import Stencil.Proofs.Json.Numbers
import Stencil.Proofs.Json.Skipping
import Stencil.Proofs.Json.Tokens
import Stencil.Proofs.MarkerLines.Pointwise
import Stencil.Proofs.MarkerLines.Thinning
import Stencil.Proofs.Options.Layouts
import Stencil.Proofs.Options.Reading
import Stencil.Proofs.Options.Yaml
import Stencil.Proofs.Rendering.Concatenation
import Stencil.Proofs.Rendering.Discipline
import Stencil.Proofs.Rendering.Elements
import Stencil.Proofs.Rendering.Meaning
import Stencil.Proofs.Rendering.Placeholder
import Stencil.Proofs.Rendering.Reach
import Stencil.Proofs.Rendering.Refusal
import Stencil.Proofs.Rendering.Skipping
import Stencil.Proofs.Section.Growing
import Stencil.Proofs.Template.Building
import Stencil.Proofs.Tree.Context
import Stencil.Proofs.Value.Numbers
import Stencil.Proofs.Yaml.Depth
import Stencil.Proofs.Yaml.Flow
import Stencil.Proofs.Yaml.Lines
import Stencil.Template
import Stencil.Tree
