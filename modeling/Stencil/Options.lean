/-!
# Render options

Rendering has two options: whether newlines after section markers on lines of their own are
dropped, and the text that stands for values that are absent.
-/

namespace Stencil

/-- The options of rendering. -/
structure RenderOptions where
  /-- Whether newlines after section markers on lines of their own are dropped. -/
  collapseMarkerLines : Bool := false
  /-- The text that stands for null. -/
  placeholder : String := ""
  deriving DecidableEq

instance : Inhabited RenderOptions := ⟨{}⟩

end Stencil
