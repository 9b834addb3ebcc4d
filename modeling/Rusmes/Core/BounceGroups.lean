import Rusmes.Core.BounceReport
import Rusmes.Smtp.Grammar

/-!
The report of a bounce has one group for each recipient unless a text in it brings an empty line
or a field of its own.
-/

namespace Rusmes

open WireText

/-! The groups of a report. -/

section Groups

variable (dates : DateFormat)

end Groups

/-! The fields of a group. -/

section Own

variable (dates : DateFormat)

end Own

end Rusmes
