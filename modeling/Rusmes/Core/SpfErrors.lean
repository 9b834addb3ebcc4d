import Rusmes.Core.SpfPass

/-!
Errors in an SPF evaluation. Next to the evaluation of the mailet stands that of RFC 7208, in
which every error ends the evaluation; the two agree where no error is met and nothing is asked
for that the mailet leaves out.
-/

namespace Rusmes

open WireText

def SpfMechanism.counted : SpfMechanism → Bool
  | .ip4 _ => false
  | .ip6 _ => false
  | .all => false
  | _ => true

/-- An answer without records is no error. -/
def answered {α : Type} (lookup : Except Text (List α)) : Except SpfResult (List α) :=
  match lookup with
  | .ok records => .ok records
  | .error error => if noRecordsFound error then .ok [] else .error .tempError

section Reference

variable (ctx : SpfContext) (reverse : Text → Bool) (senderIp : IpAddr)

end Reference

/-! Evaluations without errors. -/

section Clean

variable (ctx : SpfContext) (reverse : Text → Bool) (senderIp : IpAddr)

end Clean

section Agree

variable {ctx : SpfContext} {reverse : Text → Bool} {senderIp : IpAddr} {senderDomain : Text}

end Agree

end Rusmes
