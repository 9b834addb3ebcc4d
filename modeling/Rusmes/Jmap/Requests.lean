import Rusmes.Jmap.Substitution

/-!
A request as a whole: which requests are refused, and what is answered to the others.
-/

namespace Rusmes

open WireText

def MethodCall.Proper (call : MethodCall) : Prop :=
  call.method ≠ [] ∧ call.id ≠ [] ∧ call.arguments.isObject = true

section Replies

variable {σ : Type} {api : JmapApi σ} {capabilities : List Text} {principal : Principal}

end Replies

end Rusmes
