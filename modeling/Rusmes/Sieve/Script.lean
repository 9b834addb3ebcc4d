import Rusmes.Library.WireText

/-!
The syntax tree of a Sieve script, as `parser.rs` declares it.
-/

namespace Rusmes

open WireText

inductive SieveTest
  | «true»
  | «false»
  | header (comparator : Option Text) (matchType : Text) (headers keys : List Text)
  | address (comparator : Option Text) (matchType : Text) (headers keys : List Text)
  | envelope (comparator : Option Text) (matchType : Text) (parts keys : List Text)
  | «exists» (headers : List Text)
  | size (above : Bool) (limit : Int)
  | allOf (tests : List SieveTest)
  | anyOf (tests : List SieveTest)
  | not (test : SieveTest)

inductive SieveCommand
  | keep
  | fileinto (mailbox : Text)
  | redirect (address : Text)
  | discard
  | stop
  | «if» (test : SieveTest) (thenCommands : List SieveCommand)
      (elsifBranches : List (SieveTest × List SieveCommand))
      (elseCommands : Option (List SieveCommand))
  | require (extensions : List Text)
  | set (name value : Text)
  | vacation (days : Option Int) (subject sender : Option Text) (addresses : List Text)
      (message : Text)

structure SieveScript where
  commands : List SieveCommand
  requires : List Text

namespace SieveScript

def empty : SieveScript := ⟨[], []⟩

def addCommand (script : SieveScript) (command : SieveCommand) : SieveScript where
  commands := script.commands ++ [command]
  requires :=
    match command with
    | .require extensions => script.requires ++ extensions
    | _ => script.requires

def knownExtensions : List Text :=
  ["fileinto".toList, "envelope".toList, "variables".toList, "vacation".toList]

def validate (script : SieveScript) : Except String Unit :=
  match script.requires.find? (· ∉ knownExtensions) with
  | some extension => .error s!"Unknown extension: {String.ofList extension}"
  | none => .ok ()

end SieveScript

end Rusmes
