import StateCheck.Json.Printer
/-!
Intrinsic calls such as `States.Format('hello {}', $.name)`, and how they are written.

A call is a name with arguments; an argument is a quoted text, a literal, a path or another call.
-/
namespace StateCheck
set_option autoImplicit false

namespace Intrinsic

inductive Arg where
  /-- A quoted text. Escaped braces are still escaped, so that a template can tell them from a
  placeholder. -/
  | text (raw : String)
  | literal (value : Json)
  | path (text : String)
  | call (name : String) (args : List Arg)
deriving Inhabited

structure Call where
  name : String
  args : List Arg

def namePrefix : List Char := "States.".toList

end Intrinsic
end StateCheck
