import Lingsway.Library.Json

/-!
# JSON values as Python reads and prints them

The truth value of a value, what a loop over it yields, and its text. How a
string is quoted inside another value is left open.
-/
namespace Lingsway.Library.Json

/-- `bool(x)`. -/
def truthy : Json → Bool
  | null => false
  | bool b => b
  | int n => n ≠ 0
  | float repr => repr ≠ "0.0" && repr ≠ "-0.0"
  | str s => s ≠ ""
  | arr items => !items.isEmpty
  | obj members => !members.isEmpty

/-- `x or default`. -/
def orElse (x default : Json) : Json := if x.truthy then x else default

/-- The values that a loop over `x` yields. -/
def iterate : Json → Option (List Json)
  | arr items => some items
  | str s => some (s.toList.map fun c => str (String.ofList [c]))
  | obj members => some (members.map fun m => str m.1)
  | _ => none

/-- The name of the class of a value. -/
def typeName : Json → String
  | null => "NoneType"
  | bool _ => "bool"
  | int _ => "int"
  | float _ => "float"
  | str _ => "str"
  | arr _ => "list"
  | obj _ => "dict"

section Text

variable (quote : String → String)

mutual

/-- `repr(x)`. -/
def repr : Json → String
  | null => "None"
  | bool b => if b then "True" else "False"
  | int n => toString n
  | float r => r
  | str s => quote s
  | arr items => "[" ++ ", ".intercalate (reprItems items) ++ "]"
  | obj members => "\x7b" ++ ", ".intercalate (reprMembers members) ++ "\x7d"

def reprItems : List Json → List String
  | [] => []
  | x :: xs => repr x :: reprItems xs

def reprMembers : List (String × Json) → List String
  | [] => []
  | (k, x) :: ms => (quote k ++ ": " ++ repr x) :: reprMembers ms

end

/-- `str(x)`. -/
def text : Json → String
  | str s => s
  | x => repr quote x

end Text

end Lingsway.Library.Json
