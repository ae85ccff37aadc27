/-!
# Outlines of values

The one-line form in which a value shows what it is made of: records with named
fields, tuples, lists and maps.
-/

namespace RingRouting
namespace Outline

/-- Parts in a row, with commas between them. -/
def row (parts : List String) : String :=
  ", ".intercalate parts

/-- A named field. -/
def field (name value : String) : String :=
  name ++ ": " ++ value

/-- A record with its fields; the last part may be `..` where fields are left out. -/
def record (name : String) (parts : List String) : String :=
  name ++ " \x7b " ++ row parts ++ " \x7d"

/-- A tuple. -/
def tuple (parts : List String) : String :=
  "(" ++ row parts ++ ")"

/-- A list. -/
def list (parts : List String) : String :=
  "[" ++ row parts ++ "]"

/-- A map with its entries. -/
def map (entries : List (String × String)) : String :=
  "\x7b" ++ row (entries.map fun (key, value) => field key value) ++ "\x7d"

/-- A value that may be absent. -/
def option : Option String → String
  | none => "None"
  | some value => "Some(" ++ value ++ ")"

/-- A truth value. -/
def flag (b : Bool) : String :=
  if b then "true" else "false"

end Outline
end RingRouting
