import HostSurvey.Number.Double

/-!
# JSON values

A document is a tree of nulls, truth values, whole numbers, finite doubles, texts, arrays and
objects. The fields of an object are kept in the order in which they are written.
-/

namespace HostSurvey

/-- A JSON value. -/
inductive Json
  | null
  | bool (value : Bool)
  | whole (value : Nat)
  | real (value : Number.Double)
  | text (value : String)
  | array (items : List Json)
  | object (fields : List (String × Json))

namespace Json

/-- A value that may be missing, which is written as null. -/
def ofOption (toJson : α → Json) : Option α → Json
  | none => .null
  | some value => toJson value

def texts (items : List String) : Json := .array (items.map .text)

end Json

end HostSurvey
