import HostSurvey.Dict

/-!
# TOML values and tables

The settings of this program are texts, numbers, lists and tables; a document with a scalar of any
other type is refused, since no setting could take it. Tables remember how they came about, which
decides what may still be added to them: a table that a header named as its own cannot be named
again, one that only lies on the way to another may be named later, one made by a dotted name takes
further dotted names, and one written between braces is closed.
-/

namespace HostSurvey.Toml

/-- How a table came about. -/
inductive Origin
  /-- A header names the table. -/
  | header
  /-- A header names a table below it. -/
  | implied
  /-- A dotted name leads through it. -/
  | dotted
  /-- It is written between braces. -/
  | braces
deriving DecidableEq

/-- A TOML value. -/
inductive Value
  | text (value : String)
  | integer (value : Int)
  | array (items : List Value)
  | table (origin : Origin) (fields : List (String × Value))
  /-- The tables that headers in double brackets name, the last one first. -/
  | tables (tables : List (List (String × Value)))

instance : Inhabited Value := ⟨.integer 0⟩

abbrev Table := Dict Value

/-! ## Building tables -/

/-- Changes the table that a path leads to. On the way of a header missing tables are implied and
lists of tables stand for their last one; a dotted name makes its own tables and adds to no table
that a header named. -/
def within (dotted : Bool) (change : Table → Option Table) : List String → Table → Option Table
  | [], fields => change fields
  | key :: path, fields =>
    match Dict.get? fields key with
    | none =>
      (within dotted change path []).map fun inner =>
        Dict.insert key (.table (if dotted then .dotted else .implied) inner) fields
    | some (.table origin inner) =>
      if origin = .braces ∨ (dotted ∧ origin = .header) then none
      else (within dotted change path inner).map fun inner =>
        Dict.insert key (.table origin inner) fields
    | some (.tables (last :: others)) =>
      if dotted then none
      else (within dotted change path last).map fun last =>
        Dict.insert key (.tables (last :: others)) fields
    | some _ => none

def setField (key : String) (value : Value) (fields : Table) : Option Table :=
  if Dict.contains fields key then none else some (Dict.insert key value fields)

/-- Names a table as one of its own. -/
def openTable (key : String) (fields : Table) : Option Table :=
  match Dict.get? fields key with
  | none => some (Dict.insert key (.table .header []) fields)
  | some (.table .implied inner) => some (Dict.insert key (.table .header inner) fields)
  | some _ => none

/-- Adds a table to a list of tables. -/
def pushTable (key : String) (fields : Table) : Option Table :=
  match Dict.get? fields key with
  | none => some (Dict.insert key (.tables [[]]) fields)
  | some (.tables others) => some (Dict.insert key (.tables ([] :: others)) fields)
  | some _ => none

/-- Applies a change at the last name of a path and goes through the names before it. -/
def atLast (dotted : Bool) (change : String → Table → Option Table) (path : List String)
    (fields : Table) : Option Table :=
  match path.getLast? with
  | none => none
  | some key => within dotted (change key) path.dropLast fields

def assign (path : List String) (value : Value) (fields : Table) : Option Table :=
  atLast true (fun key => setField key value) path fields

/-! ## Using values -/

namespace Value

def text? : Value → Option String
  | text value => some value
  | _ => none

/-- The number of a value, if it is not negative and below a limit. -/
def number? (limit : Nat) : Value → Option Nat
  | integer value => if 0 ≤ value ∧ value < limit then some value.toNat else none
  | _ => none

/-- The items of a list, which may be a list of tables. -/
def items? : Value → Option (List Value)
  | array items => some items
  | tables fields => some (fields.reverse.map (table .header))
  | _ => none

def fields? : Value → Option Table
  | table _ fields => some fields
  | _ => none

/-- Whether a value is a list or a table with nothing in it. -/
def isEmpty : Value → Bool
  | array [] => true
  | table _ [] => true
  | _ => false

/-- The choice that a value names: by a text, or by the only field of a table, whose value is
empty. -/
def choice? : Value → Option String
  | text value => some value
  | table _ [(key, value)] => if value.isEmpty then some key else none
  | _ => none

end Value

end HostSurvey.Toml
