import HostSurvey.Dict
import HostSurvey.Text.Key

/-!
# Hardware inventories

The hardware inventory lists the structures of the firmware tables. A structure starts with its
title on an unindented line, possibly after a line with its handle; its entries follow on indented
lines, a key and a value with a colon between them, and lines indented deeper than the first one
continue the value before them. A blank line, or the next unindented one, ends the structure.
Titles and keys are kept in canonical form, and structures without entries are dropped.
-/

namespace HostSurvey

open Text

/-- The values of one structure by their keys. -/
abbrev InventorySection := Dict String

/-- The structures of a hardware inventory, by their titles and in their order. -/
structure Inventory where
  sections : Dict (List InventorySection)
deriving DecidableEq

namespace Inventory

/-- A structure whose end has not been met. -/
structure OpenSection where
  title : String
  entries : InventorySection := []
  /-- The indentation of the first line, which is that of the keys. -/
  keyIndent : Option Nat := none
  lastKey : Option String := none

/-- What has been read of an inventory: the structures that ended, and the one that may be open. -/
structure Progress where
  ended : Inventory := ⟨[]⟩
  current : Option OpenSection := none

def get (inventory : Inventory) (title : String) : List InventorySection :=
  (Dict.get? inventory.sections title).getD []

/-- Adds a structure after those with the same title. -/
def add (inventory : Inventory) (title : String) (entries : InventorySection) : Inventory :=
  ⟨Dict.insert title (inventory.get title ++ [entries]) inventory.sections⟩

def titles (inventory : Inventory) : List String := Dict.keys inventory.sections

def memoryDevices (inventory : Inventory) : List InventorySection := inventory.get "memory_device"

/-- The value of an entry with one more line. -/
def continueValue (value continuation : String) : String :=
  if value = "" then continuation else value ++ "\n" ++ continuation

def entry? (body : List Char) : Option (String × String) :=
  match splitAtFirst? ':' body with
  | none => none
  | some (label, value) =>
    let key := canonicalKey label
    if key = [] then none else some (String.ofList key, String.ofList (trim value))

def OpenSection.read (open_ : OpenSection) (indent : Nat) (body : List Char) : OpenSection :=
  let keyIndent := open_.keyIndent.getD indent
  let open_ := { open_ with keyIndent := some keyIndent }
  if keyIndent < indent then
    match open_.lastKey with
    | none => open_
    | some key =>
      match Dict.get? open_.entries key with
      | none => open_
      | some value =>
        { open_ with
          entries := Dict.insert key (continueValue value (String.ofList body)) open_.entries }
  else match entry? body with
    | none => open_
    | some (key, value) =>
      { open_ with entries := Dict.insert key value open_.entries, lastKey := some key }

/-- Ends the open structure; one without entries is dropped. -/
def Progress.close (progress : Progress) : Inventory :=
  match progress.current with
  | none => progress.ended
  | some open_ =>
    if open_.entries = [] then progress.ended else progress.ended.add open_.title open_.entries

/-- Whether an unindented line is the title of a structure, and neither a handle nor a comment. -/
def isTitle (body : List Char) : Bool :=
  (after? "Handle ".toList body).isNone && body.head? != some '#'

def Progress.read (progress : Progress) (line : String) : Progress :=
  let body := trim line.toList
  let indent := indentation line.toList
  if body = [] then ⟨progress.close, none⟩
  else if indent = 0 then
    ⟨progress.close,
      if isTitle body then some { title := String.ofList (canonicalKey body) } else none⟩
  else { progress with current := progress.current.map (·.read indent body) }

/-- The inventory of some lines, if at least one structure with an entry is found. -/
def ofLines? (lines : List String) : Option Inventory :=
  let inventory := (lines.foldl Progress.read {}).close
  if inventory.sections = [] then none else some inventory

end Inventory

end HostSurvey
