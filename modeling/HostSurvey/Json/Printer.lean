import HostSurvey.Json.Basic
import HostSurvey.Number.Layout
import HostSurvey.Text.Pieces

/-!
# Writing JSON

A layout says what stands at a line break and between a name and its value; report files have the
indented one. Texts are quoted with the short escapes of JSON, other control characters below the
space as `\u00` and two hexadecimal digits, and everything else as it is.
-/

namespace HostSurvey.Json

/-- The optional white space of a written document. -/
structure Layout where
  /-- What stands before an item at a depth of nesting, and before the closing bracket. -/
  lineBreak : Nat → List Char
  /-- What stands between a name and its value. -/
  colon : List Char

/-- Every item on a line of its own, with two spaces for each level of nesting. -/
def Layout.indented : Layout :=
  ⟨fun depth => '\n' :: List.replicate (2 * depth) ' ', [':', ' ']⟩

def escape (c : Char) : List Char :=
  if c = '"' then ['\\', '"']
  else if c = '\\' then ['\\', '\\']
  else if c.toNat = 8 then ['\\', 'b']
  else if c.toNat = 9 then ['\\', 't']
  else if c.toNat = 10 then ['\\', 'n']
  else if c.toNat = 12 then ['\\', 'f']
  else if c.toNat = 13 then ['\\', 'r']
  else if c.toNat < 32 then
    ['\\', 'u', '0', '0', Nat.digitChar (c.toNat / 16), Nat.digitChar (c.toNat % 16)]
  else [c]

def quote (s : String) : List Char := '"' :: (s.toList.flatMap escape ++ ['"'])

/-- Items between brackets; brackets without items stand together. -/
def enclose (layout : Layout) (opening closing : Char) (depth : Nat) :
    List (List Char) → List Char
  | [] => [opening, closing]
  | items =>
    opening :: (layout.lineBreak (depth + 1) ++
      Text.joinWith (',' :: layout.lineBreak (depth + 1)) items ++
      layout.lineBreak depth ++ [closing])

mutual

/-- A value as text, at a depth of nesting. -/
def render (layout : Layout) (depth : Nat) : Json → List Char
  | .null => ['n', 'u', 'l', 'l']
  | .bool true => ['t', 'r', 'u', 'e']
  | .bool false => ['f', 'a', 'l', 's', 'e']
  | .whole n => Number.digitsOf n
  | .real x => x.text
  | .text s => quote s
  | .array items => enclose layout '[' ']' depth (renderItems layout (depth + 1) items)
  | .object fields => enclose layout '{' '}' depth (renderFields layout (depth + 1) fields)

def renderItems (layout : Layout) (depth : Nat) : List Json → List (List Char)
  | [] => []
  | item :: rest => render layout depth item :: renderItems layout depth rest

def renderFields (layout : Layout) (depth : Nat) : List (String × Json) → List (List Char)
  | [] => []
  | (name, value) :: rest =>
    (quote name ++ layout.colon ++ render layout depth value) ::
      renderFields layout depth rest

end

def pretty (value : Json) : String := String.ofList (render .indented 0 value)

end HostSurvey.Json
