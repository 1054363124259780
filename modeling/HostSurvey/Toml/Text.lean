import HostSurvey.Text.Pieces

/-!
# TOML texts

Texts stand between quotes of two kinds. Between double quotes a backslash starts an escape;
between single quotes every character stands for itself. Tripled quotes hold texts of several
lines, which do not include a line break just after the opening quotes. Control characters other
than the tab are refused everywhere.
-/

namespace HostSurvey.Toml

open Text

def isPlain (c : Char) : Bool := c == '\t' || (0x20 ≤ c.toNat && c.toNat != 0x7F)

def isSpace (c : Char) : Bool := c == ' ' || c == '\t'

def hexValue? (c : Char) : Option Nat :=
  if c.isDigit then some (c.toNat - '0'.toNat)
  else if 'a' ≤ c ∧ c ≤ 'f' then some (c.toNat - 'a'.toNat + 10)
  else if 'A' ≤ c ∧ c ≤ 'F' then some (c.toNat - 'A'.toNat + 10)
  else none

def hexNumber? (cs : List Char) : Option Nat :=
  cs.foldlM (fun n c => (hexValue? c).map fun digit => n * 16 + digit) 0

/-- The character of a code point that is given by a fixed number of hexadecimal digits. -/
def codePoint? (width : Nat) (cs : List Char) : Option Char :=
  if cs.length < width then none
  else (hexNumber? (cs.take width)).bind fun n =>
    if n.isValidChar then some (Char.ofNat n) else none

/-- The character that an escape stands for, and the length of what follows its backslash. -/
def escape? : List Char → Option (Char × Nat)
  | 'b' :: _ => some ('\x08', 1)
  | 't' :: _ => some ('\t', 1)
  | 'n' :: _ => some ('\n', 1)
  | 'f' :: _ => some ('\x0c', 1)
  | 'r' :: _ => some ('\r', 1)
  | 'e' :: _ => some ('\x1b', 1)
  | '"' :: _ => some ('"', 1)
  | '\\' :: _ => some ('\\', 1)
  | 'x' :: digits => (codePoint? 2 digits).map fun c => (c, 3)
  | 'u' :: digits => (codePoint? 4 digits).map fun c => (c, 5)
  | 'U' :: digits => (codePoint? 8 digits).map fun c => (c, 9)
  | _ => none

/-- The rest of a text between double quotes, and what follows it. -/
def escapedText? : List Char → Option (List Char × List Char)
  | [] => none
  | '"' :: rest => some ([], rest)
  | '\\' :: rest =>
    match escape? rest with
    | none => none
    | some (c, length) =>
      (escapedText? (rest.drop length)).map fun (text, rest) => (c :: text, rest)
  | c :: rest =>
    if isPlain c then (escapedText? rest).map fun (text, rest) => (c :: text, rest) else none
termination_by cs => cs.length
decreasing_by
  · simp only [List.length_drop, List.length_cons]; omega
  · simp

/-- The rest of a text between single quotes, and what follows it. -/
def literalText? (cs : List Char) : Option (List Char × List Char) :=
  match splitAtFirst? '\x27' cs with
  | none => none
  | some (text, rest) => if text.all isPlain then some (text, rest) else none

/-- Quotes that end a text of several lines; up to two quotes before the last three belong to the
text. The result holds those and what follows. -/
def closing? (quote : Char) (cs : List Char) : Option (List Char × List Char) :=
  let run := cs.takeWhile (· == quote)
  if run.length < 3 then none
  else
    let extra := min (run.length - 3) 2
    some (run.take extra, cs.drop (extra + 3))

def skipBreaks : List Char → List Char
  | '\r' :: '\n' :: rest => skipBreaks rest
  | c :: rest => if isSpace c ∨ c = '\n' then skipBreaks rest else c :: rest
  | [] => []

/-- What follows a line break that a backslash at the end of a line takes away, together with all
spaces and line breaks after it. -/
def joinedLine? (cs : List Char) : Option (List Char) :=
  match cs.dropWhile isSpace with
  | '\n' :: rest => some (skipBreaks rest)
  | '\r' :: '\n' :: rest => some (skipBreaks rest)
  | _ => none

theorem length_dropWhile_le (p : Char → Bool) (cs : List Char) :
    (cs.dropWhile p).length ≤ cs.length :=
  (List.dropWhile_suffix p).length_le

theorem length_skipBreaks_le (cs : List Char) : (skipBreaks cs).length ≤ cs.length := by
  fun_induction skipBreaks cs with
  | case1 rest ih => simp only [List.length_cons]; omega
  | case2 c rest _ _ ih => simp only [List.length_cons]; omega
  | case3 => exact Nat.le_refl _
  | case4 => exact Nat.le_refl _

theorem length_joinedLine {cs rest : List Char} (h : joinedLine? cs = some rest) :
    rest.length < cs.length := by
  have hd := length_dropWhile_le isSpace cs
  unfold joinedLine? at h
  split at h
  · next r hr =>
    rw [hr] at hd
    simp only [Option.some.injEq] at h
    subst h
    have := length_skipBreaks_le r
    simp only [List.length_cons] at hd
    omega
  · next r hr =>
    rw [hr] at hd
    simp only [Option.some.injEq] at h
    subst h
    have := length_skipBreaks_le r
    simp only [List.length_cons] at hd
    omega
  · simp at h

/-- The rest of a text of several lines between double quotes, and what follows it. -/
def escapedLines? (cs : List Char) : Option (List Char × List Char) :=
  match closing? '"' cs with
  | some done => some done
  | none =>
    match cs with
    | [] => none
    | '\\' :: rest =>
      match _h : joinedLine? rest with
      | some joined => escapedLines? joined
      | none =>
        match escape? rest with
        | none => none
        | some (c, length) =>
          (escapedLines? (rest.drop length)).map fun (text, rest) => (c :: text, rest)
    | c :: rest =>
      if isPlain c ∨ c = '\n' ∨ (c = '\r' ∧ rest.head? = some '\n') then
        (escapedLines? rest).map fun (text, rest) => (c :: text, rest)
      else none
termination_by cs.length
decreasing_by
  · have := length_joinedLine _h
    simp only [List.length_cons]
    omega
  · simp only [List.length_drop, List.length_cons]; omega
  · simp

/-- The rest of a text of several lines between single quotes, and what follows it. -/
def literalLines? (cs : List Char) : Option (List Char × List Char) :=
  match closing? '\x27' cs with
  | some done => some done
  | none =>
    match cs with
    | [] => none
    | c :: rest =>
      if isPlain c ∨ c = '\n' ∨ (c = '\r' ∧ rest.head? = some '\n') then
        (literalLines? rest).map fun (text, rest) => (c :: text, rest)
      else none

def dropLineBreak : List Char → List Char
  | '\n' :: rest => rest
  | '\r' :: '\n' :: rest => rest
  | cs => cs

/-- The text on one line at the start of an input, and what follows it. -/
def lineText? : List Char → Option (List Char × List Char)
  | '"' :: rest => escapedText? rest
  | '\x27' :: rest => literalText? rest
  | _ => none

/-- The text at the start of an input, which may have several lines, and what follows it. -/
def text? : List Char → Option (List Char × List Char)
  | '"' :: '"' :: '"' :: rest => escapedLines? (dropLineBreak rest)
  | '\x27' :: '\x27' :: '\x27' :: rest => literalLines? (dropLineBreak rest)
  | cs => lineText? cs

end HostSurvey.Toml
