/-!
# Blank characters

Every reader of this library cuts text at blanks, where a blank is a character with the Unicode
property `White_Space`. This module holds that class, the removal of blanks at the ends of a text
(`trim`), and the facts about it that the readers use: a trimmed text neither starts nor ends with
a blank, and trimming it again changes nothing.

Texts are lists of characters here; the types of the library hold strings and convert at their
edges.
-/

namespace HostSurvey.Text

/-- Blanks are the characters with the Unicode property `White_Space`. -/
def isBlank (c : Char) : Bool :=
  let n := c.toNat
  (9 ≤ n && n ≤ 13) || n == 0x20 || n == 0x85 || n == 0xA0 || n == 0x1680 ||
    (0x2000 ≤ n && n ≤ 0x200A) || n == 0x2028 || n == 0x2029 || n == 0x202F || n == 0x205F ||
    n == 0x3000

def trimStart (cs : List Char) : List Char := cs.dropWhile isBlank

def trimEnd (cs : List Char) : List Char := (cs.reverse.dropWhile isBlank).reverse

def trim (cs : List Char) : List Char := trimEnd (trimStart cs)

/-- The blanks before a text, measured in the bytes of their UTF-8 form. -/
def indentation : List Char → Nat
  | [] => 0
  | c :: cs => if isBlank c then c.utf8Size + indentation cs else 0

/-! ## Facts -/

theorem head?_dropWhile_not {α : Type u} (p : α → Bool) (items : List α) :
    ∀ item ∈ (items.dropWhile p).head?, p item = false := by
  induction items with
  | nil => simp
  | cons a r ih =>
    by_cases h : p a = true
    · simpa [h] using ih
    · simp [h]

theorem dropWhile_eq_self {α : Type u} (p : α → Bool) {items : List α}
    (h : ∀ item ∈ items.head?, p item = false) : items.dropWhile p = items := by
  cases items with
  | nil => rfl
  | cons a r => simp [h a rfl]

theorem takeWhile_run {α : Type u} {p : α → Bool} {run rest : List α}
    (hrun : ∀ item ∈ run, p item = true) (hrest : ∀ item ∈ rest.head?, p item = false) :
    (run ++ rest).takeWhile p = run := by
  rw [List.takeWhile_append_of_pos hrun]
  cases rest with
  | nil => simp
  | cons a r => simp [hrest a rfl]

theorem dropWhile_run {α : Type u} {p : α → Bool} {run rest : List α}
    (hrun : ∀ item ∈ run, p item = true) (hrest : ∀ item ∈ rest.head?, p item = false) :
    (run ++ rest).dropWhile p = rest := by
  rw [List.dropWhile_append_of_pos hrun, dropWhile_eq_self p hrest]

theorem head?_trimStart (cs : List Char) : ∀ c ∈ (trimStart cs).head?, isBlank c = false :=
  head?_dropWhile_not isBlank cs

theorem getLast?_trimEnd (cs : List Char) : ∀ c ∈ (trimEnd cs).getLast?, isBlank c = false := by
  intro c hc
  rw [trimEnd, List.getLast?_reverse] at hc
  exact head?_dropWhile_not isBlank cs.reverse c hc

theorem trimEnd_append_suffix (cs : List Char) :
    trimEnd cs ++ (cs.reverse.takeWhile isBlank).reverse = cs := by
  rw [trimEnd, ← List.reverse_append, List.takeWhile_append_dropWhile, List.reverse_reverse]

theorem head?_trimEnd {cs : List Char} {c : Char} (h : c ∈ (trimEnd cs).head?) :
    c ∈ cs.head? := by
  have e := trimEnd_append_suffix cs
  cases ht : trimEnd cs with
  | nil => rw [ht] at h; simp at h
  | cons a r =>
    rw [ht] at h e
    rw [← e]
    simpa using h

theorem head?_trim (cs : List Char) : ∀ c ∈ (trim cs).head?, isBlank c = false :=
  fun c hc => head?_trimStart cs c (head?_trimEnd hc)

theorem getLast?_trim (cs : List Char) : ∀ c ∈ (trim cs).getLast?, isBlank c = false :=
  getLast?_trimEnd _

theorem trim_eq_self {cs : List Char} (hs : ∀ c ∈ cs.head?, isBlank c = false)
    (he : ∀ c ∈ cs.getLast?, isBlank c = false) : trim cs = cs := by
  rw [trim, trimStart, dropWhile_eq_self isBlank hs, trimEnd,
    dropWhile_eq_self isBlank (by simpa using he), List.reverse_reverse]

@[simp] theorem trim_trim (cs : List Char) : trim (trim cs) = trim cs :=
  trim_eq_self (head?_trim cs) (getLast?_trim cs)

end HostSurvey.Text
