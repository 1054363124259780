import HostSurvey.Json.Printer
import HostSurvey.Proofs.Number.ReadBack
import Mathlib.Tactic.IntervalCases

/-!
# Values can be told from their texts

What is written for a value can be told from what follows it, and the value from what is written. A
number is the one value whose end is not seen from its text; what follows it is a comma, a bracket
or a blank.
-/

namespace HostSurvey.Json

/-! ## Texts that can be split off -/

/-- The characters of numbers. -/
def isNumberChar (c : Char) : Bool := c.isDigit || "+-.e".toList.contains c

/-- No number goes on here. -/
def Ended (rest : List Char) : Prop := ∀ c ∈ rest.head?, isNumberChar c = false

/-- What is written for something can be split off the front of any longer text. -/
def SplitsOff {α : Type} (write : α → List Char) (a : α) : Prop :=
  ∀ b s t, write a ++ s = write b ++ t → a = b ∧ s = t

/-- What is written for something can be split off where it is ended. -/
def EndsOff {α : Type} (write : α → List Char) (a : α) : Prop :=
  ∀ b s t, Ended s → Ended t → write a ++ s = write b ++ t → a = b ∧ s = t

theorem ended_nil : Ended [] := nofun

theorem ended_cons {c : Char} (h : isNumberChar c = false) (rest : List Char) :
    Ended (c :: rest) := by
  intro d hd
  cases hd
  exact h

/-! ## Quoted texts -/

/-- The value of a hexadecimal digit in small letters. -/
def hexValue (c : Char) : Nat := if c.isDigit then c.toNat - 48 else c.toNat - 87

/-- The character of a short escape. -/
def shortEscape (code : Char) : Char :=
  if code = 'b' then Char.ofNat 8
  else if code = 't' then Char.ofNat 9
  else if code = 'n' then Char.ofNat 10
  else if code = 'f' then Char.ofNat 12
  else if code = 'r' then Char.ofNat 13
  else code

/-- The character that is written at the start of a quoted text, and what follows. -/
def readEscaped : List Char → Char × List Char
  | '\\' :: 'u' :: '0' :: '0' :: high :: low :: rest =>
    (Char.ofNat (16 * hexValue high + hexValue low), rest)
  | '\\' :: code :: rest => (shortEscape code, rest)
  | c :: rest => (c, rest)
  | [] => ('"', [])

theorem readEscaped_control {c : Char} (h : c.toNat < 32) (rest : List Char) :
    readEscaped (escape c ++ rest) = (c, rest) := by
  have key : ∀ n < 32, readEscaped (escape (Char.ofNat n) ++ rest) = (Char.ofNat n, rest) := by
    intro n hn
    interval_cases n <;> rfl
  have hc := key c.toNat h
  rw [Char.ofNat_toNat] at hc
  exact hc

theorem escape_plain {c : Char} (hcontrol : ¬ c.toNat < 32) (hquote : c ≠ '"')
    (hslash : c ≠ '\\') : escape c = [c] := by
  unfold escape
  rw [if_neg hquote, if_neg hslash, if_neg (by omega), if_neg (by omega), if_neg (by omega),
    if_neg (by omega), if_neg (by omega), if_neg hcontrol]

theorem readEscaped_plain {c : Char} (hslash : c ≠ '\\') (rest : List Char) :
    readEscaped (c :: rest) = (c, rest) := by
  unfold readEscaped
  split
  · rename_i heq
    cases heq
    exact absurd rfl hslash
  · rename_i heq
    cases heq
    exact absurd rfl hslash
  · rename_i heq
    cases heq
    rfl
  · rename_i heq
    cases heq

theorem readEscaped_escape (c : Char) (rest : List Char) :
    readEscaped (escape c ++ rest) = (c, rest) := by
  by_cases hcontrol : c.toNat < 32
  · exact readEscaped_control hcontrol rest
  by_cases hquote : c = '"'
  · rw [hquote]
    rfl
  by_cases hslash : c = '\\'
  · rw [hslash]
    rfl
  rw [escape_plain hcontrol hquote hslash]
  exact readEscaped_plain hslash rest

theorem escape_splitsOff (c : Char) : SplitsOff escape c := by
  intro d s t h
  have hread := readEscaped_escape c s
  rw [h, readEscaped_escape] at hread
  cases hread
  exact ⟨rfl, rfl⟩

-- The quote at the end is not the start of an escaped character: a quote is escaped itself.
theorem escape_append_ne_quote (c : Char) (s t : List Char) : escape c ++ s ≠ '"' :: t := by
  intro h
  have hread := readEscaped_escape c s
  rw [h, readEscaped_plain (by decide)] at hread
  cases hread
  cases h

theorem flatMap_escape_inj : ∀ {one other s t : List Char},
    one.flatMap escape ++ '"' :: s = other.flatMap escape ++ '"' :: t → one = other ∧ s = t
  | [], [], s, t, h => ⟨rfl, (List.cons.inj h).2⟩
  | [], c :: other, s, t, h => by
    rw [List.flatMap_cons, List.append_assoc] at h
    exact absurd h.symm (escape_append_ne_quote c _ _)
  | c :: one, [], s, t, h => by
    rw [List.flatMap_cons, List.append_assoc] at h
    exact absurd h (escape_append_ne_quote c _ _)
  | c :: one, d :: other, s, t, h => by
    rw [List.flatMap_cons, List.flatMap_cons, List.append_assoc, List.append_assoc] at h
    rcases escape_splitsOff c d _ _ h with ⟨rfl, hrest⟩
    rcases flatMap_escape_inj hrest with ⟨rfl, rfl⟩
    exact ⟨rfl, rfl⟩

theorem quote_splitsOff (text : String) : SplitsOff quote text := by
  intro other s t h
  unfold quote at h
  rw [List.cons_append, List.cons_append, List.append_assoc, List.append_assoc] at h
  rcases flatMap_escape_inj (List.cons.inj h).2 with ⟨htext, hrest⟩
  exact ⟨String.toList_inj.1 htext, hrest⟩

/-! ## Numbers -/

theorem isNumberChar_of_isDigit {c : Char} (h : c.isDigit = true) : isNumberChar c = true := by
  rw [isNumberChar, h, Bool.true_or]

-- Two runs of number characters that are ended are the same.
theorem numberChars_endOff {one other s t : List Char} (hone : ∀ c ∈ one, isNumberChar c = true)
    (hother : ∀ c ∈ other, isNumberChar c = true) (hs : Ended s) (ht : Ended t)
    (h : one ++ s = other ++ t) : one = other ∧ s = t := by
  have heq : one = other := by rw [← Text.takeWhile_run hone hs, h, Text.takeWhile_run hother ht]
  rw [heq] at h
  exact ⟨heq, List.append_cancel_left h⟩

section

open Number

theorem isNumberChar_of_mem_digitsOf {n : Nat} {c : Char} (h : c ∈ digitsOf n) :
    isNumberChar c = true := isNumberChar_of_isDigit (isDigit_of_mem_digitsOf c h)

theorem isNumberChar_of_mem_zeros {count : Nat} {c : Char} (h : c ∈ List.replicate count '0') :
    isNumberChar c = true := isNumberChar_of_isDigit (isDigit_of_mem_zeros c h)

theorem mem_mantissa {digits : List Char} {c : Char} (h : c ∈ mantissa digits) :
    c ∈ digits ∨ c = '.' := by
  cases digits with
  | nil => cases h
  | cons first rest =>
    cases rest with
    | nil => exact .inl h
    | cons second rest =>
      simp only [mantissa, List.mem_cons] at h ⊢
      grind

theorem isNumberChar_of_mem_decimal {d : Decimal} {c : Char} (h : c ∈ d.text) :
    isNumberChar c = true := by
  have hpoint : isNumberChar '.' = true := by decide
  unfold Decimal.text at h
  dsimp only at h
  split at h
  · split at h
    · simp only [List.mem_append, List.mem_cons, List.not_mem_nil, or_false] at h
      rcases h with (h | h) | rfl | rfl
      · exact isNumberChar_of_mem_digitsOf h
      · exact isNumberChar_of_mem_zeros h
      · exact hpoint
      · decide
    · split at h
      · simp only [List.mem_append, List.mem_cons] at h
        rcases h with h | rfl | h
        · exact isNumberChar_of_mem_digitsOf (List.mem_of_mem_take h)
        · exact hpoint
        · exact isNumberChar_of_mem_digitsOf (List.mem_of_mem_drop h)
      · simp only [List.mem_append, List.mem_cons] at h
        rcases h with (rfl | rfl | h) | h
        · decide
        · exact hpoint
        · exact isNumberChar_of_mem_zeros h
        · exact isNumberChar_of_mem_digitsOf h
  · simp only [List.mem_append, List.mem_cons] at h
    rcases h with h | rfl | rfl | h
    · rcases mem_mantissa h with h | rfl
      · exact isNumberChar_of_mem_digitsOf h
      · exact hpoint
    · decide
    · split <;> decide
    · exact isNumberChar_of_mem_digitsOf h

theorem isNumberChar_of_mem_text {x : Double} {c : Char} (h : c ∈ x.text) :
    isNumberChar c = true := by
  unfold Double.text at h
  rcases List.mem_append.1 h with h | h
  · cases hsign : x.negative with
    | true =>
      rw [hsign] at h
      rw [List.mem_singleton.1 h]
      decide
    | false =>
      rw [hsign] at h
      cases h
  · split at h
    · simp only [List.mem_cons, List.not_mem_nil, or_false] at h
      rcases h with rfl | rfl | rfl <;> decide
    · exact isNumberChar_of_mem_decimal h

-- A double is written with a point or an exponent, unlike a whole number.
theorem exists_mem_text (x : Double) : ∃ c ∈ x.text, c.isDigit = false := by
  have hdecimal : ∀ d : Decimal, '.' ∈ d.text ∨ 'e' ∈ d.text := by
    intro d
    unfold Decimal.text
    dsimp only
    split
    · split
      · simp
      · split <;> simp
    · simp
  unfold Double.text
  split
  · exact ⟨'.', by simp, by decide⟩
  · rcases hdecimal (shortestDecimal x.pattern) with h | h
    · exact ⟨'.', List.mem_append_right _ h, by decide⟩
    · exact ⟨'e', List.mem_append_right _ h, by decide⟩

theorem digitsOf_ne_text (n : Nat) (x : Double) : digitsOf n ≠ x.text := by
  intro h
  rcases exists_mem_text x with ⟨c, hmem, hc⟩
  rw [← h] at hmem
  rw [isDigit_of_mem_digitsOf c hmem] at hc
  cases hc

theorem digitsOf_injective : Function.Injective digitsOf := by
  intro m n h
  rw [← natOfDigits_digitsOf m, h, natOfDigits_digitsOf]

end

/-! ## Items between brackets -/

/-- The line breaks of a layout are blanks. -/
def Layout.Blank (layout : Layout) : Prop :=
  ∀ depth, ∀ c ∈ layout.lineBreak depth, c = ' ' ∨ c = '\n'

theorem Layout.blank_indented : Layout.indented.Blank := by
  intro depth c hc
  rcases List.mem_cons.1 hc with rfl | hc
  · exact .inr rfl
  · exact .inl (List.eq_of_mem_replicate hc)

/-- A bracket that closes an array or an object. -/
def IsClosing (c : Char) : Prop := c = ']' ∨ c = '}'

section Enclosed

variable {α : Type} {write : α → List Char} {layout : Layout} {opening closing : Char}

-- Behind the last item there is no comma.
theorem lineBreak_append_ne_comma (blank : layout.Blank) (hclosing : IsClosing closing)
    (depth : Nat) (s t : List Char) : layout.lineBreak depth ++ closing :: s ≠ ',' :: t := by
  intro h
  cases hbreak : layout.lineBreak depth with
  | nil =>
    rw [hbreak] at h
    cases h
    rcases hclosing with h | h <;> cases h
  | cons c cs =>
    have hc := blank depth c (by rw [hbreak]; exact List.mem_cons_self)
    rw [hbreak] at h
    cases h
    rcases hc with h | h <;> cases h

theorem ended_lineBreak_append (blank : layout.Blank) (hclosing : IsClosing closing)
    (depth : Nat) (s : List Char) : Ended (layout.lineBreak depth ++ closing :: s) := by
  cases hbreak : layout.lineBreak depth with
  | nil =>
    apply ended_cons
    rcases hclosing with rfl | rfl <;> decide
  | cons c cs =>
    have hc := blank depth c (by rw [hbreak]; exact List.mem_cons_self)
    apply ended_cons
    rcases hc with rfl | rfl <;> decide

/-- What stands behind an item: the items that follow it, each after a comma, and what closes
them. -/
def behind (write : α → List Char) (separator close : List Char) : List α → List Char
  | [] => close
  | item :: rest => ',' :: (separator ++ (write item ++ behind write separator close rest))

theorem joinWith_map_append (separator close : List Char) (item : α) (rest : List α) :
    Text.joinWith (',' :: separator) ((item :: rest).map write) ++ close =
      write item ++ behind write separator close rest := by
  induction rest generalizing item with
  | nil => rfl
  | cons next rest ih =>
    rw [behind, ← ih next]
    simp [Text.joinWith]

theorem ended_behind {separator close : List Char} (h : Ended close) (items : List α) :
    Ended (behind write separator close items) := by
  cases items with
  | nil => exact h
  | cons item rest => exact ended_cons (by decide) _

theorem behind_inj (blank : layout.Blank) (hclosing : IsClosing closing) {separator : List Char}
    {depth : Nat} {s t : List Char} :
    ∀ {one other : List α}, (∀ item ∈ one, EndsOff write item) →
      behind write separator (layout.lineBreak depth ++ closing :: s) one =
        behind write separator (layout.lineBreak depth ++ closing :: t) other →
      one = other ∧ s = t
  | [], [], _, h => ⟨rfl, (List.cons.inj (List.append_cancel_left h)).2⟩
  | [], _ :: _, _, h => absurd h (lineBreak_append_ne_comma blank hclosing _ _ _)
  | _ :: _, [], _, h => absurd h.symm (lineBreak_append_ne_comma blank hclosing _ _ _)
  | a :: one, b :: other, hwrite, h => by
    have hitems := List.append_cancel_left (List.cons.inj h).2
    rcases hwrite a List.mem_cons_self b _ _
      (ended_behind (ended_lineBreak_append blank hclosing _ _) _)
      (ended_behind (ended_lineBreak_append blank hclosing _ _) _) hitems with ⟨rfl, hbehind⟩
    rcases behind_inj blank hclosing (fun item hitem => hwrite item (List.mem_cons_of_mem _ hitem))
      hbehind with ⟨rfl, hrest⟩
    exact ⟨rfl, hrest⟩

theorem enclose_nil_append (depth : Nat) (s : List Char) :
    enclose layout opening closing depth (([] : List α).map write) ++ s =
      opening :: closing :: s := rfl

theorem enclose_cons_append (depth : Nat) (item : α) (rest : List α) (s : List Char) :
    enclose layout opening closing depth ((item :: rest).map write) ++ s =
      opening :: (layout.lineBreak (depth + 1) ++ (write item ++
        behind write (layout.lineBreak (depth + 1)) (layout.lineBreak depth ++ closing :: s)
          rest)) := by
  rw [← joinWith_map_append]
  simp [enclose]

-- The first item is not taken for the closing bracket.
theorem lineBreak_append_ne_closing (blank : layout.Blank) (hclosing : IsClosing closing)
    (depth : Nat) {item : List Char} (hitem : item ≠ []) (hhead : ∀ c ∈ item.head?, ¬ IsClosing c)
    (rest s : List Char) : layout.lineBreak depth ++ (item ++ rest) ≠ closing :: s := by
  intro h
  cases hbreak : layout.lineBreak depth with
  | nil =>
    cases item with
    | nil => exact hitem rfl
    | cons c cs =>
      rw [hbreak] at h
      cases h
      exact hhead _ rfl hclosing
  | cons c cs =>
    have hc := blank depth c (by rw [hbreak]; exact List.mem_cons_self)
    rw [hbreak] at h
    cases h
    rcases hc with rfl | rfl <;> rcases hclosing with h | h <;> cases h

/-- Items between brackets can be split off when each of the items can be. -/
theorem enclose_inj (blank : layout.Blank) (hclosing : IsClosing closing) {depth : Nat}
    (hitems : ∀ item, write item ≠ [] ∧ ∀ c ∈ (write item).head?, ¬ IsClosing c)
    {one other : List α} (hwrite : ∀ item ∈ one, EndsOff write item) {s t : List Char}
    (h : enclose layout opening closing depth (one.map write) ++ s =
      enclose layout opening closing depth (other.map write) ++ t) : one = other ∧ s = t := by
  cases one with
  | nil =>
    cases other with
    | nil =>
      rw [enclose_nil_append, enclose_nil_append] at h
      cases h
      exact ⟨rfl, rfl⟩
    | cons b other =>
      rw [enclose_nil_append, enclose_cons_append] at h
      exact absurd (List.cons.inj h).2.symm
        (lineBreak_append_ne_closing blank hclosing _ (hitems b).1 (hitems b).2 _ _)
  | cons a one =>
    cases other with
    | nil =>
      rw [enclose_nil_append, enclose_cons_append] at h
      exact absurd (List.cons.inj h).2
        (lineBreak_append_ne_closing blank hclosing _ (hitems a).1 (hitems a).2 _ _)
    | cons b other =>
      rw [enclose_cons_append, enclose_cons_append] at h
      have hitem := List.append_cancel_left (List.cons.inj h).2
      rcases hwrite a List.mem_cons_self b _ _
        (ended_behind (ended_lineBreak_append blank hclosing _ _) _)
        (ended_behind (ended_lineBreak_append blank hclosing _ _) _) hitem with ⟨rfl, hbehind⟩
      rcases behind_inj blank hclosing
        (fun item hmem => hwrite item (List.mem_cons_of_mem _ hmem)) hbehind with ⟨rfl, hrest⟩
      exact ⟨rfl, hrest⟩

end Enclosed

/-! ## Values -/

section Values

variable (layout : Layout)

theorem renderItems_eq_map (depth : Nat) (items : List Json) :
    renderItems layout depth items = items.map (render layout depth) := by
  induction items with
  | nil => rfl
  | cons item rest ih => rw [renderItems, ih, List.map_cons]

/-- A field as text: its quoted name and its value. -/
def renderField (depth : Nat) (field : String × Json) : List Char :=
  quote field.1 ++ layout.colon ++ render layout depth field.2

theorem renderFields_eq_map (depth : Nat) (fields : List (String × Json)) :
    renderFields layout depth fields = fields.map (renderField layout depth) := by
  induction fields with
  | nil => rfl
  | cons field rest ih =>
    rw [renderFields, ih, List.map_cons]
    rfl

/-- How the text of a value starts. Both kinds of numbers start alike. -/
inductive Start
  | null | bool | number | text | array | object
deriving DecidableEq

def start : Json → Start
  | .null => .null
  | .bool _ => .bool
  | .whole _ => .number
  | .real _ => .number
  | .text _ => .text
  | .array _ => .array
  | .object _ => .object

def startOf (c : Char) : Option Start :=
  if c = 'n' then some .null
  else if c = 't' ∨ c = 'f' then some .bool
  else if isNumberChar c then some .number
  else if c = '"' then some .text
  else if c = '[' then some .array
  else if c = '{' then some .object
  else none

theorem startOf_numberChar {c : Char} (h : isNumberChar c = true) : startOf c = some .number := by
  have hne : ∀ d, isNumberChar d = false → c ≠ d := by
    intro d hd heq
    rw [heq, hd] at h
    cases h
  simp [startOf, hne 'n' (by decide), hne 't' (by decide), hne 'f' (by decide), h]

theorem exists_enclose_eq_cons (opening closing : Char) (depth : Nat) (items : List (List Char)) :
    ∃ rest, enclose layout opening closing depth items = opening :: rest := by
  cases items with
  | nil => exact ⟨_, rfl⟩
  | cons item rest => exact ⟨_, rfl⟩

theorem exists_render_eq_cons (depth : Nat) (value : Json) :
    ∃ c rest, render layout depth value = c :: rest ∧ startOf c = some value.start := by
  cases value with
  | null => exact ⟨_, _, rfl, rfl⟩
  | bool b => cases b <;> exact ⟨_, _, rfl, rfl⟩
  | whole n =>
    rcases List.exists_cons_of_ne_nil (Number.digitsOf_ne_nil n) with ⟨c, rest, h⟩
    have hc : c ∈ Number.digitsOf n := by rw [h]; exact List.mem_cons_self
    exact ⟨c, rest, h, startOf_numberChar (isNumberChar_of_mem_digitsOf hc)⟩
  | real x =>
    have hne : x.text ≠ [] := by
      rcases exists_mem_text x with ⟨c, hmem, -⟩
      exact List.ne_nil_of_mem hmem
    rcases List.exists_cons_of_ne_nil hne with ⟨c, rest, h⟩
    have hc : c ∈ x.text := by rw [h]; exact List.mem_cons_self
    exact ⟨c, rest, h, startOf_numberChar (isNumberChar_of_mem_text hc)⟩
  | text s => exact ⟨_, _, rfl, rfl⟩
  | array items =>
    rcases exists_enclose_eq_cons layout '[' ']' depth (renderItems layout (depth + 1) items) with
      ⟨rest, h⟩
    exact ⟨_, rest, h, rfl⟩
  | object fields =>
    rcases exists_enclose_eq_cons layout '{' '}' depth (renderFields layout (depth + 1) fields)
      with ⟨rest, h⟩
    exact ⟨_, rest, h, rfl⟩

theorem start_eq_of_render_append_eq {depth : Nat} {a b : Json} {s t : List Char}
    (h : render layout depth a ++ s = render layout depth b ++ t) : a.start = b.start := by
  rcases exists_render_eq_cons layout depth a with ⟨c, rest, ha, hc⟩
  rcases exists_render_eq_cons layout depth b with ⟨d, rest', hb, hd⟩
  rw [ha, hb] at h
  rw [← (List.cons.inj h).1, hc] at hd
  exact Option.some.inj hd

theorem render_item (depth : Nat) (item : Json) : render layout depth item ≠ [] ∧
    ∀ c ∈ (render layout depth item).head?, ¬ IsClosing c := by
  rcases exists_render_eq_cons layout depth item with ⟨c, rest, h, hc⟩
  rw [h]
  apply And.intro (List.cons_ne_nil c rest)
  intro d hd hclosing
  cases hd
  rcases hclosing with rfl | rfl <;> cases hc

theorem renderField_item (depth : Nat) (field : String × Json) :
    renderField layout depth field ≠ [] ∧
      ∀ c ∈ (renderField layout depth field).head?, ¬ IsClosing c := by
  apply And.intro (List.cons_ne_nil _ _)
  intro c hc hclosing
  cases hc
  rcases hclosing with h | h <;> cases h

theorem renderField_endsOff {depth : Nat} {field : String × Json}
    (hvalue : EndsOff (render layout depth) field.2) : EndsOff (renderField layout depth) field := by
  intro other s t hs ht h
  unfold renderField at h
  rw [List.append_assoc, List.append_assoc, List.append_assoc, List.append_assoc] at h
  rcases quote_splitsOff _ _ _ _ h with ⟨hname, hrest⟩
  rcases hvalue _ _ _ hs ht (List.append_cancel_left hrest) with ⟨hvalue, hrest⟩
  exact ⟨Prod.ext hname hvalue, hrest⟩

variable {layout}

/-- What is written for a value tells the value, and where it ends. -/
theorem render_endsOff (blank : layout.Blank) :
    ∀ (value : Json) (depth : Nat), EndsOff (render layout depth) value
  | .null, depth, other, s, t, _, _, h => by
    have hstart := start_eq_of_render_append_eq layout h
    cases other with
    | null => exact ⟨rfl, List.append_cancel_left h⟩
    | _ => cases hstart
  | .bool b, depth, other, s, t, _, _, h => by
    have hstart := start_eq_of_render_append_eq layout h
    cases other with
    | bool b' =>
      cases b <;> cases b' <;> cases h
      · exact ⟨rfl, rfl⟩
      · exact ⟨rfl, rfl⟩
    | _ => cases hstart
  | .whole n, depth, other, s, t, hs, ht, h => by
    have hstart := start_eq_of_render_append_eq layout h
    cases other with
    | whole n' =>
      have hends := numberChars_endOff (fun c => isNumberChar_of_mem_digitsOf)
        (fun c => isNumberChar_of_mem_digitsOf) hs ht h
      exact ⟨by rw [digitsOf_injective hends.1], hends.2⟩
    | real x =>
      have hends := numberChars_endOff (fun c => isNumberChar_of_mem_digitsOf)
        (fun c => isNumberChar_of_mem_text) hs ht h
      exact absurd hends.1 (digitsOf_ne_text n x)
    | _ => cases hstart
  | .real x, depth, other, s, t, hs, ht, h => by
    have hstart := start_eq_of_render_append_eq layout h
    cases other with
    | whole n =>
      have hends := numberChars_endOff (fun c => isNumberChar_of_mem_text)
        (fun c => isNumberChar_of_mem_digitsOf) hs ht h
      exact absurd hends.1.symm (digitsOf_ne_text n x)
    | real x' =>
      have hends := numberChars_endOff (fun c => isNumberChar_of_mem_text)
        (fun c => isNumberChar_of_mem_text) hs ht h
      exact ⟨by rw [Number.Double.text_injective hends.1], hends.2⟩
    | _ => cases hstart
  | .text content, depth, other, s, t, _, _, h => by
    have hstart := start_eq_of_render_append_eq layout h
    cases other with
    | text content' =>
      rcases quote_splitsOff content _ _ _ h with ⟨rfl, hrest⟩
      exact ⟨rfl, hrest⟩
    | _ => cases hstart
  | .array items, depth, other, s, t, _, _, h => by
    have hstart := start_eq_of_render_append_eq layout h
    cases other with
    | array items' =>
      rw [render, render, renderItems_eq_map, renderItems_eq_map] at h
      have hitems : ∀ item ∈ items, EndsOff (render layout (depth + 1)) item :=
        fun item hmem => render_endsOff blank item (depth + 1)
      rcases enclose_inj blank (.inl rfl) (render_item layout (depth + 1)) hitems h with
        ⟨rfl, hrest⟩
      exact ⟨rfl, hrest⟩
    | _ => cases hstart
  | .object fields, depth, other, s, t, _, _, h => by
    have hstart := start_eq_of_render_append_eq layout h
    cases other with
    | object fields' =>
      rw [render, render, renderFields_eq_map, renderFields_eq_map] at h
      have hfields : ∀ field ∈ fields, EndsOff (renderField layout (depth + 1)) field :=
        fun field hmem => renderField_endsOff layout (render_endsOff blank field.2 (depth + 1))
      rcases enclose_inj blank (.inr rfl) (renderField_item layout (depth + 1)) hfields h with
        ⟨rfl, hrest⟩
      exact ⟨rfl, hrest⟩
    | _ => cases hstart
termination_by value => value
decreasing_by
  · have hsize := List.sizeOf_lt_of_mem hmem
    simp only [array.sizeOf_spec]
    omega
  · have hsize := List.sizeOf_lt_of_mem hmem
    cases field
    simp only [object.sizeOf_spec, Prod.mk.sizeOf_spec] at hsize ⊢
    omega

end Values

theorem render_injective {layout : Layout} (blank : layout.Blank) (depth : Nat) :
    Function.Injective (render layout depth) := by
  intro a b h
  have htext : render layout depth a ++ [] = render layout depth b ++ [] := by rw [h]
  exact (render_endsOff blank a depth b _ _ ended_nil ended_nil htext).1

theorem pretty_injective : Function.Injective pretty := by
  intro a b h
  exact render_injective Layout.blank_indented 0 (String.ofList_inj.1 h)

end HostSurvey.Json
