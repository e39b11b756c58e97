import TokenNet.Primitive

/-!
# Documents

Results are shown as documents: trees of numbers, texts and truth values, written over several
lines with two blanks for each level of depth.  A record shows its fields in the order in which it
holds them; the records of this library hold them in the order of their names.
-/

namespace TokenNet

/-- A tree of data to be shown. -/
inductive Document where
  | null
  | flag (value : Bool)
  | number (value : Int)
  | text (value : String)
  | list (items : List Document)
  | record (fields : List (String × Document))
deriving Repr, Inhabited

namespace Document

/-! ## Leaves -/

/-- The escape of a control character by its code, which has two hexadecimal digits. -/
def codeEscape (c : Char) : List Char :=
  let digits := Nat.toDigits 16 c.toNat
  ['\\', 'u', '0', '0'] ++ List.replicate (2 - digits.length) '0' ++ digits

/-- A character as it stands in a shown text: quotes, backslashes and control characters are
escaped. -/
def shownChar (c : Char) : List Char :=
  if c = '"' then ['\\', '"']
  else if c = '\\' then ['\\', '\\']
  else if c = '\x08' then ['\\', 'b']
  else if c = '\x0c' then ['\\', 'f']
  else if c = '\n' then ['\\', 'n']
  else if c = '\r' then ['\\', 'r']
  else if c = '\t' then ['\\', 't']
  -- The other control characters have no short name
  else if c.toNat < 0x20 then codeEscape c
  else [c]

/-- A text in quotes. -/
def shownText (text : String) : String :=
  String.ofList ('"' :: (text.toList.flatMap shownChar ++ ['"']))

/-! ## Trees -/

/-- The begin of a line at a depth. -/
def margin (depth : Nat) : String :=
  "\n" ++ String.ofList (List.replicate (2 * depth) ' ')

/-- Entries at a depth between brackets, each on a line of its own. -/
def bracketed (opening closing : String) (depth : Nat) (entries : List String) : String :=
  if entries.isEmpty then opening ++ closing
  else
    opening ++ ",".intercalate (entries.map fun entry => margin (depth + 1) ++ entry) ++
      margin depth ++ closing

mutual

/-- The text of a document at a depth. -/
def textAt (depth : Nat) : Document → String
  | null => "null"
  | flag value => if value then "true" else "false"
  | number value => toString value
  | text value => shownText value
  | list items => bracketed "[" "]" depth (itemTexts (depth + 1) items)
  | record fields => bracketed "\x7b" "\x7d" depth (fieldTexts (depth + 1) fields)

/-- The texts of the items of a list at a depth. -/
def itemTexts (depth : Nat) : List Document → List String
  | [] => []
  | item :: rest => textAt depth item :: itemTexts depth rest

/-- The texts of the fields of a record at a depth. -/
def fieldTexts (depth : Nat) : List (String × Document) → List String
  | [] => []
  | (name, value) :: rest =>
    (shownText name ++ ": " ++ textAt depth value) :: fieldTexts depth rest

end

/-- The text of a whole document. -/
def render (document : Document) : String :=
  document.textAt 0

/-! ## Documents of plain data -/

/-- A whole number from zero on. -/
def natural (value : Nat) : Document :=
  number value

/-- A value. -/
def value (value : Value) : Document :=
  number value.toInt

/-- A list of data of one kind. -/
def listOf {α : Type} (document : α → Document) (items : List α) : Document :=
  list (items.map document)

/-- An optional piece of data. -/
def optional {α : Type} (document : α → Document) : Option α → Document
  | some item => document item
  | none => null

end Document

end TokenNet
