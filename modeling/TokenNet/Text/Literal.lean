import TokenNet.Text.Invisible

/-!
# Literals

Reports that show data show it as literals: texts in double quotes, records with their fields in
braces, optional values and lists with their usual marks.  In a quoted text every character that
could not be seen or would end the text is escaped.
-/

namespace TokenNet.Text

/-! ## Quoted texts -/

/-- A character as it stands in a quoted text. -/
def escaped (c : Char) : List Char :=
  if c = '"' then ['\\', '"']
  else if c = '\\' then ['\\', '\\']
  else if c = '\n' then ['\\', 'n']
  else if c = '\r' then ['\\', 'r']
  else if c = '\t' then ['\\', 't']
  else if c = '\x00' then ['\\', '0']
  -- A character that cannot be seen is written by its number
  else if isInvisible c then ['\\', 'u', '\x7b'] ++ Nat.toDigits 16 c.toNat ++ ['\x7d']
  else [c]

/-- A text in quotes. -/
def quoted (text : String) : String :=
  String.ofList ('"' :: (text.toList.flatMap escaped ++ ['"']))

/-! ## Compound values -/

/-- An optional value. -/
def optional {α : Type} (literal : α → String) : Option α → String
  | some value => "Some(" ++ literal value ++ ")"
  | none => "None"

/-- A list. -/
def list {α : Type} (literal : α → String) (values : List α) : String :=
  "[" ++ ", ".intercalate (values.map literal) ++ "]"

/-- A record: its name and its fields in order. -/
def record (name : String) (fields : List (String × String)) : String :=
  let shown := fields.map fun (field, value) => field ++ ": " ++ value
  name ++ " \x7b " ++ ", ".intercalate shown ++ " \x7d"

end TokenNet.Text
