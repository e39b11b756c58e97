import TokenNet.Limits
import TokenNet.Text.Blank
import TokenNet.Text.Line
import TokenNet.Text.Numeral

/-!
# Settings

Limits are read from a settings text.  Each line of it is blank or sets one limit by its name, and
a comment may stand at its end.  No limit is set twice, and names that are not those of limits are
refused, so that a misspelt name does not pass unnoticed.

A name is written bare or in quotes.  A number is written in decimal, or after `0x`, `0o` or `0b`
in another base; underscores may stand between two digits.  It must fit into 63 bits, and the call
limit into 32.
-/

namespace TokenNet.Limits

open TokenNet.Text

/-! ## Names -/

/-- What a settings text can set. -/
inductive Setting where
  | callLimit
  | chainLimit
  | nestingLimit
deriving DecidableEq, Repr, Inhabited

/-- The name of a setting. -/
def Setting.name : Setting → String
  | callLimit => "call_limit"
  | chainLimit => "max_chain_depth"
  | nestingLimit => "max_nesting_depth"

/-- The setting of a name. -/
def Setting.ofName? (name : String) : Option Setting :=
  [callLimit, chainLimit, nestingLimit].find? fun setting => setting.name == name

/-- The least number that is too large for a setting. -/
def Setting.bound : Setting → Nat
  | callLimit => UInt32.size
  | chainLimit => UInt64.size / 2
  | nestingLimit => UInt64.size / 2

/-- The character of a code point written in hexadecimal digits. -/
def codePoint? (digits : List Char) : Option Char :=
  (natural? 16 digits).bind fun n => if n.isValidChar then some (Char.ofNat n) else none

/-- The text between double quotes: a code point may be written by four hexadecimal digits after
`\u` or by eight after `\U`.  No name of a setting needs any other escape. -/
def unescape : List Char → Option (List Char)
  | [] => some []
  | '\\' :: 'u' :: a :: b :: c :: d :: rest => do
    return (← codePoint? [a, b, c, d]) :: (← unescape rest)
  | '\\' :: 'U' :: a :: b :: c :: d :: e :: f :: g :: h :: rest => do
    return (← codePoint? [a, b, c, d, e, f, g, h]) :: (← unescape rest)
  | c :: rest => if c = '\\' ∨ c = '"' then none else (unescape rest).map (c :: ·)

/-- The name that a key stands for: bare, in double quotes, or in single quotes as it is. -/
def key? (written : List Char) : Option String :=
  match written with
  | '"' :: rest =>
    if rest.getLast? = some '"' then (unescape rest.dropLast).map String.ofList else none
  | '\'' :: rest =>
    if rest.getLast? = some '\'' then some (String.ofList rest.dropLast) else none
  | bare => some (String.ofList bare)

/-! ## Numbers -/

/-- The number written by digits with underscores between them. -/
def grouped? (base : Nat) (digits : List Char) : Option Nat :=
  let groups := fields '_' digits
  if groups.any List.isEmpty then none else natural? base groups.flatten

/-- A decimal numeral does not begin with a zero unless it is zero. -/
def decimal? (digits : List Char) : Option Nat :=
  match digits with
  | '0' :: _ :: _ => none
  | digits => grouped? 10 digits

/-- The number of a setting.  The only number that takes a minus sign is zero. -/
def number? (written : List Char) : Option Nat :=
  match written with
  | '0' :: 'x' :: digits => grouped? 16 digits
  | '0' :: 'o' :: digits => grouped? 8 digits
  | '0' :: 'b' :: digits => grouped? 2 digits
  | '+' :: digits => decimal? digits
  | '-' :: digits => (decimal? digits).filter (· = 0)
  | digits => decimal? digits

/-! ## Lines -/

/-- Whether a character may stand in a comment: no control character but the tab. -/
def isCommentChar (c : Char) : Bool :=
  c == '\t' || (0x20 ≤ c.toNat && c.toNat != 0x7F)

/-- What a line sets, if it is not blank. -/
def line? (line : List Char) : Option (Option (Setting × Nat)) := do
  let body := line.takeWhile (· ≠ '#')
  let comment := line.dropWhile (· ≠ '#')
  if comment.all isCommentChar then
    match trimBy isLineBlank body with
    | [] => return none
    | entry =>
      -- The key ends at the first sign of equality
      let written := entry.takeWhile (· ≠ '=')
      match entry.dropWhile (· ≠ '=') with
      | [] => none
      | _ :: value =>
        let setting ← Setting.ofName? (← key? (trimBy isLineBlank written))
        let number ← number? (trimBy isLineBlank value)
        if number < setting.bound then return some (setting, number) else none
  else none

/-- The settings of all lines in order. -/
def settings? (text : List Char) : Option (List (Setting × Nat)) :=
  ((lines text).mapM line?).map fun found => found.filterMap id

/-! ## Whole texts -/

/-- Changes the limit of a setting. -/
def set (limits : Limits) : Setting × Nat → Limits
  | (.callLimit, number) => { limits with callLimit := UInt32.ofNat number }
  | (.chainLimit, number) => { limits with chainLimit := number }
  | (.nestingLimit, number) => { limits with nestingLimit := number }

/-- A text without the mark that may stand before its first line. -/
def withoutMark : List Char → List Char
  | '\uFEFF' :: rest => rest
  | text => text

/-- The limits that a settings text asks for; what it does not set keeps its default. -/
def ofSettings? (text : String) : Option Limits := do
  let found ← settings? (withoutMark text.toList)
  let names := found.map Prod.fst
  if names.eraseDups.length = names.length then return found.foldl set {} else none

end TokenNet.Limits
