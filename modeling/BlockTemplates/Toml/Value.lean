/-
Values of a TOML document.

Integers of any size are kept, and so is the fact that a number cannot be read, so that a document is no worse for it
where nobody asks for the number. Dates and times are kept as text in their normal form. The entries of a table are in
key order.
-/
import BlockTemplates.Number.Basic
import BlockTemplates.Value.Entries

namespace BlockTemplates.Toml

/-- what a key of a document holds -/
inductive Value where
  | string (s : String)
  | integer (i : Int)
  | float (x : Number)
  /-- a decimal that no finite number is close to, or an integer with other characters behind grouped digits -/
  | unreadable
  | bool (b : Bool)
  /-- a date, a time or both -/
  | datetime (text : String)
  | array (items : List Value)
  | table (entries : List (String × Value))
  deriving Inhabited

end BlockTemplates.Toml
