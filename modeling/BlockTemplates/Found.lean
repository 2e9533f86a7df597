/-
What a reader of data met where something else was expected.
-/
import BlockTemplates.Number.Layout
import BlockTemplates.Text.Quoted

namespace BlockTemplates

/-- a piece of data as a message names it -/
inductive Found where
  | null
  | bool (b : Bool)
  | integer (i : Int)
  /-- an integer of more than 64 bits, with or without a sign -/
  | wideInteger (i : Int) (signed : Bool)
  | float (x : Number)
  | string (s : String)
  | sequence
  | map
  deriving DecidableEq

/-- the words for a piece of data; floats are written in `layout` -/
def Found.describe (layout : Layout) : Found → String
  | null => "null"
  | bool b => if b then "boolean `true`" else "boolean `false`"
  | integer i => "integer `" ++ toString i ++ "`"
  | wideInteger i signed => "integer `" ++ toString i ++ (if signed then "` as i128" else "` as u128")
  | float x => "floating point `" ++ String.ofList (x.chars layout) ++ "`"
  | string s => "string " ++ String.ofList (Text.quoted s.toList)
  | sequence => "sequence"
  | map => "map"

end BlockTemplates
