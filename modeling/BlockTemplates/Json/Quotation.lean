/-
JSON strings, read behind their opening quote.

Escapes of code points outside the first 65536 come in pairs of surrogates, and a surrogate without its partner is
refused. A code point escape that is cut short or holds another character is refused behind its four bytes.
-/
import BlockTemplates.Json.Fault
import BlockTemplates.Text.Escape

namespace BlockTemplates.Json.Quotation

/-- the fault of a text that does not start with four hexadecimal digits -/
def hexFault (cs : List Char) : Fault :=
  if byteCount cs < 4 then .before .eofInString [] else ⟨.invalidEscape, byteCount cs - 4⟩

/-- a surrogate that starts a pair -/
def isLead (unit : Nat) : Bool :=
  0xD800 ≤ unit && unit < 0xDC00

/-- a surrogate that ends a pair -/
def isTrail (unit : Nat) : Bool :=
  0xDC00 ≤ unit && unit < 0xE000

/-- the character of a pair of surrogates -/
def joined (lead trail : Nat) : Char :=
  Char.ofNat ((lead - 0xD800) * 0x400 + (trail - 0xDC00) + 0x10000)

/-- the character of a one letter escape -/
def escaped? (c : Char) : Option Char :=
  if c = '"' ∨ c = '\\' ∨ c = '/' then some c else Text.control? c

/-- puts a character in front of what is read behind it -/
def cons (c : Char) : Except Fault (List Char × List Char) → Except Fault (List Char × List Char)
  | .ok (cs, rest) => .ok (c :: cs, rest)
  | .error fault => .error fault

/-- the characters up to the closing quote, and the text behind it -/
def read : List Char → Except Fault (List Char × List Char)
  | [] => .error (.before .eofInString [])
  | '"' :: rest => .ok ([], rest)
  | '\\' :: 'u' :: a :: b :: c :: d :: rest =>
    match Text.hexNumber? [a, b, c, d] with
    | none => .error (hexFault (a :: b :: c :: d :: rest))
    | some unit =>
      if isTrail unit then .error (.before .loneSurrogate rest)
      else if isLead unit then
        match rest with
        | '\\' :: 'u' :: e :: f :: g :: h :: rest =>
          match Text.hexNumber? [e, f, g, h] with
          | none => .error (hexFault (e :: f :: g :: h :: rest))
          | some trail =>
            if isTrail trail then cons (joined unit trail) (read rest) else .error (.before .loneSurrogate rest)
        | '\\' :: 'u' :: rest => .error (hexFault rest)
        | '\\' :: c :: rest => .error (.inside .unexpectedEndOfHex (c :: rest))
        | ['\\'] => .error (.before .eofInString [])
        | [] => .error (.before .eofInString [])
        | c :: rest => .error (.inside .unexpectedEndOfHex (c :: rest))
      else cons (Char.ofNat unit) (read rest)
  | '\\' :: 'u' :: rest => .error (hexFault rest)
  | '\\' :: c :: rest =>
    match escaped? c with
    | some x => cons x (read rest)
    | none => .error (.inside .invalidEscape (c :: rest))
  | ['\\'] => .error (.before .eofInString [])
  | c :: rest => if c.toNat < 0x20 then .error (.before .controlCharacter rest) else cons c (read rest)

end BlockTemplates.Json.Quotation
