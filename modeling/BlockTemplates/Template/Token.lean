/-
Tokens of a template body: the brackets of tags, stray braces, and runs of other text.

`Token.scan` always takes the longest bracket that stands at the front; `chars_scan` says that the tokens of a body,
written one after another, are the body.
-/
namespace BlockTemplates

/-- a piece of a body that is not cut further -/
inductive Token where
  /-- two opening braces and `>` -/
  | openInvoke
  /-- two opening braces -/
  | openSlot
  /-- two closing braces -/
  | close
  | openBrace
  | closeBrace
  /-- a maximal run of characters that are not braces -/
  | text (cs : List Char)
  deriving DecidableEq, Repr

namespace Token

def chars : Token → List Char
  | openInvoke => ['{', '{', '>']
  | openSlot => ['{', '{']
  | close => ['}', '}']
  | openBrace => ['{']
  | closeBrace => ['}']
  | text cs => cs

/-- puts a character in front of the run of text that follows it -/
def consText (c : Char) : List Token → List Token
  | text cs :: rest => text (c :: cs) :: rest
  | rest => text [c] :: rest

def scan : List Char → List Token
  | [] => []
  | '{' :: '{' :: '>' :: cs => openInvoke :: scan cs
  | '{' :: '{' :: cs => openSlot :: scan cs
  | '}' :: '}' :: cs => close :: scan cs
  | '{' :: cs => openBrace :: scan cs
  | '}' :: cs => closeBrace :: scan cs
  | c :: cs => consText c (scan cs)

theorem flatMap_chars_consText (c : Char) (tokens : List Token) :
    (consText c tokens).flatMap chars = c :: tokens.flatMap chars := by
  unfold consText
  split <;> simp [chars]

/-- the tokens of a body, written one after another, are the body -/
theorem chars_scan (cs : List Char) : (scan cs).flatMap chars = cs := by
  fun_induction scan cs <;> simp_all [chars, flatMap_chars_consText]

end Token

end BlockTemplates
