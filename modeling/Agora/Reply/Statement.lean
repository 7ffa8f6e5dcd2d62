import Agora.Reply.Fence
import Agora.Text.Blank
/-!
Cleaning is a matter of form only; nothing is refused here.
-/
namespace Agora.Reply

/-- The statement keyword that a line starts with after blanks. The whole run of letters has to be
the keyword. -/
def leadingKeyword? (s : List Char) : Option String :=
  keywordOf? ((Text.trimStart s).takeWhile Ascii.isLetter)

def firstLine (s : List Char) : List Char :=
  s.takeWhile (· ≠ '\n')

def startsWithStatement (s : List Char) : Bool :=
  (leadingKeyword? (firstLine s)).isSome

/-- The text from its first line on that starts with a statement keyword; `lineStart` tells whether
a line starts here. -/
def fromKeywordLine? (lineStart : Bool) : List Char → Option (List Char)
  | [] => none
  | c :: s =>
      if lineStart && startsWithStatement (c :: s) then some (c :: s)
      else fromKeywordLine? (c = '\n') s

def clean (raw : List Char) : List Char :=
  let text := Text.trim (stripFences (Text.trim raw))
  match fromKeywordLine? true text with
  | some s => Text.trim s
  | none => text

end Agora.Reply
