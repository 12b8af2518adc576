/-! What a TOML text may hold between its parts: blanks, line ends and comments. -/
namespace DeviceSleep.Toml
set_option autoImplicit false

/-- A space or a tab. -/
def isSpace (c : Char) : Bool := c == ' ' || c == '\t'

/-- No control character but the tab. -/
def isPlain (c : Char) : Bool := c == '\t' || (' ' ≤ c && c ≠ '\u007F')

def spaces (cs : List Char) : List Char := cs.dropWhile isSpace

/-- Passes over blanks, line ends and comments; `none` for a control character in a comment. -/
def trivia (inComment : Bool) : List Char → Option (List Char)
  | [] => some []
  | '\n' :: rest => trivia false rest
  | '\r' :: '\n' :: rest => trivia false rest
  | c :: rest =>
    if inComment then (if isPlain c then trivia true rest else none)
    else if isSpace c then trivia false rest
    else if c = '#' then trivia true rest
    else some (c :: rest)

/-- Passes over blanks and a comment up to the end of the line; `none` if anything else stands
there. -/
def lineEnd (inComment : Bool) : List Char → Option (List Char)
  | [] => some []
  | '\n' :: rest => some rest
  | '\r' :: '\n' :: rest => some rest
  | c :: rest =>
    if inComment then (if isPlain c then lineEnd true rest else none)
    else if isSpace c then lineEnd false rest
    else if c = '#' then lineEnd true rest
    else none

end DeviceSleep.Toml
