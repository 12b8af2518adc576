import DeviceSleep.Text.Numeral

/-! Written TOML: texts and keys in the plainest quotes that hold them, and lists of texts. -/
namespace DeviceSleep.Toml
set_option autoImplicit false

/-- A control character that no quotes hold as it is; tab and line feed are not meant. -/
def isControl (c : Char) : Bool :=
  (c < ' ' && c ≠ '\t' && c ≠ '\n') || c == '\u007F'

/-- The length of the longest run of a character; `current` is that of the run under way. -/
def longestRun (quote : Char) (current longest : Nat) : List Char → Nat
  | [] => max current longest
  | c :: cs =>
    if c = quote then longestRun quote (current + 1) longest cs
    else longestRun quote 0 (max current longest) cs

/-- The longest run of quotes that is counted. -/
def maxRun : Nat := 255

/-- Whether the quotes of a text can be counted, as they are before it is written. -/
def isCountable (cs : List Char) : Bool :=
  longestRun '"' 0 0 cs ≤ maxRun && longestRun '\'' 0 0 cs ≤ maxRun

/-- A character in double quotes, when it cannot stand for itself. -/
def escaped? (c : Char) : Option (List Char) :=
  if c = '\x08' then some ['\\', 'b']
  else if c = '\t' then some ['\\', 't']
  else if c = '\x0C' then some ['\\', 'f']
  else if c = '\r' then some ['\\', 'r']
  else if c = '\\' then some ['\\', '\\']
  else if isControl c then some (['\\', 'u'] ++ Text.hexUnit c.toNat)
  else none

/-- The inside of double quotes on one line. -/
def inBasic (cs : List Char) : List Char :=
  cs.flatMap fun c =>
    if c = '\n' then ['\\', 'n'] else if c = '"' then ['\\', '"'] else (escaped? c).getD [c]

/-- The inside of triple double quotes; of quotes in a row the third is escaped. `run` counts the
quotes just before. -/
def inBasicLines (run : Nat) : List Char → List Char
  | [] => []
  | c :: cs =>
    if c = '"' then
      if run = 2 then '\\' :: '"' :: inBasicLines 0 cs else '"' :: inBasicLines (run + 1) cs
    else (escaped? c).getD [c] ++ inBasicLines 0 cs

def tripled (quote : Char) (firstLine : Bool) (inside : List Char) : List Char :=
  [quote, quote, quote] ++ (if firstLine then ['\n'] else []) ++ inside ++ [quote, quote, quote]

def quoted (quote : Char) (inside : List Char) : List Char := quote :: inside ++ [quote]

/-- A text as a value. Double quotes on one line come first, then single ones, then the same tripled,
as long as nothing has to be escaped. -/
def writeText (cs : List Char) : List Char :=
  let control := cs.any isControl
  let lines := cs.contains '\n'
  let backslash := cs.contains '\\'
  if !control && !backslash && !cs.contains '"' && !lines then quoted '"' (inBasic cs)
  else if !control && !cs.contains '\'' && !lines then quoted '\'' cs
  else if !control && !backslash && longestRun '"' 0 0 cs ≤ 2 then
    tripled '"' lines (inBasicLines 0 cs)
  else if !control && longestRun '\'' 0 0 cs ≤ 2 then tripled '\'' lines cs
  else if lines then tripled '"' lines (inBasicLines 0 cs)
  else quoted '"' (inBasic cs)

def isBareChar (c : Char) : Bool := c.isAlphanum || c == '_' || c == '-'

/-- A key: bare, or in the plainest quotes on one line. -/
def writeKey (cs : List Char) : List Char :=
  let control := cs.any fun c => isControl c || c == '\n'
  if !cs.isEmpty && cs.all isBareChar then cs
  else if !control && !cs.contains '\\' && !cs.contains '"' then quoted '"' (inBasic cs)
  else if !control && !cs.contains '\'' then quoted '\'' cs
  else quoted '"' (inBasic cs)

/-- A list of texts: on one line up to one element, else one line each. -/
def writeTexts : List (List Char) → List Char
  | [] => ['[', ']']
  | [t] => '[' :: writeText t ++ [']']
  | ts =>
    ['[', '\n'] ++ ts.flatMap (fun t => [' ', ' ', ' ', ' '] ++ writeText t ++ [',', '\n']) ++ [']']

def writeBool (b : Bool) : List Char := (if b then "true" else "false").toList

def writeNat (n : Nat) : List Char := Nat.toDigits 10 n

/-- A key and its value on a line. -/
def writePair (key : String) (value : List Char) : List Char :=
  key.toList ++ [' ', '=', ' '] ++ value ++ ['\n']

end DeviceSleep.Toml
