import TestDouble.Text.Hexadecimal

/-!
# The tokens of TOML text

A text is cut into marks, gaps, line ends, strings and bare pieces. A bare piece is a run of characters that none of the
others starts with, apart from quotes; it may be a name, a number, a date or a part of these, which is for the reader of
tokens to say. A comment reaches to the end of its line and leaves no token. A line ends with a line feed, before which a
carriage return may stand; a carriage return anywhere else is an error, and so is any other control character except the tab.
-/

namespace TestDouble.Toml

/-- A token of TOML text. -/
inductive Token where
  /-- A dot. -/
  | dot
  /-- An equals sign. -/
  | equals
  /-- A comma. -/
  | comma
  /-- An opening square bracket. -/
  | openSquare
  /-- A closing square bracket. -/
  | closeSquare
  /-- An opening curly bracket. -/
  | openCurly
  /-- A closing curly bracket. -/
  | closeCurly
  /-- A run of spaces and tabs. -/
  | gap (blanks : List Char)
  /-- The end of a line. -/
  | lineEnd
  /-- A string in single or double quotes. -/
  | text (value : String)
  /-- A string in triple quotes, which may reach over several lines and names nothing. -/
  | lines (value : String)
  /-- A bare piece. -/
  | bare (chars : List Char)
  deriving DecidableEq, Inhabited

/-- A space or a tab. -/
def isBlank (c : Char) : Bool := c == ' ' || c == '\t'

/-- Characters that strings and comments may hold as they are: all but control characters, and the tab. -/
def isPlain (c : Char) : Bool := c == '\t' || (decide (0x20 ≤ c.toNat) && c.toNat != 0x7F)

/-- Characters at which a bare piece ends. -/
def endsBare (c : Char) : Bool :=
  ['.', '=', ',', '[', ']', '{', '}', ' ', '\t', '#', '\r', '\n'].contains c

/-! ## Strings -/

/-- The character whose code point a given number of hexadecimal digits spells, and what follows them. -/
def codePoint? (count : Nat) (source : List Char) : Option (Char × List Char) :=
  let digits := source.take count
  if digits.length = count then
    match Text.hexNumber? digits with
    | none => none
    | some value => if value.isValidChar then some (Char.ofNat value, source.drop count) else none
  else none

/-- The character that an escape stands for, and what follows it; `source` is what stands after the backslash. -/
def unescape? : List Char → Option (Char × List Char)
  | 'b' :: rest => some ('\x08', rest)
  | 't' :: rest => some ('\t', rest)
  | 'n' :: rest => some ('\n', rest)
  | 'f' :: rest => some ('\x0c', rest)
  | 'r' :: rest => some ('\r', rest)
  | 'e' :: rest => some ('\x1b', rest)
  | '"' :: rest => some ('"', rest)
  | '\\' :: rest => some ('\\', rest)
  | 'x' :: rest => codePoint? 2 rest
  | 'u' :: rest => codePoint? 4 rest
  | 'U' :: rest => codePoint? 8 rest
  | _ => none

/-- What follows the blanks and line ends at the start of a text. -/
def dropLines : List Char → List Char
  | ' ' :: rest => dropLines rest
  | '\t' :: rest => dropLines rest
  | '\n' :: rest => dropLines rest
  | '\r' :: '\n' :: rest => dropLines rest
  | rest => rest

/-- What follows a line end at the start of a text, if there is one. -/
def afterLineEnd? : List Char → Option (List Char)
  | '\n' :: rest => some rest
  | '\r' :: '\n' :: rest => some rest
  | _ => none

/-- What follows a joint between lines: the end of a line, blanks before it, and all blanks and line ends after it. -/
def afterJoint? (source : List Char) : Option (List Char) := (afterLineEnd? (source.dropWhile isBlank)).map dropLines

/-- The quotes that stand between the closing triple of a string and its content, at most two, and what follows them. -/
def lastQuotes (quote : Char) (source : List Char) : List Char × List Char :=
  let quotes := (source.takeWhile (· == quote)).take 2
  (quotes, source.drop quotes.length)

/-- The content of a string in double quotes, of at most a given number of characters, and what follows the closing quote. -/
def basic? : Nat → List Char → Option (List Char × List Char)
  | 0, _ => none
  | _, [] => none
  | _ + 1, '"' :: rest => some ([], rest)
  | size + 1, '\\' :: rest =>
    match unescape? rest with
    | none => none
    | some (c, after) => (basic? size after).map (fun (content, left) => (c :: content, left))
  | size + 1, c :: rest =>
    if isPlain c then (basic? size rest).map (fun (content, left) => (c :: content, left)) else none

/-- The content of a string in single quotes, where nothing is escaped, and what follows the closing quote. -/
def literal? (source : List Char) : Option (List Char × List Char) :=
  match source.span (fun c => c != '\'') with
  | (_, []) => none
  | (content, _ :: rest) => if content.all isPlain then some (content, rest) else none

/-- The content of a string in three double quotes, of at most a given number of characters, and what follows the closing
quotes. -/
def basicLines? : Nat → List Char → Option (List Char × List Char)
  | 0, _ => none
  | _, [] => none
  | _ + 1, '"' :: '"' :: '"' :: rest => some (lastQuotes '"' rest)
  | size + 1, '\\' :: rest =>
    match afterJoint? rest with
    | some after => basicLines? size after
    | none =>
      match unescape? rest with
      | none => none
      | some (c, after) => (basicLines? size after).map (fun (content, left) => (c :: content, left))
  | size + 1, '\r' :: '\n' :: rest =>
    (basicLines? size rest).map (fun (content, left) => ('\r' :: '\n' :: content, left))
  | size + 1, c :: rest =>
    if isPlain c || c == '\n' then (basicLines? size rest).map (fun (content, left) => (c :: content, left)) else none

/-- The content of a string in three single quotes, where nothing is escaped, and what follows the closing quotes. -/
def literalLines? : List Char → Option (List Char × List Char)
  | [] => none
  | '\'' :: '\'' :: '\'' :: rest => some (lastQuotes '\'' rest)
  | '\r' :: '\n' :: rest => (literalLines? rest).map (fun (content, left) => ('\r' :: '\n' :: content, left))
  | c :: rest =>
    if isPlain c || c == '\n' then (literalLines? rest).map (fun (content, left) => (c :: content, left)) else none

/-- What stands in triple quotes without the line end that may follow the opening ones. -/
def withoutFirstLineEnd (source : List Char) : List Char := (afterLineEnd? source).getD source

/-- The token of a string. -/
def textToken (read : Option (List Char × List Char)) : Option (List Token × List Char) :=
  read.map (fun (content, rest) => ([.text (String.ofList content)], rest))

/-- The token of a string in triple quotes. -/
def linesToken (read : Option (List Char × List Char)) : Option (List Token × List Char) :=
  read.map (fun (content, rest) => ([.lines (String.ofList content)], rest))

/-! ## Tokens -/

/-- The token at the start of a text, if it leaves one, and what follows it. -/
def token? : List Char → Option (List Token × List Char)
  | '.' :: rest => some ([.dot], rest)
  | '=' :: rest => some ([.equals], rest)
  | ',' :: rest => some ([.comma], rest)
  | '[' :: rest => some ([.openSquare], rest)
  | ']' :: rest => some ([.closeSquare], rest)
  | '{' :: rest => some ([.openCurly], rest)
  | '}' :: rest => some ([.closeCurly], rest)
  | '\n' :: rest => some ([.lineEnd], rest)
  | '\r' :: '\n' :: rest => some ([.lineEnd], rest)
  | '\r' :: _ => none
  | '#' :: rest =>
    let (comment, after) := rest.span (fun c => c != '\r' && c != '\n')
    if comment.all isPlain then some ([], after) else none
  | '"' :: '"' :: '"' :: rest =>
    let content := withoutFirstLineEnd rest
    linesToken (basicLines? (content.length + 1) content)
  | '"' :: rest => textToken (basic? (rest.length + 1) rest)
  | '\'' :: '\'' :: '\'' :: rest => linesToken (literalLines? (withoutFirstLineEnd rest))
  | '\'' :: rest => textToken (literal? rest)
  | source =>
    let (blanks, afterBlanks) := source.span isBlank
    if blanks.isEmpty then
      let (chars, after) := source.span (fun c => !endsBare c)
      some ([.bare chars], after)
    else some ([.gap blanks], afterBlanks)

/-- The tokens of a text of at most a given number of characters. -/
def tokensWithin? : Nat → List Char → Option (List Token)
  | _, [] => some []
  | 0, _ => none
  | size + 1, source =>
    match token? source with
    | none => none
    | some (tokens, rest) => (tokensWithin? size rest).map (tokens ++ ·)

/-- A text without the byte order mark that may stand in front of it. -/
def withoutMark : List Char → List Char
  | '\uFEFF' :: rest => rest
  | source => source

/-- The tokens of a text. Each step takes at least one character, so the length of the text bounds their number. -/
def tokens? (source : List Char) : Option (List Token) := tokensWithin? source.length (withoutMark source)

end TestDouble.Toml
