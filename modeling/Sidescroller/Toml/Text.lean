import Sidescroller.Text

/-!
# Blanks, strings and keys of TOML

The pieces of a TOML document that are made of plain characters. Each reader takes the characters
that are left and returns what it has read together with what is left after it; it fails if there is
no such piece.

* `skipSpace`, `skipLines` and `lineEnd?` go over blanks, line breaks and comments.
* `string?` reads a string in any of the four kinds of quotes.
* `keyPath?` reads a key, or several with dots between them.
-/

namespace Sidescroller.Toml

/-- A reader: what it has read, and what is left. -/
abbrev Reader (α : Type) := List Char → Option (α × List Char)

/-- The blanks within a line. -/
def isSpace (c : Char) : Bool := c == ' ' || c == '\t'

/-- The characters that a comment or a literal string can hold: all but control characters. The tab
is no control character in this sense. -/
def isPrintable (c : Char) : Bool := c == '\t' || (' ' ≤ c && c ≠ '\x7f')

/-- Skips blanks within the line. -/
def skipSpace (s : List Char) : List Char := s.dropWhile isSpace

/-- Skips one line break. -/
def newline? : List Char → Option (List Char)
  | '\n' :: rest => some rest
  | '\r' :: '\n' :: rest => some rest
  | _ => none

/-- Skips blanks, line breaks and comments. `comment` says whether a comment has begun; it has to
end with a line break. -/
def skipLinesFrom (comment : Bool) : List Char → Option (List Char)
  | [] => if comment then none else some []
  | '\n' :: rest => skipLinesFrom false rest
  | '\r' :: '\n' :: rest => skipLinesFrom false rest
  | c :: rest =>
    if comment then if isPrintable c then skipLinesFrom true rest else none
    else if c = '#' then skipLinesFrom true rest
    else if isSpace c then skipLinesFrom false rest
    else some (c :: rest)

/-- Skips blanks, line breaks and comments. -/
def skipLines (s : List Char) : Option (List Char) := skipLinesFrom false s

/-- Skips the rest of a line that holds nothing more than a comment. -/
def lineEnd? (s : List Char) : Option (List Char) :=
  let s := match skipSpace s with
    | '#' :: rest => rest.dropWhile isPrintable
    | s => s
  match s with
  | [] => some []
  | s => newline? s

/-! ### Strings -/

/-- The character that a backslash and `c` stand for. -/
def escape? (c : Char) : Option Char :=
  match c with
  | 'b' => some '\x08'
  | 't' => some '\t'
  | 'n' => some '\n'
  | 'f' => some '\x0c'
  | 'r' => some '\r'
  | '"' => some '"'
  | '\\' => some '\\'
  | _ => none

/-- The character of a code point in hexadecimal digits. -/
def codePoint? (digits : List Char) : Option Char :=
  (Text.number? 16 digits).bind Text.ofCodePoint?

/-- Puts a character in front of what a reader has read. -/
def push (c : Char) (read : Option (List Char × List Char)) : Option (List Char × List Char) :=
  read.map fun (cs, rest) => (c :: cs, rest)

/-- Reads a string in double quotes, after the opening quote. -/
def basic? : Reader (List Char)
  | [] => none
  | '"' :: rest => some ([], rest)
  | '\\' :: 'u' :: a :: b :: c :: d :: rest => do push (← codePoint? [a, b, c, d]) (basic? rest)
  | '\\' :: 'U' :: a :: b :: c :: d :: e :: f :: g :: h :: rest => do
    push (← codePoint? [a, b, c, d, e, f, g, h]) (basic? rest)
  | '\\' :: c :: rest => do push (← escape? c) (basic? rest)
  | c :: rest => if isPrintable c then push c (basic? rest) else none

/-- Reads a string in single quotes, after the opening quote. -/
def literal? : Reader (List Char)
  | [] => none
  | '\'' :: rest => some ([], rest)
  | c :: rest => if isPrintable c then push c (literal? rest) else none

/-- Whether there is a line break after blanks. -/
def breaksLine (s : List Char) : Bool := (newline? (skipSpace s)).isSome

/-- Reads a string in three double quotes, after the opening quotes. A backslash at the end of a
line joins what follows, without the blanks and line breaks in between; `joining` says that they
are being left out. Up to two quotes may stand before the closing ones. -/
def multiBasicFrom (joining : Bool) : Reader (List Char)
  | [] => none
  | '\n' :: rest =>
    if joining then multiBasicFrom true rest else push '\n' (multiBasicFrom false rest)
  | '\r' :: '\n' :: rest =>
    if joining then multiBasicFrom true rest else push '\n' (multiBasicFrom false rest)
  -- Of five quotes the last three close the string.
  | '"' :: '"' :: '"' :: '"' :: '"' :: rest => some (['"', '"'], rest)
  | '"' :: '"' :: '"' :: '"' :: rest => some (['"'], rest)
  | '"' :: '"' :: '"' :: rest => some ([], rest)
  | '\\' :: rest =>
    -- At the end of a line it is no escape.
    if breaksLine rest then multiBasicFrom true rest
    else match rest with
      | 'u' :: a :: b :: c :: d :: rest => do
        push (← codePoint? [a, b, c, d]) (multiBasicFrom false rest)
      | 'U' :: a :: b :: c :: d :: e :: f :: g :: h :: rest => do
        push (← codePoint? [a, b, c, d, e, f, g, h]) (multiBasicFrom false rest)
      | c :: rest => do push (← escape? c) (multiBasicFrom false rest)
      | [] => none
  | c :: rest =>
    if joining && isSpace c then multiBasicFrom true rest
    else if isPrintable c then push c (multiBasicFrom false rest)
    else none

/-- Reads a string in three single quotes, after the opening quotes. -/
def multiLiteral? : Reader (List Char)
  | [] => none
  | '\n' :: rest => push '\n' (multiLiteral? rest)
  | '\r' :: '\n' :: rest => push '\n' (multiLiteral? rest)
  | '\'' :: '\'' :: '\'' :: '\'' :: '\'' :: rest => some (['\'', '\''], rest)
  | '\'' :: '\'' :: '\'' :: '\'' :: rest => some (['\''], rest)
  | '\'' :: '\'' :: '\'' :: rest => some ([], rest)
  | c :: rest => if isPrintable c then push c (multiLiteral? rest) else none

/-- Skips the line break that may follow the opening quotes of a string of several lines. -/
def skipNewline (s : List Char) : List Char := (newline? s).getD s

/-- Reads a string of one line. -/
def lineString? : Reader (List Char)
  | '"' :: rest => basic? rest
  | '\'' :: rest => literal? rest
  | _ => none

def string? : Reader (List Char)
  | '"' :: '"' :: '"' :: rest => multiBasicFrom false (skipNewline rest)
  | '\'' :: '\'' :: '\'' :: rest => multiLiteral? (skipNewline rest)
  | s => lineString? s

/-! ### Keys -/

/-- The characters of a key without quotes. -/
def isBare (c : Char) : Bool :=
  ('a' ≤ c && c ≤ 'z') || ('A' ≤ c && c ≤ 'Z') || Text.isDigit c || c == '_' || c == '-'

/-- Reads a single key. -/
def key? (s : List Char) : Option (String × List Char) :=
  match lineString? s with
  | some (key, rest) => some (String.ofList key, rest)
  | none =>
    -- Without quotes, but not empty.
    match s.takeWhile isBare with
    | [] => none
    | key => some (String.ofList key, s.dropWhile isBare)

/-- Reads at most `n` keys with dots between them, and the blanks around them. -/
def keyPathWithin? : Nat → Reader (List String)
  | 0, _ => none
  | n + 1, s => do
    let (key, rest) ← key? (skipSpace s)
    match skipSpace rest with
    | '.' :: rest =>
      let (keys, rest) ← keyPathWithin? n rest
      return (key :: keys, rest)
    | rest => return ([key], rest)

/-- How deep keys, lists and tables may be nested. -/
def depthLimit : Nat := 79

/-- Reads a key, or several with dots between them. -/
def keyPath? : Reader (List String) := keyPathWithin? depthLimit

end Sidescroller.Toml
