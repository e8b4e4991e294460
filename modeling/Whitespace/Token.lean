import Whitespace.Text.Character

/-!
# Tokens

A program is written with three significant characters. Each of them is a token; where it stands in
the text is kept for error reports. An encoding says which characters are the three.
-/

namespace Whitespace

/-- The three significant characters, whatever the encoding. -/
inductive TokenKind where
  | space
  | tab
  | lineFeed
deriving DecidableEq, Repr

namespace TokenKind

/-- The letter that stands for a token in mnemonics and messages. -/
def letter : TokenKind → Char
  | space => 'S'
  | tab => 'T'
  | lineFeed => 'L'

end TokenKind

/-- A place in a text. Both parts count from one; a column counts characters. -/
structure Position where
  line : Int
  column : Int
deriving DecidableEq, Repr

namespace Position

def start : Position := ⟨1, 1⟩

/-- The place after a character: only a line feed ends a line. -/
def after (p : Position) (c : Char) : Position :=
  if c = '\n' then ⟨p.line + 1, 1⟩ else ⟨p.line, p.column + 1⟩

end Position

/-- A significant character and the place where it stands. -/
structure Token where
  kind : TokenKind
  position : Position
deriving DecidableEq, Repr

/-- How the three significant characters are written. -/
inductive Encoding where
  /-- As space, tab and line feed. -/
  | whitespace
  /-- As the letters `S`, `T` and `L`. -/
  | stl
deriving DecidableEq, Repr

namespace Encoding

/-- The token a character stands for; `none` for a comment character. -/
def kind? : Encoding → Char → Option TokenKind
  | whitespace, ' ' => some .space
  | whitespace, '\t' => some .tab
  | whitespace, '\n' => some .lineFeed
  | stl, 'S' => some .space
  | stl, 'T' => some .tab
  | stl, 'L' => some .lineFeed
  | _, _ => none

def char : Encoding → TokenKind → Char
  | whitespace, .space => ' '
  | whitespace, .tab => '\t'
  | whitespace, .lineFeed => '\n'
  | stl, k => k.letter

theorem kind?_char (e : Encoding) (k : TokenKind) : e.kind? (e.char k) = some k := by
  cases e <;> cases k <;> rfl

def name : Encoding → String
  | whitespace => "whitespace"
  | stl => "stl"

/-- The encoding with a given name. Blanks around the name and the case of its letters do not count;
no character outside ASCII has a lower-case form that occurs in the names. -/
def ofName? (s : String) : Option Encoding :=
  let key := String.ofList ((Text.trim s.toList).map Char.toLower)
  if key = "whitespace" ∨ key = "ws" then some whitespace
  else if key = "stl" then some stl
  else none

def unknownName (s : String) : String :=
  "Unknown source type '" ++ s ++ "' (expected one of: stl, whitespace, ws)"

end Encoding

end Whitespace
