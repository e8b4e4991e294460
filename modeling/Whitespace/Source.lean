import Whitespace.Token

/-!
# Source text

A source is a text that is read token by token. Every character that is no token is a comment and is
skipped. A source remembers how far it has been read, so that reading may stop after any token and
go on later.
-/

namespace Whitespace

/-- A text, an encoding, and how far the text has been read. -/
structure Source where
  encoding : Encoding
  /-- The characters not yet read. -/
  rest : List Char
  /-- The number of characters already read. -/
  index : Nat
  /-- The place of the next character. -/
  position : Position
deriving DecidableEq, Repr

namespace Source

/-- A source of which nothing has been read. -/
def ofText (encoding : Encoding) (text : String) : Source :=
  ⟨encoding, text.toList, 0, .start⟩

/-- Reads up to and including the next token, or to the end of the text if there is none. -/
def next (s : Source) : Option Token × Source :=
  go s.rest s.index s.position
where
  go : List Char → Nat → Position → Option Token × Source
    | [], index, position => (none, ⟨s.encoding, [], index, position⟩)
    | c :: rest, index, position =>
      match s.encoding.kind? c with
      | some kind => (some ⟨kind, position⟩, ⟨s.encoding, rest, index + 1, position.after c⟩)
      | none => go rest (index + 1) (position.after c)

/-- Reads at most `n` tokens, and stops right after the last one read. -/
def take : Nat → Source → List Token × Source
  | 0, s => ([], s)
  | n + 1, s =>
    match s.next with
    | (none, s) => ([], s)
    | (some t, s) =>
      let (ts, s) := take n s
      (t :: ts, s)

/-- The tokens of a text whose first character stands at a given place. -/
def tokensFrom (encoding : Encoding) : Position → List Char → List Token
  | _, [] => []
  | position, c :: rest =>
    match encoding.kind? c with
    | some kind => ⟨kind, position⟩ :: tokensFrom encoding (position.after c) rest
    | none => tokensFrom encoding (position.after c) rest

/-- The tokens not yet read. -/
def tokens (s : Source) : List Token :=
  tokensFrom s.encoding s.position s.rest

def finish (s : Source) : Source :=
  ⟨s.encoding, [], s.index + s.rest.length, s.rest.foldl Position.after s.position⟩

def drain (s : Source) : List Token × Source :=
  (s.tokens, s.finish)

end Source

/-- A text in the mnemonic encoding: the letters of its tokens, without its comments. -/
def toMnemonics (encoding : Encoding) (text : String) : String :=
  String.ofList ((Source.ofText encoding text).tokens.map fun t => t.kind.letter)

end Whitespace
