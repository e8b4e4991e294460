import Whitespace.Fault
import Whitespace.Text.Character

/-!
# Console

Where a machine reads and writes. Input is either a stream of text, of which a character read one by
one is shown again, or two scripts of items, one for lines and one for characters. What is shown is
collected in order.
-/

namespace Whitespace

/-- Where input comes from. -/
inductive Input where
  /-- One script for each kind of read; an item is the text read or an error. -/
  | scripted (lines chars : List (Except Raised String))
  /-- The text not yet read. -/
  | stream (pending : List Char)

/-- The input not yet read, and all that was shown. -/
structure Console where
  input : Input
  shown : String

namespace Console

/-- A console on a text, on which nothing was shown yet. A carriage return, with or without a line
feed after it, reads as a line feed. -/
def ofText (text : String) : Console :=
  ⟨.stream (Text.unifyBreaks text.toList), ""⟩

def emit (c : Console) (text : String) : Console :=
  { c with shown := c.shown ++ text }

/-- Takes the next item of a script; the end of a script reads as no text. -/
def takeItem : List (Except Raised String) → Except Raised String × List (Except Raised String)
  | [] => (.ok "", [])
  | item :: items => (item, items)

/-- Splits a text after its first line feed. -/
def splitLine : List Char → List Char × List Char
  | [] => ([], [])
  | c :: cs =>
    if c = '\n' then ([c], cs)
    else
      let (line, rest) := splitLine cs
      (c :: line, rest)

/-- Reads one character, which is shown again if `echo` is set. No text is read at the end of the
input. An item of a script is read whole. -/
def readChar (c : Console) (echo : Bool := true) : Except Raised String × Console :=
  match c.input with
  | .scripted lines chars =>
    let (item, chars) := takeItem chars
    (item, { c with input := .scripted lines chars })
  | .stream [] => (.ok "", c)
  | .stream (char :: pending) =>
    let text := String.singleton char
    let c := { c with input := .stream pending }
    (.ok text, if echo then c.emit text else c)

/-- Reads one line, with the line feed at its end. No text is read at the end of the input. -/
def readLine (c : Console) : Except Raised String × Console :=
  match c.input with
  | .scripted lines chars =>
    let (item, lines) := takeItem lines
    (item, { c with input := .scripted lines chars })
  | .stream pending =>
    let (line, pending) := splitLine pending
    (.ok (String.ofList line), { c with input := .stream pending })

end Console

end Whitespace
