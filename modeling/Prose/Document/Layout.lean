import Prose.Span
import Prose.Text.Blank
import Prose.Text.Bytes
import Prose.Token.Split

/- The layout of a document. Blank lines separate paragraphs, a line that starts
   with the comment marker is a comment, and within a paragraph dots and semicolons
   separate sentences. Comments are blanked out and not removed, so that offsets
   stay what they were. -/
namespace Prose.Layout

open Prose.Text

/-- The lines of a text, each with its line break. -/
def lines : List Char → List (List Char)
  | [] => []
  | c :: rest =>
    if c = '\n' then [c] :: lines rest
    else match lines rest with
      | line :: later => (c :: line) :: later
      | [] => [[c]]

/-- Whether there is nothing but blanks in a line. -/
def isBlankLine (line : List Char) : Bool := line.all isBlank

/-- The maximal runs of lines that are not blank, each with the offset of its start. -/
def chunks (offset : Nat) : List (List Char) → List (Nat × List Char)
  | [] => []
  | line :: rest =>
    let later := chunks (offset + byteLength line) rest
    if isBlankLine line then later
    else match rest, later with
      | next :: _, (_, text) :: more =>
        if isBlankLine next then (offset, line) :: later else (offset, line ++ text) :: more
      | _, _ => (offset, line) :: later

/-- The span of a chunk without the blanks at its ends. -/
def trimmedSpan (offset : Nat) (text : List Char) : Span :=
  let leading := byteLength (text.takeWhile isBlank)
  ⟨offset + leading, offset + leading + byteLength (trim text)⟩

/-- The spans of the paragraphs of a text. -/
def paragraphSpans (text : List Char) : List Span :=
  (chunks 0 (lines text)).map fun (offset, chunk) => trimmedSpan offset chunk

/-- Whether the first character of a line that is not blank is the marker. -/
def isCommentLine (marker : Char) (line : List Char) : Bool :=
  (trimStart line).head? == some marker

/-- One character of a comment line: line breaks stay, all else becomes as many
    spaces as it has bytes. -/
def blankOut (c : Char) : List Char :=
  if c = '\n' ∨ c = '\r' then [c] else List.replicate c.utf8Size ' '

/-- The text with its comment lines blanked out. -/
def withoutComments (marker : Char) (text : List Char) : List Char :=
  (lines text).flatMap fun line =>
    if isCommentLine marker line then line.flatMap blankOut else line

/-- The parts of a sentence. A condition keeps its semicolons, which belong to its
    branch. -/
def sentenceParts (sentence : List Token) : List (List Token) :=
  match sentence.head? with
  | some first =>
    if first.kind = .ifWord then [sentence] else Token.splitAt .semicolon sentence
  | none => []

/-- The runs of tokens that are read as one sentence each. -/
def sentences (tokens : List Token) : List (List Token) :=
  (Token.splitAt .dot tokens).flatMap sentenceParts

end Prose.Layout
