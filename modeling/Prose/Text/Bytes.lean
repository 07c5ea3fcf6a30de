import Prose.Total

/- Offsets into a text. Every offset of the library counts the bytes of the
   text's UTF-8 form, so that it means the same to an editor as it does here.
   Cuts are only ever made between two characters. -/
namespace Prose.Text

/-- Bytes of a text in UTF-8. -/
def byteLength (cs : List Char) : Nat := total Char.utf8Size cs

@[simp] theorem byteLength_nil : byteLength [] = 0 := rfl

@[simp] theorem byteLength_cons (c : Char) (cs : List Char) :
    byteLength (c :: cs) = c.utf8Size + byteLength cs := rfl

@[simp] theorem byteLength_append (cs ds : List Char) :
    byteLength (cs ++ ds) = byteLength cs + byteLength ds := total_append _ cs ds

/-- The text from byte `n` on. -/
def dropBytes : Nat → List Char → List Char
  | _, [] => []
  | n, c :: cs => if n = 0 then c :: cs else dropBytes (n - c.utf8Size) cs

/-- The text before byte `n`. -/
def takeBytes : Nat → List Char → List Char
  | _, [] => []
  | n, c :: cs => if n = 0 then [] else c :: takeBytes (n - c.utf8Size) cs

/-- The text from byte `start` up to byte `stop`. -/
def slice (cs : List Char) (start stop : Nat) : List Char :=
  takeBytes (stop - start) (dropBytes start cs)

end Prose.Text
