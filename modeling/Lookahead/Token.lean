import Lookahead.Lexeme
import Lookahead.Text.Position

/-!
# Token — the meaningful pieces of a description and where they stand

- `Word`: a label, arrow, dot or name.
- `Token`: a word with the place where it begins.
- `Lexeme.placeBehind`: how places are counted, piece by piece.
- `TokenStream`: the tokens of a text in order, and the place where the text ends.
- `TokenStream.scan`: the tokens of a text, or the first character that begins no piece.
-/

namespace Lookahead

open Text

structure Word where
  kind : TokenKind
  text : String
  deriving DecidableEq, Repr

structure Token where
  kind : TokenKind
  lexeme : String
  start : Position
  deriving DecidableEq, Repr

namespace Token

/-- The offset behind the last character of `t`. -/
def stop (t : Token) : Nat :=
  t.start.offset + t.lexeme.length

/-- The kind and the lexeme of `t`, without its place. -/
def word (t : Token) : Word :=
  ⟨t.kind, t.lexeme⟩

end Token

structure TokenStream where
  tokens : List Token
  stop : Position
  deriving DecidableEq, Repr

/-- A character that begins no piece, and its place. -/
structure StrayChar where
  char : Char
  place : Position
  deriving DecidableEq, Repr

/-- The place behind a piece that stands at `place`. Only a line feed begins a new line; it is a
piece of its own. -/
def Lexeme.placeBehind (place : Position) (l : Lexeme) : Position :=
  match l.kind with
  | .newline => ⟨place.offset + l.text.length, place.line + 1, 1⟩
  | _ => ⟨place.offset + l.text.length, place.line, place.column + l.text.length⟩

namespace TokenStream

/-- The tokens among some pieces, of which the first stands at `place`. -/
def tokensFrom (place : Position) : List Lexeme → List Token
  | [] => []
  | l :: rest =>
      let later := tokensFrom (Lexeme.placeBehind place l) rest
      match l.kind with
      | .token kind => ⟨kind, String.ofList l.text, place⟩ :: later
      | _ => later

def scan (source : List Char) : Except StrayChar TokenStream :=
  let (pieces, rest) := lexemes source
  let stop := pieces.foldl Lexeme.placeBehind {}
  match rest with
  | [] => .ok ⟨tokensFrom {} pieces, stop⟩
  | c :: _ => .error ⟨c, stop⟩

end TokenStream

end Lookahead
