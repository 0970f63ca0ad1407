import Lookahead.Text.LineBreaks
import Lookahead.Text.Quoted
import Lookahead.Text.Utf8

/-!
# GrammarFile — the text of a grammar file

A grammar file holds UTF-8. Its line breaks become line feeds, whichever they were.

- `FileContent`: what a path leads to.
- `normalPath`: a path without parts that mean nothing.
- `sourceOf`: the text that some bytes hold.
- `loadSource`: the text at a path.
-/

namespace Lookahead

inductive FileContent
  | missing
  | directory
  | file (bytes : ByteArray)

/-- `path` without empty parts and single dots; if nothing is left, a dot. One slash in front stays,
and so do two, but more become one. -/
def normalPath (path : String) : String :=
  let root :=
    match path.toList with
    | '/' :: '/' :: '/' :: _ => "/"
    | '/' :: '/' :: _ => "//"
    | '/' :: _ => "/"
    | _ => ""
  let parts := (path.toList.splitOn '/').map String.ofList
  let whole := root ++ String.intercalate "/" (parts.filter fun p => p != "" && p != ".")
  if whole = "" then "." else whole

inductive LoadError
  | notFound (path : String)
  | isDirectory (path : String)
  | malformed (fault : Text.Utf8Fault)
  deriving DecidableEq, Repr

def LoadError.message : LoadError → String
  | .notFound path => "[Errno 2] No such file or directory: " ++ Text.quoted (normalPath path)
  | .isDirectory path => "[Errno 21] Is a directory: " ++ Text.quoted (normalPath path)
  | .malformed fault => fault.message

/-- The text of a grammar file. `unifyBreaks` is what reading as text does to line breaks, and
`replaceBreaks` is applied to the text that was read. -/
def sourceOf (bytes : ByteArray) : Except Text.Utf8Fault (List Char) :=
  (Text.decodeUtf8 bytes).map fun text => Text.replaceBreaks (Text.unifyBreaks text.toList)

def loadSource (path : String) : FileContent → Except LoadError (List Char)
  | .missing => .error (.notFound path)
  | .directory => .error (.isDirectory path)
  | .file bytes => (sourceOf bytes).mapError LoadError.malformed

end Lookahead
