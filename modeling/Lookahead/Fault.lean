import Lookahead.Symbol
import Lookahead.Text.Quoted

/-!
# Fault — what a lookup can miss

On a validated grammar no lookup misses. On other values of the same types each operation says
which lookup failed first.

- `Fault.noFirst`: an element of a scanned sequence has no FIRST set.
- `Fault.noSet`: a head, or the start symbol, has no set of its own.
-/

namespace Lookahead

inductive Fault
  /-- No symbol is called `name`. -/
  | unknownName (name : String)
  /-- No symbol has this `id`. -/
  | unknownId (id : SymbolId)
  /-- A scanned sequence holds an `element` without a FIRST set. -/
  | noFirst (element : Entry)
  /-- The `id` of a head, or of the start symbol, is no key of the map that is being filled. -/
  | noSet (id : SymbolId)
  /-- A rule holds `.endOfInput`, which has no number to be looked up by. -/
  | endHasNoNumber
  deriving DecidableEq, Repr

def Fault.message : Fault → String
  | .unknownName name => Text.quoted name
  | .unknownId id => "unknown symbol id " ++ toString id
  | .noFirst element =>
      "symbol id " ++ element.text ++ " missing from FIRST (validator contract)"
  | .noSet id => toString id
  | .endHasNoNumber => "'<=' not supported between instances of 'int' and 'Marker'"

end Lookahead
