import Lookahead.Text.Printable

/-!
# Quoted — text between quotes on one line

Messages show names and characters between quotes, so that a blank, a line break or an invisible
character can be seen.

- `quoted`: single quotes, unless the text holds a single quote and no double quote.
- `escape`: the backslash, the quote in use, line feed, carriage return and tab are written with a
  backslash; any other unprintable character by its code point in hexadecimal, in two, four or
  eight digits, whichever is the shortest that fits.
- `quotedList`: several quoted texts between square brackets.
-/

namespace Lookahead
namespace Text

def singleQuote : Char := '\x27'

def doubleQuote : Char := '\x22'

def backslash : Char := '\x5c'

/-- The lower-case hexadecimal digits of `n`, filled up with zeros on the left to `width` digits. -/
def hexDigits (width n : Nat) : List Char :=
  let digits := Nat.toDigits 16 n
  List.replicate (width - digits.length) '0' ++ digits

/-- The written form of `c` between two quotes of the given kind. -/
def escape (quote c : Char) : List Char :=
  if c = backslash ∨ c = quote then [backslash, c]
  else if c = '\n' then [backslash, 'n']
  else if c = '\r' then [backslash, 'r']
  else if c = '\t' then [backslash, 't']
  else if isPrintable c then [c]
  else if c.toNat < 0x100 then backslash :: 'x' :: hexDigits 2 c.toNat
  else if c.toNat < 0x10000 then backslash :: 'u' :: hexDigits 4 c.toNat
  else backslash :: 'U' :: hexDigits 8 c.toNat

/-- The quote around `cs`: a double quote if `cs` holds single quotes and no double quote, and a
single quote otherwise. -/
def quoteFor (cs : List Char) : Char :=
  if singleQuote ∈ cs ∧ doubleQuote ∉ cs then doubleQuote else singleQuote

def quoted (s : String) : String :=
  let quote := quoteFor s.toList
  String.ofList (quote :: s.toList.flatMap (escape quote) ++ [quote])

def quotedList (texts : List String) : String :=
  "[" ++ String.intercalate ", " (texts.map quoted) ++ "]"

end Text
end Lookahead
