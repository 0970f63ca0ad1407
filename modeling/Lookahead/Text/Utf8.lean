/-!
# Utf8 — strict decoding with the place of the first fault

- `decodeUtf8`: the text that some bytes encode, or the first fault in them.
- `faultFrom`: passes over whole encoded characters up to the first broken one.
- `Utf8Fault`: the position, the bytes at fault and the reason.
- `decodeUtf8_toUTF8`: decoding undoes encoding.
-/

namespace Lookahead
namespace Text

/-! ## Shape of one encoded character -/

/-- What may follow a lead byte: `count` bytes, of which the first is from `lowest` to `highest`. -/
structure Continuation where
  count : Nat
  lowest : Nat
  highest : Nat
  deriving DecidableEq, Repr

/-- The continuation that a lead byte announces; none for a byte that cannot begin a character.
The ranges for `E0`, `ED`, `F0` and `F4` leave out overlong forms, surrogates and values beyond
U+10FFFF. -/
def continuation? (lead : Nat) : Option Continuation :=
  if lead < 0x80 then some ⟨0, 0x80, 0xbf⟩
  else if lead < 0xc2 then none
  else if lead < 0xe0 then some ⟨1, 0x80, 0xbf⟩
  else if lead = 0xe0 then some ⟨2, 0xa0, 0xbf⟩
  else if lead = 0xed then some ⟨2, 0x80, 0x9f⟩
  else if lead < 0xf0 then some ⟨2, 0x80, 0xbf⟩
  else if lead = 0xf0 then some ⟨3, 0x90, 0xbf⟩
  else if lead < 0xf4 then some ⟨3, 0x80, 0xbf⟩
  else if lead = 0xf4 then some ⟨3, 0x80, 0x8f⟩
  else none

/-- The continuation bytes that are present, in order, as far as they are in range. -/
def Continuation.present (k : Continuation) : List UInt8 → List UInt8
  | [] => []
  | b :: rest =>
      if k.count = 0 then []
      else if k.lowest ≤ b.toNat ∧ b.toNat ≤ k.highest then
        b :: (rest.take (k.count - 1)).takeWhile fun c => 0x80 ≤ c.toNat && c.toNat ≤ 0xbf
      else []

/-! ## The first fault -/

inductive Utf8Reason
  | invalidStart
  | invalidContinuation
  | unexpectedEnd
  deriving DecidableEq, Repr

def Utf8Reason.text : Utf8Reason → String
  | .invalidStart => "invalid start byte"
  | .invalidContinuation => "invalid continuation byte"
  | .unexpectedEnd => "unexpected end of data"

/-- The bytes at fault begin at `position`. -/
structure Utf8Fault where
  position : Nat
  bytes : List UInt8
  reason : Utf8Reason
  deriving DecidableEq, Repr

/-- The fault in words. One byte is shown by its value, several by the positions of the first and
the last. -/
def Utf8Fault.message (f : Utf8Fault) : String :=
  let subject :=
    match f.bytes with
    | [b] =>
        let digits := Nat.toDigits 16 b.toNat
        "byte 0x" ++ String.ofList (List.replicate (2 - digits.length) '0' ++ digits)
          ++ " in position " ++ toString f.position
    | bs =>
        "bytes in position " ++ toString f.position ++ "-"
          ++ toString (f.position + bs.length - 1)
  "'utf-8' codec can't decode " ++ subject ++ ": " ++ f.reason.text

/-- The first fault from `position` on, the position of the given bytes: whole characters are
passed over, and what is there of the first broken one is at fault. -/
def faultFrom (position : Nat) : List UInt8 → Utf8Fault
  | [] => ⟨position, [], .unexpectedEnd⟩
  | lead :: rest =>
      match continuation? lead.toNat with
      | none => ⟨position, [lead], .invalidStart⟩
      | some k =>
          let found := k.present rest
          if found.length = k.count then
            faultFrom (position + 1 + found.length) (rest.drop found.length)
          else if found.length = rest.length then ⟨position, lead :: found, .unexpectedEnd⟩
          else ⟨position, lead :: found, .invalidContinuation⟩
  termination_by bytes => bytes.length

/-- The text that `bytes` encode, or the first fault in them. A byte order mark is a character like
any other. -/
def decodeUtf8 (bytes : ByteArray) : Except Utf8Fault String :=
  match String.fromUTF8? bytes with
  | some text => .ok text
  | none => .error (faultFrom 0 bytes.toList)

theorem decodeUtf8_toUTF8 (s : String) : decodeUtf8 s.toUTF8 = .ok s := by
  have h : String.fromUTF8? s.toUTF8 = some s := by
    simp [String.fromUTF8?, String.toUTF8, s.isValidUTF8, String.fromUTF8]
  rw [decodeUtf8, h]

end Text
end Lookahead
