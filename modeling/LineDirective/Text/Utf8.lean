import LineDirective.Text.Quoted

/-!
# Texts as bytes

Strict UTF-8: overlong forms, surrogates and numbers beyond the code space are refused, and the first
fault is reported with the bytes it concerns. `normalizeNewlines` makes every line break a line feed.
-/

namespace LineDirective.Utf8

inductive Reason where
  | invalidStart
  | invalidContinuation
  | unexpectedEnd
deriving DecidableEq, Repr

def Reason.message : Reason → Text
  | invalidStart => "invalid start byte"
  | invalidContinuation => "invalid continuation byte"
  | unexpectedEnd => "unexpected end of data"

/-- The first fault in a run of bytes: where it starts, its first byte and how many bytes it
concerns. -/
structure DecodeError where
  position : Nat
  byte : UInt8
  length : Nat
  reason : Reason
deriving DecidableEq, Repr

def DecodeError.message (e : DecodeError) : Text :=
  let place : Text :=
    if e.length = 1 then
      "byte 0x" ++ paddedHex 2 e.byte.toNat ++ " in position " ++ Text.ofNat e.position
    else
      "bytes in position " ++ Text.ofNat e.position ++ .scalar '-' ::
        Text.ofNat (e.position + e.length - 1)
  "'utf-8' codec can't decode " ++ place ++ ": " ++ e.reason.message

/-- The length of the sequence that a byte starts and the range of the byte after it. -/
def sequence? (b : UInt8) : Option (Nat × UInt8 × UInt8) :=
  if b < 0x80 then some (1, 0x80, 0xBF)
  else if b < 0xC2 then none
  else if b < 0xE0 then some (2, 0x80, 0xBF)
  else if b = 0xE0 then some (3, 0xA0, 0xBF)
  else if b = 0xED then some (3, 0x80, 0x9F)
  else if b < 0xF0 then some (3, 0x80, 0xBF)
  else if b = 0xF0 then some (4, 0x90, 0xBF)
  else if b < 0xF4 then some (4, 0x80, 0xBF)
  else if b = 0xF4 then some (4, 0x80, 0x8F)
  else none

/-- How many of the wanted continuation bytes are there, and whether a wrong byte comes after them
rather than the end. The first must lie in a range of its own. -/
def continuationRun (lo hi : UInt8) : (wanted : Nat) → List UInt8 → Nat × Bool
  | 0, _ => (0, false)
  | _ + 1, [] => (0, false)
  | wanted + 1, b :: rest =>
    if lo ≤ b && b ≤ hi then
      let (count, wrong) := continuationRun 0x80 0xBF wanted rest
      (count + 1, wrong)
    else
      (0, true)

def sequenceValue (lead : UInt8) (more : List UInt8) : Nat :=
  let bits : Nat :=
    match more.length with
    | 0 => lead.toNat
    | 1 => lead.toNat % 0x20
    | 2 => lead.toNat % 0x10
    | _ => lead.toNat % 0x08
  more.foldl (fun value b => value * 0x40 + b.toNat % 0x40) bits

/-- Decodes the bytes from a position on. The first `skip` bytes belong to a sequence that has been
decoded already. -/
def decodeFrom : (skip position : Nat) → List UInt8 → Except DecodeError Text
  | _, _, [] => .ok []
  | skip + 1, position, _ :: rest => decodeFrom skip (position + 1) rest
  | 0, position, b :: rest =>
    match sequence? b with
    | none => .error ⟨position, b, 1, .invalidStart⟩
    | some (size, lo, hi) =>
      let (count, wrong) := continuationRun lo hi (size - 1) rest
      if count = size - 1 then
        (decodeFrom count (position + 1) rest).map fun t =>
          (CodePoint.ofNat? (sequenceValue b (rest.take count))).toList ++ t
      else
        .error ⟨position, b, count + 1, if wrong then .invalidContinuation else .unexpectedEnd⟩

def decode (bytes : List UInt8) : Except DecodeError Text := decodeFrom 0 0 bytes

/-- The bytes of a text; a surrogate is encoded as U+FFFD. -/
def encode (t : Text) : List UInt8 := t.toString.toUTF8.toList

end LineDirective.Utf8

namespace LineDirective

/-- The text with a line feed for every line break. -/
def Text.normalizeNewlines : Text → Text
  | [] => []
  | .carriageReturn :: .lineFeed :: rest => .lineFeed :: Text.normalizeNewlines rest
  | .carriageReturn :: rest => .lineFeed :: Text.normalizeNewlines rest
  | c :: rest => c :: Text.normalizeNewlines rest

end LineDirective
