import ConventionLint.Text.Quoted

/-! UTF-8: texts from bytes. -/
namespace ConventionLint.Text

inductive DecodeReason where
  | start
  | continuation
  | ended
deriving DecidableEq

def DecodeReason.message : DecodeReason → String
  | start => "invalid start byte"
  | continuation => "invalid continuation byte"
  | ended => "unexpected end of data"

/-- The bytes from `first` to `last` encode nothing; `byte` is the first of them. -/
structure DecodeError where
  first : Nat
  last : Nat
  byte : UInt8
  reason : DecodeReason
deriving DecidableEq

def DecodeError.message (e : DecodeError) : String :=
  let place :=
    if e.first = e.last then
      s!"byte 0x{String.ofList (hexDigits 2 e.byte.toNat)} in position {e.first}"
    else s!"bytes in position {e.first}-{e.last}"
  s!"'utf-8' codec can't decode {place}: {e.reason.message}"

def isContinuation (b : UInt8) : Bool := 0x80 ≤ b && b < 0xc0

/-- The number of bytes after a first byte, and the least and the greatest second byte. These keep
out longer forms than needed, surrogates and what lies above the last code point. -/
def leadByte? (b : UInt8) : Option (Nat × UInt8 × UInt8) :=
  if b < 0x80 then some (0, 0x80, 0xbf)
  else if b < 0xc2 then none
  else if b < 0xe0 then some (1, 0x80, 0xbf)
  else if b = 0xe0 then some (2, 0xa0, 0xbf)
  else if b = 0xed then some (2, 0x80, 0x9f)
  else if b < 0xf0 then some (2, 0x80, 0xbf)
  else if b = 0xf0 then some (3, 0x90, 0xbf)
  else if b < 0xf4 then some (3, 0x80, 0xbf)
  else if b = 0xf4 then some (3, 0x80, 0x8f)
  else none

/-- The bits that a first byte with `more` bytes after it gives. -/
def leadBits (more : Nat) (b : UInt8) : Nat :=
  match more with
  | 0 => b.toNat
  | 1 => b.toNat % 0x20
  | 2 => b.toNat % 0x10
  | _ => b.toNat % 0x08

/-- Reads `more` bytes that continue the bits so far. What is wrong comes with the number of
bytes that were right. -/
def continueWith (bits : Nat) : (more right : Nat) → List UInt8 → Except (Nat × DecodeReason) Nat
  | 0, _, _ => .ok bits
  | _ + 1, right, [] => .error (right, .ended)
  | more + 1, right, b :: r =>
    if isContinuation b then continueWith (bits * 0x40 + b.toNat % 0x40) more (right + 1) r
    else .error (right, .continuation)

/-- The first character and the number of bytes after its first one. -/
def decodeChar (b : UInt8) (r : List UInt8) : Except (Nat × DecodeReason) (Char × Nat) :=
  match leadByte? b with
  | none => .error (1, .start)
  | some (more, least, greatest) =>
    if more ≠ 0 && r.head?.any fun c => !(least ≤ c && c ≤ greatest) then
      .error (1, .continuation)
    else (continueWith (leadBits more b) more 1 r).map fun n => (Char.ofNat n, more)

/-- The characters of the bytes from position `i` on; the first argument counts bytes of a
character still to pass. -/
def decodeFrom (i : Nat) : Nat → List UInt8 → Except DecodeError (List Char)
  | _, [] => .ok []
  | n + 1, _ :: r => decodeFrom (i + 1) n r
  | 0, b :: r =>
    match decodeChar b r with
    | .error (width, reason) => .error ⟨i, i + width - 1, b, reason⟩
    | .ok (c, more) => (decodeFrom (i + 1) more r).map (c :: ·)

def decode (bytes : List UInt8) : Except DecodeError (List Char) := decodeFrom 0 0 bytes

/-- Every line end becomes a line feed. -/
def unifyLines : List Char → List Char
  | [] => []
  | '\r' :: '\n' :: r => '\n' :: unifyLines r
  | '\r' :: r => '\n' :: unifyLines r
  | c :: r => c :: unifyLines r

end ConventionLint.Text
