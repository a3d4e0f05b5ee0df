import MynaCard.Error

/-!
# UTF-8

`String::from_utf8` and `String::from_utf8_lossy`, which the parsers of text fields call. Both walk
the bytes one sequence at a time. A sequence is well formed by the table of the Unicode standard:
the first byte fixes the width, the second has the range the first allows, and the others are
continuation bytes. The lossy form replaces each longest prefix of a sequence that cannot be
finished by one `U+FFFD`.
-/

namespace MynaCard.Utf8

/-- `10xxxxxx`. -/
def isContinuation (b : UInt8) : Bool := b &&& 0xC0 = 0x80

/-- The width the first byte of a sequence announces; none for a byte that begins no sequence. -/
def width (b : UInt8) : ℕ :=
  if b < 0x80 then 1
  else if 0xC2 ≤ b ∧ b ≤ 0xDF then 2
  else if 0xE0 ≤ b ∧ b ≤ 0xEF then 3
  else if 0xF0 ≤ b ∧ b ≤ 0xF4 then 4
  else 0

/-- The second bytes that keep out overlong forms, surrogates and values above `U+10FFFF`. -/
def isSecond (first b : UInt8) : Bool :=
  if first = 0xE0 then 0xA0 ≤ b && b ≤ 0xBF
  else if first = 0xED then 0x80 ≤ b && b ≤ 0x9F
  else if first = 0xF0 then 0x90 ≤ b && b ≤ 0xBF
  else if first = 0xF4 then 0x80 ≤ b && b ≤ 0x8F
  else isContinuation b

/-- How many of the bytes after `first` belong to the sequence it begins, at most `width - 1`. -/
def sequenceTail (first : UInt8) (rest : Bytes) : ℕ :=
  match rest with
  | [] => 0
  | second :: others =>
    if width first ≤ 1 ∨ isSecond first second = false then 0
    else 1 + ((others.take (width first - 2)).takeWhile isContinuation).length

/-- The scalar value of a well-formed sequence. -/
def scalar (first : UInt8) (tail : Bytes) : Char :=
  let lead := match tail.length with
    | 0 => first.toNat
    | 1 => first.toNat % 32
    | 2 => first.toNat % 16
    | _ => first.toNat % 8
  Char.ofNat (tail.foldl (fun acc b => acc * 64 + b.toNat % 64) lead)

/-- The characters of `bytes`, with nothing in place of each ill-formed sequence. -/
@[semireducible] def decode (bytes : Bytes) : List (Option Char) :=
  match bytes with
  | [] => []
  | first :: rest =>
    let n := sequenceTail first rest
    (if 1 + n = width first then some (scalar first (rest.take n)) else none) ::
      decode (rest.drop n)
termination_by bytes.length
decreasing_by
  rw [List.length_drop, List.length_cons]
  omega

/-- `String::from_utf8`. -/
def fromUtf8 (bytes : Bytes) : Option String := ((decode bytes).mapM id).map String.ofList

/-- `String::from_utf8_lossy`. -/
def fromUtf8Lossy (bytes : Bytes) : String :=
  String.ofList ((decode bytes).map fun c => c.getD (Char.ofNat 0xFFFD))

/-- Two characters of three bytes with an ASCII digit between, then a sequence cut short. -/
example : decode [0xE5, 0x8D, 0xB7, 0x31, 0xE9, 0x9D, 0xA2, 0xE2, 0x82, 0x41] =
    [some '卷', some '1', some '面', none, some 'A'] := by decide +kernel

end MynaCard.Utf8
