import Apiserver.Go.Strings

/-!
# Encoding and decoding bytes

The encoder of `encoding/base64`, and the decoders of `encoding/base64`, `net/url`
and `unicode/utf8`. A Go string need not be valid UTF-8, so what they decode to is
a list of bytes.
-/

namespace Go

/-- The bytes of a Go string. -/
abbrev Bytes := List UInt8

/-! ## Base 64 -/

/-- `base64.Encoding`: the last two characters of the alphabet, and whether the
    last quantum is padded with `=`. -/
structure Encoding where
  char62 : Char
  char63 : Char
  padded : Bool

/-- `base64.StdEncoding`. -/
def stdEncoding : Encoding := { char62 := '+', char63 := '/', padded := true }

/-- `base64.RawURLEncoding`. -/
def rawURLEncoding : Encoding := { char62 := '-', char63 := '_', padded := false }

namespace Encoding

variable (enc : Encoding)

/-- The six bits a character of the alphabet stands for. -/
def sextet (c : Char) : Option Nat :=
  if 'A' ≤ c ∧ c ≤ 'Z' then some (c.toNat - 'A'.toNat)
  else if 'a' ≤ c ∧ c ≤ 'z' then some (c.toNat - 'a'.toNat + 26)
  else if '0' ≤ c ∧ c ≤ '9' then some (c.toNat - '0'.toNat + 52)
  else if c = enc.char62 then some 62
  else if c = enc.char63 then some 63
  else none

/-- The first `n` of the three bytes of a quantum. -/
def quantum (a b c d n : Nat) : Bytes :=
  [UInt8.ofNat (a * 4 + b / 16), UInt8.ofNat (b % 16 * 16 + c / 4),
    UInt8.ofNat (c % 4 * 64 + d)].take n

/-- Decoding quanta of four characters, the last of which may be shorter or padded. -/
def decodeQuanta : List Char → Option Bytes
  | [] => some []
  | [_] => none
  | [a, b] => if enc.padded then none else do
    return quantum (← enc.sextet a) (← enc.sextet b) 0 0 1
  | [a, b, c] => if enc.padded then none else do
    return quantum (← enc.sextet a) (← enc.sextet b) (← enc.sextet c) 0 2
  | a :: b :: c :: d :: l => do
    let a ← enc.sextet a
    let b ← enc.sextet b
    -- Nothing may follow the padding.
    if enc.padded ∧ c = '=' then
      if d = '=' ∧ l = [] then some (quantum a b 0 0 1) else none
    else if enc.padded ∧ d = '=' then
      if l = [] then some (quantum a b (← enc.sextet c) 0 2) else none
    else
      return quantum a b (← enc.sextet c) (← enc.sextet d) 3 ++ (← decodeQuanta l)

/-- `DecodeString`; newlines are skipped. -/
def decodeString (s : String) : Option Bytes :=
  enc.decodeQuanta (s.toList.filter fun c => c ≠ '\r' && c ≠ '\n')

example : stdEncoding.decodeString "YTpi\nYw==" = some [97, 58, 98, 99] := by decide

/-- The character of the alphabet for six bits. -/
def char (n : ℕ) : Char :=
  if n < 26 then Char.ofNat ('A'.toNat + n)
  else if n < 52 then Char.ofNat ('a'.toNat + (n - 26))
  else if n < 62 then Char.ofNat ('0'.toNat + (n - 52))
  else if n = 62 then enc.char62
  else enc.char63

/-- Encoding three bytes by four characters; fewer bytes at the end may be padded. -/
def encodeQuanta : Bytes → List Char
  | [] => []
  | [a] => [enc.char (a.toNat / 4), enc.char (a.toNat % 4 * 16)]
      ++ if enc.padded then ['=', '='] else []
  | [a, b] => [enc.char (a.toNat / 4), enc.char (a.toNat % 4 * 16 + b.toNat / 16),
        enc.char (b.toNat % 16 * 4)]
      ++ if enc.padded then ['='] else []
  | a :: b :: c :: l => enc.char (a.toNat / 4) :: enc.char (a.toNat % 4 * 16 + b.toNat / 16) ::
      enc.char (b.toNat % 16 * 4 + c.toNat / 64) :: enc.char (c.toNat % 64) :: encodeQuanta l

/-- `EncodeToString`. -/
def encodeToString (b : Bytes) : String := String.ofList (enc.encodeQuanta b)

example : stdEncoding.encodeToString [97, 58, 98, 99] = "YTpiYw==" := by decide

/-- Whole quanta need no padding. -/
theorem length_encodeQuanta {n : ℕ} {b : Bytes} (h : b.length = 3 * n) :
    (enc.encodeQuanta b).length = 4 * n := by
  induction n generalizing b with
  | zero =>
    obtain rfl := List.eq_nil_of_length_eq_zero h
    rfl
  | succ n ih =>
    rcases b with _ | ⟨x, _ | ⟨y, _ | ⟨z, l⟩⟩⟩ <;>
      simp only [List.length_cons, List.length_nil] at h
    · omega
    · omega
    · omega
    · have hl : l.length = 3 * n := by omega
      simp only [encodeQuanta, List.length_cons, ih hl]
      omega

end Encoding

/-! ## Query strings and UTF-8 -/

/-- The value of a hexadecimal digit. -/
def unhex (b : UInt8) : Option UInt8 :=
  if 48 ≤ b ∧ b ≤ 57 then some (b - 48)
  else if 97 ≤ b ∧ b ≤ 102 then some (b - 87)
  else if 65 ≤ b ∧ b ≤ 70 then some (b - 55)
  else none

/-- `url.QueryUnescape`: a percent sign and two digits are a byte, and a plus sign
    is a space. -/
def queryUnescape : Bytes → Option Bytes
  | [] => some []
  | 37 :: a :: b :: l => do return ((← unhex a) * 16 + (← unhex b)) :: (← queryUnescape l)
  | 37 :: _ => none
  | 43 :: l => do return 32 :: (← queryUnescape l)
  | b :: l => do return b :: (← queryUnescape l)

example : queryUnescape [97, 37, 51, 65, 43] = some [97, 58, 32] := by decide

/-- `url.PathUnescape` on ASCII characters. A byte that is unescaped stands as the
    character with its number. -/
def pathUnescape : List Char → Option (List Char)
  | [] => some []
  | '%' :: a :: b :: l => do
    return Char.ofUInt8 ((← unhex a.toUInt8) * 16 + (← unhex b.toUInt8)) :: (← pathUnescape l)
  | '%' :: _ => none
  | c :: l => do return c :: (← pathUnescape l)

/-- Without a percent sign there is nothing to unescape. -/
theorem pathUnescape_of_notMem {l : List Char} (h : '%' ∉ l) : pathUnescape l = some l := by
  induction l with
  | nil => rfl
  | cons c l ih =>
    rw [List.mem_cons, not_or] at h
    rw [pathUnescape, ih h.2]
    · rfl
    · exact fun _ _ _ hc _ => h.1 hc.symm
    · exact fun hc => h.1 hc.symm

example : pathUnescape "a%2fb".toList = some "a/b".toList := by decide

/-- The string of bytes that are valid UTF-8 (`utf8.Valid`). -/
def ofUTF8 (b : Bytes) : Option String := String.fromUTF8? (ByteArray.mk b.toArray)

end Go
