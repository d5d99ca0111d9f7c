import Mathlib

/-! # Base64

Three bytes as four characters of the standard alphabet, with padding at the end. What was
written can be read back.
-/

namespace Base64

def alphabet : List Char :=
  "ABCDEFGHIJKLMNOPQRSTUVWXYZabcdefghijklmnopqrstuvwxyz0123456789+/".toList

/-- The character for the last six bits. -/
def sextet (bits : Nat) : Char := alphabet.getD (bits % 64) 'A'

/-- The six bits of a character. -/
def bits (c : Char) : Option Nat := alphabet.findIdx? (· = c)

def encode : List UInt8 → List Char
  | [] => []
  | [a] => [sextet (a.toNat / 4), sextet (a.toNat * 16), '=', '=']
  | [a, b] =>
    [sextet (a.toNat / 4), sextet (a.toNat * 16 + b.toNat / 16), sextet (b.toNat * 4), '=']
  | a :: b :: c :: rest =>
    sextet (a.toNat / 4) :: sextet (a.toNat * 16 + b.toNat / 16) ::
      sextet (b.toNat * 4 + c.toNat / 64) :: sextet c.toNat :: encode rest

/-- The byte with these bits, of which the last eight count. -/
def byte (bits : Nat) : UInt8 := UInt8.ofNat bits

def decode : List Char → Option (List UInt8)
  | [] => some []
  | [a, b, '=', '='] => do
    let first ← bits a
    let second ← bits b
    return [byte (first * 4 + second / 16)]
  | [a, b, c, '='] => do
    let first ← bits a
    let second ← bits b
    let third ← bits c
    return [byte (first * 4 + second / 16), byte (second * 16 + third / 4)]
  | a :: b :: c :: d :: rest => do
    let first ← bits a
    let second ← bits b
    let third ← bits c
    let fourth ← bits d
    let bytes ← decode rest
    return byte (first * 4 + second / 16) :: byte (second * 16 + third / 4) ::
      byte (third * 64 + fourth) :: bytes
  | _ => none

/-- Each character stands for its place, and none of them is the padding. -/
theorem bits_alphabet : ∀ place < 64,
    bits (alphabet.getD place 'A') = some place ∧ alphabet.getD place 'A' ≠ '=' := by
  decide

theorem bits_sextet (value : Nat) : bits (sextet value) = some (value % 64) :=
  (bits_alphabet (value % 64) (Nat.mod_lt value (by decide))).1

theorem sextet_ne_pad (value : Nat) : sextet value ≠ '=' :=
  (bits_alphabet (value % 64) (Nat.mod_lt value (by decide))).2

theorem byte_eq {value : Nat} {b : UInt8} (hvalue : value % 256 = b.toNat) : byte value = b := by
  apply UInt8.toNat_inj.mp
  rw [byte, UInt8.toNat_ofNat', hvalue]

theorem first_byte (a b : UInt8) (low : Nat) (hlow : low = a.toNat * 16 + b.toNat / 16) :
    byte (a.toNat / 4 % 64 * 4 + low % 64 / 16) = a := by
  have ha := a.toNat_lt
  have hb := b.toNat_lt
  apply byte_eq
  omega

theorem second_byte (a b c : UInt8) (middle low : Nat)
    (hmiddle : middle = a.toNat * 16 + b.toNat / 16) (hlow : low = b.toNat * 4 + c.toNat / 64) :
    byte (middle % 64 * 16 + low % 64 / 4) = b := by
  have ha := a.toNat_lt
  have hb := b.toNat_lt
  have hc := c.toNat_lt
  apply byte_eq
  omega

theorem third_byte (b c : UInt8) :
    byte ((b.toNat * 4 + c.toNat / 64) % 64 * 64 + c.toNat % 64) = c := by
  have hb := b.toNat_lt
  have hc := c.toNat_lt
  apply byte_eq
  omega

/-- Reading undoes writing. -/
theorem decode_encode (bytes : List UInt8) : decode (encode bytes) = some bytes := by
  induction bytes using encode.induct with
  | case1 => rfl
  | case2 a =>
    have hfirst := first_byte a 0 (a.toNat * 16) (by simp)
    simp [encode, decode, bits_sextet, hfirst]
  | case3 a b =>
    have hfirst := first_byte a b _ rfl
    have hsecond := second_byte a b 0 _ (b.toNat * 4) rfl (by simp)
    simp [encode, decode, sextet_ne_pad, bits_sextet, hfirst, hsecond]
  | case4 a b c rest ih =>
    have hfirst := first_byte a b _ rfl
    have hsecond := second_byte a b c _ _ rfl rfl
    have hthird := third_byte b c
    simp [encode, decode, sextet_ne_pad, bits_sextet, hfirst, hsecond, hthird, ih]

/-! ## The alphabet for addresses, without padding -/

def urlAlphabet : List Char :=
  "ABCDEFGHIJKLMNOPQRSTUVWXYZabcdefghijklmnopqrstuvwxyz0123456789-_".toList

def urlSextet (bits : Nat) : Char := urlAlphabet.getD (bits % 64) 'A'

def urlBits (c : Char) : Option Nat := urlAlphabet.findIdx? (· = c)

def encodeUrl : List UInt8 → List Char
  | [] => []
  | [a] => [urlSextet (a.toNat / 4), urlSextet (a.toNat * 16)]
  | [a, b] =>
    [urlSextet (a.toNat / 4), urlSextet (a.toNat * 16 + b.toNat / 16), urlSextet (b.toNat * 4)]
  | a :: b :: c :: rest =>
    urlSextet (a.toNat / 4) :: urlSextet (a.toNat * 16 + b.toNat / 16) ::
      urlSextet (b.toNat * 4 + c.toNat / 64) :: urlSextet c.toNat :: encodeUrl rest

/-- The bits behind the last byte have to be zero. -/
def decodeUrl : List Char → Option (List UInt8)
  | [] => some []
  | [_] => none
  | [a, b] => do
    let first ← urlBits a
    let second ← urlBits b
    if second % 16 = 0 then some [byte (first * 4 + second / 16)] else none
  | [a, b, c] => do
    let first ← urlBits a
    let second ← urlBits b
    let third ← urlBits c
    if third % 4 = 0 then
      some [byte (first * 4 + second / 16), byte (second * 16 + third / 4)]
    else none
  | a :: b :: c :: d :: rest => do
    let first ← urlBits a
    let second ← urlBits b
    let third ← urlBits c
    let fourth ← urlBits d
    let bytes ← decodeUrl rest
    return byte (first * 4 + second / 16) :: byte (second * 16 + third / 4) ::
      byte (third * 64 + fourth) :: bytes

theorem urlBits_alphabet : ∀ place < 64, urlBits (urlAlphabet.getD place 'A') = some place := by
  decide

theorem urlBits_sextet (value : Nat) : urlBits (urlSextet value) = some (value % 64) :=
  urlBits_alphabet (value % 64) (Nat.mod_lt value (by decide))

theorem decodeUrl_encodeUrl (bytes : List UInt8) : decodeUrl (encodeUrl bytes) = some bytes := by
  induction bytes using encodeUrl.induct with
  | case1 => rfl
  | case2 a =>
    have hfirst := first_byte a 0 (a.toNat * 16) (by simp)
    have hlow : a.toNat * 16 % 64 % 16 = 0 := by omega
    simp [encodeUrl, decodeUrl, urlBits_sextet, hfirst, hlow]
  | case3 a b =>
    have hfirst := first_byte a b _ rfl
    have hsecond := second_byte a b 0 _ (b.toNat * 4) rfl (by simp)
    have hlow : b.toNat * 4 % 64 % 4 = 0 := by omega
    simp [encodeUrl, decodeUrl, urlBits_sextet, hfirst, hsecond, hlow]
  | case4 a b c rest ih =>
    have hfirst := first_byte a b _ rfl
    have hsecond := second_byte a b c _ _ rfl rfl
    have hthird := third_byte b c
    simp [encodeUrl, decodeUrl, urlBits_sextet, hfirst, hsecond, hthird, ih]

/-- Nothing gets shorter by being written. -/
theorem length_le_encodeUrl (bytes : List UInt8) : bytes.length ≤ (encodeUrl bytes).length := by
  induction bytes using encodeUrl.induct with
  | case1 | case2 | case3 => simp [encodeUrl]
  | case4 a b c rest ih =>
    simp only [encodeUrl, List.length_cons]
    omega

end Base64
