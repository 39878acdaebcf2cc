/-!
# Base64

Bytes as text, three bytes at a time as four characters; missing bytes of the
last group are marked by equality signs.
-/

namespace TeamDigest.Text

/-- The 64 characters, by value. -/
def base64Alphabet : List Char :=
  "ABCDEFGHIJKLMNOPQRSTUVWXYZabcdefghijklmnopqrstuvwxyz0123456789+/".toList

/-- The character for six bits. -/
def base64Char (n : Nat) : Char := base64Alphabet.getD (n % 64) '='

/-- The characters for some bytes. -/
def base64Chars : List UInt8 → List Char
  | a :: b :: c :: rest =>
    let n := a.toNat * 65536 + b.toNat * 256 + c.toNat
    base64Char (n / 262144) :: base64Char (n / 4096) :: base64Char (n / 64) :: base64Char n ::
      base64Chars rest
  | [a, b] =>
    let n := a.toNat * 65536 + b.toNat * 256
    [base64Char (n / 262144), base64Char (n / 4096), base64Char (n / 64), '=']
  | [a] =>
    let n := a.toNat * 65536
    [base64Char (n / 262144), base64Char (n / 4096), '=', '=']
  | [] => []

/-- The bytes of a text in base64. -/
def base64 (s : String) : String := String.ofList (base64Chars s.toUTF8.toList)

end TeamDigest.Text
