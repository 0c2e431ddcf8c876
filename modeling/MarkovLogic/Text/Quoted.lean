/-
**Quoted text.**

A text stands between double quotes, on one line and without invisible characters: the quote, the
backslash and five control characters have a letter of their own, any other invisible character is
written as its code point in hexadecimal.

Main definitions:

* `letter?` — the letter that stands for a character behind a backslash;
* `encode`, `quoted` — the quoted form of a text.
-/
import MarkovLogic.Text.Invisible

set_option autoImplicit false

namespace MarkovLogic.Text

/-- The letter behind the backslash for the characters that have one. -/
def letter? : Char → Option Char
  | '"' => some '"'
  | '\\' => some '\\'
  | '\n' => some 'n'
  | '\r' => some 'r'
  | '\t' => some 't'
  | '\x00' => some '0'
  | _ => none

/-- One character between the quotes. -/
def encodeChar (c : Char) : List Char :=
  match letter? c with
  | some l => ['\\', l]
  | none =>
    if isInvisible c then '\\' :: 'u' :: '\x7b' :: Nat.toDigits 16 c.toNat ++ ['\x7d'] else [c]

/-- The text between the quotes. -/
def encode (cs : List Char) : List Char := cs.flatMap encodeChar

@[simp] theorem encode_nil : encode [] = [] := rfl

@[simp] theorem encode_cons (c : Char) (cs : List Char) :
    encode (c :: cs) = encodeChar c ++ encode cs := rfl

/-- The text in double quotes. -/
def quoted (text : String) : String := "\"" ++ String.ofList (encode text.toList) ++ "\""

example : quoted "a\n'b'\x1b" = "\"a\\n'b'\\u\x7b1b\x7d\"" := by decide +kernel

end MarkovLogic.Text
