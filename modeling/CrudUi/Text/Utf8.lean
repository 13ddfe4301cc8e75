/-!
# UTF-8

`encode` writes characters as bytes.  `decodeLossy` reads any bytes: where they are not well
formed, each longest part that starts a well-formed sequence without completing it, and each byte
that starts none, reads as U+FFFD.
-/

namespace CrudUi.Text.Utf8

/-- The bytes of a text. -/
def encode (text : List Char) : List UInt8 :=
  text.flatMap String.utf8EncodeChar

/-- The character that stands for bytes which are not well formed. -/
def replacement : Char := Char.ofNat 0xFFFD

/-- Whether a byte continues a sequence. -/
def continues (b : UInt8) : Bool :=
  0x80 ≤ b && b ≤ 0xBF

/-- Whether `b` may follow the first byte `a` of a sequence of three bytes. -/
def secondOfThree (a b : UInt8) : Bool :=
  if a = 0xE0 then 0xA0 ≤ b && b ≤ 0xBF
  else if a = 0xED then 0x80 ≤ b && b ≤ 0x9F
  else continues b

/-- Whether `b` may follow the first byte `a` of a sequence of four bytes. -/
def secondOfFour (a b : UInt8) : Bool :=
  if a = 0xF0 then 0x90 ≤ b && b ≤ 0xBF
  else if a = 0xF4 then 0x80 ≤ b && b ≤ 0x8F
  else continues b

/-- The low six bits of a byte. -/
def low (b : UInt8) : Nat := b.toNat % 64

/-- The characters that bytes stand for. -/
def decodeLossy : List UInt8 → List Char
  | [] => []
  | a :: rest =>
    if a < 0x80 then Char.ofNat a.toNat :: decodeLossy rest
    else if a < 0xC2 || 0xF4 < a then replacement :: decodeLossy rest
    else match rest with
      | [] => [replacement]
      | b :: rest' =>
        if a < 0xE0 then
          if continues b then Char.ofNat (a.toNat % 32 * 64 + low b) :: decodeLossy rest'
          else replacement :: decodeLossy (b :: rest')
        else if a < 0xF0 then
          if secondOfThree a b then match rest' with
            | [] => [replacement]
            | c :: rest'' =>
              if continues c then
                Char.ofNat (a.toNat % 16 * 4096 + low b * 64 + low c) :: decodeLossy rest''
              else replacement :: decodeLossy (c :: rest'')
          else replacement :: decodeLossy (b :: rest')
        else if secondOfFour a b then match rest' with
          | [] => [replacement]
          | c :: rest'' =>
            if continues c then match rest'' with
              | [] => [replacement]
              | d :: rest''' =>
                if continues d then
                  Char.ofNat (a.toNat % 8 * 262144 + low b * 4096 + low c * 64 + low d) ::
                    decodeLossy rest'''
                else replacement :: decodeLossy (d :: rest''')
            else replacement :: decodeLossy (c :: rest'')
        else replacement :: decodeLossy (b :: rest')
termination_by bytes => bytes.length

end CrudUi.Text.Utf8
