import CrudUi.Text.Hex
import CrudUi.Text.Utf8

/-!
# Percent escapes

`%2F` stands for the byte 0x2F.  `decode` replaces every escape of a text by its byte and reads
the bytes as UTF-8; a percent sign that starts no escape stands for itself.  `decodeExcept` leaves
the escapes of some bytes as they are.
-/

namespace CrudUi.Text.Percent

/-- The bytes of a text in which the escapes of all but the bytes `kept` are replaced. -/
def bytesExcept (kept : List UInt8) : List Char → List UInt8
  | '%' :: high :: low :: rest =>
    let escaped? := do
      let b := UInt8.ofNat (16 * (← hexDigit? high) + (← hexDigit? low))
      if b ∈ kept then none else return b
    match escaped? with
    | some b => b :: bytesExcept kept rest
    | none => String.utf8EncodeChar '%' ++ bytesExcept kept (high :: low :: rest)
  | c :: rest => String.utf8EncodeChar c ++ bytesExcept kept rest
  | [] => []

/-- The bytes that a text with escapes stands for. -/
def bytes : List Char → List UInt8 :=
  bytesExcept []

/-- The text in which the escapes of all but the bytes `kept` are replaced. -/
def decodeExcept (kept : List UInt8) (text : List Char) : List Char :=
  Utf8.decodeLossy (bytesExcept kept text)

/-- The text that a text with escapes stands for. -/
def decode (text : List Char) : List Char :=
  Utf8.decodeLossy (bytes text)

end CrudUi.Text.Percent
