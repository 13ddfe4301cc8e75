import CrudUi.CommandLine.Arguments
import CrudUi.CommandLine.FileSystem

/-!
# Network addresses

An address is a host and, behind the last colon, a port.
-/

namespace CrudUi

/-- A host and a port. -/
structure Address where
  host : String
  port : Nat
  deriving DecidableEq, Repr

/-- The address that a text writes. -/
def Address.ofText (text : String) : Except SystemError Address :=
  let chars := text.toList.reverse
  match chars.dropWhile (· ≠ ':') with
  | [] => .error .invalidAddress
  | _ :: host =>
    match readCount? (String.ofList (chars.takeWhile (· ≠ ':')).reverse) with
    | some port =>
      if port < Nat.pow 2 16 then .ok ⟨String.ofList host.reverse, port⟩ else .error .invalidPort
    | none => .error .invalidPort

end CrudUi
