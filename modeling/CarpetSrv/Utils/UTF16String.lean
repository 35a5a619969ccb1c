import Mathlib.Data.List.Basic

/-!
# Machine types, byte strings and UTF-16 strings

Integers have the widths of the x86-64 targets, and a `double` is its 64-bit
pattern. A `std::string` is its list of bytes and a `UTF16String` is its list
of units; the array that the class manages by hand is not part of this file.
-/

namespace CarpetSrv

abbrev Byte := BitVec 8

abbrev Short := BitVec 16

abbrev CInt := BitVec 32

abbrev Double := BitVec 64

abbrev CppString := List Byte

/-- The bytes of a literal of ASCII characters. -/
def literal (cs : List Char) : CppString := cs.map fun c => BitVec.ofNat 8 c.toNat

/-- `std::to_string` of an `int`. -/
def toString (n : Int) : CppString :=
  (if n < 0 then literal ['-'] else []) ++ literal (Nat.toDigits 10 n.natAbs)

/-- The `std::runtime_error`s that the modelled functions throw. -/
inductive RuntimeError
  | bufferUnderflow
  | negativeLength
  | notEnoughChars
  | decryptFailed
  | keySize
  | randFailed
  deriving DecidableEq, Repr

namespace Utils

/-- The units that a `UTF16String` holds. -/
abbrev UTF16String := List (BitVec 16)

namespace UTF16String

/-- The constructor from a byte string widens each character unsigned. -/
def ofString (str : CppString) : UTF16String := str.map fun c => c.setWidth 16

/-- `append(const UTF16String &)`, which `operator+=` calls. -/
def append (us string : UTF16String) : UTF16String := us ++ string

/-- `append(int)` stores the number as an `unsigned short`. -/
def appendUnit (us : UTF16String) (nbr : CInt) : UTF16String := us ++ [nbr.setWidth 16]

end UTF16String

/-- `ConsoleUtils::createUTF16String`. The `char` is signed, so its conversion
to `unsigned short` extends the sign. -/
def createUTF16String (msg : CppString) : UTF16String :=
  msg.foldl (fun us c => us.appendUnit ((c.signExtend 16).setWidth 32)) []

end Utils

end CarpetSrv
