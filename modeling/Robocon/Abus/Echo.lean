/-
**The echo of a topic's data** (`abus_echo.c`, `abus_echo.h`).

`abus_echo_data_by_token` prints an instance of a struct from the text of its declaration, which
`ABUS_DATA_TYPE_CREATE` makes. A C string is the list of its characters.

* `Member`, `Member.value` — the members of `BitArray` and what they show of the memory.
* `printfData` — the chain of comparisons that chooses one of them for a declaration.
* `Field`, `dataTypeText` — the fields of a struct and the text of its declaration.
-/

import Robocon.Lib.Text
import Robocon.Lib.Words

namespace Robocon.Abus

open Lib

/-! ### The members of `BitArray` -/

section Members

/-- The members of `BitArray`, one for each type a field can have. -/
inductive Member
  | u8 | i8 | u16 | i16 | u32 | i32 | u64 | i64 | f32 | f64
  deriving DecidableEq

/-- What a conversion of `printf` shows: a number, or a floating point number by its bits. -/
inductive Shown
  | int (value : ℤ)
  | f32 (bits : ℕ)
  | f64 (bits : ℕ)
  deriving DecidableEq

namespace Member

/-- `sizeof` the type. -/
def size : Member → ℕ
  | .u8 | .i8 => 1
  | .u16 | .i16 => 2
  | .u32 | .i32 | .f32 => 4
  | .u64 | .i64 | .f64 => 8

/-- The name of the type. -/
def text : Member → List Char
  | .u8 => "uint8_t".toList
  | .i8 => "int8_t".toList
  | .u16 => "uint16_t".toList
  | .i16 => "int16_t".toList
  | .u32 => "uint32_t".toList
  | .i32 => "int32_t".toList
  | .u64 => "uint64_t".toList
  | .i64 => "int64_t".toList
  | .f32 => "float".toList
  | .f64 => "double".toList

/-- The bits of a member at an address, as a number. -/
def bits (member : Member) (memory : ℕ → UInt8) (buf : ℕ) : ℕ :=
  littleEndian ((List.range member.size).map fun place => memory (buf + place))

/-- The number of some bits in two's complement. -/
def twosComplement (size bits : ℕ) : ℤ :=
  if bits < 2 ^ (8 * size - 1) then bits else bits - 2 ^ (8 * size)

/-- What a member shows of the memory at an address. -/
def value (member : Member) (memory : ℕ → UInt8) (buf : ℕ) : Shown :=
  match member with
  | .u8 | .u16 | .u32 | .u64 => .int (member.bits memory buf)
  | .i8 | .i16 | .i32 | .i64 => .int (twosComplement member.size (member.bits memory buf))
  | .f32 => .f32 (member.bits memory buf)
  | .f64 => .f64 (member.bits memory buf)

end Member

end Members

/-! ### The echo -/

section Echo

/-- `find_struct_start`: the text from the first opening brace on. -/
def findStructStart (str : List Char) : List Char :=
  if '\x7b' ∈ str then str.dropWhile (· ≠ '\x7b') else str

/-- `find_struct_end`: the place after the last closing brace. -/
def findStructEnd (str : List Char) : ℕ :=
  if '\x7d' ∈ str then str.length - str.reverse.idxOf '\x7d' else 0

/-- `isspace` in the C locale. -/
def isspace (char : Char) : Bool := char ∈ [' ', '\t', '\n', '\x0b', '\x0c', '\r']

def skipWhitespace (ptr : List Char) : List Char := ptr.dropWhile isspace

/-- `find_any_substring`: it looks at the first `format` of its further arguments. -/
def findAnySubstring (str : List Char) (format : ℕ) (substrings : List (List Char)) : Bool :=
  (substrings.take format).any fun substring => decide (substring <:+: str)

def replaceCharInPlace (src : List Char) (toReplace newChar : Char) : List Char :=
  src.map fun char => if char = toReplace then newChar else char

/-- A branch of `printf_data`: what it compares with, the member that it stores, whose size it also
steps over, and the member that it prints. -/
structure Branch where
  substrings : List (List Char)
  stored : Member
  printed : Member

/-- The branches of `printf_data` in their order. Each one asks for two substrings, also where it
lists three. -/
def branches : List Branch :=
  [⟨["int32_t ".toList, "int ".toList], .i32, .i32⟩,
    ⟨["int16_t ".toList, "short".toList], .i16, .u16⟩,
    ⟨["int8_t ".toList, "char".toList], .i8, .u8⟩,
    ⟨["uint64_t ".toList, "unsigned long long".toList], .u64, .u64⟩,
    ⟨["int64_t ".toList, "long long".toList], .i64, .u64⟩,
    ⟨["uint32_t ".toList, "unsigned int".toList, "int".toList], .u32, .u32⟩,
    ⟨["uint16_t ".toList, "unsigned short".toList, "short".toList], .u16, .u16⟩,
    ⟨["uint8_t".toList, "unsigned char".toList], .u8, .u8⟩,
    ⟨["float".toList, "f32".toList], .f32, .f32⟩,
    ⟨["double".toList, "f64".toList], .f64, .f64⟩]

/-- The branch that `printf_data` takes. -/
def branchOf (str : List Char) : Option Branch :=
  branches.find? fun branch => findAnySubstring str 2 branch.substrings

/-- A printed line: the declaration, filled up to eighteen characters, and the value. -/
structure Line where
  label : List Char
  shown : Shown
  deriving DecidableEq

/-- The line of a declaration for a member at an address. -/
def lineOf (memory : ℕ → UInt8) (str : List Char) (member : Member) (buf : ℕ) : Line :=
  ⟨str.leftpad 18 ' ', member.value memory buf⟩

/-- `printf_data`: the lines it prints, and `buf` after it. The printed member of the union shows
the bytes of the stored one, which has its size. -/
def printfData (memory : ℕ → UInt8) (str : List Char) (buf : ℕ) : List Line × ℕ :=
  match branchOf str with
  | some branch => ([lineOf memory str branch.printed buf], buf + branch.stored.size)
  | none => ([], buf)

/-- The loop of `abus_echo_data_by_token` over the tokens. -/
def printfTokens (memory : ℕ → UInt8) : List (List Char) → ℕ → List Line
  | [], _ => []
  | token :: tokens, buf =>
    let printed := printfData memory (skipWhitespace token) buf
    printed.1 ++ printfTokens memory tokens printed.2

/-- The tokens that `strtok_r` gives one after the other. -/
def strtok (str : List Char) (delimiter : Char) : List (List Char) :=
  (str.splitOn delimiter).filter fun token => !token.isEmpty

/-- What is printed. -/
structure Echo where
  header : List Char
  lines : List Line
  deriving DecidableEq

/-- `abus_echo_data_by_token`; it fails where it reads behind the text or writes before its copy. -/
def abusEchoDataByToken (memory : ℕ → UInt8) (str : List Char) (buf : ℕ) : Option Echo :=
  match findStructStart str with
  | [] => none
  | _ :: strCopy =>
    let last := findStructEnd strCopy
    let header := replaceCharInPlace (strCopy.drop last) ';' ':'
    if last = 0 then none
    else some ⟨header, printfTokens memory (strtok (strCopy.take (last - 1)) ';') buf⟩

end Echo

/-! ### The declarations -/

section Declarations

/-- The characters of an identifier. -/
def isIdentifierChar (char : Char) : Bool := char.isAlphanum || char = '_'

/-- A C identifier. -/
structure Identifier where
  chars : List Char
  nonempty : chars ≠ []
  valid : chars.all isIdentifierChar = true
  start : chars.head?.any Char.isDigit = false

/-- A field of a struct; `spaced` says whether white space stands before its declaration. -/
structure Field where
  spaced : Bool
  type : Member
  name : Identifier

/-- The declaration of a field. -/
def Field.declaration (field : Field) : List Char := field.type.text ++ ' ' :: field.name.chars

/-- The text of a field up to its semicolon. -/
def Field.piece (field : Field) : List Char :=
  if field.spaced then ' ' :: field.declaration else field.declaration

/-- The text that `ABUS_DATA_TYPE_CREATE` makes of a struct. -/
def dataTypeText (fields : List Field) (structName : Identifier) : List Char :=
  "typedef struct".toList ++
    '\x7b' :: ((fields.map Field.piece).flatMap (fun piece => piece ++ [';']) ++ [' '] ++
      '\x7d' :: (structName.chars ++ [';']))

/-- The sum of the sizes of the fields before a place. -/
def offset (fields : List Field) (place : ℕ) : ℕ :=
  ((fields.take place).map fun field => field.type.size).sum

/-- One line per field in order, for the declared type at the offset of the field. -/
def declaredLines (memory : ℕ → UInt8) (fields : List Field) (buf : ℕ) : List Line :=
  fields.mapIdx fun place field =>
    lineOf memory field.declaration field.type (buf + offset fields place)

end Declarations

end Robocon.Abus
