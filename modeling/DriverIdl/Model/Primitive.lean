import DriverIdl.Value.Basic

/-!
# Primitive types

The types every unit knows.  They have the first numbers among all types, in the order of `all`.
-/

namespace DriverIdl

/-- The primitive types. -/
inductive Primitive where
  | boolean | byte | short | int | long | float | double
  | uchar | ushort | uint | ulong
  | string | fileDescriptor | void
  deriving DecidableEq, Inhabited

namespace Primitive

/-- All primitive types in the order of their numbers. -/
def all : List Primitive :=
  [.boolean, .byte, .short, .int, .long, .float, .double, .uchar, .ushort, .uint, .ulong,
    .string, .fileDescriptor, .void]

/-- The number of a primitive type. -/
def id (primitive : Primitive) : Nat := all.idxOf primitive

/-- The spelling of a primitive type in a source file. -/
def name : Primitive → String
  | .boolean => "boolean"
  | .byte => "byte"
  | .short => "short"
  | .int => "int"
  | .long => "long"
  | .float => "float"
  | .double => "double"
  | .uchar => "unsigned char"
  | .ushort => "unsigned short"
  | .uint => "unsigned int"
  | .ulong => "unsigned long"
  | .string => "String"
  | .fileDescriptor => "FileDescriptor"
  | .void => "void"

/-- The integer shape of an integral type. -/
def shape? : Primitive → Option IntShape
  | .byte => some .i8
  | .short => some .i16
  | .int => some .i32
  | .long => some .i64
  | .uchar => some .u8
  | .ushort => some .u16
  | .uint => some .u32
  | .ulong => some .u64
  | _ => none

/-- Whether the type holds integers. -/
def isIntegral (primitive : Primitive) : Bool := primitive.shape?.isSome

/-- Whether the type holds integers that are never negative. -/
def isUnsigned (primitive : Primitive) : Bool := primitive.shape?.any fun shape => !shape.isSigned

/-- Bytes that a value of plain data takes.  Strings, descriptors and void are not plain data. -/
def fixedSize? : Primitive → Option Nat
  | .boolean | .byte | .uchar => some 1
  | .short | .ushort => some 2
  | .int | .uint | .float => some 4
  | .long | .ulong | .double => some 8
  | .string | .fileDescriptor | .void => none

/-- The least and the greatest value of an integral type. -/
def range? (primitive : Primitive) : Option (Int × Int) :=
  primitive.shape?.map fun shape => (shape.least, shape.greatest)

end Primitive

end DriverIdl
