import FlowScope.Malformed
/-!
Data types of arguments. A type is a scalar, an object, or an array of another type, and is
written as a tag such as `Array_File_Image`: one `Array_` for every array, then the tag of the
innermost element.
-/
namespace FlowScope

/-- What a file value holds. -/
inductive FileKind where
  | any | default | image | ppt | doc | pdf | txt | zip | excel | video | audio | voice | code | svg
deriving DecidableEq, Repr

namespace FileKind

/-- Every kind but the unspecific one. -/
def named : List FileKind :=
  [default, image, ppt, doc, pdf, txt, zip, excel, video, audio, voice, code, svg]

/-- What follows `File_` in the tag; a file of no particular kind has no such part. -/
def suffix : FileKind → Option String
  | any => none
  | default => some "Default"
  | image => some "Image"
  | ppt => some "PPT"
  | doc => some "Doc"
  | pdf => some "PDF"
  | txt => some "Txt"
  | zip => some "Zip"
  | excel => some "Excel"
  | video => some "Video"
  | audio => some "Audio"
  | voice => some "Voice"
  | code => some "Code"
  | svg => some "Svg"

end FileKind

/-- A value without parts. -/
inductive ScalarKind where
  | string | integer | number | boolean
  | file (kind : FileKind)
deriving DecidableEq, Repr

namespace ScalarKind

def tag : ScalarKind → String
  | string => "String"
  | integer => "Integer"
  | number => "Number"
  | boolean => "Boolean"
  | file kind =>
      match kind.suffix with
      | none => "File"
      | some suffix => "File_" ++ suffix

def all : List ScalarKind :=
  [string, integer, number, boolean, file .any] ++ FileKind.named.map file

def isFile : ScalarKind → Bool
  | file _ => true
  | _ => false

theorem mem_all (kind : ScalarKind) : kind ∈ all := by
  cases kind with
  | file k => cases k <;> decide
  | _ => decide

def ofTag? (tag : String) : Option ScalarKind :=
  all.find? (·.tag == tag)

/-- The scalar with a given tag, or the tag as the reason why there is none. -/
def ofTag (tag : String) : Except Malformed ScalarKind :=
  match ofTag? tag with
  | some kind => .ok kind
  | none => .error (.dataType tag)

end ScalarKind

/-- The type of an argument. The fields of an object are kept by the argument that has it. -/
inductive DataType where
  | scalar (kind : ScalarKind)
  | array (element : DataType)
  | object
deriving DecidableEq, Repr

namespace DataType

/-- The type of plain texts. -/
def string : DataType := .scalar .string

/-- The type of whole numbers. -/
def integer : DataType := .scalar .integer

/-- The type of truth values. -/
def boolean : DataType := .scalar .boolean

def tag : DataType → String
  | scalar kind => kind.tag
  | array element => "Array_" ++ element.tag
  | object => "Object"

/-- Read a tag. `Array_` with nothing after it is an array of objects; on failure the error names
the piece that remains when every leading `Array_` is taken off. -/
def ofTagChars : List Char → Except Malformed DataType
  | 'A' :: 'r' :: 'r' :: 'a' :: 'y' :: '_' :: rest =>
      if rest = [] then .ok (array object)
      else (ofTagChars rest).map array
  | piece =>
      if piece = "Object".toList then .ok object
      else (ScalarKind.ofTag (String.ofList piece)).map scalar

def ofTag (tag : String) : Except Malformed DataType :=
  ofTagChars tag.toList

/-- The type that a tag stands for, if there is one. -/
def ofTag? (tag : String) : Option DataType :=
  (ofTag tag).toOption

/-- What an array is made of. -/
def element? : DataType → Option DataType
  | array element => some element
  | _ => none

def isArray : DataType → Bool
  | array _ => true
  | _ => false

/-- The type with a number of arrays around it. -/
def nested (type : DataType) : Nat → DataType
  | 0 => type
  | depth + 1 => array (type.nested depth)

/-- What a list of values of this type, one of each round of a loop, is typed as: lists inside a
list are not told apart and count as objects. -/
def collected : Option DataType → DataType
  | some (array _) => array object
  | some type => array type
  | none => array object

end DataType

end FlowScope
