import Picroom.Domain.Uuid

/-!
# Entities

The records the services pass around: storage keys, images, users and teams.
Instants are nanoseconds since the Unix epoch, the resolution of
`OffsetDateTime`.
-/

namespace Picroom

/-- Nanoseconds since the Unix epoch. -/
abbrev Instant := Int

def seconds (count : Int) : Int := count * 1000000000

inductive StorageKeyError where
  | empty
  | tooLong
  | leadingSlash
  | pathTraversal
  | invalidChars (char : Char)
  deriving DecidableEq

/-- `{:?}` of a character; `printable` is the table of those that are written as they are. -/
def debugChar (printable : Char → Bool) (char : Char) : String :=
  let shown := match char.toNat with
    | 0 => "\\0"
    | 9 => "\\t"
    | 10 => "\\n"
    | 13 => "\\r"
    | 39 => "\\'"
    | 92 => "\\\\"
    | code =>
        if printable char then char.toString
        else "\\u\x7b" ++ String.ofList (Nat.toDigits 16 code) ++ "\x7d"
  "'" ++ shown ++ "'"

/-- The characters of ASCII that are written as they are. -/
def asciiPrintable (char : Char) : Bool := 32 ≤ char.toNat && char.toNat < 127

def StorageKeyError.display (printable : Char → Bool) : StorageKeyError → String
  | .empty => "storage key cannot be empty"
  | .tooLong => "storage key too long (max 1024)"
  | .leadingSlash => "storage key must not start with '/'"
  | .pathTraversal => "storage key must not contain '..'"
  | .invalidChars char => "storage key contains invalid characters: " ++ debugChar printable char

namespace StorageKey

def maxLen : Nat := 1024

def validChar (char : Char) : Bool :=
  char.isAlphanum || char == '/' || char == '-' || char == '_' || char == '.' || char == ' '

def segments (chars : List Char) : List (List Char) := chars.splitOn '/'

def validate (text : String) : Except StorageKeyError Unit :=
  if text.toList = [] then .error .empty
  else if text.utf8ByteSize > maxLen then .error .tooLong
  else if text.toList.head? = some '/' then .error .leadingSlash
  else if (segments text.toList).any (· == ['.', '.']) then .error .pathTraversal
  else match text.toList.find? (!validChar ·) with
    | some char => .error (.invalidChars char)
    | none => .ok ()

end StorageKey

/-- A validated storage key (object path within a bucket). -/
structure StorageKey where
  text : String
  valid : StorageKey.validate text = .ok ()

instance : DecidableEq StorageKey := fun first second =>
  decidable_of_iff (first.text = second.text)
    ⟨fun same => by cases first; cases second; cases same; rfl, fun same => same ▸ rfl⟩

def StorageKey.parse (text : String) : Except StorageKeyError StorageKey :=
  match checked : StorageKey.validate text with
  | .ok () => .ok ⟨text, checked⟩
  | .error error => .error error

inductive ImageVariant where
  | avif
  | webp
  | thumbnail (size : UInt32)
  | watermark
  deriving DecidableEq

structure Image where
  id : Uuid
  ownerId : Uuid
  teamId : Option Uuid
  key : StorageKey
  contentType : String
  bytes : UInt64
  width : UInt32
  height : UInt32
  sha256 : Option String
  variants : List ImageVariant
  createdAt : Instant

structure Team where
  id : Uuid
  name : String
  slug : String
  description : Option String
  storagePolicy : Option String
  createdAt : Instant

end Picroom
