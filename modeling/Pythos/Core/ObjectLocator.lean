import Pythos.Foundation.Bytes

/-!
# The syntax of locators

A locator is a path of at most four segments. A segment has one to sixteen letters, digits, underscores
and hyphens; navigation segments, wildcards, shell expansions, drive prefixes and URI schemes are
rejected with an error of their own.
-/

namespace Pythos.Core

open Foundation

def maxLocatorSegments : ℕ := 4
def maxLocatorSegmentBytes : ℕ := 16

inductive LocatorSyntaxError
  | empty
  | hostAbsolute
  | emptySegment
  | navigationSegment
  | drivePrefix
  | uriScheme
  | wildcard
  | shellExpansion
  | segmentTooLong
  | tooManySegments
  | invalidCharacter
  deriving DecidableEq, Repr

/-- The byte `/`. -/
def slash : UInt8 := 0x2F

/-- The byte `\`. -/
def backslash : UInt8 := 0x5C

/-- The byte `:`. -/
def colon : UInt8 := 0x3A

def isAsciiAlpha (byte : UInt8) : Bool :=
  (0x41 ≤ byte && byte ≤ 0x5A) || (0x61 ≤ byte && byte ≤ 0x7A)

/-- `is_ascii_alphanumeric`, `_` or `-`. -/
def isLocatorByte (byte : UInt8) : Bool :=
  isAsciiAlpha byte || (0x30 ≤ byte && byte ≤ 0x39) || byte = 0x5F || byte = 0x2D

/-- The bytes `*`, `?`, `[` and `]`. -/
def wildcardBytes : Bytes := [0x2A, 0x3F, 0x5B, 0x5D]

/-- The bytes `~`, `$` and the two braces. -/
def shellExpansionBytes : Bytes := [0x7E, 0x24, 0x7B, 0x7D]

def checkSegmentByte (byte : UInt8) : Except LocatorSyntaxError Unit :=
  if byte ∈ wildcardBytes then .error .wildcard
  else if byte ∈ shellExpansionBytes then .error .shellExpansion
  else if isLocatorByte byte then .ok ()
  else .error .invalidCharacter

/-- `LocatorSegment::parse`, which keeps the bytes of the segment. -/
def parseSegment (bytes : Bytes) : Except LocatorSyntaxError Bytes := do
  if bytes = [] then .error .emptySegment
  else if bytes = [0x2E] ∨ bytes = [0x2E, 0x2E] then .error .navigationSegment
  else if bytes.length > maxLocatorSegmentBytes then .error .segmentTooLong
  else
    bytes.forM checkSegmentByte
    .ok bytes

/-- A colon before the first slash, after a letter. -/
def containsUriScheme (bytes : Bytes) : Bool :=
  match bytes.takeWhile (· ≠ slash) with
  | [] => false
  | first :: rest => rest.contains colon && first ≠ colon && isAsciiAlpha first

/-- The loop of `parse_locator`: the bytes of the segment so far, in reverse, and the segments before
it. -/
def parseSegments : Bytes → Bytes → List Bytes → Except LocatorSyntaxError (List Bytes)
  | current, [], segments => endSegment current segments
  | current, byte :: rest, segments =>
    if byte = slash then
      match endSegment current segments with
      | .ok segments => parseSegments [] rest segments
      | .error error => .error error
    else if byte = backslash then .error .hostAbsolute
    else parseSegments (byte :: current) rest segments
where
  /-- The end of a segment. -/
  endSegment (current : Bytes) (segments : List Bytes) : Except LocatorSyntaxError (List Bytes) :=
    if current = [] then .error .emptySegment
    else if segments.length = maxLocatorSegments then .error .tooManySegments
    else
      match parseSegment current.reverse with
      | .ok segment => .ok (segments ++ [segment])
      | .error error => .error error

def parseLocator (locator : Bytes) : Except LocatorSyntaxError (List Bytes) :=
  match locator with
  | [] => .error .empty
  | first :: rest =>
    if first = slash ∨ first = backslash then .error .hostAbsolute
    else if isAsciiAlpha first ∧ rest.head? = some colon then .error .drivePrefix
    else if containsUriScheme locator then .error .uriScheme
    else parseSegments [] locator []

def validateLocator (locator : Bytes) : Except LocatorSyntaxError Unit :=
  match parseLocator locator with
  | .ok _ => .ok ()
  | .error error => .error error

end Pythos.Core
