import Retained.Text.Split
import Retained.Label.Alphabet

/-!
# Packages

A package is a path inside a repository; the empty repository name stands for the main one. It is
written `//path`, or `@repository//path` for an external repository. A package alone may also be
given as a bare path. Reading refuses with the first fault met, from left to right: the repository,
then the two ends of the path, then its segments.
-/

namespace Retained

open Text Label

/-- A package: a path inside a repository, whose empty name means the main repository. -/
structure PackageId where
  /-- The repository name, empty for the main repository. -/
  repository : String
  /-- The path inside the repository, empty for its root package. -/
  path : String
deriving DecidableEq, Repr, Inhabited

/-- What can be wrong with the text of a package or label. -/
inductive LabelFault where
  /-- A label has to name its repository or start at the main one. -/
  | notAbsolute
  /-- An `@` without the two slashes that end the repository name. -/
  | openRepository
  /-- A repository name with a character outside its alphabet. -/
  | repositoryCharacter
  /-- A path with a slash at one of its ends. -/
  | pathEnds
  /-- A path with nothing between two slashes. -/
  | emptySegment
  /-- A path segment `.` or `..`. -/
  | upLevelSegment
  /-- A path segment with a character outside its alphabet. -/
  | segmentCharacter (segment : String)
  /-- A label without target name whose path has no last segment to take it from. -/
  | noTargetName
  /-- A label with nothing after its colon. -/
  | emptyTargetName
  /-- A target name with a slash at an end or two together. -/
  | targetSlashes
  /-- A target name with a part `.` or `..`. -/
  | upLevelTarget
  /-- A target name with a character outside its alphabet. -/
  | targetCharacter
deriving DecidableEq, Repr

/-- The reason in words. -/
def LabelFault.reason : LabelFault → String
  | notAbsolute => "label must start with '//' or '@'"
  | openRepository => "repository must be followed by '//'"
  | repositoryCharacter => "invalid repository name"
  | pathEnds => "package path must not start or end with '/'"
  | emptySegment => "package path contains an empty segment"
  | upLevelSegment => "package path contains an up-level reference"
  | segmentCharacter segment => "invalid character in package segment '" ++ segment ++ "'"
  | noTargetName => "cannot infer target name"
  | emptyTargetName => "empty target name"
  | targetSlashes => "target name contains a malformed path"
  | upLevelTarget => "target name contains an up-level reference"
  | targetCharacter => "invalid character in target name"

/-- A refused package or label text, with what is wrong with it. -/
structure LabelError where
  /-- The whole text that was read. -/
  input : String
  /-- The first fault in it. -/
  fault : LabelFault
deriving DecidableEq, Repr

/-- The text shown for a refused label. -/
def LabelError.message (error : LabelError) : String :=
  "invalid label '" ++ error.input ++ "': " ++ error.fault.reason

namespace Label

/-- What stands before and after the first two slashes in a row. -/
def splitSlashes? : List Char → Option (List Char × List Char)
  | '/' :: '/' :: rest => some ([], rest)
  | [] => none
  | character :: rest =>
    (splitSlashes? rest).map fun (before, after) => (character :: before, after)

/-- The repository name in front of a text and the text after its two slashes. Without an `@` the
repository is the main one, and leading slashes may be missing. -/
def splitRepository : List Char → Except LabelFault (List Char × List Char)
  | '@' :: text =>
    match splitSlashes? text with
    | none => .error .openRepository
    | some (repository, rest) =>
      if repository.all isRepositoryCharacter then .ok (repository, rest)
      else .error .repositoryCharacter
  | '/' :: '/' :: rest => .ok ([], rest)
  | rest => .ok ([], rest)

/-- Whether a path part climbs or stays: `.` or `..`. -/
def isUpLevel (part : List Char) : Bool :=
  part == ['.'] || part == ['.', '.']

/-- The first fault in a segment of a package path. -/
def checkSegment (segment : List Char) : Except LabelFault Unit :=
  if segment.isEmpty then .error .emptySegment
  else if isUpLevel segment then .error .upLevelSegment
  else if segment.all isSegmentCharacter then .ok ()
  else .error (.segmentCharacter (String.ofList segment))

/-- Whether a text starts or ends with a slash. -/
def hasOuterSlash (text : List Char) : Bool :=
  text.head? == some '/' || text.getLast? == some '/'

/-- The first fault in a package path; the empty path names the root package. -/
def checkPath (path : List Char) : Except LabelFault Unit :=
  if path.isEmpty then .ok ()
  else if hasOuterSlash path then .error .pathEnds
  else (splitFields '/' path).forM checkSegment

end Label

namespace PackageId

/-- The package in the main repository at a path, which is not checked. -/
def main (path : String) : PackageId :=
  { repository := "", path }

/-- The package that a text names, or the first fault in the text. -/
def read (text : List Char) : Except LabelFault PackageId := do
  let (repository, path) ← splitRepository text
  checkPath path
  return { repository := String.ofList repository, path := String.ofList path }

/-- The package that a text names. -/
def parse (input : String) : Except LabelError PackageId :=
  (read input.toList).mapError fun fault => { input, fault }

/-- The text of a package: its repository unless it is the main one, two slashes, and its path. -/
def render (package : PackageId) : String :=
  (if package.repository.isEmpty then "//" else "@" ++ package.repository ++ "//") ++ package.path

/-- The parts of a package in the order in which packages are compared. -/
def members (package : PackageId) : List String :=
  [package.repository, package.path]

/-- A package is known from its parts. -/
theorem members_injective {left right : PackageId} (same : left.members = right.members) :
    left = right := by
  cases left
  cases right
  simpa [members] using same

end PackageId

end Retained
