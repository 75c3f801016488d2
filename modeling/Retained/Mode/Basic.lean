import Retained.Text.Split
import Retained.Mode.Words

/-!
# Dump modes

A mode is written `words:kind:subject`. Only the first two colons cut it, because subjects hold
colons. The words are separated by commas and may come in any order: a policy, a display, groups to
leave out, and `needle=` with a text. Of several policies, displays or needles the last counts.

Reading refuses with the first of these that applies: the text has fewer than two colons, a word
means nothing (the first such word), there is no policy, there is no display, the kind is unknown.
-/

namespace Retained

open Text

/-- What to dump, and how. -/
structure Mode where
  /-- Which objects are billed. -/
  policy : Policy
  /-- What is printed of them. -/
  display : Display
  /-- What kind of node the subject names. -/
  kind : SubjectKind
  /-- The text that the class of a reported object contains, if reports are narrowed. -/
  needle : Option String
  /-- Which groups take part. -/
  report : ReportOptions
  /-- The subject as written. -/
  subject : String
deriving DecidableEq, Repr

/-- What can be wrong with the text of a mode. -/
inductive ModeError where
  /-- It is not made of words, a kind and a subject. -/
  | malformed (input : String)
  /-- A word means nothing. -/
  | unrecognizedWord (word : String)
  /-- No word is a policy. -/
  | missingPolicy
  /-- No word is a display. -/
  | missingDisplay
  /-- The kind is unknown. -/
  | invalidSubjectKind (kind : String)
deriving DecidableEq, Repr

/-- The text shown for a refused mode. -/
def ModeError.message : ModeError → String
  | malformed input =>
    "invalid memory mode '" ++ input ++ "': expected <words>:<subject kind>:<subject>"
  | unrecognizedWord word => "unrecognized word '" ++ word ++ "'"
  | missingPolicy => "no collection type specified"
  | missingDisplay => "no display mode specified"
  | invalidSubjectKind kind => "invalid subject type '" ++ kind ++ "'"

/-- A word of a mode. -/
inductive ModeWord where
  /-- A policy. -/
  | policy (policy : Policy)
  /-- A display. -/
  | display (display : Display)
  /-- A text that narrows reports. -/
  | needle (needle : String)
  /-- A group to leave out. -/
  | omit (flag : ReportFlag)
deriving DecidableEq, Repr

namespace ModeWord

/-- What leads a needle. -/
def needleMark : List Char := "needle=".toList

/-- The text behind the mark of a needle. -/
def needle? (word : List Char) : Option String :=
  if needleMark.isPrefixOf word then some (String.ofList (word.drop needleMark.length)) else none

/-- The meaning of a word. -/
def read? (word : List Char) : Option ModeWord :=
  let text := String.ofList word
  ((needle? word).map .needle) <|> ((Policy.ofWord? text).map .policy) <|>
    ((Display.ofWord? text).map .display) <|> ((ReportFlag.ofOmission? text).map .omit)

/-- The meanings of the words, or the first word that has none. -/
def readAll : List (List Char) → Except ModeError (List ModeWord)
  | [] => .ok []
  | word :: words =>
    match read? word with
    | none => .error (.unrecognizedWord (String.ofList word))
    | some meaning => (readAll words).map (meaning :: ·)

/-- The policy that a word is. -/
def policy? : ModeWord → Option Policy
  | .policy named => some named
  | _ => none

/-- The display that a word is. -/
def display? : ModeWord → Option Display
  | .display named => some named
  | _ => none

/-- The needle that a word is. -/
def needleText? : ModeWord → Option String
  | .needle text => some text
  | _ => none

/-- The group that a word leaves out. -/
def omitted? : ModeWord → Option ReportFlag
  | .omit flag => some flag
  | _ => none

end ModeWord

namespace Mode

/-- A mode of a policy, a display and a subject, without narrowing and with every group. -/
def plain (policy : Policy) (display : Display) (kind : SubjectKind) (subject : String) : Mode :=
  { policy, display, kind, subject, needle := none, report := .all }

/-- The words, the kind and the subject of a text. -/
def parts? (text : List Char) : Option (List Char × List Char × List Char) := do
  let (words, rest) ← splitFirst? ':' text
  let (kind, subject) ← splitFirst? ':' rest
  return (words, kind, subject)

/-- The mode that a text writes. -/
def parse (input : String) : Except ModeError Mode :=
  match parts? input.toList with
  | none => .error (.malformed input)
  | some (words, kind, subject) => do
    let meanings ← ModeWord.readAll (splitFields ',' words)
    let some policy := (meanings.filterMap ModeWord.policy?).getLast? | throw .missingPolicy
    let some display := (meanings.filterMap ModeWord.display?).getLast? | throw .missingDisplay
    let kindText := String.ofList kind
    let some kind := SubjectKind.ofWord? kindText | throw (.invalidSubjectKind kindText)
    return {
      policy, display, kind
      needle := (meanings.filterMap ModeWord.needleText?).getLast?
      report := .without (meanings.filterMap ModeWord.omitted?)
      subject := String.ofList subject }

end Mode

end Retained
