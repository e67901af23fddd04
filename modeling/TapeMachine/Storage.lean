/-!
# Storage

Files are read whole and written whole, under a path.  An operation either does all of its work or
fails and changes nothing.

## Main definitions

* `Fault` — why a file cannot be read or written.
* `Storage` — reading and writing, for whatever holds the files.
* `decodeText` — the content of a file as text.
-/

namespace TapeMachine

/-- Why a file cannot be read or written. -/
inductive Fault
  /-- There is nothing under the path, or no directory to put it in. -/
  | notFound
  /-- The path goes through a file as if it were a directory. -/
  | notDirectory
  /-- The path leads to a directory. -/
  | isDirectory
  /-- The file was to be text and is no UTF-8. -/
  | notText
  /-- Anything else, in the words of whoever holds the files. -/
  | other (words : String)
  deriving DecidableEq, Repr, Inhabited

/-- The fault in words. -/
def Fault.message : Fault → String
  | notFound => "No such file or directory (os error 2)"
  | notDirectory => "Not a directory (os error 20)"
  | isDirectory => "Is a directory (os error 21)"
  | notText => "stream did not contain valid UTF-8"
  | other words => words

/-- Reading and writing whole files in a state of type `σ`. -/
structure Storage (σ : Type) where
  /-- The content of the file under a path. -/
  read : σ → String → Except Fault (List UInt8)
  /-- The state in which the file under a path has a content. -/
  write : σ → String → List UInt8 → Except Fault σ

/-- The text that bytes spell in UTF-8. -/
def decodeText (bytes : List UInt8) : Except Fault String :=
  match String.fromUTF8? ⟨bytes.toArray⟩ with
  | some text => .ok text
  | none => .error .notText

end TapeMachine
