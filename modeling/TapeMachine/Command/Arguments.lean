import TapeMachine.Command.Options

/-!
# Reading the command line

A command line is a sequence of words.  Words that start with a hyphen are switches: a long one has two
hyphens and a name, and short ones are single letters that can share a hyphen.  A switch that takes a
value finds it behind an equals sign, for a letter also directly behind it, or else in the next word.
That word must not look like a switch itself, unless the switch takes any word.  A hyphen alone is no
switch, and behind a word of two hyphens nothing is.  All other words are operands.

A switch may be given once, and a command takes at most one operand.

## Main definitions

* `Command.Switch` — the switches of all commands.
* `Command.ArgumentError` — why a command line is refused.
* `Command.Item`, `Command.readItems` — the switches and operands of a sequence of words.
* `Command.Invocation.ofWords` — the meaning of a whole command line.
-/

namespace TapeMachine.Command

/-- The switches of all commands. -/
inductive Switch
  /-- The text of the program. -/
  | code
  /-- Where the input comes from. -/
  | input
  /-- Where the output goes as well. -/
  | output
  /-- Where the listing of the tape goes. -/
  | listing
  /-- The width of the cells. -/
  | bits
  /-- The number of cells. -/
  | tape
  /-- No summary. -/
  | quiet
  /-- Help. -/
  | help
  deriving DecidableEq, Repr, Inhabited

namespace Switch

/-- The short form of a switch, behind one hyphen. -/
def letter : Switch → Char
  | code => 'c'
  | input => 'i'
  | output => 'o'
  | listing => 'm'
  | bits => 'b'
  | tape => 't'
  | quiet => 'q'
  | help => 'h'

/-- The long form of a switch, behind two hyphens. -/
def name : Switch → String
  | code => "code"
  | input => "input"
  | output => "output"
  | listing => "dump-memory"
  | bits => "bits"
  | tape => "tape"
  | quiet => "quiet"
  | help => "help"

/-- Whether a switch takes a value. -/
def takesValue : Switch → Bool
  | quiet | help => false
  | _ => true

/-- Whether a switch takes the next word as its value even if it looks like a switch. -/
def takesAnyWord : Switch → Bool
  | code => true
  | _ => false

/-- The switches that may stand before a command. -/
def ofProgram : List Switch := [help]

/-- The switches of the command that runs a program. -/
def ofRun : List Switch := [code, input, output, listing, bits, tape, quiet, help]

/-- The switches of the command that checks a program. -/
def ofCheck : List Switch := [code, help]

end Switch

/-- Why a command line is refused. -/
inductive ArgumentError
  /-- No such switch is known here. -/
  | unknownSwitch (word : String)
  /-- A switch is given twice. -/
  | repeated (switch : Switch)
  /-- A switch lacks its value. -/
  | missingValue (switch : Switch)
  /-- A switch that takes no value is given one. -/
  | unwantedValue (switch : Switch)
  /-- The value of a switch is not one that it can have. -/
  | badValue (switch : Switch) (value : String)
  /-- An operand is empty or stands where none can be. -/
  | badOperand (word : String)
  deriving DecidableEq, Repr

/-- The error in words. -/
def ArgumentError.message : ArgumentError → String
  | unknownSwitch word => "unexpected argument '" ++ word ++ "'"
  | repeated switch => "the argument '--" ++ switch.name ++ "' cannot be used multiple times"
  | missingValue switch => "a value is required for '--" ++ switch.name ++ "'"
  | unwantedValue switch => "the argument '--" ++ switch.name ++ "' takes no value"
  | badValue switch value => "invalid value '" ++ value ++ "' for '--" ++ switch.name ++ "'"
  | badOperand word => "unexpected argument '" ++ word ++ "'"

/-- A part of a command line. -/
inductive Item
  /-- A switch that takes no value. -/
  | flag (switch : Switch)
  /-- A switch and its value. -/
  | setting (switch : Switch) (value : String)
  /-- A word that belongs to no switch. -/
  | operand (word : String)
  deriving DecidableEq, Repr

/-- Whether a word looks like a switch: it starts with a hyphen and is not a hyphen alone. -/
def looksLikeSwitch : List Char → Bool
  | '-' :: _ :: _ => true
  | _ => false

/-- The letters behind one hyphen: the switches among them, and the last one if its value is still to
come. -/
def readLetters (known : List Switch) : List Char → Except ArgumentError (List Item × Option Switch)
  | [] => .ok ([], none)
  | c :: rest =>
    match known.find? fun switch => switch.letter == c with
    | none => .error (.unknownSwitch (String.ofList ['-', c]))
    | some switch =>
      if switch.takesValue then
        match rest with
        | [] => .ok ([], some switch)
        | '=' :: value => .ok ([.setting switch (String.ofList value)], none)
        | value => .ok ([.setting switch (String.ofList value)], none)
      else
        (readLetters known rest).map fun (items, pending) => (.flag switch :: items, pending)

/-- What stands behind two hyphens: a switch, with its value if there is an equals sign, and else
waiting for it if it takes one. -/
def readName (known : List Switch) (text : List Char) :
    Except ArgumentError (List Item × Option Switch) :=
  let name := text.takeWhile (· != '=')
  match known.find? fun switch => switch.name.toList == name with
  | none => .error (.unknownSwitch (String.ofList ('-' :: '-' :: name)))
  | some switch =>
    match text.dropWhile (· != '='), switch.takesValue with
    | [], false => .ok ([.flag switch], none)
    | [], true => .ok ([], some switch)
    | _ :: _, false => .error (.unwantedValue switch)
    | _ :: value, true => .ok ([.setting switch (String.ofList value)], none)

/-- A word that no switch waits for. -/
def readWord (known : List Switch) : List Char → Except ArgumentError (List Item × Option Switch)
  | '-' :: '-' :: text => readName known text
  | '-' :: c :: letters => readLetters known (c :: letters)
  | word => .ok ([.operand (String.ofList word)], none)

/-- The switches and operands of a sequence of words, at whose start the switch `pending` waits for its
value. -/
def readItems (known : List Switch) : Option Switch → List String → Except ArgumentError (List Item)
  | none, [] => .ok []
  | some switch, [] => .error (.missingValue switch)
  | some switch, word :: rest =>
    if switch.takesAnyWord || !looksLikeSwitch word.toList then
      (readItems known none rest).map (.setting switch word :: ·)
    else .error (.missingValue switch)
  | none, word :: rest =>
    if word = "--" then .ok (rest.map .operand)
    else
      match readWord known word.toList with
      | .error error => .error error
      | .ok (items, pending) => (readItems known pending rest).map (items ++ ·)

namespace Item

/-- The value that an item gives a switch. -/
def valueOf? (switch : Switch) : Item → Option String
  | setting other value => if other = switch then some value else none
  | _ => none

/-- The word of an operand. -/
def word? : Item → Option String
  | operand word => some word
  | _ => none

/-- The value that items give a switch, which must not be given twice. -/
def value? (switch : Switch) (items : List Item) : Except ArgumentError (Option String) :=
  match items.filterMap (valueOf? switch) with
  | [] => .ok none
  | [value] => .ok (some value)
  | _ => .error (.repeated switch)

/-- The name of a file that items give a switch, which must not be empty. -/
def path? (switch : Switch) (items : List Item) : Except ArgumentError (Option String) := do
  match ← value? switch items with
  | some "" => .error (.badValue switch "")
  | path => .ok path

/-- Whether a flag is among items, which must not hold it twice. -/
def hasFlag (switch : Switch) (items : List Item) : Except ArgumentError Bool :=
  match items.count (.flag switch) with
  | 0 => .ok false
  | 1 => .ok true
  | _ => .error (.repeated switch)

/-- The one operand among items, if there is any.  It must not be empty. -/
def operand? (items : List Item) : Except ArgumentError (Option String) :=
  match items.filterMap word? with
  | [] => .ok none
  | [word] => if word = "" then .error (.badOperand word) else .ok (some word)
  | _ :: word :: _ => .error (.badOperand word)

/-- A number of bits: one of 32 bits, or zero with a minus sign. -/
def readBits? (text : List Char) : Option Nat :=
  match text with
  | '-' :: c :: digits => (Decimal.readDigits 0 (c :: digits)).filter (· == 0)
  | text => Decimal.read? Setting.cellBits.bound text

/-- A number of cells: one of 64 bits. -/
def readSize? (text : List Char) : Option Nat :=
  Decimal.read? Setting.memorySize.bound text

/-- The number that items give a switch, read by `read?`. -/
def number? (switch : Switch) (read? : List Char → Option Nat) (items : List Item) :
    Except ArgumentError (Option Nat) := do
  match ← value? switch items with
  | none => .ok none
  | some text =>
    match read? text.toList with
    | some number => .ok (some number)
    | none => .error (.badValue switch text)

end Item

/-- The options that items give the command that runs a program. -/
def RunOptions.ofItems (items : List Item) : Except ArgumentError RunOptions := do
  let file ← Item.operand? items
  let code ← Item.value? .code items
  let input ← Item.value? .input items
  let output ← Item.path? .output items
  let listing ← Item.path? .listing items
  let cellBits ← Item.number? .bits Item.readBits? items
  let memorySize ← Item.number? .tape Item.readSize? items
  let quiet ← Item.hasFlag .quiet items
  let help ← Item.hasFlag .help items
  return { file, code, input, output, listing, settings := { cellBits, memorySize }, quiet, help }

/-- The options that items give the command that checks a program. -/
def CheckOptions.ofItems (items : List Item) : Except ArgumentError CheckOptions := do
  let file ← Item.operand? items
  let code ← Item.value? .code items
  let help ← Item.hasFlag .help items
  return { file, code, help }

namespace Request

/-- The command that a word names, with the words behind it. -/
def ofCommand? (name : String) (words : List String) : Option (Except ArgumentError Request) :=
  match name with
  | "run" => some do return .run (← RunOptions.ofItems (← readItems Switch.ofRun none words))
  | "check" => some do return .check (← CheckOptions.ofItems (← readItems Switch.ofCheck none words))
  | _ => none

end Request

namespace Invocation

/-- The meaning of a command line behind the items `before`.  The first word that names a command ends
them; no other operand may stand there. -/
def ofWordsAfter (before : List Item) : List String → Except ArgumentError Invocation
  | [] => do return { help := ← Item.hasFlag .help before }
  | word :: rest =>
    match Request.ofCommand? word rest with
    | some request => do
      return { help := ← Item.hasFlag .help before, request := some (← request) }
    | none =>
      if word = "--" then
        match rest with
        | [] => ofWordsAfter before []
        | operand :: _ => .error (.badOperand operand)
      else
        match readWord Switch.ofProgram word.toList with
        | .error error => .error error
        | .ok (items, _) =>
          if items.all (·.word?.isNone) then ofWordsAfter (before ++ items) rest
          else .error (.badOperand word)

/-- The meaning of a command line. -/
def ofWords (words : List String) : Except ArgumentError Invocation :=
  ofWordsAfter [] words

end Invocation

end TapeMachine.Command
