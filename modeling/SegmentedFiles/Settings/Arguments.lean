import SegmentedFiles.Settings.Parameter
import SegmentedFiles.Text.Decimal
import SegmentedFiles.Text.Name

/-! The arguments of the program. An option's value is the argument after it, or follows an equals sign
in the same one. A value is looked at only when the next option is: until then an argument that is no
option at all counts first. -/

namespace SegmentedFiles

/-- Why arguments are not accepted, or are not what the program is to run with. -/
inductive ArgumentFault where
  | unknown
  /-- A value is missing, or is not one of those there are. -/
  | noValue
  /-- A value that is to be a number is none, or is too large. -/
  | badNumber
  /-- An option is given twice. -/
  | twice
  /-- An option without a value is given one. -/
  | tooMany
  | helpWanted
  | versionWanted
  deriving DecidableEq, Repr

structure Arguments where
  texts : List (TextParameter × String)
  port : Option Nat
  backend : Option StoreKind
  chunkSize : Option Nat
  insecureSkipVerify : Bool
  migrate : Bool
  deriving DecidableEq, Repr

namespace Arguments

def empty : Arguments := ⟨[], none, none, none, false, false⟩

/-- A port may be written with a sign, as long as it comes out as one. -/
def readPort (value : String) : Option Nat :=
  match Text.after? "-" value with
  | some digits =>
    if Text.startsWith digits "+" then none else (Decimal.parse 0 digits).toOption
  | none => (Decimal.parse Decimal.max16 value).toOption

/-- Take a parameter's value, if it has none yet. -/
def give (a : Arguments) (p : Parameter) (value : String) : Except ArgumentFault Arguments :=
  match p with
  | .text p =>
    if (a.texts.lookup p).isSome then .error .twice else .ok { a with texts := (p, value) :: a.texts }
  | .port =>
    if a.port.isSome then .error .twice
    else match readPort value with
      | some port => .ok { a with port := some port }
      | none => .error .badNumber
  | .backend =>
    if a.backend.isSome then .error .twice
    else match StoreKind.find? value with
      | some kind => .ok { a with backend := some kind }
      | none => .error .noValue
  | .chunkSize =>
    if a.chunkSize.isSome then .error .twice
    else match Decimal.parse Decimal.max64 value with
      | .ok size => .ok { a with chunkSize := some size }
      | .error _ => .error .badNumber

def raise (a : Arguments) : Flag → Except ArgumentFault Arguments
  | .insecureSkipVerify =>
    if a.insecureSkipVerify then .error .twice else .ok { a with insecureSkipVerify := true }
  | .migrate => if a.migrate then .error .twice else .ok { a with migrate := true }
  | .help => .error .helpWanted
  | .version => .error .versionWanted

/-- An option that has been read but not looked at, with its value if it has come. -/
abbrev Pending : Type := Option (Parameter × Option String)

def settle (a : Arguments) : Pending → Except ArgumentFault Arguments
  | none => .ok a
  | some (p, some value) => a.give p value
  | some (_, none) => .error .noValue

def raiseLetters (a : Arguments) : List Char → Except ArgumentFault Arguments
  | [] => .ok a
  | c :: rest =>
    match Flag.ofLetter? c with
    | some flag => do raiseLetters (← a.raise flag) rest
    | none => .error .unknown

inductive Word where
  /-- No option follows. -/
  | ending
  | option (name : String) (value : Option String)
  | letters (cs : List Char)
  | plain (text : String)
  deriving DecidableEq, Repr

/-- Tell options by their dashes. A single dash is none. -/
def Word.ofText (text : String) : Word :=
  match text.toList with
  | ['-', '-'] => .ending
  | '-' :: '-' :: cs =>
    match Text.splitFirst? '=' (String.ofList cs) with
    | some (name, value) => .option name (some value)
    | none => .option (String.ofList cs) none
  | '-' :: c :: cs => .letters (c :: cs)
  | _ => .plain text

def readWord (a : Arguments) (pending : Pending) : Word → Except ArgumentFault (Arguments × Pending)
  | .ending => .ok (a, pending)
  | .option name value =>
    match Parameter.find? name, value with
    | some p, some value => do return (← (← a.settle pending).give p value, none)
    | some p, none => do return (← a.settle pending, some (p, none))
    | none, value =>
      match Flag.find? name, value with
      | some flag, none => do return (← (← a.settle pending).raise flag, none)
      | some _, some _ => .error .tooMany
      | none, _ => .error .unknown
  | .letters cs =>
    match (cs.head?).bind Flag.ofLetter? with
    | some _ => do return (← (← a.settle pending).raiseLetters cs, none)
    | none => .error .unknown
  | .plain text =>
    match pending with
    | some (p, none) => .ok (a, some (p, some text))
    | _ => .error .unknown

def readWords (a : Arguments) (pending : Pending) : List Word → Except ArgumentFault Arguments
  | [] => a.settle pending
  | .ending :: rest => if rest.isEmpty then a.settle pending else .error .unknown
  | word :: rest =>
    match a.readWord pending word with
    | .ok (a, pending) => a.readWords pending rest
    | .error fault => .error fault

def parse (arguments : List String) : Except ArgumentFault Arguments :=
  empty.readWords none (arguments.map Word.ofText)

def text? (a : Arguments) (p : TextParameter) : Option String := a.texts.lookup p

end Arguments

end SegmentedFiles
