import SegmentedFiles.Launch.Start

/-! The command line: what the program prints, and the status that it ends with. -/

namespace SegmentedFiles

structure Exit where
  status : Nat
  output : String
  errors : String
  deriving DecidableEq, Repr

namespace Exit

/-- A text whose later lines are set in. -/
def setIn (margin text : String) : String := ("\n" ++ margin).intercalate (Text.splitAt '\n' text)

/-- Reasons below the first, which are numbered if there is more than one. -/
def causesText (causes : List String) : String :=
  String.join <|
    match causes with
    | [cause] => ["\n    " ++ setIn "    " cause]
    | causes => causes.zipIdx.map fun (cause, i) => "\n    " ++ i.repr ++ ": " ++ setIn "       " cause

/-- A failure in words: its most general reason, and then those behind it. -/
def failureText (reasons : List String) : String :=
  match reasons with
  | [] => "Error\n"
  | [reason] => "Error: " ++ reason ++ "\n"
  | reason :: causes => "Error: " ++ reason ++ "\n\nCaused by:" ++ causesText causes ++ "\n"

def ofFailure (reasons : List String) : Exit := ⟨1, "", failureText reasons⟩

def programName : String := "segment-fs"

def versionText : String := programName ++ " 0.1.0\n"

def optionsText : String :=
  let option (name value : String) : String := "      --" ++ name ++ value ++ "\n"
  String.join (Parameter.all.map fun p =>
      option p.option (" <" ++ ("_".intercalate p.words).toUpper ++ ">"))
    ++ String.join (Flag.all.map fun flag => option flag.option "")

def usageText : String := "Usage: " ++ programName ++ " [OPTIONS]\n"

def helpText : String :=
  "Segmented file storage over OpenStack Swift\n\n" ++ usageText ++ "\nOptions:\n" ++ optionsText

def faultText : ArgumentFault → String
  | .unknown => "unexpected argument"
  | .noValue => "an option has no value, or not one of those there are"
  | .badNumber => "an option has a value that is no number, or is out of range"
  | .twice => "an option cannot be used multiple times"
  | .tooMany => "an option without a value has one"
  | .helpWanted | .versionWanted => ""

def ofFault : ArgumentFault → Exit
  | .helpWanted => ⟨0, helpText, ""⟩
  | .versionWanted => ⟨0, versionText, ""⟩
  | fault => ⟨2, "", "error: " ++ faultText fault ++ "\n\n" ++ usageText⟩

end Exit

/-- Run the program up to where it ends or offers its service. -/
def commandLine (arguments : List String) (environment : String → Option String) :
    HostProgram (Except Exit Volume) :=
  match Arguments.parse arguments with
  | .error fault => .done (.error (Exit.ofFault fault))
  | .ok arguments =>
    match Settings.merge arguments environment with
    | .error e => .done (.error (Exit.ofFailure e.causes))
    | .ok settings =>
      Interaction.bind (Launch.start settings).run fun
        | .error reasons => .done (.error (Exit.ofFailure reasons))
        | .ok none => .done (.error ⟨0, "", ""⟩)
        | .ok (some volume) => .done (.ok volume)

end SegmentedFiles
