import SymbolHistory.Command.Arguments
import SymbolHistory.Recording

open SymbolHistory

def usage : String := "usage: codelineage symbols|references|evolution|compare [arguments]"

def runRecorded (args : List String) (recording : Json) : IO UInt32 := do
  match Command.ofArguments args with
  | .error .version =>
    IO.println ("codelineage " ++ Report.programVersion)
    return 0
  | .error .help =>
    IO.println usage
    return 0
  | .error _ =>
    IO.eprintln usage
    return 2
  | .ok command =>
    let (outcome, _) := (command.run (Recording.surroundings "/" recording)).run []
    IO.print outcome.output
    IO.eprint outcome.complaint
    if let some e := outcome.error then IO.eprintln ("Error: " ++ e.message)
    return outcome.code.toUInt32

def main (args : List String) : IO UInt32 := do
  let input ← (← IO.getStdin).readToEnd
  match Json.parse? input with
  | some recording => runRecorded args recording
  | none =>
    IO.eprintln "Error: the recording is not JSON"
    return 2
