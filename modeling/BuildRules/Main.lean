import BuildRules.CommandLine.Host

/-! The program. Its host writes the workspace on the first line of the input; each line of
the output asks it to start a command, and each further line of the input answers one. The
last line of the output tells what the call has printed and which files there are. -/
namespace BuildRules

/-- The exit code of a process is a byte. -/
def exitByte (code : Int) : UInt32 := (code % 256).toNat.toUInt32

/-- Take turns until the call is finished, or the host says nothing that can be read. -/
partial def converse (line : List String) (input output : IO.FS.Stream)
    (host : CommandLine.Host) : IO UInt32 := do
  let turn := host.turn line
  output.putStrLn turn.render
  output.flush
  match turn with
  | .finish ending _ => return exitByte ending.code
  | .start command _ =>
    match CommandLine.Answer.ofText? command (← input.getLine) with
    | some answer => converse line input output (host.hear answer)
    | none => return 1

end BuildRules

def main (line : List String) : IO UInt32 := do
  let input ← IO.getStdin
  match BuildRules.CommandLine.Host.ofText? (← input.getLine) with
  | some host => BuildRules.converse line input (← IO.getStdout) host
  | none => return 1
