import Tabletop.Console
import Tabletop.DiceSource.Generator

/-!
# The command line

Reads lines from the standard input until it ends, and replies to each as it comes.
-/
namespace Tabletop

/-- A generator that starts from bytes of the system's entropy. -/
def freshGenerator : IO StdGen := do
  let bytes ← IO.getRandomBytes 8
  return mkStdGen (bytes.toList.foldl (fun seed byte => seed * 256 + byte.toNat) 0)

/-- The settings that the environment makes. -/
def environmentSettings : IO Settings := do
  let names := [Settings.limitVariable, Settings.styleVariable]
  let values ← names.mapM fun name => return (name, ← IO.getEnv name)
  return Settings.ofVariables fun name => (values.lookup name).join

/-- Replies to the lines that are still to come. -/
partial def converse (settings : Settings) (session : Session StdGen) : IO Unit := do
  let stdout ← IO.getStdout
  stdout.putStr Console.prompt
  stdout.flush
  let line ← (← IO.getStdin).getLine
  match Console.lines line.toList with
  | [] => return
  | line :: _ =>
    let (reply, session) := Console.answer settings session line
    stdout.putStr reply.output
    IO.eprint reply.complaint
    converse settings session

end Tabletop

def main : IO UInt32 := do
  let settings ← Tabletop.environmentSettings
  let generator ← Tabletop.freshGenerator
  Tabletop.converse settings (Tabletop.Session.start settings.limit generator)
  return 0
