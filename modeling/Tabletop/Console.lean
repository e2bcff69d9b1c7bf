import Tabletop.Session
import Tabletop.Style

/-!
# The console

Rolling line by line. Each line that is not blank is rolled on the full budget; its rolls are
shown, or the reason why there are none. What a whole run writes is a function of its settings,
its input and the source of the dice.
-/
namespace Tabletop

/-- The limit on the dice of one line, and how rolls are shown. -/
structure Settings where
  limit : Option Nat := some Budget.standard
  style : Style := .simple
  deriving DecidableEq

namespace Settings

/-- The variable that sets the limit; zero lifts it. -/
def limitVariable : String := "DICE_MAX_ROLLS"

/-- The variable that names the style. -/
def styleVariable : String := "DICE_FORMAT"

/-- The limit that a value of its variable sets. -/
def readLimit (value : List Char) : Option (Option Nat) :=
  (Decimal.read? Count.greatest (Text.trim value)).map fun n => if n = 0 then none else some n

/-- The settings that the variables make; a value that cannot be read is as good as none. -/
def ofVariables (lookup : String → Option String) : Settings where
  limit := ((lookup limitVariable).bind (readLimit ·.toList)).getD (some Budget.standard)
  style := ((lookup styleVariable).bind (Style.ofName? ·.toList)).getD .simple

end Settings

namespace Console

/-- What the console has to say to a line. -/
inductive Reply where
  | nothing
  | rolled (text : List Char)
  | failed (failure : Failure)
  deriving DecidableEq

/-- What is written before each line is read. -/
def prompt : String := "> "

namespace Reply

/-- What the reply adds to the standard output. -/
def output : Reply → String
  | rolled text => String.ofList text ++ "\n"
  | _ => ""

/-- What the reply adds to the standard error. -/
def complaint : Reply → String
  | failed failure => "Error: " ++ failure.message ++ "\n"
  | _ => ""

end Reply

/-- The lines of an input. A line ends at a line feed, with a carriage return before it or
without; characters after the last line feed are a line of their own. -/
def lines : List Char → List (List Char)
  | [] => []
  | '\n' :: input => [] :: lines input
  | '\r' :: '\n' :: input => [] :: lines input
  | c :: input =>
    match lines input with
    | [] => [[c]]
    | line :: rest => (c :: line) :: rest

variable {σ : Type} [DiceSource σ]

/-- Replies to one line. -/
def answer (settings : Settings) (session : Session σ) (line : List Char) : Reply × Session σ :=
  if Text.allBlank line then (.nothing, session)
  else
    match session.reset.rollLine line with
    | (.ok rolls, session) => (.rolled (settings.style.rollsText rolls), session)
    | (.error failure, session) => (.failed failure, session)

/-- Replies to one line after the other. -/
def answers (settings : Settings) (session : Session σ) : List (List Char) → List Reply
  | [] => []
  | line :: rest =>
    let (reply, session) := answer settings session line
    reply :: answers settings session rest

/-- All that a run writes, and the code with which it ends. -/
structure Transcript where
  output : String
  complaints : String
  exitCode : Nat
  deriving DecidableEq

/-- The transcript of a run on the whole of an input. -/
def transcript (settings : Settings) (source : σ) (input : List Char) : Transcript :=
  let replies := answers settings (Session.start settings.limit source) (lines input)
  { output := prompt ++ String.join (replies.map fun reply => reply.output ++ prompt)
    complaints := String.join (replies.map Reply.complaint)
    exitCode := 0 }

end Console

end Tabletop
