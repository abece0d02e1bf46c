import Dialogue.CommandLine.Loading
import Dialogue.CommandLine.Printout
import Dialogue.Number.Power
import Dialogue.Play.Walk
import Dialogue.Text.Lines
import Dialogue.Text.Lowercase
/-!
# The preview shell

Plays a tree by commands that are typed in, one to a line. What a line does depends on the session
alone, so a whole dialogue with the shell is a fold over its lines.
-/

namespace Dialogue.CommandLine

namespace Shell

def usage : String :=
  "Usage: preview <tree.json|tree.ron> [--seed-known] [--state key=value]... [--portrait <asset>]"

def help : List String :=
  ["Commands:",
   "  choices               — list choices at the current node",
   "  choose <n>            — take choice n (1-based)",
   "  flags                 — show active flags and state",
   "  flag <name>           — toggle a flag",
   "  set <key> <value>     — set a state value",
   "  transcript            — print the conversation so far",
   "  reset                 — restart from the start node",
   "  auto <n> [seed]       — random walk of up to n choices, then coverage",
   "  help                  — this list",
   "  quit                  — exit"]

def prompt : String := "preview> "

/-- The end of the conversation, in words. -/
def endLines (ending : Ending) : List String :=
  ["*** Conversation ended: " ++ ending.describe ++ " ***", ""]

/-- The line that was shown last, and the end if it has come. -/
def latest (s : Session) : List String :=
  (match s.snapshot.last? with
    | none => ["(no lines)"]
    | some m =>
      ["[" ++ m.node ++ "] (" ++ m.emotion.getD "-" ++ ", " ++ m.portrait.getD "no portrait" ++ ")",
       m.speaker ++ ": " ++ m.text, ""]) ++
    (match s.snapshot.ending? with
      | none => []
      | some ending => endLines ending)

def offerLines (o : Session.Offer) : List String :=
  let target :=
    match o.choice.exitStatus with
    | some status => "  [exit: " ++ status ++ "]"
    | none => if o.dangling then "  [missing target]" else ""
  let lock := if o.available then "" else "  [locked]"
  let reasons := o.lockedReason.toList.flatMap Text.lines
  ("  " ++ toString (o.index + 1) ++ ". " ++ o.text ++ target ++ lock) ::
    reasons.map ("       " ++ ·)

def choices (s : Session) : List String :=
  match s.offers with
  | [] => if s.snapshot.isEnded then [] else ["(no choices; type 'reset' to start over)", ""]
  | offers => offers.flatMap offerLines ++ [""]

def counterLine (entry : String × Int64) : String :=
  entry.1 ++ " = " ++ toString entry.2.toInt

def state (s : Session) : List String :=
  let flags := s.world.flags.toList
  let counters := s.world.counters.toList
  (if flags.isEmpty then "Flags: (none)" else "Flags: " ++ commaSeparated flags) ::
    (if counters.isEmpty then ["State: (empty)"]
      else counters.map fun entry => "  " ++ counterLine entry)

def transcript (s : Session) : List String :=
  s.snapshot.transcript.flatMap fun m =>
    m.via.toList.map ("  > " ++ ·) ++ [m.speaker ++ ": " ++ m.text]

def eventLine : Walk.Event → String
  | .shown m => "  " ++ m.via.getD "" ++ " > " ++ m.speaker ++ ": " ++ m.text
  | .ended ending => "  ended: " ++ ending.describe
  | .stuck node => "  (no available choices at '" ++ node ++ "')"
  | .refused refusal => "  ERROR: " ++ refusal.message

/-- The picks of a seed: a linear congruence modulo `2 ^ 64`, which stands in for a generator of
random numbers. Walks are made for any picks, and nothing that is said of them depends on these. -/
def seededPicks (seed n : Nat) : Nat :=
  let step (x : Nat) : Nat := (x * 6364136223846793005 + 1442695040888963407) % Number.twoTo 64
  step (step seed + n) / Number.twoTo 33

/-- A walk and how much of the tree it covered. -/
def walk (s : Session) (steps seed : Nat) : List String :=
  let w := Walk.of (seededPicks seed) steps s
  ["", "=== Random walk: up to " ++ toString steps ++ " choices (seed " ++ toString seed ++ ") ===",
    ""] ++
  w.events.map eventLine ++
  ["", "Took " ++ toString w.taken ++ " choices, visited " ++ toString w.visited.size ++ "/" ++
    toString s.tree.nodes.size ++ " nodes"] ++
  (if w.unvisited.isEmpty then [] else ["Not visited: " ++ commaSeparated w.unvisited]) ++ [""]

/-- What a line asks for. -/
inductive Command where
  | quit
  | help
  | choices
  /-- A choice by its number, counted from one, if that was given. -/
  | choose (number : Option Nat)
  | flags
  | flag (name : Option String)
  | set (assignment : Option (String × Int64))
  | transcript
  | reset
  /-- A walk of at most so many steps, if that was given, with a seed. -/
  | auto (steps : Option Nat) (seed : Nat)
  | unknown (word : String)
  deriving DecidableEq

namespace Command

/-- A number above zero. -/
def positive? (word : Option String) : Option Nat := (word.bind Text.size?).filter (0 < ·)

/-- The command of a word and the words behind it. -/
def ofWord (word : String) (args : List String) : Command :=
  if word = "quit" || word = "exit" || word = "q" then quit
  else if word = "help" || word = "h" || word = "?" then help
  else if word = "choices" || word = "c" then choices
  else if word = "choose" then choose (positive? args[0]?)
  else if word = "flags" then flags
  else if word = "flag" then flag args[0]?
  else if word = "set" then
    set (match args[0]?, args[1]?.bind Text.count? with
      | some key, some value => some (key, value)
      | _, _ => none)
  else if word = "transcript" || word = "t" then transcript
  else if word = "reset" then reset
  else if word = "auto" then auto (positive? args[0]?) ((args[1]?.bind Text.size?).getD 42)
  else unknown word

/-- The command on a line, unless the line is blank. The case of the first word does not matter. -/
def ofLine? (line : String) : Option Command :=
  match Text.words line with
  | [] => none
  | word :: args => some (ofWord (Text.lowercase word) args)

end Command

/-- What is printed of an attempt to take a choice that has left the session as it is now. -/
def chosen (s : Session) : Except Session.Refusal Session.Outcome → List String
  | .ok (.advanced _) => latest s ++ choices s
  | .ok (.ended ending) => "" :: endLines ending
  | .error refusal => ["ERROR: " ++ refusal.message]

/-- Carries out a command: what is printed, and the session after it unless the shell is left. -/
def respond (s : Session) : Command → List String × Option Session
  | .quit => (["Goodbye."], none)
  | .help => (help, some s)
  | .choices => (choices s, some s)
  | .choose none => (["Usage: choose <n>"], some s)
  | .choose (some number) =>
    let (result, s) := s.choose (number - 1)
    (chosen s result, some s)
  | .flags => (state s, some s)
  | .flag none => (["Usage: flag <name>"], some s)
  | .flag (some name) =>
    let s := s.toggleFlag name
    (["Flag '" ++ name ++ "' " ++ (if s.hasFlag name then "set" else "cleared")], some s)
  | .set none => (["Usage: set <key> <value>"], some s)
  | .set (some (key, value)) => ([counterLine (key, value)], some (s.setCounter key value))
  | .transcript => (transcript s, some s)
  | .reset =>
    let s := s.reset
    (["Session reset.", ""] ++ latest s ++ choices s, some s)
  | .auto none _ => (["Usage: auto <n> [seed]"], some s)
  | .auto (some steps) seed => (walk s steps seed, some s)
  | .unknown word => (["Unknown command '" ++ word ++ "'. Type 'help' for commands."], some s)

/-- Carries out a line. A blank one does nothing. -/
def respondLine (s : Session) (line : String) : List String × Option Session :=
  match Command.ofLine? line with
  | none => ([], some s)
  | some command => respond s command

/-- What is printed before the first line is typed in. -/
def opening (s : Session) : List String :=
  ["Loaded '" ++ s.tree.name ++ "' (" ++ toString s.tree.nodes.size ++ " nodes)",
   "Type 'help' for commands.", ""] ++ latest s ++ choices s

/-- What is printed while lines are typed in. At the end of the lines the shell is left. -/
def converse (s : Session) : List String → String
  | [] => prompt
  | line :: lines =>
    let (printed, next) := respondLine s line
    prompt ++ unlines printed ++
      match next with
      | none => ""
      | some s => converse s lines

/-- Why the arguments are refused. -/
inductive BadArgument where
  | assignment (raw : String)
  | unknown (argument : String)
  deriving DecidableEq

/-- Reads a counter and its value from both sides of an equals sign. -/
def assignment? (raw : String) : Option (String × Int64) :=
  match Text.splitAt? ['='] raw.toList with
  | none => none
  | some (key, value) =>
    (Text.count? (String.ofList (Text.trim value))).map fun n =>
      (String.ofList (Text.trim key), n)

def options (setup : Session.Setup) : List String → Except BadArgument Session.Setup
  | [] => .ok setup
  | "--seed-known" :: rest => options { setup with seedsKnown := true } rest
  | "--state" :: raw :: rest =>
    match assignment? raw with
    | some seed => options { setup with seeds := setup.seeds ++ [seed] } rest
    | none => .error (.assignment raw)
  | "--portrait" :: asset :: rest => options { setup with portrait := some asset } rest
  | other :: _ => .error (.unknown other)

def BadArgument.printout : BadArgument → Printout
  | assignment raw =>
    .failure (unlines ["Invalid --state value '" ++ raw ++ "', expected key=value"])
  | unknown argument => ⟨1, unlines [usage], unlines ["Unknown argument: " ++ argument]⟩

/-- Starts the shell: the session, or what is printed in its place. -/
def start (args : List String) (d : Disk) : Except Printout Session :=
  match args with
  | [] | "--help" :: _ | "-h" :: _ => .error (.success (unlines [usage]))
  | path :: rest =>
    match options ⟨[], false, none⟩ rest with
    | .error bad => .error bad.printout
    | .ok setup =>
      match loadTree d path with
      | .error e =>
        .error (.failure (unlines ["ERROR: Failed to load tree '" ++ path ++ "': " ++ e]))
      | .ok t => .ok (.start t (setup.config t))

/-- Runs the command with the text that is typed in. -/
def run (args : List String) (d : Disk) (typed : String) : Printout :=
  match start args d with
  | .error printout => printout
  | .ok s => .success (unlines (opening s) ++ converse s (Text.lines typed))

end Shell

end Dialogue.CommandLine
