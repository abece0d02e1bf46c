import Dialogue.CommandLine.Loading
import Dialogue.CommandLine.Printout
import Dialogue.Play.Session
import Dialogue.Review.Lint
import Dialogue.Text.Padding
/-!
# The tavern demo

Plays a fixed walk through the tavern's tree, then prints its layout, the notes on its choices and
its issues.
-/

namespace Dialogue.CommandLine

namespace Demo

def treePath : String := "dialogue_data/tavern.json"

def setup : Session.Setup := ⟨[("gold", 10)], true, some "portraits/unknown.png"⟩

def walk : List String :=
  ["buy_drink", "thanks", "ask_rumors", "find_hale", "bolt", "ask_rumors", "bribe", "never_mind",
   "browse"]

/-- A span with stars around it if it has a style. -/
def starred (s : Markup.Span) : String := if s.isPlain then s.content else "*" ++ s.content ++ "*"

def latest (s : Session) : List String :=
  match s.snapshot.last? with
  | none => []
  | some m =>
    [m.speaker ++ " [" ++ m.portrait.getD "-" ++ "]: " ++
      String.join ((Markup.spans m.text).map starred), ""]

def offerLine (o : Session.Offer) : String :=
  "  [" ++ (if o.available then " " else "x") ++ "] " ++ o.text

/-- Takes choices until the conversation ends: what is printed, and the session in the end. -/
def play (s : Session) : List String → List String × Session
  | [] => ([], s)
  | id :: ids =>
    let shown := s.offers.map offerLine ++ ["> " ++ id]
    match s.apply id with
    | (.ok (.ended ending), s) => (shown ++ ["", "*** " ++ ending.describe ++ " ***", ""], s)
    | (.ok (.advanced _), s) =>
      let (lines, last) := play s ids
      (shown ++ latest s ++ lines, last)
    | (.error refusal, s) =>
      let (lines, last) := play s ids
      (shown ++ ["  (refused: " ++ refusal.message ++ ")", ""] ++ lines, last)

def quoted (s : String) : String := Text.QuoteStyle.message.quote s

def pair (entry : String × Int64) : String :=
  "(" ++ quoted entry.1 ++ ", " ++ toString entry.2.toInt ++ ")"

def bracketed (items : List String) : String := "[" ++ commaSeparated items ++ "]"

def position (p : Layout.Position Float) : String :=
  "(" ++ Text.padStart 6 (Number.fixed 1 p.x) ++ ", " ++ Text.padStart 7 (Number.fixed 1 p.y) ++ ")"

def layoutLines (t : Tree) : List String :=
  let l := Layout.of t Layout.standardSettings .firstDiscovery
  "=== Layout ===" ::
    l.nodes.map (fun card => "  " ++ Text.padEnd 12 card.id ++ " depth " ++ toString card.depth ++
      "  " ++ position card.position) ++
    l.exits.map fun card => "  " ++ Text.padEnd 12 card.id ++ " exit     " ++ position card.position

def oneLine (s : String) : String := " | ".intercalate (s.splitOn "\n")

def tooltipLines (t : Tree) : List String :=
  ["", "=== Tooltips ==="] ++ t.choices.flatMap fun entry =>
    (t.tooltip entry.2).toList.map fun tip =>
      "  " ++ entry.1 ++ "/" ++ entry.2.id ++ ": " ++ oneLine tip

def issueLines (t : Tree) : List String :=
  let issues := t.lint.issues
  ["", "=== Lint: " ++ toString issues.length ++ " issues ==="] ++
    issues.map fun issue => "  " ++ issue.line

def lines (t : Tree) : List String :=
  let s := Session.start t (setup.config t)
  let (played, last) := play s walk
  ["=== " ++ t.name ++ " ===", ""] ++ latest s ++ played ++
    ["Flags at the end: " ++ bracketed (last.world.flags.toList.map quoted),
     "State at the end: " ++ bracketed (last.world.counters.toList.map pair), ""] ++
    layoutLines t ++ tooltipLines t ++ issueLines t

def run (d : Disk) : Printout :=
  match loadTree d treePath with
  | .error e => ⟨101, "", unlines ["Failed to load tavern tree: " ++ e]⟩
  | .ok t => .success (unlines (lines t))

end Demo

end Dialogue.CommandLine
