import Dialogue.Layout.Coordinate
import Dialogue.Story.Tree
/-!
# Layout settings

The distances and estimates that a layout is computed with.
-/

namespace Dialogue.Layout

/-- The settings of a layout. -/
structure Config (α : Type) where
  /-- From one level to the next. -/
  horizontalSpacing : α
  /-- From one card to the next in a level, before they are pushed apart. -/
  verticalSpacing : α
  /-- The least gap between two cards of a level. -/
  nodeMargin : α
  baseHeight : α
  charsPerLine : Nat
  lineHeight : α
  choiceHeight : α
  choicesPadding : α
  /-- From the last level to the exits. -/
  exitOffset : α
  /-- From one exit to the next. -/
  exitSpacing : α

variable {α : Type} [Coordinate α]

open Coordinate

/-- The settings that are used unless others are given. -/
def Config.standard : Config α where
  horizontalSpacing := ofCount 400
  verticalSpacing := ofCount 200
  nodeMargin := ofCount 50
  baseHeight := ofCount 80
  charsPerLine := 35
  lineHeight := ofCount 20
  choiceHeight := ofCount 30
  choicesPadding := ofCount 20
  exitOffset := ofCount 400
  exitSpacing := ofCount 150

/-- The number of lines that a text takes. A line holds at least one character. -/
def Config.lines (config : Config α) (text : String) : Nat :=
  let perLine := max config.charsPerLine 1
  (text.length + perLine - 1) / perLine

/-- The estimated height of a node's card: the text, and a row for each choice. -/
def Config.height (config : Config α) (node : Node) : α :=
  let choices : α :=
    if node.choices.isEmpty then ofCount 0
    else ofCount node.choices.length * config.choiceHeight + config.choicesPadding
  config.baseHeight + ofCount (config.lines node.text) * config.lineHeight + choices

end Dialogue.Layout
