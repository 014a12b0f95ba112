import DocPress.Text.Basic

namespace DocPress.Markup
open Text

def afterName? (name line : Text) : Option Text :=
  (afterLead? ".. ".toList (trim line)).bind (afterLead? name)

def isDirective (name line : Text) : Bool :=
  (afterName? name line).any (startsWith "::".toList)

/-- The argument of the directive `name`: what follows `:: `, if that is not blank. White space before the
argument is kept. -/
def directiveArgument? (name line : Text) : Option Text :=
  ((afterName? name line).bind (afterLead? ":: ".toList)).filter fun argument => !isBlank argument

def option? (line : Text) : Option (Text × Text) :=
  ((afterLead? [':'] (trim line)).bind (cut? ": ".toList)).filter fun (key, _) =>
    !key.isEmpty && key.all Char.isAlphanum

def optionValue? (key : Text) (lines : List Text) : Option Text :=
  ((lines.filterMap option?).filter fun option => option.1 = key).getLast?.map Prod.snd

def anchor? (line : Text) : Option Text :=
  ((afterLead? ".. _".toList (trimEnd line)).bind (beforeTail? [':'])).filter fun anchor => !anchor.isEmpty

def isFootnoteStart (line : Text) : Bool :=
  startsWith ".. [#".toList (trimStart line)

/-- Tag and text of a definition. The tag holds its `#` and at least one character more; the text is empty if it
starts on the next line. -/
def footnote? (line : Text) : Option (Text × Text) :=
  match (afterLead? ".. [".toList (trim line)).bind (cut? [']']) with
  | none => none
  | some (tag, after) =>
    if startsWith ['#'] tag && 2 ≤ tag.length then
      if after.isEmpty then some (tag, [])
      else (afterLead? [' '] after).map fun text => (tag, trim text)
    else none

end DocPress.Markup

namespace DocPress.Latex
open Text

def island (commands : List Text) : List Text :=
  [[], ".. raw:: latex".toList, []] ++ commands.map ("    ".toList ++ ·) ++ [[]]

end DocPress.Latex
